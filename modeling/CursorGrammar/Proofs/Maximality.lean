import CursorGrammar.Proofs.Agreement
import CursorGrammar.Proofs.Decided
import CursorGrammar.Proofs.InTurn

set_option autoImplicit false

/-! # Repetitions that take all they can

A repetition without an upper bound ends where its matcher takes nothing more: it fails there, or it
matches nothing. So if the matcher is to follow its own repetition, it fails or adds nothing. And the
repetition takes nothing more either where it has ended, so that a repetition of it comes to an end
after one round with it: repetitions without upper bounds collapse into one. -/

namespace CursorGrammar

variable {κ : Type} {grammar : Grammar κ} {source : Text} {matcher : Matcher κ}

/-! ## Where nothing more is taken -/

/-- At the offset the matcher fails, or it succeeds with a match that covers nothing. -/
def TakesNothing (grammar : Grammar κ) (source : Text) (matcher : Matcher κ) (p : Int) : Prop :=
  Fails grammar source matcher p ∨
    ∃ found, Succeeds grammar source matcher p found ∧ found.span.Covers p p

/-- Where the rounds end, the matcher takes nothing more. -/
theorem Repeats.takesNothing {count : Nat} {p q : Int} {founds : List Match} {stalled : Bool}
    (hrange : source.InRange p) : Repeats grammar source matcher none count p founds q stalled →
      TakesNothing grammar source matcher q
  | .failed _ h => Or.inl h
  | .stalled h hwidth => by
    obtain ⟨hstart, -⟩ := h.bounds hrange
    have hstop := hwidth.trans hstart
    rw [hstop]
    exact Or.inr ⟨_, h, hstart, hstop⟩
  | .more _ h _ hrest => hrest.takesNothing (h.bounds hrange).2.2

namespace TakesNothing

variable {p : Int}

theorem stop_eq (h : TakesNothing grammar source matcher p) (hrange : source.InRange p)
    {found : Match} (hfound : Succeeds grammar source matcher p found) : found.span.stop = p := by
  rcases h with hfails | ⟨found', hfound', hspan⟩
  · exact absurd hfails (not_fails_of_succeeds hrange hfound)
  · have hjudged : Judged grammar source matcher p (some found) := hfound
    have hjudged' : Judged grammar source matcher p (some found') := hfound'
    cases hjudged.unique hrange hjudged'
    exact hspan.2

/-- Whatever the matcher is judged to do, it leaves the cursor where it is. -/
theorem exists_judged (h : TakesNothing grammar source matcher p) :
    ∃ outcome, Judged grammar source matcher p outcome ∧ Match.stopFrom p outcome = p ∧
      ∀ found, outcome = some found → found.span.Covers p p := by
  rcases h with hfails | ⟨found, hfound, hspan⟩
  · exact ⟨none, hfails, rfl, nofun⟩
  · refine ⟨some found, hfound, hspan.2, ?_⟩
    rintro _ ⟨⟩
    exact hspan

/-- Further rounds end where they begin. -/
theorem exists_repeats (h : TakesNothing grammar source matcher p) (count : Nat) :
    ∃ founds stalled, Repeats grammar source matcher none count p founds p stalled := by
  rcases h with hfails | ⟨found, hfound, hstart, hstop⟩
  · exact ⟨[], false, .failed nofun hfails⟩
  · have hround : Repeats grammar source matcher none count p [found] found.span.stop true :=
      .stalled hfound (hstop.trans hstart.symm)
    rw [hstop] at hround
    exact ⟨[found], true, hround⟩

/-- Where the matcher takes nothing, its repetition takes nothing. -/
theorem quant (h : TakesNothing grammar source matcher p) (hrange : source.InRange p)
    (least : Int) : TakesNothing grammar source (.quant matcher least none) p := by
  obtain ⟨founds, stalled, hrounds⟩ := h.exists_repeats 0
  by_cases henough : stalled = true ∨ least ≤ founds.length
  · obtain ⟨span, hspan⟩ := Span.exists_covers hrange.1 (Int.le_refl p)
    exact Or.inr ⟨_, .quant hrounds henough hspan, hspan⟩
  · exact Or.inl (.quant hrounds henough)

end TakesNothing

/-- Where a repetition without an upper bound ends, its matcher takes nothing more. -/
theorem Succeeds.takesNothing {least p : Int} {found : Match} (hrange : source.InRange p)
    (h : Succeeds grammar source (.quant matcher least none) p found) :
    TakesNothing grammar source matcher found.span.stop := by
  cases h with
  | quant hrounds _ hspan =>
    rw [hspan.2]
    exact hrounds.takesNothing hrange

/-- A repetition that asks for no rounds never fails. -/
theorem not_fails_quant_of_nonpos {least p : Int} {most : Option Int} (hleast : least ≤ 0) :
    ¬Fails grammar source (.quant matcher least most) p := by
  intro h
  cases h with
  | quant _ hfew => exact hfew (Or.inr (by omega))

/-- If the matcher follows its own repetition and both succeed, then they cover what the repetition
    covers. -/
theorem Succeeds.span_of_possessive {least p : Int} {whole : Match} (hrange : source.InRange p)
    (h : Succeeds grammar source (.seq [.quant matcher least none, matcher]) p whole) :
    ∃ found more, Succeeds grammar source (.quant matcher least none) p found ∧
      Succeeds grammar source matcher found.span.stop more ∧
      more.span.Covers found.span.stop found.span.stop ∧ whole.span = found.span := by
  cases h with
  | seq hturn hspan =>
    obtain ⟨found, _, rfl, hfound, hrest⟩ := succeedInTurn_cons_iff.1 hturn
    obtain ⟨more, rfl, rfl, hmore⟩ := succeedInTurn_singleton_iff.1 hrest
    obtain ⟨hstart, -, hrange'⟩ := hfound.bounds hrange
    have hstop := (hfound.takesNothing hrange).stop_eq hrange' hmore
    exact ⟨found, more, hfound, hmore, ⟨(hmore.bounds hrange').1, hstop⟩,
      Span.ext_bounds (hspan.1.trans hstart.symm) (hspan.2.trans hstop)⟩

/-! ## Repetitions of repetitions -/

/-- The rounds of a repetition with a floor of one at most are a single round of it when it is
    repeated, or none at all. They are enough for a floor of one at most just if they would have been
    enough for both floors. -/
theorem Repeats.collapsed {inner outer p q : Int} {founds : List Match} {stalled : Bool}
    (hinner : inner ≤ 1) (houter : outer ≤ 1) (hrange : source.InRange p)
    (h : Repeats grammar source matcher none 0 p founds q stalled) :
    ∃ founds' stalled',
      Repeats grammar source (.quant matcher inner none) none 0 p founds' q stalled' ∧
      ((stalled' = true ∨ outer ≤ founds'.length) ↔
        (stalled = true ∨ min inner outer ≤ founds.length)) := by
  by_cases henough : stalled = true ∨ inner ≤ founds.length
  · obtain ⟨hle, hrange'⟩ := h.bounds hrange
    obtain ⟨span, hstart, rfl⟩ := Span.exists_covers hrange.1 hle
    have hround := Succeeds.quant h henough ⟨hstart, rfl⟩
    have hboth : stalled = true ∨ min inner outer ≤ founds.length :=
      henough.imp_right fun hinner' => by omega
    by_cases hwidth : span.stop = span.start
    · exact ⟨[_], true, .stalled hround hwidth, iff_of_true (Or.inl rfl) hboth⟩
    · -- a second round begins where nothing more is taken
      obtain ⟨others, stalled', hothers⟩ :=
        ((h.takesNothing hrange).quant hrange' inner).exists_repeats 1
      refine ⟨_ :: others, stalled', .more nofun hround (fun _ => hwidth) hothers,
        iff_of_true (Or.inr ?_) hboth⟩
      rw [List.length_cons]
      omega
  · -- too few rounds for a floor of one are none
    have hfails := Fails.quant h henough
    rw [not_or, Bool.not_eq_true] at henough
    obtain ⟨rfl, hfew⟩ := henough
    have hnone : founds = [] := List.length_eq_zero_iff.1 (by omega)
    subst hnone
    rw [List.length_nil] at hfew
    cases h with
    | failed _ _ =>
      refine ⟨[], false, .failed nofun hfails, or_congr_right ?_⟩
      rw [List.length_nil]
      omega

/-- What a repetition is judged to do with the lower of two floors has its like in what the
    repetition with the one floor of the repetition with the other is judged to do. -/
theorem Judged.exists_collapsed {inner outer p : Int} {outcome : Option Match}
    (hinner : inner ≤ 1) (houter : outer ≤ 1) (hrange : source.InRange p)
    (h : Judged grammar source (.quant matcher (min inner outer) none) p outcome) :
    ∃ outcome', Judged grammar source (.quant (.quant matcher inner none) outer none) p outcome' ∧
      Match.CoverAlike outcome outcome' := by
  cases outcome with
  | none =>
    cases h with
    | quant hrounds hfew =>
      obtain ⟨founds', stalled', hnested, henough⟩ := hrounds.collapsed hinner houter hrange
      exact ⟨none, .quant hnested (mt henough.1 hfew), trivial⟩
  | some found =>
    cases h with
    | @quant _ _ _ _ _ _ _ span hrounds henough' hspan =>
      obtain ⟨founds', stalled', hnested, henough⟩ := hrounds.collapsed hinner houter hrange
      exact ⟨some ⟨.ofMatches founds', span⟩, .quant hnested (henough.2 henough') hspan, rfl,
        trivial⟩

/-! ## Matchers without calls -/

/-- Wherever the behaviour is called inside the text, a match that it gives covers something. -/
def Behaviour.NeverMatchesNothing (source : Text) (behaviour : Behaviour) : Prop :=
  ∀ progress found, source.InRange progress.cursor →
    behaviour.Gives source progress (some found) → found.span.stop ≠ found.span.start

namespace Matcher

variable {source : Text} {progress : Progress} {limits : Limits}

theorem char_neverMatchesNothing (value source : Text) (limits : Limits) :
    ((char value : Matcher Empty).behaviour .plain limits).NeverMatchesNothing source := by
  rintro progress found hrange ⟨progress', hrun⟩
  obtain ⟨hfound, -⟩ := (plain_sound _ source limits progress hrange).of_returned hrun
  cases hfound with
  | char _ _ hspan =>
    rw [hspan.1, hspan.2]
    omega

/-- Of a matcher without calls, inside the text and within wide limits, a repetition without an upper
    bound of a repetition without an upper bound settles as a single one does with the lower of the
    two floors, if these are one at most: both give nothing, or matches that cover the same. -/
theorem quant_quant_settleAlike (matcher : Matcher Empty) (inner outer : Int) (hinner : inner ≤ 1)
    (houter : outer ≤ 1) (hrange : source.InRange progress.cursor)
    (hnesting : matcher.depth + 2 ≤ limits.nesting) (hrounds : source.length < limits.rounds) :
    Behaviour.SettleAlike Match.CoverAlike source progress
      ((quant matcher (min inner outer) none).behaviour .plain limits)
      ((quant (quant matcher inner none) outer none).behaviour .plain limits) := by
  refine settleAlike_of_judged hrange ?_ ?_ hrounds fun outcome hjudged =>
    hjudged.exists_collapsed hinner houter hrange
  · simp only [depth]
    omega
  · simp only [depth]
    omega

end Matcher

end CursorGrammar
