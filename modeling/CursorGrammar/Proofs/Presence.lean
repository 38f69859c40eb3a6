import CursorGrammar.Proofs.Agreement
import CursorGrammar.Proofs.InTurn

set_option autoImplicit false

/-! # Members that may be missing

A repetition of at most one round takes what its matcher matches if that is there, and nothing if it
is not. Inside a sequence it therefore stands for the matcher itself, or for no member at all, and
the members behind it have no say in which: if they fail, the round is not given back. An option
shows beforehand what the repetition would take. -/

namespace CursorGrammar

section Judgements

variable {κ : Type} {grammar : Grammar κ} {source : Text} {p q : Int}
variable {matcher : Matcher κ} {front front' members back : List (Matcher κ)}

/-! ## Fronts that end at the same place -/

/-- From an offset on, members succeed in turn up to one place at most. -/
theorem SucceedInTurn.stop_unique {founds founds' : List Match} {q' : Int}
    (hrange : source.InRange p) (h : SucceedInTurn grammar source members p founds q)
    (h' : SucceedInTurn grammar source members p founds' q') : q = q' := by
  obtain ⟨span, hspan, hseq⟩ := h.exists_seq hrange
  obtain ⟨span', hspan', hseq'⟩ := h'.exists_seq hrange
  have hjudged : Judged grammar source (.seq members) p (some _) := hseq
  have hjudged' : Judged grammar source (.seq members) p (some _) := hseq'
  have hsame : span = span' := by
    simpa using congrArg (Option.map Match.span) (hjudged.unique hrange hjudged')
  rw [← hspan.2, hsame, hspan'.2]

theorem SucceedInTurn.not_failInTurn {founds : List Match} (hrange : source.InRange p)
    (h : SucceedInTurn grammar source members p founds q) :
    ¬FailInTurn grammar source members p := by
  obtain ⟨span, -, hseq⟩ := h.exists_seq hrange
  exact fun hfails => not_fails_of_succeeds hrange hseq (.seq hfails)

/-- What a sequence covers does not depend on its members in front, but for where they end. -/
theorem Judged.exists_coverAlike {founds founds' : List Match} {outcome : Option Match}
    (hrange : source.InRange p) (hfront : SucceedInTurn grammar source front p founds q)
    (hfront' : SucceedInTurn grammar source front' p founds' q)
    (h : Judged grammar source (.seq (front ++ back)) p outcome) :
    ∃ outcome', Judged grammar source (.seq (front' ++ back)) p outcome' ∧
      Match.CoverAlike outcome outcome' := by
  cases outcome with
  | none =>
    cases h with
    | seq hturn =>
      rcases failInTurn_append_iff.1 hturn with hfails | ⟨first, r, hfirst, hback⟩
      · exact absurd hfails (hfront.not_failInTurn hrange)
      · obtain rfl := hfront.stop_unique hrange hfirst
        exact ⟨none, .seq (failInTurn_append_iff.2 (Or.inr ⟨founds', q, hfront', hback⟩)), trivial⟩
  | some found =>
    cases h with
    | @seq _ _ _ _ span hturn hspan =>
      obtain ⟨first, second, r, -, hfirst, hback⟩ := succeedInTurn_append_iff.1 hturn
      obtain rfl := hfront.stop_unique hrange hfirst
      have hturn' := succeedInTurn_append_iff.2 ⟨founds', second, q, rfl, hfront', hback⟩
      exact ⟨some ⟨_, span⟩, .seq hturn' hspan, rfl, trivial⟩

/-! ## One round at most -/

/-- Whatever the matcher is judged to do, one round at most of it takes that. -/
theorem Judged.exists_round {outcome : Option Match} (hrange : source.InRange p)
    (h : Judged grammar source matcher p outcome) :
    ∃ span, span.Covers p (Match.stopFrom p outcome) ∧
      Succeeds grammar source (.quant matcher 0 (some 1)) p ⟨.ofMatches outcome.toList, span⟩ := by
  have hroom : ∀ bound ∈ some (1 : Int), ((0 : Nat) : Int) < bound := by simp
  cases outcome with
  | none =>
    obtain ⟨span, hspan⟩ := Span.exists_covers hrange.1 (Int.le_refl p)
    exact ⟨span, hspan, .quant (.failed hroom h) (Or.inr (Int.natCast_nonneg _)) hspan⟩
  | some found =>
    have hfound : Succeeds grammar source matcher p found := h
    obtain ⟨span, hspan⟩ := Span.exists_covers hrange.1 (hfound.bounds hrange).2.1
    have hround := Repeats.more hroom hfound nofun (.full (Int.le_refl 1))
    exact ⟨span, hspan, .quant hround (Or.inr (Int.natCast_nonneg _)) hspan⟩

/-- Behind others, one round at most ends where its matcher does, or where they do if that fails. -/
theorem SucceedInTurn.exists_round {founds : List Match} {outcome : Option Match}
    (hrange : source.InRange p) (hturn : SucceedInTurn grammar source members p founds q)
    (h : Judged grammar source matcher q outcome) :
    ∃ founds', SucceedInTurn grammar source (members ++ [.quant matcher 0 (some 1)]) p founds'
      (Match.stopFrom q outcome) := by
  obtain ⟨span, hspan, hround⟩ := h.exists_round (hturn.bounds hrange).2
  rw [← hspan.2]
  exact ⟨_, hturn.concat hround⟩

/-- Whatever the matcher is judged to do, an option of it shows that. -/
theorem Judged.exists_option {outcome : Option Match} (hrange : source.InRange p)
    (h : Judged grammar source matcher p outcome) :
    ∃ span, span.Covers p p ∧
      Succeeds grammar source (.opt matcher) p ⟨.ofOption outcome, span⟩ := by
  obtain ⟨span, hspan⟩ := Span.exists_covers hrange.1 (Int.le_refl p)
  cases outcome with
  | none => exact ⟨span, hspan, .optNothing h hspan⟩
  | some found => exact ⟨span, hspan, .optFound h hspan⟩

end Judgements

/-- The first match shows what the second has taken: both hold nothing, or the first holds the one
    match that the second has collected, and that ends where the second does. -/
def Match.Previews (seen taken : Match) : Prop :=
  (seen.value = .null ∧ taken.value = .ofMatches []) ∨
    ∃ single : Match, seen.value = single.toValue ∧ taken.value = .ofMatches [single] ∧
      single.span.stop = taken.span.stop

namespace Matcher

variable {source : Text} {progress : Progress} {limits : Limits} {matcher : Matcher Empty}
variable {front front' back : List (Matcher Empty)}

/-- Behind fronts that end at the same place, sequences settle with matches that cover the same. -/
theorem seq_settleAlike_of_fronts {founds founds' : List Match} {q : Int}
    (hrange : source.InRange progress.cursor)
    (hfront : SucceedInTurn .plain source front progress.cursor founds q)
    (hfront' : SucceedInTurn .plain source front' progress.cursor founds' q)
    (hnesting : (seq (front ++ back)).depth ≤ limits.nesting)
    (hnesting' : (seq (front' ++ back)).depth ≤ limits.nesting)
    (hrounds : source.length < limits.rounds) :
    Behaviour.SettleAlike Match.CoverAlike source progress
      ((seq (front ++ back)).behaviour .plain limits)
      ((seq (front' ++ back)).behaviour .plain limits) :=
  settleAlike_of_judged hrange hnesting hnesting' hrounds fun _ hjudged =>
    hjudged.exists_coverAlike hrange hfront hfront'

/-- An option shows what a repetition of at most one round takes. -/
theorem opt_previews_quant_one (matcher : Matcher Empty) (hrange : source.InRange progress.cursor)
    (hnesting : matcher.depth < limits.nesting) (hrounds : source.length < limits.rounds) :
    ∃ seen taken, ((opt matcher).behaviour .plain limits).Settles source progress (some seen) ∧
      ((quant matcher 0 (some 1)).behaviour .plain limits).Settles source progress (some taken) ∧
      seen.Previews taken := by
  obtain ⟨outcome, hjudged⟩ := matcher.plain_exists_judged hrange
  obtain ⟨span, -, hseen⟩ := hjudged.exists_option hrange
  obtain ⟨span', hspan', htaken⟩ := hjudged.exists_round hrange
  have hopt : (opt matcher).depth ≤ limits.nesting := by
    rw [depth]
    omega
  have hquant : (quant matcher 0 (some 1)).depth ≤ limits.nesting := by
    rw [depth]
    omega
  refine ⟨_, _, plain_returned_of_judged hrange hopt hrounds (some _) hseen,
    plain_returned_of_judged hrange hquant hrounds (some _) htaken, ?_⟩
  cases outcome with
  | none => exact Or.inl ⟨rfl, rfl⟩
  | some single => exact Or.inr ⟨single, rfl, rfl, hspan'.2.symm⟩

end Matcher

end CursorGrammar
