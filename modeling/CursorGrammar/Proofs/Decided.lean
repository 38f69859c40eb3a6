import CursorGrammar.Proofs.Soundness

set_option autoImplicit false

/-! # Decided matchers

A matcher is decided at an offset if it is judged there to succeed or to fail. A matcher that calls
itself forever is not. A leaf is always decided, and a compound where its members are: those of a
sequence at the offsets at which they are tried, and that of a repetition from the offset on, as
every round either stalls or leaves fewer characters, or fewer rounds. -/

namespace CursorGrammar

variable {κ : Type} {grammar : Grammar κ} {source : Text} {p : Int}

/-- At the offset the matcher is judged to succeed or to fail. -/
def Decided (grammar : Grammar κ) (source : Text) (matcher : Matcher κ) (p : Int) : Prop :=
  ∃ outcome, Judged grammar source matcher p outcome

theorem Succeeds.decided {matcher : Matcher κ} {found : Match}
    (h : Succeeds grammar source matcher p found) : Decided grammar source matcher p :=
  ⟨some found, h⟩

theorem Fails.decided {matcher : Matcher κ} (h : Fails grammar source matcher p) :
    Decided grammar source matcher p :=
  ⟨none, h⟩

theorem Decided.cases {matcher : Matcher κ} (h : Decided grammar source matcher p) :
    (∃ found, Succeeds grammar source matcher p found) ∨ Fails grammar source matcher p := by
  obtain ⟨outcome, hjudged⟩ := h
  cases outcome with
  | none => exact Or.inr hjudged
  | some found => exact Or.inl ⟨found, hjudged⟩

theorem char_decided (value : Text) (hrange : source.InRange p) :
    Decided grammar source (.char value) p := by
  by_cases h : ∃ c, value.head? = some c ∧ (source.sliceFrom p).head? = some c
  · obtain ⟨c, hvalue, hrest⟩ := h
    obtain ⟨span, hspan⟩ := Span.exists_covers hrange.1 (q := p + 1) (by omega)
    exact (Succeeds.char hvalue hrest hspan).decided
  · exact (Fails.char h).decided

theorem pattern_decided (pattern : Pattern) (hrange : source.InRange p) :
    Decided grammar source (.pattern pattern) p := by
  by_cases h : ∃ found, pattern.find (source.sliceFrom p) = some found ∧
      found <+: source.sliceFrom p
  · obtain ⟨found, hfound, hbegins⟩ := h
    obtain ⟨span, hspan⟩ := Span.exists_covers hrange.1 (q := p + found.length) (by omega)
    exact (Succeeds.pattern hfound hbegins hspan).decided
  · exact (Fails.pattern fun found hfound hbegins => h ⟨found, hfound, hbegins⟩).decided

theorem opt_decided {matcher : Matcher κ} (hrange : source.InRange p)
    (h : Decided grammar source matcher p) : Decided grammar source (.opt matcher) p := by
  obtain ⟨span, hspan⟩ := Span.exists_covers hrange.1 (Int.le_refl p)
  rcases h.cases with ⟨found, hfound⟩ | hfails
  · exact (Succeeds.optFound hfound hspan).decided
  · exact (Succeeds.optNothing hfails hspan).decided

theorem alt_decided {matchers : List (Matcher κ)}
    (h : ∀ m ∈ matchers, Decided grammar source m p) :
    Decided grammar source (.alt matchers) p := by
  induction matchers with
  | nil => exact Fails.altNone.decided
  | cons first rest ih =>
    rcases (h first (List.mem_cons_self ..)).cases with ⟨found, hfound⟩ | hfirst
    · exact (Succeeds.altFirst hfound).decided
    · rcases (ih fun m hm => h m (List.mem_cons_of_mem _ hm)).cases with ⟨found, hfound⟩ | hrest
      · exact (Succeeds.altLater hfirst hfound).decided
      · exact (Fails.altAll hfirst hrest).decided

theorem call_decided {target : κ} {matcher : Matcher κ}
    (htarget : (grammar target).matcher? = some matcher)
    (h : Decided grammar source matcher p) : Decided grammar source (.call target) p := by
  rcases h.cases with ⟨found, hfound⟩ | hfails
  · exact (Succeeds.call htarget hfound).decided
  · exact (Fails.call htarget hfails).decided

/-- The matchers succeed in turn, or some first one of them fails. -/
def DecidedInTurn (grammar : Grammar κ) (source : Text) (matchers : List (Matcher κ)) (p : Int) :
    Prop :=
  (∃ collected q, SucceedInTurn grammar source matchers p collected q) ∨
    FailInTurn grammar source matchers p

theorem DecidedInTurn.cons {matcher : Matcher κ} {rest : List (Matcher κ)}
    (h : Decided grammar source matcher p)
    (hrest : ∀ found, Succeeds grammar source matcher p found →
      DecidedInTurn grammar source rest found.span.stop) :
    DecidedInTurn grammar source (matcher :: rest) p := by
  rcases h.cases with ⟨found, hfound⟩ | hfails
  · rcases hrest found hfound with ⟨collected, q, hrest⟩ | hrest
    · exact Or.inl ⟨found :: collected, q, .cons hfound hrest⟩
    · exact Or.inr (.later hfound hrest)
  · exact Or.inr (.first hfails)

theorem seq_decided {matchers : List (Matcher κ)} (hrange : source.InRange p)
    (h : DecidedInTurn grammar source matchers p) :
    Decided grammar source (.seq matchers) p := by
  rcases h with ⟨collected, q, hturn⟩ | hfails
  · obtain ⟨span, hspan⟩ := Span.exists_covers hrange.1 (hturn.bounds hrange).1
    exact (Succeeds.seq hturn hspan).decided
  · exact (Fails.seq hfails).decided

/-! ## Repetitions of decided matchers -/

section Repetition

variable {matcher : Matcher κ} {most : Option Int}

/-- With an upper bound, the rounds that are left become fewer. -/
theorem exists_repeats_bounded {bound : Int} {left count : Nat}
    (hleft : (bound - count).toNat = left) (hrange : source.InRange p)
    (h : ∀ q, p ≤ q → source.InRange q → Decided grammar source matcher q) :
    ∃ collected q stalled,
      Repeats grammar source matcher (some bound) count p collected q stalled := by
  induction left generalizing count p with
  | zero => exact ⟨[], p, false, .full (by omega)⟩
  | succ left ih =>
    have hroom : ∀ bound' ∈ some bound, (count : Int) < bound' := by
      rintro _ ⟨⟩
      omega
    rcases (h p (Int.le_refl p) hrange).cases with ⟨found, hfound⟩ | hfails
    · obtain ⟨-, hle, hafter⟩ := hfound.bounds hrange
      have hfewer : (bound - (count + 1 : Nat)).toNat = left := by omega
      obtain ⟨collected, q, stalled, hrest⟩ := ih hfewer hafter
        fun q hq => h q (Int.le_trans hle hq)
      exact ⟨found :: collected, q, stalled, .more hroom hfound nofun hrest⟩
    · exact ⟨[], p, false, .failed hroom hfails⟩

/-- Without an upper bound, a round stalls or leaves fewer characters. -/
theorem exists_repeats_unbounded {left : Nat} (count : Nat)
    (hleft : source.length < p + left) (hrange : source.InRange p)
    (h : ∀ q, p ≤ q → source.InRange q → Decided grammar source matcher q) :
    ∃ collected q stalled, Repeats grammar source matcher none count p collected q stalled := by
  induction left generalizing count p with
  | zero =>
    have := hrange.2
    omega
  | succ left ih =>
    rcases (h p (Int.le_refl p) hrange).cases with ⟨found, hfound⟩ | hfails
    · obtain ⟨hstart, hle, hafter⟩ := hfound.bounds hrange
      by_cases hwidth : found.span.stop = found.span.start
      · exact ⟨[found], _, true, .stalled hfound hwidth⟩
      · obtain ⟨collected, q, stalled, hrest⟩ := ih (count + 1) (by omega) hafter
          fun q hq => h q (Int.le_trans hle hq)
        exact ⟨found :: collected, q, stalled, .more nofun hfound (fun _ => hwidth) hrest⟩
    · exact ⟨[], p, false, .failed nofun hfails⟩

/-- A repetition is decided where its matcher is decided from there on. -/
theorem quant_decided (least : Int) (hrange : source.InRange p)
    (h : ∀ q, p ≤ q → source.InRange q → Decided grammar source matcher q) :
    Decided grammar source (.quant matcher least most) p := by
  have hrepeats : ∃ collected q stalled,
      Repeats grammar source matcher most 0 p collected q stalled := by
    cases most with
    | some bound => exact exists_repeats_bounded rfl hrange h
    | none =>
      have hleft : source.length < p + (source.length + 1 : Nat) := by
        have := hrange.1
        omega
      exact exists_repeats_unbounded 0 hleft hrange h
  obtain ⟨collected, q, stalled, hrepeats⟩ := hrepeats
  by_cases henough : stalled = true ∨ least ≤ collected.length
  · obtain ⟨span, hspan⟩ := Span.exists_covers hrange.1 (hrepeats.bounds hrange).1
    exact (Succeeds.quant hrepeats henough hspan).decided
  · exact (Fails.quant hrepeats henough).decided

end Repetition

end CursorGrammar
