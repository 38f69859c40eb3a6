import CursorGrammar.Proofs.Calls
import CursorGrammar.Proofs.Reading

set_option autoImplicit false

/-! # Ordered choice

What a matcher recognises, said without a cursor that moves: at an offset of the text it succeeds
with a match, or it fails. The judgements are inductive, so a matcher that calls itself forever
does neither. The members of a sequence are judged in turn, each where the one before it ends, and
so are the rounds of a repetition. -/

namespace CursorGrammar

/-- The span reaches from the one offset to the other. -/
def Span.Covers (span : Span) (start stop : Int) : Prop :=
  span.start = start ∧ span.stop = stop

theorem Span.Covers.bounds {span : Span} {source : Text} {p q : Int} (h : span.Covers p q)
    (hle : p ≤ q) (hrange : source.InRange q) :
    span.start = p ∧ p ≤ span.stop ∧ source.InRange span.stop := by
  obtain ⟨rfl, rfl⟩ := h
  exact ⟨rfl, hle, hrange⟩

theorem Span.exists_covers {p q : Int} (hstart : 0 ≤ p) (hle : p ≤ q) :
    ∃ span : Span, span.Covers p q :=
  ⟨⟨p, q, hstart, hle⟩, rfl, rfl⟩

variable {κ : Type}

mutual

/-- The matcher succeeds at the offset, with this match. -/
inductive Succeeds (grammar : Grammar κ) (source : Text) : Matcher κ → Int → Match → Prop
  | char {value : Text} {p : Int} {c : Char} {span : Span} (hvalue : value.head? = some c)
      (hrest : (source.sliceFrom p).head? = some c) (hspan : span.Covers p (p + 1)) :
      Succeeds grammar source (.char value) p ⟨.text value, span⟩
  | pattern {pattern : Pattern} {p : Int} {found : Text} {span : Span}
      (hfound : pattern.find (source.sliceFrom p) = some found)
      (hbegins : found <+: source.sliceFrom p) (hspan : span.Covers p (p + found.length)) :
      Succeeds grammar source (.pattern pattern) p ⟨.text found, span⟩
  | seq {matchers : List (Matcher κ)} {p q : Int} {collected : List Match} {span : Span}
      (h : SucceedInTurn grammar source matchers p collected q) (hspan : span.Covers p q) :
      Succeeds grammar source (.seq matchers) p ⟨.ofMatches collected, span⟩
  | altFirst {matcher : Matcher κ} {others : List (Matcher κ)} {p : Int} {found : Match}
      (h : Succeeds grammar source matcher p found) :
      Succeeds grammar source (.alt (matcher :: others)) p found
  | altLater {matcher : Matcher κ} {others : List (Matcher κ)} {p : Int} {found : Match}
      (hfirst : Fails grammar source matcher p)
      (h : Succeeds grammar source (.alt others) p found) :
      Succeeds grammar source (.alt (matcher :: others)) p found
  | quant {matcher : Matcher κ} {least : Int} {most : Option Int} {p q : Int}
      {collected : List Match} {stalled : Bool} {span : Span}
      (h : Repeats grammar source matcher most 0 p collected q stalled)
      (henough : stalled = true ∨ least ≤ collected.length) (hspan : span.Covers p q) :
      Succeeds grammar source (.quant matcher least most) p ⟨.ofMatches collected, span⟩
  | optFound {matcher : Matcher κ} {p : Int} {found : Match} {span : Span}
      (h : Succeeds grammar source matcher p found) (hspan : span.Covers p p) :
      Succeeds grammar source (.opt matcher) p ⟨found.toValue, span⟩
  | optNothing {matcher : Matcher κ} {p : Int} {span : Span}
      (h : Fails grammar source matcher p) (hspan : span.Covers p p) :
      Succeeds grammar source (.opt matcher) p ⟨.null, span⟩
  | call {target : κ} {matcher : Matcher κ} {p : Int} {found : Match}
      (htarget : (grammar target).matcher? = some matcher)
      (h : Succeeds grammar source matcher p found) :
      Succeeds grammar source (.call target) p found

/-- The matcher fails at the offset. -/
inductive Fails (grammar : Grammar κ) (source : Text) : Matcher κ → Int → Prop
  | char {value : Text} {p : Int}
      (h : ¬∃ c, value.head? = some c ∧ (source.sliceFrom p).head? = some c) :
      Fails grammar source (.char value) p
  | pattern {pattern : Pattern} {p : Int}
      (h : ∀ found, pattern.find (source.sliceFrom p) = some found →
        ¬found <+: source.sliceFrom p) :
      Fails grammar source (.pattern pattern) p
  | seq {matchers : List (Matcher κ)} {p : Int} (h : FailInTurn grammar source matchers p) :
      Fails grammar source (.seq matchers) p
  | altNone {p : Int} : Fails grammar source (.alt []) p
  | altAll {matcher : Matcher κ} {others : List (Matcher κ)} {p : Int}
      (hfirst : Fails grammar source matcher p) (h : Fails grammar source (.alt others) p) :
      Fails grammar source (.alt (matcher :: others)) p
  | quant {matcher : Matcher κ} {least : Int} {most : Option Int} {p q : Int}
      {collected : List Match} {stalled : Bool}
      (h : Repeats grammar source matcher most 0 p collected q stalled)
      (hfew : ¬(stalled = true ∨ least ≤ collected.length)) :
      Fails grammar source (.quant matcher least most) p
  | call {target : κ} {matcher : Matcher κ} {p : Int}
      (htarget : (grammar target).matcher? = some matcher)
      (h : Fails grammar source matcher p) : Fails grammar source (.call target) p

/-- The matchers succeed one after the other from the first offset on, with these matches, up to
    the other offset. -/
inductive SucceedInTurn (grammar : Grammar κ) (source : Text) :
    List (Matcher κ) → Int → List Match → Int → Prop
  | nil {p : Int} : SucceedInTurn grammar source [] p [] p
  | cons {matcher : Matcher κ} {rest : List (Matcher κ)} {p q : Int} {found : Match}
      {collected : List Match} (h : Succeeds grammar source matcher p found)
      (hrest : SucceedInTurn grammar source rest found.span.stop collected q) :
      SucceedInTurn grammar source (matcher :: rest) p (found :: collected) q

/-- Of the matchers one after the other, some first one fails. -/
inductive FailInTurn (grammar : Grammar κ) (source : Text) : List (Matcher κ) → Int → Prop
  | first {matcher : Matcher κ} {rest : List (Matcher κ)} {p : Int}
      (h : Fails grammar source matcher p) : FailInTurn grammar source (matcher :: rest) p
  | later {matcher : Matcher κ} {rest : List (Matcher κ)} {p : Int} {found : Match}
      (h : Succeeds grammar source matcher p found)
      (hrest : FailInTurn grammar source rest found.span.stop) :
      FailInTurn grammar source (matcher :: rest) p

/-- After `count` rounds of a repetition, the further rounds from the first offset on have these
    matches and reach the other offset. They end because there must be no more, because the matcher
    fails, or because without an upper bound a match covers nothing: then they have stalled. -/
inductive Repeats (grammar : Grammar κ) (source : Text) :
    Matcher κ → Option Int → Nat → Int → List Match → Int → Bool → Prop
  | full {matcher : Matcher κ} {bound : Int} {count : Nat} {p : Int} (h : bound ≤ count) :
      Repeats grammar source matcher (some bound) count p [] p false
  | failed {matcher : Matcher κ} {most : Option Int} {count : Nat} {p : Int}
      (hroom : ∀ bound ∈ most, (count : Int) < bound) (h : Fails grammar source matcher p) :
      Repeats grammar source matcher most count p [] p false
  | stalled {matcher : Matcher κ} {count : Nat} {p : Int} {found : Match}
      (h : Succeeds grammar source matcher p found)
      (hwidth : found.span.stop = found.span.start) :
      Repeats grammar source matcher none count p [found] found.span.stop true
  | more {matcher : Matcher κ} {most : Option Int} {count : Nat} {p q : Int} {found : Match}
      {collected : List Match} {stalled : Bool}
      (hroom : ∀ bound ∈ most, (count : Int) < bound)
      (h : Succeeds grammar source matcher p found)
      (hwidth : most = none → found.span.stop ≠ found.span.start)
      (hrest : Repeats grammar source matcher most (count + 1) found.span.stop collected q
        stalled) :
      Repeats grammar source matcher most count p (found :: collected) q stalled

end

variable {grammar : Grammar κ} {source : Text}

/-! ## Where matches are

A success inside the text begins at the offset, and ends inside the text. -/

mutual

theorem Succeeds.bounds {matcher : Matcher κ} {p : Int} {found : Match}
    (hrange : source.InRange p) : Succeeds grammar source matcher p found →
      found.span.start = p ∧ p ≤ found.span.stop ∧ source.InRange found.span.stop
  | .char _ hrest hspan => by
    have hlength := Text.length_sliceFrom source p
    rw [Text.position_of_mem hrange.1 hrange.2] at hlength
    have hpos : 0 < (source.sliceFrom p).length := by
      cases hslice : source.sliceFrom p with
      | nil => rw [hslice] at hrest; cases hrest
      | cons c rest => exact Nat.succ_pos _
    obtain ⟨h0, hn⟩ := hrange
    exact hspan.bounds (by omega) ⟨by omega, by omega⟩
  | .pattern _ hbegins hspan => by
    have hlength := hbegins.length_le
    rw [Text.length_sliceFrom, Text.position_of_mem hrange.1 hrange.2] at hlength
    obtain ⟨h0, hn⟩ := hrange
    exact hspan.bounds (by omega) ⟨by omega, by omega⟩
  | .seq h hspan => by
    obtain ⟨hle, hrange'⟩ := h.bounds hrange
    exact hspan.bounds hle hrange'
  | .altFirst h => h.bounds hrange
  | .altLater _ h => h.bounds hrange
  | .quant h _ hspan => by
    obtain ⟨hle, hrange'⟩ := h.bounds hrange
    exact hspan.bounds hle hrange'
  | .optFound _ hspan => hspan.bounds (Int.le_refl p) hrange
  | .optNothing _ hspan => hspan.bounds (Int.le_refl p) hrange
  | .call _ h => h.bounds hrange

theorem SucceedInTurn.bounds {matchers : List (Matcher κ)} {p q : Int} {collected : List Match}
    (hrange : source.InRange p) : SucceedInTurn grammar source matchers p collected q →
      p ≤ q ∧ source.InRange q
  | .nil => ⟨Int.le_refl p, hrange⟩
  | .cons h hrest => by
    obtain ⟨-, hle, hrange'⟩ := h.bounds hrange
    obtain ⟨hle', hrange''⟩ := hrest.bounds hrange'
    exact ⟨Int.le_trans hle hle', hrange''⟩

theorem Repeats.bounds {matcher : Matcher κ} {most : Option Int} {count : Nat} {p q : Int}
    {collected : List Match} {stalled : Bool} (hrange : source.InRange p) :
    Repeats grammar source matcher most count p collected q stalled → p ≤ q ∧ source.InRange q
  | .full _ => ⟨Int.le_refl p, hrange⟩
  | .failed _ _ => ⟨Int.le_refl p, hrange⟩
  | .stalled h _ => (h.bounds hrange).2
  | .more _ h _ hrest => by
    obtain ⟨-, hle, hrange'⟩ := h.bounds hrange
    obtain ⟨hle', hrange''⟩ := hrest.bounds hrange'
    exact ⟨Int.le_trans hle hle', hrange''⟩

end

end CursorGrammar
