import Mathlib.Data.List.Forall2
import CursorGrammar.Proofs.Agreement
import CursorGrammar.Proofs.InTurn

set_option autoImplicit false

/-! # Matchers in place of others

A tree whose calls are places to be filled is what stands around other matchers. If whatever one
matcher is judged to do another is judged to do as well, then that is so of all trees around
them: what a compound is judged to do depends on what its members are judged to do and on nothing
else of them. -/

namespace CursorGrammar

variable {ι κ : Type} {grammar : Grammar κ} {source : Text}

/-- Whatever the first matcher is judged to do, at any offset, the second is judged to do as
    well. -/
def JudgedAs (grammar : Grammar κ) (source : Text) (matcher matcher' : Matcher κ) : Prop :=
  ∀ p outcome, Judged grammar source matcher p outcome → Judged grammar source matcher' p outcome

section Compounds

variable {matcher matcher' : Matcher κ} {matchers matchers' : List (Matcher κ)} {p q : Int}

theorem JudgedAs.refl (matcher : Matcher κ) : JudgedAs grammar source matcher matcher :=
  fun _ _ => id

theorem JudgedAs.succeeds (h : JudgedAs grammar source matcher matcher') {found : Match}
    (hfound : Succeeds grammar source matcher p found) :
    Succeeds grammar source matcher' p found :=
  h p (some found) hfound

theorem JudgedAs.fails (h : JudgedAs grammar source matcher matcher')
    (hfails : Fails grammar source matcher p) : Fails grammar source matcher' p :=
  h p none hfails

/-! ## Members in turn -/

theorem SucceedInTurn.judgedAs {founds : List Match}
    (h : List.Forall₂ (JudgedAs grammar source) matchers matchers')
    (hturn : SucceedInTurn grammar source matchers p founds q) :
    SucceedInTurn grammar source matchers' p founds q := by
  induction h generalizing p founds with
  | nil => exact hturn
  | cons hfirst _ ih =>
    obtain ⟨found, collected, rfl, hfound, hrest⟩ := succeedInTurn_cons_iff.1 hturn
    exact .cons (hfirst.succeeds hfound) (ih hrest)

theorem FailInTurn.judgedAs (h : List.Forall₂ (JudgedAs grammar source) matchers matchers')
    (hturn : FailInTurn grammar source matchers p) : FailInTurn grammar source matchers' p := by
  induction h generalizing p with
  | nil => exact hturn
  | cons hfirst _ ih =>
    rcases failInTurn_cons_iff.1 hturn with hfails | ⟨found, hfound, hrest⟩
    · exact .first (hfirst.fails hfails)
    · exact .later (hfirst.succeeds hfound) (ih hrest)

theorem JudgedAs.seq (h : List.Forall₂ (JudgedAs grammar source) matchers matchers') :
    JudgedAs grammar source (.seq matchers) (.seq matchers') := by
  rintro p (_ | found) hjudged
  · cases hjudged with
    | seq hturn => exact Fails.seq (hturn.judgedAs h)
  · cases hjudged with
    | seq hturn hspan => exact Succeeds.seq (hturn.judgedAs h) hspan

/-! ## Branches in order -/

theorem JudgedAs.alt (h : List.Forall₂ (JudgedAs grammar source) matchers matchers') :
    JudgedAs grammar source (.alt matchers) (.alt matchers') := by
  intro p outcome hjudged
  induction h with
  | nil => exact hjudged
  | cons hfirst _ ih =>
    cases outcome with
    | none =>
      cases hjudged with
      | altAll hfails hothers => exact Fails.altAll (hfirst.fails hfails) (ih hothers)
    | some found =>
      cases hjudged with
      | altFirst hfound => exact Succeeds.altFirst (hfirst.succeeds hfound)
      | altLater hfails hothers => exact Succeeds.altLater (hfirst.fails hfails) (ih hothers)

/-! ## Rounds -/

theorem Repeats.judgedAs {most : Option Int} {count : Nat} {p q : Int} {founds : List Match}
    {stalled : Bool} : JudgedAs grammar source matcher matcher' →
      Repeats grammar source matcher most count p founds q stalled →
        Repeats grammar source matcher' most count p founds q stalled
  | _, .full hbound => .full hbound
  | h, .failed hroom hfails => .failed hroom (h.fails hfails)
  | h, .stalled hfound hwidth => .stalled (h.succeeds hfound) hwidth
  | h, .more hroom hfound hwidth hrest =>
    .more hroom (h.succeeds hfound) hwidth (hrest.judgedAs h)

theorem JudgedAs.quant (h : JudgedAs grammar source matcher matcher') (least : Int)
    (most : Option Int) :
    JudgedAs grammar source (.quant matcher least most) (.quant matcher' least most) := by
  rintro p (_ | found) hjudged
  · cases hjudged with
    | quant hrounds hfew => exact Fails.quant (hrounds.judgedAs h) hfew
  · cases hjudged with
    | quant hrounds henough hspan => exact Succeeds.quant (hrounds.judgedAs h) henough hspan

theorem JudgedAs.opt (h : JudgedAs grammar source matcher matcher') :
    JudgedAs grammar source (.opt matcher) (.opt matcher') := by
  rintro p (_ | found) hjudged
  · cases hjudged
  · cases hjudged with
    | optFound hfound hspan => exact Succeeds.optFound (h.succeeds hfound) hspan
    | optNothing hfails hspan => exact Succeeds.optNothing (h.fails hfails) hspan

end Compounds

/-! ## Filling the places of a tree -/

namespace Matcher

mutual

/-- The tree with every call replaced by the matcher that fills its place. -/
def fill (filling : ι → Matcher κ) : Matcher ι → Matcher κ
  | char value => char value
  | pattern p => pattern p
  | seq matchers => seq (fillAll filling matchers)
  | alt matchers => alt (fillAll filling matchers)
  | quant matcher least most => quant (fill filling matcher) least most
  | opt matcher => opt (fill filling matcher)
  | call place => filling place

/-- The trees with every call in them replaced. -/
def fillAll (filling : ι → Matcher κ) : List (Matcher ι) → List (Matcher κ)
  | [] => []
  | matcher :: rest => fill filling matcher :: fillAll filling rest

end

example : fill (fun c => char [c]) (seq [call 'a', opt (call 'b')])
    = (seq [char ['a'], opt (char ['b'])] : Matcher Empty) := rfl

variable {filling filling' : ι → Matcher κ}

mutual

/-- Around matchers that are judged as those that they replace, so is the tree. -/
theorem fill_judgedAs (h : ∀ place, JudgedAs grammar source (filling place) (filling' place)) :
    (context : Matcher ι) →
      JudgedAs grammar source (context.fill filling) (context.fill filling')
  | char _ => .refl _
  | pattern _ => .refl _
  | seq matchers => .seq (forall₂_fillAll h matchers)
  | alt matchers => .alt (forall₂_fillAll h matchers)
  | quant matcher least most => (fill_judgedAs h matcher).quant least most
  | opt matcher => (fill_judgedAs h matcher).opt
  | call place => h place

theorem forall₂_fillAll (h : ∀ place, JudgedAs grammar source (filling place) (filling' place)) :
    (contexts : List (Matcher ι)) →
      List.Forall₂ (JudgedAs grammar source) (fillAll filling contexts) (fillAll filling' contexts)
  | [] => .nil
  | matcher :: rest => .cons (fill_judgedAs h matcher) (forall₂_fillAll h rest)

end

end Matcher

end CursorGrammar
