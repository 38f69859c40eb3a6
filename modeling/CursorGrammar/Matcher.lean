import CursorGrammar.Pattern

set_option autoImplicit false

/-! # Matchers

A matcher is a tree of leaves and combinators. Its leaves may also be calls, of which the tree
says nothing: what they do is up to the grammar that the tree is run in. -/

namespace CursorGrammar

/-- A matcher, with calls of type `κ`. -/
inductive Matcher (κ : Type) where
  /-- One character: the first of the text. -/
  | char (value : Text)
  /-- What a pattern finds at the cursor. -/
  | pattern (p : Pattern)
  /-- All of them, one after the other. -/
  | seq (matchers : List (Matcher κ))
  /-- The first of them that matches. -/
  | alt (matchers : List (Matcher κ))
  /-- As many as can be, between the bounds. -/
  | quant (matcher : Matcher κ) (least : Int) (most : Option Int)
  /-- A look ahead that never fails. -/
  | opt (matcher : Matcher κ)
  /-- Something else. -/
  | call (target : κ)

namespace Matcher

variable {κ : Type}

/-! ## Depth -/

mutual

/-- How deep the tree is; leaves, calls and combinators without members count one. -/
def depth : Matcher κ → Nat
  | char _ => 1
  | pattern _ => 1
  | seq matchers => 1 + maxDepth matchers
  | alt matchers => 1 + maxDepth matchers
  | quant matcher _ _ => 1 + depth matcher
  | opt matcher => 1 + depth matcher
  | call _ => 1

/-- The depth of the deepest of the trees, and zero if there is none. -/
def maxDepth : List (Matcher κ) → Nat
  | [] => 0
  | matcher :: rest => max (depth matcher) (maxDepth rest)

end

/-! ## Equality -/

mutual

/-- The trees are the same. -/
def same [DecidableEq κ] : Matcher κ → Matcher κ → Bool
  | char v, char w => v == w
  | pattern p, pattern q => p == q
  | seq ms, seq ns => sameAll ms ns
  | alt ms, alt ns => sameAll ms ns
  | quant m least most, quant n least' most' => same m n && least == least' && most == most'
  | opt m, opt n => same m n
  | call k, call l => k == l
  | _, _ => false

/-- The trees of the lists are the same, in turn. -/
def sameAll [DecidableEq κ] : List (Matcher κ) → List (Matcher κ) → Bool
  | [], [] => true
  | m :: ms, n :: ns => same m n && sameAll ms ns
  | _, _ => false

end

mutual

theorem eq_of_same [DecidableEq κ] : (a b : Matcher κ) → same a b = true → a = b
  | char _, b, h => by cases b <;> simp_all [same]
  | pattern _, b, h => by cases b <;> simp_all [same]
  | seq ms, b, h => by
    cases b with
    | seq ns => rw [eq_of_sameAll ms ns (by simpa [same] using h)]
    | _ => simp [same] at h
  | alt ms, b, h => by
    cases b with
    | alt ns => rw [eq_of_sameAll ms ns (by simpa [same] using h)]
    | _ => simp [same] at h
  | quant m _ _, b, h => by
    cases b with
    | quant n _ _ =>
      simp only [same, Bool.and_eq_true, beq_iff_eq] at h
      rw [eq_of_same m n h.1.1, h.1.2, h.2]
    | _ => simp [same] at h
  | opt m, b, h => by
    cases b with
    | opt n => rw [eq_of_same m n (by simpa [same] using h)]
    | _ => simp [same] at h
  | call _, b, h => by cases b <;> simp_all [same]

theorem eq_of_sameAll [DecidableEq κ] :
    (ms ns : List (Matcher κ)) → sameAll ms ns = true → ms = ns
  | [], ns, h => by cases ns <;> simp_all [sameAll]
  | m :: ms, ns, h => by
    cases ns with
    | nil => simp [sameAll] at h
    | cons n ns =>
      simp only [sameAll, Bool.and_eq_true] at h
      rw [eq_of_same m n h.1, eq_of_sameAll ms ns h.2]

end

mutual

theorem same_self [DecidableEq κ] : (a : Matcher κ) → same a a = true
  | char _ => by simp [same]
  | pattern _ => by simp [same]
  | seq ms => by simp [same, sameAll_self ms]
  | alt ms => by simp [same, sameAll_self ms]
  | quant m _ _ => by simp [same, same_self m]
  | opt m => by simp [same, same_self m]
  | call _ => by simp [same]

theorem sameAll_self [DecidableEq κ] : (ms : List (Matcher κ)) → sameAll ms ms = true
  | [] => rfl
  | m :: ms => by simp [sameAll, same_self m, sameAll_self ms]

end

theorem same_iff [DecidableEq κ] {a b : Matcher κ} : same a b = true ↔ a = b :=
  ⟨eq_of_same a b, fun h => h ▸ same_self a⟩

instance [DecidableEq κ] : DecidableEq (Matcher κ) :=
  fun _ _ => decidable_of_iff _ same_iff

end Matcher

end CursorGrammar
