import CursorGrammar.BuildError
import CursorGrammar.Regex.Parser
import CursorGrammar.Regex.Search

set_option autoImplicit false

/-! # Patterns

A pattern is a fragment of a regular expression that has been checked. It is read behind a `^`,
which binds to the first branch of the fragment only: a pattern with several branches may find text
further along. -/

namespace CursorGrammar

/-- The program that searches for a fragment. -/
def Program.ofFragment (fragment : Text) : Except SyntaxError Program :=
  (Regex.parse ('^' :: fragment)).map (·.program)

theorem Program.ofFragment_eq_ok {fragment : Text} {expr : Regex}
    (h : Regex.parse ('^' :: fragment) = .ok expr) : ofFragment fragment = .ok expr.program := by
  unfold ofFragment
  rw [h]
  rfl

theorem Program.ofFragment_eq_error {fragment : Text} {error : SyntaxError}
    (h : Regex.parse ('^' :: fragment) = .error error) : ofFragment fragment = .error error := by
  unfold ofFragment
  rw [h]
  rfl

/-- A checked fragment, with the program that searches for it. -/
structure Pattern where
  fragment : Text
  program : Program
  length_le : fragment.length ≤ patternLimit
  program_eq : Program.ofFragment fragment = .ok program

/-- What is noted when a pattern is made. -/
inductive Notice where
  | compiled (fragment : Text)
  | rejected (fragment : Text) (error : SyntaxError)
  deriving DecidableEq, Repr

/-- The notice in words. -/
def Notice.message : Notice → Text
  | compiled fragment => "compiled pattern ".toList ++ fragment.quoted
  | rejected fragment error =>
    "rejected pattern ".toList ++ fragment.quoted ++ ':' :: ' ' :: error.reason

namespace Pattern

/-- Checks a fragment: first its length, and then that it writes an expression. -/
def compile (fragment : Text) : Except BuildError Pattern :=
  if hlength : fragment.length ≤ patternLimit then
    match hprogram : Program.ofFragment fragment with
    | .ok program => .ok ⟨fragment, program, hlength, hprogram⟩
    | .error error => .error (.badPattern fragment error)
  else .error (.patternTooLong fragment.length)

/-- The notices that go with checking a fragment; a fragment that is too long is not looked at. -/
def notices (fragment : Text) : List Notice :=
  match compile fragment with
  | .ok _ => [.compiled fragment]
  | .error (.badPattern fragment error) => [.rejected fragment error]
  | .error _ => []

/-- The text that the pattern finds in a text. It need not stand at the beginning. -/
def find (p : Pattern) (t : Text) : Option Text :=
  (p.program.search t).map (·.piece t)

/-! ## Equality

A pattern is known by its fragment. -/

theorem eq_of_fragment_eq {p q : Pattern} (h : p.fragment = q.fragment) : p = q := by
  cases p with
  | mk fragment program hlength hprogram =>
    cases q with
    | mk fragment' program' hlength' hprogram' =>
      cases h
      have : Except.ok (ε := SyntaxError) program = .ok program' := hprogram.symm.trans hprogram'
      cases this
      rfl

instance : DecidableEq Pattern := fun p q =>
  if h : p.fragment = q.fragment then isTrue (eq_of_fragment_eq h)
  else isFalse fun heq => h (heq ▸ rfl)

/-! ## Checking -/

theorem compile_eq_ok_iff {fragment : Text} {p : Pattern} :
    compile fragment = .ok p ↔ p.fragment = fragment := by
  unfold compile
  split
  next hlength =>
    split
    next program hprogram =>
      constructor
      · rintro ⟨⟩
        rfl
      · intro h
        exact congrArg Except.ok
          (eq_of_fragment_eq (p := ⟨fragment, program, hlength, hprogram⟩) h.symm)
    next error hprogram =>
      constructor
      · rintro ⟨⟩
      · rintro rfl
        have := p.program_eq
        rw [hprogram] at this
        cases this
  next hlength =>
    constructor
    · rintro ⟨⟩
    · rintro rfl
      exact absurd p.length_le hlength

/-- What a pattern finds is a contiguous piece of the text. -/
theorem find_infix {p : Pattern} {t found : Text} (h : p.find t = some found) :
    found <:+: t := by
  unfold find at h
  obtain ⟨extent, -, rfl⟩ := Option.map_eq_some_iff.1 h
  exact (List.take_prefix _ _).isInfix.trans (List.drop_suffix _ _).isInfix

end Pattern

end CursorGrammar
