import CursorGrammar.CharacterClass
import CursorGrammar.Proofs.Interchange

set_option autoImplicit false

/-! # Single characters

A class of characters is tried character by character, but only one of them can be the next one of
the text. So nothing depends on their order or on how often one is listed: two classes that list
the same characters match the same, alone and in place of each other anywhere. -/

namespace CursorGrammar

variable {κ : Type} {grammar : Grammar κ} {source : Text} {p : Int}

theorem Text.head?_sliceFrom (h : source.InRange p) :
    (source.sliceFrom p).head? = source[p.toNat]? := by
  unfold sliceFrom
  rw [position_of_mem h.1 h.2, List.head?_drop]

/-! ## One character -/

theorem succeeds_char_iff {c : Char} {found : Match} :
    Succeeds grammar source (.char [c]) p found ↔
      (source.sliceFrom p).head? = some c ∧ found.value = .text [c] ∧
        found.span.Covers p (p + 1) := by
  constructor
  · intro h
    cases h with
    | char hvalue hrest hspan =>
      cases hvalue
      exact ⟨hrest, rfl, hspan⟩
  · rintro ⟨hrest, hvalue, hspan⟩
    obtain ⟨value, span⟩ := found
    cases hvalue
    exact .char rfl hrest hspan

theorem fails_char_iff {c : Char} :
    Fails grammar source (.char [c]) p ↔ (source.sliceFrom p).head? ≠ some c := by
  constructor
  · intro h
    cases h with
    | char hnone => exact fun hrest => hnone ⟨c, rfl, hrest⟩
  · intro h
    refine .char ?_
    rintro ⟨_, ⟨⟩, hrest⟩
    exact h hrest

theorem exists_succeeds_char {c : Char} (hrange : source.InRange p)
    (h : (source.sliceFrom p).head? = some c) :
    ∃ span : Span, span.Covers p (p + 1) ∧
      Succeeds grammar source (.char [c]) p ⟨.text [c], span⟩ := by
  obtain ⟨span, hspan⟩ := Span.exists_covers hrange.1 (q := p + 1) (by omega)
  exact ⟨span, hspan, succeeds_char_iff.2 ⟨h, rfl, hspan⟩⟩

/-! ## One character out of several -/

namespace Matcher

variable {characters characters' : Text}

/-- Whichever branch it is that succeeds, its character is the next one. -/
theorem succeeds_anyOf_iff {found : Match} :
    Succeeds grammar source (anyOf characters) p found ↔
      ∃ c ∈ characters, Succeeds grammar source (.char [c]) p found := by
  unfold anyOf
  induction characters with
  | nil => exact ⟨nofun, nofun⟩
  | cons c rest ih =>
    rw [List.map_cons, List.exists_mem_cons_iff]
    constructor
    · intro h
      cases h with
      | altFirst hfound => exact Or.inl hfound
      | altLater _ hothers => exact Or.inr (ih.1 hothers)
    · rintro (hfound | hothers)
      · exact .altFirst hfound
      · by_cases hnext : (source.sliceFrom p).head? = some c
        · -- the later branch is for the same character as the first
          obtain ⟨d, -, hfound⟩ := hothers
          obtain ⟨hd, hmatch⟩ := succeeds_char_iff.1 hfound
          cases hnext.symm.trans hd
          exact .altFirst hfound
        · exact .altLater (fails_char_iff.2 hnext) (ih.2 hothers)

theorem fails_anyOf_iff :
    Fails grammar source (anyOf characters) p ↔
      ∀ c ∈ characters, Fails grammar source (.char [c]) p := by
  unfold anyOf
  rw [fails_alt_iff, List.forall_mem_map]

/-- What a class is judged to do depends on which characters it lists. -/
theorem anyOf_judgedAs (h : ∀ c, c ∈ characters' ↔ c ∈ characters) :
    JudgedAs grammar source (anyOf characters) (anyOf characters') := by
  rintro p (_ | found) hjudged
  · refine fails_anyOf_iff.2 fun c hc => ?_
    exact fails_anyOf_iff.1 hjudged c ((h c).1 hc)
  · obtain ⟨c, hc, hfound⟩ := succeeds_anyOf_iff.1 hjudged
    exact succeeds_anyOf_iff.2 ⟨c, (h c).2 hc, hfound⟩

theorem maxDepth_chars_le (characters : Text) :
    maxDepth (characters.map fun c => (char [c] : Matcher κ)) ≤ 1 := by
  rw [maxDepth_le_iff, List.forall_mem_map]
  exact fun c _ => Nat.le_refl 1

theorem depth_anyOf_le (characters : Text) : (anyOf characters : Matcher κ).depth ≤ 2 := by
  unfold anyOf
  rw [depth]
  exact Nat.add_le_add_left (maxDepth_chars_le characters) 1

theorem oneOf_of_ne_nil (h : characters ≠ []) :
    (oneOf characters : Except BuildError (Matcher κ)) = .ok (anyOf characters) :=
  if_neg h

end Matcher

/-- If the next character of the text is one of these, the behaviour matches it and moves the cursor
    past it, and otherwise it gives nothing and leaves the cursor where it is. -/
structure Behaviour.MatchesOneOf (characters : Text) (source : Text) (progress : Progress)
    (behaviour : Behaviour) : Prop where
  found : ∀ c ∈ characters, source[progress.cursor.toNat]? = some c →
    ∃ span : Span, span.Covers progress.cursor (progress.cursor + 1) ∧
      behaviour.Settles source progress (some ⟨.text [c], span⟩)
  nothing : (∀ c ∈ characters, source[progress.cursor.toNat]? ≠ some c) →
    behaviour.Settles source progress none

namespace Matcher

variable {characters : Text} {progress : Progress} {limits : Limits}

theorem anyOf_matchesOneOf (characters : Text) (hrange : source.InRange progress.cursor)
    (hnesting : 2 ≤ limits.nesting) (hrounds : source.length < limits.rounds) :
    ((anyOf characters).behaviour .plain limits).MatchesOneOf characters source progress := by
  have hdepth : (anyOf characters : Matcher Empty).depth ≤ limits.nesting :=
    Nat.le_trans (depth_anyOf_le characters) hnesting
  refine ⟨fun c hc hnext => ?_, fun hnone => ?_⟩
  · rw [← Text.head?_sliceFrom hrange] at hnext
    obtain ⟨span, hspan, hchar⟩ := exists_succeeds_char hrange hnext
    exact ⟨span, hspan, plain_returned_of_judged hrange hdepth hrounds (some _)
      (succeeds_anyOf_iff.2 ⟨c, hc, hchar⟩)⟩
  · refine plain_returned_of_judged hrange hdepth hrounds none (fails_anyOf_iff.2 ?_)
    intro c hc
    rw [fails_char_iff, Text.head?_sliceFrom hrange]
    exact hnone c hc

end Matcher

end CursorGrammar
