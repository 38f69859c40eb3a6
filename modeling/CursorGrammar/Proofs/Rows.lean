import Mathlib.Data.List.TakeWhile
import CursorGrammar.Proofs.Characters
import CursorGrammar.Proofs.Loops
import CursorGrammar.Proofs.WholeText

set_option autoImplicit false

/-! # Rows of fields

A row is fields with commas between them, up to the end of a line. Fields may be empty, so a field
may match nothing; but every further field comes after a comma, and so no round of fields stalls.
Reading a row undoes joining its fields, and joining the fields that have been read undoes reading
the row. -/

namespace CursorGrammar

namespace Text

/-- The text has neither a comma nor a line feed in it. -/
def IsField (t : Text) : Prop :=
  ',' ∉ t ∧ '\n' ∉ t

instance (t : Text) : Decidable t.IsField :=
  inferInstanceAs (Decidable (',' ∉ t ∧ '\n' ∉ t))

/-- The character can be part of a field. -/
def isFieldChar (c : Char) : Bool :=
  c != ',' && c != '\n'

/-- The fields with commas between them. -/
def joined (fields : List Text) : Text :=
  [','].intercalate fields

/-- The text is at the end of a line. -/
def AtLineEnd (t : Text) : Prop :=
  ∀ c ∈ t.head?, c = '\n'

variable {t field after first : Text} {others : List Text}

/-- Up to the end of a line, a field is as long as it can be. -/
theorem IsField.takeWhile_append (h : field.IsField)
    (hafter : ∀ c ∈ after.head?, isFieldChar c = false) :
    (field ++ after).takeWhile isFieldChar = field := by
  have hall : ∀ c ∈ field, isFieldChar c = true := by
    intro c hc
    have hcomma : c ≠ ',' := fun heq => h.1 (heq ▸ hc)
    have hfeed : c ≠ '\n' := fun heq => h.2 (heq ▸ hc)
    simp [isFieldChar, hcomma, hfeed]
  have hnone : after.takeWhile isFieldChar = [] := by
    cases after with
    | nil => rfl
    | cons c rest => simp [hafter c rfl]
  rw [List.takeWhile_append_of_pos hall, hnone, List.append_nil]

theorem joined_cons (first : Text) (others : List Text) :
    joined (first :: others) = first ++ others.flatMap (',' :: ·) := by
  unfold joined
  induction others generalizing first with
  | nil => simp
  | cons second rest ih => simp [List.intercalate_cons_cons, ih]

/-- What comes after a field is a comma and a further field, or the end of the line. -/
theorem head?_further_fields (h : after.AtLineEnd) :
    ∀ c ∈ (others.flatMap (',' :: ·) ++ after).head?, isFieldChar c = false := by
  cases others with
  | nil =>
    intro c hc
    rw [h c hc]
    rfl
  | cons field rest =>
    rintro _ ⟨⟩
    rfl

/-- A text without line feeds is fields with commas between them. -/
theorem exists_fields (h : '\n' ∉ t) : ∃ first others,
    (∀ field ∈ first :: others, IsField field) ∧ joined (first :: others) = t := by
  induction t with
  | nil => exact ⟨[], [], by decide, rfl⟩
  | cons c rest ih =>
    obtain ⟨hc, hrest⟩ := List.ne_and_not_mem_of_not_mem_cons h
    obtain ⟨first, others, hfields, hjoined⟩ := ih hrest
    by_cases hcomma : c = ','
    · refine ⟨[], first :: others, List.forall_mem_cons.2 ⟨by decide, hfields⟩, ?_⟩
      rw [← hjoined, hcomma, joined_cons, joined_cons]
      rfl
    · obtain ⟨hfirst, hothers⟩ := List.forall_mem_cons.1 hfields
      refine ⟨c :: first, others, List.forall_mem_cons.2 ⟨?_, hothers⟩, ?_⟩
      · simp only [IsField, List.mem_cons, not_or]
        exact ⟨⟨Ne.symm hcomma, hfirst.1⟩, hc, hfirst.2⟩
      · rw [← hjoined, joined_cons, joined_cons]
        rfl

/-- A text is a line and what comes after it, up to the first line feed. -/
theorem exists_line (t : Text) : ∃ line after : Text, t = line ++ after ∧ '\n' ∉ line ∧
    after.AtLineEnd ∧ line.length = t.idxOf '\n' := by
  induction t with
  | nil => exact ⟨[], [], rfl, List.not_mem_nil, nofun, rfl⟩
  | cons c rest ih =>
    by_cases hc : c = '\n'
    · exact ⟨[], c :: rest, rfl, List.not_mem_nil, by simpa [AtLineEnd] using hc, by simp [hc]⟩
    · obtain ⟨line, after, rfl, hline, hafter, hlength⟩ := ih
      have hnone : '\n' ∉ c :: line := List.not_mem_cons_of_ne_of_not_mem (Ne.symm hc) hline
      refine ⟨c :: line, after, rfl, hnone, hafter, ?_⟩
      rw [List.length_cons, hlength, List.idxOf_cons_ne _ hc]

end Text

/-! ## The fields of a match -/

/-- The field of one round, which is behind a comma. -/
def Value.field? : Value → Option Text
  | .found (.list [_, .found (.text field) _]) _ => some field
  | _ => none

/-- The fields of a row in turn: the first one, and then that of each round. -/
def Value.fields? : Value → Option (List Text)
  | .list [.found (.text first) _, .found (.list rounds) _] =>
    (rounds.mapM field?).map (first :: ·)
  | _ => none

/-! ## Reading rows -/

namespace Matcher

variable {κ : Type}

/-- A field, and any number of further ones behind commas. -/
def row (field : Matcher κ) : Matcher κ :=
  seq [field, quant (seq [char [','], field]) 0 none]

variable {grammar : Grammar κ} {source : Text} {p : Int} {pattern : Pattern}
variable {first field after : Text} {others : List Text}

theorem contains_notFieldEnd :
    (CharSet.mk [(0, 9), (11, 43), (45, lastCode)]).contains = Text.isFieldChar := by
  funext c
  have hle := CharSet.toNat_le_lastCode c
  have hcomma : c ≠ ',' ↔ c.toNat ≠ 44 := not_congr Char.toNat_inj.symm
  have hfeed : c ≠ '\n' ↔ c.toNat ≠ 10 := not_congr Char.toNat_inj.symm
  rw [Bool.eq_iff_iff, CharSet.contains, Blocks.contains_iff]
  simp [Text.isFieldChar, hcomma, hfeed]
  omega

section Fields

variable (h : pattern.program = .loop ⟨[(0, 9), (11, 43), (45, lastCode)]⟩ 1)

include h

/-- The pattern reads the field that ends at a comma or at the end of the line. -/
theorem exists_succeeds_field (hrange : source.InRange p) (hfield : field.IsField)
    (hafter : ∀ c ∈ after.head?, Text.isFieldChar c = false)
    (hslice : source.sliceFrom p = field ++ after) :
    ∃ span : Span, span.Covers p (p + field.length) ∧
      Succeeds grammar source (.pattern pattern) p ⟨.text field, span⟩ := by
  have hfind := Pattern.find_of_loop_any h (source.sliceFrom p)
  rw [contains_notFieldEnd, hslice, hfield.takeWhile_append hafter, ← hslice] at hfind
  obtain ⟨span, hspan⟩ := Span.exists_covers hrange.1
    (Int.le_add_of_nonneg_right (Int.natCast_nonneg field.length))
  exact ⟨span, hspan, .pattern hfind ⟨after, hslice.symm⟩ hspan⟩

/-- Rounds behind commas read the fields up to the end of the line, empty ones as well. -/
theorem exists_repeats_fields (hrange : source.InRange p)
    (hothers : ∀ field ∈ others, Text.IsField field) (hafter : after.AtLineEnd)
    (hslice : source.sliceFrom p = others.flatMap (',' :: ·) ++ after) (count : Nat) :
    ∃ items : List Match, (items.map Match.toValue).mapM Value.field? = some others ∧
      Repeats grammar source (seq [char [','], .pattern pattern]) none count p items
        (p + (others.flatMap (',' :: ·)).length) false := by
  induction others generalizing p count with
  | nil =>
    have hfails : Fails grammar source (char [',']) p := by
      rw [fails_char_iff, hslice]
      intro hcomma
      cases hafter ',' hcomma
    rw [List.flatMap_nil, List.length_nil, Int.natCast_zero, Int.add_zero]
    exact ⟨[], rfl, .failed nofun (.seq (.first hfails))⟩
  | cons field rest ih =>
    obtain ⟨hfield, hrest⟩ := List.forall_mem_cons.1 hothers
    rw [List.flatMap_cons, List.cons_append, List.cons_append, List.append_assoc] at hslice
    obtain ⟨comma, hcomma, hchar⟩ : ∃ comma : Span, comma.Covers p (p + 1) ∧
        Succeeds grammar source (.char [',']) p ⟨.text [','], comma⟩ :=
      exists_succeeds_char hrange (List.head?_eq_some_iff.2 ⟨_, hslice⟩)
    obtain ⟨hrange', hslice'⟩ := Text.sliceFrom_eq_cons hrange hslice
    obtain ⟨span, hspan, hpattern⟩ : ∃ span : Span, span.Covers (p + 1) (p + 1 + field.length) ∧
        Succeeds grammar source (.pattern pattern) (p + 1) ⟨.text field, span⟩ :=
      exists_succeeds_field h hrange' hfield (Text.head?_further_fields hafter) hslice'
    obtain ⟨hrange'', hslice''⟩ := Text.sliceFrom_of_append hrange' hslice'
    obtain ⟨items, hfields, hrounds⟩ := ih hrange'' hrest hslice'' (count + 1)
    rw [← hcomma.2] at hpattern
    obtain ⟨whole, hwhole, hseq⟩ :=
      SucceedInTurn.exists_seq hrange (.cons hchar (.cons hpattern .nil))
    -- the comma is enough for the round not to stall, also when the field is empty
    have hwidth : whole.stop ≠ whole.start := by
      rw [hwhole.1, hwhole.2, hspan.2]
      omega
    have hstop : p + (field.length + 1 + (rest.flatMap (',' :: ·)).length : Nat)
        = whole.stop + (rest.flatMap (',' :: ·)).length := by
      rw [hwhole.2, hspan.2]
      omega
    rw [List.flatMap_cons, List.length_append, List.length_cons, hstop]
    rw [← hspan.2, ← hwhole.2] at hrounds
    refine ⟨_ :: items, ?_, .more nofun hseq (fun _ => hwidth) hrounds⟩
    rw [List.map_cons, List.mapM_cons, hfields]
    rfl

/-- A row reads the fields of the line. -/
theorem exists_succeeds_row (hrange : source.InRange p)
    (hfields : ∀ field ∈ first :: others, Text.IsField field) (hafter : after.AtLineEnd)
    (hslice : source.sliceFrom p = Text.joined (first :: others) ++ after) :
    ∃ found : Match, found.value.fields? = some (first :: others) ∧
      found.span.Covers p (p + (Text.joined (first :: others)).length) ∧
      Succeeds grammar source (row (.pattern pattern)) p found := by
  obtain ⟨hfirst, hothers⟩ := List.forall_mem_cons.1 hfields
  rw [Text.joined_cons, List.append_assoc] at hslice
  obtain ⟨span, hspan, hpattern⟩ : ∃ span : Span, span.Covers p (p + first.length) ∧
      Succeeds grammar source (.pattern pattern) p ⟨.text first, span⟩ :=
    exists_succeeds_field h hrange hfirst (Text.head?_further_fields hafter) hslice
  obtain ⟨hrange', hslice'⟩ := Text.sliceFrom_of_append hrange hslice
  obtain ⟨items, hitems, hrounds⟩ := exists_repeats_fields h hrange' hothers hafter hslice' 0
  obtain ⟨inner, hinner⟩ := Span.exists_covers hrange'.1 (hrounds.bounds hrange').1
  have hquant := Succeeds.quant hrounds (Or.inr (Int.natCast_nonneg _)) hinner
  rw [← hspan.2] at hquant
  obtain ⟨whole, hwhole, hseq⟩ :=
    SucceedInTurn.exists_seq hrange (.cons hpattern (.cons hquant .nil))
  refine ⟨_, ?_, ?_, hseq⟩
  · show ((items.map Match.toValue).mapM Value.field?).map (first :: ·) = some (first :: others)
    rw [hitems]
    rfl
  · have hstop : inner.stop = p + (Text.joined (first :: others)).length := by
      rw [hinner.2, Text.joined_cons, List.length_append]
      omega
    rw [← hstop]
    exact hwhole

end Fields

end Matcher

end CursorGrammar
