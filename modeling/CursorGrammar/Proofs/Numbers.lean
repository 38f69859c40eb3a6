import Mathlib.Data.List.TakeWhile
import CursorGrammar.Proofs.Characters
import CursorGrammar.Proofs.Loops
import CursorGrammar.Proofs.WholeText

set_option autoImplicit false

/-! # Decimal numbers

The digits of a number can be taken one by one, by a repetition over the ten of them, or all at
once, by a pattern. Both take as many as there are. So a number made of the one takes the same as a
number made of the other: the longest decimal with which the text goes on. A dot belongs to it only
if there is a digit on both sides. -/

namespace CursorGrammar

namespace Text

/-- The text is one digit of ASCII or more. -/
def IsDigits (t : Text) : Prop :=
  t ≠ [] ∧ ∀ c ∈ t, c.isDigit = true

instance : DecidablePred IsDigits := fun t =>
  decidable_of_iff (t ≠ [] ∧ t.all Char.isDigit = true) (and_congr_right' List.all_eq_true)

/-- The text is a dot with digits after it. -/
def IsFraction (t : Text) : Prop :=
  ∃ digits : Text, digits.IsDigits ∧ t = '.' :: digits

/-- The text is digits, and possibly a fraction after them. -/
def IsDecimal (t : Text) : Prop :=
  t.IsDigits ∨ ∃ whole fraction : Text, whole.IsDigits ∧ fraction.IsFraction ∧ t = whole ++ fraction

/-- The piece is the longest of those beginnings of the text that are of this kind. -/
structure Longest (kind : Text → Prop) (t piece : Text) : Prop where
  begins : piece <+: t
  fits : kind piece
  longest : ∀ u : Text, u <+: t → kind u → u <+: piece

variable {kind : Text → Prop} {t u v whole fraction rest : Text}

theorem Longest.unique (hu : Longest kind t u) (hv : Longest kind t v) : u = v :=
  have hle := hv.longest u hu.begins hu.fits
  have hge := hu.longest v hv.begins hv.fits
  hle.eq_of_length (Nat.le_antisymm hle.length_le hge.length_le)

/-- A text that is of the kind itself is its longest beginning. -/
theorem longest_self_iff : Longest kind t t ↔ kind t :=
  ⟨Longest.fits, fun h => ⟨List.prefix_rfl, h, fun _ hu _ => hu⟩⟩

/-- A beginning all of whose characters pass the test is a beginning of the longest such one. -/
theorem prefix_takeWhile {test : Char → Bool} (hu : u <+: t) (h : ∀ c ∈ u, test c = true) :
    u <+: t.takeWhile test := by
  obtain ⟨rest, rfl⟩ := hu
  rw [List.takeWhile_append_of_pos h]
  exact List.prefix_append ..

theorem longest_digits (h : t.takeWhile Char.isDigit ≠ []) :
    Longest IsDigits t (t.takeWhile Char.isDigit) :=
  ⟨List.takeWhile_prefix _, ⟨h, fun _ => List.mem_takeWhile_imp⟩,
    fun _ hu hdigits => prefix_takeWhile hu hdigits.2⟩

theorem not_isDigits_of_takeWhile (h : t.takeWhile Char.isDigit = []) (hu : u <+: t) :
    ¬u.IsDigits := by
  intro hdigits
  have hnil := prefix_takeWhile hu hdigits.2
  rw [h, List.prefix_nil] at hnil
  exact hdigits.1 hnil

/-- A decimal begins with digits. -/
theorem IsDecimal.exists_digits (h : u.IsDecimal) : ∃ v : Text, v <+: u ∧ v.IsDigits := by
  rcases h with hdigits | ⟨whole, fraction, hwhole, -, rfl⟩
  · exact ⟨u, List.prefix_rfl, hdigits⟩
  · exact ⟨whole, List.prefix_append .., hwhole⟩

/-- After the longest digits, a decimal at the beginning can only go on with a fraction. -/
theorem IsDecimal.cases_of_longest (h : u.IsDecimal) (hwhole : Longest IsDigits t whole)
    (ht : t = whole ++ rest) (hu : u <+: t) :
    u <+: whole ∨ ∃ fraction : Text, fraction.IsFraction ∧ fraction <+: rest ∧
      u = whole ++ fraction := by
  rcases h with hdigits | ⟨v, fraction, hv, hfraction, rfl⟩
  · exact Or.inl (hwhole.longest u hu hdigits)
  · right
    obtain ⟨w, rfl⟩ := hwhole.longest v ((List.prefix_append ..).trans hu) hv
    rw [ht, List.append_assoc, List.prefix_append_right_inj] at hu
    obtain ⟨digits, hdigits, rfl⟩ := hfraction
    cases w with
    | nil => exact ⟨_, ⟨digits, hdigits, rfl⟩, hu, by rw [List.append_nil]⟩
    | cons c others =>
      -- the dot would be one of the digits
      obtain ⟨rfl, -⟩ := List.cons_prefix_cons.1 hu
      cases hwhole.fits.2 '.' (by simp)

/-- If no fraction follows on the longest digits, they are the longest decimal. -/
theorem Longest.without_fraction (hwhole : Longest IsDigits t whole) (ht : t = whole ++ rest)
    (hnone : ∀ u : Text, u <+: rest → ¬u.IsFraction) : Longest IsDecimal t whole := by
  refine ⟨hwhole.begins, Or.inl hwhole.fits, fun u hu hdecimal => ?_⟩
  rcases hdecimal.cases_of_longest hwhole ht hu with hu | ⟨fraction, hfraction, hbegins, -⟩
  · exact hu
  · exact absurd hfraction (hnone fraction hbegins)

/-- If a fraction follows on the longest digits, the longest decimal goes on with the longest
    fraction. -/
theorem Longest.with_fraction (hwhole : Longest IsDigits t whole) (ht : t = whole ++ rest)
    (hfraction : Longest IsFraction rest fraction) :
    Longest IsDecimal t (whole ++ fraction) := by
  refine ⟨?_, Or.inr ⟨whole, fraction, hwhole.fits, hfraction.fits, rfl⟩, fun u hu hdecimal => ?_⟩
  · rw [ht]
    exact (List.prefix_append_right_inj whole).2 hfraction.begins
  · rcases hdecimal.cases_of_longest hwhole ht hu with hu | ⟨v, hv, hbegins, rfl⟩
    · exact hu.trans (List.prefix_append ..)
    · exact (List.prefix_append_right_inj whole).2 (hfraction.longest v hbegins hv)

/-- After a dot, the longest digits make the longest fraction. -/
theorem Longest.dot (h : Longest IsDigits t u) : Longest IsFraction ('.' :: t) ('.' :: u) := by
  refine ⟨List.cons_prefix_cons.2 ⟨rfl, h.begins⟩, ⟨u, h.fits, rfl⟩, ?_⟩
  rintro _ hv ⟨digits, hdigits, rfl⟩
  obtain ⟨-, hbegins⟩ := List.cons_prefix_cons.1 hv
  exact List.cons_prefix_cons.2 ⟨rfl, h.longest digits hbegins hdigits⟩

end Text

/-! ## Matchers that take as much as they can -/

/-- The outcome covers the longest beginning of this kind of what follows in the text, and it is
    nothing if there is none. -/
def Match.CoversLongest (kind : Text → Prop) (source : Text) (p : Int) : Option Match → Prop
  | none => ∀ u : Text, u <+: source.sliceFrom p → ¬kind u
  | some found => ∃ piece : Text, Text.Longest kind (source.sliceFrom p) piece ∧
      found.span.Covers p (p + piece.length)

theorem Match.CoversLongest.coverAlike {kind : Text → Prop} {source : Text} {p : Int}
    {outcome outcome' : Option Match} (h : CoversLongest kind source p outcome)
    (h' : CoversLongest kind source p outcome') : CoverAlike outcome outcome' := by
  cases outcome with
  | none =>
    cases outcome' with
    | none => trivial
    | some found' =>
      obtain ⟨piece, hlongest, -⟩ := h'
      exact absurd hlongest.fits (h piece hlongest.begins)
  | some found =>
    obtain ⟨piece, hlongest, hspan⟩ := h
    cases outcome' with
    | none => exact absurd hlongest.fits (h' piece hlongest.begins)
    | some found' =>
      obtain ⟨piece', hlongest', hspan'⟩ := h'
      cases hlongest.unique hlongest'
      exact ⟨Span.ext_bounds (hspan.1.trans hspan'.1.symm) (hspan.2.trans hspan'.2.symm), trivial⟩

/-- The behaviour parses the whole text with a match if it is of this kind, and with nothing
    otherwise. -/
def Behaviour.Recognises (behaviour : Behaviour) (kind : Text → Prop) (source : Text) : Prop :=
  ∃ outcome, behaviour.parseAll source = .returned outcome ∧ (outcome.isSome = true ↔ kind source)

theorem Behaviour.Recognises.exists_found {behaviour : Behaviour} {kind : Text → Prop}
    {source : Text} (h : behaviour.Recognises kind source) (hkind : kind source) :
    ∃ found, behaviour.parseAll source = .returned (some found) := by
  obtain ⟨outcome, hparse, hsome⟩ := h
  obtain ⟨found, rfl⟩ := Option.isSome_iff_exists.1 (hsome.2 hkind)
  exact ⟨found, hparse⟩

theorem Behaviour.Recognises.nothing_iff {behaviour : Behaviour} {kind : Text → Prop}
    {source : Text} (h : behaviour.Recognises kind source) :
    behaviour.parseAll source = .returned none ↔ ¬kind source := by
  obtain ⟨outcome, hparse, hsome⟩ := h
  rw [hparse, ← hsome]
  cases outcome with
  | none => simp
  | some found => simp

/-- Everywhere in the text, the matcher is judged to cover the longest beginning of this kind. -/
def Matcher.TakesLongest {κ : Type} (grammar : Grammar κ) (source : Text) (kind : Text → Prop)
    (matcher : Matcher κ) : Prop :=
  ∀ p, source.InRange p →
    ∃ outcome, Judged grammar source matcher p outcome ∧ Match.CoversLongest kind source p outcome

namespace Matcher

section Plain

variable {kind : Text → Prop} {source : Text} {matcher matcher' : Matcher Empty} {limits : Limits}

theorem TakesLongest.coversLongest (h : matcher.TakesLongest .plain source kind) {p : Int}
    (hrange : source.InRange p) {outcome : Option Match}
    (hjudged : Judged .plain source matcher p outcome) :
    Match.CoversLongest kind source p outcome := by
  obtain ⟨outcome', hjudged', hcovers⟩ := h p hrange
  rw [hjudged.unique hrange hjudged']
  exact hcovers

/-- Matchers that take the longest beginning of one kind match alike. -/
theorem TakesLongest.settleAlike (h : matcher.TakesLongest .plain source kind)
    (h' : matcher'.TakesLongest .plain source kind) {progress : Progress}
    (hrange : source.InRange progress.cursor) (hnesting : matcher.depth ≤ limits.nesting)
    (hnesting' : matcher'.depth ≤ limits.nesting) (hrounds : source.length < limits.rounds) :
    Behaviour.SettleAlike Match.CoverAlike source progress (matcher.behaviour .plain limits)
      (matcher'.behaviour .plain limits) := by
  refine settleAlike_of_judged hrange hnesting hnesting' hrounds fun outcome hjudged => ?_
  obtain ⟨outcome', hjudged', hcovers'⟩ := h' progress.cursor hrange
  exact ⟨outcome', hjudged', (h.coversLongest hrange hjudged).coverAlike hcovers'⟩

/-- A matcher that takes the longest beginning of a kind parses the whole texts of that kind. -/
theorem TakesLongest.recognises (h : matcher.TakesLongest .plain source kind)
    (hnesting : matcher.depth ≤ limits.nesting) (hrounds : source.length < limits.rounds) :
    (matcher.behaviour .plain limits).Recognises kind source := by
  have hkeeps : (matcher.behaviour .plain limits).Keeps False source :=
    matcher.plain.behave_keeps hrounds hnesting
  have hwhole : source.sliceFrom 0 = source := rfl
  obtain ⟨outcome, hparse⟩ := hkeeps.exists_parseAll
  refine ⟨outcome, hparse, ?_⟩
  constructor
  · intro hsome
    obtain ⟨found, rfl⟩ := Option.isSome_iff_exists.1 hsome
    obtain ⟨hparse, hcovers⟩ := hkeeps.parseAll_eq_some_iff.1 hparse
    have hjudged := (parse_zero_iff_judged hnesting hrounds).1 hparse
    obtain ⟨piece, hlongest, hspan⟩ := h.coversLongest source.inRange_zero hjudged
    rw [hwhole] at hlongest
    have hlength := hspan.2.symm.trans hcovers.2
    rw [hlongest.begins.eq_of_length (by omega)] at hlongest
    exact hlongest.fits
  · intro hkind
    obtain ⟨parsed, hjudged, hcovers⟩ := h 0 source.inRange_zero
    cases parsed with
    | none => exact absurd hkind (hcovers source List.prefix_rfl)
    | some found =>
      obtain ⟨piece, hlongest, hspan⟩ := hcovers
      rw [hlongest.unique (Text.longest_self_iff.2 hkind), Int.zero_add] at hspan
      have hfound := hkeeps.parseAll_eq_some_iff.2
        ⟨(parse_zero_iff_judged hnesting hrounds).2 hjudged, hspan⟩
      rw [hparse] at hfound
      rw [Ending.returned.inj hfound]
      rfl

end Plain

/-! ## Digits -/

section Digits

variable {κ : Type} {grammar : Grammar κ} {source : Text} {p : Int}

theorem mem_digits_iff {c : Char} :
    c ∈ ['0', '1', '2', '3', '4', '5', '6', '7', '8', '9'] ↔ c.isDigit = true := by
  constructor
  · exact List.all_eq_true.1 rfl c
  · intro h
    unfold Char.isDigit at h
    simp only [Bool.and_eq_true, decide_eq_true_eq, UInt32.le_iff_toNat_le] at h
    have hlow : 48 ≤ c.toNat := h.1
    have hhigh : c.toNat ≤ 57 := h.2
    have hcodes : ∀ n < 10,
        Char.ofNat (48 + n) ∈ ['0', '1', '2', '3', '4', '5', '6', '7', '8', '9'] := by
      decide
    have hc := hcodes (c.toNat - 48) (by omega)
    rw [Nat.add_sub_of_le hlow, Char.ofNat_toNat] at hc
    exact hc

/-- The rounds of a class of characters take all of them that follow in the text. -/
theorem exists_repeats_anyOf {characters : Text} {test : Char → Bool}
    (h : ∀ c, c ∈ characters ↔ test c = true) (hrange : source.InRange p) (count : Nat) :
    ∃ items : List Match, items.length = ((source.sliceFrom p).takeWhile test).length ∧
      Repeats grammar source (anyOf characters) none count p items
        (p + ((source.sliceFrom p).takeWhile test).length) false := by
  generalize hslice : source.sliceFrom p = t
  induction t generalizing p count with
  | nil =>
    have hfails : Fails grammar source (anyOf characters) p := by
      refine fails_anyOf_iff.2 fun c _ => fails_char_iff.2 ?_
      rw [hslice]
      nofun
    rw [List.takeWhile_nil, List.length_nil, Int.natCast_zero, Int.add_zero]
    exact ⟨[], rfl, .failed nofun hfails⟩
  | cons c rest ih =>
    by_cases hc : test c = true
    · obtain ⟨span, hspan, hchar⟩ : ∃ span : Span, span.Covers p (p + 1) ∧
          Succeeds grammar source (.char [c]) p ⟨.text [c], span⟩ :=
        exists_succeeds_char hrange (List.head?_eq_some_iff.2 ⟨rest, hslice⟩)
      obtain ⟨hrange', hrest⟩ := Text.sliceFrom_eq_cons hrange hslice
      obtain ⟨items, hlength, hrounds⟩ := ih hrange' (count + 1) hrest
      have hwidth : span.stop ≠ span.start := by
        rw [hspan.1, hspan.2]
        omega
      have hstop : p + ((rest.takeWhile test).length + 1 : Nat)
          = p + 1 + (rest.takeWhile test).length := by omega
      rw [List.takeWhile_cons_of_pos hc, List.length_cons, hstop]
      rw [← hspan.2] at hrounds ⊢
      exact ⟨⟨.text [c], span⟩ :: items, congrArg Nat.succ hlength,
        .more nofun (succeeds_anyOf_iff.2 ⟨c, (h c).2 hc, hchar⟩) (fun _ => hwidth) hrounds⟩
    · have hfails : Fails grammar source (anyOf characters) p := by
        refine fails_anyOf_iff.2 fun d hd => fails_char_iff.2 ?_
        rw [hslice]
        rintro ⟨⟩
        exact hc ((h c).1 hd)
      rw [List.takeWhile_cons_of_neg hc, List.length_nil, Int.natCast_zero, Int.add_zero]
      exact ⟨[], rfl, .failed nofun hfails⟩

/-- Digits taken one by one are as many as there are. -/
theorem quant_digit_takesLongest (grammar : Grammar κ) (source : Text) :
    (quant digit 1 none).TakesLongest grammar source Text.IsDigits := by
  intro p hrange
  obtain ⟨items, hlength, hrounds⟩ : ∃ items : List Match,
      items.length = ((source.sliceFrom p).takeWhile Char.isDigit).length ∧
      Repeats grammar source digit none 0 p items
        (p + ((source.sliceFrom p).takeWhile Char.isDigit).length) false :=
    exists_repeats_anyOf (fun _ => mem_digits_iff) hrange 0
  by_cases hnone : (source.sliceFrom p).takeWhile Char.isDigit = []
  · have hfew : ¬(false = true ∨ (1 : Int) ≤ items.length) := by
      rw [hlength, hnone]
      decide
    exact ⟨none, .quant hrounds hfew, fun u hu => Text.not_isDigits_of_takeWhile hnone hu⟩
  · have henough : false = true ∨ (1 : Int) ≤ items.length := by
      rw [hlength]
      exact Or.inr (Int.ofNat_le.2 (List.length_pos_iff.2 hnone))
    obtain ⟨span, hspan⟩ := Span.exists_covers hrange.1 (hrounds.bounds hrange).1
    exact ⟨some ⟨.ofMatches items, span⟩, .quant hrounds henough hspan, _,
      Text.longest_digits hnone, hspan⟩

theorem contains_digitBlocks : (CharSet.mk CharClass.digitBlocks).contains = Char.isDigit := by
  funext c
  rw [Bool.eq_iff_iff, CharSet.contains, Blocks.contains_iff]
  simp [CharClass.digitBlocks, Char.isDigit, UInt32.le_iff_toNat_le]

/-- Digits found by a pattern are as many as there are. -/
theorem pattern_takesLongest {pattern : Pattern}
    (h : pattern.program = .loop ⟨CharClass.digitBlocks⟩ 2) (grammar : Grammar κ) (source : Text) :
    (Matcher.pattern pattern).TakesLongest grammar source Text.IsDigits := by
  intro p hrange
  have hfind := Pattern.find_of_loop_some h (source.sliceFrom p)
  rw [contains_digitBlocks] at hfind
  by_cases hnone : (source.sliceFrom p).takeWhile Char.isDigit = []
  · rw [if_pos hnone] at hfind
    refine ⟨none, .pattern fun found hfound => ?_, fun u hu =>
      Text.not_isDigits_of_takeWhile hnone hu⟩
    rw [hfind] at hfound
    cases hfound
  · rw [if_neg hnone] at hfind
    have hlongest := Text.longest_digits hnone
    obtain ⟨span, hspan⟩ := Span.exists_covers hrange.1
      (Int.le_add_of_nonneg_right (Int.natCast_nonneg _))
    exact ⟨some ⟨.text _, span⟩, .pattern hfind hlongest.begins hspan, _, hlongest, hspan⟩

/-! ## Numbers -/

/-- A dot and digits after it. -/
def fraction (digits : Matcher κ) : Matcher κ :=
  seq [char ['.'], digits]

/-- Digits, with a fraction after them or without. -/
def number (digits : Matcher κ) : Matcher κ :=
  seq [digits, quant (fraction digits) 0 (some 1)]

variable {digits : Matcher κ}

/-- A fraction takes all the digits after the dot. -/
theorem TakesLongest.fraction (h : digits.TakesLongest grammar source Text.IsDigits) :
    (Matcher.fraction digits).TakesLongest grammar source Text.IsFraction := by
  intro p hrange
  by_cases hdot : (source.sliceFrom p).head? = some '.'
  · obtain ⟨rest, hslice⟩ := List.head?_eq_some_iff.1 hdot
    obtain ⟨dot, hspan, hchar⟩ : ∃ dot : Span, dot.Covers p (p + 1) ∧
        Succeeds grammar source (.char ['.']) p ⟨.text ['.'], dot⟩ :=
      exists_succeeds_char hrange hdot
    obtain ⟨hrange', hrest⟩ := Text.sliceFrom_eq_cons hrange hslice
    obtain ⟨outcome, hjudged, hcovers⟩ := h (p + 1) hrange'
    rw [← hspan.2] at hjudged
    cases outcome with
    | none =>
      refine ⟨none, .seq (.later hchar (.first hjudged)), ?_⟩
      rintro _ hu ⟨digits, hdigits, rfl⟩
      rw [hslice, List.cons_prefix_cons, ← hrest] at hu
      exact hcovers digits hu.2 hdigits
    | some found =>
      obtain ⟨piece, hlongest, hfound⟩ := hcovers
      rw [hrest] at hlongest
      obtain ⟨span, hspan', hseq⟩ :=
        SucceedInTurn.exists_seq hrange (.cons hchar (.cons hjudged .nil))
      have hstop : found.span.stop = p + ('.' :: piece).length := by
        rw [hfound.2, List.length_cons]
        omega
      rw [hstop] at hspan'
      refine ⟨some _, hseq, _, ?_, hspan'⟩
      rw [hslice]
      exact hlongest.dot
  · refine ⟨none, .seq (.first (fails_char_iff.2 hdot)), ?_⟩
    rintro _ hu ⟨digits, -, rfl⟩
    obtain ⟨rest, hslice⟩ := hu
    rw [← hslice] at hdot
    exact hdot rfl

/-- Digits that succeed make a number, together with the fraction that follows, if there is one. -/
theorem exists_number_of_rounds (hrange : source.InRange p) {found : Match} {items : List Match}
    {q : Int} (hdigits : Succeeds grammar source digits p found)
    (hrounds : Repeats grammar source (Matcher.fraction digits) (some 1) 0 found.span.stop items q
      false) :
    ∃ whole : Match, whole.span.Covers p q ∧
      Succeeds grammar source (Matcher.number digits) p whole := by
  have hrange' := (hdigits.bounds hrange).2.2
  obtain ⟨part, hpart⟩ := Span.exists_covers hrange'.1 (hrounds.bounds hrange').1
  have hquant : Succeeds grammar source (quant (Matcher.fraction digits) 0 (some 1))
      found.span.stop ⟨.ofMatches items, part⟩ :=
    .quant hrounds (Or.inr (Int.natCast_nonneg _)) hpart
  obtain ⟨span, hspan, hseq⟩ := SucceedInTurn.exists_seq hrange (.cons hdigits (.cons hquant .nil))
  rw [hpart.2] at hspan
  exact ⟨_, hspan, hseq⟩

/-- A number takes the longest decimal, if its digits are all that there are. A dot without digits
    after it is given back. -/
theorem TakesLongest.number (h : digits.TakesLongest grammar source Text.IsDigits) :
    (Matcher.number digits).TakesLongest grammar source Text.IsDecimal := by
  intro p hrange
  obtain ⟨outcome, hjudged, hcovers⟩ := h p hrange
  cases outcome with
  | none =>
    refine ⟨none, .seq (.first hjudged), fun u hu hdecimal => ?_⟩
    obtain ⟨v, hv, hdigits⟩ := hdecimal.exists_digits
    exact hcovers v (hv.trans hu) hdigits
  | some found =>
    obtain ⟨whole, hwhole, hfound⟩ := hcovers
    obtain ⟨rest, hslice⟩ := hwhole.begins
    obtain ⟨hrange', hrest⟩ := Text.sliceFrom_of_append hrange hslice.symm
    obtain ⟨outcome', hjudged', hcovers'⟩ := h.fraction (p + whole.length) hrange'
    have hroom : ∀ bound ∈ some (1 : Int), ((0 : Nat) : Int) < bound := by
      rintro _ ⟨⟩
      decide
    -- a fraction that fails has been given back, with its dot, and ends the number
    cases outcome' with
    | none =>
      obtain ⟨number, hspan, hnumber⟩ := exists_number_of_rounds hrange hjudged
        (.failed hroom (hfound.2 ▸ hjudged'))
      rw [hfound.2] at hspan
      have hnone : ∀ u : Text, u <+: rest → ¬u.IsFraction := hrest ▸ hcovers'
      exact ⟨some number, hnumber, whole, hwhole.without_fraction hslice.symm hnone, hspan⟩
    | some found' =>
      obtain ⟨fraction, hfraction, hfound'⟩ := hcovers'
      rw [hrest] at hfraction
      obtain ⟨number, hspan, hnumber⟩ := exists_number_of_rounds hrange hjudged
        (.more hroom (hfound.2 ▸ hjudged') nofun (.full (Int.le_refl 1)))
      have hstop : found'.span.stop = p + (whole ++ fraction).length := by
        rw [hfound'.2, List.length_append]
        omega
      rw [hstop] at hspan
      exact ⟨some number, hnumber, _, hwhole.with_fraction hslice.symm hfraction, hspan⟩

end Digits

end Matcher

end CursorGrammar
