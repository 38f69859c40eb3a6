import Mathlib.Algebra.Ring.Nat
import CursorGrammar.Text.Quoted

set_option autoImplicit false

/-! # Reading back

What is written can be read back from the text that it begins, without knowing what comes after
it: a quoted text up to the mark that closes it, and a decimal up to the first character that is
not a digit. So two of them are told apart in every surrounding. -/

namespace CursorGrammar

variable {α β : Type}

/-! ## Legible forms -/

/-- The text does not go on with a digit. -/
def Text.NoDigitFirst (t : Text) : Prop :=
  ∀ c ∈ t.head?, c.isDigit = false

theorem Text.noDigitFirst_nil : Text.NoDigitFirst [] := nofun

theorem Text.noDigitFirst_cons {c : Char} {t : Text} (h : c.isDigit = false) :
    Text.NoDigitFirst (c :: t) := by
  rintro _ ⟨⟩
  exact h

/-- What `print` writes for `a` is written for nothing else, and it does not begin what is written
    for something else either, as long as no digit follows. -/
def Legible (print : α → Text) (a : α) : Prop :=
  ∀ ⦃b : α⦄ ⦃r s : Text⦄, r.NoDigitFirst → s.NoDigitFirst → print a ++ r = print b ++ s → a = b

namespace Legible

variable {print : α → Text} {a b : α}

/-- Two forms with something after them are cut at the same place. -/
theorem eq_and_eq {r s : Text} (ha : Legible print a) (hr : r.NoDigitFirst) (hs : s.NoDigitFirst)
    (h : print a ++ r = print b ++ s) : a = b ∧ r = s := by
  obtain rfl := ha hr hs h
  exact ⟨rfl, List.append_cancel_left h⟩

theorem eq_and_eq_of_cons {c : Char} {r s : Text} (ha : Legible print a) (hc : c.isDigit = false)
    (h : print a ++ c :: r = print b ++ c :: s) : a = b ∧ r = s := by
  obtain ⟨rfl, hrest⟩ := ha.eq_and_eq (Text.noDigitFirst_cons hc) (Text.noDigitFirst_cons hc) h
  exact ⟨rfl, (List.cons.inj hrest).2⟩

theorem print_eq_iff (ha : Legible print a) : print a = print b ↔ a = b :=
  ⟨fun h => ha Text.noDigitFirst_nil Text.noDigitFirst_nil (congrArg (· ++ []) h),
    fun h => congrArg print h⟩

theorem comp {f : β → α} {b : β} (hb : Legible print (f b)) (hf : Function.Injective f) :
    Legible (fun b => print (f b)) b :=
  fun _ _ _ hr hs h => hf (hb hr hs h)

end Legible

/-! ## Hexadecimal digits -/

/-- The number that a hexadecimal digit in lower case stands for. -/
def hexValue (c : Char) : Nat :=
  if c.isDigit then c.toNat - '0'.toNat else c.toNat - 'a'.toNat + 10

theorem hexValue_digitChar {d : Nat} (h : d < 16) : hexValue (Nat.digitChar d) = d := by
  have hall : ∀ d : Fin 16, hexValue (Nat.digitChar d) = d := by decide
  exact hall ⟨d, h⟩

/-- The number that hexadecimal digits write. -/
def ofHexadecimal (digits : Text) : Nat :=
  digits.foldl (fun n c => n * 16 + hexValue c) 0

theorem length_hexadecimal (width n : Nat) : (hexadecimal width n).length = width := by
  induction width generalizing n with
  | zero => rfl
  | succ width ih => rw [hexadecimal, List.length_append, ih, List.length_singleton]

theorem ofHexadecimal_hexadecimal (width n : Nat) :
    ofHexadecimal (hexadecimal width n) = n % 16 ^ width := by
  induction width generalizing n with
  | zero => exact (Nat.mod_one n).symm
  | succ width ih =>
    have hlast : hexValue (Nat.digitChar (n % 16)) = n % 16 :=
      hexValue_digitChar (Nat.mod_lt n (by omega))
    calc ofHexadecimal (hexadecimal (width + 1) n)
        = ofHexadecimal (hexadecimal width (n / 16)) * 16 + hexValue (Nat.digitChar (n % 16)) := by
          simp only [ofHexadecimal, hexadecimal, List.foldl_append, List.foldl_cons, List.foldl_nil]
      _ = n / 16 % 16 ^ width * 16 + n % 16 := by rw [ih, hlast]
      _ = n % 16 ^ (width + 1) := by rw [Nat.pow_succ', Nat.mod_mul]; omega

/-! ## Quoted characters -/

/-- The character with the code that stands in the first `width` characters. -/
def readCode (width : Nat) (t : Text) : Char :=
  Char.ofNat (ofHexadecimal (t.take width))

theorem readCode_hexadecimal {width : Nat} {c : Char} (rest : Text) (h : c.toNat < 16 ^ width) :
    readCode width (hexadecimal width c.toNat ++ rest) = c := by
  rw [readCode, List.take_left' (length_hexadecimal width c.toNat), ofHexadecimal_hexadecimal,
    Nat.mod_eq_of_lt h, Char.ofNat_toNat]

/-- The character that the text after a backslash stands for. -/
def readEscape : Text → Option Char
  | [] => none
  | letter :: rest =>
    if letter = 't' then some '\t'
    else if letter = 'n' then some '\n'
    else if letter = 'r' then some '\r'
    else if letter = 'x' then some (readCode 2 rest)
    else if letter = 'u' then some (readCode 4 rest)
    else if letter = 'U' then some (readCode 8 rest)
    else some letter

/-- The character that comes first in what stands between marks, and nothing if the mark that
    closes it comes. -/
def readChar (mark : Char) : Text → Option Char
  | [] => none
  | first :: rest =>
    if first = mark then none
    else if first = '\\' then readEscape rest
    else some first

@[simp]
theorem readChar_mark (mark : Char) (rest : Text) : readChar mark (mark :: rest) = none :=
  if_pos rfl

theorem readChar_self {mark c : Char} (rest : Text) (hmark : c ≠ mark) (hslash : c ≠ '\\') :
    readChar mark (c :: rest) = some c := by
  rw [readChar, if_neg hmark, if_neg hslash]

section Marks

variable {mark : Char} (hmark : mark = singleMark ∨ mark = doubleMark)

include hmark

theorem readChar_escape (escape rest : Text) :
    readChar mark ('\\' :: escape ++ rest) = readEscape (escape ++ rest) := by
  have hslash : '\\' ≠ mark := by rcases hmark with rfl | rfl <;> decide
  rw [List.cons_append, readChar, if_neg hslash, if_pos rfl]

theorem readChar_escapeCode (c : Char) (rest : Text) :
    readChar mark (Text.escapeCode c.toNat ++ rest) = some c := by
  have hcode : c.toNat < 16 ^ 8 := c.val.toNat_lt
  unfold Text.escapeCode
  split_ifs with htwo hfour
  · rw [readChar_escape hmark]
    exact congrArg some (readCode_hexadecimal rest (by omega))
  · rw [readChar_escape hmark]
    exact congrArg some (readCode_hexadecimal rest (by omega))
  · rw [readChar_escape hmark]
    exact congrArg some (readCode_hexadecimal rest hcode)

/-- What stands for a character between marks is read as that character. -/
theorem readChar_quoteChar (shown : Char → Bool) (c : Char) (rest : Text) :
    readChar mark (Text.quoteChar shown mark c ++ rest) = some c := by
  unfold Text.quoteChar
  split_ifs with hself htab hnewline hreturn hshown
  · -- No letter with a meaning of its own is a mark or a backslash.
    have hletter : c ∉ ['t', 'n', 'r', 'x', 'u', 'U'] := by
      rcases hself with rfl | rfl
      · rcases hmark with rfl | rfl <;> decide
      · decide
    simp only [List.mem_cons, List.not_mem_nil, or_false, not_or] at hletter
    rw [readChar_escape hmark]
    simp [readEscape, hletter]
  · rw [htab, readChar_escape hmark]
    rfl
  · rw [hnewline, readChar_escape hmark]
    rfl
  · rw [hreturn, readChar_escape hmark]
    rfl
  · exact readChar_self rest (fun h => hself (.inl h)) (fun h => hself (.inr h))
  · exact readChar_escapeCode hmark c rest

theorem eq_of_flatMap_quoteChar_append {shown : Char → Bool} {t u r s : Text}
    (h : t.flatMap (Text.quoteChar shown mark) ++ mark :: r =
      u.flatMap (Text.quoteChar shown mark) ++ mark :: s) : t = u := by
  induction t generalizing u with
  | nil =>
    cases u with
    | nil => rfl
    | cons d u =>
      have := congrArg (readChar mark) h
      simp [readChar_quoteChar hmark] at this
  | cons c t ih =>
    cases u with
    | nil =>
      have := congrArg (readChar mark) h
      simp [readChar_quoteChar hmark] at this
    | cons d u =>
      simp only [List.flatMap_cons, List.append_assoc] at h
      have hread := congrArg (readChar mark) h
      rw [readChar_quoteChar hmark, readChar_quoteChar hmark] at hread
      obtain rfl := Option.some.inj hread
      rw [ih (List.append_cancel_left h)]

end Marks

theorem Text.mark_eq (t : Text) : t.mark = singleMark ∨ t.mark = doubleMark := by
  unfold Text.mark
  split_ifs
  · exact .inr rfl
  · exact .inl rfl

theorem legible_quote (shown : Char → Bool) (t : Text) : Legible (Text.quote shown) t := by
  intro u r s _ _ h
  simp only [Text.quote, List.cons_append, List.append_assoc, List.nil_append, List.cons.injEq] at h
  obtain ⟨hmarks, h⟩ := h
  rw [← hmarks] at h
  exact eq_of_flatMap_quoteChar_append t.mark_eq h

theorem legible_quoted (t : Text) : Legible Text.quoted t :=
  legible_quote isPrintable t

/-! ## Decimals -/

theorem Text.takeWhile_isDigit_append {digits r : Text} (hdigits : ∀ c ∈ digits, c.isDigit = true)
    (hr : r.NoDigitFirst) : (digits ++ r).takeWhile Char.isDigit = digits := by
  rw [List.takeWhile_append_of_pos hdigits]
  cases r with
  | nil => rw [List.takeWhile_nil, List.append_nil]
  | cons c r => rw [List.takeWhile_cons_of_neg (by simp [hr c rfl]), List.append_nil]

theorem isDigit_of_mem_decimalDigits {n : Nat} : ∀ c ∈ Nat.toDigits 10 n, c.isDigit = true :=
  fun _ => Nat.isDigit_of_mem_toDigits (by omega) (by omega)

theorem exists_decimalDigits_eq (n : Nat) :
    ∃ first rest, Nat.toDigits 10 n = first :: rest ∧ first.isDigit = true := by
  cases hdigits : Nat.toDigits 10 n with
  | nil => exact absurd hdigits Nat.toDigits_ne_nil
  | cons first rest =>
    exact ⟨first, rest, rfl, isDigit_of_mem_decimalDigits first (hdigits ▸ List.mem_cons_self)⟩

/-- A decimal begins with a sign or a digit. -/
theorem exists_decimal_eq (n : Int) :
    ∃ first rest, decimal n = first :: rest ∧ (first = '-' ∨ first.isDigit = true) := by
  cases n with
  | ofNat n =>
    obtain ⟨first, rest, hdigits, hfirst⟩ := exists_decimalDigits_eq n
    exact ⟨first, rest, hdigits, .inr hfirst⟩
  | negSucc n => exact ⟨'-', _, rfl, .inl rfl⟩

theorem legible_decimalDigits (n : Nat) : Legible (Nat.toDigits 10) n := by
  intro m r s hr hs h
  have hdigits := congrArg (List.takeWhile Char.isDigit) h
  rw [Text.takeWhile_isDigit_append isDigit_of_mem_decimalDigits hr,
    Text.takeWhile_isDigit_append isDigit_of_mem_decimalDigits hs] at hdigits
  rw [← Nat.ofDigitChars_ten_toDigits (n := n), hdigits, Nat.ofDigitChars_ten_toDigits]

theorem decimalDigits_append_ne (n : Nat) (r s : Text) : Nat.toDigits 10 n ++ r ≠ '-' :: s := by
  obtain ⟨first, rest, hdigits, hfirst⟩ := exists_decimalDigits_eq n
  rw [hdigits]
  rintro ⟨⟩
  exact absurd hfirst (by decide)

theorem legible_decimal (n : Int) : Legible decimal n := by
  intro m r s hr hs h
  cases n with
  | ofNat n =>
    cases m with
    | ofNat m => rw [legible_decimalDigits n hr hs h]
    | negSucc m => exact absurd h (decimalDigits_append_ne n r _)
  | negSucc n =>
    cases m with
    | ofNat m => exact absurd h.symm (decimalDigits_append_ne m s _)
    | negSucc m =>
      have hsucc : n + 1 = m + 1 := legible_decimalDigits _ hr hs (List.cons.inj h).2
      rw [Nat.succ.inj hsucc]

end CursorGrammar
