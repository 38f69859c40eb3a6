import CursorGrammar.Pattern

set_option autoImplicit false

/-! # Fragments of letters and digits

A fragment of letters and digits of ASCII stands for itself. Its program reads them one after the
other: as code is laid out from its end, a block is numbered by how many characters are still to
be read from there. -/

namespace CursorGrammar

/-- All characters of the text are letters or digits of ASCII. -/
def Text.IsWord (word : Text) : Prop :=
  ∀ c ∈ word, Token.isAlphanumeric c = true

instance (word : Text) : Decidable word.IsWord :=
  decidable_of_iff (word.all Token.isAlphanumeric = true) List.all_eq_true

/-! ## Tokens -/

namespace Token

theorem code_bounds {c : Char} (h : isAlphanumeric c = true) : 48 ≤ c.toNat ∧ c.toNat ≤ 122 := by
  simp only [isAlphanumeric, isDigit, Bool.or_eq_true, Bool.and_eq_true, decide_eq_true_eq] at h
  omega

theorem next_of_alphanumeric {c : Char} (h : isAlphanumeric c = true) (rest : Text) :
    next c rest = ([literal c], rest) := by
  unfold next
  split
  case h_13 => rfl
  -- all others are characters with a meaning of their own
  all_goals cases h

theorem ofText_of_isWord {word : Text} (h : word.IsWord) : ofText word = word.map literal := by
  unfold ofText
  induction word with
  | nil => rfl
  | cons c rest ih =>
    obtain ⟨hc, hrest⟩ := List.forall_mem_cons.1 h
    show (next c rest).1 ++ readAll rest.length (next c rest).2 = _
    rw [next_of_alphanumeric hc, List.map_cons]
    exact congrArg (literal c :: ·) (ih hrest)

end Token

/-! ## Expressions -/

/-- A block of one code point is the normal form of itself. -/
theorem Blocks.normal_singleton {code : Nat} (h0 : 0 < code) (h : code < lastCode) :
    Blocks.normal [(code, code)] = [(code, code)] := by
  have hout : remove [(0, lastCode)] (code, code) = [(0, code - 1), (code + 1, lastCode)] := by
    simp [remove, h0, h]
    omega
  have hbelow : remove [(0, lastCode)] (0, code - 1) = [(code, lastCode)] := by
    have hlt : code - 1 < lastCode := by omega
    simp [remove, hlt, Nat.sub_add_cancel h0]
  have habove : remove [(code, lastCode)] (code + 1, lastCode) = [(code, code)] := by
    simp [remove]
    omega
  show complement (remove [(0, lastCode)] (code, code)) = _
  rw [hout]
  show remove (remove [(0, lastCode)] (0, code - 1)) (code + 1, lastCode) = _
  rw [hbelow, habove]

namespace Regex

/-- The letters of the word, after the beginning of the text. -/
def ofWord : List Nat → Regex
  | [] => look .textBegin
  | codes => cat (look .textBegin) (letters false codes)

theorem joinLetters_map (codes : List Nat) :
    joinLetters (codes.map fun code => letters false [code])
      = if codes = [] then [] else [letters false codes] := by
  induction codes with
  | nil => rfl
  | cons code rest ih =>
    rw [List.map_cons, joinLetters, ih]
    cases rest <;> rfl

theorem concat_joinLetters (codes : List Nat) :
    concat (joinLetters (look .textBegin :: codes.map fun code => letters false [code]))
      = ofWord codes := by
  rw [joinLetters, joinLetters_map]
  · cases codes <;> rfl
  · nofun

end Regex

namespace Draft

/-- A letter or digit is added to the branch as it is, if letters are not folded. -/
theorem take_literal {c : Char} (h : Token.isAlphanumeric c = true) (whole : Text)
    (pieces : List Piece) :
    take whole ⟨[], ⟨[], pieces⟩, {}, []⟩ (.literal c)
      = .ok ⟨[], ⟨[], ⟨.letters false [c.toNat], 1⟩ :: pieces⟩, {}, []⟩ := by
  obtain ⟨hlow, hhigh⟩ := Token.code_bounds h
  have hmembers : (CharClass.single c.toNat).members false = ⟨[(c.toNat, c.toNat)]⟩ := by
    show CharSet.mk (Blocks.normal [(c.toNat, c.toNat)]) = _
    rw [Blocks.normal_singleton (by omega) (by unfold lastCode; omega)]
  have hletter : Regex.ofSet false ⟨[(c.toNat, c.toNat)]⟩ = .letters false [c.toNat] :=
    if_pos rfl
  show Except.ok (pushExpr _ (.ofSet false ((CharClass.single c.toNat).members false))) = _
  rw [hmembers, hletter]
  rfl

theorem takeAll_literals {word : Text} (h : word.IsWord) (whole : Text) (pieces : List Piece) :
    takeAll whole ⟨[], ⟨[], pieces⟩, {}, []⟩ (word.map .literal)
      = .ok ⟨[], ⟨[], (word.map fun c => ⟨.letters false [c.toNat], 1⟩).reverse ++ pieces⟩,
        {}, []⟩ := by
  induction word generalizing pieces with
  | nil => rfl
  | cons c rest ih =>
    obtain ⟨hc, hrest⟩ := List.forall_mem_cons.1 h
    rw [List.map_cons, takeAll, take_literal hc]
    dsimp only
    rw [ih hrest]
    simp

end Draft

/-- Behind a caret, a word is read as its letters at the beginning of the text. -/
theorem Regex.parse_caret_word {word : Text} (h : word.IsWord) :
    parse ('^' :: word) = .ok (ofWord (word.map Char.toNat)) := by
  have htokens : Token.ofText ('^' :: word) = .caret :: word.map .literal := by
    rw [← Token.ofText_of_isWord h]
    rfl
  have hbegin : Draft.new.take ('^' :: word) .caret
      = .ok ⟨[], ⟨[], [⟨.look .textBegin, 1⟩]⟩, {}, []⟩ := rfl
  unfold parse
  rw [htokens, Draft.takeAll, hbegin]
  dsimp only
  rw [Draft.takeAll_literals h]
  show Except.ok (concat (joinLetters (List.map _ (List.reverse _)))) = _
  rw [← concat_joinLetters]
  simp [Function.comp_def]

/-! ## Programs -/

/-- The code that reads the letters and accepts, laid out from its end. -/
def Code.ofWord : List Nat → Code
  | [] => #[.accept]
  | code :: rest => (ofWord rest).push (.read (.single code) rest.length)

theorem Code.size_ofWord (codes : List Nat) : (ofWord codes).size = codes.length + 1 := by
  induction codes with
  | nil => rfl
  | cons code rest ih => rw [ofWord, Array.size_push, ih, List.length_cons]

theorem Regex.layOut_routeOfLetters (codes : List Nat) :
    (routeOfLetters false codes).layOut 0 #[.accept] = (codes.length, Code.ofWord codes) := by
  induction codes with
  | nil => rfl
  | cons code rest ih =>
    have hread : (Route.read (.single code)).layOut rest.length (Code.ofWord rest)
        = (rest.length + 1, Code.ofWord (code :: rest)) := by
      rw [Route.layOut, Code.size_ofWord]
      rfl
    cases rest with
    | nil => exact hread
    | cons second rest =>
      show (Route.cat (.read (.single code)) (routeOfLetters false (second :: rest))).layOut _ _ = _
      rw [Route.layOut, ih]
      exact hread

/-- As code is laid out from its end, the letter that so many others come after has their number,
    and one more for the acceptance. -/
theorem Code.getElem?_ofWord {code : Nat} {rest codes : List Nat} (h : code :: rest <:+ codes) :
    (ofWord codes)[rest.length + 1]? = some (.read (.single code) rest.length) := by
  induction codes with
  | nil => cases List.suffix_nil.1 h
  | cons first others ih =>
    rw [ofWord, Array.getElem?_push, size_ofWord]
    rcases List.suffix_cons_iff.1 h with hall | hothers
    · cases hall
      exact if_pos rfl
    · have hlength : rest.length + 1 ≤ others.length := hothers.length_le
      rw [if_neg (by omega)]
      exact ih hothers

theorem Code.getElem?_ofWord_zero (codes : List Nat) : (ofWord codes)[0]? = some .accept := by
  induction codes with
  | nil => rfl
  | cons code rest ih =>
    rw [ofWord, Array.getElem?_push, if_neg (by rw [size_ofWord]; omega), ih]

/-- The program reads the word at the beginning of the text, and nothing else. Each block reads one
    letter, and its number is how many are still to be read. -/
structure Program.Reads (program : Program) (word : Text) : Prop where
  anchored : program.anchored = true
  start : program.start = word.length
  done : program.block 0 = [.accept]
  next : ∀ c rest, c :: rest <:+ word →
    program.block (rest.length + 1) = [.read (.single c.toNat) rest.length]

theorem Regex.program_ofWord (codes : List Nat) :
    (ofWord codes).program
      = .ofBlocks true codes.length ((Code.ofWord codes).toList.map (·.block)) := by
  have hlead : (ofWord codes).program = .ofBlocks true
      ((routeOfLetters false codes).layOut 0 #[.accept]).1
      (((routeOfLetters false codes).layOut 0 #[.accept]).2.toList.map (·.block)) := by
    cases codes <;> rfl
  rw [hlead, layOut_routeOfLetters]

theorem Regex.program_ofWord_reads (word : Text) :
    (ofWord (word.map Char.toNat)).program.Reads word := by
  have hblock : ∀ n instruction, (Code.ofWord (word.map Char.toNat))[n]? = some instruction →
      (ofWord (word.map Char.toNat)).program.block n = instruction.block := by
    intro n instruction h
    rw [program_ofWord]
    simp [Program.ofBlocks, Program.block, h]
  refine ⟨?_, ?_, ?_, ?_⟩
  · rw [program_ofWord]
    rfl
  · rw [program_ofWord]
    exact List.length_map ..
  · exact hblock 0 _ (Code.getElem?_ofWord_zero _)
  · intro c rest hsuffix
    have hcodes := Code.getElem?_ofWord (hsuffix.map Char.toNat)
    rw [List.length_map] at hcodes
    exact hblock _ _ hcodes

/-- A word that is not too long makes a pattern, whose program reads it. -/
theorem Pattern.exists_compile_word {word : Text} (h : word.IsWord)
    (hlength : word.length ≤ patternLimit) :
    ∃ p, compile word = .ok p ∧ p.program.Reads word := by
  have hprogram : Program.ofFragment word = .ok (Regex.ofWord (word.map Char.toNat)).program :=
    Program.ofFragment_eq_ok (Regex.parse_caret_word h)
  exact ⟨⟨word, _, hlength, hprogram⟩, compile_eq_ok_iff.2 rfl, Regex.program_ofWord_reads word⟩

end CursorGrammar
