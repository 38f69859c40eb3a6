import CursorGrammar.Proofs.Anchoring
import CursorGrammar.Proofs.Characters
import CursorGrammar.Proofs.Literals

set_option autoImplicit false

/-! # Words

A word of letters and digits can be asked for in two ways: as a pattern, which searches the text
and takes what it finds in one step, or as a sequence of its characters, which takes them one by
one and puts the cursor back at the first that is not there. Both match the same. -/

namespace CursorGrammar

/-! ## Searching for a word -/

/-- A thread that has read the text `done` and is at the step is on its way through the word. -/
def Step.OnWay (word done : Text) : Step → Prop
  | accept => word = done
  | read members next =>
    ∃ c rest, word = done ++ c :: rest ∧ members = .single c.toNat ∧ next = rest.length
  | test _ _ => False
  | jump next => ∃ rest, word = done ++ rest ∧ next = rest.length

namespace Program

variable {program : Program} {word : Text}

/-- In a program that reads the word, each block has one step, which goes on through the word. -/
theorem Reads.onWay (h : program.Reads word) {done rest : Text} (hword : word = done ++ rest) :
    ∃ step, program.block rest.length = [step] ∧ step.OnWay word done := by
  cases rest with
  | nil => exact ⟨.accept, h.done, hword.trans (List.append_nil done)⟩
  | cons c rest => exact ⟨_, h.next c rest ⟨done, hword.symm⟩, c, rest, hword, rfl, rfl⟩

theorem Reads.tracks (h : program.Reads word) :
    program.Tracks fun done _ step => step.OnWay word done := by
  refine ⟨fun done place _ => ⟨?_, fun _ _ _ htest _ => htest.elim⟩, ?_⟩
  · rintro start _ ⟨rest, hword, rfl⟩ step hstep
    obtain ⟨_, hblock, hway⟩ := h.onWay hword
    rw [hblock] at hstep
    obtain rfl := List.mem_singleton.1 hstep
    exact hway
  · rintro done start _ _ c ⟨d, rest, hword, rfl, rfl⟩ hc
    have hcode : c = d := Char.toNat_inj.1 ((CharSet.contains_single _ _).1 hc)
    refine ⟨rest, ?_, rfl⟩
    rw [hword, hcode, List.append_assoc, List.singleton_append]

theorem Reads.begins (h : program.Reads word) :
    program.Begins fun done _ step => step.OnWay word done := by
  rintro done (rfl | hfalse)
  · exact ⟨word, rfl, h.start⟩
  · rw [h.anchored] at hfalse
    cases hfalse

/-- What is found is the word, at the beginning. -/
theorem Reads.of_search (h : program.Reads word) {t : Text} {extent : Extent}
    (hsearch : program.search t = some extent) : word <+: t ∧ extent.piece t = word := by
  obtain ⟨done, rest, rfl, hstop, rfl⟩ := search_accounts h.tracks h.begins hsearch
  have hstart := search_start_of_anchored h.anchored hsearch
  refine ⟨List.prefix_append .., ?_⟩
  unfold Extent.piece
  rw [hstart, hstop, List.drop_zero, Nat.sub_zero, List.take_left]

theorem Reads.spells (h : program.Reads word) {rest : Text} (hsuffix : rest <:+ word) :
    program.Spells (.jump rest.length) rest := by
  induction rest with
  | nil => exact .jump (h.done ▸ List.mem_singleton_self _) .accept
  | cons c rest ih =>
    have hread : program.Spells (.read (.single c.toNat) rest.length) (c :: rest) :=
      .read ((CharSet.contains_single _ _).2 rfl) (ih ((List.suffix_cons c rest).trans hsuffix))
    exact .jump (h.next c rest hsuffix ▸ List.mem_singleton_self _) hread

/-- A word that stands at the beginning is found. -/
theorem Reads.exists_search (h : program.Reads word) (htireless : program.Tireless) {t : Text}
    (hbegins : word <+: t) : ∃ extent, program.search t = some extent := by
  have hspells := h.spells List.suffix_rfl
  rw [← h.start] at hspells
  obtain ⟨extent, hsearch, -⟩ := exists_search_of_spells htireless hspells hbegins
  exact ⟨extent, hsearch⟩

end Program

/-- The pattern finds the word at the beginning of the text, and nothing else. -/
theorem Pattern.find_eq_some_iff {p : Pattern} {word : Text} (h : p.program.Reads word)
    {t found : Text} : p.find t = some found ↔ found = word ∧ word <+: t := by
  unfold find
  rw [Option.map_eq_some_iff]
  constructor
  · rintro ⟨extent, hsearch, rfl⟩
    exact ⟨(h.of_search hsearch).2, (h.of_search hsearch).1⟩
  · rintro ⟨rfl, hbegins⟩
    obtain ⟨extent, hsearch⟩ := h.exists_search p.program_tireless hbegins
    exact ⟨extent, hsearch, (h.of_search hsearch).2⟩

/-! ## Character by character -/

section Letters

variable {κ : Type} {grammar : Grammar κ} {source : Text} {p : Int}

/-- The matchers of the characters of a word, one for each. -/
def Matcher.letters (word : Text) : List (Matcher κ) :=
  word.map fun c => .char [c]

/-- Each character of a word that stands at the cursor is matched where the one before it ends. -/
theorem Matcher.exists_succeedInTurn_letters {word : Text} (hrange : source.InRange p)
    (h : word <+: source.sliceFrom p) :
    ∃ founds, SucceedInTurn grammar source (letters word) p founds (p + word.length) ∧
      founds.map (·.value) = word.map fun c => .text [c] := by
  induction word generalizing p with
  | nil =>
    refine ⟨[], ?_, rfl⟩
    rw [List.length_nil, Int.natCast_zero, Int.add_zero]
    exact .nil
  | cons c rest ih =>
    obtain ⟨after, hslice⟩ := h
    obtain ⟨hrange', hafter⟩ := Text.sliceFrom_eq_cons hrange hslice.symm
    obtain ⟨founds, hrest, hvalues⟩ := ih hrange' (hafter ▸ List.prefix_append rest after)
    have hnext : (source.sliceFrom p).head? = some c := hslice ▸ rfl
    obtain ⟨span, hspan, hfirst⟩ := exists_succeeds_char hrange hnext
    have hstop : p + (c :: rest).length = p + 1 + rest.length := by
      rw [List.length_cons]
      omega
    rw [← hspan.2] at hrest hstop
    rw [hstop]
    exact ⟨_ :: founds, .cons hfirst hrest, congrArg _ hvalues⟩

/-- If the word does not stand at the cursor, one of its characters is not there when its turn has
    come. -/
theorem Matcher.failInTurn_letters {word : Text} (hrange : source.InRange p)
    (h : ¬word <+: source.sliceFrom p) : FailInTurn grammar source (letters word) p := by
  induction word generalizing p with
  | nil => exact absurd List.nil_prefix h
  | cons c rest ih =>
    by_cases hnext : (source.sliceFrom p).head? = some c
    · obtain ⟨after, hslice⟩ := List.head?_eq_some_iff.1 hnext
      obtain ⟨hrange', rfl⟩ := Text.sliceFrom_eq_cons hrange hslice
      rw [hslice, List.prefix_cons_inj] at h
      obtain ⟨span, hspan, hfirst⟩ := exists_succeeds_char hrange hnext
      have hrest := ih hrange' h
      rw [← hspan.2] at hrest
      exact .later hfirst hrest
    · exact .first (fails_char_iff.2 hnext)

end Letters

/-! ## One and the other -/

/-- A value made of one match for each character of the word, so that their values join to it. -/
def Value.SpellsOut (word : Text) (value : Value) : Prop :=
  ∃ founds, value = .ofMatches founds ∧ founds.map (·.value) = word.map fun c => .text [c]

/-- If the word stands at the cursor, the behaviour matches it there, with a value of this kind, and
    moves the cursor past it, and otherwise it gives nothing and leaves the cursor where it is. -/
structure Behaviour.MatchesWord (word : Text) (valued : Value → Prop) (source : Text)
    (progress : Progress) (behaviour : Behaviour) : Prop where
  found : word <+: source.sliceFrom progress.cursor →
    ∃ found : Match, valued found.value ∧
      found.span.Covers progress.cursor (progress.cursor + word.length) ∧
      behaviour.Settles source progress (some found)
  nothing : ¬word <+: source.sliceFrom progress.cursor → behaviour.Settles source progress none

namespace Matcher

variable {word source : Text} {progress : Progress} {limits : Limits}

/-- What is judged of a matcher where the word stands, and where it does not, is what its behaviour
    does. -/
theorem matchesWord_of_judged {matcher : Matcher Empty} {valued : Value → Prop}
    (hrange : source.InRange progress.cursor) (hdepth : matcher.depth ≤ limits.nesting)
    (hrounds : source.length < limits.rounds)
    (hfound : word <+: source.sliceFrom progress.cursor →
      ∃ found : Match, valued found.value ∧
        found.span.Covers progress.cursor (progress.cursor + word.length) ∧
        Succeeds .plain source matcher progress.cursor found)
    (hnothing : ¬word <+: source.sliceFrom progress.cursor →
      Fails .plain source matcher progress.cursor) :
    (matcher.behaviour .plain limits).MatchesWord word valued source progress := by
  refine ⟨fun hbegins => ?_, fun hbegins => ?_⟩
  · obtain ⟨found, hvalue, hspan, hsucceeds⟩ := hfound hbegins
    exact ⟨found, hvalue, hspan,
      plain_returned_of_judged hrange hdepth hrounds (some found) hsucceeds⟩
  · exact plain_returned_of_judged hrange hdepth hrounds none (hnothing hbegins)

theorem pattern_matchesWord {p : Pattern} (h : p.program.Reads word)
    (hrange : source.InRange progress.cursor) (hnesting : 1 ≤ limits.nesting)
    (hrounds : source.length < limits.rounds) :
    ((pattern p).behaviour .plain limits).MatchesWord word (· = .text word) source progress := by
  refine matchesWord_of_judged hrange hnesting hrounds (fun hbegins => ?_) fun hbegins => ?_
  · have hfind := (Pattern.find_eq_some_iff h).2 ⟨rfl, hbegins⟩
    obtain ⟨span, hspan⟩ := Span.exists_covers hrange.1
      (Int.le_add_of_nonneg_right (Int.natCast_nonneg word.length))
    exact ⟨⟨.text word, span⟩, rfl, hspan, .pattern hfind hbegins hspan⟩
  · refine .pattern fun found hfind hfound => ?_
    obtain ⟨rfl, -⟩ := (Pattern.find_eq_some_iff h).1 hfind
    exact hbegins hfound

theorem seq_letters_matchesWord (word : Text) (hrange : source.InRange progress.cursor)
    (hnesting : 2 ≤ limits.nesting) (hrounds : source.length < limits.rounds) :
    ((seq (letters word)).behaviour .plain limits).MatchesWord word (·.SpellsOut word) source
      progress := by
  have hdepth : (seq (letters word) : Matcher Empty).depth ≤ limits.nesting :=
    Nat.le_trans (Nat.add_le_add_left (maxDepth_chars_le word) 1) hnesting
  refine matchesWord_of_judged hrange hdepth hrounds (fun hbegins => ?_) fun hbegins => ?_
  · obtain ⟨founds, hturn, hvalues⟩ := exists_succeedInTurn_letters hrange hbegins
    obtain ⟨span, hspan, hseq⟩ := hturn.exists_seq hrange
    exact ⟨⟨.ofMatches founds, span⟩, ⟨founds, rfl, hvalues⟩, hspan, hseq⟩
  · exact .seq (failInTurn_letters hrange hbegins)

end Matcher

end CursorGrammar
