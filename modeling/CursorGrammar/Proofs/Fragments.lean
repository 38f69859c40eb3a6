import Mathlib.Data.List.Forall2
import CursorGrammar.Pattern

set_option autoImplicit false

/-! # Fragments behind a caret

A fragment is not read by itself but behind a `^`. That lends a repetition at its beginning an
argument, which it does not have by itself. Nothing else changes: what is read of the fragment
behind the `^` resembles what is read of it alone, token by token, and the one is accepted where
the other is. -/

namespace CursorGrammar

/-! ## Repetitions at the beginning -/

/-- A repetition comes before anything that it could apply to. Changes of flags before it, and
    empty quotations, are no argument. -/
def Token.beginWithRepetition : List Token → Bool
  | .repetition _ :: _ => true
  | .flags _ :: rest => beginWithRepetition rest
  | .nothing :: rest => beginWithRepetition rest
  | _ => false

/-! ## What is read of a fragment, alone and behind a caret

Whether a token is accepted depends on the counts of what has been read, and not on the
expressions. -/

/-- The groups have the same counts, but the branch that is being read may have more pieces without
    a count at its beginning in the second group. -/
structure OpenGroup.Resembles (group group' : OpenGroup) : Prop where
  branches : group'.branches.map (·.repeats) = group.branches.map (·.repeats)
  pieces : ∃ more, group'.pieces.map (·.repeats)
    = group.pieces.map (·.repeats) ++ List.replicate more 1

theorem foldl_max_append_ones (counts : List Nat) (more : Nat) :
    (counts ++ List.replicate more 1).foldl max 1 = counts.foldl max 1 := by
  have hone : 1 ≤ counts.foldl max 1 := by
    rw [List.foldl_max]
    exact Nat.le_max_left ..
  rw [List.foldl_append]
  generalize counts.foldl max 1 = most at hone
  induction more with
  | zero => rfl
  | succ more ih => rw [List.replicate_succ, List.foldl_cons, Nat.max_eq_left hone, ih]

namespace OpenGroup

variable {group group' : OpenGroup}

theorem Resembles.refl (group : OpenGroup) : group.Resembles group :=
  ⟨rfl, 0, by simp⟩

theorem Resembles.push (h : group.Resembles group') {piece piece' : Piece}
    (hrepeats : piece'.repeats = piece.repeats) :
    (OpenGroup.mk group.branches (piece :: group.pieces)).Resembles
      ⟨group'.branches, piece' :: group'.pieces⟩ := by
  obtain ⟨more, hpieces⟩ := h.pieces
  exact ⟨h.branches, more, by simp [hpieces, hrepeats]⟩

theorem Resembles.branch_repeats (h : group.Resembles group') :
    group'.branch.repeats = group.branch.repeats := by
  obtain ⟨more, hpieces⟩ := h.pieces
  show (group'.pieces.map (·.repeats)).foldl max 1 = (group.pieces.map (·.repeats)).foldl max 1
  rw [hpieces, foldl_max_append_ones]

theorem Resembles.nextBranch (h : group.Resembles group') :
    group.nextBranch.Resembles group'.nextBranch :=
  ⟨by simp [OpenGroup.nextBranch, h.branches, h.branch_repeats], 0, rfl⟩

theorem Resembles.close_repeats (h : group.Resembles group') :
    group'.close.repeats = group.close.repeats := by
  have hall : (group'.branch :: group'.branches).reverse.map (·.repeats)
      = (group.branch :: group.branches).reverse.map (·.repeats) := by
    simp [h.branches, h.branch_repeats]
  exact congrArg (List.foldl max 1) hall

end OpenGroup

namespace Draft

/-- The drafts have the same groups open, which resemble each other, and if a repetition comes next,
    it lacks an argument in the second draft where it does in the first. -/
structure InStep (coming : List Token) (draft draft' : Draft) : Prop where
  outer : List.Forall₂ (fun inner inner' => inner.1.Resembles inner'.1) draft.outer draft'.outer
  group : draft.group.Resembles draft'.group
  lastRepetition : draft'.lastRepetition = draft.lastRepetition
  argument : (draft.group.pieces = [] → draft'.group.pieces = []) ∨
    Token.beginWithRepetition coming = false

/-- Either both are errors, or both are drafts that are in step. -/
inductive Alike (coming : List Token) :
    Except SyntaxError Draft → Except SyntaxError Draft → Prop
  | rejected (error error' : SyntaxError) : Alike coming (.error error) (.error error')
  | accepted {draft draft' : Draft} (h : draft.InStep coming draft') :
      Alike coming (.ok draft) (.ok draft')

/-- The draft becomes an expression when it takes the tokens. -/
def Completes (whole : Text) (draft : Draft) (coming : List Token) : Prop :=
  ∃ next, draft.takeAll whole coming = .ok next ∧ ∃ expr, next.finish whole = .ok expr

variable {draft draft' : Draft} {whole whole' : Text} {token : Token} {coming rest : List Token}

namespace InStep

theorem push (h : draft.InStep coming draft') {piece piece' : Piece}
    (hrepeats : piece'.repeats = piece.repeats) :
    (draft.push piece).InStep rest (draft'.push piece') :=
  ⟨h.outer, h.group.push hrepeats, rfl, Or.inl nofun⟩

theorem applyRepetition {times : Repetition}
    (h : draft.InStep (.repetition times :: rest) draft') :
    Alike rest (draft.applyRepetition times) (draft'.applyRepetition times) := by
  obtain ⟨more, hpieces⟩ := h.group.pieces
  unfold Draft.applyRepetition
  rw [h.lastRepetition]
  split
  next => exact .rejected _ _
  next =>
    split
    next => exact .rejected _ _
    next =>
      cases hhere : draft.group.pieces with
      | nil =>
        rw [h.argument.resolve_right nofun hhere]
        exact .rejected _ _
      | cons piece pieces =>
        cases hthere : draft'.group.pieces with
        | nil =>
          rw [hhere, hthere] at hpieces
          cases hpieces
        | cons piece' pieces' =>
          rw [hhere, hthere] at hpieces
          obtain ⟨hrepeats, hpieces⟩ := List.cons.inj hpieces
          dsimp only at hrepeats ⊢
          rw [hrepeats]
          split
          next => exact .rejected _ _
          next =>
            have hgroup : (OpenGroup.mk draft.group.branches pieces).Resembles
                ⟨draft'.group.branches, pieces'⟩ := ⟨h.group.branches, more, hpieces⟩
            exact .accepted ⟨h.outer, hgroup.push rfl, rfl, Or.inl nofun⟩

theorem closeGroup (h : draft.InStep (.closeGroup :: rest) draft') :
    Alike rest (draft.take whole .closeGroup) (draft'.take whole' .closeGroup) := by
  have hclose := h.group.close_repeats
  obtain ⟨outer, group, flags, last⟩ := draft
  obtain ⟨outer', group', flags', last'⟩ := draft'
  cases h.outer with
  | nil => exact .rejected _ _
  | @cons inner inner' outer outer' hinner houter =>
    obtain ⟨group, flags, captures⟩ := inner
    obtain ⟨group', flags', captures'⟩ := inner'
    refine .accepted ⟨houter, hinner.push ?_, rfl, Or.inl nofun⟩
    cases captures <;> cases captures' <;> exact hclose

/-- A token is accepted in both drafts or in neither. -/
theorem take (h : draft.InStep (token :: rest) draft') :
    Alike rest (draft.take whole token) (draft'.take whole' token) := by
  cases token with
  | set written => exact .accepted (h.push rfl)
  | dot => exact .accepted (h.push rfl)
  | caret => exact .accepted (h.push rfl)
  | dollar => exact .accepted (h.push rfl)
  | look assertion => exact .accepted (h.push rfl)
  | bar => exact .accepted ⟨h.outer, h.group.nextBranch, rfl, Or.inl fun _ => rfl⟩
  | openGroup captures changes =>
    exact .accepted ⟨.cons h.group h.outer, .refl _, rfl, Or.inl fun _ => rfl⟩
  | closeGroup => exact h.closeGroup
  | flags changes => exact .accepted ⟨h.outer, h.group, rfl, h.argument⟩
  | repetition times => exact h.applyRepetition
  | nothing => exact .accepted ⟨h.outer, h.group, rfl, h.argument⟩
  | bad error => exact .rejected _ _

/-- The tokens are accepted in turn in both drafts or in neither. -/
theorem takeAll (h : draft.InStep coming draft') :
    Alike [] (draft.takeAll whole coming) (draft'.takeAll whole' coming) := by
  induction coming generalizing draft draft' with
  | nil => exact .accepted h
  | cons token rest ih =>
    have hstep : Alike rest (draft.take whole token) (draft'.take whole' token) := h.take
    unfold Draft.takeAll
    generalize draft.take whole token = next at hstep
    generalize draft'.take whole' token = next' at hstep
    cases hstep with
    | rejected => exact .rejected _ _
    | accepted hnext => exact ih hnext

theorem finish_iff (h : draft.InStep coming draft') :
    (∃ expr, draft.finish whole = .ok expr) ↔ ∃ expr, draft'.finish whole' = .ok expr := by
  obtain ⟨outer, group, flags, last⟩ := draft
  obtain ⟨outer', group', flags', last'⟩ := draft'
  cases h.outer with
  | nil => exact ⟨fun _ => ⟨_, rfl⟩, fun _ => ⟨_, rfl⟩⟩
  | cons => exact ⟨nofun, nofun⟩

theorem completes_iff (h : draft.InStep coming draft') :
    draft.Completes whole coming ↔ draft'.Completes whole' coming := by
  have hall : Alike [] (draft.takeAll whole coming) (draft'.takeAll whole' coming) := h.takeAll
  unfold Completes
  generalize draft.takeAll whole coming = last at hall
  generalize draft'.takeAll whole' coming = last' at hall
  cases hall with
  | rejected => exact ⟨nofun, nofun⟩
  | @accepted next next' hlast =>
    have hfinish : (∃ expr, next.finish whole = .ok expr) ↔
        ∃ expr, next'.finish whole' = .ok expr := hlast.finish_iff
    simpa using hfinish

end InStep

/-- A repetition that comes before anything else is not accepted. -/
theorem exists_takeAll_error (h : draft.group.pieces = [])
    (hcoming : Token.beginWithRepetition coming = true) :
    ∃ error, draft.takeAll whole coming = .error error := by
  induction coming generalizing draft with
  | nil => cases hcoming
  | cons token rest ih =>
    unfold takeAll
    cases token with
    | repetition times =>
      have hrejects : ∃ error, draft.applyRepetition times = .error error := by
        unfold applyRepetition
        rw [h]
        split
        next => exact ⟨_, rfl⟩
        next =>
          split
          next => exact ⟨_, rfl⟩
          next => exact ⟨_, rfl⟩
      obtain ⟨error, hrejects⟩ := hrejects
      have htake : draft.take whole (.repetition times) = .error error := hrejects
      rw [htake]
      exact ⟨error, rfl⟩
    | flags changes => exact ih h hcoming
    | nothing => exact ih h hcoming
    | _ => cases hcoming

end Draft

/-! ## Expressions -/

namespace Regex

theorem exists_parse_iff {whole : Text} :
    (∃ expr, parse whole = .ok expr) ↔ Draft.new.Completes whole (Token.ofText whole) := by
  unfold parse Draft.Completes
  cases Draft.new.takeAll whole (Token.ofText whole) with
  | error error => simp
  | ok draft => simp

/-- A repetition at the beginning makes no expression. -/
theorem exists_parse_error {fragment : Text}
    (h : Token.beginWithRepetition (Token.ofText fragment) = true) :
    ∃ error, parse fragment = .error error := by
  obtain ⟨error, hrejects⟩ : ∃ error,
      Draft.new.takeAll fragment (Token.ofText fragment) = .error error :=
    Draft.exists_takeAll_error rfl h
  unfold parse
  rw [hrejects]
  exact ⟨error, rfl⟩

/-- What does not begin with a repetition is an expression by itself if it is one behind a
    caret. -/
theorem exists_parse_caret_iff {fragment : Text}
    (h : Token.beginWithRepetition (Token.ofText fragment) = false) :
    (∃ expr, parse ('^' :: fragment) = .ok expr) ↔ ∃ expr, parse fragment = .ok expr := by
  have hinStep : Draft.new.InStep (Token.ofText fragment)
      (Draft.new.pushExpr (.look .textBegin)) :=
    ⟨.nil, ⟨rfl, 1, rfl⟩, rfl, Or.inr h⟩
  rw [exists_parse_iff, exists_parse_iff]
  exact hinStep.completes_iff.symm

end Regex

/-! ## Patterns -/

namespace Pattern

variable {fragment : Text}

/-- A fragment that is not too long is accepted or rejected as the expression behind the `^` is. -/
theorem compile_cases (hlength : fragment.length ≤ patternLimit) :
    (∃ p expr, compile fragment = .ok p ∧ Regex.parse ('^' :: fragment) = .ok expr) ∨
      ∃ error, compile fragment = .error (.badPattern fragment error) ∧
        Regex.parse ('^' :: fragment) = .error error := by
  unfold compile
  rw [dif_pos hlength]
  cases hparse : Regex.parse ('^' :: fragment) with
  | ok expr =>
    left
    split
    next => exact ⟨_, expr, rfl, rfl⟩
    next error herror => exact nomatch (Program.ofFragment_eq_ok hparse).symm.trans herror
  | error error =>
    right
    split
    next program hok => exact nomatch (Program.ofFragment_eq_error hparse).symm.trans hok
    next error' herror =>
      cases (Program.ofFragment_eq_error hparse).symm.trans herror
      exact ⟨error, rfl, rfl⟩

theorem rejected_iff_of_plain (hlength : fragment.length ≤ patternLimit)
    (h : Token.beginWithRepetition (Token.ofText fragment) = false) :
    (∃ error, compile fragment = .error (.badPattern fragment error)) ↔
      ∃ error, Regex.parse fragment = .error error := by
  have hiff := Regex.exists_parse_caret_iff h
  rcases compile_cases hlength with ⟨p, expr, hcompile, hbehind⟩ | ⟨error, hcompile, hbehind⟩
  · obtain ⟨expr', hparse⟩ := hiff.1 ⟨expr, hbehind⟩
    constructor
    · rintro ⟨_, hrejected⟩
      exact nomatch hcompile.symm.trans hrejected
    · rintro ⟨_, hmalformed⟩
      exact nomatch hparse.symm.trans hmalformed
  · refine ⟨fun _ => ?_, fun _ => ⟨error, hcompile⟩⟩
    cases hparse : Regex.parse fragment with
    | error error' => exact ⟨error', rfl⟩
    | ok expr =>
      obtain ⟨_, hok⟩ := hiff.2 ⟨expr, hparse⟩
      exact nomatch hbehind.symm.trans hok

end Pattern

end CursorGrammar
