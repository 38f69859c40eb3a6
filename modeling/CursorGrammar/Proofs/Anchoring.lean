import CursorGrammar.Proofs.Leftmost
import CursorGrammar.Proofs.Returns

set_option autoImplicit false

/-! # Where patterns match

A pattern is searched for in the text from the cursor on, and what is found is then compared with
that text. A match further along is taken for one at the cursor if a copy of it stands there.

That cannot happen if only the beginning can begin a match. Nor can it if the program tests for
nothing but the beginning of the text: then it accepts the copy as well, and a match at the
beginning comes first. -/

namespace CursorGrammar

/-! ## Programs that test for nothing but the beginning -/

/-- The step tests for nothing but the beginning of the text. -/
def Step.testsBeginOnly : Step → Bool
  | .test assertion _ => assertion == .textBegin
  | _ => true

namespace Program

variable {program : Program}

/-- The program tests for nothing but the beginning of the text. -/
def testsBeginOnly (program : Program) : Bool :=
  program.blocks.toList.all (·.all (·.testsBeginOnly))

theorem step_testsBeginOnly (h : program.testsBeginOnly = true) {n : Nat} {step : Step}
    (hstep : step ∈ program.block n) : step.testsBeginOnly = true := by
  unfold testsBeginOnly at h
  by_cases hbound : n < program.blocks.size
  · have hblock : program.block n = program.blocks[n] := by
      unfold block
      simp [hbound]
    rw [hblock] at hstep
    have hmem : program.blocks[n] ∈ program.blocks.toList := by simp
    exact List.all_eq_true.1 (List.all_eq_true.1 h _ hmem) step hstep
  · rw [block_eq_nil (Nat.le_of_not_lt hbound)] at hstep
    cases hstep

/-- What has been read leads to the step, and whatever the program accepts from there completes
    it. -/
def Leads (program : Program) (read : Text) (step : Step) : Prop :=
  step.testsBeginOnly = true ∧
    ∀ t, program.Spells step t → program.Spells (.jump program.start) (read ++ t)

/-- Of a thread that has begun later it is known that what it has read since then has led it where
    it is. -/
def leadsLater (program : Program) (done : Text) : Knowledge := fun start step =>
  0 < start → start ≤ done.length ∧ program.Leads (done.drop start) step

theorem begins_leadsLater : program.Begins program.leadsLater := by
  intro done _ _
  refine ⟨Nat.le_refl _, rfl, ?_⟩
  rw [List.drop_length]
  exact fun t ht => ht

theorem tracks_leadsLater (h : program.testsBeginOnly = true) :
    program.Tracks program.leadsLater := by
  refine ⟨fun done place hplace => ⟨?_, ?_⟩, ?_⟩
  · intro start next hjump step hstep hlater
    obtain ⟨hle, -, hcomplete⟩ := hjump hlater
    exact ⟨hle, step_testsBeginOnly h hstep, fun t ht => hcomplete t (.jump hstep ht)⟩
  · intro start assertion next htest hholds hlater
    obtain ⟨hle, hbegin, -⟩ := htest hlater
    -- the beginning of the text is behind a thread that has begun later
    have hassertion : assertion = .textBegin := eq_of_beq hbegin
    have hread : done ≠ [] := List.ne_nil_of_length_pos (Nat.lt_of_lt_of_le hlater hle)
    have hbefore : place.before.isNone = true := by
      rw [hassertion] at hholds
      exact hholds
    rw [Option.isNone_iff_eq_none.1 hbefore] at hplace
    cases hplace hread
  · intro done start members next c hread hc hlater
    obtain ⟨hle, -, hcomplete⟩ := hread hlater
    rw [List.length_append, List.drop_append_of_le_length hle]
    refine ⟨Nat.le_add_right_of_le hle, rfl, ?_⟩
    intro t ht
    rw [List.append_assoc]
    exact hcomplete _ (.read hc ht)

/-- The program accepts what it finds further along, wherever that stands. -/
theorem spells_of_search (h : program.testsBeginOnly = true) {t : Text} {extent : Extent}
    (hsearch : program.search t = some extent) (hlater : 0 < extent.start) :
    program.Spells (.jump program.start) (extent.piece t) := by
  obtain ⟨done, rest, rfl, hstop, hknown⟩ :=
    search_accounts (tracks_leadsLater h) begins_leadsLater hsearch
  obtain ⟨hle, -, hcomplete⟩ := hknown hlater
  have hpiece : extent.piece (done ++ rest) = done.drop extent.start := by
    unfold Extent.piece
    rw [hstop, List.drop_append_of_le_length hle, ← List.length_drop, List.take_left]
  rw [hpiece, ← List.append_nil (done.drop extent.start)]
  exact hcomplete [] .accept

/-- If what is found stands at the beginning as well, it is found there. -/
theorem search_start_of_prefix (htireless : program.Tireless) (h : program.testsBeginOnly = true)
    {t : Text} {extent : Extent} (hsearch : program.search t = some extent)
    (hbegins : extent.piece t <+: t) : extent.start = 0 := by
  rcases Nat.eq_zero_or_pos extent.start with hzero | hlater
  · exact hzero
  · have hspells := spells_of_search h hsearch hlater
    obtain ⟨extent', hsearch', hzero⟩ := exists_search_of_spells htireless hspells hbegins
    cases hsearch.symm.trans hsearch'
    exact hzero

end Program

/-! ## Patterns -/

namespace Pattern

variable {p : Pattern} {source : Text} {cursor : Int}

theorem program_tireless (p : Pattern) : p.program.Tireless := by
  have hprogram := p.program_eq
  unfold Program.ofFragment at hprogram
  cases hparse : Regex.parse ('^' :: p.fragment) with
  | error e =>
    rw [hparse] at hprogram
    cases hprogram
  | ok expr =>
    rw [hparse] at hprogram
    rw [← Except.ok.inj hprogram]
    exact Program.ofBlocks_tireless ..

/-- With the cursor there, what the pattern finds at the cursor is matched, and if it finds nothing
    or finds something further along, then it gives nothing and leaves the cursor alone. -/
structure AnchoredAt (p : Pattern) (source : Text) (cursor : Int) : Prop where
  here : ∀ extent, p.program.search (source.sliceFrom cursor) = some extent → extent.start = 0 →
    ∃ span : Span, span.Covers cursor (cursor + extent.stop) ∧
      (Behaviour.pattern p).Returns source cursor
        (some ⟨.text (extent.piece (source.sliceFrom cursor)), span⟩) (cursor + extent.stop)
  elsewhere : (∀ extent, p.program.search (source.sliceFrom cursor) = some extent →
      0 < extent.start) →
    (Behaviour.pattern p).Returns source cursor none cursor

theorem find_of_search {t : Text} {extent : Extent} (h : p.program.search t = some extent) :
    p.find t = some (extent.piece t) := by
  unfold find
  rw [h]
  rfl

theorem piece_of_search {t : Text} {extent : Extent} (h : p.program.search t = some extent)
    (hzero : extent.start = 0) : extent.piece t <+: t ∧ (extent.piece t).length = extent.stop := by
  have hstop := Program.search_stop_le h
  unfold Extent.piece
  rw [hzero, List.drop_zero, List.length_take]
  exact ⟨List.take_prefix _ _, by omega⟩

/-- A piece that stands at the cursor is matched there, wherever it has been found. -/
theorem returns_of_prefix (hrange : source.InRange cursor) {extent : Extent}
    (hsearch : p.program.search (source.sliceFrom cursor) = some extent)
    (hbegins : extent.piece (source.sliceFrom cursor) <+: source.sliceFrom cursor) :
    ∃ span : Span,
      span.Covers cursor (cursor + (extent.piece (source.sliceFrom cursor)).length) ∧
      (Behaviour.pattern p).Returns source cursor
        (some ⟨.text (extent.piece (source.sliceFrom cursor)), span⟩)
        (cursor + (extent.piece (source.sliceFrom cursor)).length) := by
  obtain ⟨span, hspan⟩ := Span.exists_covers hrange.1
    (Int.le_add_of_nonneg_right (Int.natCast_nonneg _))
  exact ⟨span, hspan, Behaviour.pattern_returns hrange (find_of_search hsearch) hbegins hspan⟩

theorem anchoredAt_of_forall (hrange : source.InRange cursor)
    (h : ∀ extent, p.program.search (source.sliceFrom cursor) = some extent →
      extent.piece (source.sliceFrom cursor) <+: source.sliceFrom cursor → extent.start = 0) :
    p.AnchoredAt source cursor := by
  refine ⟨?_, ?_⟩
  · intro extent hsearch hzero
    obtain ⟨hbegins, hlength⟩ := piece_of_search hsearch hzero
    have hmatched := returns_of_prefix hrange hsearch hbegins
    rw [hlength] at hmatched
    exact hmatched
  · intro hlater
    refine Behaviour.pattern_returns_none hrange ?_
    intro found hfound hbegins
    obtain ⟨extent, hsearch, rfl⟩ := Option.map_eq_some_iff.1 hfound
    exact Nat.ne_of_gt (hlater extent hsearch) (h extent hsearch hbegins)

theorem start_of_anchoredAt (hrange : source.InRange cursor) (h : p.AnchoredAt source cursor)
    {extent : Extent} (hsearch : p.program.search (source.sliceFrom cursor) = some extent)
    (hbegins : extent.piece (source.sliceFrom cursor) <+: source.sliceFrom cursor) :
    extent.start = 0 := by
  rcases Nat.eq_zero_or_pos extent.start with hzero | hlater
  · exact hzero
  · obtain ⟨span, -, hmatched⟩ := returns_of_prefix hrange hsearch hbegins
    have hnothing : (Behaviour.pattern p).Returns source cursor none cursor := by
      refine h.elsewhere fun extent' hsearch' => ?_
      cases hsearch.symm.trans hsearch'
      exact hlater
    obtain ⟨_, hrun⟩ := hmatched []
    obtain ⟨_, hrun'⟩ := hnothing []
    cases hrun.symm.trans hrun'

/-- A fragment that writes an expression makes a pattern, whose program can be asked about. -/
theorem exists_compile {α : Type} (about : Program → α) {fragment : Text} {answer : α}
    (hlength : fragment.length ≤ patternLimit)
    (h : (Program.ofFragment fragment).toOption.map about = some answer) :
    ∃ p, compile fragment = .ok p ∧ about p.program = answer := by
  cases hprogram : Program.ofFragment fragment with
  | error error =>
    rw [hprogram] at h
    cases h
  | ok program =>
    rw [hprogram] at h
    exact ⟨⟨fragment, program, hlength, hprogram⟩, compile_eq_ok_iff.2 rfl, Option.some.inj h⟩

end Pattern

end CursorGrammar
