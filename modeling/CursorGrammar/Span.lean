set_option autoImplicit false

/-! # Spans

The half-open range of offsets that a match covers. -/

namespace CursorGrammar

/-- A range of offsets, from `start` up to and without `stop`. No range begins before the text or
    ends before it begins. -/
structure Span where
  start : Int
  stop : Int
  start_nonneg : 0 ≤ start := by omega
  start_le_stop : start ≤ stop := by omega
  deriving DecidableEq

namespace Span

/-- The span with these bounds, if they are the bounds of one. -/
def ofBounds? (start stop : Int) : Option Span :=
  if h : 0 ≤ start ∧ start ≤ stop then some ⟨start, stop, h.1, h.2⟩ else none

theorem ext_bounds {a b : Span} (hstart : a.start = b.start) (hstop : a.stop = b.stop) :
    a = b := by
  cases a; cases b; cases hstart; cases hstop; rfl

theorem ofBounds?_eq_some_iff {start stop : Int} {span : Span} :
    ofBounds? start stop = some span ↔ span.start = start ∧ span.stop = stop := by
  unfold ofBounds?
  split
  next h =>
    constructor
    · rintro ⟨⟩
      exact ⟨rfl, rfl⟩
    · rintro ⟨rfl, rfl⟩
      rfl
  next h =>
    constructor
    · rintro ⟨⟩
    · rintro ⟨rfl, rfl⟩
      exact absurd ⟨span.start_nonneg, span.start_le_stop⟩ h

theorem ofBounds?_eq_none_iff {start stop : Int} :
    ofBounds? start stop = none ↔ ¬(0 ≤ start ∧ start ≤ stop) := by
  unfold ofBounds?
  split
  next h => simp [h]
  next h => simp [h]

theorem ofBounds?_bounds (span : Span) : ofBounds? span.start span.stop = some span :=
  ofBounds?_eq_some_iff.2 ⟨rfl, rfl⟩

end Span

end CursorGrammar
