import CursorGrammar.Feed

set_option autoImplicit false

/-! # Reading inside the text

With the cursor inside the text, offsets are places: what is seen from the cursor on is the rest of
the text, and a token is accepted if it begins that rest. So what is seen through a window, of
whatever width, can be consumed. A window that is not negative bounds what is seen. -/

namespace CursorGrammar

/-- The cursor is between the two ends of the text. -/
def Text.InRange (source : Text) (cursor : Int) : Prop :=
  0 ≤ cursor ∧ cursor ≤ source.length

namespace Text

variable {source : Text} {cursor : Int}

theorem inRange_zero (source : Text) : source.InRange 0 :=
  ⟨Int.le_refl 0, Int.natCast_nonneg _⟩

/-- Short of the end, a window from the cursor on shows the first characters of the rest. -/
theorem slice_window (h : source.InRange cursor) {size : Int} (hsize : 0 ≤ size) :
    source.slice cursor (cursor + size) = (source.sliceFrom cursor).take size.toNat := by
  obtain ⟨h0, hn⟩ := h
  have hlength := length_sliceFrom source cursor
  rw [position_of_mem h0 hn] at hlength
  show (source.sliceFrom cursor).take _ = _
  rw [position_of_mem h0 hn]
  by_cases hend : cursor + size ≤ source.length
  · rw [position_of_mem (by omega) hend]
    congr 1
    omega
  · rw [position_of_ge (by omega), List.take_of_length_le (by omega),
      List.take_of_length_le (by omega)]

theorem slice_zero (t : Text) {size : Int} (hsize : 0 ≤ size) :
    t.slice 0 size = t.take size.toNat := by
  have hwindow := slice_window (inRange_zero t) hsize
  rw [Int.zero_add] at hwindow
  rw [hwindow]
  rfl

/-- What the text goes on with from the cursor on ends where the rest of it begins. -/
theorem sliceFrom_of_append {u rest : Text} (hrange : source.InRange cursor)
    (h : source.sliceFrom cursor = u ++ rest) :
    source.InRange (cursor + u.length) ∧ source.sliceFrom (cursor + u.length) = rest := by
  obtain ⟨h0, hn⟩ := hrange
  unfold sliceFrom at h
  rw [position_of_mem h0 hn] at h
  have hlength := congrArg List.length h
  rw [List.length_drop, List.length_append] at hlength
  have hrange' : source.InRange (cursor + u.length) := ⟨by omega, by omega⟩
  refine ⟨hrange', ?_⟩
  unfold sliceFrom
  rw [position_of_mem hrange'.1 hrange'.2, Int.toNat_add h0 (Int.natCast_nonneg _),
    Int.toNat_natCast, ← List.drop_drop, h, List.drop_left]

theorem sliceFrom_eq_cons {c : Char} {rest : Text} (hrange : source.InRange cursor)
    (h : source.sliceFrom cursor = c :: rest) :
    source.InRange (cursor + 1) ∧ source.sliceFrom (cursor + 1) = rest :=
  sliceFrom_of_append (u := [c]) hrange h

/-- A beginning of two texts in turn is one of the first, or the first with a beginning of the
    second. -/
theorem prefix_append_cases {t u v : Text} (h : t <+: u ++ v) :
    t <+: u ∨ ∃ w, t = u ++ w ∧ w <+: v := by
  obtain ⟨rest, h⟩ := h
  rcases List.append_eq_append_iff.1 h with ⟨w, rfl, -⟩ | ⟨w, rfl, rfl⟩
  · exact Or.inl (List.prefix_append t w)
  · exact Or.inr ⟨w, rfl, List.prefix_append w rest⟩

end Text

namespace Feed

variable {source : Text} {cursor : Int} {token : Text} {length : Option Int}

/-- A token is accepted if there are so many characters of it, and the text goes on with them. -/
theorem accepts_iff (h : source.InRange cursor) :
    accepts ⟨source, cursor⟩ token length = true ↔
      0 ≤ tokenLength token length ∧ tokenLength token length ≤ token.length ∧
        token.take (tokenLength token length).toNat <+: source.sliceFrom cursor := by
  unfold accepts
  simp only [Bool.and_eq_true, beq_iff_eq]
  generalize tokenLength token length = size
  constructor
  · rintro ⟨hlength, hsegment⟩
    have hsize : 0 ≤ size := by omega
    rw [Text.slice_window h hsize] at hlength hsegment
    rw [Text.slice_zero token hsize] at hsegment
    have htake := congrArg List.length hsegment
    rw [List.length_take (l := token)] at htake
    refine ⟨hsize, by omega, ?_⟩
    rw [← hsegment]
    exact List.take_prefix _ _
  · rintro ⟨hsize, htoken, hbegins⟩
    have htake : (token.take size.toNat).length = size.toNat := by
      rw [List.length_take]
      omega
    rw [Text.slice_window h hsize, Text.slice_zero token hsize]
    have heq := List.prefix_iff_eq_take.1 hbegins
    rw [htake] at heq
    rw [← heq, htake]
    exact ⟨by omega, rfl⟩

/-- One character is accepted if it is the next one. -/
theorem accepts_one_iff (h : source.InRange cursor) :
    accepts ⟨source, cursor⟩ token (some 1) = true ↔
      ∃ c, token.head? = some c ∧ (source.sliceFrom cursor).head? = some c := by
  rw [accepts_iff h]
  show 0 ≤ (1 : Int) ∧ (1 : Int) ≤ token.length ∧ token.take 1 <+: source.sliceFrom cursor ↔ _
  cases token with
  | nil => simp
  | cons c rest =>
    cases source.sliceFrom cursor with
    | nil => simp
    | cons d others =>
      show 0 ≤ (1 : Int) ∧ (1 : Int) ≤ (c :: rest).length ∧ [c] <+: d :: others ↔
        ∃ c', some c = some c' ∧ some d = some c'
      constructor
      · rintro ⟨-, -, hbegins⟩
        obtain ⟨rfl, -⟩ := List.cons_prefix_cons.1 hbegins
        exact ⟨c, rfl, rfl⟩
      · rintro ⟨_, ⟨⟩, ⟨⟩⟩
        rw [List.length_cons]
        exact ⟨by decide, by omega, List.prefix_append [c] others⟩

/-- A whole token is accepted if the text goes on with it. -/
theorem accepts_whole_iff (h : source.InRange cursor) :
    accepts ⟨source, cursor⟩ token (some token.length) = true ↔
      token <+: source.sliceFrom cursor := by
  rw [accepts_iff h]
  show 0 ≤ (token.length : Int) ∧ (token.length : Int) ≤ token.length ∧
    token.take (token.length : Int).toNat <+: source.sliceFrom cursor ↔ _
  simp

/-- What is accepted does not reach beyond the end of the text. -/
theorem accepts_le_length (h : source.InRange cursor)
    (haccepts : accepts ⟨source, cursor⟩ token length = true) :
    0 ≤ tokenLength token length ∧ cursor + tokenLength token length ≤ source.length := by
  obtain ⟨hsize, htoken, hbegins⟩ := (accepts_iff h).1 haccepts
  have hle := hbegins.length_le
  rw [List.length_take, Text.length_sliceFrom, Text.position_of_mem h.1 h.2] at hle
  have := h.1
  have := h.2
  omega

/-! ## Looking ahead and consuming

A window and a length cut the text in different ways: a negative window counts from the end of the
text, and a negative length is that of no token. Still what is seen can be consumed. -/

/-- Whatever the window, it shows how the text goes on at the cursor. -/
theorem lookahead_prefix (feed : Feed) (window : Option Int) :
    feed.lookahead window <+: feed.lookahead none := by
  cases window with
  | none => exact List.prefix_rfl
  | some window => exact List.take_prefix _ _

theorem consume_eq_true_iff {feed : Feed} :
    (feed.consume token length).1 = true ↔ feed.accepts token length = true := by
  unfold consume
  by_cases haccepts : feed.accepts token length = true <;> simp [haccepts]

/-- The cursor is moved by the length of what is compared, if the token is accepted. -/
theorem consume_snd (feed : Feed) (token : Text) (length : Option Int) :
    (feed.consume token length).2
      = { feed with
          cursor := if (feed.consume token length).1 then feed.cursor + tokenLength token length
            else feed.cursor } := by
  unfold consume
  by_cases haccepts : feed.accepts token length = true <;> simp [haccepts]

/-- A token that is seen at the cursor is consumed. -/
theorem consume_of_prefix (h : source.InRange cursor)
    (hseen : token <+: lookahead ⟨source, cursor⟩ none) :
    consume ⟨source, cursor⟩ token none = (true, ⟨source, cursor + token.length⟩) :=
  if_pos ((accepts_whole_iff h).2 hseen)

/-- Inside the text, consuming agrees with looking ahead. A token is consumed if the length, which
    is that of the token if none is given, is the length of a first part of the token, and this part
    is seen at the cursor; then the cursor is moved by the length, and otherwise it stays. And
    whatever the window is, what it shows is how the text goes on, and so it is consumed if it is
    asked for next, and the cursor is moved past it. -/
theorem consume_agrees_lookahead (h : source.InRange cursor) :
    let feed : Feed := ⟨source, cursor⟩
    (∀ token length,
      let size := tokenLength token length
      ((feed.consume token length).1 = true ↔
        0 ≤ size ∧ size ≤ token.length ∧ token.slice 0 size <+: feed.lookahead none) ∧
      (feed.consume token length).2
        = ⟨source, if (feed.consume token length).1 then cursor + size else cursor⟩) ∧
    ∀ window, feed.lookahead window <+: feed.lookahead none ∧
      feed.consume (feed.lookahead window) none
        = (true, ⟨source, cursor + (feed.lookahead window).length⟩) := by
  intro feed
  refine ⟨fun token length => ⟨?_, consume_snd feed token length⟩, fun window => ?_⟩
  · rw [consume_eq_true_iff, accepts_iff h]
    -- short of a negative length, the part that is compared is taken from the front
    refine and_congr_right fun hsize => ?_
    rw [Text.slice_zero token hsize]
    exact Iff.rfl
  · have hseen := feed.lookahead_prefix window
    exact ⟨hseen, consume_of_prefix h hseen⟩

/-- The window is negative and ends before the last two characters; of the token only the first two
    characters are compared. -/
theorem consume_agrees_lookahead_negative :
    let source : Text := ['a', 'b', 'c', 'a', 'b']
    let feed : Feed := ⟨source, 1⟩
    source.InRange 1 ∧ feed.lookahead (some (-3)) = ['b', 'c'] ∧
      feed.consume ['b', 'c'] none = (true, ⟨source, 3⟩) ∧
      (feed.consume ['b', 'c', 'x'] (some 2)).1 = true ∧
      (feed.consume ['b', 'c', 'x'] (some (-1))).1 ≠ true := by
  intro source feed
  have hrange : source.InRange 1 := ⟨by decide, by decide⟩
  have hshown : feed.lookahead (some (-3)) = ['b', 'c'] := by decide
  obtain ⟨hconsume, hlookahead⟩ := consume_agrees_lookahead hrange
  have hseen := (hlookahead (some (-3))).2
  rw [hshown] at hseen
  refine ⟨hrange, hshown, hseen, (hconsume _ _).1.2 ?_, fun haccepted => ?_⟩
  · decide
  · exact absurd ((hconsume _ _).1.1 haccepted).1 (by decide)

/-! ## How much a window shows

A window reaches from the cursor as far as it is wide. One that is negative reaches back, and as
long as it does not reach beyond the beginning of the text it shows nothing. Beyond that its end is
counted from the end of the text, and if that is behind the cursor, then it shows what is
between. -/

/-- The window bounds what is read: at most so many characters are shown, and none if it is
    negative, and when they are consumed, the cursor is moved by the width of the window or, if
    less remain, to the end of the text. -/
structure WindowBounds (feed : Feed) (window : Int) : Prop where
  shown : (feed.lookahead (some window)).length ≤ max window 0
  consumed : feed.consume (feed.lookahead (some window)) none
    = (true, { feed with cursor := feed.cursor + min (max window 0) feed.remaining })

theorem length_lookahead_window (h : source.InRange cursor) (window : Int) :
    ((lookahead ⟨source, cursor⟩ (some window)).length : Int)
      = if 0 ≤ cursor + window then min (max window 0) (remaining ⟨source, cursor⟩)
        else max (source.length + window) 0 := by
  obtain ⟨h0, hn⟩ := h
  show ((source.slice cursor (cursor + window)).length : Int)
    = if 0 ≤ cursor + window then min (max window 0) (source.length - cursor)
      else max (source.length + window) 0
  rw [Text.length_slice, Text.position_of_mem h0 hn]
  unfold Text.position
  by_cases hback : 0 ≤ cursor + window
  · rw [if_pos hback, if_neg (Int.not_lt.2 hback)]
    omega
  · rw [if_neg hback, if_pos (Int.not_le.1 hback)]
    omega

/-- Inside the text, a window bounds what is read unless it is negative, reaches back beyond the
    beginning of the text, and is still less wide than the text is long; such a window shows
    characters although it should show none. In any case what is shown is consumed, and the cursor
    is moved past it. -/
theorem windowBounds_iff (h : source.InRange cursor) (window : Int) :
    let feed : Feed := ⟨source, cursor⟩
    let shown := feed.lookahead (some window)
    (feed.WindowBounds window ↔ 0 ≤ cursor + window ∨ source.length + window ≤ 0) ∧
    (shown.length : Int) = (if 0 ≤ cursor + window then min (max window 0) feed.remaining
      else max (source.length + window) 0) ∧
    feed.consume shown none = (true, ⟨source, cursor + shown.length⟩) := by
  intro feed shown
  have hlength : (shown.length : Int) = _ := length_lookahead_window h window
  have hconsumed : feed.consume shown none = (true, ⟨source, cursor + shown.length⟩) :=
    consume_of_prefix h (feed.lookahead_prefix (some window))
  refine ⟨⟨?_, ?_⟩, hlength, hconsumed⟩
  · intro hbounds
    have hshown : (shown.length : Int) ≤ max window 0 := hbounds.shown
    by_cases hback : 0 ≤ cursor + window
    · exact Or.inl hback
    · rw [if_neg hback] at hlength
      have hstart : 0 ≤ cursor := h.1
      exact Or.inr (by omega)
  · intro hwindow
    have hexact : (shown.length : Int) = min (max window 0) feed.remaining := by
      rw [hlength]
      by_cases hback : 0 ≤ cursor + window
      · rw [if_pos hback]
      · have hremaining : 0 ≤ feed.remaining := Int.sub_nonneg_of_le h.2
        have hstart : 0 ≤ cursor := h.1
        rw [if_neg hback]
        omega
    refine ⟨?_, ?_⟩
    · show (shown.length : Int) ≤ max window 0
      omega
    · show feed.consume shown none = _
      rw [hconsumed, hexact]

/-- The first window reaches back to the beginning of the text and bounds what is read; the second
    reaches one place further, and ends two places before the end of the text. -/
theorem windowBounds_iff_negative :
    let source : Text := ['a', 'b', 'c', 'd', 'e']
    let feed : Feed := ⟨source, 1⟩
    source.InRange 1 ∧ feed.WindowBounds (-1) ∧ feed.WindowBounds 9 ∧
      ¬feed.WindowBounds (-3) ∧ feed.consume ['b', 'c'] none = (true, ⟨source, 3⟩) := by
  intro source feed
  have hrange : source.InRange 1 := ⟨by decide, by decide⟩
  have hshown : feed.lookahead (some (-3)) = ['b', 'c'] := by decide
  obtain ⟨hbounds, -, hconsumed⟩ := windowBounds_iff hrange (-3)
  rw [hshown] at hconsumed
  refine ⟨hrange, (windowBounds_iff hrange (-1)).1.2 (by decide),
    (windowBounds_iff hrange 9).1.2 (by decide), mt hbounds.1 (by decide), hconsumed⟩

/-- At the beginning of the text a window of minus one shows all characters but the last. -/
theorem not_windowBounds_minus_one :
    let feed : Feed := ⟨['a', 'b', 'c', 'd', 'e'], 0⟩
    feed.lookahead (some (-1)) = ['a', 'b', 'c', 'd'] ∧ ¬feed.WindowBounds (-1) := by
  intro feed
  have hshown : feed.lookahead (some (-1)) = ['a', 'b', 'c', 'd'] := by decide
  refine ⟨hshown, fun hbounds => ?_⟩
  have hlength := hbounds.shown
  rw [hshown] at hlength
  exact absurd hlength (by decide)

end Feed

end CursorGrammar
