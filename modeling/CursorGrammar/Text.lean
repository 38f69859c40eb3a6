set_option autoImplicit false

/-! # Text

A text is a list of characters, and every offset and length counts characters. Offsets are
integers of any size: a negative one counts from the end of the text, and one that lies outside
the text stands for the nearer end. -/

namespace CursorGrammar

/-- A text, character by character. -/
abbrev Text := List Char

namespace Text

/-- The position that the offset `i` names in a text of length `n`: a negative offset has the
    length added once, and then it is clamped to `0 … n`. -/
def position (n : Nat) (i : Int) : Nat :=
  if i < 0 then (i + n).toNat else min i.toNat n

/-- The characters from offset `i` up to, and without, offset `j`; none if `i` names a position
    at or after that of `j`. -/
def slice (t : Text) (i j : Int) : Text :=
  let start := position t.length i
  (t.drop start).take (position t.length j - start)

/-- The characters from offset `i` to the end. -/
def sliceFrom (t : Text) (i : Int) : Text :=
  t.drop (position t.length i)

/-! ## Positions -/

theorem position_le (n : Nat) (i : Int) : position n i ≤ n := by
  unfold position
  split
  next h => omega
  next h => omega

theorem position_of_mem {n : Nat} {i : Int} (h0 : 0 ≤ i) (hn : i ≤ n) :
    position n i = i.toNat := by
  unfold position
  split
  next h => omega
  next h => omega

theorem position_of_ge {n : Nat} {i : Int} (h : (n : Int) ≤ i) : position n i = n := by
  unfold position
  split
  next hneg => omega
  next hneg => omega

theorem position_mono {n : Nat} {i j : Int} (h0 : 0 ≤ i) (h : i ≤ j) :
    position n i ≤ position n j := by
  unfold position
  rw [if_neg (by omega), if_neg (by omega)]
  omega

/-! ## Slices -/

theorem length_slice (t : Text) (i j : Int) :
    (t.slice i j).length = position t.length j - position t.length i := by
  have := position_le t.length j
  simp only [slice, List.length_take, List.length_drop]
  omega

theorem length_sliceFrom (t : Text) (i : Int) :
    (t.sliceFrom i).length = t.length - position t.length i := by
  simp only [sliceFrom, List.length_drop]

theorem sliceFrom_natCast {t : Text} {k : Nat} (h : k ≤ t.length) : t.sliceFrom k = t.drop k := by
  unfold sliceFrom
  rw [position_of_mem (by omega) (by omega), Int.toNat_natCast]

@[simp]
theorem slice_self (t : Text) (i : Int) : t.slice i i = [] := by
  simp [slice]

/-- A slice is the two slices that any offset between its ends cuts it into. -/
theorem slice_append_slice (t : Text) {i j l : Int} (hi : 0 ≤ i) (hij : i ≤ j) (hjl : j ≤ l) :
    t.slice i j ++ t.slice j l = t.slice i l := by
  have hij' : position t.length i ≤ position t.length j := position_mono hi hij
  have hjl' : position t.length j ≤ position t.length l := position_mono (by omega) hjl
  have hsize : position t.length l - position t.length i
      = (position t.length j - position t.length i)
        + (position t.length l - position t.length j) := by
    omega
  simp only [slice]
  rw [hsize, List.take_add, List.drop_drop, Nat.add_sub_cancel' hij']

/-- The characters from an offset on are those from there up to the end of the text. -/
theorem sliceFrom_eq_slice (t : Text) (i : Int) : t.sliceFrom i = t.slice i t.length := by
  have hend : position t.length t.length = t.length := position_of_ge (Int.le_refl _)
  simp only [slice, sliceFrom, hend]
  rw [List.take_of_length_le (Nat.le_of_eq (List.length_drop ..))]

end Text

end CursorGrammar
