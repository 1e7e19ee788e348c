/-!
# ReversePolish.Text.Basic

Texts as sequences of **code points**, and cutting them by index.

Every length, position and column of the calculator counts code points, so a
text is a plain list of characters: appending, taking and dropping are the
list operations, and their library lemmas apply as they stand.

Design points:

* `slice` takes **integer** bounds. A negative bound counts from the end of the
  text and a bound beyond either end is moved to that end, so a slice exists
  for all bounds (`length_slice_le`).
-/

namespace ReversePolish

/-- A text: a sequence of code points that are characters. The halves of surrogate pairs,
U+D800 to U+DFFF, are none and do not occur. -/
abbrev Text := List Char

namespace Text

/-! ### Slices -/

/-- The index that a slice bound stands for in a text of `length` code points:
a negative bound counts from the end, and a bound beyond an end is that end. -/
def bound (length : Nat) (index : Int) : Nat :=
  if index < 0 then (index + length).toNat else min index.toNat length

theorem bound_le (length : Nat) (index : Int) : bound length index ≤ length := by
  unfold bound; split <;> omega

@[simp] theorem bound_natCast (length index : Nat) :
    bound length (index : Int) = min index length := by
  unfold bound; split <;> omega

/-- The code points of `text` from `start` up to, not including, `stop`. -/
def slice (start stop : Int) (text : Text) : Text :=
  (text.take (bound text.length stop)).drop (bound text.length start)

theorem length_slice (start stop : Int) (text : Text) :
    (slice start stop text).length =
      bound text.length stop - bound text.length start := by
  simp [slice, Nat.min_eq_left (bound_le _ _)]

theorem length_slice_le (start stop : Int) (text : Text) :
    (slice start stop text).length ≤ text.length := by
  rw [length_slice]; have := bound_le text.length stop; omega

/-- Between two indices counted from the start, a slice is what is left of the start
cut off, up to the length that the indices leave. -/
theorem slice_natCast (start stop : Nat) (text : Text) :
    slice start stop text = (text.drop start).take (stop - start) := by
  have hstop : text.take (min stop text.length) = text.take stop := List.take_eq_take_min.symm
  rw [slice, bound_natCast, bound_natCast, hstop, List.drop_take]
  rcases Nat.le_total start text.length with h | h
  · rw [Nat.min_eq_left h]
  · rw [Nat.min_eq_right h, List.drop_eq_nil_of_le h, List.drop_length, List.take_nil,
      List.take_nil]

/-- A bound beyond the end is the end. -/
theorem slice_min_length (start stop : Nat) (text : Text) :
    slice start (min text.length stop : Nat) text = slice start stop text := by
  have hstop : min (min text.length stop) text.length = min stop text.length := by omega
  rw [slice, slice, bound_natCast, bound_natCast, bound_natCast, hstop]

/-- A text is what stands before a slice, the slice, and what stands behind it. -/
theorem take_append_slice_append_drop {start stop : Nat} (h : start ≤ stop) (text : Text) :
    text.take start ++ slice start stop text ++ text.drop stop = text := by
  have hdrop : text.drop stop = (text.drop start).drop (stop - start) := by
    rw [List.drop_drop, Nat.add_sub_cancel' h]
  rw [slice_natCast, hdrop, List.append_assoc, List.take_append_drop, List.take_append_drop]

/-! ### Runs of one character -/

/-- The character `c`, `count` times over; not at all for a negative count. -/
def run (c : Char) (count : Int) : Text := List.replicate count.toNat c

@[simp] theorem length_run (c : Char) (count : Int) : (run c count).length = count.toNat := by
  simp [run]

end Text

end ReversePolish
