import Mathlib.Data.List.Basic

/-!
# Overwriting a range of a list

A file as the list of its elements. A write puts a range at an offset, over what
is there and past the end if need be; a gap before it is filled. Two files
agree up to `n` when they show the same below `n`. A write of the right elements
at the right place keeps every agreement, and extends one that reaches its
offset.
-/

namespace Rutilus.Lib

variable {α : Type}

/-- The list after a write at an offset. -/
def writeAt (fill : α) (xs : List α) (offset : Nat) (data : List α) : List α :=
  xs.take offset ++ List.replicate (offset - xs.length) fill ++ data ++
    xs.drop (offset + data.length)

/-- The two lists are the same below `n`. -/
def Agree (n : Nat) (xs ys : List α) : Prop := ∀ i < n, xs[i]? = ys[i]?

variable {fill : α} {xs ys data : List α} {n m offset : Nat}

theorem length_writeAt_head :
    (xs.take offset ++ List.replicate (offset - xs.length) fill).length =
      offset := by
  rw [List.length_append, List.length_take, List.length_replicate]
  omega

/-- Below the offset, within the list, nothing changes. -/
theorem getElem?_writeAt_of_lt {i : Nat} (hi : i < offset)
    (hlen : i < xs.length) : (writeAt fill xs offset data)[i]? = xs[i]? := by
  unfold writeAt
  rw [List.append_assoc, List.append_assoc, List.getElem?_append_left]
  · rw [List.getElem?_take_of_lt hi]
  · rw [List.length_take]
    omega

/-- In the range stands what was written. -/
theorem getElem?_writeAt_of_mem {i : Nat} (hi : offset ≤ i)
    (hlt : i < offset + data.length) :
    (writeAt fill xs offset data)[i]? = data[i - offset]? := by
  unfold writeAt
  rw [List.append_assoc, List.getElem?_append_right, length_writeAt_head,
    List.getElem?_append_left]
  · omega
  · rw [length_writeAt_head]
    exact hi

/-- Past the range nothing changes. -/
theorem getElem?_writeAt_of_ge {i : Nat} (hi : offset + data.length ≤ i) :
    (writeAt fill xs offset data)[i]? = xs[i]? := by
  unfold writeAt
  rw [List.getElem?_append_right, List.getElem?_drop, List.length_append,
    length_writeAt_head]
  · congr 1
    omega
  · rw [List.length_append, length_writeAt_head]
    exact hi

theorem length_writeAt :
    (writeAt fill xs offset data).length =
      max xs.length (offset + data.length) := by
  unfold writeAt
  rw [List.length_append, List.length_append, length_writeAt_head,
    List.length_drop]
  omega

theorem agree_iff_take : Agree n xs ys ↔ xs.take n = ys.take n := by
  constructor
  · intro h
    apply List.ext_getElem?
    intro i
    by_cases hi : i < n
    · rw [List.getElem?_take_of_lt hi, List.getElem?_take_of_lt hi, h i hi]
    · rw [List.getElem?_eq_none, List.getElem?_eq_none]
      · rw [List.length_take]
        omega
      · rw [List.length_take]
        omega
  · intro h i hi
    rw [← List.getElem?_take_of_lt hi, h, List.getElem?_take_of_lt hi]

/-- An agreement within the second list is within the first. -/
theorem Agree.length_le (h : Agree n xs ys) (hn : n ≤ ys.length) :
    n ≤ xs.length := by
  rcases Nat.eq_zero_or_pos n with rfl | hpos
  · exact Nat.zero_le _
  · have hlast : xs[n - 1]? = ys[n - 1]? := h (n - 1) (by omega)
    rw [List.getElem?_eq_getElem (show n - 1 < ys.length by omega)] at hlast
    have := (List.getElem?_eq_some_iff.mp hlast).1
    omega

/-- Two lists of one length that agree up to it are equal. -/
theorem Agree.eq (h : Agree n xs ys) (hx : xs.length ≤ n)
    (hy : ys.length = n) : xs = ys := by
  have htake := agree_iff_take.mp h
  rwa [List.take_of_length_le hx, List.take_of_length_le (Nat.le_of_eq hy)] at htake

/-- Writing elements of `ys` where they stand in `ys` keeps an agreement with
it. -/
theorem Agree.writeAt (h : Agree n xs ys)
    (hdata : ∀ i < data.length, data[i]? = ys[offset + i]?)
    (hoff : offset ≤ xs.length) : Agree n (writeAt fill xs offset data) ys := by
  intro i hi
  by_cases hlt : i < offset
  · rw [getElem?_writeAt_of_lt hlt (by omega), h i hi]
  · by_cases hin : i < offset + data.length
    · rw [getElem?_writeAt_of_mem (by omega) hin, hdata _ (by omega)]
      congr 1
      omega
    · rw [getElem?_writeAt_of_ge (by omega), h i hi]

/-- An agreement that reaches the offset goes on through the written range. -/
theorem Agree.extend (h : Agree offset xs ys)
    (hdata : ∀ i < data.length, data[i]? = ys[offset + i]?)
    (hoff : offset ≤ xs.length) :
    Agree (offset + data.length) (Lib.writeAt fill xs offset data) ys := by
  intro i hi
  by_cases hlt : i < offset
  · rw [getElem?_writeAt_of_lt hlt (by omega), h i hlt]
  · rw [getElem?_writeAt_of_mem (by omega) hi, hdata _ (by omega)]
    congr 1
    omega

end Rutilus.Lib
