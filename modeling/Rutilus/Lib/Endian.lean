import Mathlib.Algebra.Order.Monoid.Unbundled.Basic
import Mathlib.Data.List.Basic
import Mathlib.Tactic.Ring

/-!
# Numbers in bytes

A number in a fixed count of bytes, the most significant one first, and the frames
that such a number cuts out of a byte string: the length of the payload, then the
payload.
-/

namespace Rutilus.Lib

variable {width n : Nat} {payload payload' rest rest' : List UInt8}

/-! ## Fixed width -/

/-- The number some bytes stand for. -/
def bigEndian (bytes : List UInt8) : Nat :=
  bytes.foldl (fun n byte => n * 256 + byte.toNat) 0

/-- The lowest `width` bytes of a number. -/
def toBigEndian : Nat → Nat → List UInt8
  | 0, _ => []
  | width + 1, n => UInt8.ofNat (n / 256 ^ width) :: toBigEndian width n

@[simp]
theorem length_toBigEndian : (toBigEndian width n).length = width := by
  induction width with
  | zero => rfl
  | succ width ih => rw [toBigEndian, List.length_cons, ih]

theorem foldl_bigEndian (bytes : List UInt8) (m : Nat) :
    bytes.foldl (fun n byte => n * 256 + byte.toNat) m =
      m * 256 ^ bytes.length + bigEndian bytes := by
  unfold bigEndian
  induction bytes generalizing m with
  | nil => simp
  | cons b bytes ih =>
      rw [List.foldl_cons, List.foldl_cons, ih, ih (0 * 256 + b.toNat),
        List.length_cons, pow_succ]
      ring

theorem bigEndian_cons (b : UInt8) (bytes : List UInt8) :
    bigEndian (b :: bytes) = b.toNat * 256 ^ bytes.length + bigEndian bytes := by
  rw [bigEndian, List.foldl_cons, foldl_bigEndian, Nat.zero_mul, Nat.zero_add]

theorem bigEndian_lt (bytes : List UInt8) : bigEndian bytes < 256 ^ bytes.length := by
  induction bytes with
  | nil => exact Nat.one_pos
  | cons b bytes ih =>
      have hb : b.toNat + 1 ≤ 256 := UInt8.toNat_lt b
      have hmul := Nat.mul_le_mul_right (256 ^ bytes.length) hb
      rw [bigEndian_cons, List.length_cons, pow_succ]
      rw [Nat.add_mul, Nat.one_mul] at hmul
      omega

theorem bigEndian_toBigEndian_mod (width n : Nat) :
    bigEndian (toBigEndian width n) = n % 256 ^ width := by
  induction width with
  | zero => rw [pow_zero, Nat.mod_one]; rfl
  | succ width ih =>
      have hbyte : (UInt8.ofNat (n / 256 ^ width)).toNat = n / 256 ^ width % 256 :=
        UInt8.toNat_ofNat'
      rw [toBigEndian, bigEndian_cons, length_toBigEndian, ih, hbyte, pow_succ,
        Nat.mod_mul, Nat.add_comm, Nat.mul_comm]

/-- A number is read back from its bytes. -/
theorem bigEndian_toBigEndian (h : n < 256 ^ width) :
    bigEndian (toBigEndian width n) = n := by
  rw [bigEndian_toBigEndian_mod, Nat.mod_eq_of_lt h]

theorem toBigEndian_add (width m n : Nat) :
    toBigEndian width (m * 256 ^ width + n) = toBigEndian width n := by
  induction width generalizing m with
  | zero => rfl
  | succ width ih =>
      have hsplit : m * 256 ^ (width + 1) + n = m * 256 * 256 ^ width + n := by
        rw [pow_succ]
        ring
      rw [toBigEndian, toBigEndian, hsplit, ih]
      congr 1
      rw [← UInt8.toNat_inj, UInt8.toNat_ofNat', UInt8.toNat_ofNat', Nat.add_comm,
        Nat.add_mul_div_right _ _ (Nat.pow_pos (by decide))]
      exact Nat.add_mul_mod_self_right _ _ 256

/-- Bytes are written back from their number. -/
theorem toBigEndian_bigEndian (bytes : List UInt8) :
    toBigEndian bytes.length (bigEndian bytes) = bytes := by
  induction bytes with
  | nil => rfl
  | cons b bytes ih =>
      rw [List.length_cons, toBigEndian, bigEndian_cons, toBigEndian_add, ih]
      congr 1
      rw [Nat.add_comm, Nat.add_mul_div_right _ _ (Nat.pow_pos (by decide)),
        Nat.div_eq_of_lt (bigEndian_lt bytes), Nat.zero_add, UInt8.ofNat_toNat]

/-- The bytes of two numbers of the width differ. -/
theorem toBigEndian_inj {m : Nat} (hm : m < 256 ^ width) (hn : n < 256 ^ width)
    (h : toBigEndian width m = toBigEndian width n) : m = n := by
  rw [← bigEndian_toBigEndian hm, ← bigEndian_toBigEndian hn, h]

/-! ## Frames -/

/-- A payload behind its length. -/
def framed (width : Nat) (payload : List UInt8) : List UInt8 :=
  toBigEndian width payload.length ++ payload

/-- A frame at the start of a byte string ends where its length says. -/
theorem framed_append_inj (hp : payload.length < 256 ^ width)
    (hp' : payload'.length < 256 ^ width)
    (h : framed width payload ++ rest = framed width payload' ++ rest') :
    payload = payload' ∧ rest = rest' := by
  unfold framed at h
  rw [List.append_assoc, List.append_assoc] at h
  obtain ⟨hhead, htail⟩ := List.append_inj h (by simp)
  exact List.append_inj htail (toBigEndian_inj hp hp' hhead)

/-- How the length fields cut a byte string into frames. -/
inductive Cut (width : Nat) : List UInt8 → List (List UInt8) → Prop where
  | nil : Cut width [] []
  | cons {payload rest : List UInt8} {frames : List (List UInt8)}
      (hlength : payload.length < 256 ^ width) (hrest : Cut width rest frames) :
      Cut width (framed width payload ++ rest) (framed width payload :: frames)

/-- A byte string is cut in one way at most. -/
theorem Cut.unique {bytes : List UInt8} {frames frames' : List (List UInt8)}
    (hwidth : width ≠ 0) (h : Cut width bytes frames) (h' : Cut width bytes frames') :
    frames = frames' := by
  have hne : ∀ {payload rest : List UInt8}, framed width payload ++ rest ≠ [] := by
    intro payload rest hnil
    have hlen := congrArg List.length hnil
    simp [framed] at hlen
    omega
  induction h generalizing frames' with
  | nil =>
      generalize hbytes : ([] : List UInt8) = bytes at h'
      cases h' with
      | nil => rfl
      | cons _ _ => exact absurd hbytes.symm hne
  | @cons payload rest frames hlength _ ih =>
      generalize hbytes : framed width payload ++ rest = bytes at h'
      cases h' with
      | nil => exact absurd hbytes hne
      | cons hlength' hrest' =>
          obtain ⟨rfl, rfl⟩ := framed_append_inj hlength hlength' hbytes
          rw [ih hrest']

/-- Frames put one after the other are cut back into the same frames. -/
theorem cut_flatten {frames : List (List UInt8)}
    (h : ∀ frame ∈ frames, ∃ payload, payload.length < 256 ^ width ∧
      frame = framed width payload) :
    Cut width frames.flatten frames := by
  induction frames with
  | nil => exact .nil
  | cons frame frames ih =>
      obtain ⟨payload, hlength, rfl⟩ := h frame List.mem_cons_self
      exact .cons hlength (ih fun f hf => h f (List.mem_cons_of_mem _ hf))

end Rutilus.Lib

/-!
## Slices

What lies between two positions of a list, where the positions are in order and within
it. Slices that follow one another come together as one.
-/

namespace Rutilus.Lib

variable {α : Type} {l content content' front back : List α} {i j k : Nat}

/-- The part of a list between two positions that lie in it in this order. -/
def slice (l : List α) (start stop : Nat) : Option (List α) :=
  if start ≤ stop ∧ stop ≤ l.length then some ((l.take stop).drop start) else none

theorem slice_eq_some_iff : slice l i j = some content ↔
    i ≤ j ∧ j ≤ l.length ∧ (l.take j).drop i = content := by
  unfold slice
  split
  · next h =>
      rw [Option.some.injEq]
      exact ⟨fun heq => ⟨h.1, h.2, heq⟩, fun heq => heq.2.2⟩
  · next h =>
      exact ⟨fun heq => absurd heq (by simp), fun heq => absurd ⟨heq.1, heq.2.1⟩ h⟩

theorem exists_slice (hij : i ≤ j) (hj : j ≤ l.length) :
    ∃ content, slice l i j = some content :=
  ⟨_, slice_eq_some_iff.mpr ⟨hij, hj, rfl⟩⟩

theorem length_of_slice (h : slice l i j = some content) : content.length = j - i := by
  obtain ⟨-, hj, rfl⟩ := slice_eq_some_iff.mp h
  rw [List.length_drop, List.length_take, Nat.min_eq_left hj]

theorem slice_append : slice (front ++ content ++ back) front.length
    (front.length + content.length) = some content := by
  refine slice_eq_some_iff.mpr ⟨Nat.le_add_right _ _, ?_, ?_⟩
  · rw [List.length_append, List.length_append]
    omega
  · rw [List.take_left' List.length_append, List.drop_left]

theorem slice_of_append (front back : List α) (h : l = front ++ content ++ back)
    (hi : i = front.length) (hj : j = i + content.length) :
    slice l i j = some content := by
  subst h hi hj
  exact slice_append

theorem slice_rest :
    slice (front ++ back) front.length (front ++ back).length = some back := by
  refine slice_eq_some_iff.mpr ⟨?_, Nat.le_refl _, ?_⟩
  · rw [List.length_append]
    omega
  · rw [List.take_length, List.drop_left]

theorem slice_zero :
    slice l 0 k = if k ≤ l.length then some (l.take k) else none := by
  unfold slice
  simp

theorem slice_whole : slice l 0 l.length = some l := by
  rw [slice_zero, if_pos (Nat.le_refl _), List.take_length]

/-- Two slices that meet. -/
theorem slice_trans (h : slice l i j = some content)
    (h' : slice l j k = some content') : slice l i k = some (content ++ content') := by
  obtain ⟨hij, hj, rfl⟩ := slice_eq_some_iff.mp h
  obtain ⟨hjk, hk, rfl⟩ := slice_eq_some_iff.mp h'
  refine slice_eq_some_iff.mpr ⟨Nat.le_trans hij hjk, hk, ?_⟩
  have hsplit : l.take k = l.take j ++ (l.take k).drop j := by
    have htake : (l.take k).take j = l.take j := by
      rw [List.take_take, Nat.min_eq_left hjk]
    rw [← htake, List.take_append_drop]
  have hlength : i ≤ (l.take j).length := by
    rw [List.length_take]
    omega
  conv => lhs; rw [hsplit]
  rw [List.drop_append_of_le_length hlength]

/-- A slice does not see what is changed outside it. -/
theorem slice_set {a : α} (h : k < i ∨ j ≤ k) :
    slice (l.set k a) i j = slice l i j := by
  unfold slice
  rw [List.length_set]
  obtain h | h := h
  · rw [List.drop_take, List.drop_set_of_lt h, ← List.drop_take]
  · rw [List.take_set_of_le h]

end Rutilus.Lib
