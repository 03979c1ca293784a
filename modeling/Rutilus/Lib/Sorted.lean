import Mathlib.Data.List.Dedup
import Mathlib.Data.List.Sort
import Mathlib.Data.List.TakeWhile
import Mathlib.Order.Basic
import Rutilus.Lib.Listing

/-!
# Sorted lists without duplicates

A set kept as a list in strictly rising order of a key. A search gives the place
of a key, or the place where it would go; putting an entry there and taking one
out keep the order, and a list that is sorted first and then freed of duplicates
has it.
-/

namespace Rutilus.Lib

variable {α κ : Type} [LinearOrder κ] {key : α → κ} {l : List α} {k : κ}
  {x y : α} {i : Nat}

/-- In strictly rising order of the key. -/
def Rising (key : α → κ) (l : List α) : Prop := l.Pairwise fun a b => key a < key b

/-- The place of a key, or the place where it would go. -/
def binarySearch (key : α → κ) (l : List α) (k : κ) : Except Nat Nat :=
  let position := (l.takeWhile fun x => key x < k).length
  match l[position]? with
  | some x => if key x = k then .ok position else .error position
  | none => .error position

theorem getElem?_takeWhile_length (p : α → Bool) :
    l[(l.takeWhile p).length]? = (l.dropWhile p).head? := by
  induction l with
  | nil => rfl
  | cons x l ih =>
      rw [List.takeWhile_cons, List.dropWhile_cons]
      split
      · rw [List.length_cons, List.getElem?_cons_succ, ih]
      · rfl

theorem insertIdx_append_length {front back : List α} :
    (front ++ back).insertIdx front.length x = front ++ x :: back := by
  induction front with
  | nil => rfl
  | cons y front ih =>
      rw [List.cons_append, List.length_cons, List.insertIdx_succ_cons, ih]
      rfl

theorem binarySearch_ok (h : binarySearch key l k = .ok i) :
    ∃ x, l[i]? = some x ∧ key x = k := by
  unfold binarySearch at h
  dsimp only at h
  split at h
  · next x hx =>
      split at h
      · next hk =>
          cases h
          exact ⟨x, hx, hk⟩
      · cases h
  · cases h

/-- A search that fails cuts the list in two. -/
theorem binarySearch_error (hl : Rising key l)
    (h : binarySearch key l k = .error i) :
    ∃ front back, l = front ++ back ∧ i = front.length ∧
      (∀ x ∈ front, key x < k) ∧ ∀ x ∈ back, k < key x := by
  have hcut : l.takeWhile (fun x => key x < k) ++
      l.dropWhile (fun x => key x < k) = l := List.takeWhile_append_dropWhile
  have hfront : ∀ x ∈ l.takeWhile (fun x => key x < k), key x < k :=
    fun x hx => by simpa using List.mem_takeWhile_imp hx
  refine ⟨_, _, hcut.symm, ?_, hfront, ?_⟩
  · unfold binarySearch at h
    dsimp only at h
    split at h
    · split at h <;> cases h
      rfl
    · cases h
      rfl
  · have hback : Rising key (l.dropWhile fun x => key x < k) :=
      List.Pairwise.sublist (List.dropWhile_sublist _) hl
    have hhead := getElem?_takeWhile_length (l := l) fun x => key x < k
    unfold binarySearch at h
    dsimp only at h
    rw [hhead] at h
    cases hdrop : l.dropWhile fun x => key x < k with
    | nil => exact fun x hx => absurd hx List.not_mem_nil
    | cons y back =>
        rw [hdrop, List.head?_cons] at h
        rw [hdrop] at hback
        have hnot : ¬ key y < k := by
          have := List.head?_dropWhile_not (fun x => decide (key x < k)) l
          simpa only [hdrop, List.head?_cons, decide_eq_false_iff_not] using this
        have hne : key y ≠ k := by
          intro hk
          simp only [if_pos hk] at h
          cases h
        have hy : k < key y := lt_of_le_of_ne (not_lt.mp hnot) (Ne.symm hne)
        intro x hx
        rcases List.mem_cons.mp hx with rfl | hx
        · exact hy
        · exact lt_trans hy (List.rel_of_pairwise_cons hback hx)

section Edit

variable (hl : Rising key l)
include hl

/-- An entry put where its key would go. -/
theorem rising_insertIdx (h : binarySearch key l (key x) = .error i) :
    Rising key (l.insertIdx i x) := by
  obtain ⟨front, back, rfl, rfl, hfront, hback⟩ := binarySearch_error hl h
  rw [insertIdx_append_length]
  have hparts := List.pairwise_append.mp hl
  refine List.pairwise_append.mpr ⟨hparts.1,
    List.pairwise_cons.mpr ⟨hback, hparts.2.1⟩, fun a ha b hb => ?_⟩
  rcases List.mem_cons.mp hb with rfl | hb
  · exact hfront a ha
  · exact hparts.2.2 a ha b hb

theorem mem_insertIdx_search (h : binarySearch key l k = .error i) :
    y ∈ l.insertIdx i x ↔ y = x ∨ y ∈ l := by
  obtain ⟨front, back, rfl, rfl, -, -⟩ := binarySearch_error hl h
  rw [insertIdx_append_length, List.mem_append, List.mem_cons, List.mem_append]
  exact or_left_comm

/-- A key that is not found is not there. -/
theorem ne_of_binarySearch_error (h : binarySearch key l k = .error i) :
    ∀ x ∈ l, key x ≠ k := by
  obtain ⟨front, back, rfl, rfl, hfront, hback⟩ := binarySearch_error hl h
  intro x hx
  rcases List.mem_append.mp hx with hx | hx
  · exact ne_of_lt (hfront x hx)
  · exact Ne.symm (ne_of_lt (hback x hx))

theorem rising_eraseIdx : Rising key (l.eraseIdx i) :=
  List.Pairwise.sublist (List.eraseIdx_sublist l i) hl

theorem nodup_of_rising : (l.map key).Nodup :=
  List.pairwise_map.mpr (hl.imp fun h => ne_of_lt h)

/-- The entry at a place leaves, and nothing else. -/
theorem mem_eraseIdx_rising (hx : l[i]? = some x) :
    y ∈ l.eraseIdx i ↔ y ∈ l ∧ key y ≠ key x :=
  mem_eraseIdx_of_nodup (nodup_of_rising hl) hx

end Edit

/-! ## Maps -/

/-- An entry put into a map: it takes the place of the entry with its key. -/
def upsert (key : α → κ) (x : α) (l : List α) : List α :=
  match binarySearch key l (key x) with
  | .ok i => l.set i x
  | .error i => l.insertIdx i x

theorem rising_upsert (hl : Rising key l) : Rising key (upsert key x l) := by
  unfold upsert
  split
  · next i hfound =>
      obtain ⟨y, hy, hkey⟩ := binarySearch_ok hfound
      obtain ⟨hi, rfl⟩ := List.getElem?_eq_some_iff.mp hy
      have hmap : (l.set i x).map key = l.map key := by
        rw [List.map_set, ← hkey, ← List.getElem_map key (h := by simpa using hi)]
        exact List.set_getElem_self _
      have hkeys : (l.map key).Pairwise (· < ·) := List.pairwise_map.mpr hl
      rw [← hmap] at hkeys
      exact List.pairwise_map.mp hkeys
  · next i hnone => exact rising_insertIdx hl hnone

/-- An entry above the others comes last. -/
theorem upsert_last (h : ∀ y ∈ l, key y < key x) : upsert key x l = l ++ [x] := by
  have htake : l.takeWhile (fun y => key y < key x) = l :=
    List.takeWhile_eq_self_iff.mpr fun y hy => decide_eq_true (h y hy)
  have hsearch : binarySearch key l (key x) = .error l.length := by
    unfold binarySearch
    simp [htake]
  unfold upsert
  rw [hsearch]
  exact List.insertIdx_length_self

/-! ## Sorting -/

section Canonical

/-- Sort, then take out the duplicates. -/
def canonical [DecidableEq α] (key : α → κ) (l : List α) : List α :=
  (l.insertionSort fun a b => key a ≤ key b).dedup

theorem mem_canonical [DecidableEq α] : x ∈ canonical key l ↔ x ∈ l := by
  rw [canonical, List.mem_dedup, List.mem_insertionSort]

theorem pairwise_insertionSort_key (key : α → κ) (l : List α) :
    (l.insertionSort fun a b => key a ≤ key b).Pairwise
      fun a b => key a ≤ key b := by
  have : Std.Total fun a b : α => key a ≤ key b := ⟨fun a b => le_total _ _⟩
  have : IsTrans α fun a b => key a ≤ key b := ⟨fun _ _ _ => le_trans⟩
  exact List.pairwise_insertionSort _ l

theorem rising_canonical [DecidableEq α] (hkey : Function.Injective key) :
    Rising key (canonical key l) := by
  have hle := pairwise_insertionSort_key key l
  have hboth := (hle.sublist (List.dedup_sublist _)).and (List.nodup_dedup _)
  exact hboth.imp fun h => lt_of_le_of_ne h.1 fun heq => h.2 (hkey heq)

end Canonical

/-- A list is determined by what is in it. -/
theorem Rising.ext {l' : List α} (hl : Rising key l) (hl' : Rising key l')
    (h : ∀ x, x ∈ l ↔ x ∈ l') : l = l' := by
  have : Std.Irrefl fun a b : α => key a < key b := ⟨fun _ => lt_irrefl _⟩
  have : Std.Antisymm fun a b : α => key a < key b :=
    ⟨fun _ _ h h' => absurd h' (lt_asymm h)⟩
  exact List.Pairwise.eq_of_mem_iff hl hl' h

/-! ## The greatest entries -/

section Greatest

variable {ι : Type} [LinearOrder ι] {A B : List ι} {n : Nat}

/-- What is above everything before it comes first. -/
theorem insertionSort_append_of_lt (h : ∀ x ∈ A, ∀ y ∈ B, x < y) :
    (A ++ B).insertionSort (· ≥ ·) =
      B.insertionSort (· ≥ ·) ++ A.insertionSort (· ≥ ·) := by
  refine List.Perm.eq_of_pairwise
    (fun a b _ _ hab hba => le_antisymm hba hab) (List.pairwise_insertionSort _ _)
    (List.pairwise_append.mpr ⟨List.pairwise_insertionSort _ _,
      List.pairwise_insertionSort _ _, ?_⟩) ?_
  · intro y hy x hx
    exact le_of_lt (h x ((List.mem_insertionSort _).mp hx) y
      ((List.mem_insertionSort _).mp hy))
  · exact (List.perm_insertionSort _ _).trans (List.perm_append_comm.trans
      ((List.perm_insertionSort _ B).symm.append (List.perm_insertionSort _ A).symm))

/-- The last entries are the greatest ones exactly where they are above those before. -/
theorem mem_greatest_iff (hnodup : (A ++ B).Nodup) (hle : B.length ≤ n)
    (hall : A = [] ∨ B.length = n) :
    (∀ x, x ∈ ((A ++ B).insertionSort (· ≥ ·)).take n ↔ x ∈ B) ↔
      ∀ x ∈ A, ∀ y ∈ B, x < y := by
  constructor
  · intro h x hx y hy
    have hpair := List.pairwise_insertionSort (· ≥ ·) (A ++ B)
    rw [← List.take_append_drop n ((A ++ B).insertionSort (· ≥ ·)),
      List.pairwise_append] at hpair
    have hne : ∀ z ∈ B, x ≠ z := (List.nodup_append.mp hnodup).2.2 x hx
    have hmem : x ∈ (A ++ B).insertionSort (· ≥ ·) :=
      (List.mem_insertionSort _).mpr (List.mem_append_left _ hx)
    rw [← List.take_append_drop n ((A ++ B).insertionSort (· ≥ ·)),
      List.mem_append] at hmem
    have hdrop : x ∈ ((A ++ B).insertionSort (· ≥ ·)).drop n :=
      hmem.resolve_left fun htake => hne x ((h x).mp htake) rfl
    exact lt_of_le_of_ne (hpair.2.2 y ((h y).mpr hy) x hdrop) (hne y hy)
  · intro h x
    have htake : ((A ++ B).insertionSort (· ≥ ·)).take n = B.insertionSort (· ≥ ·) := by
      rw [insertionSort_append_of_lt h]
      obtain rfl | hlength := hall
      · rw [List.insertionSort_nil, List.append_nil]
        exact List.take_of_length_le (by rwa [List.length_insertionSort])
      · exact List.take_left' (by rw [List.length_insertionSort, hlength])
    rw [htake, List.mem_insertionSort]

end Greatest

end Rutilus.Lib
