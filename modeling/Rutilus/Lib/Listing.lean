import Mathlib.Data.List.Forall2
import Mathlib.Data.List.Nodup
import Mathlib.Data.List.Perm.Basic
import Mathlib.Data.List.Sort

/-!
# Listings

What a query hands out and what is done with it: a list of rows each converted
by a function that may fail, and a work list whose entries are pairwise
different by a key and are changed or removed at a position.
-/

namespace Rutilus.Lib

/-! ## Lists entry by entry -/

/-- An entry of the one list stands across from one of the other. -/
theorem exists_of_forall₂ {α β : Type} {R : α → β → Prop} {xs : List α} {ys : List β}
    (h : List.Forall₂ R xs ys) {x : α} (hx : x ∈ xs) : ∃ y ∈ ys, R x y := by
  induction h with
  | nil => cases hx
  | cons hxy _ ih =>
      rcases List.mem_cons.mp hx with rfl | hx
      · exact ⟨_, List.mem_cons_self, hxy⟩
      · obtain ⟨y, hmem, hxy⟩ := ih hx
        exact ⟨y, List.mem_cons_of_mem _ hmem, hxy⟩

/-! ## Fallible conversion -/

section Convert

variable {α β ε : Type} {f : α → Except ε β} {xs : List α} {ys : List β}

/-- A conversion of all entries that succeeded converted each one. -/
theorem forall₂_of_mapM_ok (h : xs.mapM f = .ok ys) :
    List.Forall₂ (fun x y => f x = .ok y) xs ys := by
  induction xs generalizing ys with
  | nil =>
      rw [List.mapM_nil] at h
      cases h
      exact .nil
  | cons x xs ih =>
      rw [List.mapM_cons] at h
      cases hx : f x with
      | error e =>
          rw [hx] at h
          cases h
      | ok y =>
          rw [hx] at h
          cases hxs : xs.mapM f with
          | error e =>
              rw [hxs] at h
              cases h
          | ok rest =>
              rw [hxs] at h
              cases h
              exact .cons hx (ih hxs)

/-- Every converted entry comes from one. -/
theorem exists_of_mem_mapM {y : β} (h : xs.mapM f = .ok ys) (hy : y ∈ ys) :
    ∃ x ∈ xs, f x = .ok y :=
  exists_of_forall₂ (forall₂_of_mapM_ok h).flip hy

/-- Every entry was converted. -/
theorem exists_mapM_of_mem {x : α} (h : xs.mapM f = .ok ys) (hx : x ∈ xs) :
    ∃ y ∈ ys, f x = .ok y :=
  exists_of_forall₂ (forall₂_of_mapM_ok h) hx

/-- A key that the conversion keeps. -/
theorem map_of_mapM_ok {κ : Type} {g : β → κ} {k : α → κ}
    (hg : ∀ x y, f x = .ok y → g y = k x) (h : xs.mapM f = .ok ys) :
    ys.map g = xs.map k := by
  have hall := forall₂_of_mapM_ok h
  clear h
  induction hall with
  | nil => rfl
  | cons hy _ ih => rw [List.map_cons, List.map_cons, ih, hg _ _ hy]

/-- If every entry can be converted, so can the list. -/
theorem exists_mapM_ok (h : ∀ x ∈ xs, ∃ y, f x = .ok y) :
    ∃ ys, xs.mapM f = .ok ys := by
  induction xs with
  | nil => exact ⟨[], rfl⟩
  | cons x xs ih =>
      obtain ⟨y, hy⟩ := h x List.mem_cons_self
      obtain ⟨ys, hys⟩ := ih fun x hx => h x (List.mem_cons_of_mem _ hx)
      refine ⟨y :: ys, ?_⟩
      rw [List.mapM_cons, hy, hys]
      rfl

/-- What every entry is converted to, if the conversion is known. -/
theorem mapM_map_ok_iff {ι : Type} {l : List ι} {g : ι → α} {d : ι → β} :
    (l.map g).mapM f = .ok (l.map d) ↔ ∀ x ∈ l, f (g x) = .ok (d x) := by
  constructor
  · intro h x hx
    have hall := forall₂_of_mapM_ok h
    rw [List.forall₂_map_left_iff, List.forall₂_map_right_iff,
      List.forall₂_same] at hall
    exact hall x hx
  · intro h
    induction l with
    | nil => rfl
    | cons x l ih =>
        rw [List.map_cons, List.mapM_cons, h x List.mem_cons_self,
          ih fun y hy => h y (List.mem_cons_of_mem _ hy)]
        rfl

end Convert

/-- Changing entries changes nothing that a selection reads of them. -/
theorem map_filter_map_of_kept {α β : Type} {l : List α} {g : α → α} {p : α → Bool}
    {f : α → β} (hp : ∀ x ∈ l, p (g x) = p x) (hf : ∀ x ∈ l, f (g x) = f x) :
    ((l.map g).filter p).map f = (l.filter p).map f := by
  have hfilter : l.filter (p ∘ g) = l.filter p := List.filter_congr hp
  rw [List.filter_map, List.map_map, hfilter]
  exact List.map_congr_left fun x hx => hf x (List.mem_of_mem_filter hx)

/-! ## Work lists -/

section Keyed

variable {α κ : Type} {key : α → κ} {l : List α} {i : Nat} {a b x : α}

/-- Change one entry of a work list without changing its key. -/
theorem mem_set_of_nodup (hn : (l.map key).Nodup) (hi : l[i]? = some a) :
    x ∈ l.set i b ↔ x = b ∨ x ∈ l ∧ key x ≠ key a := by
  induction l generalizing i with
  | nil => cases hi
  | cons c l ih =>
      rw [List.map_cons, List.nodup_cons] at hn
      cases i with
      | zero =>
          obtain rfl : c = a := by simpa using hi
          have hne : ∀ x ∈ l, key x ≠ key c := fun x hx hk =>
            hn.1 (hk ▸ List.mem_map_of_mem hx)
          simp only [List.set_cons_zero, List.mem_cons]
          constructor
          · exact Or.imp_right fun hx => ⟨Or.inr hx, hne x hx⟩
          · rintro (h | ⟨rfl | h, hk⟩)
            · exact Or.inl h
            · exact absurd rfl hk
            · exact Or.inr h
      | succ i =>
          rw [List.getElem?_cons_succ] at hi
          have hca : key c ≠ key a := fun hk =>
            hn.1 (hk ▸ List.mem_map_of_mem (List.mem_of_getElem? hi))
          simp only [List.set_cons_succ, List.mem_cons, ih hn.2 hi]
          constructor
          · rintro (rfl | h | ⟨h, hk⟩)
            · exact Or.inr ⟨Or.inl rfl, hca⟩
            · exact Or.inl h
            · exact Or.inr ⟨Or.inr h, hk⟩
          · rintro (h | ⟨rfl | h, hk⟩)
            · exact Or.inr (Or.inl h)
            · exact Or.inl rfl
            · exact Or.inr (Or.inr ⟨h, hk⟩)

/-- Remove one entry of a work list. -/
theorem mem_eraseIdx_of_nodup (hn : (l.map key).Nodup)
    (hi : l[i]? = some a) : x ∈ l.eraseIdx i ↔ x ∈ l ∧ key x ≠ key a := by
  induction l generalizing i with
  | nil => cases hi
  | cons c l ih =>
      rw [List.map_cons, List.nodup_cons] at hn
      cases i with
      | zero =>
          obtain rfl : c = a := by simpa using hi
          have hne : ∀ x ∈ l, key x ≠ key c := fun x hx hk =>
            hn.1 (hk ▸ List.mem_map_of_mem hx)
          simp only [List.eraseIdx_cons_zero, List.mem_cons]
          constructor
          · exact fun hx => ⟨Or.inr hx, hne x hx⟩
          · rintro ⟨rfl | h, hk⟩
            · exact absurd rfl hk
            · exact h
      | succ i =>
          rw [List.getElem?_cons_succ] at hi
          have hca : key c ≠ key a := fun hk =>
            hn.1 (hk ▸ List.mem_map_of_mem (List.mem_of_getElem? hi))
          simp only [List.eraseIdx_cons_succ, List.mem_cons, ih hn.2 hi]
          constructor
          · rintro (rfl | ⟨h, hk⟩)
            · exact ⟨Or.inl rfl, hca⟩
            · exact ⟨Or.inr h, hk⟩
          · rintro ⟨rfl | h, hk⟩
            · exact Or.inl rfl
            · exact Or.inr ⟨h, hk⟩

theorem map_set_of_key (hi : l[i]? = some a) (hk : key b = key a) :
    (l.set i b).map key = l.map key := by
  obtain ⟨hlt, rfl⟩ := List.getElem?_eq_some_iff.mp hi
  rw [List.map_set, hk, ← List.getElem_map key (h := by simpa using hlt)]
  exact List.set_getElem_self _

end Keyed

/-! ## One position of a list -/

section Positions

variable {α : Type} {l : List α} {a b x : α} {i j : Nat}

theorem getElem?_set_other (h : j ≠ i) : (l.set i a)[j]? = l[j]? :=
  List.getElem?_set_ne (Ne.symm h)

theorem getElem?_set_here (h : l[i]? = some b) : (l.set i a)[i]? = some a :=
  List.getElem?_set_self (List.getElem?_eq_some_iff.mp h).1

theorem getElem?_set_cases (h : (l.set i a)[j]? = some x) :
    j = i ∧ x = a ∨ j ≠ i ∧ l[j]? = some x := by
  by_cases heq : j = i
  · subst heq
    rw [List.getElem?_set, if_pos rfl] at h
    split at h
    · cases h
      exact .inl ⟨rfl, rfl⟩
    · cases h
  · rw [getElem?_set_other heq] at h
    exact .inr ⟨heq, h⟩

theorem getElem?_concat_old (h : l[j]? = some x) : (l ++ [a])[j]? = some x := by
  rw [List.getElem?_append_left (List.getElem?_eq_some_iff.mp h).1, h]

theorem getElem?_concat_cases (h : (l ++ [a])[j]? = some x) :
    j = l.length ∧ x = a ∨ l[j]? = some x := by
  by_cases hlt : j < l.length
  · rw [List.getElem?_append_left hlt] at h
    exact .inr h
  · have hle := Nat.not_lt.mp hlt
    rw [List.getElem?_append_right hle] at h
    cases hsub : j - l.length with
    | zero =>
        rw [hsub] at h
        cases h
        exact .inl ⟨Nat.le_antisymm (Nat.le_of_sub_eq_zero hsub) hle, rfl⟩
    | succ k =>
        rw [hsub] at h
        cases h

end Positions

/-! ## Two lists joined -/

section Joined

variable {α : Type} {xs ys l₁ l₂ : List α} {x : α}

/-- An entry of two lists joined is of the one or of the other. -/
theorem append_eq_append_cons (h : xs ++ ys = l₁ ++ x :: l₂) :
    (∃ m, xs = l₁ ++ x :: m ∧ l₂ = m ++ ys) ∨
      ∃ m, l₁ = xs ++ m ∧ ys = m ++ x :: l₂ := by
  rcases List.append_eq_append_iff.mp h with ⟨m, hl, hys⟩ | ⟨m, hxs, hm⟩
  · exact .inr ⟨m, hl, hys⟩
  · cases m with
    | nil => exact .inr ⟨[], by simpa using hxs.symm, hm.symm⟩
    | cons a m =>
        obtain ⟨rfl, rfl⟩ := List.cons_eq_cons.mp hm
        exact .inl ⟨m, hxs, rfl⟩

end Joined

end Rutilus.Lib

/-!
## Asking in chunks

A question about a long list of keys is asked chunk by chunk. The answers, put
together, are those of one question about the whole list, each once, and sorting
them once more brings back the order of the one question.
-/

namespace Rutilus.Lib

variable {α β ε κ : Type}

/-! ## Chunks -/

/-- The list in pieces of `n` entries, the last one shorter. -/
def chunks (n : Nat) (l : List α) : List (List α) :=
  if _h : n = 0 ∨ l = [] then []
  else l.take n :: chunks n (l.drop n)
termination_by l.length
decreasing_by
  rw [List.length_drop]
  have := List.length_pos_iff.mpr fun hl => _h (.inr hl)
  have : n ≠ 0 := fun hn => _h (.inl hn)
  omega

theorem flatten_chunks {n : Nat} (hn : n ≠ 0) (l : List α) :
    (chunks n l).flatten = l := by
  induction l using chunks.induct n with
  | case1 l h =>
      rw [chunks, dif_pos h]
      rcases h with h | rfl
      · exact absurd h hn
      · rfl
  | case2 l h ih =>
      rw [chunks, dif_neg h, List.flatten_cons, ih, List.take_append_drop]

/-! ## Answers -/

/-- Two conditions that exclude each other select apart what they select together. -/
theorem filter_or_perm {p q : α → Bool} {l : List α}
    (h : ∀ x ∈ l, p x = true → q x = false) :
    (l.filter p ++ l.filter q).Perm (l.filter fun x => p x || q x) := by
  induction l with
  | nil => exact .nil
  | cons x l ih =>
      have ih := ih fun y hy => h y (List.mem_cons_of_mem _ hy)
      have hx := h x List.mem_cons_self
      cases hp : p x with
      | true =>
          rw [List.filter_cons_of_pos hp, List.filter_cons_of_neg (by simp [hx hp]),
            List.filter_cons_of_pos (by simp [hp])]
          exact ih.cons x
      | false =>
          rw [List.filter_cons_of_neg (by simp [hp])]
          cases hq : q x with
          | true =>
              rw [List.filter_cons_of_pos hq, List.filter_cons_of_pos (by simp [hq])]
              exact List.perm_middle.trans (ih.cons x)
          | false =>
              rw [List.filter_cons_of_neg (by simp [hq]),
                List.filter_cons_of_neg (by simp [hp, hq])]
              exact ih

/-- Asking chunk by chunk for the entries with some keys. -/
theorem flatMap_filter_perm [DecidableEq κ] {key : α → κ} {rows : List α}
    {parts : List (List κ)} (h : parts.flatten.Nodup) :
    (parts.flatMap fun part => rows.filter fun x => part.contains (key x)).Perm
      (rows.filter fun x => parts.flatten.contains (key x)) := by
  induction parts with
  | nil =>
      simp
  | cons part parts ih =>
      rw [List.flatten_cons, List.nodup_append] at h
      have hsplit : (rows.filter fun x => (part ++ parts.flatten).contains (key x)) =
          rows.filter fun x =>
            part.contains (key x) || parts.flatten.contains (key x) := by
        refine List.filter_congr fun x _ => ?_
        rw [Bool.eq_iff_iff]
        simp
      rw [List.flatMap_cons, List.flatten_cons, hsplit]
      refine (List.Perm.append_left _ (ih h.2.1)).trans (filter_or_perm ?_)
      intro x _ hx
      rw [Bool.eq_false_iff]
      intro hx'
      exact h.2.2 (key x) (by simpa using hx) (key x) (by simpa using hx') rfl

/-! ## Order -/

section Sorted

variable {le : α → α → Prop} [DecidableRel le] [Std.Total le] [IsTrans α le]

/-- Sorting forgets the order it is given, where no two entries are equal. -/
theorem insertionSort_eq_of_perm {l l' : List α} (h : l.Perm l')
    (hanti : ∀ a ∈ l, ∀ b ∈ l, le a b → le b a → a = b) :
    l.insertionSort le = l'.insertionSort le := by
  refine List.Perm.eq_of_pairwise ?_ (List.pairwise_insertionSort le l)
    (List.pairwise_insertionSort le l')
    ((List.perm_insertionSort le l).trans
      (h.trans (List.perm_insertionSort le l').symm))
  intro a b ha hb
  rw [List.mem_insertionSort] at ha hb
  exact hanti a ha b (h.mem_iff.mpr hb)

/-- Selecting and sorting may be exchanged. -/
theorem filter_insertionSort {p : α → Bool} {l : List α}
    (hanti : ∀ a ∈ l, ∀ b ∈ l, le a b → le b a → a = b) :
    (l.insertionSort le).filter p = (l.filter p).insertionSort le := by
  refine List.Perm.eq_of_pairwise ?_
    ((List.pairwise_insertionSort le l).sublist List.filter_sublist)
    (List.pairwise_insertionSort le _)
    (((List.perm_insertionSort le l).filter p).trans
      (List.perm_insertionSort le (l.filter p)).symm)
  intro a b ha hb
  have ha := (List.mem_insertionSort le).mp (List.mem_of_mem_filter ha)
  have hb := List.mem_of_mem_filter ((List.mem_insertionSort le).mp hb)
  exact hanti a ha b hb

end Sorted

/-! ## Conversion -/

/-- A selection that can be read off the converted entries. -/
theorem mapM_filter_ok {f : α → Except ε β} {p : α → Bool} {q : β → Bool}
    {xs : List α} {ys : List β} (h : xs.mapM f = .ok ys)
    (hpq : ∀ x y, f x = .ok y → q y = p x) :
    (xs.filter p).mapM f = .ok (ys.filter q) := by
  have hall := forall₂_of_mapM_ok h
  clear h
  induction hall with
  | nil => rfl
  | @cons x y xs ys hxy _ ih =>
      rw [List.filter_cons, List.filter_cons, hpq x y hxy]
      split
      · rw [List.mapM_cons, hxy, ih]
        rfl
      · exact ih

end Rutilus.Lib
