import Mathlib.Data.List.Nodup

/-!
# Keyed tables

The rows of a database table with a primary key, in insertion order. The
uniqueness of the key is part of the type, so no later proof has to carry it.
Three writes cover what a store does: insert unless the key is there, insert or
replace, and delete by a condition.
-/

namespace Rutilus.Lib

variable {κ ρ : Type} {key : ρ → κ}

/-- Rows with pairwise different keys. -/
structure Table (κ ρ : Type) (key : ρ → κ) where
  rows : List ρ
  nodup : (rows.map key).Nodup

namespace Table

instance : Inhabited (Table κ ρ key) := ⟨⟨[], List.nodup_nil⟩⟩

/-- The table with no rows. -/
def empty : Table κ ρ key := ⟨[], List.nodup_nil⟩

variable [DecidableEq κ]

/-- The row with a key. -/
def find (t : Table κ ρ key) (k : κ) : Option ρ :=
  t.rows.find? fun r => key r = k

/-- The keys that are taken. -/
def has (t : Table κ ρ key) (k : κ) : Bool := (t.find k).isSome

theorem find_eq_some_iff {t : Table κ ρ key} {k : κ} {r : ρ} :
    t.find k = some r ↔ r ∈ t.rows ∧ key r = k := by
  constructor
  · intro h
    exact ⟨List.mem_of_find?_eq_some h, by simpa using List.find?_some h⟩
  · rintro ⟨hr, rfl⟩
    have hsome : (t.find (key r)).isSome := by
      simp only [find, List.find?_isSome, decide_eq_true_eq]
      exact ⟨r, hr, rfl⟩
    obtain ⟨r', hr'⟩ := Option.isSome_iff_exists.mp hsome
    have hmem : r' ∈ t.rows := List.mem_of_find?_eq_some hr'
    have hkey : key r' = key r := by simpa using List.find?_some hr'
    rw [hr', List.inj_on_of_nodup_map t.nodup hmem hr hkey]

theorem find_eq_none_iff {t : Table κ ρ key} {k : κ} :
    t.find k = none ↔ ∀ r ∈ t.rows, key r ≠ k := by
  simp [find, List.find?_eq_none]

theorem key_of_find {t : Table κ ρ key} {k : κ} {r : ρ}
    (h : t.find k = some r) : key r = k :=
  (find_eq_some_iff.mp h).2

@[simp]
theorem find_empty (k : κ) : (empty : Table κ ρ key).find k = none := rfl

/-- Insert a row unless its key is taken. -/
def insertNew (t : Table κ ρ key) (r : ρ) : Table κ ρ key :=
  if h : t.find (key r) = none then
    ⟨t.rows ++ [r], by
      rw [List.map_append, List.map_singleton, List.nodup_append]
      refine ⟨t.nodup, List.nodup_singleton _, ?_⟩
      intro a ha b hb
      rw [List.mem_singleton] at hb
      obtain ⟨r', hr', rfl⟩ := List.mem_map.mp ha
      exact hb ▸ find_eq_none_iff.mp h r' hr'⟩
  else t

/-- Replace the row with the same key, if there is one. -/
def replace (t : Table κ ρ key) (r : ρ) : Table κ ρ key :=
  ⟨t.rows.map fun x => if key x = key r then r else x, by
    have h : (t.rows.map fun x => if key x = key r then r else x).map key =
        t.rows.map key := by
      rw [List.map_map]
      apply List.map_congr_left
      intro x _
      by_cases hx : key x = key r
      · simp [hx]
      · simp [hx]
    rw [h]
    exact t.nodup⟩

/-- Insert a row or replace the one with its key. -/
def put (t : Table κ ρ key) (r : ρ) : Table κ ρ key :=
  if t.has (key r) then t.replace r else t.insertNew r

/-- Delete every row that does not satisfy a condition. -/
def filter (t : Table κ ρ key) (p : ρ → Bool) : Table κ ρ key :=
  ⟨t.rows.filter p, (List.filter_sublist.map key).nodup t.nodup⟩

/-- Change every row and no key. -/
def map (t : Table κ ρ key) (f : ρ → ρ) (hf : ∀ r, key (f r) = key r) :
    Table κ ρ key :=
  ⟨t.rows.map f, by
    have h : (t.rows.map f).map key = t.rows.map key := by
      rw [List.map_map]
      exact List.map_congr_left fun r _ => hf r
    rw [h]
    exact t.nodup⟩

theorem insertNew_of_some {t : Table κ ρ key} {r x : ρ}
    (h : t.find (key r) = some x) : t.insertNew r = t := by
  simp [insertNew, h]

theorem rows_insertNew {t : Table κ ρ key} {r : ρ}
    (h : t.find (key r) = none) : (t.insertNew r).rows = t.rows ++ [r] := by
  simp [insertNew, h]

theorem find_insertNew {t : Table κ ρ key} {r : ρ} {k : κ} :
    (t.insertNew r).find k =
      if key r = k ∧ t.find k = none then some r else t.find k := by
  by_cases h : t.find (key r) = none
  · simp only [find, rows_insertNew h, List.find?_append]
    by_cases hk : key r = k
    · subst hk
      have h' : t.rows.find? (fun x => key x = key r) = none := h
      simp [h']
    · simp [hk]
  · obtain ⟨x, hx⟩ := Option.ne_none_iff_exists'.mp h
    rw [insertNew_of_some hx]
    split
    · next hk =>
        obtain ⟨rfl, hk⟩ := hk
        exact absurd hk h
    · rfl

/-- Rows that are nothing but their keys: one is there or is added. -/
theorem mem_insertNew_of_injective {t : Table κ ρ key} {r x : ρ}
    (hkey : Function.Injective key) :
    x ∈ (t.insertNew r).rows ↔ x = r ∨ x ∈ t.rows := by
  cases hfind : t.find (key r) with
  | none =>
      rw [rows_insertNew hfind, List.mem_append, List.mem_singleton]
      exact or_comm
  | some old =>
      rw [insertNew_of_some hfind]
      obtain ⟨hin, hold⟩ := find_eq_some_iff.mp hfind
      obtain rfl := hkey hold
      exact ⟨.inr, fun hx => hx.elim (fun heq => heq ▸ hin) fun hx => hx⟩

theorem insertNew_again {t : Table κ ρ key} {r : ρ} :
    (t.insertNew r).insertNew r = t.insertNew r := by
  cases h : t.find (key r) with
  | some x => rw [insertNew_of_some h, insertNew_of_some h]
  | none =>
      exact insertNew_of_some (x := r)
        (find_insertNew.trans (if_pos ⟨rfl, h⟩))

/-- Writing a stored row back changes nothing. -/
theorem replace_of_mem {t : Table κ ρ key} {r : ρ} (h : r ∈ t.rows) :
    t.replace r = t := by
  have hrows : t.rows.map (fun x => if key x = key r then r else x) =
      t.rows := by
    conv_rhs => rw [← List.map_id t.rows]
    refine List.map_congr_left fun x hx => ?_
    split
    · next hk => exact (List.inj_on_of_nodup_map t.nodup hx h hk).symm
    · rfl
  cases t
  simpa [replace] using hrows

theorem find_replace {t : Table κ ρ key} {r : ρ} {k : κ} :
    (t.replace r).find k =
      if key r = k ∧ (t.find k).isSome then some r else t.find k := by
  have hrows : ∀ xs : List ρ,
      (xs.map fun x => if key x = key r then r else x).find?
          (fun x => key x = k) =
        if key r = k ∧ (xs.find? fun x => key x = k).isSome then some r
        else xs.find? fun x => key x = k := by
    intro xs
    induction xs with
    | nil => simp
    | cons x xs ih =>
        rw [List.map_cons, List.find?_cons, List.find?_cons, ih]
        by_cases hx : key x = key r
        · by_cases hk : key r = k <;> simp [hx, hk]
        · by_cases hk : key x = k
          · subst hk
            simp [hx, Ne.symm hx]
          · simp [hx, hk]
  exact hrows t.rows

/-- The rows after one was replaced: it and the others. -/
theorem mem_replace {t : Table κ ρ key} {r old x : ρ}
    (h : t.find (key r) = some old) :
    x ∈ (t.replace r).rows ↔ x = r ∨ x ∈ t.rows ∧ key x ≠ key r := by
  have hmem : ∀ y, y ∈ (t.replace r).rows ↔
      (t.replace r).find (key y) = some y := by
    intro y
    rw [find_eq_some_iff]
    exact ⟨fun hy => ⟨hy, rfl⟩, fun hy => hy.1⟩
  rw [hmem, find_replace]
  by_cases hk : key r = key x
  · rw [if_pos ⟨hk, by rw [← hk, h]; rfl⟩]
    constructor
    · intro heq
      exact .inl (Option.some.inj heq).symm
    · rintro (heq | ⟨-, hne⟩)
      · rw [heq]
      · exact absurd hk.symm hne
  · rw [if_neg fun h => hk h.1, find_eq_some_iff]
    constructor
    · rintro ⟨hx, -⟩
      exact .inr ⟨hx, Ne.symm hk⟩
    · rintro (heq | ⟨hx, -⟩)
      · rw [heq] at hk
        exact absurd rfl hk
      · exact ⟨hx, rfl⟩

theorem find_put {t : Table κ ρ key} {r : ρ} {k : κ} :
    (t.put r).find k = if key r = k then some r else t.find k := by
  unfold put has
  split
  · next h =>
      rw [find_replace]
      by_cases hk : key r = k
      · subst hk
        simp [h]
      · simp [hk]
  · next h =>
      rw [find_insertNew]
      by_cases hk : key r = k
      · subst hk
        simp [Option.not_isSome_iff_eq_none.mp h]
      · simp [hk]

/-- Putting a stored row changes nothing. -/
theorem put_of_find {t : Table κ ρ key} {r : ρ} (h : t.find (key r) = some r) :
    t.put r = t := by
  unfold put has
  rw [h, Option.isSome_some, if_pos rfl]
  exact replace_of_mem (find_eq_some_iff.mp h).1

theorem find_put_self {t : Table κ ρ key} {r : ρ} :
    (t.put r).find (key r) = some r :=
  find_put.trans (if_pos rfl)

theorem mem_put {t : Table κ ρ key} {r x : ρ} (h : x ∈ (t.put r).rows) :
    x = r ∨ x ∈ t.rows := by
  have hx : (t.put r).find (key x) = some x := find_eq_some_iff.mpr ⟨h, rfl⟩
  rw [find_put] at hx
  split at hx
  · exact .inl (Option.some.inj hx).symm
  · exact .inr (find_eq_some_iff.mp hx).1

omit [DecidableEq κ] in
theorem filter_self {t : Table κ ρ key} {p : ρ → Bool} :
    (t.filter p).filter p = t.filter p := by
  simp only [filter, List.filter_filter, Bool.and_self]

theorem find_map {t : Table κ ρ key} {f : ρ → ρ}
    (hf : ∀ r, key (f r) = key r) {k : κ} :
    (t.map f hf).find k = (t.find k).map f := by
  unfold find map
  rw [List.find?_map]
  congr 2
  funext r
  exact decide_eq_decide.mpr (by rw [hf])

theorem find_filter {t : Table κ ρ key} {p : ρ → Bool} {k : κ} :
    (t.filter p).find k = (t.find k).filter p := by
  cases h : t.find k with
  | none =>
      rw [Option.filter_none, find_eq_none_iff]
      intro r hr
      exact find_eq_none_iff.mp h r (List.mem_of_mem_filter hr)
  | some r =>
      obtain ⟨hr, hk⟩ := find_eq_some_iff.mp h
      by_cases hp : p r
      · rw [Option.filter_some_pos hp, find_eq_some_iff]
        exact ⟨List.mem_filter.mpr ⟨hr, hp⟩, hk⟩
      · rw [Option.filter_some_neg (by simpa using hp), find_eq_none_iff]
        intro x hx hxk
        obtain ⟨hx, hpx⟩ := List.mem_filter.mp hx
        have : x = r :=
          List.inj_on_of_nodup_map t.nodup hx hr (hxk.trans hk.symm)
        exact hp (this ▸ hpx)

/-- A deletion that spares a key. -/
theorem find_filter_of_key {t : Table κ ρ key} {p : ρ → Bool} {k : κ}
    (hp : ∀ r, key r = k → p r = true) : (t.filter p).find k = t.find k := by
  rw [find_filter]
  cases h : t.find k with
  | none => rfl
  | some r => exact Option.filter_some_pos (hp r (key_of_find h))

/-! ## The rows that satisfy a condition -/

section Rows

variable {t : Table κ ρ key} {r : ρ} {p q : ρ → Bool}

theorem filter_insertNew (hp : p r = false) :
    (t.insertNew r).rows.filter p = t.rows.filter p := by
  cases h : t.find (key r) with
  | some x => rw [insertNew_of_some h]
  | none =>
      rw [rows_insertNew h, List.filter_append, List.filter_cons_of_neg
        (by simp [hp]), List.filter_nil, List.append_nil]

theorem filter_replace (hp : ∀ x, key x = key r → p x = false) :
    (t.replace r).rows.filter p = t.rows.filter p := by
  have hrows : ∀ xs : List ρ,
      (xs.map fun x => if key x = key r then r else x).filter p =
        xs.filter p := by
    intro xs
    induction xs with
    | nil => rfl
    | cons x xs ih =>
        rw [List.map_cons, List.filter_cons, List.filter_cons, ih]
        by_cases hx : key x = key r
        · rw [if_pos hx, hp r rfl, hp x hx]
          rfl
        · rw [if_neg hx]
  exact hrows t.rows

theorem filter_put (hp : ∀ x, key x = key r → p x = false) :
    (t.put r).rows.filter p = t.rows.filter p := by
  unfold put
  split
  · exact filter_replace hp
  · exact filter_insertNew (hp r rfl)

omit [DecidableEq κ] in
/-- A deletion that spares them. -/
theorem filter_filter (hq : ∀ x, p x = true → q x = true) :
    (t.filter q).rows.filter p = t.rows.filter p := by
  have hboth : ∀ x, (p x && q x) = p x := by
    intro x
    cases hp : p x with
    | false => rfl
    | true => rw [hq x hp]; rfl
  simp only [filter, List.filter_filter, hboth]

end Rows

/-! ## Writes after a change of every row -/

section Map

variable {t : Table κ ρ key} {r : ρ} {f : ρ → ρ}
  (hf : ∀ r, key (f r) = key r)

omit [DecidableEq κ] in
theorem ext_rows {a b : Table κ ρ key} (h : a.rows = b.rows) : a = b := by
  cases a
  cases b
  cases h
  rfl

theorem map_insertNew :
    (t.insertNew r).map f hf = (t.map f hf).insertNew (f r) := by
  have hfind : (t.map f hf).find (key (f r)) = (t.find (key r)).map f := by
    rw [find_map hf, hf]
  cases h : t.find (key r) with
  | some x =>
      rw [h, Option.map_some] at hfind
      rw [insertNew_of_some h, insertNew_of_some hfind]
  | none =>
      rw [h, Option.map_none] at hfind
      refine ext_rows ?_
      rw [rows_insertNew hfind]
      simp only [map, rows_insertNew h, List.map_append, List.map_singleton]

theorem map_replace :
    (t.replace r).map f hf = (t.map f hf).replace (f r) := by
  refine ext_rows ?_
  simp only [map, replace, List.map_map]
  refine List.map_congr_left fun x _ => ?_
  simp only [Function.comp, hf]
  split <;> rfl

theorem map_put : (t.put r).map f hf = (t.map f hf).put (f r) := by
  have hhas : (t.map f hf).has (key (f r)) = t.has (key r) := by
    unfold has
    rw [find_map hf, hf, Option.isSome_map]
  unfold put
  rw [hhas]
  split
  · exact map_replace hf
  · exact map_insertNew hf

omit [DecidableEq κ] in
theorem map_filter {p : ρ → Bool} (hp : ∀ r, p (f r) = p r) :
    (t.filter p).map f hf = (t.map f hf).filter p := by
  refine ext_rows ?_
  simp only [map, filter, List.filter_map]
  exact congrArg (List.map f)
    (List.filter_congr fun r _ => (hp r).symm)

omit [DecidableEq κ] in
theorem find?_map {p : ρ → Bool} (hp : ∀ r, p (f r) = p r) :
    (t.map f hf).rows.find? p = (t.rows.find? p).map f := by
  simp only [map, List.find?_map]
  congr 2
  funext r
  exact hp r

end Map

end Table

end Rutilus.Lib
