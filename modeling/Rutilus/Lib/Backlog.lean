import Mathlib.Data.List.Perm.Subperm
import Mathlib.Data.List.Infix

/-!
# A queue served through a window

A queue is served from its front, a window of `limit` items at a time. What is
served leaves the queue later. Some items are stuck: they are passed over and
never leave, so they keep their place in the window.

An item that is not stuck is served in the end if and only if fewer than `limit`
stuck items are ahead of it. Otherwise they fill the window before it.
-/

namespace Rutilus.Lib.Backlog

variable {α : Type} (ahead : α → α → Bool) (stuck : α → Bool)

/-- How many items of the queue are ahead of one. -/
def rank (a : α) (q : List α) : Nat := q.countP fun b => ahead b a

/-- How many of them are stuck. -/
def blockers (a : α) (q : List α) : Nat :=
  q.countP fun b => stuck b && ahead b a

/-- One step of a queue and of what was served from it. The queue is read at
some point of the step; `visit` says whether the step reads it at all. -/
structure Step (limit : Nat) (visit : Prop) (q q' : List α)
    (served served' : α → Prop) : Prop where
  sub : q'.Sublist q
  kept : ∀ a ∈ q, stuck a = true → a ∈ q'
  mono : ∀ a, served a → served' a
  window : ∀ a, served' a → served a ∨ ∃ p, q'.Sublist p ∧ p.Sublist q ∧
    a ∈ p ∧ stuck a = false ∧ rank ahead a p < limit
  visited : visit → ∃ p, q'.Sublist p ∧ p.Sublist q ∧
    ∀ a ∈ p, stuck a = false → rank ahead a p < limit →
      served' a ∨ a ∉ q'

section Count

variable {ahead stuck} {a b : α} {q q' : List α}

theorem blockers_le_rank : blockers ahead stuck a q ≤ rank ahead a q :=
  List.countP_mono_left fun _ _ h => (Bool.and_eq_true_iff.mp h).2

/-- A queue that lost no stuck item has the same blockers. -/
theorem blockers_of_kept (hnodup : q.Nodup) (hsub : q'.Sublist q)
    (hkept : ∀ b ∈ q, stuck b = true → b ∈ q') :
    blockers ahead stuck a q' = blockers ahead stuck a q := by
  refine Nat.le_antisymm hsub.countP_le ?_
  unfold blockers
  rw [List.countP_eq_length_filter, List.countP_eq_length_filter]
  refine (List.subperm_of_subset (hnodup.filter _) fun b hb => ?_).length_le
  obtain ⟨hb, hp⟩ := List.mem_filter.mp hb
  exact List.mem_filter.mpr ⟨hkept b hb (Bool.and_eq_true_iff.mp hp).1, hp⟩

/-- If only stuck items are left ahead, the rank is the number of blockers. -/
theorem rank_le_blockers
    (h : ∀ b ∈ q, ahead b a = true → stuck b = true) :
    rank ahead a q ≤ blockers ahead stuck a q := by
  refine List.countP_mono_left fun b hb hahead => ?_
  rw [Bool.and_eq_true]
  exact ⟨h b hb hahead, hahead⟩

variable (htrans : ∀ a b c, ahead a b = true → ahead b c = true →
    ahead a c = true) (hirrefl : ∀ a, ahead a a = false)

include htrans hirrefl in
theorem rank_lt (hb : b ∈ q) (h : ahead b a = true) :
    rank ahead b q < rank ahead a q := by
  unfold rank
  induction q with
  | nil => cases hb
  | cons c q ih =>
      have hle : ∀ q : List α, q.countP (fun x => ahead x b) ≤
          q.countP fun x => ahead x a := fun q =>
        List.countP_mono_left fun x _ hx => htrans x b a hx h
      rcases List.mem_cons.mp hb with rfl | hb
      · rw [List.countP_cons_of_neg (by rw [hirrefl]; exact Bool.false_ne_true),
          List.countP_cons_of_pos (p := fun x => ahead x a) h]
        exact Nat.lt_succ_of_le (hle q)
      · have hlt := ih hb
        rw [List.countP_cons, List.countP_cons]
        by_cases hc : ahead c b = true
        · rw [if_pos hc, if_pos (htrans c b a hc h)]
          omega
        · rw [if_neg hc]
          omega

include htrans in
theorem blockers_le_of_ahead (h : ahead b a = true) :
    blockers ahead stuck b q ≤ blockers ahead stuck a q := by
  refine List.countP_mono_left fun x _ hx => ?_
  rw [Bool.and_eq_true] at hx ⊢
  exact ⟨hx.1, htrans x b a hx.2 h⟩

include htrans hirrefl in
/-- The window of a queue in order holds the items of a rank below its size. -/
theorem mem_take_iff_rank {n : Nat}
    (hq : q.Pairwise fun a b => ahead a b = true) :
    a ∈ q.take n ↔ a ∈ q ∧ rank ahead a q < n := by
  unfold rank
  induction hq generalizing n with
  | nil => simp
  | @cons b q hb _ ih =>
      cases n with
      | zero => simp
      | succ n =>
          rw [List.take_succ_cons, List.mem_cons, List.mem_cons, ih,
            List.countP_cons]
          constructor
          · rintro (rfl | ⟨ha, hrank⟩)
            · refine ⟨.inl rfl, ?_⟩
              have hzero : q.countP (fun c => ahead c a) = 0 := by
                rw [List.countP_eq_zero]
                intro c hc hca
                have := htrans a c a (hb c hc) hca
                rw [hirrefl] at this
                cases this
              rw [hzero, if_neg (by rw [hirrefl]; exact Bool.false_ne_true)]
              omega
            · exact ⟨.inr ha, by split <;> omega⟩
          · rintro ⟨rfl | ha, hrank⟩
            · exact .inl rfl
            · rw [if_pos (hb a ha)] at hrank
              exact .inr ⟨ha, by omega⟩

end Count

/-! ## Runs -/

section Runs

variable {ahead stuck} {limit : Nat} {visit : Nat → Prop} {q : Nat → List α}
  {served : Nat → α → Prop} {a : α}
  (hstep : ∀ n, Step ahead stuck limit (visit n) (q n) (q (n + 1)) (served n)
    (served (n + 1)))

include hstep

theorem sublist_of_le {n m : Nat} (h : n ≤ m) : (q m).Sublist (q n) := by
  induction h with
  | refl => exact List.Sublist.refl _
  | step _ ih => exact (hstep _).sub.trans ih

theorem kept_of_stuck (n : Nat) (ha : a ∈ q 0) (h : stuck a = true) :
    a ∈ q n := by
  induction n with
  | zero => exact ha
  | succ n ih => exact (hstep n).kept a ih h

/-- The blockers of an item do not change, also between the two ends of a
step. -/
theorem blockers_between (hnodup : (q 0).Nodup) {n : Nat} {p : List α}
    (hlow : (q (n + 1)).Sublist p) (hhigh : p.Sublist (q n)) :
    blockers ahead stuck a p = blockers ahead stuck a (q 0) :=
  blockers_of_kept hnodup (hhigh.trans (sublist_of_le hstep (Nat.zero_le n)))
    fun _ hb hs => hlow.subset (kept_of_stuck hstep (n + 1) hb hs)

/-- Items that all leave the queue have left it at one moment. -/
theorem exists_all_gone {bs : List α} (h : ∀ b ∈ bs, ∃ n, b ∉ q n) :
    ∃ n, ∀ b ∈ bs, b ∉ q n := by
  induction bs with
  | nil => exact ⟨0, fun _ hb => nomatch hb⟩
  | cons b bs ih =>
      obtain ⟨n, hn⟩ := h b List.mem_cons_self
      obtain ⟨m, hm⟩ := ih fun b hb => h b (List.mem_cons_of_mem _ hb)
      refine ⟨max n m, fun c hc => ?_⟩
      rcases List.mem_cons.mp hc with rfl | hc
      · exact fun hin => hn
          ((sublist_of_le hstep (Nat.le_max_left n m)).subset hin)
      · exact fun hin => hm c hc
          ((sublist_of_le hstep (Nat.le_max_right n m)).subset hin)

/-- With fewer than `limit` blockers an item leaves the queue, if the queue is
read again and again and what was served leaves it. The items ahead of it leave
first: the induction is on how many there are. -/
theorem leaves_of_few_blockers
    (htrans : ∀ a b c, ahead a b = true → ahead b c = true → ahead a c = true)
    (hirrefl : ∀ a, ahead a a = false) (hnodup : (q 0).Nodup)
    (hvisit : ∀ n, ∃ m, n ≤ m ∧ visit m)
    (hserved : ∀ n a, served n a → ∃ m, a ∉ q m)
    (ha : a ∈ q 0) (hfree : stuck a = false)
    (hfew : blockers ahead stuck a (q 0) < limit) : ∃ n, a ∉ q n := by
  induction hk : rank ahead a (q 0) using Nat.strongRecOn generalizing a with
  | ind k ih =>
    subst hk
    obtain ⟨n, hn⟩ : ∃ n, ∀ b ∈ (q 0).filter fun b => !stuck b && ahead b a,
        b ∉ q n := exists_all_gone hstep fun b hb => by
        obtain ⟨hb, hp⟩ := List.mem_filter.mp hb
        simp only [Bool.and_eq_true, Bool.not_eq_true'] at hp
        exact ih _ (rank_lt htrans hirrefl hb hp.2) hb hp.1
          ((blockers_le_of_ahead htrans hp.2).trans_lt hfew) rfl
    obtain ⟨m, hnm, hm⟩ := hvisit n
    obtain ⟨p, hlow, hhigh, hp⟩ := (hstep m).visited hm
    by_cases hin : a ∈ q (m + 1)
    · have hrank : rank ahead a p < limit := by
        refine lt_of_le_of_lt (rank_le_blockers fun b hb hahead => ?_)
          ((blockers_between hstep hnodup hlow hhigh).trans_lt hfew)
        by_contra hstuck
        have hb' := (hhigh.trans (sublist_of_le hstep hnm)).subset hb
        refine hn b (List.mem_filter.mpr
          ⟨(sublist_of_le hstep (Nat.zero_le n)).subset hb', ?_⟩) hb'
        rw [hahead, Bool.and_true, Bool.not_eq_true', ← Bool.not_eq_true]
        exact hstuck
      rcases hp a (hlow.subset hin) hfree hrank with hserve | hgone
      · exact hserved (m + 1) a hserve
      · exact ⟨m + 1, hgone⟩
    · exact ⟨m + 1, hin⟩

/-- With `limit` blockers it is never served. -/
theorem not_served_of_many_blockers (hnodup : (q 0).Nodup)
    (hstart : ¬ served 0 a) (hmany : limit ≤ blockers ahead stuck a (q 0))
    (n : Nat) : ¬ served n a := by
  induction n with
  | zero => exact hstart
  | succ n ih =>
      intro h
      rcases (hstep n).window a h with h | ⟨p, hlow, hhigh, -, -, hrank⟩
      · exact ih h
      · rw [← blockers_between hstep hnodup hlow hhigh] at hmany
        exact absurd (blockers_le_rank.trans_lt hrank) (Nat.not_lt.mpr hmany)

end Runs

end Rutilus.Lib.Backlog
