import Mathlib.Data.Finset.Insert
import Mathlib.Data.Finset.Erase
import Mathlib.Logic.Function.Basic

/-!
# Retiring all entries but the newest

Any number of parties each add an entry, then list the entries that stand, and then
retire those of the list that are not its newest, from the newest down. The lists are
stale: others add and retire meanwhile. A party may stop where an entry that it is to
retire no longer stands.

Nobody retires the newest entry, since whoever lists an entry for retirement has seen a
newer one. Nothing is left over either. An entry that stands and is not the newest is
still to be retired by a party that has not listed yet, or by one that has it on its
list. If the latter stops before it comes to the entry, it stops at an entry that
someone else has retired, and that party is further down and has the entry on its list
as well.
-/

namespace Rutilus.Lib

variable {κ ι : Type}

/-- What a party does next; one with nothing left to retire is done. -/
inductive Phase (ι : Type) where
  | adding
  | listing
  | retiring (rest : List ι)

/-- The entries that stand, those that were ever added, and the parties. -/
structure Race (κ ι : Type) where
  standing : Finset ι
  issued : Finset ι
  phase : κ → Phase ι

namespace Race

variable {s t : Race κ ι} {k k' : κ} {rest : List ι}

inductive Step [DecidableEq κ] [LinearOrder ι] : Race κ ι → Race κ ι → Prop where
  | add {s : Race κ ι} {k : κ} {e : ι} (hphase : s.phase k = .adding)
      (hnew : ∀ x ∈ s.issued, x < e) :
      Step s ⟨insert e s.standing, insert e s.issued,
        Function.update s.phase k .listing⟩
  | list {s : Race κ ι} {k : κ} {rest : List ι} (hphase : s.phase k = .listing)
      (hsorted : rest.Pairwise (· > ·))
      (hmem : ∀ x, x ∈ rest ↔ x ∈ s.standing ∧ ∃ y ∈ s.standing, x < y) :
      Step s ⟨s.standing, s.issued, Function.update s.phase k (.retiring rest)⟩
  | retire {s : Race κ ι} {k : κ} {e : ι} {rest : List ι}
      (hphase : s.phase k = .retiring (e :: rest)) :
      Step s ⟨s.standing.erase e, s.issued,
        Function.update s.phase k (.retiring rest)⟩
  | stop {s : Race κ ι} {k : κ} {e : ι} {rest : List ι}
      (hphase : s.phase k = .retiring (e :: rest)) (hgone : e ∉ s.standing) :
      Step s ⟨s.standing, s.issued, Function.update s.phase k (.retiring [])⟩

/-- The party has this list before it. -/
def Lists (s : Race κ ι) (k : κ) (rest : List ι) : Prop := s.phase k = .retiring rest

/-- The party has not listed yet. -/
def Waits (s : Race κ ι) (k : κ) : Prop := s.phase k = .adding ∨ s.phase k = .listing

/-- A party that is past all entries above a bound has the entry on its list. -/
def Reaches [LinearOrder ι] (s : Race κ ι) (q bound : ι) : Prop :=
  ∃ k rest, s.Lists k rest ∧ q ∈ rest ∧ ∀ x ∈ rest, q < x → x < bound

structure Inv [LinearOrder ι] (s : Race κ ι) : Prop where
  issued : s.standing ⊆ s.issued
  sorted : ∀ k rest, s.Lists k rest → rest.Pairwise (· > ·)
  below : ∀ k rest, s.Lists k rest → ∀ e ∈ rest, ∃ y ∈ s.standing, e < y
  closed : ∀ k rest, s.Lists k rest → ∀ e ∈ rest, ∀ q ∈ s.standing, q < e → q ∈ rest
  served : ∀ q ∈ s.standing, (∃ y ∈ s.standing, q < y) →
    (∃ k, s.Waits k) ∨ ∃ k rest, s.Lists k rest ∧ q ∈ rest
  passed : ∀ k rest, s.Lists k rest → ∀ e ∈ rest, e ∉ s.standing →
    ∀ q ∈ s.standing, q < e → s.Reaches q e
  newest : (∃ k, s.phase k ≠ .adding) → ∃ m ∈ s.standing, ∀ x ∈ s.issued, x ≤ m

/-- An entry on a list has one above it that stands, so nothing new is below it. -/
theorem Inv.not_below [LinearOrder ι] {e new : ι} (h : Inv s) (hlist : s.Lists k rest)
    (he : e ∈ rest) (hnew : ∀ x ∈ s.issued, x < new) : ¬ new ≤ e := by
  obtain ⟨y, hy, hey⟩ := h.below k rest hlist e he
  exact not_le.mpr (hey.trans (hnew y (h.issued hy)))

/-- The newest entry is on no list. -/
theorem Inv.newest_of_lists [LinearOrder ι] {e : ι} (h : Inv s) (hlist : s.Lists k rest)
    (he : e ∈ rest) :
    ∃ m ∈ s.standing, (∀ x ∈ s.issued, x ≤ m) ∧ e ≠ m := by
  obtain ⟨m, hm, hmax⟩ := h.newest ⟨k, fun hadding => nomatch hadding.symm.trans hlist⟩
  obtain ⟨y, hy, hey⟩ := h.below k rest hlist e he
  exact ⟨m, hm, hmax, (hey.trans_le (hmax y (h.issued hy))).ne⟩

/-- Where a party stops, another one that is further down has the rest on its list. -/
theorem Inv.takenOver [LinearOrder ι] {e q : ι} (h : Inv s)
    (hphase : s.Lists k (e :: rest))
    (hgone : e ∉ s.standing) (hq : q ∈ s.standing) (hqe : q < e) :
    ∃ k' l, k' ≠ k ∧ s.Lists k' l ∧ q ∈ l ∧ ∀ x ∈ l, q < x → x < e := by
  obtain ⟨k', l, hlist, hmem, hpast⟩ :=
    h.passed k _ hphase e (List.mem_cons_self ..) hgone q hq hqe
  refine ⟨k', l, ?_, hlist, hmem, hpast⟩
  rintro rfl
  cases hphase.symm.trans hlist
  exact lt_irrefl e (hpast e (List.mem_cons_self ..) hqe)

/-- At the start nobody has added an entry; there is somebody. -/
theorem Inv.initial [LinearOrder ι] [Nonempty κ] (hadding : ∀ k, s.phase k = .adding)
    (hissued : s.standing ⊆ s.issued) : Inv s := by
  have hnone : ∀ k rest, ¬ s.Lists k rest := fun k rest hlist =>
    nomatch (hadding k).symm.trans hlist
  refine ⟨hissued, fun k rest hlist => absurd hlist (hnone k rest),
    fun k rest hlist => absurd hlist (hnone k rest),
    fun k rest hlist => absurd hlist (hnone k rest), fun q _ _ => Or.inl ?_,
    fun k rest hlist => absurd hlist (hnone k rest),
    fun ⟨k, hk⟩ => absurd (hadding k) hk⟩
  obtain ⟨k⟩ := (inferInstance : Nonempty κ)
  exact ⟨k, Or.inl (hadding k)⟩

/-- When all are done one entry stands, the newest that was ever added. -/
theorem Inv.settled [LinearOrder ι] [Nonempty κ] (h : Inv s)
    (hdone : ∀ k, s.Lists k []) :
    ∃ m, s.standing = {m} ∧ ∀ x ∈ s.issued, x ≤ m := by
  obtain ⟨k⟩ := (inferInstance : Nonempty κ)
  obtain ⟨m, hm, hmax⟩ := h.newest
    ⟨k, fun hadding => nomatch hadding.symm.trans (hdone k)⟩
  refine ⟨m, Finset.eq_singleton_iff_unique_mem.mpr ⟨hm, fun q hq => ?_⟩, hmax⟩
  by_contra hne
  have hlt : q < m := lt_of_le_of_ne (hmax q (h.issued hq)) hne
  obtain ⟨k', hwaits⟩ | ⟨k', l, hlist, hmem⟩ := h.served q hq ⟨m, hm, hlt⟩
  · obtain hp | hp := hwaits
    · exact nomatch hp.symm.trans (hdone k')
    · exact nomatch hp.symm.trans (hdone k')
  · cases (hdone k').symm.trans hlist
    cases hmem

/-! ### Moves of one party -/

variable [DecidableEq κ]

theorem lists_update {standing issued : Finset ι} {p : Phase ι} :
    Lists ⟨standing, issued, Function.update s.phase k p⟩ k' rest ↔
      k' = k ∧ p = .retiring rest ∨ k' ≠ k ∧ s.Lists k' rest := by
  unfold Lists
  by_cases hk : k' = k
  · subst hk
    simp
  · simp [hk]

theorem lists_retiring {standing issued : Finset ι} {left : List ι} :
    Lists ⟨standing, issued, Function.update s.phase k (.retiring left)⟩ k' rest ↔
      k' = k ∧ left = rest ∨ k' ≠ k ∧ s.Lists k' rest := by
  rw [lists_update, Phase.retiring.injEq]

/-- Moving on by one entry leaves every list a part of what it was. -/
theorem lists_tail {standing issued : Finset ι} {e : ι} {l : List ι}
    (hphase : s.Lists k (e :: rest))
    (hlist :
      Lists ⟨standing, issued, Function.update s.phase k (.retiring rest)⟩ k' l) :
    ∃ l₀, s.Lists k' l₀ ∧ l.Sublist l₀ := by
  obtain ⟨rfl, rfl⟩ | ⟨-, hold⟩ := lists_retiring.mp hlist
  · exact ⟨e :: rest, hphase, List.sublist_cons_self _ _⟩
  · exact ⟨l, hold, List.Sublist.refl _⟩

/-- An entry other than the one that is passed stays on the list. -/
theorem tail_lists {standing issued : Finset ι} {e q : ι} {l : List ι}
    (hphase : s.Lists k (e :: rest)) (hlist : s.Lists k' l) (hq : q ∈ l) (hne : q ≠ e) :
    ∃ l', Lists ⟨standing, issued, Function.update s.phase k (.retiring rest)⟩ k' l' ∧
      q ∈ l' ∧ l'.Sublist l := by
  by_cases hk : k' = k
  · subst hk
    cases hphase.symm.trans hlist
    exact ⟨rest, lists_retiring.mpr (Or.inl ⟨rfl, rfl⟩),
      (List.mem_cons.mp hq).resolve_left hne, List.sublist_cons_self _ _⟩
  · exact ⟨l, lists_retiring.mpr (Or.inr ⟨hk, hlist⟩), hq, List.Sublist.refl _⟩

theorem waits_update {standing issued : Finset ι} (hwaits : s.Waits k')
    (hphase : s.Lists k rest) {p : Phase ι} :
    Waits ⟨standing, issued, Function.update s.phase k p⟩ k' := by
  have hk : k' ≠ k := by
    rintro rfl
    obtain hp | hp := hwaits
    · exact nomatch hp.symm.trans hphase
    · exact nomatch hp.symm.trans hphase
  unfold Waits at hwaits ⊢
  simpa [hk] using hwaits

variable [LinearOrder ι]

theorem Inv.add {e : ι} (h : Inv s) (hphase : s.phase k = .adding)
    (hnew : ∀ x ∈ s.issued, x < e) :
    Inv ⟨insert e s.standing, insert e s.issued,
      Function.update s.phase k .listing⟩ := by
  have hlists : ∀ k' rest, Lists ⟨insert e s.standing, insert e s.issued,
      Function.update s.phase k .listing⟩ k' rest → k' ≠ k ∧ s.Lists k' rest := by
    intro k' rest hlist
    obtain ⟨-, hp⟩ | hold := lists_update.mp hlist
    · cases hp
    · exact hold
  have hwaits : Waits ⟨insert e s.standing, insert e s.issued,
      Function.update s.phase k .listing⟩ k := Or.inr (Function.update_self ..)
  refine ⟨Finset.insert_subset_insert e h.issued, fun k' rest hlist => ?_,
    fun k' rest hlist x hx => ?_, fun k' rest hlist x hx q hq hqx => ?_,
    fun q _ _ => Or.inl ⟨k, hwaits⟩, fun k' rest hlist x hx hgone q hq hqx => ?_,
    fun _ => ⟨e, Finset.mem_insert_self .., fun x hx => ?_⟩⟩
  · exact h.sorted k' rest (hlists k' rest hlist).2
  · obtain ⟨y, hy, hxy⟩ := h.below k' rest (hlists k' rest hlist).2 x hx
    exact ⟨y, Finset.mem_insert_of_mem hy, hxy⟩
  · have hold := (hlists k' rest hlist).2
    obtain rfl | hq := Finset.mem_insert.mp hq
    · exact absurd hqx.le (h.not_below hold hx hnew)
    · exact h.closed k' rest hold x hx q hq hqx
  · have hold := (hlists k' rest hlist).2
    obtain rfl | hq := Finset.mem_insert.mp hq
    · exact absurd hqx.le (h.not_below hold hx hnew)
    · have hgone : x ∉ s.standing := fun hx' => hgone (Finset.mem_insert_of_mem hx')
      obtain ⟨k₁, rest₁, hlist₁, hreach⟩ := h.passed k' rest hold x hx hgone q hq hqx
      refine ⟨k₁, rest₁, lists_update.mpr (Or.inr ⟨?_, hlist₁⟩), hreach⟩
      rintro rfl
      exact nomatch hphase.symm.trans hlist₁
  · obtain rfl | hx := Finset.mem_insert.mp hx
    · exact le_rfl
    · exact (hnew x hx).le

theorem Inv.list (h : Inv s) (hphase : s.phase k = .listing)
    (hsorted : rest.Pairwise (· > ·))
    (hmem : ∀ x, x ∈ rest ↔ x ∈ s.standing ∧ ∃ y ∈ s.standing, x < y) :
    Inv ⟨s.standing, s.issued, Function.update s.phase k (.retiring rest)⟩ := by
  have hother : ∀ {k' l}, s.Lists k' l → k' ≠ k := by
    rintro k' l hlist rfl
    exact nomatch hphase.symm.trans hlist
  refine ⟨h.issued, fun k' l hlist => ?_, fun k' l hlist x hx => ?_,
    fun k' l hlist x hx q hq hqx => ?_, fun q hq hnewer => Or.inr ?_,
    fun k' l hlist x hx hgone q hq hqx => ?_, fun _ => h.newest ⟨k, ?_⟩⟩
  · obtain ⟨rfl, rfl⟩ | ⟨-, hold⟩ := lists_retiring.mp hlist
    · exact hsorted
    · exact h.sorted k' l hold
  · obtain ⟨rfl, rfl⟩ | ⟨-, hold⟩ := lists_retiring.mp hlist
    · exact ((hmem x).mp hx).2
    · exact h.below k' l hold x hx
  · obtain ⟨rfl, rfl⟩ | ⟨-, hold⟩ := lists_retiring.mp hlist
    · exact (hmem q).mpr ⟨hq, x, ((hmem x).mp hx).1, hqx⟩
    · exact h.closed k' l hold x hx q hq hqx
  · exact ⟨k, rest, lists_retiring.mpr (Or.inl ⟨rfl, rfl⟩), (hmem q).mpr ⟨hq, hnewer⟩⟩
  · obtain ⟨rfl, rfl⟩ | ⟨-, hold⟩ := lists_retiring.mp hlist
    · exact absurd ((hmem x).mp hx).1 hgone
    · obtain ⟨k₁, l₁, hlist₁, hreach⟩ := h.passed k' l hold x hx hgone q hq hqx
      exact ⟨k₁, l₁, lists_retiring.mpr (Or.inr ⟨hother hlist₁, hlist₁⟩), hreach⟩
  · rw [hphase]
    exact nofun

theorem Inv.retire {e : ι} (h : Inv s) (hphase : s.Lists k (e :: rest)) :
    Inv ⟨s.standing.erase e, s.issued, Function.update s.phase k (.retiring rest)⟩ := by
  obtain ⟨m, hm, hmax, hne⟩ := h.newest_of_lists hphase (List.mem_cons_self ..)
  have hm' : m ∈ s.standing.erase e := Finset.mem_erase.mpr ⟨hne.symm, hm⟩
  have hbelow := List.pairwise_cons.mp (h.sorted k _ hphase)
  refine ⟨(Finset.erase_subset e _).trans h.issued, fun k' l hlist => ?_,
    fun k' l hlist x hx => ?_, fun k' l hlist x hx q hq hqx => ?_,
    fun q hq hnewer => ?_, fun k' l hlist x hx hgone q hq hqx => ?_,
    fun _ => ⟨m, hm', hmax⟩⟩
  · obtain ⟨l₀, hold, hsub⟩ := lists_tail hphase hlist
    exact (h.sorted k' l₀ hold).sublist hsub
  · obtain ⟨l₀, hold, hsub⟩ := lists_tail hphase hlist
    obtain ⟨y, hy, hxy⟩ := h.below k' l₀ hold x (hsub.subset hx)
    exact ⟨m, hm', hxy.trans_le (hmax y (h.issued hy))⟩
  · obtain ⟨hqe, hstands⟩ := Finset.mem_erase.mp hq
    obtain ⟨rfl, rfl⟩ | ⟨-, hold⟩ := lists_retiring.mp hlist
    · have hmem := h.closed k' _ hphase x (List.mem_cons_of_mem _ hx) q hstands hqx
      exact (List.mem_cons.mp hmem).resolve_left hqe
    · exact h.closed k' l hold x hx q hstands hqx
  · obtain ⟨hqe, hstands⟩ := Finset.mem_erase.mp hq
    obtain ⟨y, hy, hqy⟩ := hnewer
    obtain ⟨k', hwaits⟩ | ⟨k', l, hlist, hmem⟩ :=
      h.served q hstands ⟨y, Finset.mem_of_mem_erase hy, hqy⟩
    · exact Or.inl ⟨k', waits_update hwaits hphase⟩
    · obtain ⟨l', hlist', hmem', -⟩ := tail_lists hphase hlist hmem hqe
      exact Or.inr ⟨k', l', hlist', hmem'⟩
  · obtain ⟨hqe, hstands⟩ := Finset.mem_erase.mp hq
    by_cases hxe : x = e
    · -- the party that retires an entry has all below it on its own list
      subst hxe
      have hmem := h.closed k _ hphase x (List.mem_cons_self ..) q hstands hqx
      exact ⟨k, rest, lists_retiring.mpr (Or.inl ⟨rfl, rfl⟩),
        (List.mem_cons.mp hmem).resolve_left hqe, fun y hy _ => hbelow.1 y hy⟩
    · have hgone : x ∉ s.standing := fun hx' =>
        hgone (Finset.mem_erase.mpr ⟨hxe, hx'⟩)
      obtain ⟨l₀, hold, hsub⟩ := lists_tail hphase hlist
      obtain ⟨k₁, l₁, hlist₁, hmem, hpast⟩ :=
        h.passed k' l₀ hold x (hsub.subset hx) hgone q hstands hqx
      obtain ⟨l', hlist', hmem', hsub'⟩ := tail_lists hphase hlist₁ hmem hqe
      exact ⟨k₁, l', hlist', hmem', fun y hy => hpast y (hsub'.subset hy)⟩

theorem Inv.stop {e : ι} (h : Inv s) (hphase : s.Lists k (e :: rest))
    (hgone : e ∉ s.standing) :
    Inv ⟨s.standing, s.issued, Function.update s.phase k (.retiring [])⟩ := by
  have hold : ∀ {k' l x}, Lists ⟨s.standing, s.issued,
      Function.update s.phase k (.retiring [])⟩ k' l → x ∈ l → s.Lists k' l := by
    intro k' l x hlist hx
    obtain ⟨-, rfl⟩ | ⟨-, hold⟩ := lists_retiring.mp hlist
    · cases hx
    · exact hold
  have hkeep : ∀ {k' l}, k' ≠ k → s.Lists k' l → Lists ⟨s.standing, s.issued,
      Function.update s.phase k (.retiring [])⟩ k' l :=
    fun hk hlist => lists_retiring.mpr (Or.inr ⟨hk, hlist⟩)
  -- what stands and was on the list of the party is below the entry where it stops
  have hbelow : ∀ {q l}, s.Lists k l → q ∈ l → q ∈ s.standing →
      l = e :: rest ∧ q < e := by
    intro q l hlist hq hstands
    cases hphase.symm.trans hlist
    have hne : q ≠ e := fun heq => hgone (heq ▸ hstands)
    exact ⟨rfl, (List.pairwise_cons.mp (h.sorted k _ hphase)).1 q
      ((List.mem_cons.mp hq).resolve_left hne)⟩
  refine ⟨h.issued, fun k' l hlist => ?_,
    fun k' l hlist x hx => h.below k' l (hold hlist hx) x hx,
    fun k' l hlist x hx => h.closed k' l (hold hlist hx) x hx,
    fun q hq hnewer => ?_, fun k' l hlist x hx hgone' q hq hqx => ?_,
    fun _ => h.newest ⟨k, fun hadding => nomatch hadding.symm.trans hphase⟩⟩
  · obtain ⟨-, rfl⟩ | ⟨-, hlist⟩ := lists_retiring.mp hlist
    · exact .nil
    · exact h.sorted k' l hlist
  · obtain ⟨k', hwaits⟩ | ⟨k', l, hlist, hmem⟩ := h.served q hq hnewer
    · exact Or.inl ⟨k', waits_update hwaits hphase⟩
    · by_cases hk : k' = k
      · subst hk
        obtain ⟨k₁, l₁, hk₁, hlist₁, hmem₁, -⟩ :=
          h.takenOver hphase hgone hq (hbelow hlist hmem hq).2
        exact Or.inr ⟨k₁, l₁, hkeep hk₁ hlist₁, hmem₁⟩
      · exact Or.inr ⟨k', l, hkeep hk hlist, hmem⟩
  · obtain ⟨k₁, l₁, hlist₁, hmem₁, hpast⟩ :=
      h.passed k' l (hold hlist hx) x hx hgone' q hq hqx
    by_cases hk : k₁ = k
    · subst hk
      obtain ⟨rfl, hqe⟩ := hbelow hlist₁ hmem₁ hq
      have hex : e < x := hpast e (List.mem_cons_self ..) hqe
      obtain ⟨k₂, l₂, hk₂, hlist₂, hmem₂, hpast₂⟩ := h.takenOver hphase hgone hq hqe
      exact ⟨k₂, l₂, hkeep hk₂ hlist₂, hmem₂,
        fun y hy hqy => (hpast₂ y hy hqy).trans hex⟩
    · exact ⟨k₁, l₁, hkeep hk hlist₁, hmem₁, hpast⟩

/-! ### Every order of steps -/

theorem Inv.step (h : Inv s) (hst : Step s t) : Inv t := by
  cases hst with
  | add hphase hnew => exact h.add hphase hnew
  | list hphase hsorted hmem => exact h.list hphase hsorted hmem
  | retire hphase => exact h.retire hphase
  | stop hphase hgone => exact h.stop hphase hgone

/-- The newest entry that stands is never retired. -/
theorem Inv.newest_stands {m : ι} (h : Inv s) (hst : Step s t) (hm : m ∈ s.standing)
    (hmax : ∀ y ∈ s.standing, y ≤ m) : m ∈ t.standing := by
  cases hst with
  | add hphase hnew => exact Finset.mem_insert_of_mem hm
  | list hphase hsorted hmem => exact hm
  | retire hphase =>
      obtain ⟨y, hy, hey⟩ := h.below _ _ hphase _ (List.mem_cons_self ..)
      exact Finset.mem_erase.mpr ⟨(hey.trans_le (hmax y hy)).ne', hm⟩
  | stop hphase hgone => exact hm

end Race

end Rutilus.Lib
