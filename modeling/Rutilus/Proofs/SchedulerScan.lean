import Rutilus.App.Scheduler
import Rutilus.Lib.Listing
import Rutilus.Lib.Rely

/-!
# What a tick drives

A tick lists the operations state by state, in separate queries. While it does,
no driver is under way, so operations appear and none changes its state: no
operation is listed twice, and each is driven at most once in the tick.
-/

namespace Rutilus.Proofs.SchedulerScan

open Rutilus.Domain Rutilus.Lib Rutilus.Store Rutilus.Engine Rutilus.App
open Rutilus.App.Scheduler

/-! ## The meaning of a listing -/

def IsListing (q : SiteReq) : Prop :=
  ∃ state, q = .operations (.listOperations state)

/-- A listing answers what the table holds, or fails. -/
def ListCall : Sem site OperationTable
  | .operations (.listOperations state), t, r, t' =>
      t' = t ∧ ∀ found, r = .ok found → listOperations t state = .ok found
  | _, _, _, _ => True

/-- Rows are added and none is changed. -/
def Grows (t t' : OperationTable) : Prop :=
  ∀ k row, t.find k = some row → t'.find k = some row

theorem Grows.trans {a b c : OperationTable} (h : Grows a b)
    (h' : Grows b c) : Grows a c :=
  fun k row hrow => h' k row (h k row hrow)

/-- The contract of a program that only lists. -/
abbrev ListSafe {α : Type} (R : OperationTable → OperationTable → Prop)
    (p : Prog site α) (Q : α → OperationTable → Prop) (t : OperationTable) :
    Prop :=
  Safe ListCall R (fun q _ _ => IsListing q) p Q t

theorem answer_listing {q : SiteReq} {o : Oracle} {w : World}
    (h : IsListing q) : (answer o q w).2 = w ∧
      ListCall q w.operations (answer o q w).1 w.operations := by
  obtain ⟨state, rfl⟩ := h
  cases hf : o.fault with
  | some f =>
      simp only [answer, runOperationStore, hf, ListCall]
      exact ⟨trivial, trivial, nofun⟩
  | none =>
      simp only [answer, runOperationStore, hf, ListCall]
      exact ⟨trivial, trivial, fun _ h => h⟩

theorem listCall_answer (q : SiteReq) (o : Oracle) (w : World) :
    ListCall q w.operations (answer o q w).1 (answer o q w).2.operations := by
  cases q with
  | tasks q => trivial
  | outside q => cases q <;> trivial
  | operations q =>
      cases q with
      | listOperations state =>
          have h := answer_listing (o := o) (w := w) ⟨state, rfl⟩
          rw [h.1]
          exact h.2
      | _ => trivial

/-! ## No operation is listed twice -/

/-- Operations of a table, each once, in one of some states. -/
structure Listed (t : OperationTable) (states : List OperationState)
    (found : List Operation) : Prop where
  nodup : (found.map Operation.id).Nodup
  stored : ∀ operation ∈ found, operation.state ∈ states ∧
    ∃ row, t.find operation.id = some row ∧ row.state = operation.state

variable {t t' : OperationTable} {states : List OperationState}
  {state : OperationState} {found rest : List Operation}

theorem Listed.grow (h : Listed t states found) (hg : Grows t t') :
    Listed t' states found where
  nodup := h.nodup
  stored := fun operation hop => by
    obtain ⟨hs, row, hrow, hstate⟩ := h.stored operation hop
    exact ⟨hs, row, hg _ _ hrow, hstate⟩

theorem map_id_of_forall₂ {rows : List OperationRow}
    (h : List.Forall₂ (fun row operation =>
      mapStoredOperation row = .ok operation) rows found) :
    found.map Operation.id = rows.map OperationRow.id := by
  induction h with
  | nil => rfl
  | cons hx _ ih =>
      rw [List.map_cons, List.map_cons, ih, (mapStoredOperation_ok hx).1]

/-- One query. -/
theorem listed_of_ok (h : listOperations t (some state) = .ok found) :
    Listed t [state] found := by
  have hall := forall₂_of_mapM_ok h
  have hperm := List.perm_insertionSort acceptedBefore
    (t.rows.filter fun row => (some state).all (row.state = ·))
  refine ⟨?_, fun operation hop => ?_⟩
  · rw [map_id_of_forall₂ hall]
    refine (hperm.map _).nodup_iff.mpr ?_
    exact t.nodup.sublist (List.filter_sublist.map _)
  · obtain ⟨row, hrow, hmap⟩ := exists_of_mem_mapM h hop
    have hmem := hperm.mem_iff.mp hrow
    rw [List.mem_filter] at hmem
    obtain ⟨hid, -, -, hstate, -⟩ := mapStoredOperation_ok hmap
    have hs : row.state = state := by simpa using hmem.2
    refine ⟨by simp [hstate, hs], row, ?_, hstate.symm⟩
    exact Table.find_eq_some_iff.mpr ⟨hmem.1, hid.symm⟩

/-- Queries for different states have no operation in common. -/
theorem Listed.append {states' : List OperationState}
    (h : Listed t states found) (h' : Listed t states' rest)
    (hd : states.Disjoint states') :
    Listed t (states ++ states') (found ++ rest) where
  nodup := by
    rw [List.map_append, List.nodup_append]
    refine ⟨h.nodup, h'.nodup, ?_⟩
    intro id hid id' hid' heq
    obtain ⟨a, ha, rfl⟩ := List.mem_map.mp hid
    obtain ⟨b, hb, rfl⟩ := List.mem_map.mp hid'
    obtain ⟨hsa, row, hrow, hra⟩ := h.stored a ha
    obtain ⟨hsb, row', hrow', hrb⟩ := h'.stored b hb
    rw [heq, hrow'] at hrow
    cases hrow
    exact hd hsa (hra.symm.trans hrb ▸ hsb)
  stored := by
    intro operation hop
    rw [List.mem_append]
    rcases List.mem_append.mp hop with hop | hop
    · exact ⟨Or.inl (h.stored operation hop).1, (h.stored operation hop).2⟩
    · exact ⟨Or.inr (h'.stored operation hop).1, (h'.stored operation hop).2⟩

theorem Listed.perm {found' : List Operation} (h : Listed t states found)
    (hp : found'.Perm found) : Listed t states found' where
  nodup := (hp.map _).nodup_iff.mpr h.nodup
  stored := fun operation hop => h.stored operation (hp.mem_iff.mp hop)

theorem driveOf_id {operation : Operation} {drive : Drive}
    (h : driveOf operation = some drive) :
    drive.operationId = operation.id := by
  unfold driveOf at h
  split at h <;> cases h <;> rfl

theorem Listed.drives_nodup (h : Listed t states found) :
    ((found.filterMap driveOf).map Drive.operationId).Nodup := by
  refine h.nodup.sublist ?_
  clear h
  induction found with
  | nil => exact .slnil
  | cons operation found ih =>
      cases hd : driveOf operation with
      | none =>
          rw [List.filterMap_cons_none hd]
          exact .cons _ ih
      | some drive =>
          rw [List.filterMap_cons_some hd, List.map_cons, List.map_cons,
            driveOf_id hd]
          exact .cons_cons _ ih

/-! ## The scan -/

variable {α ε : Type}

theorem list_safe {wrap : OperationRepositoryError → ε}
    {state : Option OperationState}
    {R : OperationTable → OperationTable → Prop}
    {Q : Except ε (List Operation) → OperationTable → Prop}
    (herr : ∀ e t', Q (.error e) t')
    (hok : ∀ found t', R t t' → listOperations t' state = .ok found →
      Q (.ok found) t') :
    ListSafe R (orThrow (OperationStore.listOperations state) wrap) Q t := by
  intro t₁ hR r t₂ hA
  obtain ⟨rfl, hA⟩ := hA
  refine ⟨⟨state, rfl⟩, ?_⟩
  cases r with
  | error e => exact herr _ _
  | ok found => exact hok found _ hR (hA found rfl)

theorem listEach_safe (hnodup : states.Nodup)
    {Q : Except EngineError (List Operation) → OperationTable → Prop}
    (herr : ∀ e t', Q (.error e) t')
    (hok : ∀ found t', Grows t t' → Listed t' states found →
      Q (.ok found) t') :
    ListSafe Grows (listEach states : ExceptT EngineError (Prog site) _) Q
      t := by
  induction states generalizing t Q with
  | nil => exact hok [] t (fun _ _ h => h) ⟨List.nodup_nil, by simp⟩
  | cons state states ih =>
      rw [List.nodup_cons] at hnodup
      refine Safe.bindE.mpr (list_safe herr fun found t₁ h₁ hfound => ?_)
      refine Safe.bindE.mpr (ih hnodup.2 herr fun rest t₂ h₂ hrest => ?_)
      refine hok _ t₂ (h₁.trans h₂) ?_
      refine Listed.append ((listed_of_ok hfound).grow h₂) hrest ?_
      intro s hs hs'
      rw [List.mem_singleton] at hs
      exact hnodup.1 (hs ▸ hs')

/-- No operation is driven twice in a tick. -/
def ScanPost (r : Except TickSweepError (List Drive))
    (_ : OperationTable) : Prop :=
  ∀ drives, r = .ok drives → (drives.map Drive.operationId).Nodup

theorem scan_safe : ListSafe Grows scan ScanPost t := by
  unfold scan recoverPending
  refine Safe.bindE.mpr (Safe.orThrow.mpr (Safe.bindE.mpr
    (listEach_safe (by decide) (fun _ _ => nofun) ?_)))
  intro pending t₁ _ hpending
  have hrecovered := hpending.perm (List.perm_insertionSort recoveredBefore _)
  refine Safe.bindE.mpr (Safe.orThrow.mpr (list_safe (fun _ _ => nofun) ?_))
  intro queued t₂ h₂ hqueued drives hdrives
  cases hdrives
  refine ((hrecovered.grow h₂).append (listed_of_ok hqueued) ?_).drives_nodup
  simp [recoverableStates]

/-- The monitor pass lists and nothing else. -/
theorem scanWaiting_safe :
    ListSafe (fun _ _ => True) scanWaiting (fun _ _ => True) t := by
  unfold scanWaiting
  refine Safe.bindE.mpr (Safe.orThrow.mpr ?_)
  exact list_safe (fun _ _ => trivial) fun _ _ _ _ => trivial

end Rutilus.Proofs.SchedulerScan
