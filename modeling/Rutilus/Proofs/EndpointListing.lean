import Mathlib.Data.Prod.Lex
import Rutilus.App.CenterBoundary
import Rutilus.Store.EndpointListing

/-!
# The listing of an endpoint is a selection of the plain one

The chunks ask for every identity once, so together they give the rows of one
question about all of them, in another order; and the acceptance order leaves no two
rows of the table equal, so sorting brings that question's order back.
-/

namespace Rutilus.Proofs.EndpointListing

open Rutilus.Domain Rutilus.Lib Rutilus.Store Rutilus.Store.EndpointListing

variable {t : OperationTable} {state : Option OperationState}
  {endpointId : EndpointId}

/-- The row has a target on the endpoint. -/
def addressed (endpointId : EndpointId) (row : OperationRow) : Bool :=
  row.targets.any fun target => target.endpointId = endpointId

/-- The operation has a target on the endpoint. -/
def onEndpoint (endpointId : EndpointId) (operation : Operation) : Bool :=
  operation.targets.any fun target => target.endpointId = endpointId

/-! ## Acceptance order -/

theorem acceptedBefore_iff {a b : OperationRow} : acceptedBefore a b ↔
    toLex (a.createdAt, a.id.uuid) ≤ toLex (b.createdAt, b.id.uuid) := by
  rw [Prod.Lex.toLex_le_toLex]
  rfl

instance : Std.Total acceptedBefore :=
  ⟨fun _ _ => by simpa only [acceptedBefore_iff] using le_total _ _⟩

instance : IsTrans OperationRow acceptedBefore :=
  ⟨fun _ _ _ => by simpa only [acceptedBefore_iff] using le_trans⟩

/-- No two rows of the table are equal in the order. -/
theorem acceptedBefore_antisymm {rows : List OperationRow}
    (hrows : ∀ row ∈ rows, row ∈ t.rows) :
    ∀ a ∈ rows, ∀ b ∈ rows, acceptedBefore a b → acceptedBefore b a → a = b := by
  intro a ha b hb hab hba
  rw [acceptedBefore_iff] at hab hba
  have huuid := congrArg (fun k => (ofLex k).2) (le_antisymm hab hba)
  have hid : a.id = b.id := congrArg OperationId.mk huuid
  exact List.inj_on_of_nodup_map t.nodup (hrows a ha) (hrows b hb) hid

/-! ## Identities -/

theorem uuid_injective : Function.Injective OperationId.uuid := by
  intro a b h
  cases a
  cases b
  cases h
  rfl

/-- The identities that are asked for. -/
theorem mem_targetedIds {row : OperationRow} (hrow : row ∈ t.rows) :
    row.id ∈ targetedIds t state endpointId ↔
      addressed endpointId row = true ∧ state.all (row.state = ·) = true := by
  unfold targetedIds joinedTargets addressed
  simp only [List.mem_map, List.mem_filter, List.mem_flatMap, Bool.and_eq_true,
    decide_eq_true_eq, List.any_eq_true]
  constructor
  · rintro ⟨joined, ⟨⟨row', hrow', target, htarget, rfl⟩, hon, hstate⟩, hid⟩
    have hsame : row' = row := List.inj_on_of_nodup_map t.nodup hrow' hrow hid
    rw [hsame] at htarget hstate
    exact ⟨⟨target, htarget, hon⟩, hstate⟩
  · rintro ⟨⟨target, htarget, hon⟩, hstate⟩
    exact ⟨(row, target), ⟨⟨row, hrow, target, htarget, rfl⟩, hon, hstate⟩, rfl⟩

/-- The rows that belong to the listing. -/
def listed (t : OperationTable) (state : Option OperationState)
    (endpointId : EndpointId) : List OperationRow :=
  (t.rows.filter fun row => state.all (row.state = ·)).filter (addressed endpointId)

theorem mem_of_mem_listed {row : OperationRow}
    (h : row ∈ listed t state endpointId) : row ∈ t.rows :=
  List.mem_of_mem_filter (List.mem_of_mem_filter h)

/-- The chunks give the rows of the listing. -/
theorem chunks_perm {ids : List OperationId} (hnodup : ids.Nodup)
    (hids : ∀ id, id ∈ ids ↔ id ∈ targetedIds t state endpointId) :
    ((chunks inParameterChunk ids).flatMap (readChunk t state)).Perm
      (listed t state endpointId) := by
  have hflat := flatten_chunks (n := inParameterChunk) (by decide) ids
  have hstep : ((chunks inParameterChunk ids).flatMap (readChunk t state)).Perm
      ((chunks inParameterChunk ids).flatMap fun part =>
        (t.rows.filter fun row => state.all (row.state = ·)).filter
          fun row => part.contains row.id) := by
    refine List.Perm.flatMap_left _ fun part _ => ?_
    refine (List.perm_insertionSort _ _).trans (.of_eq ?_)
    rw [List.filter_filter]
  have hperm : ((chunks inParameterChunk ids).flatMap fun part =>
      (t.rows.filter fun row => state.all (row.state = ·)).filter
        fun row => part.contains row.id).Perm _ :=
    flatMap_filter_perm (by rwa [hflat])
  refine (hstep.trans hperm).trans (.of_eq ?_)
  rw [hflat]
  refine List.filter_congr fun row hrow => ?_
  obtain ⟨hrow, hstate⟩ := List.mem_filter.mp hrow
  rw [Bool.eq_iff_iff, List.contains_iff_mem, hids, mem_targetedIds hrow]
  exact and_iff_left hstate

theorem listOperationsForEndpoint_eq :
    listOperationsForEndpoint t state endpointId =
      ((listed t state endpointId).insertionSort acceptedBefore).mapM
        mapStoredOperation := by
  have hnodup : (canonical OperationId.uuid
      (targetedIds t state endpointId)).Nodup := by
    refine List.Pairwise.imp ?_ (rising_canonical uuid_injective)
    rintro a b hlt rfl
    exact absurd hlt (lt_irrefl _)
  have hperm : List.Perm _ (listed t state endpointId) :=
    chunks_perm hnodup fun _ => mem_canonical
  unfold listOperationsForEndpoint
  dsimp only
  split
  · next hempty =>
      rw [List.isEmpty_iff.mp hempty, chunks, dif_pos (.inr rfl)] at hperm
      rw [List.nil_perm.mp hperm]
      rfl
  · rw [insertionSort_eq_of_perm hperm (acceptedBefore_antisymm (t := t)
      fun row hrow => mem_of_mem_listed (hperm.mem_iff.mp hrow))]

/-- The listing at the dispatch boundary is this one. -/
theorem boundary_listing :
    App.CenterBoundary.listOperationsForEndpoint t state endpointId =
      listOperationsForEndpoint t state endpointId := by
  rw [listOperationsForEndpoint_eq]
  unfold App.CenterBoundary.listOperationsForEndpoint listed
  rw [List.filter_filter]
  congr 2
  refine List.filter_congr fun row _ => ?_
  exact Bool.and_comm _ _

/-! ## The result -/

theorem onEndpoint_eq (row : OperationRow) (operation : Operation)
    (h : mapStoredOperation row = .ok operation) :
    onEndpoint endpointId operation = addressed endpointId row := by
  unfold mapStoredOperation at h
  split at h
  · next read hread =>
      cases h
      have htargets : operation.targets =
          row.targets.insertionSort fun a b => a.targetId.uuid ≤ b.targetId.uuid := by
        unfold Operation.tryFromParts at hread
        split at hread
        · cases hread
        · cases hread
          rfl
      unfold onEndpoint addressed
      rw [htargets, Bool.eq_iff_iff, List.any_eq_true, List.any_eq_true]
      simp only [List.mem_insertionSort]
  · cases h

end Rutilus.Proofs.EndpointListing
