import Rutilus.App.OperationSubmission
import Rutilus.Lib.Listing
import Rutilus.Lib.Outcome
import Rutilus.Lib.Runs

/-!
# A batch keeps its children

A submission stores nothing or everything: the parent and one operation for each
target. From then on the rows of the children only change in their state, their
time and their classification, so the listing of the batch finds the same children
for ever, as long as it can read them. What it cannot read is a row whose time lies
before its creation, and a transition stores whatever time it is given.
-/

namespace Rutilus.Proofs.BatchSubmission

open Rutilus.Domain Rutilus.Lib Rutilus.Store Rutilus.Store.Batches
open Rutilus.App Rutilus.App.OperationSubmission Rutilus.App.Submissions

variable {ε : Type} {t t' : Tables} {ops ops' : OperationTable}

/-! ## What a submission stores -/

/-- New children are stored one by one. -/
theorem insertChildren_fresh {batchId : BatchOperationId} {children : List Operation}
    (hids : (children.map Operation.id).Nodup)
    (hfree : ∀ child ∈ children, ops.find child.id = none)
    (hone : ∀ child ∈ children, child.targets.length = 1) :
    ∃ ops', insertChildren batchId children ops = .ok ops' ∧
      ops'.rows = ops.rows ++ children.map fun child =>
        rowOf child (some batchId.uuid) := by
  induction children generalizing ops with
  | nil => exact ⟨ops, rfl, by simp⟩
  | cons child rest ih =>
      obtain ⟨hnew, hrest⟩ := List.nodup_cons.mp hids
      have hfind : ops.find child.id = none := hfree child List.mem_cons_self
      have htargets : (child.targets.map OperationTarget.targetId).Nodup := by
        obtain ⟨target, htarget⟩ :=
          List.length_eq_one_iff.mp (hone child List.mem_cons_self)
        rw [htarget]
        exact List.nodup_singleton _
      have hinsert : insertOperationAggregate ops child (some batchId.uuid) =
          .ok (ops.insertNew (rowOf child (some batchId.uuid))) := by
        unfold insertOperationAggregate
        rw [if_neg (by simp [Table.has, hfind]), if_pos htargets]
      have hfree' : ∀ other ∈ rest,
          (ops.insertNew (rowOf child (some batchId.uuid))).find other.id = none := by
        intro other hother
        rw [Table.find_insertNew, if_neg fun h => hnew ?_]
        · exact hfree other (List.mem_cons_of_mem _ hother)
        · exact List.mem_map.mpr ⟨other, hother, h.1.symm⟩
      obtain ⟨ops', hok, hrows⟩ := ih hrest hfree'
        fun other hother => hone other (List.mem_cons_of_mem _ hother)
      refine ⟨ops', ?_, ?_⟩
      · unfold insertChildren
        rw [hinsert]
        exact hok
      · rw [hrows, Table.rows_insertNew (r := rowOf child (some batchId.uuid)) hfind,
          List.append_assoc]
        rfl

section Children

variable {generate : Nat → OperationId} {source : OperationSource}
  {targets : List OperationTarget} {command : RedfishCommand} {now : Instant}

theorem mem_childrenFor {child : Operation}
    (h : child ∈ childrenFor generate source targets command now) :
    ∃ i target, i < targets.length ∧ target ∈ targets ∧
      child = Operation.new (generate i) source [target] command now := by
  obtain ⟨i, hi, rfl⟩ := List.mem_mapIdx.mp h
  exact ⟨i, targets[i], hi, List.getElem_mem hi, rfl⟩

/-- One child for each target. -/
theorem targets_childrenFor :
    (childrenFor generate source targets command now).map Operation.targets =
      targets.map fun target => [target] := by
  refine List.ext_getElem? fun i => ?_
  simp only [childrenFor, List.getElem?_map, List.getElem?_mapIdx, Option.map_map]
  rfl

theorem ids_childrenFor :
    (childrenFor generate source targets command now).map Operation.id =
      (List.range targets.length).map generate := by
  refine List.ext_getElem? fun i => ?_
  simp only [childrenFor, List.getElem?_map, List.getElem?_mapIdx, Option.map_map]
  by_cases hi : i < targets.length
  · rw [List.getElem?_eq_getElem hi, List.getElem?_range hi]
    rfl
  · rw [List.getElem?_eq_none (by simpa using hi),
      List.getElem?_eq_none (by simpa using hi)]
    rfl

theorem nodup_ids_childrenFor
    (hfresh : ∀ i < targets.length, ∀ j < i, generate i ≠ generate j) :
    ((childrenFor generate source targets command now).map Operation.id).Nodup := by
  rw [ids_childrenFor]
  refine List.nodup_range.map_on fun i hi j hj heq => ?_
  rcases Nat.lt_trichotomy i j with hlt | rfl | hlt
  · exact absurd heq.symm (hfresh j (List.mem_range.mp hj) i hlt)
  · rfl
  · exact absurd heq (hfresh i (List.mem_range.mp hi) j hlt)

end Children

/-- The loop over the endpoints finds every repetition. -/
theorem firstDuplicate_none {seen : List EndpointId} {targets : List OperationTarget}
    (h : firstDuplicate seen targets = none) :
    (targets.map OperationTarget.endpointId).Nodup ∧
      ∀ target ∈ targets, target.endpointId ∉ seen := by
  induction targets generalizing seen with
  | nil => exact ⟨.nil, fun _ h => absurd h List.not_mem_nil⟩
  | cons target rest ih =>
      unfold firstDuplicate at h
      split at h
      · cases h
      · next hnew =>
          obtain ⟨hnodup, hrest⟩ := ih h
          refine ⟨List.nodup_cons.mpr ⟨fun hin => ?_, hnodup⟩, fun x hx => ?_⟩
          · obtain ⟨x, hx, heq⟩ := List.mem_map.mp hin
            exact hrest x hx (heq ▸ List.mem_cons_self)
          · rcases List.mem_cons.mp hx with rfl | hx
            · exact hnew
            · exact fun hin => hrest x hx (List.mem_cons_of_mem _ hin)

theorem checkManaged_ok {lookup : Lookup ε} {targets : List OperationTarget}
    (h : checkManaged lookup targets = .ok ()) :
    ∀ target ∈ targets, lookup target.endpointId = .ok true := by
  induction targets with
  | nil => exact fun _ h => absurd h List.not_mem_nil
  | cons target rest ih =>
      unfold checkManaged at h
      split at h
      · cases h
      · cases h
      · next hfound =>
          intro x hx
          rcases List.mem_cons.mp hx with rfl | hx
          · exact hfound
          · exact ih h x hx

/-- What the checks promise. -/
structure Checked (lookup : Lookup ε) (targets : List OperationTarget) : Prop where
  some : targets ≠ []
  bounded : targets.length ≤ maxBatchTargets
  distinct : (targets.map OperationTarget.endpointId).Nodup
  managed : ∀ target ∈ targets, lookup target.endpointId = .ok true

theorem validateTargets_ok {lookup : Lookup ε} {targets : List OperationTarget}
    (h : validateTargets lookup targets = .ok ()) : Checked lookup targets := by
  unfold validateTargets at h
  split at h
  · cases h
  · next hsome =>
      split at h
      · cases h
      · next hbounded =>
          split at h
          · cases h
          · next hdistinct =>
              exact ⟨by simpa using hsome, Nat.not_lt.mp hbounded,
                (firstDuplicate_none hdistinct).1, checkManaged_ok h⟩

/-- The parent and the children, and nothing else. -/
structure Stored (t : Tables) (batch : BatchOperation) (children : List Operation)
    (t' : Tables) : Prop where
  batches : t'.batches.rows = t.batches.rows ++ [batch]
  operations : t'.operations.rows = t.operations.rows ++ children.map fun child =>
    rowOf child (some batch.id.uuid)

section Submit

variable {lookup : Lookup ε} {fault : Option Fault} {batchId : BatchOperationId}
  {generate : Nat → OperationId} {source : OperationSource}
  {targets : List OperationTarget} {command : RedfishCommand} {now : Instant}

variable (source command now) in
theorem createBatch_fresh (hfresh : Fresh t batchId generate targets.length) :
    ∃ t', createBatch t ⟨batchId, source, command, now⟩
        (childrenFor generate source targets command now) = .ok t' ∧
      Stored t ⟨batchId, source, command, now⟩
        (childrenFor generate source targets command now) t' := by
  obtain ⟨hbatch, hfree, hdistinct⟩ := hfresh
  have hnew : ∀ child ∈ childrenFor generate source targets command now,
      t.operations.find child.id = none := by
    intro child hchild
    obtain ⟨i, target, hi, -, rfl⟩ := mem_childrenFor hchild
    exact hfree i hi
  have hone : ∀ child ∈ childrenFor generate source targets command now,
      child.targets.length = 1 := by
    intro child hchild
    obtain ⟨i, target, -, -, rfl⟩ := mem_childrenFor hchild
    rfl
  obtain ⟨ops, hok, hrows⟩ : ∃ ops, insertChildren batchId
      (childrenFor generate source targets command now) t.operations = .ok ops ∧ _ :=
    insertChildren_fresh (nodup_ids_childrenFor hdistinct) hnew hone
  refine ⟨⟨t.batches.insertNew ⟨batchId, source, command, now⟩, ops⟩, ?_,
    Table.rows_insertNew hbatch, hrows⟩
  unfold createBatch
  rw [if_neg (by simp [Table.has, hbatch]), hok]
  rfl

variable (fault batchId generate source targets command now t) in
theorem engineCreateBatch_cases :
    (∃ e, engineCreateBatch fault batchId generate source targets command now t =
      (.error e, t)) ∨
    ∃ t', createBatch t ⟨batchId, source, command, now⟩
        (childrenFor generate source targets command now) = .ok t' ∧
      engineCreateBatch fault batchId generate source targets command now t =
        (.ok (⟨batchId, source, command, now⟩,
          childrenFor generate source targets command now), t') := by
  unfold engineCreateBatch
  split
  · exact .inl ⟨_, rfl⟩
  · split
    · exact .inl ⟨_, rfl⟩
    · dsimp only
      rcases transaction_cases OperationRepositoryError.fault fault t (fun t =>
        (createBatch t ⟨batchId, source, command, now⟩
          (childrenFor generate source targets command now)).map fun t => ((), t)) with
        ⟨e, hfail⟩ | ⟨u, t', -, hbody, hdone⟩
      · rw [hfail]
        exact .inl ⟨_, rfl⟩
      · rw [hdone]
        obtain ⟨stored, hok, heq⟩ := map_ok hbody
        cases heq
        exact .inr ⟨_, hok, rfl⟩

variable (lookup fault source command now) in
/-- A batch submission that fails stores nothing; one that succeeds has passed the
checks and stored the whole batch. -/
theorem submitBatch_cases (hfresh : Fresh t batchId generate targets.length) :
    (∃ e, submitBatch lookup fault batchId generate source targets command now t =
      (.error e, t)) ∨
    Checked lookup targets ∧ ∃ t',
      submitBatch lookup fault batchId generate source targets command now t =
        (.ok (⟨batchId, source, command, now⟩,
          childrenFor generate source targets command now), t') ∧
      Stored t ⟨batchId, source, command, now⟩
        (childrenFor generate source targets command now) t' := by
  unfold submitBatch
  cases hvalid : validateTargets lookup targets with
  | error e => exact .inl ⟨e, rfl⟩
  | ok u =>
      dsimp only
      rcases engineCreateBatch_cases t fault batchId generate source targets command
        now with ⟨e, hfail⟩ | ⟨t', hok, hcreated⟩
      · rw [hfail]
        exact .inl ⟨_, rfl⟩
      · rw [hcreated]
        obtain ⟨stored, hstored, hwhole⟩ :=
          createBatch_fresh source command now hfresh
        cases hok.symm.trans hstored
        exact .inr ⟨validateTargets_ok hvalid, t', rfl, hwhole⟩

theorem create_cases {target : OperationTarget} :
    let ops' := (Prog.run (S := operationStore) (runOperationStore fault)
      (Engine.create (generate 0) source [target] command now) ops).2
    ops' = ops ∨ ∃ target', [target] = [target'] ∧ ops.find (generate 0) = none ∧
      ops' = ops.insertNew (rowOf (Operation.new (generate 0) source [target']
        command now) none) := by
  intro ops'
  have hrun : ops' = (runOperationStore fault (.createOperation
      (Operation.new (generate 0) source [target] command now)) ops).2 := by
    show (Prog.run (S := operationStore) _ (Engine.create ..) ops).2 = _
    unfold Engine.create
    rw [if_neg (by simp), Prog.run_bindE, run_orThrow]
    have hask : Prog.run (S := operationStore) (runOperationStore fault)
        (OperationStore.createOperation (Operation.new (generate 0) source [target]
          command now)) ops =
        runOperationStore fault (.createOperation
          (Operation.new (generate 0) source [target] command now)) ops := rfl
    rw [hask]
    obtain ⟨r, ops'⟩ := runOperationStore fault (.createOperation
      (Operation.new (generate 0) source [target] command now)) ops
    cases r <;> rfl
  rw [hrun]
  cases fault with
  | some f => exact .inl rfl
  | none =>
      simp only [runOperationStore, createOperation, insertOperationAggregate]
      split
      · exact .inl rfl
      · next hnew =>
          have htargets : ((Operation.new (generate 0) source [target] command
              now).targets.map OperationTarget.targetId).Nodup :=
            List.nodup_singleton _
          rw [if_pos htargets]
          refine .inr ⟨target, rfl, ?_, rfl⟩
          simpa [Table.has, Operation.new] using hnew

variable (lookup fault generate source targets command now t) in
/-- A single submission stores one operation with one target, or nothing. -/
theorem submit_cases :
    (submit lookup fault generate source targets command now t).2.batches = t.batches ∧
    ((submit lookup fault generate source targets command now t).2.operations =
        t.operations ∨
      ∃ target, targets = [target] ∧ t.operations.find (generate 0) = none ∧
        (submit lookup fault generate source targets command now t).2.operations =
          t.operations.insertNew (rowOf (Operation.new (generate 0) source [target]
            command now) none)) := by
  unfold submit
  cases hvalid : validateTargets lookup targets with
  | error e => exact ⟨rfl, .inl rfl⟩
  | ok u =>
      have hchecked := validateTargets_ok hvalid
      dsimp only
      split
      · exact ⟨rfl, .inl rfl⟩
      · next hone =>
          refine ⟨rfl, ?_⟩
          obtain ⟨target, rfl⟩ : ∃ target, targets = [target] := by
            have hpos := List.length_pos_of_ne_nil hchecked.some
            exact List.length_eq_one_iff.mp (by omega)
          exact create_cases

end Submit

/-! ## What a call of the store does -/

/-- What of a row never changes. -/
def facts (row : OperationRow) :
    OperationId × OperationSource × List OperationTarget × RedfishCommand × Instant :=
  (row.id, row.source, row.targets, row.command, row.createdAt)

def factsOf (operation : Operation) :
    OperationId × OperationSource × List OperationTarget × RedfishCommand × Instant :=
  (operation.id, operation.source, operation.targets, operation.command,
    operation.createdAt)

/-- The row that a transition is stored on, and the time it is given. -/
def moved (ops : OperationTable) : OperationStoreReq → Option (OperationRow × Instant)
  | .applyTransition operationId _ occurredAt =>
      ((ops.find operationId).filter fun row => !row.state.isTerminal).map
        fun row => (row, occurredAt)
  | .applyTransitionIfCurrent operationId expectedState _ occurredAt =>
      ((ops.find operationId).filter fun row =>
        row.state = expectedState ∧ row.state.isTerminal = false).map
        fun row => (row, occurredAt)
  | _ => none

/-- A row gave way to one with the same facts; its time moved with a transition. -/
structure Replaced (ops : OperationTable) (transition : Option (OperationRow × Instant))
    (row row' : OperationRow) (ops' : OperationTable) : Prop where
  find : ops.find row.id = some row
  facts : facts row' = facts row
  batchId : row'.batchId = row.batchId
  time : row'.updatedAt = row.updatedAt ∨ transition = some (row, row'.updatedAt)
  replace : ops' = ops.replace row'

theorem store_cases (fault : Option Fault) (q : OperationStoreReq)
    (ops : OperationTable) :
    (runOperationStore fault q ops).2 = ops ∨
    (∃ operation, ops.find operation.id = none ∧
      (runOperationStore fault q ops).2 = ops.insertNew (rowOf operation none)) ∨
    fault = none ∧ ∃ row row',
      Replaced ops (moved ops q) row row' (runOperationStore fault q ops).2 := by
  cases fault with
  | some f => exact .inl (runOperationStore_fault f q ops)
  | none => cases q with
    | createOperation operation =>
        simp only [runOperationStore, createOperation, insertOperationAggregate]
        split
        · exact .inl rfl
        · next hnew =>
            split
            · refine .inr (.inl ⟨operation, ?_, rfl⟩)
              simpa [Table.has] using hnew
            · exact .inl rfl
    | findOperation operationId => exact .inl rfl
    | listOperations state => exact .inl rfl
    | applyTransition operationId newState occurredAt =>
        simp only [runOperationStore, applyTransition]
        split
        · exact .inl rfl
        · next row hrow =>
            split
            · exact .inl rfl
            · next hopen =>
                obtain rfl : row.id = operationId := Table.key_of_find hrow
                refine .inr (.inr ⟨trivial, row, { row with
                  state := newState, updatedAt := occurredAt }, hrow, rfl, rfl, .inr ?_, rfl⟩)
                simp only [moved, hrow]
                rw [Option.filter_some_pos (by simpa using hopen)]
                rfl
    | applyTransitionIfCurrent operationId expectedState newState occurredAt =>
        simp only [runOperationStore, applyTransitionIfCurrent]
        split
        · exact .inl rfl
        · next row hrow =>
            split
            · exact .inl rfl
            · next hstate =>
                split
                · exact .inl rfl
                · next hopen =>
                    obtain rfl : row.id = operationId := Table.key_of_find hrow
                    refine .inr (.inr ⟨trivial, row, { row with
                  state := newState, updatedAt := occurredAt }, hrow, rfl, rfl, .inr ?_, rfl⟩)
                    simp only [moved, hrow]
                    rw [Option.filter_some_pos
                      (by simpa using ⟨not_not.mp hstate, eq_false_of_ne_true hopen⟩)]
                    rfl
    | recordFailureKind operationId kind =>
        simp only [runOperationStore, recordFailureKind]
        split
        · exact .inl rfl
        · next row hrow =>
            obtain rfl : row.id = operationId := Table.key_of_find hrow
            exact .inr (.inr ⟨trivial, row, { row with failureKind := some kind }, hrow, rfl,
              rfl, .inl rfl, rfl⟩)

/-! ## The children of a batch -/

theorem childrenOf_replace {transition : Option (OperationRow × Instant)}
    {row row' : OperationRow} (r : Replaced ops transition row row' ops')
    (batchId : BatchOperationId) :
    (childrenOf ops' batchId).map facts = (childrenOf ops batchId).map facts := by
  have hid : row'.id = row.id := congrArg Prod.fst r.facts
  have hsame : ∀ x ∈ ops.rows, x.id = row'.id → x = row := by
    intro x hx heq
    exact List.inj_on_of_nodup_map ops.nodup hx
      (Table.find_eq_some_iff.mp r.find).1 (heq.trans hid)
  rw [r.replace]
  refine map_filter_map_of_kept (fun x hx => ?_) fun x hx => ?_
  · split
    · next heq => rw [hsame x hx heq, r.batchId]
    · rfl
  · split
    · next heq => rw [hsame x hx heq, r.facts]
    · rfl

theorem childrenOf_append {rows : List OperationRow} {batchId : BatchOperationId}
    (hops : ops'.rows = ops.rows ++ rows)
    (hother : ∀ row ∈ rows, row.batchId ≠ some batchId.uuid) :
    childrenOf ops' batchId = childrenOf ops batchId := by
  unfold childrenOf
  have hnone : rows.filter (fun row => row.batchId = some batchId.uuid) = [] :=
    List.filter_eq_nil_iff.mpr (by simpa using hother)
  rw [hops, List.filter_append, hnone, List.append_nil]

/-- Every accepted batch is stored with its children, and every child has its
parent. -/
structure Inv (s : State) : Prop where
  accepted : ∀ b ∈ s.accepted, b.1 ∈ s.tables.batches.rows ∧
    (∀ child ∈ b.2, child.targets.length = 1) ∧
    (childrenOf s.tables.operations b.1.id).map facts = b.2.map factsOf
  linked : ∀ row ∈ s.tables.operations.rows, ∀ u, row.batchId = some u →
    ∃ batch ∈ s.tables.batches.rows, batch.id.uuid = u

variable {s s' : State}

theorem Inv.initial (h : Initial s) : Inv s := by
  obtain ⟨tables, accepted⟩ := s
  obtain ⟨rfl, rfl⟩ := h
  exact ⟨fun _ hb => absurd hb List.not_mem_nil,
    fun _ hrow => absurd hrow List.not_mem_nil⟩

/-- Rows that belong to no batch come to the operations. -/
theorem Inv.append (h : Inv s) {row : OperationRow} (hrow : row.batchId = none)
    (hops : ops'.rows = s.tables.operations.rows ++ [row]) :
    Inv ⟨⟨s.tables.batches, ops'⟩, s.accepted⟩ := by
  refine ⟨fun b hb => ?_, fun x hx u hu => ?_⟩
  · obtain ⟨hin, hone, hfacts⟩ := h.accepted b hb
    refine ⟨hin, hone, ?_⟩
    rw [← hfacts]
    refine congrArg (List.map facts) (childrenOf_append hops fun x hx => ?_)
    rw [List.mem_singleton.mp hx, hrow]
    exact nofun
  · dsimp only at hx
    rw [hops] at hx
    rcases List.mem_append.mp hx with hx | hx
    · exact h.linked x hx u hu
    · rw [List.mem_singleton.mp hx, hrow] at hu
      cases hu

theorem Inv.replace (h : Inv s) {transition : Option (OperationRow × Instant)}
    {row row' : OperationRow}
    (r : Replaced s.tables.operations transition row row' ops') :
    Inv ⟨⟨s.tables.batches, ops'⟩, s.accepted⟩ := by
  refine ⟨fun b hb => ?_, fun x hx u hu => ?_⟩
  · obtain ⟨hin, hone, hfacts⟩ := h.accepted b hb
    exact ⟨hin, hone, (childrenOf_replace r b.1.id).trans hfacts⟩
  · have hid : row'.id = row.id := congrArg Prod.fst r.facts
    dsimp only at hx
    rw [r.replace, Table.mem_replace (hid ▸ r.find)] at hx
    rcases hx with rfl | ⟨hx, -⟩
    · exact h.linked row (Table.find_eq_some_iff.mp r.find).1 u (r.batchId ▸ hu)
    · exact h.linked x hx u hu

/-- A whole batch comes to the tables. -/
theorem Inv.submitted (h : Inv s) {batch : BatchOperation} {children : List Operation}
    (hnew : s.tables.batches.find batch.id = none)
    (hone : ∀ child ∈ children, child.targets.length = 1)
    (hstored : Stored s.tables batch children t') :
    Inv ⟨t', (batch, children) :: s.accepted⟩ := by
  have hfresh : ∀ other ∈ s.tables.batches.rows, other.id.uuid ≠ batch.id.uuid := by
    intro other hother heq
    refine Table.find_eq_none_iff.mp hnew other hother ?_
    exact congrArg BatchOperationId.mk heq
  refine ⟨fun b hb => ?_, fun x hx u hu => ?_⟩
  · dsimp only
    rw [hstored.batches]
    rcases List.mem_cons.mp hb with rfl | hb
    · refine ⟨List.mem_append_right _ (List.mem_singleton_self _), hone, ?_⟩
      have hold : (s.tables.operations.rows.filter fun row =>
          row.batchId = some batch.id.uuid) = [] := by
        refine List.filter_eq_nil_iff.mpr fun row hrow hbatch => ?_
        obtain ⟨other, hother, heq⟩ :=
          h.linked row hrow _ (of_decide_eq_true hbatch)
        exact hfresh other hother heq
      unfold childrenOf
      rw [hstored.operations, List.filter_append, hold, List.nil_append,
        List.filter_map, List.map_map]
      have hall : children.filter ((fun row : OperationRow =>
          decide (row.batchId = some batch.id.uuid)) ∘ fun child =>
            rowOf child (some batch.id.uuid)) = children :=
        List.filter_eq_self.mpr fun child _ => decide_eq_true rfl
      rw [hall]
      rfl
    · obtain ⟨hin, hones, hfacts⟩ := h.accepted b hb
      refine ⟨List.mem_append_left _ hin, hones, ?_⟩
      rw [← hfacts]
      refine congrArg (List.map facts) (childrenOf_append hstored.operations ?_)
      intro row hrow hbatch
      obtain ⟨child, -, rfl⟩ := List.mem_map.mp hrow
      exact hfresh b.1 hin (Option.some.inj hbatch).symm
  · dsimp only at hx ⊢
    rw [hstored.batches]
    rw [hstored.operations] at hx
    rcases List.mem_append.mp hx with hx | hx
    · obtain ⟨other, hother, heq⟩ := h.linked x hx u hu
      exact ⟨other, List.mem_append_left _ hother, heq⟩
    · obtain ⟨child, -, rfl⟩ := List.mem_map.mp hx
      exact ⟨batch, List.mem_append_right _ (List.mem_singleton_self _),
        Option.some.inj hu⟩

/-- What a step does to the tables. -/
inductive Stepped (s : State) : Label ε → State → Prop where
  | same (l : Label ε) : Stepped s l s
  | single (l : Label ε) {ops' : OperationTable} {operation : Operation}
      (hnew : s.tables.operations.find operation.id = none)
      (hops : ops' = s.tables.operations.insertNew (rowOf operation none)) :
      Stepped s l ⟨⟨s.tables.batches, ops'⟩, s.accepted⟩
  | batch (l : Label ε) {t' : Tables} {batch : BatchOperation}
      {children : List Operation}
      (hnew : s.tables.batches.find batch.id = none)
      (hchildren : ∀ child ∈ children, child.targets.length = 1 ∧
        child.updatedAt = child.createdAt)
      (hstored : Stored s.tables batch children t') :
      Stepped s l ⟨t', (batch, children) :: s.accepted⟩
  | replaced (q : OperationStoreReq) {row row' : OperationRow} {ops' : OperationTable}
      (r : Replaced s.tables.operations (moved s.tables.operations q) row row' ops') :
      Stepped s (.store none q) ⟨⟨s.tables.batches, ops'⟩, s.accepted⟩

theorem next_stepped {l : Label ε} (h : next s l = some s') : Stepped s l s' := by
  cases l with
  | submit lookup fault generate source targets command now =>
      cases h
      obtain ⟨hbatches, hops⟩ := submit_cases s.tables lookup fault generate source
        targets command now
      rcases hsubmit : (submit lookup fault generate source targets command now
        s.tables).2 with ⟨batches, operations⟩
      rw [hsubmit] at hbatches hops
      obtain rfl : batches = s.tables.batches := hbatches
      rcases hops with rfl | ⟨target, -, hnew, hops⟩
      · exact .same _
      · exact .single _ hnew hops
  | submitBatch lookup fault batchId generate source targets command now =>
      simp only [next] at h
      split at h
      · next hfresh =>
          cases h
          rcases submitBatch_cases lookup fault source command now hfresh with
            ⟨e, hfail⟩ | ⟨-, t', hok, hstored⟩
          · rw [hfail]
            exact .same _
          · rw [hok]
            refine .batch _ hfresh.1 (fun child hchild => ?_) hstored
            obtain ⟨i, target, -, -, rfl⟩ := mem_childrenFor hchild
            exact ⟨rfl, rfl⟩
      · cases h
  | store fault q =>
      cases h
      rcases store_cases fault q s.tables.operations with
        hsame | ⟨operation, hnew, hops⟩ | ⟨rfl, row, row', r⟩
      · rw [hsame]
        exact .same _
      · exact .single _ hnew hops
      · exact .replaced q r

theorem Inv.next (h : Inv s) {l : Label ε} (hstep : next s l = some s') : Inv s' := by
  cases next_stepped hstep with
  | same => exact h
  | single _ hnew hops =>
      exact h.append (show (rowOf _ none).batchId = none from rfl)
        (hops ▸ Table.rows_insertNew hnew)
  | batch _ hnew hchildren hstored =>
      exact h.submitted hnew (fun child hchild => (hchildren child hchild).1) hstored
  | replaced q r => exact h.replace r

/-! ## Reading the children back -/

/-- The listing of a batch shows exactly its children, each once, by target. -/
def Listed (t : Tables) (b : BatchOperation × List Operation) : Prop :=
  ∃ children, listBatchChildren t b.1.id = .ok children ∧
    children.Pairwise (fun a b => targetUpTo a b = true) ∧
    (children.map fun c => c.1.id).Nodup ∧
    (children.map fun c => factsOf c.1).Perm (b.2.map factsOf)

/-- The children can be read. -/
def OnTime (t : Tables) (batchId : BatchOperationId) : Prop :=
  ∀ row ∈ childrenOf t.operations batchId, row.createdAt ≤ row.updatedAt

theorem mapStoredChild_ok {row : OperationRow} {child : ClassifiedChild}
    (h : mapStoredChild row = .ok child) :
    row.createdAt ≤ row.updatedAt ∧ child.1.id = row.id ∧
      (row.targets.length = 1 → factsOf child.1 = facts row) := by
  obtain ⟨operation, hmap, h⟩ := bind_ok h
  cases h
  obtain ⟨hid, hsource, hcommand, -, hcreated, -, htime⟩ := mapStoredOperation_ok hmap
  refine ⟨htime, hid, fun hone => ?_⟩
  obtain ⟨target, htarget⟩ := List.length_eq_one_iff.mp hone
  simp only [factsOf, facts, hid, hsource, hcommand, hcreated, htarget,
    mapStoredOperation_targets hmap htarget]

/-- Rows with one target each are read back with their facts. -/
theorem facts_of_read {rows : List OperationRow} {read : List ClassifiedChild}
    (hsingle : ∀ row ∈ rows, row.targets.length = 1)
    (hread : rows.mapM mapStoredChild = .ok read) :
    read.map (fun c => factsOf c.1) = rows.map facts := by
  have hall := forall₂_of_mapM_ok hread
  clear hread
  induction hall with
  | nil => rfl
  | cons hchild _ ih =>
      rw [List.map_cons, List.map_cons,
        ih fun row hrow => hsingle row (List.mem_cons_of_mem _ hrow),
        (mapStoredChild_ok hchild).2.2 (hsingle _ List.mem_cons_self)]

theorem exists_mapStoredChild {row : OperationRow}
    (h : row.createdAt ≤ row.updatedAt) : ∃ child, mapStoredChild row = .ok child := by
  unfold mapStoredChild mapStoredOperation Operation.tryFromParts
  rw [if_neg (Int.not_lt.mpr h)]
  exact ⟨_, rfl⟩

theorem pairwise_targetUpTo (children : List ClassifiedChild) :
    (children.insertionSort fun a b => targetUpTo a b).Pairwise
      fun a b => targetUpTo a b = true := by
  have : Std.Total fun a b : ClassifiedChild => targetUpTo a b = true := by
    refine ⟨fun a b => ?_⟩
    unfold targetUpTo
    cases a.1.targets.head? <;> cases b.1.targets.head? <;> simp
    exact Nat.le_total _ _
  have : IsTrans ClassifiedChild fun a b => targetUpTo a b = true := by
    refine ⟨fun a b c hab hbc => ?_⟩
    unfold targetUpTo at hab hbc ⊢
    cases ha : a.1.targets.head? with
    | none => rfl
    | some x => cases hb : b.1.targets.head? with
      | none => rw [ha, hb] at hab; cases hab
      | some y => cases hc : c.1.targets.head? with
        | none => rw [hb, hc] at hbc; cases hbc
        | some z =>
            rw [ha, hb] at hab
            rw [hb, hc] at hbc
            exact decide_eq_true
              ((of_decide_eq_true hab).trans (of_decide_eq_true hbc))
  exact List.pairwise_insertionSort _ children

/-- A batch is listed whole exactly when all its children can be read. -/
theorem Inv.listed_iff (h : Inv s) {b : BatchOperation × List Operation}
    (hb : b ∈ s.accepted) : Listed s.tables b ↔ OnTime s.tables b.1.id := by
  obtain ⟨-, hone, hfacts⟩ := h.accepted b hb
  have hsingle : ∀ row ∈ childrenOf s.tables.operations b.1.id,
      row.targets.length = 1 := by
    intro row hrow
    have hin : facts row ∈ b.2.map factsOf := hfacts ▸ List.mem_map_of_mem hrow
    obtain ⟨child, hchild, heq⟩ := List.mem_map.mp hin
    have htargets : child.targets = row.targets :=
      congrArg (fun f => f.2.2.1) heq
    exact htargets ▸ hone child hchild
  constructor
  · rintro ⟨children, hlist, -⟩ row hrow
    obtain ⟨read, hread, -⟩ := bind_ok hlist
    obtain ⟨child, -, hchild⟩ := exists_mapM_of_mem hread hrow
    exact (mapStoredChild_ok hchild).1
  · intro htime
    obtain ⟨read, hread⟩ := exists_mapM_ok fun row hrow =>
      exists_mapStoredChild (htime row hrow)
    have hperm := List.perm_insertionSort (fun a b => targetUpTo a b = true) read
    refine ⟨read.insertionSort fun a b => targetUpTo a b, ?_,
      pairwise_targetUpTo read, ?_, ?_⟩
    · unfold listBatchChildren
      rw [hread]
      rfl
    · refine (hperm.map fun c => c.1.id).nodup_iff.mpr ?_
      rw [map_of_mapM_ok (fun row child hchild => (mapStoredChild_ok hchild).2.1) hread]
      exact (List.filter_sublist.map OperationRow.id).nodup s.tables.operations.nodup
    · refine (hperm.map fun c => factsOf c.1).trans (List.Perm.of_eq ?_)
      rw [← hfacts]
      exact facts_of_read hsingle hread

/-! ## Times that go backwards -/

/-- The step gives no child of a batch a time before its creation. -/
def Timely (s : State) : Label ε → Prop
  | .store none q => ∀ row time, moved s.tables.operations q = some (row, time) →
      row.batchId ≠ none → row.createdAt ≤ time
  | _ => True

/-- Every child of a batch can be read. -/
def Readable (s : State) : Prop :=
  ∀ row ∈ s.tables.operations.rows, row.batchId ≠ none →
    row.createdAt ≤ row.updatedAt

theorem Readable.next (h : Readable s) {l : Label ε} (htimely : Timely s l)
    (hstep : next s l = some s') : Readable s' := by
  intro x hx hbatch
  cases next_stepped hstep with
  | same => exact h x hx hbatch
  | single _ hnew hops =>
      dsimp only at hx
      rw [hops, Table.rows_insertNew (r := rowOf _ none) hnew] at hx
      rcases List.mem_append.mp hx with hx | hx
      · exact h x hx hbatch
      · rw [List.mem_singleton.mp hx] at hbatch
        exact absurd rfl hbatch
  | batch _ hnew hchildren hstored =>
      dsimp only at hx
      rw [hstored.operations] at hx
      rcases List.mem_append.mp hx with hx | hx
      · exact h x hx hbatch
      · obtain ⟨child, hchild, rfl⟩ := List.mem_map.mp hx
        exact (hchildren child hchild).2.ge
  | @replaced q row row' _ r =>
      have hid : row'.id = row.id := congrArg Prod.fst r.facts
      have hcreated : row'.createdAt = row.createdAt :=
        congrArg (fun f => f.2.2.2.2) r.facts
      dsimp only at hx
      rw [r.replace, Table.mem_replace (hid ▸ r.find)] at hx
      rcases hx with rfl | ⟨hx, -⟩
      · rw [r.batchId] at hbatch
        rw [hcreated]
        rcases r.time with htime | hmoved
        · rw [htime]
          exact h row (Table.find_eq_some_iff.mp r.find).1 hbatch
        · exact htimely row x.updatedAt hmoved hbatch
      · exact h x hx hbatch

/-- A step that gives no child of a batch a time before its creation. -/
def Forward (ε : Type) (s s' : State) : Prop :=
  ∃ l : Label ε, Timely s l ∧ next s l = some s'

theorem inv_of_reach (h : Reach Initial (Next (next (ε := ε))) s) : Inv s :=
  h.inv (fun _ => Inv.initial) fun _ _ hinv ⟨_, hstep⟩ => hinv.next hstep

theorem readable_of_forward (h : Reach Initial (Forward ε) s) : Readable s := by
  refine h.inv (fun s hs row hrow => ?_) fun s s' hs ⟨l, htimely, hstep⟩ =>
    hs.next htimely hstep
  rw [hs.1] at hrow
  cases hrow

theorem Readable.onTime (h : Readable s) (batchId : BatchOperationId) :
    OnTime s.tables batchId := by
  intro row hrow
  obtain ⟨hrow, hbatch⟩ := List.mem_filter.mp hrow
  exact h row hrow (by rw [of_decide_eq_true hbatch]; exact nofun)

/-- A batch whose children lost nothing of what was asked for: one `Queued` operation
for each target, with nothing but it. -/
structure Whole (source : OperationSource) (targets : List OperationTarget)
    (command : RedfishCommand) (now : Instant) (children : List Operation) :
    Prop where
  targets : children.map Operation.targets = targets.map fun target => [target]
  ids : (children.map Operation.id).Nodup
  child : ∀ child ∈ children, child.source = source ∧ child.command = command ∧
    child.state = .queued ∧ child.createdAt = now

theorem whole_childrenFor {generate : Nat → OperationId} {source : OperationSource}
    {targets : List OperationTarget} {command : RedfishCommand} {now : Instant}
    (hfresh : ∀ i < targets.length, ∀ j < i, generate i ≠ generate j) :
    Whole source targets command now
      (childrenFor generate source targets command now) := by
  refine ⟨targets_childrenFor, nodup_ids_childrenFor hfresh, fun child hchild => ?_⟩
  obtain ⟨i, target, -, -, rfl⟩ := mem_childrenFor hchild
  exact ⟨rfl, rfl, rfl, rfl⟩

/-- Whatever the identities are, what comes to the operations are children. -/
theorem insertChildren_rows {batchId : BatchOperationId} {children : List Operation}
    (h : insertChildren batchId children ops = .ok ops') :
    ∀ row ∈ ops'.rows, row ∈ ops.rows ∨
      ∃ child ∈ children, row = rowOf child (some batchId.uuid) := by
  induction children generalizing ops with
  | nil =>
      cases h
      exact fun row hrow => .inl hrow
  | cons child rest ih =>
      obtain ⟨mid, hinsert, h⟩ := bind_ok h
      intro row hrow
      rcases ih h row hrow with hmid | ⟨other, hother, heq⟩
      · unfold insertOperationAggregate at hinsert
        split at hinsert
        · cases hinsert
          exact .inl hmid
        · next hnew =>
            split at hinsert
            · cases hinsert
              rw [Table.rows_insertNew (r := rowOf child _)
                (by simpa [Table.has, rowOf] using hnew)] at hmid
              rcases List.mem_append.mp hmid with hold | hadded
              · exact .inl hold
              · exact .inr ⟨child, List.mem_cons_self, List.mem_singleton.mp hadded⟩
            · cases hinsert
      · exact .inr ⟨other, List.mem_cons_of_mem _ hother, heq⟩

/-- Every row that a call adds has one target. -/
def AddsSingles (ops ops' : OperationTable) : Prop :=
  ∀ row ∈ ops'.rows, row ∉ ops.rows → row.targets.length = 1

theorem submit_addsSingles (lookup : Lookup ε) (fault : Option Fault)
    (generate : Nat → OperationId) (source : OperationSource)
    (targets : List OperationTarget) (command : RedfishCommand) (now : Instant)
    (t : Tables) :
    AddsSingles t.operations
      (submit lookup fault generate source targets command now t).2.operations := by
  intro row hrow hnew
  rcases (submit_cases t lookup fault generate source targets command now).2 with
    hsame | ⟨target, -, hfind, hops⟩
  · exact absurd (hsame ▸ hrow) hnew
  · rw [hops, Table.rows_insertNew (r := rowOf _ none) hfind] at hrow
    rcases List.mem_append.mp hrow with hrow | hrow
    · exact absurd hrow hnew
    · rw [List.mem_singleton.mp hrow]
      rfl

theorem submitBatch_addsSingles (lookup : Lookup ε) (fault : Option Fault)
    (batchId : BatchOperationId) (generate : Nat → OperationId)
    (source : OperationSource) (targets : List OperationTarget)
    (command : RedfishCommand) (now : Instant) (t : Tables) :
    AddsSingles t.operations (submitBatch lookup fault batchId generate source targets
      command now t).2.operations := by
  intro row hrow hnew
  unfold submitBatch at hrow
  split at hrow
  · exact absurd hrow hnew
  · rcases engineCreateBatch_cases t fault batchId generate source targets command
      now with ⟨e, hfail⟩ | ⟨t', hok, hcreated⟩
    · rw [hfail] at hrow
      exact absurd hrow hnew
    · rw [hcreated] at hrow
      unfold createBatch at hok
      split at hok
      · cases hok
        exact absurd hrow hnew
      · obtain ⟨operations, hinsert, hok⟩ := bind_ok hok
        cases hok
        rcases insertChildren_rows hinsert row hrow with hold | ⟨child, hchild, rfl⟩
        · exact absurd hold hnew
        · obtain ⟨i, target, -, -, rfl⟩ := mem_childrenFor hchild
          rfl

/-! ## The whole story -/

def start : State := ⟨.empty, []⟩

/-- A batch of one target is submitted at 10 and its child starts at 9. -/
def rollback : List (Label Unit) :=
  [.submitBatch (fun _ => .ok true) none ⟨1⟩ (fun i => ⟨i⟩) .standalone
      [⟨⟨5⟩, ⟨7⟩⟩] (.system (.reset "On")) 10,
    .store none (.applyTransition ⟨0⟩ .validating 9)]

def unlisted (s : State) : Bool :=
  s.accepted.any fun b => match listBatchChildren s.tables b.1.id with
    | .ok _ => false
    | .error _ => true

theorem rollback_unlists_batch :
    ¬ ∀ s, Reach Initial (Next (next (ε := Unit))) s →
      ∀ b ∈ s.accepted, Listed s.tables b := by
  intro hall
  obtain ⟨s, hs, hbad⟩ := exists_reach_of_follow Initial next rollback unlisted
    (s := start) ⟨rfl, rfl⟩ (by decide)
  obtain ⟨b, hb, hbad⟩ := List.any_eq_true.mp hbad
  obtain ⟨children, hlist, -⟩ := hall s hs b hb
  rw [hlist] at hbad
  cases hbad

/-- A submission stores a whole batch or nothing, and nothing it stores has more or
fewer than one target. While no transition goes back behind the creation of a child,
every accepted batch is listed whole; at any time it is listed whole exactly when no
child is stored with a time before its creation. -/
theorem batch_loses_no_child :
    (∀ (t : Tables) (lookup : Lookup ε) (fault : Option Fault)
      (batchId : BatchOperationId) (generate : Nat → OperationId)
      (source : OperationSource) (targets : List OperationTarget)
      (command : RedfishCommand) (now : Instant),
      Fresh t batchId generate targets.length →
      (∃ e, submitBatch lookup fault batchId generate source targets command now t =
        (.error e, t)) ∨
      Checked lookup targets ∧ ∃ batch children t',
        submitBatch lookup fault batchId generate source targets command now t =
          (.ok (batch, children), t') ∧
        batch = ⟨batchId, source, command, now⟩ ∧
        Whole source targets command now children ∧ Stored t batch children t') ∧
    (∀ s, Reach Initial (Forward ε) s → ∀ b ∈ s.accepted, Listed s.tables b) ∧
    (∀ s, Reach Initial (Next (next (ε := ε))) s → ∀ b ∈ s.accepted,
      (Listed s.tables b ↔ OnTime s.tables b.1.id)) ∧
    (∀ (t : Tables) (lookup : Lookup ε) (fault : Option Fault)
      (batchId : BatchOperationId) (generate : Nat → OperationId)
      (source : OperationSource) (targets : List OperationTarget)
      (command : RedfishCommand) (now : Instant),
      AddsSingles t.operations
        (submit lookup fault generate source targets command now t).2.operations ∧
      AddsSingles t.operations (submitBatch lookup fault batchId generate source
        targets command now t).2.operations) := by
  refine ⟨?_, fun s hs b hb => ?_, fun s hs b hb => (inv_of_reach hs).listed_iff hb,
    fun t lookup fault batchId generate source targets command now =>
      ⟨submit_addsSingles lookup fault generate source targets command now t,
        submitBatch_addsSingles lookup fault batchId generate source targets command
          now t⟩⟩
  · intro t lookup fault batchId generate source targets command now hfresh
    rcases submitBatch_cases lookup fault source command now hfresh with
      hfail | ⟨hchecked, t', hok, hstored⟩
    · exact .inl hfail
    · exact .inr ⟨hchecked, _, _, t', hok, rfl, whole_childrenFor hfresh.2.2, hstored⟩
  · have hreach : Reach Initial (Next (next (ε := ε))) s :=
      hs.mono (fun _ h => h) fun s s' ⟨l, _, hstep⟩ => ⟨l, hstep⟩
    exact ((inv_of_reach hreach).listed_iff hb).mpr
      ((readable_of_forward hs).onTime b.1.id)

end Rutilus.Proofs.BatchSubmission
