import Rutilus.Proofs.SchedulerSim

/-!
# At most one dispatch

Over a whole run of the scheduling loop, with every interleaving of the two
passes, arbitrary answers and crashes between any two steps, the write of an
operation is handed to the BMC at most once, and only after `running` was
stored; and the persisted states of an operation follow the matrix, although
the drivers store their steps unconditionally.
-/

namespace Rutilus.Proofs.Dispatch

open Rutilus.Domain Rutilus.Lib Rutilus.Store Rutilus.App
open Rutilus.Proofs.Lane Rutilus.Proofs.Fleet Rutilus.Proofs.SchedulerSim

/-- The persisted state of an operation. -/
def persisted (s : Scheduler.State) (X : OperationId) : Option OperationState :=
  (s.world.operations.find X).map OperationRow.state

/-- Between two consecutive states of a run the persisted state of an operation
stays, or the operation appears as queued, or it takes one legal step. -/
inductive HistoryStep (X : OperationId) (a b : Scheduler.State) : Prop where
  | same (h : persisted b X = persisted a X)
  | created (h : persisted a X = none) (h' : persisted b X = some .queued)
  | moved (source target : OperationState) (h : persisted a X = some source)
      (h' : persisted b X = some target) (hl : Legal source target)

variable {posture : Executor.Posture} {s s' : Scheduler.State}
  {X : OperationId}

theorem loopStep_any (h : Next (Scheduler.next posture) s s') :
    LoopStep False posture s s' := by
  obtain ⟨l, hl⟩ := h
  exact ⟨l, hl, False.elim⟩

theorem HistoryStep.of_advance {ρ : Regime}
    (h : Advance ρ (view s.world X) (view s'.world X)) :
    HistoryStep X s s' := by
  cases h with
  | same h => exact .same (congrArg (Option.map OperationRow.state) h)
  | create row h h' hs =>
      refine .created (congrArg (Option.map OperationRow.state) h) ?_
      rw [← hs]
      exact congrArg (Option.map OperationRow.state) h'
  | move row row' h h' hs =>
      have hold : persisted s X = some row.state :=
        congrArg (Option.map OperationRow.state) h
      have hnew : persisted s' X = some row'.state :=
        congrArg (Option.map OperationRow.state) h'
      rcases hs with hs | hs
      · exact .same (by rw [hnew, hold, hs])
      · exact .moved _ _ hold hnew hs

/-! ## The log is never cut -/

theorem log_answer (o : Oracle) (q : SiteReq) (w : World) :
    (answer o q w).2.log = w.log := by
  cases q with
  | operations q => rfl
  | tasks q => rfl
  | outside q => cases q <;> rfl

theorem suffix_note (w : World) (Y : OperationId) (e : App.Event) :
    w.log X <:+ (w.note Y e).log X := by
  by_cases hX : X = Y
  · subst hX
    simp [World.note]
  · simp [World.note, hX]

theorem suffix_perform {Y : OperationId} {c : Caller} {o : Oracle}
    {q : SiteReq} {w : World} : w.log X <:+ (perform Y c o q w).2.log X := by
  have h := suffix_note (X := X) (answer o q w).2 Y
    (.made c q (answer o q w).1)
  rw [log_answer] at h
  exact h

theorem suffix_next {s s' : Fleet} {l : Fleet.Label}
    (h : Fleet.next posture s l = some s') :
    s.world.log X <:+ s'.world.log X := by
  cases l with
  | clock t =>
      cases h
      exact List.suffix_refl _
  | submit =>
      simp only [Fleet.next] at h
      split at h <;> cases h
      exact List.suffix_refl _
  | enter =>
      simp only [Fleet.next] at h
      split at h <;> cases h
      exact suffix_note _ _ _
  | call =>
      simp only [Fleet.next] at h
      split at h <;> cases h
      exact suffix_perform
  | leave =>
      simp only [Fleet.next] at h
      split at h <;> cases h
      exact List.suffix_refl _
  | crash =>
      cases h
      exact List.suffix_cons _ _

theorem suffix_loopStep {τ : Prop}
    (h : Reach (· = Scheduler.init) (LoopStep τ posture) s)
    (hs : LoopStep τ posture s s') : s.world.log X <:+ s'.world.log X := by
  obtain ⟨f, hf, hsim⟩ := exists_fleet h
  obtain ⟨l, hl, ht⟩ := hs
  obtain ⟨f', hsim', ⟨l', hl', -⟩ | rfl⟩ := hsim.step hl ht
  · rw [← hsim.world, ← hsim'.world]
    exact suffix_next hl'
  · have hsame : s.world = s'.world := hsim.world.symm.trans hsim'.world
    exact hsame ▸ List.suffix_refl _

/-! ## The result -/

/-- An operation that was dispatched is past its validation. -/
theorem dispatched_state {ρ : Regime} {v : View} (h : Lane.Inv ρ v)
    (hd : dispatches v.log ≠ 0) : ∃ row, v.row = some row ∧
      row.state ≠ .queued ∧ row.state ≠ .validating := by
  cases hrow : v.row with
  | none => exact absurd (h.absent hrow).dispatches hd
  | some row =>
      have hstate := (h.present row hrow).state
      refine ⟨row, rfl, ?_, ?_⟩
      · intro hs
        simp only [StateInv, hs] at hstate
        exact hd hstate.dispatches
      · intro hs
        simp only [StateInv, hs] at hstate
        exact hd hstate.dispatches

/-- In every run of the scheduling loop and for every operation: the log only
grows, it holds at most one dispatch, every dispatch in it comes after a stored
`running`, an operation that was dispatched is past its validation, and the
persisted states follow the matrix from `queued` on. -/
theorem dispatch_at_most_once {ss : List Scheduler.State}
    (h : IsRun (· = Scheduler.init) (Next (Scheduler.next posture)) s ss)
    (X : OperationId) :
    ((s :: ss).IsChain fun a b => a.world.log X <:+ b.world.log X) ∧
    (∀ t ∈ s :: ss, dispatches (t.world.log X) ≤ 1) ∧
    (∀ t ∈ s :: ss, ∀ newer e older,
      t.world.log X = newer ++ e :: older → e.isDispatch = true →
      ∃ p ∈ older, p.persists .running = true) ∧
    (∀ t ∈ s :: ss, dispatches (t.world.log X) ≠ 0 →
      ∃ state, persisted t X = some state ∧ state ≠ .queued ∧
        state ≠ .validating) ∧
    (s :: ss).IsChain (HistoryStep X) := by
  have hany : ∀ t, Reach (· = Scheduler.init) (Next (Scheduler.next posture))
      t → Reach (· = Scheduler.init) (LoopStep False posture) t :=
    fun t ht => ht.mono (fun _ h => h) fun _ _ => loopStep_any
  have hinv : ∀ t ∈ s :: ss, Lane.Inv ⟨False, False⟩ (view t.world X) :=
    fun t ht => lane_inv (hany t (h.reach t ht)) X
  refine ⟨h.chain ?_, fun t ht => (hinv t ht).once, ?_, ?_, h.chain ?_⟩
  · intro a b ha hb
    exact suffix_loopStep (hany a ha) (loopStep_any hb)
  · intro t ht newer e older hlog he
    exact (hinv t ht).after.split hlog he
  · intro t ht hd
    obtain ⟨row, hrow, hq, hv⟩ := dispatched_state (hinv t ht) hd
    exact ⟨row.state, congrArg (Option.map OperationRow.state) hrow, hq, hv⟩
  · intro a b ha hb
    exact .of_advance (lane_advance (hany a ha) (loopStep_any hb) X)

/-- A reset is accepted and dispatched, the process dies before the answer is
acted on, and the next tick gives the operation up. -/
def crashedDispatch : List Scheduler.Label :=
  let o := Oracle.working 101 .supported .accepted .completed
  let scan := List.replicate 5 (.scan o) ++
    [ .scanned, .pass .take, .pass (.gate 0) ]
  [ .accept ⟨1⟩ .standalone [⟨⟨7⟩, ⟨9⟩⟩] (.system (.reset "On"))
  , .submit 0 o, .submit 0 o, .tick 102 ] ++ scan ++
  List.replicate 12 (.pass (.drive 0 o)) ++ [ .crash, .tick 103 ] ++ scan ++
  List.replicate 10 (.pass (.drive 0 o))

theorem dispatch_at_most_once_crashedDispatch :
    (visit (Scheduler.next ⟨.system, .site⟩) Scheduler.init
      crashedDispatch).length = 44 ∧
    ∀ t ∈ Scheduler.init :: visit (Scheduler.next ⟨.system, .site⟩)
      Scheduler.init crashedDispatch, dispatches (t.world.log ⟨1⟩) ≤ 1 :=
  ⟨by decide +kernel, (dispatch_at_most_once (isRun_visit rfl _) ⟨1⟩).2.1⟩

end Rutilus.Proofs.Dispatch

/-!
## Timelines

A stored operation is read back only if it was not updated before it was
created, and one row that is not makes every listing over it fail. The executor
stamps its steps with fresh clock readings; a poll stamps them with the instant
its sweep began. An operation can be driven to its wait within the very tick
that then polls it, so a poll can move a row back in time. If no poll reads a
waiting operation updated after its sweep began, no timeline runs backwards.
-/

namespace Rutilus.Proofs.Timeline

open Rutilus.Domain Rutilus.Lib Rutilus.Store Rutilus.Engine Rutilus.App
open Rutilus.Proofs.Lane Rutilus.Proofs.SchedulerSim

/-- Every row can be read back, and so can every listing: one by state, all
operations, and the restart scan. -/
structure Rehydratable (t : OperationTable) : Prop where
  ordered : ∀ X row, t.find X = some row → row.createdAt ≤ row.updatedAt
  rows : ∀ X row, t.find X = some row →
    ∃ operation, mapStoredOperation row = .ok operation
  list : ∀ state, ∃ found,
    ((Engine.list (T := operationStore) state).run.run
      (runOperationStore none) t).1 = .ok found
  recoverPending : ∃ found,
    ((Engine.recoverPending (T := operationStore)).run.run
      (runOperationStore none) t).1 = .ok found

/-- The row of an operation stays and its update time does not decrease. -/
def TimeStep (X : OperationId) (a b : Scheduler.State) : Prop :=
  ∀ row, a.world.operations.find X = some row →
    ∃ row', b.world.operations.find X = some row' ∧
      row.updatedAt ≤ row'.updatedAt

variable {posture : Executor.Posture} {s s' : Scheduler.State}
  {X : OperationId} {t : OperationTable}

/-! ## Rows in order can be listed -/

theorem mapStoredOperation_of_le {row : OperationRow}
    (h : row.createdAt ≤ row.updatedAt) :
    ∃ operation, mapStoredOperation row = .ok operation := by
  unfold mapStoredOperation Operation.tryFromParts
  rw [if_neg (Int.not_lt.mpr h)]
  exact ⟨_, rfl⟩

theorem listOperations_of_le
    (h : ∀ X row, t.find X = some row → row.createdAt ≤ row.updatedAt)
    (state : Option OperationState) :
    ∃ found, listOperations t state = .ok found := by
  refine exists_mapM_ok fun row hrow => mapStoredOperation_of_le ?_
  rw [List.mem_insertionSort, List.mem_filter] at hrow
  exact h row.id row (Table.find_eq_some_iff.mpr ⟨hrow.1, rfl⟩)

/-! The listings as programs, run on the table with nothing in between. -/

theorem run_list {state : Option OperationState} {found : List Operation}
    (h : listOperations t state = .ok found) :
    (Engine.list (T := operationStore) state).run.run (runOperationStore none)
      t = (.ok found, t) := by
  show ((listOperations t state).mapError EngineError.store, t) = _
  rw [h]
  rfl

theorem run_listEach
    (h : ∀ state, ∃ found, listOperations t state = .ok found)
    (states : List OperationState) : ∃ found,
      (listEach (T := operationStore) states).run.run (runOperationStore none)
        t = (.ok found, t) := by
  induction states with
  | nil => exact ⟨[], rfl⟩
  | cons state states ih =>
      obtain ⟨found, hfound⟩ := h (some state)
      obtain ⟨rest, hrest⟩ := ih
      refine ⟨found ++ rest, ?_⟩
      simp only [listEach, ExceptT.run_bind, Prog.run_bind, run_list hfound,
        hrest]
      rfl

theorem rehydratable_of_le
    (h : ∀ X row, t.find X = some row → row.createdAt ≤ row.updatedAt) :
    Rehydratable t where
  ordered := h
  rows := fun X row hrow => mapStoredOperation_of_le (h X row hrow)
  list := fun state => by
    obtain ⟨found, hfound⟩ := listOperations_of_le h state
    exact ⟨found, by rw [run_list hfound]⟩
  recoverPending := by
    obtain ⟨found, hfound⟩ :=
      run_listEach (listOperations_of_le h) recoverableStates
    refine ⟨found.insertionSort recoveredBefore, ?_⟩
    simp only [Engine.recoverPending, ExceptT.run_bind, Prog.run_bind, hfound]
    rfl

/-! ## The result -/

theorem TimeStep.of_advance
    (h : Advance ⟨True, False⟩ (view s.world X) (view s'.world X)) :
    TimeStep X s s' := by
  intro row hrow
  cases h with
  | same h => exact ⟨row, h.trans hrow, Int.le_refl _⟩
  | create row' h => cases h.symm.trans hrow
  | move row₁ row' h h' hs hc ht =>
      obtain rfl := Option.some_inj.mp (h.symm.trans hrow)
      exact ⟨row', h', (ht trivial).2⟩

/-- In every run of the loop under a clock that never goes backwards, in which
no poll reads a waiting operation updated later than its sweep began: in every
state all rows and all listings can be read back, and the update time of an
operation never decreases. -/
theorem timelines_rehydratable {ss : List Scheduler.State}
    (h : IsRun (· = Scheduler.init) (LoopStep True posture) s ss) :
    (∀ t ∈ s :: ss, Rehydratable t.world.operations) ∧
    ∀ X, (s :: ss).IsChain (TimeStep X) := by
  refine ⟨fun t ht => rehydratable_of_le fun X row hrow => ?_, fun X =>
    h.chain fun a b ha hb => .of_advance (lane_advance ha hb X)⟩
  exact (((lane_inv (h.reach t ht) X).present row hrow).time trivial).1

/-! ## Runs found by evaluation -/

/-- Whether a step reads no waiting operation updated after its sweep
began. -/
def isFresh (s : Scheduler.State) : Scheduler.Label → Bool
  | .pass (.read _) => match s.phase with
    | .passes ⟨sweep, _, _, .polling (some (X, .call q _)) _⟩ =>
        FreshRead (.monitor sweep) q (view s.world X)
    | _ => true
  | _ => true

/-- One step under a clock that does not run backwards. -/
def nextForward (posture : Executor.Posture) (s : Scheduler.State)
    (l : Scheduler.Label) : Option Scheduler.State :=
  (Scheduler.next posture s l).filter fun s' => s.world.clock ≤ s'.world.clock

theorem timely_of_isFresh {l : Scheduler.Label}
    (hclock : s.world.clock ≤ s'.world.clock) (h : isFresh s l = true) :
    Timely s l s' := by
  refine ⟨hclock, ?_⟩
  rintro ⟨sweep, drives, flights, monitor⟩ o X q k waiting rfl hphase hm
  obtain rfl : monitor = .polling (some (X, .call q k)) waiting := hm
  simpa [isFresh, hphase] using h

/-- One step that is moreover fresh. -/
def nextTimely (posture : Executor.Posture) (s : Scheduler.State)
    (l : Scheduler.Label) : Option Scheduler.State :=
  if isFresh s l then nextForward posture s l else none

theorem loopStep_of_nextTimely (h : Next (nextTimely posture) s s') :
    LoopStep True posture s s' := by
  obtain ⟨l, hl⟩ := h
  simp only [nextTimely] at hl
  split at hl
  · next hfresh =>
      obtain ⟨hn, hclock⟩ := Option.filter_eq_some_iff.mp hl
      exact ⟨l, hn, fun _ => timely_of_isFresh (by simpa using hclock) hfresh⟩
  · cases hl

/-- A reset is accepted between the two listings of a tick, driven until it
waits for its Task, and polled by the same tick or by the next one. -/
def waitingReset (first : List Scheduler.Label) : List Scheduler.Label :=
  let accepting := Oracle.working 250 .supported .accepted .completed
  let driving := Oracle.working 300 .supported
    (.asyncTaskAccepted ⟨"/t/1"⟩) .completed
  [ .tick 200 ] ++ List.replicate 4 (.scan accepting) ++
  [ .accept ⟨1⟩ .standalone [⟨⟨7⟩, ⟨9⟩⟩] (.system (.reset "On"))
  , .submit 0 accepting, .submit 0 accepting, .scan accepting, .scanned ] ++
  first ++ [ .pass .take, .pass (.gate 0) ] ++
  List.replicate 17 (.pass (.drive 0 driving))

/-- A listing of the monitor pass, one poll and its first calls. -/
def pollOnce (n : Nat) : List Scheduler.Label :=
  let o := Oracle.working 400 .supported .accepted .completed
  [ .pass (.list o), .pass .listed, .pass .poll ] ++
  List.replicate n (.pass (.read o))

def pollNextTick : List Scheduler.Label :=
  let o := Oracle.working 400 .supported .accepted .completed
  waitingReset [ .pass (.list o), .pass .listed ] ++
  [ .pass (.driven 0), .tickDone, .tick 400 ] ++
  List.replicate 5 (.scan o) ++ [ .scanned ] ++ pollOnce 6

theorem timelines_rehydratable_pollNextTick :
    (visit (nextTimely ⟨.system, .site⟩) Scheduler.init
      pollNextTick).length = 49 ∧
    ∀ t ∈ Scheduler.init :: visit (nextTimely ⟨.system, .site⟩)
      Scheduler.init pollNextTick, Rehydratable t.world.operations := by
  have hrun : IsRun (· = Scheduler.init) (Next (nextTimely ⟨.system, .site⟩))
      Scheduler.init (visit _ _ pollNextTick) := isRun_visit rfl pollNextTick
  refine ⟨by decide +kernel, ?_⟩
  exact (timelines_rehydratable
    ⟨rfl, hrun.2.imp fun _ _ => loopStep_of_nextTimely⟩).1

/-- Polled by the tick that drove it, the operation is moved to a time before
it was created: no later listing can read it back. -/
theorem stale_sweep_not_rehydratable :
    ¬ ∀ (posture : Executor.Posture) (s : Scheduler.State),
        Reach (· = Scheduler.init) (Next (nextForward posture)) s →
        Rehydratable s.world.operations := by
  intro hall
  obtain ⟨s, hs, h⟩ := exists_reach_of_follow (· = Scheduler.init)
    (nextForward ⟨.system, .site⟩) (waitingReset [] ++ pollOnce 6)
    (fun s => (s.world.operations.find ⟨1⟩).any fun row =>
      row.state = .verifying ∧ row.updatedAt < row.createdAt)
    rfl (by decide +kernel)
  simp only [Option.any_eq_true, decide_eq_true_eq] at h
  obtain ⟨row, hrow, -, hlt⟩ := h
  exact absurd ((hall _ s hs).ordered _ row hrow) (Int.not_le.mpr hlt)

end Rutilus.Proofs.Timeline
