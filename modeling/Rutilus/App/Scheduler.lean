import Rutilus.App.World

/-!
# The scheduling loop

Ticks follow one another and never overlap. A tick takes one clock reading,
its sweep instant, lists the recoverable and the queued operations, and runs
two passes side by side: the executor pass takes the listed drives in order, at
most four in flight, each waiting for the write gate of its endpoint; the
monitor pass lists the operations that wait for a Task and polls them one after
the other, stamped with the sweep instant. Submissions arrive at any time. A
crash loses everything but the tables, and the next tick starts over.

Every call of every program is a step of its own, so the runs of this system
are all interleavings.
-/

namespace Rutilus.App.Scheduler

open Rutilus.Domain Rutilus.Lib Rutilus.Store Rutilus.Engine

/-! ## Programs of the loop -/

inductive Flow where
  | execute
  | recover
  deriving DecidableEq, Repr

/-- How one operation of a listing is driven. -/
structure Drive where
  operationId : OperationId
  endpointId : Option EndpointId
  flow : Flow
  deriving DecidableEq, Repr

def Drive.entry (drive : Drive) : Entry :=
  match drive.flow with
  | .execute => .execute
  | .recover => .recover

inductive TickSweepError where
  | recovery (source : EngineError)
  | queuedListing (source : EngineError)
  | monitorRecovery (source : TaskMonitor.TaskMonitorError)
  deriving DecidableEq, Repr

/-- A listed operation is driven by its state; one that waits for a Task is
left to the monitor pass. -/
def driveOf (operation : Operation) : Option Drive :=
  let endpointId := operation.targets.head?.map OperationTarget.endpointId
  match operation.state with
  | .queued | .validating => some ⟨operation.id, endpointId, .execute⟩
  | .running | .verifying => some ⟨operation.id, endpointId, .recover⟩
  | .waitingRemote | .succeeded | .failed | .unknown | .cancelled => none

/-- The two listings a tick starts with. -/
def scan : ExceptT TickSweepError (Prog site) (List Drive) := do
  let recovered ← orThrow recoverPending .recovery
  let queued ← orThrow (list (some .queued)) .queuedListing
  return (recovered ++ queued).filterMap driveOf

/-- The listing the monitor pass starts with. -/
def scanWaiting : ExceptT TickSweepError (Prog site) (List OperationId) := do
  let waiting ← orThrow TaskMonitor.recoverTasks .monitorRecovery
  return waiting.map Operation.id

/-- A request is accepted: the clock is read and the operation stored. -/
def submission (operationId : OperationId) (source : OperationSource)
    (targets : List OperationTarget) (command : RedfishCommand) :
    Prog site Unit := do
  let stamp ← now
  let _ ← (create operationId source targets command stamp).run
  return ()

/-! ## States -/

/-- The bound on drives in flight. -/
def maxConcurrentDrives : Nat := 4

/-- A drive in flight: still at its endpoint's gate, or past it. -/
structure Flight where
  drive : Drive
  rest : Option (Prog site Unit)

inductive MonitorPass where
  | listing (rest : Prog site (Except TickSweepError (List OperationId)))
  | polling (current : Option (OperationId × Prog site Unit))
      (waiting : List OperationId)

/-- The passes of a tick. -/
structure Tick where
  sweep : Instant
  drives : List Drive
  flights : List Flight
  monitor : MonitorPass

inductive Phase where
  | idle
  | scanning (sweep : Instant)
      (rest : Prog site (Except TickSweepError (List Drive)))
  | passes (tick : Tick)

structure State where
  world : World
  phase : Phase
  submissions : List (Prog site Unit)

/-- The site before its first tick. -/
def init : State := ⟨Fleet.init.world, .idle, []⟩

/-! ## Steps -/

inductive TickLabel where
  | take
  | ungated (i : Nat)
  | gate (i : Nat)
  | drive (i : Nat) (o : Oracle)
  | driven (i : Nat)
  | list (o : Oracle)
  | listed
  | poll
  | read (o : Oracle)
  | polled

inductive Label where
  | accept (operationId : OperationId) (source : OperationSource)
      (targets : List OperationTarget) (command : RedfishCommand)
  | submit (i : Nat) (o : Oracle)
  | tick (now : Instant)
  | scan (o : Oracle)
  | scanned
  | pass (l : TickLabel)
  | tickDone
  | crash

/-- The endpoint's gate is free: no drive past its gate holds it. An operation
without targets has no gate. -/
def gateFree (flights : List Flight) : Option EndpointId → Bool
  | none => true
  | some endpointId => flights.all fun flight =>
      flight.rest.isNone || flight.drive.endpointId ≠ some endpointId

/-- The drive at a position, past its gate and with some of it left to do. -/
def Tick.fly (tick : Tick) (i : Nat) (drive : Drive)
    (rest : Prog site Unit) : Tick :=
  { tick with flights := tick.flights.set i ⟨drive, some rest⟩ }

/-- The drive at a position has left. -/
def Tick.land (tick : Tick) (i : Nat) : Tick :=
  { tick with flights := tick.flights.eraseIdx i }

/-- One step of the executor pass or the monitor pass. -/
def Tick.next (posture : Executor.Posture) (w : World) (tick : Tick) :
    TickLabel → Option (World × Tick)
  | .take => match tick.drives with
    | [] => none
    | drive :: drives =>
      if tick.flights.length < maxConcurrentDrives then
        some (w, { tick with drives, flights := tick.flights ++ [⟨drive, none⟩] })
      else none
  | .ungated i => match tick.flights[i]? with
    | some ⟨_, none⟩ => some (w, tick.land i)
    | _ => none
  | .gate i => match tick.flights[i]? with
    | some ⟨drive, none⟩ =>
      if gateFree tick.flights drive.endpointId then
        some (w.note drive.operationId (.began drive.entry),
          tick.fly i drive (drive.entry.program posture drive.operationId))
      else none
    | _ => none
  | .drive i o => match tick.flights[i]? with
    | some ⟨drive, some (.call q k)⟩ =>
      some ((perform drive.operationId drive.entry.caller o q w).2,
        tick.fly i drive
          (k (perform drive.operationId drive.entry.caller o q w).1))
    | _ => none
  | .driven i => match tick.flights[i]? with
    | some ⟨_, some (.ret _)⟩ => some (w, tick.land i)
    | _ => none
  | .list o => match tick.monitor with
    | .listing (.call q k) =>
      some ((answer o q w).2,
        { tick with monitor := .listing (k (answer o q w).1) })
    | _ => none
  | .listed => match tick.monitor with
    | .listing (.ret (.ok waiting)) =>
      some (w, { tick with monitor := .polling none waiting })
    | .listing (.ret (.error _)) =>
      some (w, { tick with monitor := .polling none [] })
    | _ => none
  | .poll => match tick.monitor with
    | .polling none (operationId :: waiting) =>
      some (w.note operationId (.began (.poll tick.sweep)),
        { tick with monitor := .polling (some (operationId,
            (Entry.poll tick.sweep).program posture operationId)) waiting })
    | _ => none
  | .read o => match tick.monitor with
    | .polling (some (operationId, .call q k)) waiting =>
      some ((perform operationId (.monitor tick.sweep) o q w).2,
        { tick with monitor := .polling (some (operationId,
            k (perform operationId (.monitor tick.sweep) o q w).1)) waiting })
    | _ => none
  | .polled => match tick.monitor with
    | .polling (some (_, .ret _)) waiting =>
      some (w, { tick with monitor := .polling none waiting })
    | _ => none

/-- Both passes have drained. -/
def Tick.isDone (tick : Tick) : Bool :=
  match tick.drives, tick.flights, tick.monitor with
  | [], [], .polling none [] => true
  | _, _, _ => false

/-- One step; `none` where the label does not apply. -/
def next (posture : Executor.Posture) (s : State) : Label → Option State
  | .accept operationId source targets command =>
      let thread := submission operationId source targets command
      some { s with submissions := thread :: s.submissions }
  | .submit i o => match s.submissions[i]? with
    | some (.call q k) =>
      some { s with
        world := (answer o q s.world).2
        submissions := s.submissions.set i (k (answer o q s.world).1) }
    | _ => none
  | .tick now => match s.phase with
    | .idle => some { s with
        world := { s.world with clock := now }
        phase := .scanning now Scheduler.scan.run }
    | _ => none
  | .scan o => match s.phase with
    | .scanning sweep (.call q k) => some { s with
        world := (answer o q s.world).2
        phase := .scanning sweep (k (answer o q s.world).1) }
    | _ => none
  | .scanned => match s.phase with
    | .scanning sweep (.ret (.ok drives)) =>
      some { s with phase := .passes ⟨sweep, drives, [], .listing scanWaiting.run⟩ }
    | .scanning _ (.ret (.error _)) => some { s with phase := .idle }
    | _ => none
  | .pass l => match s.phase with
    | .passes tick => (tick.next posture s.world l).map fun r =>
        { s with world := r.1, phase := .passes r.2 }
    | _ => none
  | .tickDone => match s.phase with
    | .passes tick => if tick.isDone then some { s with phase := .idle }
        else none
    | _ => none
  | .crash => some ⟨s.world.crash, .idle, []⟩

end Rutilus.App.Scheduler
