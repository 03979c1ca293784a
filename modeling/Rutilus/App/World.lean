import Mathlib.Logic.Function.Basic
import Rutilus.App.Executor
import Rutilus.App.TaskMonitor

/-!
# The world the drivers run in

The two tables, the last clock reading, and for each operation the log of what
was done for it: which entry points were called, every call they made with its
answer, and the crashes with the rows they left. The log is not part of the product; it is what claims
about a run refer to.

`perform` is one call of one driver. What the outside answers, and whether the
database fails, is the oracle's choice.
-/

namespace Rutilus.App

open Rutilus.Domain Rutilus.Lib Rutilus.Store

/-- The three entry points that drive an operation. -/
inductive Entry where
  | execute
  | recover
  | poll (sweep : Instant)
  deriving DecidableEq, Repr

/-- Who makes a call: the executor, or a monitor poll of a sweep. -/
inductive Caller where
  | executor
  | monitor (sweep : Instant)
  deriving DecidableEq, Repr

def Entry.caller : Entry → Caller
  | .execute | .recover => .executor
  | .poll sweep => .monitor sweep

inductive Event where
  | began (entry : Entry)
  | made (caller : Caller) (q : SiteReq) (r : q.Resp)
  | crashed (row : Option OperationRow) (task : Option RemoteTask)

structure World where
  operations : OperationTable
  tasks : RemoteTaskTable
  clock : Instant
  log : OperationId → List Event

/-- The choices nobody controls. -/
structure Oracle where
  fault : Option Fault
  outside : (q : OutsideReq) → q.Resp

/-- An outside in which nothing fails: a known endpoint with one observed
capability, a BMC with one answer to a dispatch and one to a Task read, and a
re-read that confirms. -/
def Oracle.working (t : Instant) (capability : CapabilityState)
    (outcome : CommandOutcome) (task : RemoteTaskState) : Oracle where
  fault := none
  outside
    | .now => t
    | .findEndpoint endpointId => .ok (some endpointId)
    | .capabilities _ => .ok (some [⟨.systems, some capability, some t⟩])
    | .findArtifact _ => .ok none
    | .readArtifactBytes _ => .ok []
    | .execute _ _ => .ok outcome
    | .executeUpdate _ _ _ => .ok outcome
    | .verify _ _ => .ok .confirmed
    | .readTask _ _ => .ok (some ⟨some task, none, none, none⟩)
    | .appendAuditEvent _ => .ok ()

/-- The effect of one call on the tables and the clock. -/
def answer (o : Oracle) : (q : SiteReq) → World → q.Resp × World
  | .operations q, w =>
      ((runOperationStore o.fault q w.operations).1,
        { w with operations := (runOperationStore o.fault q w.operations).2 })
  | .tasks q, w =>
      ((runRemoteTaskStore o.fault q w.tasks).1,
        { w with tasks := (runRemoteTaskStore o.fault q w.tasks).2 })
  | .outside .now, w => (o.outside .now, { w with clock := o.outside .now })
  | .outside q, w => (o.outside q, w)

/-- Add an event to the log of an operation. -/
def World.note (w : World) (X : OperationId) (e : Event) : World :=
  { w with log := Function.update w.log X (e :: w.log X) }

/-- A crash leaves the tables as they are. -/
def World.crash (w : World) : World :=
  { w with log := fun X =>
      Event.crashed (w.operations.find X) (w.tasks.find X) :: w.log X }

/-- One call made for operation `X`. -/
def perform (X : OperationId) (c : Caller) (o : Oracle) (q : SiteReq)
    (w : World) : q.Resp × World :=
  ((answer o q w).1, (answer o q w).2.note X (.made c q (answer o q w).1))

/-- The program of an entry point; its result is only logged. -/
def Entry.program (posture : Executor.Posture) (X : OperationId) :
    Entry → Prog site Unit
  | .execute => do
    let _ ← (Executor.executeOperation posture X).run
    return ()
  | .recover => do
    let _ ← (Executor.recoverOperation posture X).run
    return ()
  | .poll sweep => do
    let _ ← (TaskMonitor.poll posture.actor posture.origin X sweep).run
    return ()

/-! ## Reading the log -/

/-- The write was handed to the BMC. -/
def Event.isDispatch : Event → Bool
  | .made _ (.outside (.execute ..)) _ => true
  | .made _ (.outside (.executeUpdate ..)) _ => true
  | _ => false

/-- The dispatch was answered `accepted`. -/
def Event.isAccepted : Event → Bool
  | .made _ (.outside (.execute ..)) (.ok .accepted) => true
  | .made _ (.outside (.executeUpdate ..)) (.ok .accepted) => true
  | _ => false

/-- A re-read of the target answered `confirmed`. -/
def Event.isConfirmed : Event → Bool
  | .made _ (.outside (.verify ..)) (.ok .confirmed) => true
  | _ => false

/-- A read of the Task at a URI that showed a state. -/
def Event.taskRead : Event → Option (TaskUri × RemoteTaskState)
  | .made _ (.outside (.readTask _ uri)) (.ok (some observation)) =>
      observation.state.map fun state => (uri, state)
  | _ => none

/-- A stored step into a state. -/
def Event.persists (state : OperationState) : Event → Bool
  | .made _ (.operations (.applyTransition _ s _)) (.ok ()) => s = state
  | .made _ (.operations (.applyTransitionIfCurrent _ _ s _)) (.ok ()) =>
      s = state
  | _ => false

/-- The executor was entered: an attempt begins. -/
def Event.opensAttempt : Event → Bool
  | .began .execute | .began .recover => true
  | _ => false

/-- The executor's capability pre-flight for a command proved a lack. -/
def Event.provesUnsupported (command : RedfishCommand) : Event → Bool
  | .made .executor (.outside (.capabilities _)) (.ok entries) =>
      Executor.preflightOf command entries = .unsupported
  | _ => false

/-- A pre-flight answer to the executor other than a proven lack: the endpoint
is gone, or its ledger does not prove that the command is unsupported. -/
def Event.deniesUnsupported (command : RedfishCommand) : Event → Bool
  | .made .executor (.outside (.findEndpoint _)) (.ok none) => true
  | .made .executor (.outside (.capabilities _)) (.ok entries) =>
      Executor.preflightOf command entries ≠ .unsupported
  | _ => false

/-- The process died with the operation running and no Task stored: if the
write was handed over, its answer is lost. -/
def Event.losesAnswer : Event → Bool
  | .crashed (some row) none => row.state = .running
  | _ => false

/-- How often the write was handed to the BMC. -/
def dispatches (log : List Event) : Nat := log.countP Event.isDispatch

/-- The Task reads that showed a state, newest first. -/
def taskReads (log : List Event) : List (TaskUri × RemoteTaskState) :=
  log.filterMap Event.taskRead

end Rutilus.App

/-!
## The drivers of all operations

The abstract picture of a site at work: any operation may at any time have one
executor call and one monitor poll under way, the calls of all of them
interleave freely, operations are submitted, the clock is read by others, and
the process may crash and lose everything but the tables. Which driver is
started when is left open here; the scheduler is one way to choose.
-/

namespace Rutilus.App

open Rutilus.Domain Rutilus.Lib Rutilus.Store

/-- The two drivers of an operation. -/
inductive Role where
  | executor
  | monitor
  deriving DecidableEq, Repr

def Entry.role : Entry → Role
  | .execute | .recover => .executor
  | .poll _ => .monitor

/-- A driver under way. -/
structure Thread where
  caller : Caller
  rest : Prog site Unit

structure Fleet where
  world : World
  threads : OperationId → Role → Option Thread

namespace Fleet

/-- The empty site. -/
def init : Fleet :=
  ⟨⟨.empty, .empty, 0, fun _ => []⟩, fun _ _ => none⟩

/-- Replace one driver. -/
def setThread (s : Fleet) (X : OperationId) (role : Role)
    (thread : Option Thread) : Fleet :=
  ⟨s.world, Function.update s.threads X
    (Function.update (s.threads X) role thread)⟩

inductive Label where
  | clock (t : Instant)
  | submit (id : OperationId) (source : OperationSource)
      (targets : List OperationTarget) (command : RedfishCommand)
      (createdAt : Instant)
  | enter (X : OperationId) (entry : Entry)
  | call (X : OperationId) (role : Role) (o : Oracle)
  | leave (X : OperationId) (role : Role)
  | crash

/-- One step; `none` where the label does not apply. -/
def next (posture : Executor.Posture) (s : Fleet) : Label → Option Fleet
  | .clock t => some { s with world := { s.world with clock := t } }
  | .submit id source targets command createdAt =>
      match createOperation s.world.operations
          (Operation.new id source targets command createdAt) with
      | .ok operations => some { s with world := { s.world with operations } }
      | .error _ => none
  | .enter X entry =>
      match s.threads X entry.role with
      | some _ => none
      | none => some (setThread { s with world := s.world.note X (.began entry) }
          X entry.role (some ⟨entry.caller, entry.program posture X⟩))
  | .call X role o =>
      match s.threads X role with
      | some ⟨caller, .call q k⟩ =>
          some (setThread
            { s with world := (perform X caller o q s.world).2 } X role
            (some ⟨caller, k (perform X caller o q s.world).1⟩))
      | _ => none
  | .leave X role =>
      match s.threads X role with
      | some ⟨_, .ret _⟩ => some (setThread s X role none)
      | _ => none
  | .crash => some ⟨s.world.crash, fun _ _ => none⟩

end Fleet

end Rutilus.App
