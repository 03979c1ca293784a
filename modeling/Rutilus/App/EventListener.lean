import Mathlib.Algebra.Group.Nat.Defs
import Mathlib.Data.List.Basic

/-!
# The event listener of an endpoint

One task for an endpoint opens its event stream, pulls one event after the other and
records each, and opens the stream again when it has ended. Failures are counted, each
waits longer than the one before, and the last one of the budget marks the endpoint as
failed. The task is a machine that stands at one call at a time. The stop signal can be
the answer of every call that is awaited together with it: the open, the pull and the
backoff, but not the record of an event and not the close of a stream.
-/

namespace Rutilus.App.EventListener

/-! ## The reconnect policy -/

/-- The longest duration in nanoseconds: the seconds have 64 bits. -/
def durationMax : Nat := 2 ^ 64 * 10 ^ 9 - 1

/-- Durations are in nanoseconds. -/
structure ReconnectPolicy where
  baseInterval : Nat
  factor : Nat
  maxInterval : Nat
  maxAttempts : Nat
  max_fits : maxInterval ≤ durationMax

/-- A multiple of a duration, if that is one. -/
def checkedMul (duration factor : Nat) : Option Nat :=
  if duration * factor ≤ durationMax then some (duration * factor) else none

variable (policy : ReconnectPolicy)

/-- The rest of the loop: the times the factor is still applied, the delay so far. -/
def delayLoop : Nat → Nat → Nat
  | 0, delay => delay
  | n + 1, delay =>
      if delay < policy.maxInterval then
        delayLoop n (min ((checkedMul delay policy.factor).getD policy.maxInterval)
          policy.maxInterval)
      else delay

/-- The wait before the retry after so many failures. -/
def delay (failures : Nat) : Nat := delayLoop policy (failures - 1) policy.baseInterval

/-! ## The task -/

inductive ListenerStatus where
  | listening
  | failed (reason : String)
  deriving DecidableEq, Repr

/-- The call the task stands at; `returned` is none. -/
inductive Await (Handle Event : Type) where
  | openStream
  | pull (stream : Handle)
  | ingest (stream : Handle) (event : Event)
  | close (stream : Handle)
  | sleep (delay : Nat)
  | returned
  deriving DecidableEq, Repr

/-- What a call is answered; `stopped` is the stop signal in place of an answer. -/
inductive Outcome (Handle Event : Type) where
  | stopped
  | opened (stream : Handle)
  | openFailed
  | delivered (event : Event)
  | ended
  | pullFailed
  | recorded
  | recordFailed
  | closed
  | elapsed
  deriving DecidableEq, Repr

variable {Handle Event : Type}

structure Task (Handle Event : Type) where
  awaiting : Await Handle Event
  consecutiveFailures : Nat
  status : ListenerStatus
  deriving DecidableEq, Repr

/-- A task that was just started. -/
def Task.start : Task Handle Event := ⟨.openStream, 0, .listening⟩

def giveUpReason : String :=
  "event stream could not be re-established after " ++ toString policy.maxAttempts ++
    " consecutive failures"

/-- One more failure: the budget is exhausted, or the task waits. -/
def reconnectWait (t : Task Handle Event) : Task Handle Event :=
  let failures := t.consecutiveFailures + 1
  if policy.maxAttempts ≤ failures then
    ⟨.returned, failures, .failed (giveUpReason policy)⟩
  else
    { t with
      awaiting := .sleep (delay policy failures)
      consecutiveFailures := failures }

/-- The call after an answer; a call has no other answers. -/
def step (t : Task Handle Event) (outcome : Outcome Handle Event) :
    Option (Task Handle Event) :=
  match t.awaiting, outcome with
  | .openStream, .stopped => some { t with awaiting := .returned }
  | .openStream, .opened stream => some { t with awaiting := .pull stream }
  | .openStream, .openFailed => some (reconnectWait policy t)
  -- only a stop ends the pulls with a close of the stream
  | .pull stream, .stopped => some { t with awaiting := .close stream }
  | .pull stream, .delivered event =>
      some { t with awaiting := .ingest stream event, consecutiveFailures := 0 }
  | .pull _, .ended => some (reconnectWait policy t)
  | .pull _, .pullFailed => some (reconnectWait policy t)
  -- a record that failed is logged
  | .ingest stream _, .recorded => some { t with awaiting := .pull stream }
  | .ingest stream _, .recordFailed => some { t with awaiting := .pull stream }
  | .close _, .closed => some { t with awaiting := .returned }
  | .sleep _, .stopped => some { t with awaiting := .returned }
  | .sleep _, .elapsed => some { t with awaiting := .openStream }
  | _, _ => none

/-- The calls that were answered, with their answers, in order. -/
abbrev History (Handle Event : Type) : Type :=
  List (Await Handle Event × Outcome Handle Event)

/-- A task that was started has come so far. -/
inductive Run : History Handle Event → Task Handle Event → Prop where
  | start : Run [] .start
  | step {history : History Handle Event} {t t' : Task Handle Event}
      {outcome : Outcome Handle Event} (h : Run history t)
      (hstep : step policy t outcome = some t') :
      Run (history ++ [(t.awaiting, outcome)]) t'

/-- Runs a task on answers: what was answered, and where it stands. -/
def follow : Task Handle Event → List (Outcome Handle Event) →
    Option (History Handle Event × Task Handle Event)
  | t, [] => some ([], t)
  | t, outcome :: outcomes => do
      let t' ← step policy t outcome
      let (history, last) ← follow t' outcomes
      return ((t.awaiting, outcome) :: history, last)

/-- Following a run goes on with it. -/
theorem Run.follow {policy : ReconnectPolicy} {history rest : History Handle Event}
    {t t' : Task Handle Event} {outcomes : List (Outcome Handle Event)}
    (h : Run policy history t) (hfollow : follow policy t outcomes = some (rest, t')) :
    Run policy (history ++ rest) t' := by
  induction outcomes generalizing history rest t with
  | nil =>
      cases hfollow
      rw [List.append_nil]
      exact h
  | cons outcome outcomes ih =>
      obtain ⟨next, hnext, hfollow⟩ := Option.bind_eq_some_iff.mp hfollow
      obtain ⟨⟨later, last⟩, hlater, hfollow⟩ := Option.bind_eq_some_iff.mp hfollow
      cases hfollow
      have hrun := ih (h.step hnext) hlater
      rw [List.append_assoc] at hrun
      exact hrun

theorem run_of_follow {policy : ReconnectPolicy} {history : History Handle Event}
    {t : Task Handle Event} (outcomes : List (Outcome Handle Event))
    (h : follow policy .start outcomes = some (history, t)) : Run policy history t :=
  Run.start.follow h

end Rutilus.App.EventListener
