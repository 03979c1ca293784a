import Mathlib.Data.List.DropRight

/-!
# The connect loop of a site

A site keeps connecting to its center until it is stopped. Two refusals carry a verdict
about its binding: that the site is not bound, and that its identity disagrees with the
binding. Each is counted on its own, and a count that reaches its limit ends the loop.
-/

namespace Rutilus.App.ConnectLoop

/-- What a transport says about a failed connect; a failure is neither by default. -/
structure CenterTransport (ε : Type) where
  isNotBound : ε → Bool
  isIdentityMismatch : ε → Bool

structure CenterSyncOptions where
  notBoundAbortAfter : Option UInt64
  identityMismatchAbortAfter : Option UInt64

instance : Inhabited CenterSyncOptions where
  default := { notBoundAbortAfter := some 3, identityMismatchAbortAfter := some 3 }

/-- The verdicts that end the loop. -/
inductive Verdict where
  | notBound
  | identityMismatch
  deriving DecidableEq, Repr

/-- The refusals counted since the last success or different verdict. -/
structure Counters where
  consecutiveNotBound : UInt64
  consecutiveIdentityMismatch : UInt64
  deriving DecidableEq, Repr

def Counters.zero : Counters where
  consecutiveNotBound := 0
  consecutiveIdentityMismatch := 0

/-- One turn of the loop: what the transport answers, how the connection ends, and
whether the stop signal comes before the answer or during the backoff. -/
inductive Turn (ε δ : Type) where
  | stopped
  | connected (outcome : Except δ Unit) (stopped : Bool)
  | failed (error : ε) (stopped : Bool)

/-- Where a turn leaves the loop. -/
inductive Flow where
  | running (counters : Counters)
  | finished (result : Except Verdict Unit)
  deriving DecidableEq

/-- The backoff between two turns. -/
def backoff (stopped : Bool) (counters : Counters) : Flow :=
  if stopped then .finished (.ok ()) else .running counters

/-- Whether a count reaches its limit; there may be none. -/
def reaches (limit : Option UInt64) (count : UInt64) : Bool :=
  match limit with
  | none => false
  | some limit => limit ≤ count

variable {ε δ : Type} (transport : CenterTransport ε) (options : CenterSyncOptions)

/-- A connect that failed. -/
def connectFailed (counters : Counters) (error : ε) (stopped : Bool) : Flow :=
  if transport.isNotBound error then
    let consecutiveNotBound := counters.consecutiveNotBound + 1
    if reaches options.notBoundAbortAfter consecutiveNotBound then
      .finished (.error .notBound)
    else backoff stopped
      { consecutiveNotBound, consecutiveIdentityMismatch := 0 }
  else if transport.isIdentityMismatch error then
    let consecutiveIdentityMismatch := counters.consecutiveIdentityMismatch + 1
    if reaches options.identityMismatchAbortAfter consecutiveIdentityMismatch then
      .finished (.error .identityMismatch)
    else backoff stopped
      { consecutiveNotBound := 0, consecutiveIdentityMismatch }
  -- a generic failure says nothing about the binding
  else backoff stopped counters

def connectTurn (counters : Counters) : Turn ε δ → Flow
  | .stopped => .finished (.ok ())
  | .failed error stopped => connectFailed transport options counters error stopped
  | .connected (.ok ()) _ => .finished (.ok ())
  | .connected (.error _) stopped => backoff stopped .zero

/-- The loop over the turns that have come so far. -/
def connectLoop (counters : Counters) : List (Turn ε δ) → Flow
  | [] => .running counters
  | turn :: turns =>
    match connectTurn transport options counters turn with
    | .running counters => connectLoop counters turns
    | .finished result => .finished result

/-! ### What the outcomes say -/

inductive ConnectOutcome where
  | success
  | refused (verdict : Verdict)
  | other
  deriving DecidableEq, Repr

def CenterSyncOptions.limit (options : CenterSyncOptions) : Verdict → Option UInt64
  | .notBound => options.notBoundAbortAfter
  | .identityMismatch => options.identityMismatchAbortAfter

def CenterTransport.outcome (transport : CenterTransport ε) (error : ε) :
    ConnectOutcome :=
  if transport.isNotBound error then .refused .notBound
  else if transport.isIdentityMismatch error then .refused .identityMismatch
  else .other

/-- The outcome of a turn without a stop request. -/
def Turn.outcome (transport : CenterTransport ε) : Turn ε δ → Option ConnectOutcome
  | .connected (.error _) false => some .success
  | .failed error false => some (transport.outcome error)
  | _ => none

/-- The refusals with a verdict since the last success or refusal with the other one. -/
def refusalsSince (verdict : Verdict) (history : List ConnectOutcome) : Nat :=
  (history.rtakeWhile fun o => o = .refused verdict ∨ o = .other).count
    (.refused verdict)

/-- The last outcome is the limit-th refusal with this verdict since the last success or
refusal with the other one. -/
def AtLimit (options : CenterSyncOptions) (verdict : Verdict)
    (history : List ConnectOutcome) : Prop :=
  history.getLast? = some (.refused verdict) ∧
    ∃ limit, options.limit verdict = some limit ∧
      refusalsSince verdict history = limit.toNat

/-- The loop goes on up to the turn at this position and ends in it. -/
def EndsAt (turns : List (Turn ε δ)) (i : Nat) (result : Except Verdict Unit) : Prop :=
  i < turns.length ∧
    (∃ counters,
      connectLoop transport options .zero (turns.take i) = .running counters) ∧
    connectLoop transport options .zero (turns.take (i + 1)) = .finished result

end Rutilus.App.ConnectLoop
