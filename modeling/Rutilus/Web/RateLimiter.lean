import Mathlib.Logic.Function.Basic
import Rutilus.Lib.Prog
import Rutilus.Lib.Runs
import Rutilus.Lib.Window
import Rutilus.Domain.User

/-!
# The budget of failed sign-ins

Two maps of buckets: one for the user name as it was presented, one for the
address. An attempt first takes a place in both, each under its map's lock; if
the address refuses, the place under the name is given back. A sign-in that
succeeds gives both back, by the tokens it got. Entries expire from the front of
their bucket, and every so many new buckets a sweep removes the empty ones.

An attempt takes up to five locks, so attempts cross at each of them. The times
at one map's lock never go back.

`owner` and `live` are not part of the product: the places that were taken and
not given back, expired or not, in the order they were taken, each with the
number of the call that took it. `refunded` is whether the place of a call is
being given back.
-/

namespace Rutilus.Web.RateLimiter

open Rutilus.Domain Rutilus.Domain.User Rutilus.Lib

/-- Fifteen minutes. -/
def rateWindow : Instant := 15 * 60 * 1000000000

def usernameFailureLimit : Nat := 5

def ipFailureLimit : Nat := 20

def bucketPruneThreshold : Nat := 4096

def rateLimitUsernameChars : Nat := maxPrincipalNameChars

/-- The lower case of the standard library, of a character and of a text. -/
structure Lowercase where
  char : Char → List Char
  text : List Char → List Char

def boundedUsernameKey (lower : Lowercase) (username : String) : String :=
  let trimmed := trim username.toList
  let withinBound := decide (trimmed.length ≤ rateLimitUsernameChars)
  let alreadyCanonical := decide (trimmed = username.toList) &&
    !trimmed.any fun c => (lower.char c).head? ≠ some c
  if withinBound && alreadyCanonical then username
  else String.ofList ((lower.text trimmed).take rateLimitUsernameChars)

/-! ## A map of buckets -/

structure Entry where
  at' : Instant
  ip : String
  token : Nat
  deriving DecidableEq, Repr

structure BucketMap where
  buckets : String → Option (List Entry)
  insertsSincePrune : Nat
  nextToken : Nat

def BucketMap.empty : BucketMap := ⟨fun _ => none, 0, 0⟩

/-- Replace the bucket of one key. -/
def BucketMap.set (m : BucketMap) (key : String) (failures : List Entry) :
    BucketMap :=
  { m with buckets := Function.update m.buckets key (some failures) }

/-- The bucket of a key, and the map with it. -/
def BucketMap.bucket (m : BucketMap) (key : String) : List Entry × BucketMap :=
  match m.buckets key with
  | some failures => (failures, m)
  | none => ([],
      { m.set key [] with insertsSincePrune := m.insertsSincePrune + 1 })

/-- The order of the times makes the front the oldest. -/
def pruneFront (failures : List Entry) (now : Instant) : List Entry :=
  Window.dropOld Entry.at' rateWindow now failures

/-- Take a place under a key if fewer than `limit` entries count. -/
def reserveKey (count : List Entry → Nat) (m : BucketMap) (key ip : String)
    (now : Instant) (limit : Nat) : Option Nat × BucketMap :=
  let token := m.nextToken
  let (bucket, m) := { m with nextToken := token + 1 }.bucket key
  let failures := pruneFront bucket now
  if count failures < limit then
    (some token, m.set key (failures ++ [⟨now, ip, token⟩]))
  else (none, m.set key failures)

/-- Only the failures from the presenting address count. -/
def reserveUsernameKey (m : BucketMap) (key ip : String) (now : Instant)
    (limit : Nat) : Option Nat × BucketMap :=
  reserveKey (fun failures => (failures.filter fun e => e.ip = ip).length)
    m key ip now limit

def reserveIpKey (m : BucketMap) (key : String) (now : Instant)
    (limit : Nat) : Option Nat × BucketMap :=
  reserveKey List.length m key key now limit

def refundKeyByToken (m : BucketMap) (key : String) (token : Nat) :
    BucketMap :=
  match m.buckets key with
  | none => m
  | some failures => m.set key (failures.eraseP fun e => e.token = token)

def pruneExpired (buckets : String → Option (List Entry)) (now : Instant) :
    String → Option (List Entry) :=
  fun key => (buckets key).bind fun failures =>
    let failures := pruneFront failures now
    if failures.isEmpty then none else some failures

/-- A full sweep. -/
def sweep (m : BucketMap) (now : Instant) : BucketMap :=
  { m with buckets := pruneExpired m.buckets now, insertsSincePrune := 0 }

def sweepIfDue (m : BucketMap) (now : Instant) : BucketMap :=
  if bucketPruneThreshold ≤ m.insertsSincePrune then sweep m now else m

/-! ## The calls -/

/-- What is done under one lock. -/
inductive LockReq where
  | reserveUsernameKey (key ip : String) (now : Instant) (limit : Nat)
  | reserveIpKey (key : String) (now : Instant) (limit : Nat)
  | refundUsername (key : String) (token : Nat)
  | refundIp (key : String) (token : Nat)
  | sweepUsername (now : Instant)
  | sweepIp (now : Instant)

abbrev LockReq.Resp : LockReq → Type
  | .reserveUsernameKey .. => Option Nat
  | .reserveIpKey .. => Option Nat
  | _ => Unit

def locks : Sig := ⟨LockReq, LockReq.Resp⟩

abbrev call (q : LockReq) : Prog locks q.Resp := .call (S := locks) q .ret

structure Reservation where
  usernameToken : Nat
  ipToken : Nat
  deriving DecidableEq, Repr

variable (lower : Lowercase)

def reserve (username ip : String) (now : Instant) :
    Prog locks (Option Reservation) := do
  let usernameKey := boundedUsernameKey lower username
  match ← call (.reserveUsernameKey usernameKey ip now usernameFailureLimit)
    with
  | none => return none
  | some usernameToken =>
    match ← call (.reserveIpKey ip now ipFailureLimit) with
    | none =>
      let _ ← call (.refundUsername usernameKey usernameToken)
      let _ ← call (.sweepUsername now)
      let _ ← call (.sweepIp now)
      return none
    | some ipToken =>
      let _ ← call (.sweepUsername now)
      let _ ← call (.sweepIp now)
      return some { usernameToken, ipToken }

def refund (username ip : String) (reservation : Reservation) :
    Prog locks Unit := do
  let _ ← call (.refundUsername (boundedUsernameKey lower username)
    reservation.usernameToken)
  let _ ← call (.refundIp ip reservation.ipToken)
  return ()

/-! ## Runs -/

/-- A place that was taken. -/
structure Slot where
  owner : Nat
  key : String
  entry : Entry
  deriving DecidableEq, Repr

/-- A map, the newest time at its lock, and the places taken in it. -/
structure Books where
  map : BucketMap
  clock : Instant
  live : List Slot

def Books.reserve (b : Books) (r : Option Nat × BucketMap) (owner : Nat)
    (key ip : String) (now : Instant) : Books where
  map := r.2
  clock := now
  live := b.live ++
    (r.1.map fun token => ⟨owner, key, ⟨now, ip, token⟩⟩ : Option Slot).toList

def Books.refund (b : Books) (key : String) (token : Nat) : Books :=
  { b with
    map := refundKeyByToken b.map key token
    live := b.live.filter fun slot =>
      ¬ (slot.key = key ∧ slot.entry.token = token) }

def Books.sweepIfDue (b : Books) (now : Instant) : Books :=
  { b with
    map := RateLimiter.sweepIfDue b.map now, clock := max b.clock now }

/-- A full sweep, due or not. -/
def Books.sweep (b : Books) (now : Instant) : Books :=
  { b with map := RateLimiter.sweep b.map now, clock := max b.clock now }

structure Maps where
  users : Books
  ips : Books

/-- One lock; `none` is a time before an earlier one at the same lock. -/
def perform (owner : Nat) : (q : LockReq) → Maps → Option (q.Resp × Maps)
  | .reserveUsernameKey key ip now limit, s =>
      if now < s.users.clock then none
      else
        let r := reserveUsernameKey s.users.map key ip now limit
        some (r.1, { s with users := s.users.reserve r owner key ip now })
  | .reserveIpKey key now limit, s =>
      if now < s.ips.clock then none
      else
        let r := reserveIpKey s.ips.map key now limit
        some (r.1, { s with ips := s.ips.reserve r owner key key now })
  | .refundUsername key token, s =>
      some ((), { s with users := s.users.refund key token })
  | .refundIp key token, s =>
      some ((), { s with ips := s.ips.refund key token })
  | .sweepUsername now, s =>
      some ((), { s with users := s.users.sweepIfDue now })
  | .sweepIp now, s => some ((), { s with ips := s.ips.sweepIfDue now })

/-- An attempt, or the refund of one by its number. -/
inductive Call where
  | reserve (username ip : String) (now : Instant) (refunded : Bool)
      (rest : Prog locks (Option Reservation))
  | refund (of : Nat) (rest : Prog locks Unit)

structure State where
  maps : Maps
  calls : List Call

/-- The maps are empty; the clock may start anywhere. -/
def Initial (s : State) : Prop :=
  (∃ clock, s.maps = ⟨⟨.empty, clock, []⟩, ⟨.empty, clock, []⟩⟩) ∧ s.calls = []

inductive Label where
  | reserve (username ip : String) (now : Instant)
  | refund (i : Nat)
  | step (i : Nat)

def next (s : State) : Label → Option State
  | .reserve username ip now => some { s with
      calls := s.calls ++
        [.reserve username ip now false (reserve lower username ip now)] }
  | .refund i => match s.calls[i]? with
    | some (.reserve username ip now _ (.ret (some reservation))) => some { s with
        calls := s.calls.set i
            (.reserve username ip now true (.ret (some reservation))) ++
          [.refund i (refund lower username ip reservation)] }
    | _ => none
  | .step i => match s.calls[i]? with
    | some (.reserve username ip now refunded (.call q k)) =>
      (perform i q s.maps).map fun r => ⟨r.2, s.calls.set i
        (.reserve username ip now refunded (k r.1))⟩
    | some (.refund j (.call q k)) =>
      (perform i q s.maps).map fun r => ⟨r.2, s.calls.set i
        (.refund j (k r.1))⟩
    | _ => none

abbrev Reachable (s : State) : Prop :=
  Reach Initial (Next (next lower)) s

end Rutilus.Web.RateLimiter
