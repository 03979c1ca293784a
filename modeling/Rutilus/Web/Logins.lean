import Rutilus.Lib.Runs
import Rutilus.Web.Auth

/-!
# Requests at once

Any number of sign-ins, sign-outs, password changes and administration requests
run at once, each interrupted between any two of its calls; any of them may stop
for good, and any call may fail. A request that presents a session touches it
on the way in, at any time.

Four parts of the state are not part of the product. `saves` counts how often a
principal's password was stored, so a number names a password. `Notes.read` is
the password a request has looked up last, `Notes.saved` the one it has stored,
`issued` the one the sign-in behind a session had looked up, and `fence` the
newest password whose change has ended the principal's sessions.
-/

namespace Rutilus.Web.Logins

open Rutilus.Domain Rutilus.Domain.User Rutilus.Lib Rutilus.Store
open Rutilus.Web.Auth

inductive Request where
  | login (request : LoginRequest) (ip : String) (secure : Bool)
  | logout (context : AuthContext)
  | changePassword (context : AuthContext)
      (ip currentPassword newPassword : String)
  | setUserPassword (context : AuthContext) (path : Option PrincipalId)
      (ip newPassword : String)
  | setUserState (context : AuthContext) (path : Option PrincipalId)
      (ip : String) (state : PrincipalState)
  | assignUserRole (context : AuthContext) (path : Option PrincipalId)
      (ip : String) (role : Role)

def Request.program : Request → Prog auth Response
  | .login request ip secure => Auth.login request ip secure
  | .logout context => Auth.logout context
  | .changePassword context ip currentPassword newPassword =>
      Auth.changePassword context ip currentPassword newPassword
  | .setUserPassword context path ip newPassword =>
      Auth.setUserPassword context path ip newPassword
  | .setUserState context path ip state =>
      Auth.setUserState context path ip state
  | .assignUserRole context path ip role =>
      Auth.assignUserRole context path ip role

/-- Whose password the request changes. -/
def Request.changes : Request → Option PrincipalId
  | .changePassword context .. => context.actorPrincipalId
  | .setUserPassword _ path .. => path
  | _ => none

structure Shared where
  store : AuthStore
  saves : PrincipalId → Nat
  fence : PrincipalId → Nat
  issued : SessionId → Nat

/-- What is remembered of a request. -/
structure Notes where
  read : Option (PrincipalId × Nat)
  saved : Option (PrincipalId × Nat)
  deriving DecidableEq

/-- The password that was looked up last. -/
def Notes.version (n : Notes) : Nat :=
  match n.read with
  | some (_, u) => u
  | none => 0

structure Flight where
  request : Request
  notes : Notes
  rest : Prog auth Response

structure State where
  shared : Shared
  flights : List Flight

/-- Any tables; nothing is under way. -/
def Initial (s : State) : Prop :=
  s.shared.saves = (fun _ => 0) ∧ s.shared.fence = (fun _ => 0) ∧
    s.shared.issued = (fun _ => 0) ∧ s.flights = []

/-- Change a function at one argument. -/
def setAt {α β : Type} [DecidableEq α] (f : α → β) (a : α) (b : β) : α → β :=
  fun x => if x = a then b else f x

/-- The books after an answered call. -/
def note (n : Notes) :
    (q : AuthReq) → q.Resp → Shared → Notes × Shared
  | .findPasswordCredential P, .ok (some _), s =>
      ({ n with read := some (P, s.saves P) }, s)
  | .savePasswordCredential credential, .ok _, s =>
      let P := credential.principalId
      ({ n with saved := some (P, s.saves P + 1) },
        { s with saves := setAt s.saves P (s.saves P + 1) })
  | .createSession session, .ok _, s =>
      (n, { s with issued := setAt s.issued session.id n.version })
  | .revokeSessionsForPrincipal P _, .ok _, s => match n.saved with
      | some (P', v) =>
          if P' = P then
            (n, { s with fence := setAt s.fence P (max (s.fence P) v) })
          else (n, s)
      | none => (n, s)
  | _, _, s => (n, s)

variable (derive : Bytes → String → Bytes)

def perform (n : Notes) (o : AuthOracle) (q : AuthReq) (s : Shared) :
    q.Resp × Notes × Shared :=
  let r := performAuth derive o q s.store
  (r.1, note n q r.1 { s with store := r.2 })

inductive Label where
  | begin (request : Request)
  | step (i : Nat) (o : AuthOracle)
  | stop (i : Nat)
  | touch (sessionId : SessionId) (at' : Instant)

def next (s : State) : Label → Option State
  | .begin request => some { s with
      flights := s.flights ++ [⟨request, ⟨none, none⟩, request.program⟩] }
  | .step i o => match s.flights[i]? with
    | some ⟨request, n, .call q k⟩ =>
        let r := perform derive n o q s.shared
        some ⟨r.2.2, s.flights.set i ⟨request, r.2.1, k r.1⟩⟩
    | _ => none
  | .stop i => some { s with flights := s.flights.eraseIdx i }
  | .touch sessionId at' =>
    match touchSession s.shared.store.sessions sessionId at' with
    | .error _ => none
    | .ok sessions => some { s with shared := { s.shared with
        store := { s.shared.store with sessions } } }

abbrev Reachable (s : State) : Prop :=
  Reach Initial (Next (next derive)) s

end Rutilus.Web.Logins
