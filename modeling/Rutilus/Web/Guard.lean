import Rutilus.Web.Auth
import Rutilus.Web.Routes

/-!
# The session middleware

Every request passes the middleware before the router's handler: it looks up
what the path needs, and where it needs a session it resolves the one the cookie
presents. Each of its calls is answered by what the tables hold at that moment,
and any call may fail; a failed one resolves no session.

The last-use touch is the only write, and its result is ignored.
-/

namespace Rutilus.Web.Guard

open Rutilus.Domain Rutilus.Domain.User Rutilus.Lib Rutilus.Store
open Rutilus.App (AuditActor)
open Rutilus.Web.Auth Rutilus.Web.Routes

/-! ## The request -/

/-- The two headers that are read, where their values are text. -/
structure Headers where
  cookie : Option String
  csrfToken : Option String
  deriving DecidableEq, Repr

structure Request where
  method : Method
  path : String
  headers : Headers
  https : Bool
  deriving DecidableEq, Repr

inductive AuthPolicy where
  | open'
  | guarded
  | pendingBootstrap (armed : Bool)
  deriving DecidableEq, Repr

def AuthPolicy.isGuarded : AuthPolicy → Bool
  | .open' => false
  | .guarded => true
  | .pendingBootstrap armed => armed

def AuthPolicy.isPendingBootstrap : AuthPolicy → Bool
  | .pendingBootstrap _ => true
  | _ => false

/-- What a handler is told of the presenting session. -/
structure AuthContext extends Auth.AuthContext where
  role : Option Role
  assignmentSiteId : Option InstanceId
  deriving DecidableEq, Repr

def AuthContext.unauthenticated (actor : AuditActor) : AuthContext :=
  ⟨⟨actor, none, none⟩, none, none⟩

def AuthContext.ofSession (session : Session)
    (assignment : Option RoleAssignment) : AuthContext :=
  ⟨⟨.user, some session.principalId, some session.id⟩,
    assignment.map RoleAssignment.role, assignment.bind RoleAssignment.siteId⟩

def sessionCookieName : String := "rutilus_session"

/-- One minute. -/
def touchInterval : Int := 60 * 1000000000

/-- The value of the first pair that has the name. -/
def pairValue (name : List Char) (pair : List Char) : Option (List Char) :=
  let pair := trim pair
  if (name ++ ['=']).isPrefixOf pair then
    some (trim (pair.drop (name.length + 1)))
  else none

def cookieValue (headers : Headers) (name : String) : Option String := do
  let cookie ← headers.cookie
  let value ← (cookie.toList.splitOn ';').findSome? (pairValue name.toList)
  some (String.ofList value)

/-! ## The calls -/

/-- A SHA-256 digest. -/
abbrev TokenHash : Type := { bytes : Bytes // bytes.length = 32 }

/-- All of a handler's answer that the middleware looks at. -/
structure HandlerResponse where
  setsCookie : Bool
  deriving DecidableEq, Repr

inductive GuardReq where
  | findSessionByTokenHash (tokenHash : TokenHash)
  | now
  | findPrincipal (principalId : PrincipalId)
  | findRoleAssignment (principalId : PrincipalId)
  | touchSession (sessionId : SessionId) (at' : Instant)
  | runHandler (context : AuthContext)

def GuardReq.Resp : GuardReq → Type
  | .findSessionByTokenHash _ => Except AuthServiceError (Option Session)
  | .now => Instant
  | .findPrincipal _ => Except AuthServiceError (Option Principal)
  | .findRoleAssignment _ => Except AuthServiceError (Option RoleAssignment)
  | .touchSession .. => Except AuthServiceError Unit
  | .runHandler _ => HandlerResponse

def guard : Sig := ⟨GuardReq, GuardReq.Resp⟩

abbrev call (q : GuardReq) : Prog guard q.Resp := .call (S := guard) q .ret

/-! ## The middleware -/

/-- The bytes are folded into one difference, whatever they are. -/
def constantTimeEq (left right : Bytes) : Bool :=
  (left.zip right).foldl
    (fun difference pair => difference ||| (pair.1 ^^^ pair.2)) 0 = 0

def csrfMatches (tokenHash : String → TokenHash) (headers : Headers)
    (expectedHash : Bytes) : Bool :=
  match headers.csrfToken with
  | none => false
  | some presented => constantTimeEq (tokenHash presented).val expectedHash

def Session.isActive (session : Session) (at' : Instant) : Bool :=
  session.revokedAt = none ∧ at' < session.expiresAt

structure Resolved where
  context : AuthContext
  session : Session
  cookie : String
  deriving DecidableEq, Repr

def resolveSession (tokenHash : String → TokenHash) (headers : Headers)
    (mutation : Bool) : Prog guard (Option Resolved) := do
  match cookieValue headers sessionCookieName with
  | none => return none
  | some cookie =>
    match ← call (.findSessionByTokenHash (tokenHash cookie)) with
    | .error _ | .ok none => return none
    | .ok (some session) =>
      let now : Instant ← call .now
      if !Session.isActive session now then return none
      else if mutation && !csrfMatches tokenHash headers session.csrfHash then
        return none
      else match ← call (.findPrincipal session.principalId) with
      | .error _ | .ok none => return none
      | .ok (some principal) =>
        if principal.state ≠ .enabled then return none
        else match ← call (.findRoleAssignment session.principalId) with
        | .error _ => return none
        | .ok assignment =>
          let resolved : Resolved :=
            ⟨.ofSession session assignment, session, cookie⟩
          if touchInterval ≤ now - session.lastUsedAt then
            let _ ← call (.touchSession session.id now)
            return some resolved
          else return some resolved

inductive Answer where
  | handled (response : HandlerResponse) (cookie : Option Cookie)
  | unauthorized (message : String)
  | forbidden (message : String)
  deriving DecidableEq, Repr

def handle (context : AuthContext) : Prog guard Answer := do
  let response ← call (.runHandler context)
  return .handled response none

/-- The part of a path that needs a session. -/
def runWithSession (tokenHash : String → TokenHash) (request : Request)
    (roles : RoleMask) (mutation : Bool) : Prog guard Answer := do
  match ← resolveSession tokenHash request.headers mutation with
  | none => return .unauthorized "a valid session is required"
  | some resolved =>
    if !roles.allows (resolved.context.role.getD .viewer) then
      return .forbidden "this role cannot reach the requested surface"
    else
      let response ← call (.runHandler resolved.context)
      if response.setsCookie then return .handled response none
      else return .handled response (some (.session resolved.cookie
        resolved.session.expiresAt request.https))

def authMiddleware (tokenHash : String → TokenHash) (scope : ConsoleScope)
    (policy : AuthPolicy) (actor : AuditActor) (request : Request) :
    Prog guard Answer :=
  match routeAccess request.method request.path scope with
  | .public' => handle (.unauthenticated actor)
  | .always roles mutation => runWithSession tokenHash request roles mutation
  | .guardedOnly roles mutation =>
    if policy.isGuarded || policy.isPendingBootstrap then
      runWithSession tokenHash request roles mutation
    else handle (.unauthenticated actor)

/-! ## The tables behind the calls -/

/-- What one call finds. -/
structure Moment where
  clock : Instant
  sessions : SessionTable
  principals : PrincipalTable
  roles : RoleTable
  fault : Option AuthServiceError
  response : HandlerResponse

/-- A failed call, or what the tables answer. -/
def Moment.answered {ε α : Type} (m : Moment) (r : Except ε α) :
    Except AuthServiceError α :=
  match m.fault with
  | some e => .error e
  | none => r.mapError fun _ => .failed

def Moment.answer (m : Moment) : (q : GuardReq) → q.Resp
  | .findSessionByTokenHash tokenHash =>
      m.answered (findSessionByTokenHash m.sessions tokenHash.val)
  | .now => m.clock
  | .findPrincipal principalId =>
      m.answered (Store.findPrincipal m.principals principalId)
  | .findRoleAssignment principalId =>
      m.answered (ε := Unit) (.ok (findRoleAssignment m.roles principalId))
  | .touchSession sessionId at' =>
      m.answered ((touchSession m.sessions sessionId at').map fun _ => ())
  | .runHandler _ => m.response

/-- The moments of the calls to come, which may be any, and the contexts the
handler was run with. -/
structure World where
  moments : Nat → Moment
  ran : List AuthContext

def World.perform (w : World) (q : GuardReq) : q.Resp × World :=
  ((w.moments 0).answer q,
    { moments := fun i => w.moments (i + 1)
      ran := match q with
        | .runHandler context => w.ran ++ [context]
        | _ => w.ran })

/-- A program at the moments to come. -/
def runGuard {α : Type} (p : Prog guard α) (w : World) : α × World :=
  p.run (S := guard) (fun q w => World.perform w q) w

/-- The contexts with which the handler of a request is run. -/
def handlerRuns (tokenHash : String → TokenHash) (scope : ConsoleScope)
    (policy : AuthPolicy) (actor : AuditActor) (request : Request)
    (moments : Nat → Moment) : List AuthContext :=
  (runGuard (authMiddleware tokenHash scope policy actor request)
    ⟨moments, []⟩).2.ran

end Rutilus.Web.Guard
