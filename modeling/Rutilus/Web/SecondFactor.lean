import Rutilus.Lib.Runs
import Rutilus.Store.Totp
import Rutilus.Web.Auth

/-!
# Sign-ins with a second factor

Any number of sign-ins and activations run at once, each interrupted between any
two of its calls; any of them may stop for good, and any call may fail. Other
requests write principals, passwords and sessions at any time, and enrol
authenticators.

Four things are not part of the product. `accepted` and `activated` are the
steps the two conditional updates have taken, `opened` the steps whose code has
opened a session. `Notes` remembers of a sign-in which authenticator it read,
the step its code was verified for, and the step it has recorded and opened no
session with yet.
-/

namespace Rutilus.Web.SecondFactor

open Rutilus.Domain Rutilus.Domain.User Rutilus.Lib Rutilus.Store
open Rutilus.Web.Auth

/-! ## Activation -/

inductive ActivationReq where
  | now
  | find (authenticatorId : TotpAuthenticatorId)
  | activate (authenticatorId : TotpAuthenticatorId) (activatedAt : Instant)
      (step : Nat)

def ActivationReq.Resp : ActivationReq → Type
  | .now => Instant
  | .find _ => Except TotpRepositoryError (Option TotpAuthenticator)
  | .activate .. => Except TotpRepositoryError Unit

def activationSig : Sig := ⟨ActivationReq, ActivationReq.Resp⟩

variable (hmacSha1 : Bytes → Bytes → Bytes) (derive : Bytes → String → Bytes)

abbrev activationCall (q : ActivationReq) : Prog activationSig q.Resp :=
  .call (S := activationSig) q .ret

/-- The domain checks the code on the row that was read; the store takes the
step. -/
def activation (authenticatorId : TotpAuthenticatorId) (code : String) :
    Prog activationSig Bool := do
  let now ← activationCall .now
  match ← activationCall (.find authenticatorId) with
  | .error _ | .ok none => return false
  | .ok (some authenticator) =>
    match authenticator.activate hmacSha1 code now with
    | .error _ => return false
    | .ok (_, step) =>
      match ← activationCall (.activate authenticatorId now step) with
      | .error _ => return false
      | .ok () => return true

/-! ## The shared state -/

structure Shared where
  store : AuthStore
  totp : TotpTable
  accepted : List (TotpAuthenticatorId × Nat)
  activated : List (TotpAuthenticatorId × Nat)
  opened : List (TotpAuthenticatorId × Nat)

structure Notes where
  factor : Option TotpAuthenticatorId
  verified : Option (TotpAuthenticatorId × Nat)
  token : Option (TotpAuthenticatorId × Nat)
  deriving DecidableEq

def Notes.empty : Notes := ⟨none, none, none⟩

/-- The notes of a sign-in after an answered call. -/
def noteOf (n : Notes) : (q : AuthReq) → q.Resp → Notes
  | .listTotpAuthenticators _, .ok authenticators => { n with
      factor := (authenticators.find? fun a => a.state = .active).map
        TotpAuthenticator.id }
  | .verifyTotp .., some step => { n with
      verified := n.factor.map fun id => (id, step) }
  | .recordTotpStep id step, .ok true => { n with token := some (id, step) }
  | .createSession _, .ok () => { n with token := none }
  | _, _ => n

/-- What the services do, the authenticators included. -/
def performLogin (o : AuthOracle) (n : Notes) :
    (q : AuthReq) → Shared → q.Resp × Shared
  | .listTotpAuthenticators principalId, s => match o.gate with
    | some e => (.error e, s)
    | none => ((listTotpAuthenticators s.totp principalId).mapError
        fun _ => .failed, s)
  | .verifyTotp secret code now lastUsedStep, s =>
      ((verifyTotpCode hmacSha1 secret code now lastUsedStep).toOption, s)
  | .recordTotpStep id step, s => match o.fault with
    | some _ => (.error .failed, s)
    | none => match recordTotpStep s.totp id step with
      | .error _ => (.error .failed, s)
      | .ok (false, totp) => (.ok false, { s with totp })
      | .ok (true, totp) => (.ok true, { s with
          totp, accepted := (id, step) :: s.accepted })
  | .createSession session, s =>
      match performAuth derive o (.createSession session) s.store with
      | (.ok (), store) => (.ok (), { s with
          store, opened := n.verified.toList ++ s.opened })
      | (.error e, store) => (.error e, { s with store })
  | q, s =>
      let r := performAuth derive o q s.store
      (r.1, { s with store := r.2 })

def performActivation (o : AuthOracle) :
    (q : ActivationReq) → Shared → q.Resp × Shared
  | .now, s => (o.clock, s)
  | .find id, s => match o.fault with
    | some f => (.error (.fault f), s)
    | none => (findTotpAuthenticator s.totp id, s)
  | .activate id activatedAt step, s => match o.fault with
    | some f => (.error (.fault f), s)
    | none => match activateTotpAuthenticator s.totp id activatedAt step with
      | .error e => (.error e, s)
      | .ok totp => (.ok (), { s with
          totp, activated := (id, step) :: s.activated })

/-! ## Runs -/

inductive Flight where
  | login (notes : Notes) (rest : Prog auth Response)
  | activation (rest : Prog activationSig Bool)

/-- The step a sign-in holds. -/
def Flight.token : Flight → Option (TotpAuthenticatorId × Nat)
  | .login n _ => n.token
  | .activation _ => none

structure State where
  shared : Shared
  flights : List Flight

/-- Any tables; nothing is under way. -/
def Initial (s : State) : Prop :=
  s.shared.accepted = [] ∧ s.shared.activated = [] ∧ s.shared.opened = [] ∧
    s.flights = []

inductive Label where
  | login (request : LoginRequest) (ip : String) (secure : Bool)
  | activate (authenticatorId : TotpAuthenticatorId) (code : String)
  | step (i : Nat) (o : AuthOracle)
  | elsewhere (store : AuthStore)
  | enroll (authenticator : TotpAuthenticator)

def next (s : State) : Label → Option State
  | .login request ip secure => some { s with
      flights := s.flights ++ [.login .empty (Auth.login request ip secure)] }
  | .activate id code => some { s with
      flights := s.flights ++ [.activation (activation hmacSha1 id code)] }
  | .step i o => match s.flights[i]? with
    | some (.login n (.call q k)) =>
      let r := performLogin hmacSha1 derive o n q s.shared
      some ⟨r.2, s.flights.set i (.login (noteOf n q r.1) (k r.1))⟩
    | some (.activation (.call q k)) =>
      let r := performActivation o q s.shared
      some ⟨r.2, s.flights.set i (.activation (k r.1))⟩
    | _ => none
  | .elsewhere store => some { s with shared := { s.shared with store } }
  | .enroll authenticator =>
    match createTotpAuthenticator s.shared.store.principals s.shared.totp
        authenticator with
    | .error _ => none
    | .ok totp => some { s with shared := { s.shared with totp } }

abbrev Reachable (s : State) : Prop :=
  Reach Initial (Next (next hmacSha1 derive)) s

end Rutilus.Web.SecondFactor
