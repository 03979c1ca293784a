import Rutilus.Domain.Audit
import Rutilus.Domain.Capability
import Rutilus.Lib.Rely
import Rutilus.Store.ResourceSnapshots

/-!
# The boundary of enrollment and refresh

What the endpoint use cases call: the endpoint repository, the credentials, the
gateway to the BMC, the audit writer, the clock, the generator of identities, and the
semaphores. The use cases are generic in the errors of their collaborators, and so is
the boundary.
-/

namespace Rutilus.Endpoints

open Rutilus.Domain hiding AuditRedfishOperation ResourceFeature
open Rutilus.Domain.Audit Rutilus.Domain.Endpoint Rutilus.Domain.Resource Rutilus.Lib

/-- What the use cases are generic in: the URL and JSON libraries, and the errors of
the collaborators. -/
structure Outside where
  parseUrl : ParseUrl
  canonicalize : Canonicalize
  repository : Type
  capability : Type
  onboarding : Type
  credential : Type
  reader : Type
  discovery : Type
  audit : Type

variable {B : Outside}

/-- A resource as it was read; the store keeps the same facts of it. -/
abbrev ResourceObservation (canonicalize : Canonicalize) : Type :=
  Store.Resources.NewResourceSnapshot canonicalize

structure CoreResourceReadOutcome (canonicalize : Canonicalize) where
  observations : List (ResourceObservation canonicalize)
  decodeFailures : List ResourceDecodeFailure

structure ResolvedCredential where
  username : String
  password : String
  deriving DecidableEq, Repr

/-- A semaphore by its number. -/
abbrev Semaphore : Type := Nat

inductive Req (B : Outside) where
  | findEndpoint (endpointId : EndpointId)
  | createDiscoveredEndpoint (endpoint : Endpoint B.parseUrl)
      (observations : List EndpointCapabilityObservation)
  | resolve (credentialId : Credential.CredentialId)
  | readCoreResources (address : EndpointAddress B.parseUrl) (trust : TlsTrust)
      (username password : String)
  | commitResourceGeneration (endpointId : EndpointId)
      (observations : List (ResourceObservation B.canonicalize))
      (decodeFailures : List ResourceDecodeFailure) (observedAt : Instant)
  | probeCoreCapabilities (address : EndpointAddress B.parseUrl) (trust : TlsTrust)
      (username password : String)
  | replaceEndpointCapabilities (endpointId : EndpointId)
      (observations : List EndpointCapabilityObservation) (observedAt : Instant)
  | appendAuditEvent (event : AuditEvent B.parseUrl)
  | now
  | generate
  | endpointReadGate (endpointId : EndpointId)
  | acquire (semaphore : Semaphore)

/-- `endpointReadGate` answers nothing if its registry is poisoned, and `acquire`
fails if the semaphore is closed. -/
abbrev Req.Resp : Req B → Type
  | .findEndpoint _ => Except B.repository (Option (Endpoint B.parseUrl))
  | .createDiscoveredEndpoint .. => Except B.onboarding (Endpoint B.parseUrl)
  | .resolve _ => Except B.credential (Option ResolvedCredential)
  | .readCoreResources .. =>
      Except B.reader (CoreResourceReadOutcome B.canonicalize)
  | .commitResourceGeneration .. =>
      Except B.repository (List (ResourceSnapshot B.canonicalize))
  | .probeCoreCapabilities .. =>
      Except B.discovery (List EndpointCapabilityObservation)
  | .replaceEndpointCapabilities .. => Except B.capability Unit
  | .appendAuditEvent _ => Except B.audit Unit
  | .now => Instant
  | .generate => Nat
  | .endpointReadGate _ => Option Semaphore
  | .acquire _ => Except Unit Unit

def endpoints (B : Outside) : Sig := ⟨Req B, Req.Resp⟩

def call (q : Req B) : Prog (endpoints B) q.Resp := .call q .ret

/-- A use case that fails with `ε`. -/
abbrev UseCase (B : Outside) (ε α : Type) : Type := ExceptT ε (Prog (endpoints B)) α

/-! ## Use cases step by step -/

section Perform

variable {S : Sig} {ε ε' α β σ : Type} {A : Sem S σ} {R : σ → σ → Prop}
  {G : S.Req → σ → σ → Prop} {s : σ}

/-- A program whose failure the use case looks at itself. -/
def perform (p : Prog S α) : ExceptT ε (Prog S) α := liftM p

theorem safe_perform {p : Prog S α} {f : α → ExceptT ε (Prog S) β}
    {Q : Except ε β → σ → Prop} :
    Safe A R G (perform p >>= f : ExceptT ε (Prog S) β) Q s ↔
      Safe A R G p (fun a s => Safe A R G (f a) Q s) s :=
  Safe.bindE.trans Safe.liftE

/-- A program whose failure ends the use case. -/
theorem safe_orThrow {p : Prog S (Except ε' α)} {wrap : ε' → ε}
    {f : α → ExceptT ε (Prog S) β} {Q : Except ε β → σ → Prop} :
    Safe A R G (orThrow p wrap >>= f : ExceptT ε (Prog S) β) Q s ↔
      Safe A R G p (fun r s => match r with
        | .ok a => Safe A R G (f a) Q s
        | .error e => Q (.error (wrap e)) s) s := by
  refine Safe.bindE.trans (Safe.orThrow.trans (iff_of_eq (congrFun ?_ s)))
  refine congrArg (Safe A R G p) ?_
  funext r s
  cases r <;> rfl

end Perform

/-! ## Audit of a use case -/

/-- Who is accountable, and where. -/
structure Accountable where
  actor : AuditActor
  actorPrincipalId : Option User.PrincipalId
  origin : DeploymentPosture

inductive AuditRecordError (ε : Type) where
  | parameters
  | context
  | sequence (source : AuditSequenceError)
  | event (source : AuditEventError)
  | write (source : ε)

def atOrAfter (previous observed : Instant) : Instant := max previous observed

end Rutilus.Endpoints
