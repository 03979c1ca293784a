import Mathlib.Algebra.Group.Nat.Defs
import Rutilus.Lib.Runs
import Rutilus.Store.Bindings

/-!
# Admission of a site's connection

A site presents a certificate that carries the fingerprint of its identity and
names an instance, and says in its first frame which instance it is. The center
looks the binding up by the fingerprint; binding, certificate and frame have to
agree, and the binding has to be in force.

`subject` and `declared` are the instances the two texts name; `none` is any
other text.

The history of the binding table is a sequence of registrations, binds and
revocations. `bound` and `revoked` are not part of the product: they remember
which rows were ever bound and revoked.
-/

namespace Rutilus.App.Admission

open Rutilus.Domain Rutilus.Lib Rutilus.Store

structure SiteIdentity where
  boundSiteFingerprint : Option CertificateFingerprint
  subject : Option InstanceId
  deriving DecidableEq, Repr

inductive IdentityValidationError where
  | notBound
  | extensionMissing
  | extensionMismatch
  | subjectMismatch
  deriving DecidableEq, Repr

def validateBoundIdentity (binding : CenterBinding)
    (identity : SiteIdentity) : Except IdentityValidationError Unit :=
  if binding.state ≠ .bound then .error .notBound
  else match identity.boundSiteFingerprint with
    | none => .error .extensionMissing
    | some fingerprint =>
      if binding.siteCertFingerprint ≠ some fingerprint then
        .error .extensionMismatch
      else if identity.subject ≠ some binding.siteInstanceId then
        .error .subjectMismatch
      else .ok ()

inductive AdmissionRejection where
  | identity (source : IdentityValidationError)
  | unknownSite
  | helloIdentityMismatch (bound : InstanceId)
  deriving DecidableEq, Repr

structure ResolvedSite where
  instanceId : InstanceId
  bindingId : CenterBindingId
  fingerprint : CertificateFingerprint
  deriving DecidableEq, Repr

inductive AdmissionVerdict where
  | admitted (site : ResolvedSite)
  | rejected (reason : AdmissionRejection)
  deriving DecidableEq, Repr

/-- `find` is the store's lookup. -/
def resolve
    (find : CertificateFingerprint →
      Except CenterBindingRepositoryError (Option CenterBinding))
    (identity : SiteIdentity) (declared : Option InstanceId) :
    Except CenterBindingRepositoryError AdmissionVerdict :=
  match identity.boundSiteFingerprint with
  | none => .ok (.rejected (.identity .extensionMissing))
  | some fingerprint => match find fingerprint with
    | .error e => .error e
    | .ok none => .ok (.rejected .unknownSite)
    | .ok (some binding) => match validateBoundIdentity binding identity with
      | .error reason => .ok (.rejected (.identity reason))
      | .ok () =>
        if declared ≠ some binding.siteInstanceId then
          .ok (.rejected (.helloIdentityMismatch binding.siteInstanceId))
        else .ok (.admitted
          ⟨binding.siteInstanceId, binding.id, fingerprint⟩)

/-! ## The history of the table -/

structure State where
  table : BindingTable
  bound : List CenterBindingId
  revoked : List CenterBindingId

def initial : State := ⟨.empty, [], []⟩

/-- A call with its arguments and what the environment decides: whether the
database fails, and at a registration which instances are there. -/
inductive Call where
  | create (fault : Option Fault) (instances : InstanceId → Bool)
      (id : CenterBindingId) (centerUrl : String) (site : InstanceId)
      (code : BindingCode) (expiresAt createdAt : Instant)
  | bind (fault : Option Fault) (id : CenterBindingId) (code : BindingCode)
      (fingerprint : Option CertificateFingerprint) (now : Instant)
  | revoke (fault : Option Fault) (id : CenterBindingId)

variable (sha : Bytes → Digest)

/-- The answer of a call and the state after it. -/
def Call.run (s : State) :
    Call → Except CenterBindingRepositoryError Unit × State
  | .create (some f) .. | .bind (some f) .. | .revoke (some f) _ =>
      (.error (.fault f), s)
  | .create none instances id centerUrl site code expiresAt createdAt =>
    match createBinding instances s.table
        (.newPending sha id centerUrl site code expiresAt createdAt) with
    | .error e => (.error e, s)
    | .ok t => (.ok (), { s with table := t })
  | .bind none id code fingerprint now =>
    match bindWithCode sha s.table id code fingerprint now with
    | .error e => (.error e, s)
    | .ok t => (.ok (), { s with table := t, bound := s.bound ++ [id] })
  | .revoke none id => match revokeBinding s.table id with
    | .error e => (.error e, s)
    | .ok (_, t) => (.ok (), { s with table := t, revoked := s.revoked ++ [id] })

abbrev Step (s t : State) : Prop := ∃ call : Call, (call.run sha s).2 = t

abbrev Reachable (s : State) : Prop :=
  Reach (fun s => s = initial) (Step sha) s

/-- The state after a list of calls. -/
def after (calls : List Call) : State :=
  calls.foldl (fun s call => (call.run sha s).2) initial

theorem reachable_after (calls : List Call) :
    Reachable sha (after sha calls) := by
  have h : ∀ s, Reachable sha s →
      Reachable sha (calls.foldl (fun s call => (call.run sha s).2) s) := by
    induction calls with
    | nil => exact fun s hs => hs
    | cons call calls ih => exact fun s hs => ih _ (hs.step ⟨call, rfl⟩)
  exact h initial (.init rfl)

end Rutilus.App.Admission

/-!
## The registry of online sessions

The center keeps one entry for each site that holds a connection. A connection
is handed a generation when it registers and shows it again when it asks whether
it is still current and when it leaves; an administrator disconnects whatever
session a site has. All calls take one lock, which a panic may poison: then
nobody registers and nobody is current any more.

The counter of the generations is a machine word. It is read before it is
advanced, advances modulo its size, and the generation is one above what was
read, at most the largest word.

`handed` is not part of the product: it lists the connections in the order of
their registration, and which of them some call disconnected.
-/

namespace Rutilus.App.SessionRegistry

open Rutilus.Domain Rutilus.Lib Rutilus.App.Admission

/-- The number of values of a `u64`. -/
def words : Nat := 2 ^ 64

structure OnlineSession where
  site : ResolvedSite
  lastSeen : Instant
  generation : Nat
  deriving DecidableEq, Repr

def OnlineSession.instanceId (session : OnlineSession) : InstanceId :=
  session.site.instanceId

inductive CenterSessionRegistryError where
  | alreadyConnected (site : InstanceId)
  | poisoned
  deriving DecidableEq, Repr

structure CenterSessionRegistry where
  online : Table InstanceId OnlineSession OnlineSession.instanceId
  nextGeneration : Nat
  poisoned : Bool

namespace CenterSessionRegistry

def new : CenterSessionRegistry := ⟨.empty, 0, false⟩

def markConnected (r : CenterSessionRegistry) (site : ResolvedSite)
    (now : Instant) :
    Except CenterSessionRegistryError Nat × CenterSessionRegistry :=
  if r.poisoned then (.error .poisoned, r)
  else if r.online.has site.instanceId then
    (.error (.alreadyConnected site.instanceId), r)
  else
    let generation := min (r.nextGeneration + 1) (words - 1)
    (.ok generation,
      { r with
        nextGeneration := (r.nextGeneration + 1) % words
        online := r.online.insertNew ⟨site, now, generation⟩ })

def disconnect (r : CenterSessionRegistry) (site : InstanceId) :
    CenterSessionRegistry :=
  if r.poisoned then r
  else { r with
    online := r.online.filter fun session => session.instanceId ≠ site }

def touch (r : CenterSessionRegistry) (site : InstanceId) (now : Instant) :
    CenterSessionRegistry :=
  if r.poisoned then r
  else match r.online.find site with
    | none => r
    | some session =>
      { r with online := r.online.replace { session with lastSeen := now } }

def markDisconnected (r : CenterSessionRegistry) (site : InstanceId)
    (generation : Nat) : CenterSessionRegistry :=
  if r.poisoned then r
  else if (r.online.find site).any fun session =>
      session.generation = generation then
    { r with
      online := r.online.filter fun session => session.instanceId ≠ site }
  else r

def isCurrent (r : CenterSessionRegistry) (site : InstanceId)
    (generation : Nat) : Bool :=
  !r.poisoned && (r.online.find site).any fun session =>
    session.generation = generation

end CenterSessionRegistry

/-! ## The calls of any number of connections -/

/-- A connection that registered. It has `ended` once a call disconnected it:
a cleanup with its generation or a disconnect of its site. -/
structure Connection where
  site : InstanceId
  generation : Nat
  ended : Bool
  deriving DecidableEq, Repr

structure State where
  registry : CenterSessionRegistry
  handed : List Connection

def initial : State := ⟨.new, []⟩

def State.isCurrent (s : State) (c : Connection) : Bool :=
  s.registry.isCurrent c.site c.generation

inductive Call where
  | markConnected (site : ResolvedSite) (now : Instant)
  | disconnect (site : InstanceId)
  | touch (site : InstanceId) (now : Instant)
  | markDisconnected (site : InstanceId) (generation : Nat)
  | panic
  deriving Repr

def endIf (p : Connection → Bool) (handed : List Connection) :
    List Connection :=
  handed.map fun c => { c with ended := c.ended || p c }

def Call.run (s : State) : Call → State
  | .markConnected site now =>
    match s.registry.markConnected site now with
    | (.error _, r) => ⟨r, s.handed⟩
    | (.ok generation, r) =>
      ⟨r, s.handed ++ [⟨site.instanceId, generation, false⟩]⟩
  | .disconnect site =>
      ⟨s.registry.disconnect site, endIf (fun c => c.site = site) s.handed⟩
  | .touch site now => ⟨s.registry.touch site now, s.handed⟩
  | .markDisconnected site generation =>
      ⟨s.registry.markDisconnected site generation,
        endIf (fun c => c.site = site ∧ c.generation = generation) s.handed⟩
  | .panic => ⟨{ s.registry with poisoned := true }, s.handed⟩

abbrev Step (s t : State) : Prop := ∃ call : Call, call.run s = t

abbrev Reachable (s : State) : Prop := Reach (· = initial) Step s

end Rutilus.App.SessionRegistry
