import Rutilus.Lib.Runs
import Rutilus.Store.Bootstrap

/-!
# Initialization of a standalone instance

A run works through a list of effects: the protected master key, the database,
the administrator, its role, the one-time code, the line that shows the code, and
the marker. The marker says that all of it is done. A run that finds a key and no
marker resumes: it opens the key, and what it finds in the database decides what
is left to do.

One run at a time has the data directory: the runtime lock. A run may stop
between any two of its effects, and any of them may fail. Each is atomic and
durable.
-/

namespace Rutilus.App.Initialization

open Rutilus.Domain Rutilus.Domain.User Rutilus.Lib Rutilus.Store

/-! ## The master key -/

abbrev MasterKey : Type := Bytes

/-- A protected master key, as it is stored. -/
abbrev Envelope : Type := Bytes

/-- The passphrase envelope: what is protected under a passphrase opens under
it again, and so does what an old envelope is wrapped into. -/
structure Protection where
  protect : (nonce : Bytes) → MasterKey → (passphrase : String) → Envelope
  recover : Envelope → (passphrase : String) → Option MasterKey
  isLegacy : Envelope → Bool
  rewrap : (nonce : Bytes) → Envelope → (passphrase : String) → Option Envelope
  recover_protect : ∀ nonce key passphrase,
    recover (protect nonce key passphrase) passphrase = some key
  recover_rewrap : ∀ nonce envelope passphrase envelope',
    rewrap nonce envelope passphrase = some envelope' →
      recover envelope' passphrase = recover envelope passphrase

/-! ## Effects -/

inductive InitializationError where
  | runtimeLock
  | readMarker
  | alreadyInitialized
  | incompleteInitializedInstance (masterKeyMissing databaseMissing : Bool)
  | inspectPath
  | unpairedDatabase
  | generateMasterKey
  | masterKeyProtection
  | masterKeyFile
  | openStore
  | closeStore
  | commitMarker
  | invalidBootstrapPrincipalName
  | seedPrincipal
  | generateBootstrapCode
  | seedBootstrap
  | inspectBootstrapCode
  | inconsistentSeeding
  deriving DecidableEq, Repr

inductive InitializationOutcome where
  | created
  | resumed
  deriving DecidableEq, Repr

inductive InstanceMarkerState where
  | missing
  | complete
  deriving DecidableEq, Repr

/-- An effect that did not take place. -/
inductive Failed where
  | failed
  deriving DecidableEq, Repr

inductive InitReq where
  | acquireLock
  | masterKeyExists
  | databaseExists
  | markerState
  | loadKey
  | generateNonce
  | replaceKey (envelope : Envelope)
  | generateMasterKey
  | createKey (envelope : Envelope)
  | openStore
  | findPrincipalByName (name : PrincipalName)
  | hasUnconsumedBootstrapCode
  | now
  | generatePrincipalId
  | createPrincipal (principal : Principal)
  | assignRole (assignment : RoleAssignment)
  | generateBootstrapCode
  | generateBootstrapCodeId
  | createBootstrapCode (code : BootstrapCode)
  | println (line : String)
  | closeStore
  | createMarker

def InitReq.Resp : InitReq → Type
  | .masterKeyExists | .databaseExists | .hasUnconsumedBootstrapCode =>
      Except Failed Bool
  | .markerState => Except Failed InstanceMarkerState
  | .loadKey => Except Failed Envelope
  | .generateNonce => Bytes
  | .generateMasterKey => Except Failed MasterKey
  | .findPrincipalByName _ => Except Failed (Option Principal)
  | .now => Instant
  | .generatePrincipalId => PrincipalId
  | .generateBootstrapCode => Except Failed String
  | .generateBootstrapCodeId => BootstrapCodeId
  | .println _ => Unit
  | _ => Except Failed Unit

def initSig : Sig := ⟨InitReq, InitReq.Resp⟩

abbrev call (q : InitReq) : Prog initSig q.Resp :=
  .call (S := initSig) q .ret

/-! ## A run -/

abbrev Init (α : Type) : Type := ExceptT InitializationError (Prog initSig) α

def bootstrapPrincipalName : String := "admin"

def bootstrapLine (rawCode : String) : String :=
  "Rutilus bootstrap code: " ++ rawCode

def instructionLine : String :=
  "Enter this code in the console's first-run screen to set the " ++
    "administrator password."

/-- The administrator, its role and its code. -/
def seedAdministrator (hashBootstrapCode : String → Bytes)
    (adminName : PrincipalName) : Init Unit := do
  let now : Instant ← call .now
  let id : PrincipalId ← call .generatePrincipalId
  orThrow (call (.createPrincipal ⟨id, adminName, .enabled, now, now⟩))
    fun (_ : Failed) => .seedPrincipal
  orThrow (call (.assignRole ⟨id, .administrator, none, now, none⟩))
    fun (_ : Failed) => .seedPrincipal
  let rawCode : String ← orThrow (call .generateBootstrapCode)
    fun (_ : Failed) => .generateBootstrapCode
  let codeId : BootstrapCodeId ← call .generateBootstrapCodeId
  orThrow (call (.createBootstrapCode
    (.new codeId (hashBootstrapCode rawCode) now)))
    fun (_ : Failed) => .seedBootstrap
  let _ ← call (.println (bootstrapLine rawCode))
  let _ ← call (.println instructionLine)

def seedBootstrapAdministrator (hashBootstrapCode : String → Bytes) :
    Init Unit := do
  match PrincipalName.parse bootstrapPrincipalName with
  | none => throw .invalidBootstrapPrincipalName
  | some adminName =>
    match ← orThrow (call (.findPrincipalByName adminName))
        fun (_ : Failed) => .seedPrincipal with
    | some _ =>
      match ← orThrow (call .hasUnconsumedBootstrapCode)
          fun (_ : Failed) => .inspectBootstrapCode with
      | true => return ()
      | false => throw .inconsistentSeeding
    | none => seedAdministrator hashBootstrapCode adminName

/-- Wrap an old envelope anew. What fails here is only warned about. -/
def migrateLegacy (protection : Protection) (passphrase : String)
    (envelope : Envelope) : Init Unit := do
  let nonce : Bytes ← call .generateNonce
  match protection.rewrap nonce envelope passphrase with
  | none => return ()
  | some current =>
    let _ ← call (.replaceKey current)
    return ()

/-- Open the key that is there. -/
def resumeKey (protection : Protection) (passphrase : String) :
    Init InitializationOutcome := do
  let envelope ← orThrow (call .loadKey) fun (_ : Failed) => .masterKeyFile
  match protection.recover envelope passphrase with
  | none => throw .masterKeyProtection
  | some _ =>
    if protection.isLegacy envelope then
      migrateLegacy protection passphrase envelope
      return .resumed
    else return .resumed

/-- Make a key, where there is no database yet. -/
def createKey (protection : Protection) (passphrase : String)
    (databaseExists : Bool) : Init InitializationOutcome := do
  if databaseExists then throw .unpairedDatabase
  else
    let key ← orThrow (call .generateMasterKey)
      fun (_ : Failed) => .generateMasterKey
    let nonce : Bytes ← call .generateNonce
    orThrow (call (.createKey (protection.protect nonce key passphrase)))
      fun (_ : Failed) => .masterKeyFile
    return .created

def masterKey (protection : Protection) (passphrase : String)
    (keyExists databaseExists : Bool) : Init InitializationOutcome :=
  if keyExists then resumeKey protection passphrase
  else createKey protection passphrase databaseExists

def initializeStandalone (protection : Protection)
    (hashBootstrapCode : String → Bytes) (passphrase : String) :
    Init InitializationOutcome := do
  orThrow (call .acquireLock) fun (_ : Failed) => .runtimeLock
  let keyExists ← orThrow (call .masterKeyExists)
    fun (_ : Failed) => .inspectPath
  let databaseExists ← orThrow (call .databaseExists)
    fun (_ : Failed) => .inspectPath
  match ← orThrow (call .markerState) fun (_ : Failed) => .readMarker with
  | .complete =>
    if keyExists && databaseExists then throw .alreadyInitialized
    else throw (.incompleteInitializedInstance (!keyExists) (!databaseExists))
  | .missing =>
    let outcome ← masterKey protection passphrase keyExists databaseExists
    orThrow (call .openStore) fun (_ : Failed) => .openStore
    seedBootstrapAdministrator hashBootstrapCode
    orThrow (call .closeStore) fun (_ : Failed) => .closeStore
    orThrow (call .createMarker) fun (_ : Failed) => .commitMarker
    return outcome

/-! ## The data directory -/

structure Database where
  principals : PrincipalTable
  roles : RoleTable
  codes : CodeTable

def Database.empty : Database := ⟨.empty, .empty, .empty⟩

/-- Names are unique. -/
def createPrincipal (t : PrincipalTable) (principal : Principal) :
    Except PrincipalRepositoryError PrincipalTable :=
  if t.has principal.id ∨ t.rows.any fun row => row.name = principal.name then
    .error (.fault .database)
  else .ok (t.insertNew principal)

structure Disk where
  key : Option Envelope
  database : Option Database
  marker : InstanceMarkerState

/-- The directory, the terminal, and what is not part of the product: the keys
that were opened or made (`used`), the keys and the codes that were made, whether
the run has stored a code that it has not shown yet, and whether some run was
stopped there (`cut`). -/
structure World where
  disk : Disk
  printed : List String
  used : List MasterKey
  keysMade : List MasterKey
  codesMade : List BootstrapCode
  unprinted : Bool
  cut : Bool

structure Oracle where
  fault : Bool
  bytes : Bytes
  text : String
  uuid : Nat
  clock : Instant

variable (protection : Protection) (passphrase : String)

/-- An effect on the open database. -/
def onDatabase {ε α : Type} (o : Oracle) (w : World)
    (f : Database → Except ε (α × Database)) : Except Failed α × World :=
  if o.fault then (.error .failed, w)
  else match w.disk.database with
    | none => (.error .failed, w)
    | some database => match f database with
      | .error _ => (.error .failed, w)
      | .ok (a, database) =>
        (.ok a, { w with disk := { w.disk with database := some database } })

def perform (o : Oracle) : (q : InitReq) → World → q.Resp × World
  | .acquireLock, w | .closeStore, w =>
      (if o.fault then .error .failed else .ok (), w)
  | .masterKeyExists, w =>
      (if o.fault then .error .failed else .ok w.disk.key.isSome, w)
  | .databaseExists, w =>
      (if o.fault then .error .failed else .ok w.disk.database.isSome, w)
  | .markerState, w =>
      (if o.fault then .error .failed else .ok w.disk.marker, w)
  | .loadKey, w => match w.disk.key with
    | some envelope =>
      if o.fault then (.error .failed, w)
      else (.ok envelope, { w with
        used := (protection.recover envelope passphrase).toList ++ w.used })
    | none => (.error .failed, w)
  | .generateNonce, w => (o.bytes, w)
  | .replaceKey envelope, w =>
      if o.fault then (.error .failed, w)
      else (.ok (), { w with disk := { w.disk with key := some envelope } })
  | .generateMasterKey, w =>
      (if o.fault then .error .failed else .ok o.bytes, w)
  | .createKey envelope, w =>
      if o.fault ∨ w.disk.key.isSome then (.error .failed, w)
      else
        let made := (protection.recover envelope passphrase).toList
        (.ok (), { w with
          disk := { w.disk with key := some envelope }
          used := made ++ w.used
          keysMade := made ++ w.keysMade })
  | .openStore, w =>
      if o.fault then (.error .failed, w)
      else (.ok (), { w with disk := { w.disk with
        database := some (w.disk.database.getD .empty) } })
  | .findPrincipalByName name, w => onDatabase o w fun database =>
      (findPrincipalByName database.principals name).map (·, database)
  | .hasUnconsumedBootstrapCode, w => onDatabase (ε := Unit) o w
      fun database => .ok (hasUnconsumedBootstrapCode database.codes, database)
  | .now, w => (o.clock, w)
  | .generatePrincipalId, w => (⟨o.uuid⟩, w)
  | .createPrincipal principal, w => onDatabase o w fun database =>
      (createPrincipal database.principals principal).map fun principals =>
        ((), { database with principals })
  | .assignRole assignment, w => onDatabase o w fun database =>
      (assignRole ⟨database.principals.has, fun _ => false⟩ database.roles
        assignment).map fun roles => ((), { database with roles })
  | .generateBootstrapCode, w =>
      (if o.fault then .error .failed else .ok o.text, w)
  | .generateBootstrapCodeId, w => (⟨o.uuid⟩, w)
  | .createBootstrapCode code, w =>
      match onDatabase o w fun database =>
          (createBootstrapCode database.codes code).map fun codes =>
            ((), { database with codes }) with
      | (.ok (), w) => (.ok (), { w with
          codesMade := code :: w.codesMade, unprinted := true })
      | (.error e, w) => (.error e, w)
  | .println line, w =>
      ((), { w with printed := w.printed ++ [line], unprinted := false })
  | .createMarker, w =>
      if o.fault ∨ w.disk.marker = .complete then (.error .failed, w)
      else (.ok (), { w with disk := { w.disk with marker := .complete } })

/-! ## Sequences of runs -/

structure State where
  world : World
  running : Option (Init InitializationOutcome)

/-- A directory without database and marker; a key may be there. -/
def Initial (s : State) : Prop :=
  s.world.disk.database = none ∧ s.world.disk.marker = .missing ∧
    s.world.printed = [] ∧ s.world.used = [] ∧ s.world.keysMade = [] ∧
    s.world.codesMade = [] ∧ s.world.unprinted = false ∧
    s.world.cut = false ∧ s.running = none

inductive Label where
  | begin
  | step (o : Oracle)
  | stop

variable (hashBootstrapCode : String → Bytes)

/-- A run that is done, or stopped, gives the directory free. -/
def next (s : State) : Label → Option State
  | .begin => match s.running with
    | none => some ⟨s.world,
        some (initializeStandalone protection hashBootstrapCode passphrase)⟩
    | some _ => none
  | .step o => match s.running with
    | some (.call q k) =>
      let r := perform protection passphrase o q s.world
      some ⟨r.2, some (k r.1)⟩
    | _ => none
  | .stop => match s.running with
    | none => none
    | some _ => some ⟨{ s.world with
        cut := s.world.cut || s.world.unprinted
        unprinted := false }, none⟩

abbrev Reachable (s : State) : Prop :=
  Reach Initial (Next (next protection passphrase hashBootstrapCode)) s

end Rutilus.App.Initialization
