import Rutilus.Domain.Group
import Rutilus.Lib.Outcome
import Rutilus.Lib.Prog
import Rutilus.Lib.Runs
import Rutilus.Lib.Table
import Rutilus.Store.Operations

/-!
# The tag store

One row of `tags` for each name in use and one row of `endpoint_tags` for each
endpoint that carries it. The first use of a name creates its row, and the removal
of the last binding deletes it in the same transaction. Names are unique, a binding
refers to a name row, and the row of a name takes its bindings with it.

The writes are transactions under the write gate. The listings are programs of
single queries outside any transaction, so writes can land between two of them.
-/

namespace Rutilus.Store.Tags

open Rutilus.Domain Rutilus.Lib

structure TagRow where
  id : TagId
  name : String
  deriving DecidableEq, Repr

structure BindingRow where
  tagId : TagId
  endpointId : EndpointId
  deriving DecidableEq, Repr

def BindingRow.key (row : BindingRow) : TagId × EndpointId :=
  (row.tagId, row.endpointId)

structure Tables where
  tags : Table TagId TagRow TagRow.id
  bindings : Table (TagId × EndpointId) BindingRow BindingRow.key

inductive StoredTagError where
  | invalidName (source : LabelError)
  | orphanBinding
  deriving DecidableEq, Repr

inductive TagRepositoryError where
  | coordinate
  | corrupt (tagId : TagId) (source : StoredTagError)
  | database
  deriving DecidableEq, Repr

/-! ## Statements -/

namespace Tables

def empty : Tables := ⟨.empty, .empty⟩

def findByName (t : Tables) (name : String) : Option TagRow :=
  t.tags.rows.find? fun row => row.name = name

def ofEndpoint (t : Tables) (endpointId : EndpointId) : List BindingRow :=
  t.bindings.rows.filter fun row => row.endpointId = endpointId

def ofTag (t : Tables) (tagId : TagId) : List BindingRow :=
  t.bindings.rows.filter fun row => row.tagId = tagId

/-- The primary key and the unique index on the name. -/
def insertTag (t : Tables) (row : TagRow) : Except TagRepositoryError Tables :=
  if t.tags.has row.id ∨ (t.findByName row.name).isSome then .error .database
  else .ok { t with tags := t.tags.insertNew row }

/-- With `ON CONFLICT DO NOTHING`; the foreign key names a row of `tags`. -/
def insertBinding (t : Tables) (row : BindingRow) :
    Except TagRepositoryError Tables :=
  if t.tags.has row.tagId then
    .ok { t with bindings := t.bindings.insertNew row }
  else .error .database

def deleteBinding (t : Tables) (key : TagId × EndpointId) : Tables :=
  { t with bindings := t.bindings.filter fun row => row.key ≠ key }

/-- The foreign key cascades. -/
def deleteTag (t : Tables) (tagId : TagId) : Tables where
  tags := t.tags.filter fun row => row.id ≠ tagId
  bindings := t.bindings.filter fun row => row.tagId ≠ tagId

end Tables

/-! ## Writes -/

/-- With the identity that is generated if the name is new. -/
def findOrCreateTag (t : Tables) (generated : TagId) (name : TagName) :
    Except TagRepositoryError (TagId × Tables) :=
  match t.findByName name.text with
  | some row => .ok (row.id, t)
  | none => do
    let t ← t.insertTag ⟨generated, name.text⟩
    return (generated, t)

def assignTag (t : Tables) (generated : TagId) (endpointId : EndpointId)
    (name : TagName) : Except TagRepositoryError (Tag × Tables) := do
  let (tagId, t) ← findOrCreateTag t generated name
  let t ← t.insertBinding ⟨tagId, endpointId⟩
  return (⟨tagId, endpointId, name⟩, t)

def removeTag (t : Tables) (endpointId : EndpointId) (name : TagName) :
    Except TagRepositoryError (Unit × Tables) :=
  match t.findByName name.text with
  | none => .ok ((), t)
  | some row =>
    let t := t.deleteBinding (row.id, endpointId)
    if (t.ofTag row.id).length = 0 then .ok ((), t.deleteTag row.id)
    else .ok ((), t)

def TagRepositoryError.ofFault : Fault → TagRepositoryError
  | .coordinate => .coordinate
  | .database => .database

/-- Under the write gate: the gate, any statement and the commit may fail. -/
def transact {α : Type} (fault : Option Fault) (t : Tables)
    (body : Tables → Except TagRepositoryError (α × Tables)) :
    Except TagRepositoryError α × Tables :=
  transaction TagRepositoryError.ofFault fault t body

/-! ## Listings -/

inductive DbErr where
  | failed
  deriving DecidableEq, Repr

inductive ReadReq where
  | bindingsOfEndpoint (endpointId : EndpointId)
  | tagById (tagId : TagId)
  | tagByName (name : String)
  | bindingsOfTag (tagId : TagId)

def ReadReq.Resp : ReadReq → Type
  | .bindingsOfEndpoint _ | .bindingsOfTag _ => Except DbErr (List BindingRow)
  | .tagById _ | .tagByName _ => Except DbErr (Option TagRow)

def readSig : Sig := ⟨ReadReq, ReadReq.Resp⟩

abbrev call (q : ReadReq) : Prog readSig q.Resp :=
  .call (S := readSig) q .ret

abbrev Read (α : Type) : Type := ExceptT TagRepositoryError (Prog readSig) α

/-- The loop over the bindings. -/
def readTags (endpointId : EndpointId) : List BindingRow → Read (List Tag)
  | [] => pure []
  | binding :: rest => do
    let found : Option TagRow ←
      orThrow (call (.tagById binding.tagId)) fun (_ : DbErr) => .database
    match found with
    | none => throw (.corrupt binding.tagId .orphanBinding)
    | some row => match TagName.parse row.name with
      | .error source => throw (.corrupt binding.tagId (.invalidName source))
      | .ok name => do
        let tags ← readTags endpointId rest
        return ⟨binding.tagId, endpointId, name⟩ :: tags

def Tag.nameUpTo (a b : Tag) : Prop := a.name.text ≤ b.name.text

instance : DecidableRel Tag.nameUpTo := fun a b =>
  inferInstanceAs (Decidable (a.name.text ≤ b.name.text))

def listTagsForEndpoint (endpointId : EndpointId) : Read (List Tag) := do
  let bindings : List BindingRow ←
    orThrow (call (.bindingsOfEndpoint endpointId)) fun (_ : DbErr) => .database
  let tags ← readTags endpointId bindings
  return tags.insertionSort Tag.nameUpTo

def listEndpointsByTag (name : TagName) : Read (List EndpointId) := do
  let found : Option TagRow ←
    orThrow (call (.tagByName name.text)) fun (_ : DbErr) => .database
  match found with
  | none => return []
  | some row => do
    let bindings : List BindingRow ←
      orThrow (call (.bindingsOfTag row.id)) fun (_ : DbErr) => .database
    return bindings.map BindingRow.endpointId

/-- One query. The bindings of a name come ordered by endpoint. -/
def answer (fault : Bool) (t : Tables) : (q : ReadReq) → q.Resp
  | .bindingsOfEndpoint endpointId =>
      if fault then .error .failed else .ok (t.ofEndpoint endpointId)
  | .tagById tagId =>
      if fault then .error .failed else .ok (t.tags.find tagId)
  | .tagByName name =>
      if fault then .error .failed else .ok (t.findByName name)
  | .bindingsOfTag tagId =>
      if fault then .error .failed else .ok ((t.ofTag tagId).insertionSort
        fun a b => a.endpointId.uuid ≤ b.endpointId.uuid)

def query (q : readSig.Req) (t : Tables) : readSig.Resp q × Tables :=
  (answer false t q, t)

/-- The two listings. -/
inductive Listing where
  | tagsOf (endpointId : EndpointId)
  | endpointsOf (name : TagName)

abbrev Listing.Answer : Listing → Type
  | .tagsOf _ => List Tag
  | .endpointsOf _ => List EndpointId

def Listing.program : (l : Listing) → Read l.Answer
  | .tagsOf endpointId => listTagsForEndpoint endpointId
  | .endpointsOf name => listEndpointsByTag name

/-- The answer of a listing that no write disturbs. -/
def Listing.on (l : Listing) (t : Tables) :
    Except TagRepositoryError l.Answer :=
  (Prog.run query l.program t).1

/-! ## Sequences of writes -/

inductive Write where
  | assign (generated : TagId) (endpointId : EndpointId) (name : TagName)
  | remove (endpointId : EndpointId) (name : TagName)

/-- The next tables, and whether the call succeeded. -/
def perform (fault : Option Fault) (t : Tables) : Write → Bool × Tables
  | .assign generated endpointId name =>
      let r := transact fault t fun t => assignTag t generated endpointId name
      (r.1.isOk, r.2)
  | .remove endpointId name =>
      let r := transact fault t fun t => removeTag t endpointId name
      (r.1.isOk, r.2)

/-! ## Listings among writes -/

/-- One listing. `seen` are the tables there were while it was under way, the
latest first. -/
structure Flight where
  listing : Listing
  seen : List Tables
  rest : Read listing.Answer

def Flight.finished (f : Flight) : Bool :=
  match f.rest with
  | .ret _ => true
  | .call .. => false

def Flight.see (t : Tables) (f : Flight) : Flight :=
  if f.finished then f else { f with seen := t :: f.seen }

/-- `generated` are the identities generated so far; no two are the same. -/
structure State where
  tables : Tables
  generated : List TagId
  flights : List Flight

def Initial (s : State) : Prop :=
  s.tables = .empty ∧ s.generated = [] ∧ s.flights = []

inductive Label where
  | write (w : Write) (fault : Option Fault)
  | list (l : Listing)
  | step (i : Nat) (fault : Bool)

/-- The identities a write generates. -/
def Write.generates : Write → List TagId
  | .assign generated .. => [generated]
  | .remove .. => []

def next (s : State) : Label → Option State
  | .write w fault =>
    if (∀ id ∈ w.generates, id ∉ s.generated) then
      let t := (perform fault s.tables w).2
      some ⟨t, w.generates ++ s.generated, s.flights.map (Flight.see t)⟩
    else none
  | .list l => some { s with
      flights := s.flights ++ [⟨l, [s.tables], l.program⟩] }
  | .step i fault => match s.flights[i]? with
    | some ⟨l, seen, .call q k⟩ => some { s with
        flights := s.flights.set i ⟨l, seen, k (answer fault s.tables q)⟩ }
    | _ => none

end Rutilus.Store.Tags
