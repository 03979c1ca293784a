import Rutilus.Domain.Group
import Rutilus.Lib.Outcome
import Rutilus.Lib.Table
import Rutilus.Store.Operations

/-!
# The group store

One row of `groups` for each group and one row of `group_members` for each member
of one. The store never writes an aggregate back: a membership call edits one row
of the members and the time of the group. Names are unique, a member refers to a
group row, and the row of a group takes its members with it.
-/

namespace Rutilus.Store.Groups

open Rutilus.Domain Rutilus.Lib

structure GroupRow where
  id : GroupId
  name : String
  createdAt : Instant
  updatedAt : Instant
  deriving DecidableEq, Repr

structure MemberRow where
  groupId : GroupId
  endpointId : EndpointId
  deriving DecidableEq, Repr

def MemberRow.key (row : MemberRow) : GroupId × EndpointId :=
  (row.groupId, row.endpointId)

structure Tables where
  groups : Table GroupId GroupRow GroupRow.id
  members : Table (GroupId × EndpointId) MemberRow MemberRow.key

inductive StoredGroupError where
  | invalidName (source : LabelError)
  | invalidRestore (source : Group.RestoreError)
  deriving DecidableEq, Repr

inductive GroupRepositoryError where
  | coordinate
  | nameAlreadyExists
  | notFound (groupId : GroupId)
  | corrupt (groupId : GroupId) (source : StoredGroupError)
  | database
  deriving DecidableEq, Repr

def GroupRepositoryError.ofFault : Fault → GroupRepositoryError
  | .coordinate => .coordinate
  | .database => .database

/-! ## Statements -/

namespace Tables

def empty : Tables := ⟨.empty, .empty⟩

/-- The members of a group, ordered by endpoint. -/
def membersOf (t : Tables) (groupId : GroupId) : List EndpointId :=
  ((t.members.rows.filter fun row => row.groupId = groupId).insertionSort
    fun a b => a.endpointId.uuid ≤ b.endpointId.uuid).map MemberRow.endpointId

/-- Every unique violation is taken for one of the name. -/
def insertGroup (t : Tables) (row : GroupRow) :
    Except GroupRepositoryError Tables :=
  if t.groups.has row.id ∨ ∃ r ∈ t.groups.rows, r.name = row.name then
    .error .nameAlreadyExists
  else .ok { t with groups := t.groups.insertNew row }

/-- With the primary key and the foreign key. -/
def insertMember (t : Tables) (row : MemberRow) :
    Except GroupRepositoryError Tables :=
  if t.groups.has row.groupId ∧ ¬ t.members.has row.key then
    .ok { t with members := t.members.insertNew row }
  else .error .database

/-- With `ON CONFLICT DO NOTHING`. -/
def insertMemberIfNew (t : Tables) (row : MemberRow) :
    Except GroupRepositoryError Tables :=
  if t.groups.has row.groupId then
    .ok { t with members := t.members.insertNew row }
  else .error .database

def deleteMember (t : Tables) (key : GroupId × EndpointId) : Tables :=
  { t with members := t.members.filter fun row => row.key ≠ key }

/-- The foreign key cascades. -/
def deleteGroup (t : Tables) (groupId : GroupId) : Tables where
  groups := t.groups.filter fun row => row.id ≠ groupId
  members := t.members.filter fun row => row.groupId ≠ groupId

/-- The time of a group never goes back. -/
def touchGroup (t : Tables) (row : GroupRow) (now : Instant) : Tables :=
  let row := { row with updatedAt := max now row.updatedAt }
  { t with groups := t.groups.replace row }

end Tables

/-! ## Calls -/

def insertMembers (groupId : GroupId) :
    List EndpointId → Tables → Except GroupRepositoryError Tables
  | [], t => .ok t
  | endpointId :: rest, t => do
    let t ← t.insertMember ⟨groupId, endpointId⟩
    insertMembers groupId rest t

/-- A group that is stored stays as it is. -/
def createGroup (t : Tables) (group : Group) :
    Except GroupRepositoryError (Unit × Tables) :=
  match t.groups.find group.id with
  | some _ => .ok ((), t)
  | none => do
    let t ← t.insertGroup
      ⟨group.id, group.name.text, group.createdAt, group.updatedAt⟩
    let t ← insertMembers group.id group.memberEndpointIds t
    return ((), t)

def addMember (t : Tables) (now : Instant) (groupId : GroupId)
    (endpointId : EndpointId) : Except GroupRepositoryError (Unit × Tables) :=
  match t.groups.find groupId with
  | none => .error (.notFound groupId)
  | some row => do
    let t ← t.insertMemberIfNew ⟨groupId, endpointId⟩
    return ((), t.touchGroup row now)

def removeMember (t : Tables) (now : Instant) (groupId : GroupId)
    (endpointId : EndpointId) : Except GroupRepositoryError (Unit × Tables) :=
  match t.groups.find groupId with
  | none => .error (.notFound groupId)
  | some row => .ok ((), (t.deleteMember (groupId, endpointId)).touchGroup row now)

def deleteGroup (t : Tables) (groupId : GroupId) :
    Except GroupRepositoryError (Unit × Tables) :=
  if t.groups.has groupId then .ok ((), t.deleteGroup groupId)
  else .error (.notFound groupId)

def loadGroupAggregate (t : Tables) (row : GroupRow) :
    Except GroupRepositoryError Group := do
  let name ← (GroupName.parse row.name).mapError fun source =>
    .corrupt row.id (.invalidName source)
  (Group.tryFromParts row.id name (t.membersOf row.id) row.createdAt
    row.updatedAt).mapError fun source => .corrupt row.id (.invalidRestore source)

/-- One transaction reads both tables. -/
def findGroup (t : Tables) (groupId : GroupId) :
    Except GroupRepositoryError (Option Group) :=
  match t.groups.find groupId with
  | none => .ok none
  | some row => (loadGroupAggregate t row).map some

inductive Call where
  | create (group : Group)
  | addMember (groupId : GroupId) (endpointId : EndpointId)
  | removeMember (groupId : GroupId) (endpointId : EndpointId)
  | delete (groupId : GroupId)

/-- A call under the write gate, with the reading of the repository clock. -/
def perform (fault : Option Fault) (now : Instant) (t : Tables) (c : Call) :
    Except GroupRepositoryError Unit × Tables :=
  transaction GroupRepositoryError.ofFault fault t fun t => match c with
    | .create group => createGroup t group
    | .addMember groupId endpointId => addMember t now groupId endpointId
    | .removeMember groupId endpointId => removeMember t now groupId endpointId
    | .delete groupId => deleteGroup t groupId

end Rutilus.Store.Groups
