import Rutilus.Domain.Artifact
import Rutilus.Lib.Sorted

/-!
# Groups and tags

Two labels an operator puts on endpoints. A tag is a name on one endpoint; a group
has a name and a set of members, kept as a sorted list without duplicates. Adding
and removing a member are idempotent.

The names follow the rule of the other labels, with a shorter limit.
-/

namespace Rutilus.Domain

open Rutilus.Lib

/-! ## Names -/

/-- The rule of `GroupName::parse` and `TagName::parse`. -/
def parseName (maximum : Nat) (value : String) : Except LabelError String :=
  let normalized := trim value.toList
  if normalized.isEmpty then .error .empty
  else if normalized.any isControl then .error .controlCharacter
  else if maximum < normalized.length then
    .error (.tooLong normalized.length maximum)
  else .ok (String.ofList normalized)

/-- A parsed name parses to itself. -/
theorem parseName_fixed {maximum : Nat} {value text : String}
    (h : parseName maximum value = .ok text) :
    parseName maximum text = .ok text := by
  unfold parseName at h
  dsimp only at h
  split at h
  · cases h
  · next hempty =>
      split at h
      · cases h
      · next hcontrol =>
          split at h
          · cases h
          · next hlong =>
              cases h
              unfold parseName
              rw [String.toList_ofList, trim_trim]
              simp only [hempty, hcontrol, hlong, if_false, Bool.false_eq_true]

def maxTagNameChars : Nat := 64

def maxGroupNameChars : Nat := 64

/-- A normalized label of limited length. -/
structure Name (maximum : Nat) where
  text : String
  parses : parseName maximum text = .ok text
  deriving DecidableEq

namespace Name

variable {maximum : Nat}

def parse (maximum : Nat) (value : String) : Except LabelError (Name maximum) :=
  match h : parseName maximum value with
  | .error e => .error e
  | .ok text => .ok ⟨text, parseName_fixed h⟩

@[simp]
theorem parse_text (name : Name maximum) :
    Name.parse maximum name.text = .ok name := by
  unfold Name.parse
  split
  · next e h =>
      rw [name.parses] at h
      cases h
  · next text h =>
      rw [name.parses] at h
      cases h
      rfl

theorem text_inj {a b : Name maximum} (h : a.text = b.text) : a = b := by
  cases a
  cases b
  cases h
  rfl

end Name

abbrev TagName : Type := Name maxTagNameChars

abbrev GroupName : Type := Name maxGroupNameChars

abbrev TagName.parse (value : String) : Except LabelError TagName :=
  Name.parse maxTagNameChars value

abbrev GroupName.parse (value : String) : Except LabelError GroupName :=
  Name.parse maxGroupNameChars value

/-! ## Tags -/

structure TagId where
  uuid : Nat
  deriving DecidableEq, Repr

structure Tag where
  id : TagId
  endpointId : EndpointId
  name : TagName
  deriving DecidableEq

/-! ## Groups -/

structure GroupId where
  uuid : Nat
  deriving DecidableEq, Repr

theorem uuid_injective : Function.Injective EndpointId.uuid := by
  intro a b h
  cases a
  cases b
  cases h
  rfl

structure Group where
  id : GroupId
  name : GroupName
  memberEndpointIds : List EndpointId
  createdAt : Instant
  updatedAt : Instant
  rising : Rising EndpointId.uuid memberEndpointIds
  timeline : createdAt ≤ updatedAt

namespace Group

def new (id : GroupId) (name : GroupName) (createdAt : Instant) : Group :=
  ⟨id, name, [], createdAt, createdAt, .nil, Int.le_refl _⟩

inductive RestoreError where
  | invalidTimeline
  deriving DecidableEq, Repr

theorem le_of_not_inverted {createdAt updatedAt : Instant}
    (h : ¬ updatedAt < createdAt) : createdAt ≤ updatedAt := Int.not_lt.mp h

def tryFromParts (id : GroupId) (name : GroupName)
    (memberEndpointIds : List EndpointId) (createdAt updatedAt : Instant) :
    Except RestoreError Group :=
  if h : updatedAt < createdAt then .error .invalidTimeline
  else .ok ⟨id, name, canonical EndpointId.uuid memberEndpointIds, createdAt,
    updatedAt, rising_canonical uuid_injective, le_of_not_inverted h⟩

/-- Whether the membership changed, and the group. -/
def addMember (group : Group) (endpointId : EndpointId) : Bool × Group :=
  match h : binarySearch EndpointId.uuid group.memberEndpointIds
      endpointId.uuid with
  | .ok _ => (false, group)
  | .error position => (true, { group with
      memberEndpointIds := group.memberEndpointIds.insertIdx position endpointId
      rising := rising_insertIdx group.rising h })

def removeMember (group : Group) (endpointId : EndpointId) : Bool × Group :=
  match binarySearch EndpointId.uuid group.memberEndpointIds
      endpointId.uuid with
  | .ok position => (true, { group with
      memberEndpointIds := group.memberEndpointIds.eraseIdx position
      rising := rising_eraseIdx group.rising })
  | .error _ => (false, group)

variable {group : Group} {e x : EndpointId}

theorem mem_addMember :
    x ∈ (group.addMember e).2.memberEndpointIds ↔
      x = e ∨ x ∈ group.memberEndpointIds := by
  unfold addMember
  split
  · next i h =>
      obtain ⟨y, hy, hkey⟩ := binarySearch_ok h
      obtain rfl := uuid_injective hkey
      have hin := List.mem_of_getElem? hy
      exact ⟨.inr, fun h => h.elim (fun h => h ▸ hin) fun hx => hx⟩
  · next i h => exact mem_insertIdx_search group.rising h

theorem mem_removeMember :
    x ∈ (group.removeMember e).2.memberEndpointIds ↔
      x ∈ group.memberEndpointIds ∧ x ≠ e := by
  unfold removeMember
  split
  · next i h =>
      obtain ⟨y, hy, hkey⟩ := binarySearch_ok h
      obtain rfl := uuid_injective hkey
      rw [mem_eraseIdx_rising group.rising hy]
      exact and_congr_right fun _ => uuid_injective.ne_iff
  · next i h =>
      have hnot := ne_of_binarySearch_error group.rising h
      exact ⟨fun hx => ⟨hx, fun heq => hnot x hx (congrArg _ heq)⟩, And.left⟩

@[simp]
theorem addMember_name : (group.addMember e).2.name = group.name := by
  unfold addMember
  split <;> rfl

@[simp]
theorem removeMember_name : (group.removeMember e).2.name = group.name := by
  unfold removeMember
  split <;> rfl

@[simp]
theorem addMember_createdAt :
    (group.addMember e).2.createdAt = group.createdAt := by
  unfold addMember
  split <;> rfl

@[simp]
theorem removeMember_createdAt :
    (group.removeMember e).2.createdAt = group.createdAt := by
  unfold removeMember
  split <;> rfl

end Group

end Rutilus.Domain
