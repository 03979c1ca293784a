import Mathlib.Logic.Function.Basic
import Rutilus.Lib.Outcome
import Rutilus.Store.Groups

/-!
# The group store refines the groups

The abstract store maps an identity to a group and changes a group only through
the methods of the group itself. The two tables stand for such a map (`Stands`): a
group has its name and times in its row and its members in theirs, and what is no
group has neither. Every call keeps this, whatever the clock reads; reading a
group back gives the one of the map.
-/

namespace Rutilus.Proofs.GroupRefinement

open Rutilus.Domain Rutilus.Lib Rutilus.Store.Groups
open Rutilus.Store (Fault)

/-! ## The abstract store -/

abbrev Registry : Type := GroupId → Option Group

/-- The groups after a call that succeeded. A repeated creation changes nothing. -/
def replay (groups : Registry) : Call → Registry
  | .create group => match groups group.id with
    | some _ => groups
    | none => Function.update groups group.id (some group)
  | .addMember groupId endpointId => Function.update groups groupId
      ((groups groupId).map fun group => (group.addMember endpointId).2)
  | .removeMember groupId endpointId => Function.update groups groupId
      ((groups groupId).map fun group => (group.removeMember endpointId).2)
  | .delete groupId => Function.update groups groupId none

/-! ## What the tables stand for -/

/-- The row and the members of a group. Its times are those of the store. -/
structure Kept (t : Tables) (groupId : GroupId) (group : Group) (row : GroupRow) :
    Prop where
  find : t.groups.find groupId = some row
  name : row.name = group.name.text
  createdAt : row.createdAt = group.createdAt
  timeline : row.createdAt ≤ row.updatedAt
  members : ∀ e, ⟨groupId, e⟩ ∈ t.members.rows ↔ e ∈ group.memberEndpointIds

structure Stands (t : Tables) (groups : Registry) : Prop where
  kept : ∀ groupId group, groups groupId = some group →
    ∃ row, Kept t groupId group row
  absent : ∀ groupId, groups groupId = none →
    t.groups.find groupId = none ∧ ∀ e, ⟨groupId, e⟩ ∉ t.members.rows
  names : (t.groups.rows.map GroupRow.name).Nodup

theorem Stands.some_of_find {t : Tables} {groups : Registry} {groupId : GroupId}
    {row : GroupRow} (h : Stands t groups) (hfind : t.groups.find groupId = some row) :
    ∃ group, groups groupId = some group := by
  cases hgroup : groups groupId with
  | some group => exact ⟨group, rfl⟩
  | none =>
      rw [(h.absent groupId hgroup).1] at hfind
      cases hfind

theorem Stands.none_of_find {t : Tables} {groups : Registry} {groupId : GroupId}
    (h : Stands t groups) (hfind : t.groups.find groupId = none) :
    groups groupId = none := by
  cases hgroup : groups groupId with
  | none => rfl
  | some group =>
      obtain ⟨row, k⟩ := h.kept groupId group hgroup
      rw [k.find] at hfind
      cases hfind

theorem stands_empty : Stands .empty fun _ => none where
  kept := fun _ _ h => nomatch h
  absent := fun _ _ => ⟨rfl, fun _ h => absurd h List.not_mem_nil⟩
  names := .nil

variable {t t' : Tables} {groups groups' : Registry} {row : GroupRow}
  {groupId : GroupId} {group : Group} {e : EndpointId}

/-! ## Reading back -/

/-- The members as they are read are those of the group. -/
theorem Kept.membersOf (h : Kept t groupId group row) :
    t.membersOf groupId = group.memberEndpointIds := by
  have hin : ∀ b, b ∈ t.members.rows.filter (fun row => row.groupId = groupId) ↔
      b ∈ t.members.rows ∧ b.groupId = groupId := by
    intro b
    simp
  refine Rising.ext ?_ group.rising fun e => ?_
  · have hsorted := pairwise_insertionSort_key
      (fun b : MemberRow => b.endpointId.uuid)
      (t.members.rows.filter fun row => row.groupId = groupId)
    have hnodup : (t.members.rows.filter fun row => row.groupId = groupId).Nodup :=
      List.Nodup.filter _ (List.Nodup.of_map _ t.members.nodup)
    refine List.pairwise_map.mpr (List.Pairwise.imp_of_mem
      (fun ha hb hlt => lt_of_le_of_ne hlt.1 fun heq => hlt.2 ?_)
      (hsorted.and ((List.perm_insertionSort _ _).nodup_iff.mpr hnodup)))
    obtain ⟨-, ha⟩ := (hin _).mp ((List.mem_insertionSort _).mp ha)
    obtain ⟨-, hb⟩ := (hin _).mp ((List.mem_insertionSort _).mp hb)
    exact congrArg₂ MemberRow.mk (ha.trans hb.symm) (uuid_injective heq)
  · rw [← h.members, Tables.membersOf, List.mem_map]
    constructor
    · rintro ⟨b, hb, rfl⟩
      obtain ⟨hb, hid⟩ := (hin b).mp ((List.mem_insertionSort _).mp hb)
      exact hid ▸ hb
    · intro hb
      exact ⟨_, (List.mem_insertionSort _).mpr ((hin _).mpr ⟨hb, rfl⟩), rfl⟩

/-- The group of the row is read, never as corrupt. -/
theorem Kept.findGroup (h : Kept t groupId group row) :
    ∃ found, findGroup t groupId = .ok (some found) ∧ found.id = groupId ∧
      found.name = group.name ∧
      found.memberEndpointIds = group.memberEndpointIds ∧
      found.createdAt = group.createdAt ∧ found.updatedAt = row.updatedAt := by
  have hid : row.id = groupId := Table.key_of_find h.find
  have hname : GroupName.parse row.name = .ok group.name := by
    rw [h.name]
    exact Name.parse_text group.name
  have htime : ¬ row.updatedAt < row.createdAt := Int.not_lt.mpr h.timeline
  have hcanonical : canonical EndpointId.uuid group.memberEndpointIds =
      group.memberEndpointIds :=
    Rising.ext (rising_canonical uuid_injective) group.rising fun x => mem_canonical
  unfold Store.Groups.findGroup
  rw [h.find]
  dsimp only
  unfold loadGroupAggregate
  rw [hname, hid, h.membersOf]
  show ∃ found, Except.map some (Except.mapError _ (Group.tryFromParts groupId
    group.name group.memberEndpointIds row.createdAt row.updatedAt)) = _ ∧ _
  unfold Group.tryFromParts
  rw [dif_neg htime]
  exact ⟨_, rfl, rfl, rfl, hcanonical, h.createdAt, rfl⟩

theorem Stands.findGroup_none (h : Stands t groups) (hnone : groups groupId = none) :
    findGroup t groupId = .ok none := by
  unfold Store.Groups.findGroup
  rw [(h.absent groupId hnone).1]

/-- What is found has the time of the row. -/
theorem Stands.updatedAt_of_findGroup (h : Stands t groups)
    (hfind : findGroup t groupId = .ok (some group)) :
    ∃ row, t.groups.find groupId = some row ∧ group.updatedAt = row.updatedAt := by
  cases hgroup : groups groupId with
  | none =>
      rw [h.findGroup_none hgroup] at hfind
      cases hfind
  | some kept =>
      obtain ⟨row, k⟩ := h.kept groupId kept hgroup
      obtain ⟨found, hfound, -, -, -, -, htime⟩ := k.findGroup
      rw [hfound] at hfind
      cases hfind
      exact ⟨row, k.find, htime⟩

/-! ## What a call does -/

theorem key_injective : Function.Injective MemberRow.key := by
  intro a b h
  cases a
  cases b
  cases h
  rfl

/-- A creation wrote the row and the members of the group. -/
structure Created (t : Tables) (group : Group) (t' : Tables) : Prop where
  free : t.groups.find group.id = none ∧
    ∀ r ∈ t.groups.rows, r.name ≠ group.name.text
  groups : t'.groups = t.groups.insertNew
    ⟨group.id, group.name.text, group.createdAt, group.updatedAt⟩
  members : ∀ b, b ∈ t'.members.rows ↔
    b ∈ t.members.rows ∨ b.groupId = group.id ∧ b.endpointId ∈ group.memberEndpointIds

theorem insertMembers_ok {endpoints : List EndpointId}
    (h : insertMembers groupId endpoints t = .ok t') :
    t'.groups = t.groups ∧ ∀ b, b ∈ t'.members.rows ↔
      b ∈ t.members.rows ∨ b.groupId = groupId ∧ b.endpointId ∈ endpoints := by
  induction endpoints generalizing t with
  | nil =>
      cases h
      exact ⟨rfl, fun b => by simp⟩
  | cons endpoint rest ih =>
      obtain ⟨t₁, hinsert, hrest⟩ := bind_ok h
      unfold Tables.insertMember at hinsert
      split at hinsert
      · next hfree =>
          cases hinsert
          obtain ⟨hgroups, hmembers⟩ := ih hrest
          have hnew : t.members.find (groupId, endpoint) = none := by
            simpa [Table.has, MemberRow.key] using hfree.2
          refine ⟨hgroups, fun b => (hmembers b).trans ?_⟩
          rw [Table.rows_insertNew hnew]
          obtain ⟨g, x⟩ := b
          simp only [List.mem_append, MemberRow.mk.injEq,
            List.mem_cons]
          tauto
      · cases hinsert

theorem createGroup_ok (h : createGroup t group = .ok ((), t')) :
    (∃ row, t.groups.find group.id = some row) ∧ t' = t ∨ Created t group t' := by
  unfold createGroup at h
  split at h
  · next row hrow =>
      cases h
      exact .inl ⟨⟨row, hrow⟩, rfl⟩
  · next hnone =>
      obtain ⟨t₁, hinsert, h⟩ := bind_ok h
      obtain ⟨t₂, hmembers, h⟩ := bind_ok h
      cases h
      unfold Tables.insertGroup at hinsert
      split at hinsert
      · cases hinsert
      · next hfree =>
          cases hinsert
          rw [not_or] at hfree
          obtain ⟨hgroups, hmembers⟩ := insertMembers_ok hmembers
          exact .inr ⟨⟨hnone, fun r hr hname => hfree.2 ⟨r, hr, hname⟩⟩, hgroups,
            hmembers⟩

/-- A call on the members of a group changed these and the time of its row. -/
structure Edited (t : Tables) (now : Instant) (row : GroupRow)
    (member : EndpointId → Prop) (t' : Tables) : Prop where
  find : t.groups.find row.id = some row
  groups : t'.groups = t.groups.replace { row with updatedAt := max now row.updatedAt }
  members : ∀ b, b ∈ t'.members.rows ↔
    b.groupId = row.id ∧ member b.endpointId ∨
      b.groupId ≠ row.id ∧ b ∈ t.members.rows

theorem addMember_ok {now : Instant} (h : addMember t now groupId e = .ok ((), t')) :
    ∃ row, row.id = groupId ∧
      Edited t now row (fun x => x = e ∨ ⟨groupId, x⟩ ∈ t.members.rows) t' := by
  unfold addMember at h
  split at h
  · cases h
  · next row hrow =>
      obtain ⟨t₁, hinsert, h⟩ := bind_ok h
      cases h
      obtain rfl : row.id = groupId := Table.key_of_find hrow
      unfold Tables.insertMemberIfNew at hinsert
      split at hinsert
      · cases hinsert
        refine ⟨row, rfl, hrow, rfl, fun b => ?_⟩
        refine (Table.mem_insertNew_of_injective key_injective).trans ?_
        obtain ⟨g, x⟩ := b
        by_cases hg : g = row.id
        · subst hg
          simp
        · simp [hg]
      · cases hinsert

theorem removeMember_ok {now : Instant}
    (h : removeMember t now groupId e = .ok ((), t')) :
    ∃ row, row.id = groupId ∧
      Edited t now row (fun x => ⟨groupId, x⟩ ∈ t.members.rows ∧ x ≠ e) t' := by
  unfold removeMember at h
  split at h
  · cases h
  · next row hrow =>
      cases h
      obtain rfl : row.id = groupId := Table.key_of_find hrow
      refine ⟨row, rfl, hrow, rfl, fun b => ?_⟩
      obtain ⟨g, x⟩ := b
      simp only [Tables.deleteMember, Tables.touchGroup, Table.filter, MemberRow.key,
        List.mem_filter, decide_eq_true_eq, ne_eq, Prod.mk.injEq]
      by_cases hg : g = row.id
      · subst hg
        simp
      · simp [hg]

/-! ## A call keeps what the tables stand for -/

/-- All groups but one are as they were. -/
structure Elsewhere (t : Tables) (groupId : GroupId) (t' : Tables) : Prop where
  find : ∀ id, id ≠ groupId → t'.groups.find id = t.groups.find id
  members : ∀ id, id ≠ groupId → ∀ e,
    ⟨id, e⟩ ∈ t'.members.rows ↔ ⟨id, e⟩ ∈ t.members.rows

/-- One entry of the map changes with its rows. -/
theorem Stands.update (h : Stands t groups) (w : Elsewhere t groupId t')
    {entry : Option Group}
    (hkept : ∀ group, entry = some group → ∃ row, Kept t' groupId group row)
    (habsent : entry = none →
      t'.groups.find groupId = none ∧ ∀ e, ⟨groupId, e⟩ ∉ t'.members.rows)
    (hnames : (t'.groups.rows.map GroupRow.name).Nodup) :
    Stands t' (Function.update groups groupId entry) where
  kept := fun id g hg => by
    by_cases hid : id = groupId
    · subst hid
      rw [Function.update_self] at hg
      exact hkept g hg
    · rw [Function.update_of_ne hid] at hg
      obtain ⟨row, k⟩ := h.kept id g hg
      exact ⟨row, (w.find id hid).trans k.find, k.name, k.createdAt, k.timeline,
        fun e => (w.members id hid e).trans (k.members e)⟩
  absent := fun id hnone => by
    by_cases hid : id = groupId
    · subst hid
      rw [Function.update_self] at hnone
      exact habsent hnone
    · rw [Function.update_of_ne hid] at hnone
      obtain ⟨hfind, hmembers⟩ := h.absent id hnone
      exact ⟨(w.find id hid).trans hfind,
        fun e hin => hmembers e ((w.members id hid e).mp hin)⟩
  names := hnames

namespace Created

variable (c : Created t group t')
include c

theorem elsewhere : Elsewhere t group.id t' where
  find := fun id hne => by
    rw [c.groups, Table.find_insertNew, if_neg fun h => hne h.1.symm]
  members := fun id hne e => (c.members _).trans (or_iff_left fun h => hne h.1)

theorem stands (h : Stands t groups) (hnone : groups group.id = none) :
    Stands t' (Function.update groups group.id (some group)) := by
  refine h.update c.elsewhere (fun g hg => ?_) (fun hg => nomatch hg) ?_
  · cases hg
    refine ⟨⟨group.id, group.name.text, group.createdAt, group.updatedAt⟩, ?_, rfl,
      rfl, group.timeline, fun e => ?_⟩
    · rw [c.groups, Table.find_insertNew, if_pos ⟨rfl, c.free.1⟩]
    · refine (c.members _).trans ⟨fun hin => ?_, fun hin => .inr ⟨rfl, hin⟩⟩
      rcases hin with hin | hin
      · exact absurd hin ((h.absent _ hnone).2 e)
      · exact hin.2
  · rw [c.groups, Table.rows_insertNew c.free.1, List.map_append, List.map_singleton]
    refine List.nodup_append.mpr ⟨h.names, List.nodup_singleton _, ?_⟩
    intro x hx y hy
    obtain ⟨r, hr, rfl⟩ := List.mem_map.mp hx
    rw [List.mem_singleton.mp hy]
    exact c.free.2 r hr

end Created

namespace Edited

variable {now : Instant} {member : EndpointId → Prop}
  (d : Edited t now row member t')
include d

theorem find_self : t'.groups.find row.id =
    some { row with updatedAt := max now row.updatedAt } := by
  rw [d.groups, Table.find_replace, if_pos ⟨rfl, by rw [d.find]; rfl⟩]

theorem elsewhere : Elsewhere t row.id t' where
  find := fun id hne => by
    rw [d.groups, Table.find_replace, if_neg fun h => hne h.1.symm]
  members := fun id hne e => by
    refine (d.members _).trans ⟨fun hin => ?_, fun hin => .inr ⟨hne, hin⟩⟩
    rcases hin with hin | hin
    · exact absurd hin.1 hne
    · exact hin.2

theorem mem_self : ⟨row.id, e⟩ ∈ t'.members.rows ↔ member e := by
  refine (d.members _).trans ⟨fun hin => ?_, fun hin => .inl ⟨rfl, hin⟩⟩
  rcases hin with hin | hin
  · exact hin.2
  · exact absurd rfl hin.1

theorem names :
    t'.groups.rows.map GroupRow.name = t.groups.rows.map GroupRow.name := by
  rw [d.groups]
  refine (List.map_map ..).trans (List.map_congr_left fun x hx => ?_)
  obtain ⟨hrow, -⟩ := Table.find_eq_some_iff.mp d.find
  dsimp only [Function.comp_apply]
  split
  · next hid => rw [List.inj_on_of_nodup_map t.groups.nodup hx hrow hid]
  · rfl

theorem stands (h : Stands t groups) {group' : Group}
    (hgroup : groups row.id = some group) (hname : group'.name = group.name)
    (htime : group'.createdAt = group.createdAt)
    (hmember : ∀ x, member x ↔ x ∈ group'.memberEndpointIds) :
    Stands t' (Function.update groups row.id (some group')) := by
  refine h.update d.elsewhere (fun g hg => ?_) (fun hg => nomatch hg)
    (d.names ▸ h.names)
  cases hg
  obtain ⟨row', k⟩ := h.kept _ _ hgroup
  obtain rfl : row = row' := Option.some.inj (d.find.symm.trans k.find)
  exact ⟨_, d.find_self, k.name.trans (congrArg Name.text hname.symm),
    k.createdAt.trans htime.symm, le_trans k.timeline (le_max_right ..),
    fun e => d.mem_self.trans (hmember e)⟩

end Edited

theorem elsewhere_deleteGroup : Elsewhere t groupId (t.deleteGroup groupId) where
  find := fun id hne => Table.find_filter_of_key fun r hr => by simpa [hr] using hne
  members := fun id hne e => by
    simp only [Tables.deleteGroup, Table.filter, List.mem_filter, ne_eq, hne,
      not_false_eq_true, decide_true, and_true]

theorem Stands.deleteGroup (h : Stands t groups) (groupId : GroupId) :
    Stands (t.deleteGroup groupId) (Function.update groups groupId none) := by
  refine h.update elsewhere_deleteGroup (fun g hg => nomatch hg) (fun _ => ⟨?_, ?_⟩)
    ((List.filter_sublist.map GroupRow.name).nodup h.names)
  · refine Table.find_eq_none_iff.mpr fun r hr => ?_
    exact of_decide_eq_true (List.mem_filter.mp hr).2
  · exact fun e hin => of_decide_eq_true (List.mem_filter.mp hin).2 rfl

/-! ## Sequences of calls -/

/-- A call, the fault it meets and the clock it reads. -/
abbrev Event : Type := Option Fault × Instant × Call

/-- The tables, and the groups of the calls that succeeded. -/
structure Book where
  tables : Tables
  groups : Registry

def Book.call (b : Book) : Event → Book
  | (fault, now, c) =>
    let (result, tables) := perform fault now b.tables c
    ⟨tables, if result.isOk then replay b.groups c else b.groups⟩

def run (calls : List Event) : Book :=
  calls.foldl Book.call ⟨.empty, fun _ => none⟩

/-- A group that is there before and after has not grown younger. -/
def Later (t t' : Tables) : Prop :=
  ∀ groupId row row', t.groups.find groupId = some row →
    t'.groups.find groupId = some row' → row.updatedAt ≤ row'.updatedAt

theorem Elsewhere.later (w : Elsewhere t groupId t')
    (h : ∀ row row', t.groups.find groupId = some row →
      t'.groups.find groupId = some row' → row.updatedAt ≤ row'.updatedAt) :
    Later t t' := by
  intro id row row' hrow hrow'
  by_cases hid : id = groupId
  · subst hid
    exact h row row' hrow hrow'
  · rw [w.find id hid, hrow] at hrow'
    cases hrow'
    exact le_rfl

theorem Edited.later {now : Instant} {member : EndpointId → Prop}
    (d : Edited t now row member t') : Later t t' := by
  refine d.elsewhere.later fun r r' hr hr' => ?_
  obtain rfl := Option.some.inj (d.find.symm.trans hr)
  obtain rfl := Option.some.inj (d.find_self.symm.trans hr')
  exact le_max_right ..

/-- What a call does: it fails and changes nothing, or it does to the tables what
it does to the groups. -/
theorem perform_stands (h : Stands t groups) (fault : Option Fault) (now : Instant)
    (c : Call) :
    ((perform fault now t c).1.isOk = false ∧ (perform fault now t c).2 = t) ∨
      (perform fault now t c).1.isOk = true ∧
        Stands (perform fault now t c).2 (replay groups c) ∧
        Later t (perform fault now t c).2 := by
  unfold perform
  rcases transaction_cases GroupRepositoryError.ofFault fault t _ with
    ⟨e, hfail⟩ | ⟨_, t', -, hbody, hok⟩
  · rw [hfail]
    exact .inl ⟨rfl, rfl⟩
  rw [hok]
  refine .inr ⟨rfl, ?_⟩
  cases c with
  | create group =>
      rcases createGroup_ok hbody with ⟨⟨row, hrow⟩, rfl⟩ | hcreated
      · obtain ⟨stored, hstored⟩ := h.some_of_find hrow
        simp only [replay, hstored]
        refine ⟨h, fun id r r' hr hr' => ?_⟩
        rw [hr] at hr'
        cases hr'
        exact le_rfl
      · have hnone := h.none_of_find hcreated.free.1
        simp only [replay, hnone]
        refine ⟨hcreated.stands h hnone, hcreated.elsewhere.later fun r r' hr => ?_⟩
        rw [hcreated.free.1] at hr
        cases hr
  | addMember groupId e =>
      obtain ⟨row, rfl, d⟩ := addMember_ok hbody
      obtain ⟨group, hgroup⟩ := h.some_of_find d.find
      obtain ⟨row', k⟩ := h.kept _ _ hgroup
      simp only [replay, hgroup, Option.map_some]
      refine ⟨d.stands h hgroup Group.addMember_name Group.addMember_createdAt
        fun x => ?_, d.later⟩
      rw [Group.mem_addMember, k.members]
  | removeMember groupId e =>
      obtain ⟨row, rfl, d⟩ := removeMember_ok hbody
      obtain ⟨group, hgroup⟩ := h.some_of_find d.find
      obtain ⟨row', k⟩ := h.kept _ _ hgroup
      simp only [replay, hgroup, Option.map_some]
      refine ⟨d.stands h hgroup Group.removeMember_name
        Group.removeMember_createdAt fun x => ?_, d.later⟩
      rw [Group.mem_removeMember, k.members]
  | delete groupId =>
      dsimp only at hbody
      unfold Store.Groups.deleteGroup at hbody
      split at hbody
      · cases hbody
        refine ⟨h.deleteGroup groupId, elsewhere_deleteGroup.later fun r r' _ hr' => ?_⟩
        obtain ⟨hr', hid⟩ := Table.find_eq_some_iff.mp hr'
        exact absurd hid (of_decide_eq_true (List.mem_filter.mp hr').2)
      · cases hbody

theorem stands_run (calls : List Event) : Stands (run calls).tables (run calls).groups := by
  suffices ∀ b : Book, Stands b.tables b.groups →
      Stands (calls.foldl Book.call b).tables (calls.foldl Book.call b).groups from
    this _ stands_empty
  induction calls with
  | nil => exact fun b h => h
  | cons event calls ih =>
      intro b h
      obtain ⟨fault, now, c⟩ := event
      refine ih _ ?_
      simp only [Book.call]
      rcases perform_stands h fault now c with ⟨hfail, hsame⟩ | ⟨hok, hstands, -⟩
      · rw [hfail, hsame]
        exact h
      · rw [hok]
        exact hstands

/-- After any calls a group that is live is read back with the name and the members
that its own methods give the group as it was created, sorted, and what is no group
is not found; names are unique; the time of a group that stays never goes back; and
a call that fails changes nothing. -/
theorem store_refines_groups :
    (∀ calls groupId group, (run calls).groups groupId = some group →
      ∃ found, findGroup (run calls).tables groupId = .ok (some found) ∧
        found.id = groupId ∧ found.name = group.name ∧
        found.memberEndpointIds = group.memberEndpointIds ∧
        Rising EndpointId.uuid found.memberEndpointIds) ∧
    (∀ calls groupId, (run calls).groups groupId = none →
      findGroup (run calls).tables groupId = .ok none) ∧
    (∀ calls groupId groupId' group group',
      (run calls).groups groupId = some group →
      (run calls).groups groupId' = some group' → group.name = group'.name →
      groupId = groupId') ∧
    (∀ calls fault now c groupId found found',
      findGroup (run calls).tables groupId = .ok (some found) →
      findGroup (perform fault now (run calls).tables c).2 groupId =
        .ok (some found') → found.updatedAt ≤ found'.updatedAt) ∧
    ∀ calls fault now c,
      (perform fault now (run calls).tables c).1.isOk = false →
      (perform fault now (run calls).tables c).2 = (run calls).tables := by
  refine ⟨fun calls groupId group hgroup => ?_, fun calls groupId hnone => ?_,
    fun calls groupId groupId' group group' hgroup hgroup' hname => ?_,
    fun calls fault now c groupId found found' hfound hfound' => ?_,
    fun calls fault now c hfail => ?_⟩
  · obtain ⟨row, k⟩ := (stands_run calls).kept groupId group hgroup
    obtain ⟨found, hfound, hid, hname, hmembers, -⟩ := k.findGroup
    exact ⟨found, hfound, hid, hname, hmembers, hmembers ▸ group.rising⟩
  · exact (stands_run calls).findGroup_none hnone
  · obtain ⟨row, k⟩ := (stands_run calls).kept groupId group hgroup
    obtain ⟨row', k'⟩ := (stands_run calls).kept groupId' group' hgroup'
    obtain ⟨hin, hid⟩ := Table.find_eq_some_iff.mp k.find
    obtain ⟨hin', hid'⟩ := Table.find_eq_some_iff.mp k'.find
    have hrows : row = row' := List.inj_on_of_nodup_map (stands_run calls).names hin
      hin' (by rw [k.name, k'.name, hname])
    rw [← hid, hrows, hid']
  · obtain ⟨row, hrow, htime⟩ := (stands_run calls).updatedAt_of_findGroup hfound
    rcases perform_stands (stands_run calls) fault now c with
      ⟨-, hsame⟩ | ⟨-, hstands, hlater⟩
    · rw [hsame, hfound] at hfound'
      cases hfound'
      exact le_rfl
    · obtain ⟨row', hrow', htime'⟩ := hstands.updatedAt_of_findGroup hfound'
      rw [htime, htime']
      exact hlater groupId row row' hrow hrow'
  · rcases perform_stands (stands_run calls) fault now c with ⟨-, hsame⟩ | ⟨hok, -⟩
    · exact hsame
    · rw [hok] at hfail
      cases hfail

end Rutilus.Proofs.GroupRefinement
