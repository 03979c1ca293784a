import Mathlib.Data.Set.Insert
import Mathlib.Data.String.Basic
import Rutilus.Lib.Outcome
import Rutilus.Store.Tags

/-!
# The tags are one relation

A binding and the name row it refers to stand for one pair of an endpoint and a
name. Three facts tie the two tables together (`Sound`): names are unique, every
binding refers to a name row, and every name row has a binding. A write adds one
pair, takes one away or does nothing, and keeps the three; each listing reads the
pairs from its own end.
-/

namespace Rutilus.Proofs.TagRelation

open Rutilus.Domain Rutilus.Lib Rutilus.Store.Tags
open Rutilus.Store (Fault)

/-! ## The tables -/

structure Sound (t : Tables) : Prop where
  named : ∀ row ∈ t.tags.rows, ∃ name : TagName, name.text = row.name
  unique : (t.tags.rows.map TagRow.name).Nodup
  bound : ∀ b ∈ t.bindings.rows, ∃ row ∈ t.tags.rows, row.id = b.tagId
  used : ∀ row ∈ t.tags.rows, ∃ b ∈ t.bindings.rows, b.tagId = row.id

/-- The pair a binding and its name row stand for. -/
def Tagged (t : Tables) (endpointId : EndpointId) (name : TagName) : Prop :=
  ∃ row ∈ t.tags.rows, row.name = name.text ∧
    ⟨row.id, endpointId⟩ ∈ t.bindings.rows

theorem sound_empty : Sound .empty where
  named := fun _ h => absurd h List.not_mem_nil
  unique := .nil
  bound := fun _ h => absurd h List.not_mem_nil
  used := fun _ h => absurd h List.not_mem_nil

variable {t t' : Tables} {row row' : TagRow} {e : EndpointId} {name : TagName}

theorem findByName_some {text : String} (h : t.findByName text = some row) :
    row ∈ t.tags.rows ∧ row.name = text :=
  ⟨List.mem_of_find?_eq_some h, by simpa using List.find?_some h⟩

theorem findByName_none {text : String} (h : t.findByName text = none) :
    ∀ row ∈ t.tags.rows, row.name ≠ text := by
  simpa [Tables.findByName, List.find?_eq_none] using h

namespace Sound

variable (h : Sound t)
include h

theorem eq_of_name (hrow : row ∈ t.tags.rows) (hrow' : row' ∈ t.tags.rows)
    (hname : row.name = row'.name) : row = row' :=
  List.inj_on_of_nodup_map h.unique hrow hrow' hname

theorem findByName {text : String} (hrow : row ∈ t.tags.rows)
    (hname : row.name = text) : t.findByName text = some row := by
  cases hfind : t.findByName text with
  | none => exact absurd hname (findByName_none hfind row hrow)
  | some other =>
      obtain ⟨hother, hother'⟩ := findByName_some hfind
      rw [h.eq_of_name hother hrow (hother'.trans hname.symm)]

end Sound

theorem eq_of_id (hrow : row ∈ t.tags.rows) (hrow' : row' ∈ t.tags.rows)
    (hid : row.id = row'.id) : row = row' :=
  List.inj_on_of_nodup_map t.tags.nodup hrow hrow' hid

/-! ## What a write does -/

theorem key_injective : Function.Injective BindingRow.key := by
  intro a b h
  cases a
  cases b
  cases h
  rfl

/-- An assignment found the name row or created it. -/
structure Assigned (t : Tables) (generated : TagId) (e : EndpointId)
    (name : TagName) (t' : Tables) (row : TagRow) : Prop where
  name_eq : row.name = name.text
  tags : row ∈ t.tags.rows ∧ t'.tags = t.tags ∨
    row.id = generated ∧ (∀ r ∈ t.tags.rows, r.id ≠ generated ∧ r.name ≠ name.text) ∧
      t'.tags.rows = t.tags.rows ++ [row]
  bindings : ∀ b, b ∈ t'.bindings.rows ↔
    b = ⟨row.id, e⟩ ∨ b ∈ t.bindings.rows

theorem assignTag_ok {generated : TagId} {tag : Tag}
    (h : assignTag t generated e name = .ok (tag, t')) :
    ∃ row, Assigned t generated e name t' row := by
  obtain ⟨⟨tagId, t₁⟩, hfound, h⟩ := bind_ok h
  obtain ⟨t₂, hbind, h⟩ := bind_ok h
  cases h
  unfold Tables.insertBinding at hbind
  split at hbind
  · cases hbind
    unfold findOrCreateTag at hfound
    split at hfound
    · next row hrow =>
        cases hfound
        obtain ⟨hin, hname⟩ := findByName_some hrow
        exact ⟨row, hname, .inl ⟨hin, rfl⟩, fun b =>
          Table.mem_insertNew_of_injective key_injective⟩
    · next hnone =>
        obtain ⟨t₃, hinsert, hfound⟩ := bind_ok hfound
        cases hfound
        unfold Tables.insertTag at hinsert
        split at hinsert
        · cases hinsert
        · next hfree =>
            cases hinsert
            rw [not_or] at hfree
            have hnew : t.tags.find generated = none := by
              simpa [Table.has] using hfree.1
            refine ⟨⟨generated, name.text⟩, rfl, .inr ⟨rfl, fun r hr => ⟨?_, ?_⟩, ?_⟩,
              fun b =>
          Table.mem_insertNew_of_injective key_injective⟩
            · exact Table.find_eq_none_iff.mp hnew r hr
            · exact findByName_none hnone r hr
            · exact Table.rows_insertNew hnew
  · cases hbind

/-- A removal deleted the binding, and the name row if no other is left. -/
structure Removed (t : Tables) (e : EndpointId) (t' : Tables) (row : TagRow) :
    Prop where
  mem : row ∈ t.tags.rows
  bindings : ∀ b, b ∈ t'.bindings.rows ↔
    b ∈ t.bindings.rows ∧ b ≠ ⟨row.id, e⟩
  tags : (∃ b ∈ t'.bindings.rows, b.tagId = row.id) ∧ t'.tags = t.tags ∨
    (∀ b ∈ t'.bindings.rows, b.tagId ≠ row.id) ∧
      t'.tags = t.tags.filter fun r => r.id ≠ row.id

theorem removeTag_ok (h : removeTag t e name = .ok ((), t')) :
    (t.findByName name.text = none ∧ t' = t) ∨
      ∃ row, row.name = name.text ∧ Removed t e t' row := by
  unfold removeTag at h
  split at h
  · next hnone =>
      cases h
      exact .inl ⟨hnone, rfl⟩
  · next row hrow =>
      obtain ⟨hin, hname⟩ := findByName_some hrow
      have hmem : ∀ b, b ∈ (t.deleteBinding (row.id, e)).bindings.rows ↔
          b ∈ t.bindings.rows ∧ b ≠ ⟨row.id, e⟩ := by
        intro b
        obtain ⟨tagId, endpointId⟩ := b
        simp only [Tables.deleteBinding, Table.filter, BindingRow.key,
          List.mem_filter, decide_eq_true_eq, ne_eq, Prod.mk.injEq,
          BindingRow.mk.injEq]
      refine .inr ⟨row, hname, ?_⟩
      dsimp only at h
      split at h
      · next hlast =>
          cases h
          have hnone : ∀ b ∈ (t.deleteBinding (row.id, e)).bindings.rows,
              b.tagId ≠ row.id := by
            have := List.eq_nil_of_length_eq_zero hlast
            simpa [Tables.ofTag] using this
          refine ⟨hin, fun b => ?_, .inr ⟨fun b hb => ?_, rfl⟩⟩
          · rw [← hmem]
            simp only [Tables.deleteTag, Table.filter, List.mem_filter,
              decide_eq_true_eq, and_iff_left_iff_imp]
            exact hnone b
          · exact of_decide_eq_true (List.mem_filter.mp hb).2
      · next hmore =>
          cases h
          refine ⟨hin, hmem, .inl ⟨?_, rfl⟩⟩
          obtain ⟨b, hb⟩ := List.exists_mem_of_length_pos (Nat.pos_of_ne_zero hmore)
          obtain ⟨hb, hid⟩ := List.mem_filter.mp hb
          exact ⟨b, hb, of_decide_eq_true hid⟩

/-! ## The pairs -/

namespace Assigned

variable {generated : TagId} (a : Assigned t generated e name t' row)
include a

theorem mem_tags {r : TagRow} : r ∈ t'.tags.rows ↔ r = row ∨ r ∈ t.tags.rows := by
  obtain ⟨hin, htags⟩ | ⟨-, -, hrows⟩ := a.tags
  · rw [htags]
    exact ⟨.inr, fun h => h.elim (fun heq => heq ▸ hin) fun h => h⟩
  · rw [hrows, List.mem_append, List.mem_singleton]
    exact or_comm

theorem sound (h : Sound t) : Sound t' where
  named := fun r hr => by
    rcases a.mem_tags.mp hr with rfl | hr
    · exact ⟨name, a.name_eq.symm⟩
    · exact h.named r hr
  unique := by
    obtain ⟨-, htags⟩ | ⟨-, hfree, hrows⟩ := a.tags
    · rw [htags]
      exact h.unique
    · rw [hrows, List.map_append, List.map_singleton]
      refine List.nodup_append.mpr ⟨h.unique, List.nodup_singleton _, ?_⟩
      intro x hx y hy
      obtain ⟨r, hr, rfl⟩ := List.mem_map.mp hx
      rw [List.mem_singleton.mp hy, a.name_eq]
      exact (hfree r hr).2
  bound := fun b hb => by
    rcases (a.bindings b).mp hb with rfl | hb
    · exact ⟨row, a.mem_tags.mpr (.inl rfl), rfl⟩
    · obtain ⟨r, hr, hid⟩ := h.bound b hb
      exact ⟨r, a.mem_tags.mpr (.inr hr), hid⟩
  used := fun r hr => by
    rcases a.mem_tags.mp hr with rfl | hr
    · exact ⟨⟨r.id, e⟩, (a.bindings _).mpr (.inl rfl), rfl⟩
    · obtain ⟨b, hb, hid⟩ := h.used r hr
      exact ⟨b, (a.bindings b).mpr (.inr hb), hid⟩

/-- No binding waited for a name row that is new. -/
theorem mem_of_bound (h : Sound t) {x : EndpointId}
    (hb : ⟨row.id, x⟩ ∈ t.bindings.rows) : row ∈ t.tags.rows := by
  obtain ⟨hin, -⟩ | ⟨hid, hfree, -⟩ := a.tags
  · exact hin
  · obtain ⟨r, hr, hid'⟩ := h.bound _ hb
    exact absurd (hid'.trans hid) (hfree r hr).1

theorem tagged (h : Sound t) (x : EndpointId) (n : TagName) :
    Tagged t' x n ↔ (x, n) = (e, name) ∨ Tagged t x n := by
  constructor
  · rintro ⟨r, hr, hn, hb⟩
    rcases (a.bindings _).mp hb with hb | hb
    · injection hb with hid hx
      obtain rfl := eq_of_id hr (a.mem_tags.mpr (.inl rfl)) hid
      have hname : n = name := Name.text_inj (hn.symm.trans a.name_eq)
      exact .inl (by rw [hx, hname])
    · rcases a.mem_tags.mp hr with rfl | hr
      · exact .inr ⟨r, a.mem_of_bound h hb, hn, hb⟩
      · exact .inr ⟨r, hr, hn, hb⟩
  · rintro (heq | ⟨r, hr, hn, hb⟩)
    · cases heq
      exact ⟨row, a.mem_tags.mpr (.inl rfl), a.name_eq,
        (a.bindings _).mpr (.inl rfl)⟩
    · exact ⟨r, a.mem_tags.mpr (.inr hr), hn, (a.bindings _).mpr (.inr hb)⟩

end Assigned

namespace Removed

variable (d : Removed t e t' row)
include d

theorem mem_tags {r : TagRow} :
    r ∈ t'.tags.rows ↔ r ∈ t.tags.rows ∧
      (r = row → ∃ b ∈ t'.bindings.rows, b.tagId = row.id) := by
  obtain ⟨hmore, htags⟩ | ⟨hnone, htags⟩ := d.tags
  · rw [htags]
    exact ⟨fun h => ⟨h, fun _ => hmore⟩, And.left⟩
  · rw [htags]
    simp only [Table.filter, List.mem_filter, decide_eq_true_eq]
    refine and_congr_right fun hr => ⟨fun hne heq => ?_, fun hlast hid => ?_⟩
    · exact absurd (congrArg TagRow.id heq) hne
    · obtain ⟨b, hb, hb'⟩ := hlast (eq_of_id hr d.mem hid)
      exact hnone b hb hb'

/-- A name row stays as long as a binding refers to it. -/
theorem mem_of_bound {r : TagRow} (hr : r ∈ t.tags.rows) {b : BindingRow}
    (hb : b ∈ t'.bindings.rows) (hid : b.tagId = r.id) : r ∈ t'.tags.rows :=
  d.mem_tags.mpr ⟨hr, fun heq => ⟨b, hb, heq ▸ hid⟩⟩

theorem sound (h : Sound t) : Sound t' where
  named := fun r hr => h.named r (d.mem_tags.mp hr).1
  unique := by
    obtain ⟨-, htags⟩ | ⟨-, htags⟩ := d.tags
    · rw [htags]
      exact h.unique
    · rw [htags]
      exact (List.filter_sublist.map TagRow.name).nodup h.unique
  bound := fun b hb => by
    obtain ⟨r, hr, hid⟩ := h.bound b ((d.bindings b).mp hb).1
    exact ⟨r, d.mem_of_bound hr hb hid.symm, hid⟩
  used := fun r hr => by
    obtain ⟨hr, hlast⟩ := d.mem_tags.mp hr
    by_cases heq : r = row
    · rw [heq]
      exact hlast heq
    · obtain ⟨b, hb, hid⟩ := h.used r hr
      refine ⟨b, (d.bindings b).mpr ⟨hb, fun hb' => heq ?_⟩, hid⟩
      exact eq_of_id hr d.mem (hid.symm.trans (congrArg BindingRow.tagId hb'))

theorem tagged (h : Sound t) (hname : row.name = name.text) (x : EndpointId)
    (n : TagName) : Tagged t' x n ↔ Tagged t x n ∧ (x, n) ≠ (e, name) := by
  constructor
  · rintro ⟨r, hr, hn, hb⟩
    obtain ⟨hb, hne⟩ := (d.bindings _).mp hb
    refine ⟨⟨r, (d.mem_tags.mp hr).1, hn, hb⟩, fun heq => hne ?_⟩
    cases heq
    rw [h.eq_of_name (d.mem_tags.mp hr).1 d.mem (hn.trans hname.symm)]
  · rintro ⟨⟨r, hr, hn, hb⟩, hne⟩
    have hb' : ⟨r.id, x⟩ ∈ t'.bindings.rows := by
      refine (d.bindings _).mpr ⟨hb, fun heq => hne ?_⟩
      injection heq with hid hx
      obtain rfl := eq_of_id hr d.mem hid
      rw [hx, Name.text_inj (hn.symm.trans hname)]
    exact ⟨r, d.mem_of_bound hr hb' rfl, hn, hb'⟩

end Removed

/-! ## The listings -/

/-- One turn of the loop. -/
theorem readTags_cons (t : Tables) (e : EndpointId) (binding : BindingRow)
    (rest : List BindingRow) :
    Prog.run query (readTags e (binding :: rest)) t =
      match t.tags.find binding.tagId with
      | none => (.error (.corrupt binding.tagId .orphanBinding), t)
      | some row => match TagName.parse row.name with
        | .error source => (.error (.corrupt binding.tagId (.invalidName source)), t)
        | .ok name => match Prog.run query (readTags e rest) t with
          | (.ok tags, t') => (.ok (⟨binding.tagId, e, name⟩ :: tags), t')
          | (.error e, t') => (.error e, t') := by
  show Prog.run query (match t.tags.find binding.tagId with
    | none => throw (.corrupt binding.tagId .orphanBinding)
    | some row => match TagName.parse row.name with
      | .error source => throw (.corrupt binding.tagId (.invalidName source))
      | .ok name => do
        let tags ← readTags e rest
        return ⟨binding.tagId, e, name⟩ :: tags : Read (List Tag)) t = _
  cases t.tags.find binding.tagId with
  | none => rfl
  | some row =>
      dsimp only
      cases TagName.parse row.name with
      | error source => rfl
      | ok name =>
          dsimp only
          rw [Prog.run_bindE]
          obtain ⟨r, t'⟩ := Prog.run query (readTags e rest) t
          cases r <;> rfl

theorem tagsOf_eq (t : Tables) (e : EndpointId) :
    (Listing.tagsOf e).on t =
      (Prog.run query (readTags e (t.ofEndpoint e)) t).1.map fun tags =>
        tags.insertionSort Tag.nameUpTo := by
  show (Prog.run query (do
    let tags ← readTags e (t.ofEndpoint e)
    return tags.insertionSort Tag.nameUpTo : Read (List Tag)) t).1 = _
  rw [Prog.run_bindE]
  obtain ⟨r, t'⟩ := Prog.run query (readTags e (t.ofEndpoint e)) t
  cases r <;> rfl

theorem endpointsOf_eq (t : Tables) (n : TagName) :
    (Listing.endpointsOf n).on t =
      match t.findByName n.text with
      | none => .ok []
      | some row => .ok (((t.ofTag row.id).insertionSort
          fun a b => a.endpointId.uuid ≤ b.endpointId.uuid).map
            BindingRow.endpointId) := by
  show (Prog.run query (match t.findByName n.text with
    | none => pure []
    | some row => do
      let bindings : List BindingRow ←
        orThrow (call (.bindingsOfTag row.id)) fun (_ : DbErr) => .database
      return bindings.map BindingRow.endpointId : Read (List EndpointId)) t).1 = _
  cases t.findByName n.text with
  | none => rfl
  | some row => rfl

section Listings

variable (h : Sound t)
include h

theorem readTags_on (e : EndpointId) : ∀ bindings : List BindingRow,
    (∀ b ∈ bindings, b ∈ t.bindings.rows) →
    ∃ tags : List Tag,
      Prog.run query (readTags e bindings) t = (.ok tags, t) ∧
      tags.map Tag.id = bindings.map BindingRow.tagId ∧
      ∀ tag ∈ tags, tag.endpointId = e ∧
        ⟨tag.id, tag.name.text⟩ ∈ t.tags.rows
  | [], _ => ⟨[], rfl, rfl, fun _ hx => absurd hx List.not_mem_nil⟩
  | binding :: rest, hin => by
      obtain ⟨row, hrow, hid⟩ := h.bound binding (hin _ List.mem_cons_self)
      obtain ⟨name, hname⟩ := h.named row hrow
      obtain ⟨tags, hrun, hids, htags⟩ := readTags_on e rest
        fun b hb => hin b (List.mem_cons_of_mem _ hb)
      have hfind : t.tags.find binding.tagId = some row :=
        Table.find_eq_some_iff.mpr ⟨hrow, hid⟩
      have hparse : TagName.parse row.name = .ok name := hname ▸ Name.parse_text name
      refine ⟨⟨binding.tagId, e, name⟩ :: tags, ?_, ?_, fun tag htag => ?_⟩
      · rw [readTags_cons]
        simp only [hfind, hparse, hrun]
      · rw [List.map_cons, List.map_cons, hids]
      · rcases List.mem_cons.mp htag with rfl | htag
        · refine ⟨rfl, ?_⟩
          dsimp only
          rw [hname, ← hid]
          exact hrow
        · exact htags tag htag

/-- The names on an endpoint, each once and in order. -/
theorem tagsOf_on (e : EndpointId) :
    ∃ tags : List Tag, (Listing.tagsOf e).on t = .ok tags ∧
      (tags.map fun tag => tag.name.text).Pairwise (· < ·) ∧
      (∀ tag ∈ tags, tag.endpointId = e) ∧
      ∀ n, n ∈ tags.map Tag.name ↔ Tagged t e n := by
  have hin : ∀ b ∈ t.ofEndpoint e, b ∈ t.bindings.rows ∧ b.endpointId = e := by
    intro b hb
    simpa [Tables.ofEndpoint] using hb
  obtain ⟨tags, hrun, hids, htags⟩ := readTags_on h e _ fun b hb => (hin b hb).1
  have hnodup : (tags.map Tag.id).Nodup := by
    rw [hids]
    refine List.Nodup.map_on (fun b hb b' hb' hid => ?_)
      (List.Nodup.filter _ (List.Nodup.of_map _ t.bindings.nodup))
    have hend := (hin b hb).2.trans (hin b' hb').2.symm
    cases b
    cases b'
    simp only at hid hend
    rw [hid, hend]
  have hnames : (tags.map fun tag => tag.name.text).Nodup := by
    refine List.Nodup.map_on (fun a ha b hb hname => ?_) (List.Nodup.of_map _ hnodup)
    have hid := congrArg TagRow.id
      (h.eq_of_name (htags a ha).2 (htags b hb).2 hname)
    exact List.inj_on_of_nodup_map hnodup ha hb hid
  refine ⟨tags.insertionSort Tag.nameUpTo, ?_, ?_, ?_, ?_⟩
  · rw [tagsOf_eq, hrun]
    rfl
  · have : Std.Total Tag.nameUpTo := ⟨fun a b => le_total a.name.text b.name.text⟩
    have : IsTrans Tag Tag.nameUpTo := ⟨fun _ _ _ => le_trans⟩
    have hsorted := List.pairwise_insertionSort Tag.nameUpTo tags
    have hperm := (List.perm_insertionSort Tag.nameUpTo tags).map
      fun tag => tag.name.text
    rw [List.pairwise_map]
    exact hsorted.imp₂ (fun _ _ hle hne => lt_of_le_of_ne hle hne)
      (List.pairwise_map.mp (hperm.nodup_iff.mpr hnames))
  · intro tag htag
    exact (htags tag ((List.mem_insertionSort _).mp htag)).1
  · intro n
    rw [List.mem_map]
    constructor
    · rintro ⟨tag, htag, rfl⟩
      have htag := (List.mem_insertionSort _).mp htag
      have hid : tag.id ∈ (t.ofEndpoint e).map BindingRow.tagId :=
        hids ▸ List.mem_map_of_mem htag
      obtain ⟨b, hb, hb'⟩ := List.mem_map.mp hid
      refine ⟨_, (htags tag htag).2, rfl, ?_⟩
      dsimp only
      rw [← hb', ← (hin b hb).2]
      exact (hin b hb).1
    · rintro ⟨row, hrow, hname, hb⟩
      have hid : row.id ∈ tags.map Tag.id := by
        rw [hids]
        exact List.mem_map.mpr ⟨⟨row.id, e⟩, by simpa [Tables.ofEndpoint] using hb, rfl⟩
      obtain ⟨tag, htag, hid⟩ := List.mem_map.mp hid
      refine ⟨tag, (List.mem_insertionSort _).mpr htag, Name.text_inj ?_⟩
      rw [← hname, ← eq_of_id (htags tag htag).2 hrow hid]

/-- The endpoints of a name, each once and in order. -/
theorem endpointsOf_on (n : TagName) :
    ∃ endpoints : List EndpointId, (Listing.endpointsOf n).on t = .ok endpoints ∧
      Rising EndpointId.uuid endpoints ∧
      ∀ e, e ∈ endpoints ↔ Tagged t e n := by
  rw [endpointsOf_eq]
  cases hfind : t.findByName n.text with
  | none =>
      refine ⟨[], rfl, .nil, fun e => ?_⟩
      constructor
      · exact fun he => absurd he List.not_mem_nil
      · rintro ⟨row, hrow, hname, -⟩
        exact absurd hname (findByName_none hfind row hrow)
  | some row =>
      obtain ⟨hrow, hname⟩ := findByName_some hfind
      have hin : ∀ b, b ∈ t.ofTag row.id ↔ b ∈ t.bindings.rows ∧ b.tagId = row.id := by
        intro b
        simp [Tables.ofTag]
      refine ⟨_, rfl, ?_, fun e => ?_⟩
      · have hsorted := pairwise_insertionSort_key
          (fun b : BindingRow => b.endpointId.uuid) (t.ofTag row.id)
        have hnodup : (t.ofTag row.id).Nodup :=
          List.Nodup.filter _ (List.Nodup.of_map _ t.bindings.nodup)
        refine List.pairwise_map.mpr (List.Pairwise.imp_of_mem
          (fun ha hb hlt => lt_of_le_of_ne hlt.1 fun heq => hlt.2 ?_)
          (hsorted.and ((List.perm_insertionSort _ _).nodup_iff.mpr hnodup)))
        obtain ⟨-, ha⟩ := (hin _).mp ((List.mem_insertionSort _).mp ha)
        obtain ⟨-, hb⟩ := (hin _).mp ((List.mem_insertionSort _).mp hb)
        exact congrArg₂ BindingRow.mk (ha.trans hb.symm) (uuid_injective heq)
      · rw [List.mem_map]
        constructor
        · rintro ⟨b, hb, rfl⟩
          obtain ⟨hb, hid⟩ := (hin b).mp ((List.mem_insertionSort _).mp hb)
          exact ⟨row, hrow, hname, hid ▸ hb⟩
        · rintro ⟨r, hr, hname', hb⟩
          obtain rfl := h.eq_of_name hr hrow (hname'.trans hname.symm)
          exact ⟨⟨r.id, e⟩, (List.mem_insertionSort _).mpr ((hin _).mpr ⟨hb, rfl⟩), rfl⟩

end Listings

/-! ## Sequences of calls -/

/-- The pairs after a call that succeeded. -/
def replay (pairs : Set (EndpointId × TagName)) : Write → Set (EndpointId × TagName)
  | .assign _ endpointId name => insert (endpointId, name) pairs
  | .remove endpointId name => pairs \ {(endpointId, name)}

/-- The tables, and the pairs of the calls that succeeded. -/
structure Book where
  tables : Tables
  pairs : Set (EndpointId × TagName)

def Book.call (b : Book) (c : Option Fault × Write) : Book :=
  let (succeeded, tables) := perform c.1 b.tables c.2
  ⟨tables, if succeeded then replay b.pairs c.2 else b.pairs⟩

def run (calls : List (Option Fault × Write)) : Book :=
  calls.foldl Book.call ⟨.empty, ∅⟩

/-- The two tables say what the calls said. -/
structure Book.Good (b : Book) : Prop where
  sound : Sound b.tables
  pairs : ∀ e n, Tagged b.tables e n ↔ (e, n) ∈ b.pairs

/-- What a write does to the tables. -/
theorem perform_cases (fault : Option Fault) (t : Tables) (w : Write) :
    (perform fault t w).2 = t ∨
      (∃ generated e n row, w = .assign generated e n ∧
        Assigned t generated e n (perform fault t w).2 row) ∨
      ∃ e n row, w = .remove e n ∧ fault = none ∧ row.name = n.text ∧
        Removed t e (perform fault t w).2 row := by
  cases w with
  | assign generated e name =>
      rcases transaction_cases TagRepositoryError.ofFault fault t
        (fun t => assignTag t generated e name) with
        ⟨_, hfail⟩ | ⟨tag, t', -, hbody, hok⟩
      · exact .inl (by simp only [perform, transact, hfail])
      · obtain ⟨row, a⟩ := assignTag_ok hbody
        refine .inr (.inl ⟨generated, e, name, row, rfl, ?_⟩)
        simp only [perform, transact, hok]
        exact a
  | remove e name =>
      rcases transaction_cases TagRepositoryError.ofFault fault t
        (fun t => removeTag t e name) with
        ⟨_, hfail⟩ | ⟨_, t', hfault, hbody, hok⟩
      · exact .inl (by simp only [perform, transact, hfail])
      · rcases removeTag_ok hbody with ⟨-, rfl⟩ | ⟨row, hname, d⟩
        · exact .inl (by simp only [perform, transact, hok])
        · refine .inr (.inr ⟨e, name, row, rfl, hfault, hname, ?_⟩)
          simp only [perform, transact, hok]
          exact d

theorem perform_failed {fault : Option Fault} {t : Tables} {w : Write}
    (h : (perform fault t w).1 = false) : (perform fault t w).2 = t := by
  cases w with
  | assign generated e name =>
      rcases transaction_cases TagRepositoryError.ofFault fault t
        (fun t => assignTag t generated e name) with
        ⟨_, hfail⟩ | ⟨a, t', -, -, hok⟩
      · simp only [perform, transact, hfail]
      · simp only [perform, transact, hok] at h
        cases h
  | remove e name =>
      rcases transaction_cases TagRepositoryError.ofFault fault t
        (fun t => removeTag t e name) with
        ⟨_, hfail⟩ | ⟨a, t', -, -, hok⟩
      · simp only [perform, transact, hfail]
      · simp only [perform, transact, hok] at h
        cases h

theorem Book.Good.call {b : Book} (good : b.Good) (c : Option Fault × Write) :
    (b.call c).Good := by
  obtain ⟨fault, w⟩ := c
  unfold Book.call
  cases w with
  | assign generated e name =>
      rcases transaction_cases TagRepositoryError.ofFault fault b.tables
        (fun t => assignTag t generated e name) with
        ⟨_, hfail⟩ | ⟨tag, t', -, hbody, hok⟩
      · simp only [perform, transact, hfail]
        exact good
      · simp only [perform, transact, hok]
        obtain ⟨row, a⟩ := assignTag_ok hbody
        refine ⟨a.sound good.sound, fun x n => ?_⟩
        rw [a.tagged good.sound, good.pairs]
        exact Iff.rfl
  | remove e name =>
      rcases transaction_cases TagRepositoryError.ofFault fault b.tables
        (fun t => removeTag t e name) with
        ⟨_, hfail⟩ | ⟨_, t', -, hbody, hok⟩
      · simp only [perform, transact, hfail]
        exact good
      · simp only [perform, transact, hok]
        rcases removeTag_ok hbody with ⟨hnone, rfl⟩ | ⟨row, hname, d⟩
        · refine ⟨good.sound, fun x n => ?_⟩
          rw [good.pairs]
          refine ⟨fun hin => ⟨hin, fun heq => ?_⟩, And.left⟩
          obtain ⟨row, hrow, hname, -⟩ := (good.pairs x n).mpr hin
          cases heq
          exact findByName_none hnone row hrow hname
        · refine ⟨d.sound good.sound, fun x n => ?_⟩
          rw [d.tagged good.sound hname, good.pairs]
          exact Iff.rfl

theorem good_run (calls : List (Option Fault × Write)) : (run calls).Good := by
  suffices ∀ b : Book, b.Good → (calls.foldl Book.call b).Good from
    this _ ⟨sound_empty, fun e n => ⟨fun h => absurd h.choose_spec.1 List.not_mem_nil,
      fun h => absurd h (Set.notMem_empty _)⟩⟩
  induction calls with
  | nil => exact fun b good => good
  | cons c calls ih => exact fun b good => ih _ (good.call c)

/-- After any sequence of calls the two listings read one relation, the pairs
assigned and not removed since by calls that succeeded; the names are those of
its pairs, each on one row; and a call that fails changes nothing. -/
theorem listings_are_replay :
    (∀ calls e, ∃ tags : List Tag,
      (Listing.tagsOf e).on (run calls).tables = .ok tags ∧
      (tags.map fun tag => tag.name.text).Pairwise (· < ·) ∧
      (∀ tag ∈ tags, tag.endpointId = e) ∧
      ∀ n, n ∈ tags.map Tag.name ↔ (e, n) ∈ (run calls).pairs) ∧
    (∀ calls n, ∃ endpoints : List EndpointId,
      (Listing.endpointsOf n).on (run calls).tables = .ok endpoints ∧
      Rising EndpointId.uuid endpoints ∧
      ∀ e, e ∈ endpoints ↔ (e, n) ∈ (run calls).pairs) ∧
    (∀ calls, ((run calls).tables.tags.rows.map TagRow.name).Nodup ∧
      ∀ text, text ∈ (run calls).tables.tags.rows.map TagRow.name ↔
        ∃ e n, (e, n) ∈ (run calls).pairs ∧ n.text = text) ∧
    ∀ calls fault w, (perform fault (run calls).tables w).1 = false →
      (perform fault (run calls).tables w).2 = (run calls).tables := by
  refine ⟨fun calls e => ?_, fun calls n => ?_, fun calls => ?_,
    fun calls fault w => perform_failed⟩
  · obtain ⟨tags, hon, hsorted, hend, hmem⟩ := tagsOf_on (good_run calls).sound e
    exact ⟨tags, hon, hsorted, hend, fun n => (hmem n).trans ((good_run calls).pairs e n)⟩
  · obtain ⟨endpoints, hon, hsorted, hmem⟩ := endpointsOf_on (good_run calls).sound n
    exact ⟨endpoints, hon, hsorted, fun e => (hmem e).trans ((good_run calls).pairs e n)⟩
  · have good := good_run calls
    refine ⟨good.sound.unique, fun text => ?_⟩
    rw [List.mem_map]
    constructor
    · rintro ⟨row, hrow, rfl⟩
      obtain ⟨name, hname⟩ := good.sound.named row hrow
      obtain ⟨b, hb, hid⟩ := good.sound.used row hrow
      exact ⟨b.endpointId, name,
        (good.pairs _ _).mp ⟨row, hrow, hname.symm, hid ▸ hb⟩, hname⟩
    · rintro ⟨e, n, hin, rfl⟩
      obtain ⟨row, hrow, hname, -⟩ := (good.pairs e n).mpr hin
      exact ⟨row, hrow, hname⟩

end Rutilus.Proofs.TagRelation
