import Mathlib.Data.String.Basic
import Rutilus.Lib.Listing
import Rutilus.Store.EndpointCapabilities

/-!
# Capability reads after replacements

A replacement that succeeds leaves the endpoint with exactly the rows of its snapshot
and every other endpoint with the rows it had; one that fails leaves the tables as they
were. The rows of an endpoint are in order of their codes in a batch as well, since
sorting all rows and then taking those of one endpoint sorts these. So a batch answers
for each endpoint what the read of that endpoint answers, and both answer the last
snapshot.
-/

namespace Rutilus.Proofs.CapabilityReads

open Rutilus.Domain Rutilus.Lib Rutilus.Store.EndpointCapabilities

variable {t t' : CapabilityTables} {endpointId id : EndpointId}
  {observations : List EndpointCapabilityObservation} {observedAt createdAt : Instant}

/-! ## Snapshots -/

theorem validateFrom_ok_iff {capabilities : List EndpointCapability} :
    validateFrom capabilities observations = .ok () ↔
      (observations.map EndpointCapabilityObservation.capability).Nodup ∧
        ∀ o ∈ observations, o.capability ∉ capabilities := by
  induction observations generalizing capabilities with
  | nil => exact ⟨fun _ => ⟨List.nodup_nil, nofun⟩, fun _ => rfl⟩
  | cons o observations ih =>
      rw [validateFrom, List.map_cons, List.nodup_cons]
      split
      · next hin =>
          exact ⟨nofun, fun h => absurd hin (h.2 o (.head _))⟩
      · next hnew =>
          rw [ih]
          constructor
          · rintro ⟨hnodup, hout⟩
            refine ⟨⟨?_, hnodup⟩, ?_⟩
            · intro hmem
              obtain ⟨p, hp, heq⟩ := List.mem_map.mp hmem
              exact hout p hp (heq ▸ .head _)
            · intro p hp
              rcases List.mem_cons.mp hp with rfl | hp
              · exact hnew
              · exact fun hin => hout p hp (.tail _ hin)
          · rintro ⟨⟨hfirst, hnodup⟩, hout⟩
            refine ⟨hnodup, fun p hp hin => ?_⟩
            rcases List.mem_cons.mp hin with heq | hin
            · exact hfirst (heq ▸ List.mem_map_of_mem hp)
            · exact hout p (.tail _ hp) hin

theorem nodup_of_validateSnapshot (h : validateSnapshot observations = .ok ()) :
    (observations.map EndpointCapabilityObservation.capability).Nodup := by
  unfold validateSnapshot at h
  split at h
  · cases h
  · exact (validateFrom_ok_iff.mp h).1

/-! ## Replacing -/

/-- Different capabilities that are not there yet are all inserted. -/
theorem insertCapabilities_eq
    {table : Table (EndpointId × String) CapabilityModel CapabilityModel.key}
    (hnodup : (observations.map EndpointCapabilityObservation.capability).Nodup)
    (hfresh : ∀ o ∈ observations, ∀ model ∈ table.rows,
      model.key ≠ (endpointId, o.capability.asStr)) :
    ∃ table', insertCapabilities table endpointId observations observedAt =
        .ok table' ∧
      table'.rows = table.rows ++
        observations.map (capabilityModel endpointId observedAt) := by
  unfold insertCapabilities
  induction observations generalizing table with
  | nil => exact ⟨table, rfl, (List.append_nil _).symm⟩
  | cons o observations ih =>
      obtain ⟨hfirst, hnodup⟩ := List.nodup_cons.mp hnodup
      have hnone : table.find (capabilityModel endpointId observedAt o).key = none :=
        Table.find_eq_none_iff.mpr (hfresh o (.head _))
      have hhas : table.has (capabilityModel endpointId observedAt o).key = false := by
        unfold Table.has
        rw [hnone]
        rfl
      have hrows := Table.rows_insertNew hnone
      have hstill : ∀ p ∈ observations,
          ∀ model ∈ (table.insertNew (capabilityModel endpointId observedAt o)).rows,
            model.key ≠ (endpointId, p.capability.asStr) := by
        intro p hp model hmodel
        rw [hrows] at hmodel
        rcases List.mem_append.mp hmodel with hmodel | hmodel
        · exact hfresh p (.tail _ hp) model hmodel
        · rw [List.mem_singleton.mp hmodel]
          intro hkey
          have hcode := EndpointCapability.asStr_injective (Prod.mk.inj hkey).2
          exact hfirst (hcode ▸ List.mem_map_of_mem hp)
      obtain ⟨table', hinsert, hrows'⟩ := ih hnodup hstill
      refine ⟨table', ?_, ?_⟩
      · rw [List.foldlM_cons]
        dsimp only
        rw [hhas]
        exact hinsert
      · rw [hrows', hrows, List.append_assoc]
        rfl

/-- The rows of an endpoint. -/
def modelsOf (t : CapabilityTables) (id : EndpointId) : List CapabilityModel :=
  t.capabilities.rows.filter fun model => model.endpointId = id

/-- The endpoint has the rows of a snapshot, the others have what they had. -/
structure Replaced (t : CapabilityTables) (endpointId : EndpointId)
    (observations : List EndpointCapabilityObservation) (observedAt : Instant)
    (t' : CapabilityTables) : Prop where
  found : ∃ endpointModel, t.endpoints.find endpointId = some endpointModel ∧
    endpointModel.createdAt ≤ observedAt
  endpoints : t'.endpoints = t.endpoints
  rows : t'.capabilities.rows =
    (t.capabilities.rows.filter fun model => model.endpointId ≠ endpointId) ++
      observations.map (capabilityModel endpointId observedAt)

/-- A replacement happens as a whole or not at all. -/
theorem replace_cases (fault : Option ReplaceFault) :
    (∃ e, replaceEndpointCapabilities fault t endpointId observations observedAt =
      (.error e, t)) ∨
    ∃ t', replaceEndpointCapabilities fault t endpointId observations observedAt =
        (.ok (), t') ∧
      Replaced t endpointId observations observedAt t' := by
  unfold replaceEndpointCapabilities
  split
  · exact .inl ⟨_, rfl⟩
  · next hvalid =>
      rcases transaction_cases ReplaceFault.error fault t
          (replaceBody endpointId observations observedAt) with
        ⟨e, h⟩ | ⟨⟨⟩, t', -, hbody, h⟩
      · exact .inl ⟨e, h⟩
      · refine .inr ⟨t', h, ?_⟩
        unfold replaceBody at hbody
        split at hbody
        · next endpointModel hfind =>
            split at hbody
            · cases hbody
            · next htime =>
                have hgone : ∀ o ∈ observations,
                    ∀ model ∈ (t.capabilities.filter fun model =>
                        model.endpointId ≠ endpointId).rows,
                      model.key ≠ (endpointId, o.capability.asStr) := by
                  intro o _ model hmodel hkey
                  have hother := (List.mem_filter.mp hmodel).2
                  exact of_decide_eq_true hother (Prod.mk.inj hkey).1
                obtain ⟨table, hinsert, hrows⟩ :=
                  insertCapabilities_eq (nodup_of_validateSnapshot hvalid) hgone
                obtain ⟨table', hinsert', hbody⟩ := bind_ok hbody
                cases hbody
                cases hinsert.symm.trans hinsert'
                exact ⟨⟨endpointModel, hfind, not_lt.mp htime⟩, rfl, hrows⟩
        · cases hbody

/-! ## Reading -/

/-- Every row was observed at its endpoint, not before that was created. -/
def Sound (t : CapabilityTables) : Prop :=
  ∀ model ∈ t.capabilities.rows, ∃ endpointModel observation,
    t.endpoints.find model.endpointId = some endpointModel ∧
      endpointModel.createdAt ≤ model.observedAt ∧
      model = capabilityModel model.endpointId model.observedAt observation

theorem mapStoredCapability_model {observation : EndpointCapabilityObservation}
    (h : createdAt ≤ observedAt) :
    mapStoredCapability id createdAt
      (capabilityModel endpointId observedAt observation) =
        .ok ⟨observation, observedAt⟩ := by
  unfold mapStoredCapability capabilityModel
  dsimp only
  rw [EndpointCapability.fromStr_asStr, CapabilityState.fromStr_asStr]
  dsimp only
  rw [if_neg (not_lt.mpr h)]
  rfl

theorem Replaced.sound (ht : Sound t)
    (h : Replaced t endpointId observations observedAt t') : Sound t' := by
  obtain ⟨endpointModel, hfind, htime⟩ := h.found
  intro model hmodel
  rw [h.endpoints]
  rw [h.rows] at hmodel
  rcases List.mem_append.mp hmodel with hmodel | hmodel
  · exact ht model (List.mem_of_mem_filter hmodel)
  · obtain ⟨observation, -, rfl⟩ := List.mem_map.mp hmodel
    exact ⟨endpointModel, observation, hfind, htime, rfl⟩

/-- The rows of a snapshot in the order of their codes. -/
def snapshotOf (observations : List EndpointCapabilityObservation)
    (observedAt : Instant) : List StoredEndpointCapability :=
  (observations.insertionSort fun a b =>
    a.capability.asStr ≤ b.capability.asStr).map (⟨·, observedAt⟩)

theorem Replaced.modelsOf_self
    (h : Replaced t endpointId observations observedAt t') :
    modelsOf t' endpointId =
      observations.map (capabilityModel endpointId observedAt) := by
  unfold modelsOf
  rw [h.rows, List.filter_append, List.filter_filter]
  have hgone : t.capabilities.rows.filter (fun model =>
      decide (model.endpointId = endpointId) &&
        decide (model.endpointId ≠ endpointId)) = [] :=
    List.filter_eq_nil_iff.mpr fun model _ => by simp
  have hall : (observations.map (capabilityModel endpointId observedAt)).filter
      (fun model => model.endpointId = endpointId) =
        observations.map (capabilityModel endpointId observedAt) := by
    refine List.filter_eq_self.mpr fun model hmodel => ?_
    obtain ⟨observation, -, rfl⟩ := List.mem_map.mp hmodel
    exact decide_eq_true rfl
  rw [hgone, hall, List.nil_append]

theorem Replaced.modelsOf_other
    (h : Replaced t endpointId observations observedAt t') (hid : id ≠ endpointId) :
    modelsOf t' id = modelsOf t id := by
  unfold modelsOf
  rw [h.rows, List.filter_append, List.filter_filter]
  have hkept : t.capabilities.rows.filter (fun model =>
      decide (model.endpointId = id) && decide (model.endpointId ≠ endpointId)) =
        t.capabilities.rows.filter fun model => model.endpointId = id := by
    refine List.filter_congr fun model _ => ?_
    by_cases heq : model.endpointId = id
    · simp [heq, hid]
    · simp [heq]
  have hnone : (observations.map (capabilityModel endpointId observedAt)).filter
      (fun model => model.endpointId = id) = [] := by
    refine List.filter_eq_nil_iff.mpr fun model hmodel => ?_
    obtain ⟨observation, -, rfl⟩ := List.mem_map.mp hmodel
    exact fun heq => hid (of_decide_eq_true heq).symm
  rw [hkept, hnone, List.append_nil]

theorem findEndpointCapabilities_eq (t : CapabilityTables) (id : EndpointId) :
    findEndpointCapabilities t id =
      match t.endpoints.find id with
      | none => .ok none
      | some endpointModel => do
          return some (← (orderByCapability (modelsOf t id)).mapM
            (mapStoredCapability id endpointModel.createdAt)) := rfl

/-- The endpoint has its snapshot. -/
theorem Replaced.find_self (h : Replaced t endpointId observations observedAt t') :
    findEndpointCapabilities t' endpointId =
      .ok (some (snapshotOf observations observedAt)) := by
  obtain ⟨endpointModel, hfind, htime⟩ := h.found
  have hsorted : orderByCapability (modelsOf t' endpointId) =
      (observations.insertionSort fun a b =>
        a.capability.asStr ≤ b.capability.asStr).map
          (capabilityModel endpointId observedAt) := by
    rw [h.modelsOf_self]
    exact (List.map_insertionSort
      (fun a b : EndpointCapabilityObservation =>
        a.capability.asStr ≤ b.capability.asStr)
      (fun a b : CapabilityModel => a.capability ≤ b.capability)
      (capabilityModel endpointId observedAt) observations
      fun a _ b _ => Iff.rfl).symm
  have hmapped : (orderByCapability (modelsOf t' endpointId)).mapM
      (mapStoredCapability endpointId endpointModel.createdAt) =
        .ok (snapshotOf observations observedAt) := by
    rw [hsorted]
    exact mapM_map_ok_iff.mpr fun o _ => mapStoredCapability_model htime
  rw [findEndpointCapabilities_eq, h.endpoints, hfind]
  dsimp only
  rw [hmapped]
  rfl

/-- The other endpoints have what they had. -/
theorem Replaced.find_other (h : Replaced t endpointId observations observedAt t')
    (hid : id ≠ endpointId) :
    findEndpointCapabilities t' id = findEndpointCapabilities t id := by
  rw [findEndpointCapabilities_eq, findEndpointCapabilities_eq, h.endpoints,
    h.modelsOf_other hid]

/-! ## The batch -/

/-- In one endpoint no two rows have one code. -/
theorem eq_of_code {a b : CapabilityModel} (ha : a ∈ modelsOf t id)
    (hb : b ∈ modelsOf t id) (hcode : a.capability = b.capability) : a = b := by
  have ha := List.mem_filter.mp ha
  have hb := List.mem_filter.mp hb
  have hkey : a.key = b.key :=
    Prod.ext ((of_decide_eq_true ha.2).trans (of_decide_eq_true hb.2).symm) hcode
  exact List.inj_on_of_nodup_map t.capabilities.nodup ha.1 hb.1 hkey

/-- The rows of an endpoint among the sorted rows of many are its own, sorted. -/
theorem filter_orderByCapability {ids : List EndpointId} (hid : id ∈ ids) :
    (orderByCapability (t.capabilities.rows.filter fun model =>
      model.endpointId ∈ ids)).filter (fun model => model.endpointId = id) =
        orderByCapability (modelsOf t id) := by
  have hsame : (t.capabilities.rows.filter fun model => model.endpointId ∈ ids).filter
      (fun model => model.endpointId = id) = modelsOf t id := by
    rw [List.filter_filter]
    refine List.filter_congr fun model _ => ?_
    by_cases heq : model.endpointId = id
    · simp [heq, hid]
    · simp [heq]
  have htotal : Std.Total fun a b : CapabilityModel => a.capability ≤ b.capability :=
    ⟨fun a b => le_total _ _⟩
  have htrans : IsTrans CapabilityModel fun a b => a.capability ≤ b.capability :=
    ⟨fun _ _ _ => le_trans⟩
  have hperm : ((orderByCapability (t.capabilities.rows.filter fun model =>
      model.endpointId ∈ ids)).filter fun model => model.endpointId = id).Perm
        (orderByCapability (modelsOf t id)) := by
    rw [← hsame]
    exact ((List.perm_insertionSort _ _).filter _).trans
      (List.perm_insertionSort _ _).symm
  refine List.Perm.eq_of_pairwise (fun a b ha hb hab hba => ?_)
    ((List.pairwise_insertionSort _ _).sublist List.filter_sublist)
    (List.pairwise_insertionSort _ _) hperm
  exact eq_of_code ((List.mem_insertionSort _).mp (hperm.mem_iff.mp ha))
    ((List.mem_insertionSort _).mp hb) (le_antisymm hab hba)

section Group

variable {created : EndpointId → Option Instant} {m : ObservationMap}
  {models : List CapabilityModel}

/-- Rows that are read one by one are put apart by their endpoints. -/
theorem groupModels_ok
    (hall : ∀ model ∈ models, ∀ createdAt,
      created model.endpointId = some createdAt →
        ∃ c, mapStoredCapability model.endpointId createdAt model = .ok c) :
    ∃ m', models.foldlM (groupModel created) m = .ok m' ∧
      ∀ id, (created id = none → m' id = m id) ∧
        ∀ createdAt read, created id = some createdAt → m id = some read →
          ∃ capabilities, (models.filter fun model => model.endpointId = id).mapM
              (mapStoredCapability id createdAt) = .ok capabilities ∧
            m' id = some (read ++ capabilities) := by
  induction models generalizing m with
  | nil =>
      refine ⟨m, rfl, fun id => ⟨fun _ => rfl, fun createdAt read _ hread => ?_⟩⟩
      exact ⟨[], rfl, by rw [hread, List.append_nil]⟩
  | cons model models ih =>
      have hrest := fun other hother => hall other (.tail model hother)
      rw [List.foldlM_cons]
      cases hcreated : created model.endpointId with
      | none =>
          obtain ⟨m', hm', hspec⟩ := ih (m := m) hrest
          have hskip : groupModel created m model = .ok m := by
            unfold groupModel
            rw [hcreated]
          refine ⟨m', by rw [hskip]; exact hm', fun id => ⟨(hspec id).1, ?_⟩⟩
          intro createdAt read hid hread
          have hne : model.endpointId ≠ id := by
            rintro rfl
            cases hcreated.symm.trans hid
          rw [List.filter_cons_of_neg (by simpa using hne)]
          exact (hspec id).2 createdAt read hid hread
      | some createdAt =>
          obtain ⟨c, hc⟩ := hall model (.head _) createdAt hcreated
          obtain ⟨m', hm', hspec⟩ := ih (m := Function.update m model.endpointId
            (some ((m model.endpointId).getD [] ++ [c]))) hrest
          have hput : groupModel created m model = .ok (Function.update m
              model.endpointId (some ((m model.endpointId).getD [] ++ [c]))) := by
            unfold groupModel
            rw [hcreated]
            dsimp only
            rw [hc]
            rfl
          refine ⟨m', by rw [hput]; exact hm', fun id => ⟨fun hid => ?_, ?_⟩⟩
          · have hne : id ≠ model.endpointId := by
              rintro rfl
              cases hcreated.symm.trans hid
            rw [(hspec id).1 hid, Function.update_of_ne hne]
          · intro later read hid hread
            by_cases heq : id = model.endpointId
            · subst heq
              cases hcreated.symm.trans hid
              obtain ⟨capabilities, hmap, hm⟩ := (hspec model.endpointId).2 createdAt
                (read ++ [c]) hid (by rw [Function.update_self, hread]; rfl)
              refine ⟨c :: capabilities, ?_, ?_⟩
              · rw [List.filter_cons, if_pos (decide_eq_true rfl), List.mapM_cons, hc,
                  hmap]
                rfl
              · rw [hm, List.append_assoc]
                rfl
            · rw [List.filter_cons_of_neg (by simpa using Ne.symm heq)]
              exact (hspec id).2 later read hid
                (by rw [Function.update_of_ne heq, hread])

end Group

/-- The endpoints that were found start with no rows. -/
theorem initial_apply {created : EndpointId → Option Instant}
    (ids : List EndpointId) (m : ObservationMap) (id : EndpointId) :
    ids.foldl (fun m id =>
        if (created id).isSome then Function.update m id (some []) else m) m id =
      if id ∈ ids ∧ (created id).isSome then some [] else m id := by
  induction ids generalizing m with
  | nil => simp
  | cons first ids ih =>
      rw [List.foldl_cons, ih]
      by_cases hsome : (created first).isSome
      · rw [if_pos hsome]
        by_cases heq : id = first
        · subst heq
          simp [hsome]
        · simp [heq]
      · rw [if_neg hsome]
        by_cases heq : id = first
        · subst heq
          simp [hsome]
        · simp [heq]

theorem createdAtById_eq (t : CapabilityTables) (ids : List EndpointId)
    (id : EndpointId) :
    createdAtById t ids id =
      if id ∈ ids then (t.endpoints.find id).map EndpointModel.createdAt
      else none := by
  unfold createdAtById
  dsimp only
  rw [Table.find_filter]
  cases hfind : t.endpoints.find id with
  | none => simp
  | some endpointModel =>
      have hid : endpointModel.id = id := Table.key_of_find hfind
      by_cases hin : id ∈ ids
      · simp [Option.filter, hid, hin]
      · simp [Option.filter, hid, hin]

/-- A batch answers for an endpoint what the read of the endpoint answers. -/
theorem Sound.batch (ht : Sound t) (ids : List EndpointId) :
    ∃ m, findEndpointCapabilitiesBatch t ids = .ok m ∧
      (∀ id ∈ ids, findEndpointCapabilities t id = .ok (m id)) ∧
      ∀ id, id ∉ ids → m id = none := by
  unfold findEndpointCapabilitiesBatch
  split
  · next hnil =>
      exact ⟨_, rfl, by rw [hnil]; nofun, fun _ _ => rfl⟩
  · dsimp only
    have hread : ∀ model ∈ orderByCapability (t.capabilities.rows.filter fun model =>
        model.endpointId ∈ ids), ∀ createdAt,
          createdAtById t ids model.endpointId = some createdAt →
            ∃ c, mapStoredCapability model.endpointId createdAt model = .ok c := by
      intro model hmodel createdAt hcreated
      have hin := List.mem_filter.mp ((List.mem_insertionSort _).mp hmodel)
      obtain ⟨endpointModel, observation, hfind, htime, hmodel⟩ := ht model hin.1
      rw [createdAtById_eq, if_pos (of_decide_eq_true hin.2), hfind] at hcreated
      cases hcreated
      rw [hmodel]
      exact ⟨_, mapStoredCapability_model htime⟩
    obtain ⟨m, hm, hspec⟩ := groupModels_ok hread
    refine ⟨m, hm, fun id hid => ?_, fun id hid => ?_⟩
    · rw [findEndpointCapabilities_eq]
      cases hfind : t.endpoints.find id with
      | none =>
          have hnone : createdAtById t ids id = none := by
            rw [createdAtById_eq, hfind]
            simp
          rw [(hspec id).1 hnone, initial_apply, hnone]
          simp
      | some endpointModel =>
          have hsome : createdAtById t ids id = some endpointModel.createdAt := by
            rw [createdAtById_eq, if_pos hid, hfind]
            rfl
          obtain ⟨capabilities, hmap, happly⟩ :=
            (hspec id).2 endpointModel.createdAt [] hsome (by
              rw [initial_apply, hsome]
              simp [hid])
          rw [filter_orderByCapability hid] at hmap
          dsimp only
          rw [hmap, happly]
          rfl
    · have hnone : createdAtById t ids id = none := by
        rw [createdAtById_eq, if_neg hid]
      rw [(hspec id).1 hnone, initial_apply, hnone]
      simp

/-! ## Runs -/

/-- A call of the replacement, and the fault that ends it, if any does. -/
structure Call where
  fault : Option ReplaceFault
  endpointId : EndpointId
  observations : List EndpointCapabilityObservation
  observedAt : Instant

def Call.apply (t : CapabilityTables) (c : Call) :
    Except EndpointCapabilityRepositoryError Unit × CapabilityTables :=
  replaceEndpointCapabilities c.fault t c.endpointId c.observations c.observedAt

theorem Call.apply_cases (t : CapabilityTables) (c : Call) :
    (∃ e, c.apply t = (.error e, t)) ∨
    ∃ t', c.apply t = (.ok (), t') ∧
      Replaced t c.endpointId c.observations c.observedAt t' :=
  replace_cases c.fault

def runCalls (t : CapabilityTables) (calls : List Call) : CapabilityTables :=
  calls.foldl (fun t c => (c.apply t).2) t

/-- The last snapshot of the endpoint that was written. -/
def lastReplaced (id : EndpointId) : CapabilityTables → List Call →
    Option (List EndpointCapabilityObservation × Instant)
  | _, [] => none
  | t, c :: calls =>
      (lastReplaced id (c.apply t).2 calls).or <|
        match (c.apply t).1 with
        | .ok () =>
            if c.endpointId = id then some (c.observations, c.observedAt) else none
        | .error _ => none

/-- What is read after the run: the last snapshot, or what was there. -/
theorem find_runCalls (ht : Sound t) (calls : List Call) :
    Sound (runCalls t calls) ∧
      ∀ id, findEndpointCapabilities (runCalls t calls) id =
        match lastReplaced id t calls with
        | some (observations, observedAt) =>
            .ok (some (snapshotOf observations observedAt))
        | none => findEndpointCapabilities t id := by
  induction calls generalizing t with
  | nil => exact ⟨ht, fun _ => rfl⟩
  | cons c calls ih =>
      have hrun : runCalls t (c :: calls) = runCalls (c.apply t).2 calls := rfl
      rw [hrun]
      unfold lastReplaced
      obtain ⟨e, happly⟩ | ⟨t', happly, hreplaced⟩ := c.apply_cases t
      · rw [happly]
        dsimp only
        obtain ⟨hsound, hread⟩ := ih ht
        refine ⟨hsound, fun id => ?_⟩
        rw [Option.or_none]
        exact hread id
      · rw [happly]
        dsimp only
        obtain ⟨hsound, hread⟩ := ih (hreplaced.sound ht)
        refine ⟨hsound, fun id => ?_⟩
        rw [hread id]
        cases hlast : lastReplaced id t' calls with
        | some last => rfl
        | none =>
            by_cases hid : c.endpointId = id
            · rw [if_pos hid]
              subst hid
              exact hreplaced.find_self
            · rw [if_neg hid]
              exact hreplaced.find_other (Ne.symm hid)

/-- After any run of replacements a batch answers for each endpoint that is asked for
what the read of the endpoint answers, and for no other. That is the last snapshot
written for the endpoint, or what was there before the run. -/
theorem batch_agrees_with_reads (ht : Sound t) (calls : List Call)
    (ids : List EndpointId) :
    (∃ m, findEndpointCapabilitiesBatch (runCalls t calls) ids = .ok m ∧
      (∀ id ∈ ids, findEndpointCapabilities (runCalls t calls) id = .ok (m id)) ∧
      ∀ id, id ∉ ids → m id = none) ∧
    ∀ id, findEndpointCapabilities (runCalls t calls) id =
      match lastReplaced id t calls with
      | some (observations, observedAt) =>
          .ok (some (snapshotOf observations observedAt))
      | none => findEndpointCapabilities t id := by
  obtain ⟨hsound, hread⟩ := find_runCalls ht calls
  exact ⟨hsound.batch ids, hread⟩

/-! Two endpoints: one is probed twice and once in vain, the other never. -/

def twoEndpoints : CapabilityTables where
  endpoints := ⟨[⟨⟨1⟩, 5⟩, ⟨⟨2⟩, 5⟩], by decide⟩
  capabilities := .empty

def probes : List Call :=
  [⟨none, ⟨1⟩, [⟨.power, .supported⟩], 6⟩,
   ⟨none, ⟨1⟩, [⟨.thermal, .readOnly⟩, ⟨.bios, .supported⟩], 7⟩,
   ⟨some .database, ⟨1⟩, [⟨.ports, .supported⟩], 8⟩]

theorem probes_read :
    findEndpointCapabilities (runCalls twoEndpoints probes) ⟨1⟩ =
        .ok (some [⟨⟨.bios, .supported⟩, 7⟩, ⟨⟨.thermal, .readOnly⟩, 7⟩]) ∧
      findEndpointCapabilities (runCalls twoEndpoints probes) ⟨2⟩ = .ok (some []) ∧
      findEndpointCapabilities (runCalls twoEndpoints probes) ⟨3⟩ = .ok none ∧
      ∃ m, findEndpointCapabilitiesBatch (runCalls twoEndpoints probes)
          [⟨2⟩, ⟨1⟩, ⟨3⟩, ⟨1⟩] = .ok m ∧
        ∀ id ∈ [(⟨2⟩ : EndpointId), ⟨1⟩, ⟨3⟩, ⟨1⟩],
          findEndpointCapabilities (runCalls twoEndpoints probes) id = .ok (m id) := by
  obtain ⟨⟨m, hbatch, hagree, -⟩, hread⟩ :=
    batch_agrees_with_reads (t := twoEndpoints) nofun probes [⟨2⟩, ⟨1⟩, ⟨3⟩, ⟨1⟩]
  exact ⟨hread ⟨1⟩, hread ⟨2⟩, hread ⟨3⟩, m, hbatch, hagree⟩

end Rutilus.Proofs.CapabilityReads
