import Rutilus.Lib.Rely
import Rutilus.Report.Stores

/-!
# Projection writes, repeated

Two facts about the four writes carry the replay. The times they stamp do not
decide anything: forgetting the times before a write and after it comes to the
same. And a write that went through, made again at the same time, changes
nothing.
-/

namespace Rutilus.Proofs.ReplayWrites

open Rutilus.Domain Rutilus.Lib Rutilus.Store Rutilus.Report
open Rutilus.Report.CenterProjection Rutilus.Report.Replay

variable {t t' : ProjectionTables} {site : InstanceId} {now : Instant}

/-! ## Times -/

section Timeless

/-- A write result without the times. -/
def bare (r : ProjectionWrite) : ProjectionWrite :=
  r.map fun a => (a.1, a.2.timeless)

theorem find_endpoint_timeless {e : EndpointId} :
    t.timeless.endpoints.find e = (t.endpoints.find e).map EndpointRow.timeless :=
  Table.find_map EndpointRow.timeless_id

theorem replaceAddress_timeless {projection : EndpointProjectionWrite} :
    replaceAddress t.timeless projection 0 =
      (replaceAddress t projection now).map ProjectionTables.timeless := by
  have hactive : (t.timeless.addresses.rows.find? fun row =>
      row.endpointId = projection.endpointId) =
      (t.addresses.rows.find? fun row =>
        row.endpointId = projection.endpointId).map AddressRow.timeless :=
    Table.find?_map AddressRow.timeless_address fun _ => rfl
  have hrest : (t.timeless.addresses.filter fun row =>
      row.endpointId ≠ projection.endpointId) =
      (t.addresses.filter fun row =>
        row.endpointId ≠ projection.endpointId).map AddressRow.timeless
          AddressRow.timeless_address :=
    (Table.map_filter AddressRow.timeless_address fun _ => rfl).symm
  have hany : ((t.addresses.rows.find? fun row =>
      row.endpointId = projection.endpointId).map AddressRow.timeless).any
        (fun row => row.address = projection.address) =
      (t.addresses.rows.find? fun row =>
        row.endpointId = projection.endpointId).any
          fun row => row.address = projection.address := by
    rw [Option.any_map]
    rfl
  unfold replaceAddress
  dsimp only
  rw [hactive, hany, hrest]
  by_cases hsame : ((t.addresses.rows.find? fun row =>
      row.endpointId = projection.endpointId).any fun row =>
        row.address = projection.address) = true
  · rw [if_pos hsame, if_pos hsame]
    rfl
  · rw [if_neg hsame, if_neg hsame]
    have hhas : ∀ rest : Table String AddressRow AddressRow.address,
        (rest.map AddressRow.timeless AddressRow.timeless_address).has
          projection.address = rest.has projection.address := by
      intro rest
      simp only [Table.has, Table.find_map, Option.isSome_map]
    rw [hhas]
    by_cases htaken : (t.addresses.filter fun row =>
        row.endpointId ≠ projection.endpointId).has projection.address = true
    · rw [if_pos htaken, if_pos htaken]
      rfl
    · rw [if_neg htaken, if_neg htaken]
      refine congrArg some ?_
      simp only [ProjectionTables.timeless, Table.map_insertNew]
      rfl

theorem replaceTrust_timeless {projection : EndpointProjectionWrite} :
    replaceTrust t.timeless projection 0 =
      (replaceTrust t projection now).timeless := by
  have hfind : t.timeless.trusts.find projection.endpointId =
      (t.trusts.find projection.endpointId).map TrustRow.timeless :=
    Table.find_map TrustRow.timeless_endpointId
  have hany : ((t.trusts.find projection.endpointId).map
      TrustRow.timeless).any (fun row => row.trustMode = projection.trustMode) =
      (t.trusts.find projection.endpointId).any
        fun row => row.trustMode = projection.trustMode := by
    rw [Option.any_map]
    rfl
  unfold replaceTrust
  rw [hfind, hany]
  by_cases hsame : ((t.trusts.find projection.endpointId).any fun row =>
      row.trustMode = projection.trustMode) = true
  · rw [if_pos hsame, if_pos hsame]
  · rw [if_neg hsame, if_neg hsame]
    simp only [ProjectionTables.timeless, Table.map_put]
    rfl

theorem projectDetails_timeless {before : ProjectionTables}
    {projection : EndpointProjectionWrite} :
    projectDetails before.timeless t.timeless projection 0 =
      bare (projectDetails before t projection now) := by
  unfold projectDetails
  rw [@replaceAddress_timeless t now]
  cases replaceAddress t projection now with
  | none => rfl
  | some t₁ =>
      simp only [Option.map_some, @replaceTrust_timeless t₁ now]
      rfl

theorem upsertEndpoint_timeless {projection : EndpointProjectionWrite} :
    upsertEndpointProjection t.timeless projection site 0 =
      bare (upsertEndpointProjection t projection site now) := by
  unfold upsertEndpointProjection
  rw [find_endpoint_timeless]
  cases t.endpoints.find projection.endpointId with
  | none =>
      simp only [Option.map_none]
      split
      · rfl
      · rw [← projectDetails_timeless]
        congr 1
        simp only [ProjectionTables.timeless, Table.map_insertNew]
        rfl
  | some stored =>
      simp only [Option.map_some]
      have hsite : stored.timeless.siteId = stored.siteId := rfl
      have hgen : stored.timeless.refreshGeneration =
        stored.refreshGeneration := rfl
      have hbindings : t.timeless.bindings = t.bindings := rfl
      rw [hsite, hgen, hbindings]
      split
      · rfl
      · split
        · rfl
        · split
          · rfl
          · rw [← projectDetails_timeless]
            congr 1
            simp only [ProjectionTables.timeless, Table.map_replace]
            rfl

theorem deleteEndpoint_timeless {e : EndpointId} :
    deleteEndpointProjection t.timeless e site =
      bare (deleteEndpointProjection t e site) := by
  unfold deleteEndpointProjection
  rw [find_endpoint_timeless]
  cases t.endpoints.find e with
  | none => rfl
  | some stored =>
      simp only [Option.map_some]
      have hsite : stored.timeless.siteId = stored.siteId := rfl
      have hbindings : t.timeless.bindings = t.bindings := rfl
      rw [hsite, hbindings]
      split
      · rfl
      · simp only [bare, Except.map, deleteEndpoint, ProjectionTables.timeless]
        rw [Table.map_filter, Table.map_filter, Table.map_filter,
          Table.map_filter] <;> exact fun _ => rfl

theorem upsertResource_timeless {projection : ResourceProjectionWrite} :
    upsertResourceProjection t.timeless projection site 0 =
      bare (upsertResourceProjection t projection site now) := by
  unfold upsertResourceProjection
  rw [find_endpoint_timeless]
  cases t.endpoints.find projection.endpointId with
  | none => rfl
  | some stored =>
      simp only [Option.map_some]
      have hsite : stored.timeless.siteId = stored.siteId := rfl
      have hwatermark : snapshotWatermark t.timeless = snapshotWatermark t := rfl
      rw [hsite, hwatermark]
      split
      · rfl
      · split
        · rfl
        · split
          · rfl
          · simp only [bare, Except.map, ProjectionTables.timeless,
              Table.map_insertNew]
            rfl

theorem deleteResource_timeless {e : EndpointId} {odataId : String} :
    deleteResourceProjection t.timeless e odataId site =
      bare (deleteResourceProjection t e odataId site) := by
  unfold deleteResourceProjection
  rw [find_endpoint_timeless]
  cases t.endpoints.find e with
  | none => rfl
  | some stored =>
      simp only [Option.map_some]
      have hsite : stored.timeless.siteId = stored.siteId := rfl
      rw [hsite]
      split
      · rfl
      · have hresources : (t.resources.filter fun row =>
            ¬ (row.endpointId = e ∧ row.odataId = odataId)).map
              ResourceRow.timeless ResourceRow.timeless_key =
            (t.resources.map ResourceRow.timeless
              ResourceRow.timeless_key).filter
                fun row => ¬ (row.endpointId = e ∧ row.odataId = odataId) :=
          Table.map_filter ResourceRow.timeless_key fun _ => rfl
        simp only [bare, Except.map, deleteResource, ProjectionTables.timeless]
        rw [hresources]

end Timeless

/-! ## Repetition -/

section Again

variable {outcome : ProjectionWriteOutcome}

/-- The address row of the endpoint is the reported one. -/
def Addressed (t : ProjectionTables) (projection : EndpointProjectionWrite) :
    Prop :=
  ((t.addresses.rows.find? fun row =>
    row.endpointId = projection.endpointId).any fun row =>
      row.address = projection.address) = true

theorem replaceAddress_again {projection : EndpointProjectionWrite}
    (h : Addressed t projection) : replaceAddress t projection now = some t :=
  if_pos h

theorem replaceAddress_some {projection : EndpointProjectionWrite}
    (h : replaceAddress t projection now = some t') :
    Addressed t' projection ∧ t'.endpoints = t.endpoints := by
  unfold replaceAddress at h
  dsimp only at h
  split at h
  · next hsame =>
      cases h
      exact ⟨hsame, rfl⟩
  · split at h
    · cases h
    · next hfree =>
        cases h
        refine ⟨?_, rfl⟩
        rw [Table.has, Option.not_isSome_iff_eq_none] at hfree
        unfold Addressed
        dsimp only
        have hrows := Table.rows_insertNew
          (r := (⟨projection.endpointId, projection.address, now⟩ : AddressRow))
          hfree
        rw [hrows, List.find?_append]
        have hnone : ((t.addresses.filter fun row =>
            row.endpointId ≠ projection.endpointId).rows.find? fun row =>
              row.endpointId = projection.endpointId) = none := by
          rw [List.find?_eq_none]
          intro row hrow
          simpa using List.of_mem_filter hrow
        rw [hnone]
        simp

def Trusted (t : ProjectionTables) (projection : EndpointProjectionWrite) :
    Prop :=
  ((t.trusts.find projection.endpointId).any fun row =>
    row.trustMode = projection.trustMode) = true

theorem replaceTrust_again {projection : EndpointProjectionWrite}
    (h : Trusted t projection) : replaceTrust t projection now = t :=
  if_pos h

theorem replaceTrust_some {projection : EndpointProjectionWrite} :
    Trusted (replaceTrust t projection now) projection ∧
      (replaceTrust t projection now).endpoints = t.endpoints ∧
      (replaceTrust t projection now).addresses = t.addresses := by
  unfold replaceTrust
  dsimp only
  split
  · next hsame => exact ⟨hsame, rfl, rfl⟩
  · refine ⟨?_, rfl, rfl⟩
    unfold Trusted
    rw [Table.find_put, if_pos rfl, Option.any_some]
    exact decide_eq_true rfl

theorem projectDetails_again {before : ProjectionTables}
    {projection : EndpointProjectionWrite}
    (h : projectDetails before t projection now = .ok (outcome, t')) :
    t' = before ∨ t'.endpoints = t.endpoints ∧ ∀ before',
      projectDetails before' t' projection now = .ok (.applied, t') := by
  unfold projectDetails at h
  split at h
  · cases h
    exact .inl rfl
  · next t₁ haddress =>
      cases h
      obtain ⟨haddressed, hendpoints⟩ := replaceAddress_some haddress
      obtain ⟨htrusted, hendpoints', haddresses⟩ :=
        replaceTrust_some (t := t₁)
      refine .inr ⟨hendpoints'.trans hendpoints, fun before' => ?_⟩
      unfold projectDetails
      rw [replaceAddress_again (t := replaceTrust t₁ projection now)
        (by unfold Addressed; rw [haddresses]; exact haddressed)]
      simp only [replaceTrust_again htrusted]

/-- The row of an endpoint as its site reported it. -/
theorem upsertEndpoint_same {projection : EndpointProjectionWrite}
    {row : EndpointRow} (hrow : t.endpoints.find projection.endpointId = some row)
    (hsite : row.siteId = some site)
    (hgen : row.refreshGeneration = projection.refreshGeneration)
    (hmax : ¬ maxInteger < projection.refreshGeneration)
    (hsame : { row with
      displayName := projection.displayName
      refreshGeneration := projection.refreshGeneration
      health := projection.health
      updatedAt := now } = row) :
    upsertEndpointProjection t projection site now =
      projectDetails t t projection now := by
  unfold upsertEndpointProjection
  rw [hrow]
  dsimp only
  rw [if_neg fun h => h.1 hsite, if_neg (by rw [hgen]; exact Nat.lt_irrefl _),
    if_neg hmax, if_neg fun h => h.1 hsite, hsame,
    Table.replace_of_mem (Table.find_eq_some_iff.mp hrow).1]

theorem upsertEndpoint_again {projection : EndpointProjectionWrite}
    (h : upsertEndpointProjection t projection site now = .ok (outcome, t')) :
    ∃ outcome', upsertEndpointProjection t' projection site now =
      .ok (outcome', t') := by
  have hkeep : t' = t → ∃ outcome', upsertEndpointProjection t' projection site
      now = .ok (outcome', t') := by
    rintro rfl
    exact ⟨outcome, h⟩
  have h' := h
  unfold upsertEndpointProjection at h'
  split at h'
  · next stored hstored =>
      have hid : stored.id = projection.endpointId :=
        Table.key_of_find hstored
      simp only at h'
      split at h'
      · cases h'
        exact hkeep rfl
      · next hown =>
          split at h'
          · cases h'
            exact hkeep rfl
          · split at h'
            · cases h'
            · next hmax =>
                rcases projectDetails_again h' with rfl | ⟨hendpoints, hagain⟩
                · exact hkeep rfl
                · refine ⟨.applied, ?_⟩
                  have hrow := congrArg (Table.find · projection.endpointId)
                    hendpoints
                  dsimp only at hrow
                  rw [Table.find_replace, if_pos ⟨hid, by rw [hstored]; rfl⟩]
                    at hrow
                  rw [upsertEndpoint_same hrow ?_ rfl hmax rfl]
                  · exact hagain t'
                  · dsimp only
                    by_cases hsite : stored.siteId = some site
                    · rw [if_neg fun h => h.1 hsite, hsite]
                    · rw [if_pos (Decidable.by_contra fun hrehome =>
                        hown ⟨hsite, hrehome⟩)]
  · next hnone =>
      split at h'
      · cases h'
      · next hmax =>
          rcases projectDetails_again h' with rfl | ⟨hendpoints, hagain⟩
          · exact hkeep rfl
          · refine ⟨.applied, ?_⟩
            have hrow := congrArg (Table.find · projection.endpointId)
              hendpoints
            dsimp only at hrow
            rw [Table.find_insertNew, if_pos ⟨rfl, hnone⟩] at hrow
            rw [upsertEndpoint_same hrow rfl rfl hmax rfl]
            exact hagain t'

theorem deleteEndpoint_again {e : EndpointId}
    (h : deleteEndpointProjection t e site = .ok (outcome, t')) :
    ∃ outcome', deleteEndpointProjection t' e site = .ok (outcome', t') := by
  have h' := h
  unfold deleteEndpointProjection at h'
  split at h'
  · cases h'
    exact ⟨_, h⟩
  · split at h'
    · cases h'
      exact ⟨_, h⟩
    · cases h'
      have hgone : (deleteEndpoint t e).endpoints.find e = none := by
        refine Table.find_eq_none_iff.mpr fun row hrow => ?_
        obtain ⟨-, hne⟩ : row ∈ t.endpoints.rows ∧ decide (row.id ≠ e) = true :=
          List.mem_filter.mp hrow
        exact of_decide_eq_true hne
      refine ⟨.applied, ?_⟩
      unfold deleteEndpointProjection
      rw [hgone]

/-- No snapshot of the resource is newer. -/
def Newest (t : ProjectionTables) (e : EndpointId) (odataId : String)
    (generation : Nat) : Prop :=
  ∀ row ∈ t.snapshots.rows, row.endpointId = e → row.odataId = odataId →
    row.generation ≤ generation

theorem newest_iff {e : EndpointId} {odataId : String} {generation : Nat} :
    ((snapshotWatermark t e odataId).any fun watermark =>
      generation < watermark) = false ↔ Newest t e odataId generation := by
  unfold snapshotWatermark Newest
  generalize hgens : ((t.snapshots.rows.filter fun row =>
    row.endpointId = e ∧ row.odataId = odataId).map SnapshotRow.generation) =
      gens
  have hmem : ∀ n, n ∈ gens ↔ ∃ row ∈ t.snapshots.rows, row.endpointId = e ∧
      row.odataId = odataId ∧ row.generation = n := by
    intro n
    rw [← hgens, List.mem_map]
    constructor
    · rintro ⟨row, hrow, rfl⟩
      obtain ⟨hrow, hkey⟩ := List.mem_filter.mp hrow
      obtain ⟨he, hr⟩ := of_decide_eq_true hkey
      exact ⟨row, hrow, he, hr, rfl⟩
    · rintro ⟨row, hrow, he, hr, rfl⟩
      exact ⟨row, List.mem_filter.mpr ⟨hrow, decide_eq_true ⟨he, hr⟩⟩, rfl⟩
  cases hmax : gens.max? with
  | none =>
      rw [List.max?_eq_none_iff] at hmax
      refine iff_of_true rfl fun row hrow he hr => ?_
      have := (hmem row.generation).mpr ⟨row, hrow, he, hr, rfl⟩
      rw [hmax] at this
      cases this
  | some watermark =>
      obtain ⟨hin, hle⟩ := List.max?_eq_some_iff.mp hmax
      simp only [Option.any_some, decide_eq_false_iff_not, Nat.not_lt]
      constructor
      · intro hw row hrow he hr
        exact Nat.le_trans
          (hle _ ((hmem row.generation).mpr ⟨row, hrow, he, hr, rfl⟩)) hw
      · intro hall
        obtain ⟨row, hrow, he, hr, rfl⟩ := (hmem watermark).mp hin
        exact hall row hrow he hr

theorem upsertResource_again {projection : ResourceProjectionWrite}
    (h : upsertResourceProjection t projection site now = .ok (outcome, t')) :
    ∃ outcome', upsertResourceProjection t' projection site now =
      .ok (outcome', t') := by
  have h' := h
  unfold upsertResourceProjection at h'
  split at h'
  · cases h'
    exact ⟨_, h⟩
  · next stored hstored =>
      split at h'
      · cases h'
        exact ⟨_, h⟩
      · next hown =>
          split at h'
          · cases h'
            exact ⟨_, h⟩
          · next hstale =>
              split at h'
              · cases h'
              · next hmax =>
                  cases h'
                  refine ⟨.applied, ?_⟩
                  rw [Bool.not_eq_true, newest_iff] at hstale
                  unfold upsertResourceProjection
                  dsimp only
                  rw [hstored]
                  dsimp only
                  rw [if_neg hown, if_neg ?_, if_neg hmax]
                  · rw [Table.put_of_find Table.find_put_self,
                      Table.insertNew_again]
                  · rw [Bool.not_eq_true, newest_iff]
                    intro row hrow he hr
                    rcases Table.mem_put hrow with rfl | hrow
                    · exact Nat.le_refl _
                    · exact hstale row hrow he hr

theorem deleteResource_again {e : EndpointId} {odataId : String}
    (h : deleteResourceProjection t e odataId site = .ok (outcome, t')) :
    ∃ outcome', deleteResourceProjection t' e odataId site =
      .ok (outcome', t') := by
  have h' := h
  unfold deleteResourceProjection at h'
  split at h'
  · cases h'
    exact ⟨_, h⟩
  · next stored hstored =>
      split at h'
      · cases h'
        exact ⟨_, h⟩
      · next hown =>
          cases h'
          refine ⟨.applied, ?_⟩
          unfold deleteResourceProjection
          have hstored' : (deleteResource t e odataId).endpoints.find e =
            some stored := hstored
          rw [hstored']
          dsimp only
          rw [if_neg hown]
          unfold deleteResource
          dsimp only
          rw [Table.filter_self, Table.filter_self]

end Again

end Rutilus.Proofs.ReplayWrites
