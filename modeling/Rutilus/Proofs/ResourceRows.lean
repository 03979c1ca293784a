import Rutilus.Lib.Listing
import Rutilus.Lib.Outcome
import Rutilus.Store.ResourceSnapshots

/-!
# The rows of a generation

A commit places every observation: it finds the resource under its `@odata.id` or
makes one, and adds a snapshot of it (`Looped`). What it adds to the tables is one
block of snapshots, so the join of an endpoint grows by exactly the placed
observations, and that of the others does not change.
-/

namespace Rutilus.Proofs.ResourceRows

open Rutilus.Domain hiding ResourceFeature
open Rutilus.Domain.Resource Rutilus.Lib Rutilus.Store.Resources

variable {canonicalize : Canonicalize}

/-! ## Resources -/

/-- An `@odata.id` names one resource of an endpoint. -/
def OneEach (t : Tables) : Prop :=
  ∀ a ∈ t.resources.rows, ∀ b ∈ t.resources.rows,
    a.endpointId = b.endpointId → a.odataId = b.odataId → a = b

/-- A resource that can be read. -/
structure RowSound (t : Tables) (row : ResourceModel) : Prop where
  endpoint : ∃ endpoint, t.endpoints.find row.endpointId = some endpoint ∧
    endpoint.createdAt ≤ row.createdAt
  odataId : ∃ odataId : ResourceODataId, row.odataId = odataId.text
  feature : ∃ feature : ResourceFeature, row.feature = feature.asStr

structure Sound (t : Tables) : Prop where
  oneEach : OneEach t
  rows : ∀ id row, t.resources.find id = some row → RowSound t row
  snapshots : ∀ s ∈ t.snapshots.rows,
    (t.resources.find s.resourceId).isSome = true

theorem existing_some {t : Tables} {endpointId : EndpointId} {odataId : String}
    {row : ResourceModel} (h : existing t endpointId odataId = some row) :
    t.resources.find row.id = some row ∧ row.endpointId = endpointId ∧
      row.odataId = odataId := by
  have hp := List.find?_some h
  simp only [decide_eq_true_eq] at hp
  exact ⟨Table.find_eq_some_iff.mpr ⟨List.mem_of_find?_eq_some h, rfl⟩, hp⟩

/-! ## One placement -/

/-- An observation with the resource it is of. -/
abbrev Placed (canonicalize : Canonicalize) : Type :=
  NewResourceSnapshot canonicalize × ResourceModel

/-- The known resource, or a new one. -/
def Chosen (known : Option ResourceModel) (endpointId : EndpointId)
    (observedAt : Instant) (q : Placed canonicalize) : Prop :=
  match known with
  | some model => q.2 = model
  | none => q.2 = resourceModel q.2.id endpointId q.1 observedAt

/-- A resource that a commit made. -/
structure Made (endpointId : EndpointId) (observedAt : Instant)
    (row : ResourceModel) : Prop where
  endpointId : row.endpointId = endpointId
  createdAt : row.createdAt = observedAt
  odataId : ∃ odataId : ResourceODataId, row.odataId = odataId.text
  feature : ∃ feature : ResourceFeature, row.feature = feature.asStr

/-- Only resources of the endpoint have been added. -/
structure Added (endpointId : EndpointId) (observedAt : Instant)
    (t t' : Tables) : Prop where
  kept : ∀ id row, t.resources.find id = some row →
    t'.resources.find id = some row
  new : ∀ id row, t'.resources.find id = some row →
    t.resources.find id = some row ∨ Made endpointId observedAt row
  oneEach : OneEach t → OneEach t'
  endpoints : t'.endpoints = t.endpoints
  decodeFailures : t'.decodeFailures = t.decodeFailures

section Added

variable {t t' t'' : Tables} {endpointId : EndpointId} {observedAt : Instant}

theorem Added.refl : Added endpointId observedAt t t :=
  ⟨fun _ _ h => h, fun _ _ h => .inl h, fun h => h, rfl, rfl⟩

theorem Added.trans (h : Added endpointId observedAt t t')
    (h' : Added endpointId observedAt t' t'') :
    Added endpointId observedAt t t'' where
  kept := fun id row hrow => h'.kept id row (h.kept id row hrow)
  new := fun id row hrow => by
    rcases h'.new id row hrow with hold | hmade
    · exact h.new id row hold
    · exact .inr hmade
  oneEach := fun hone => h'.oneEach (h.oneEach hone)
  endpoints := h'.endpoints.trans h.endpoints
  decodeFailures := h'.decodeFailures.trans h.decodeFailures

theorem insertResource_ok {row : ResourceModel}
    (h : insertResource t row = .ok t') :
    t.resources.find row.id = none ∧
      existing t row.endpointId row.odataId = none ∧
      t' = { t with resources := t.resources.insertNew row } := by
  unfold insertResource at h
  split at h
  · cases h
  · next hfree =>
      cases h
      exact ⟨Option.not_isSome_iff_eq_none.mp fun h => hfree (.inl h),
        Option.not_isSome_iff_eq_none.mp fun h => hfree (.inr h), rfl⟩

theorem insertResource_added {row : ResourceModel}
    (h : insertResource t row = .ok t') (hmade : Made endpointId observedAt row) :
    Added endpointId observedAt t t' := by
  obtain ⟨hid, hexisting, rfl⟩ := insertResource_ok h
  refine ⟨fun id r hr => ?_, fun id r hr => ?_, fun hone a ha b hb hend hodata => ?_,
    rfl, rfl⟩
  · dsimp only
    rw [Table.find_insertNew, if_neg]
    · exact hr
    · rintro ⟨-, hnone⟩
      rw [hnone] at hr
      cases hr
  · dsimp only at hr
    rw [Table.find_insertNew] at hr
    split at hr
    · cases hr
      exact .inr hmade
    · exact .inl hr
  · dsimp only at ha hb
    rw [Table.rows_insertNew hid, List.mem_append, List.mem_singleton] at ha hb
    -- an old row under the new one's name would have been found
    have hold : ∀ c ∈ t.resources.rows, c.endpointId = row.endpointId →
        c.odataId = row.odataId → False := fun c hc he ho => by
      have hno := List.find?_eq_none.mp hexisting c hc
      simp [he, ho] at hno
    rcases ha with ha | rfl
    · rcases hb with hb | rfl
      · exact hone a ha b hb hend hodata
      · exact (hold a ha hend hodata).elim
    · rcases hb with hb | rfl
      · exact (hold b hb hend.symm hodata.symm).elim
      · rfl

theorem resourceFor_ok {known : Option ResourceModel} {id resourceId : ResourceId}
    {observation : NewResourceSnapshot canonicalize}
    (hknown : ∀ model, known = some model →
      t.resources.find model.id = some model)
    (h : resourceFor t endpointId known id observation observedAt =
      .ok (resourceId, t')) :
    Added endpointId observedAt t t' ∧ t'.snapshots = t.snapshots ∧
      ∃ row, row.id = resourceId ∧ t'.resources.find resourceId = some row ∧
        Chosen known endpointId observedAt (observation, row) := by
  cases known with
  | some model =>
      cases h
      exact ⟨.refl, rfl, model, rfl, hknown model rfl, rfl⟩
  | none =>
      obtain ⟨u, hinsert, hu⟩ := map_ok h
      cases hu
      obtain ⟨hid, -, rfl⟩ := insertResource_ok hinsert
      refine ⟨insertResource_added hinsert ⟨rfl, rfl, ⟨_, rfl⟩, ⟨_, rfl⟩⟩, rfl,
        resourceModel id endpointId observation observedAt, rfl, ?_, rfl⟩
      dsimp only
      rw [Table.find_insertNew, if_pos ⟨rfl, hid⟩]

theorem insertSnapshot_ok {row : SnapshotModel}
    (h : insertSnapshot t row = .ok t') :
    t.snapshots.find row.key = none ∧
      t' = { t with snapshots := t.snapshots.insertNew row } := by
  unfold insertSnapshot at h
  split at h
  · cases h
  · next hfree =>
      cases h
      exact ⟨Option.not_isSome_iff_eq_none.mp hfree, rfl⟩

theorem insertSnapshot_added {row : SnapshotModel} :
    Added endpointId observedAt t
      { t with snapshots := t.snapshots.insertNew row } :=
  ⟨fun _ _ h => h, fun _ _ h => .inl h, fun h => h, rfl, rfl⟩

end Added

/-! ## The loop -/

/-- What the loop leaves: one block of snapshots. -/
structure Looped (endpointId : EndpointId) (generation : RefreshGeneration)
    (observedAt : Instant) (known : String → Option ResourceModel)
    (t t' : Tables) (placed : List (Placed canonicalize)) : Prop where
  added : Added endpointId observedAt t t'
  rows : t'.snapshots.rows = t.snapshots.rows ++ placed.map fun q =>
    snapshotModel q.2.id generation q.1 observedAt
  placed : ∀ q ∈ placed, t'.resources.find q.2.id = some q.2 ∧
    Chosen (known q.1.odataId.text) endpointId observedAt q

section Loop

variable {endpointId : EndpointId} {generation : RefreshGeneration}
  {observedAt : Instant} {known : String → Option ResourceModel}
  {fresh : Nat → ResourceId}

/-- The answer to a placed observation. -/
def answerOf (endpointId : EndpointId) (generation : RefreshGeneration)
    (observedAt : Instant) (q : Placed canonicalize) :
    ResourceSnapshot canonicalize :=
  toDomainSnapshot q.2.id endpointId generation q.1 observedAt

theorem insertObservations_looped
    {observations : List (NewResourceSnapshot canonicalize)} {n : Nat}
    {t t' : Tables} {snapshots : List (ResourceSnapshot canonicalize)}
    (hknown : ∀ odataId model, known odataId = some model →
      t.resources.find model.id = some model)
    (h : insertObservations endpointId generation observedAt known fresh n t
      observations = .ok (snapshots, t')) :
    ∃ placed, placed.map Prod.fst = observations ∧
      snapshots = placed.map (answerOf endpointId generation observedAt) ∧
      Looped endpointId generation observedAt known t t' placed := by
  induction observations generalizing n t snapshots with
  | nil =>
      cases h
      exact ⟨[], rfl, rfl, .refl, (List.append_nil _).symm,
        fun q hq => absurd hq List.not_mem_nil⟩
  | cons observation rest ih =>
      obtain ⟨⟨resourceId, t₁⟩, hfor, h⟩ := bind_ok h
      obtain ⟨t₂, hsnapshot, h⟩ := bind_ok h
      obtain ⟨⟨snapshots', t₃⟩, hrest, h⟩ := bind_ok h
      cases h
      obtain ⟨hadded, hsame, row, rfl, hrow, hchosen⟩ :=
        resourceFor_ok (hknown _) hfor
      obtain ⟨hkey, ht₂⟩ := insertSnapshot_ok hsnapshot
      have hknown' : ∀ odataId model, known odataId = some model →
          t₂.resources.find model.id = some model := by
        intro odataId model hmodel
        rw [ht₂]
        exact hadded.kept _ _ (hknown odataId model hmodel)
      obtain ⟨placed, hfst, rfl, hloop⟩ := ih hknown' hrest
      subst ht₂
      refine ⟨(observation, row) :: placed, ?_, rfl, ?_⟩
      · rw [List.map_cons, hfst]
      · refine ⟨hadded.trans (insertSnapshot_added.trans hloop.added), ?_,
          fun q hq => ?_⟩
        · rw [hloop.rows]
          dsimp only
          rw [Table.rows_insertNew hkey, hsame, List.map_cons,
            List.append_assoc, List.singleton_append]
        · rcases List.mem_cons.mp hq with rfl | hq
          · exact ⟨hloop.added.kept _ _ hrow, hchosen⟩
          · exact hloop.placed q hq

end Loop

/-! ## The commit -/

/-- An observation and its resource belong together. The resource is not newer
than the observation unless it was known before and is. -/
structure PlacedWell (before : Tables) (endpointId : EndpointId)
    (observedAt : Instant) (q : Placed canonicalize) : Prop where
  owner : q.2.endpointId = endpointId
  name : q.2.odataId = q.1.odataId.text
  feature : q.2.feature = q.1.feature.asStr
  time : q.2.createdAt ≤ observedAt ↔ ∀ row,
    existing before endpointId q.1.odataId.text = some row →
      row.createdAt ≤ observedAt

/-- What a successful commit found and left. -/
structure Committed (t : Tables) (endpointId : EndpointId)
    (observations : List (NewResourceSnapshot canonicalize))
    (decodeFailures : List ResourceDecodeFailure) (observedAt : Instant)
    (snapshots : List (ResourceSnapshot canonicalize)) (t' : Tables)
    (endpoint : EndpointModel) (generation : RefreshGeneration)
    (placed : List (Placed canonicalize)) (u : Tables) : Prop where
  found : t.endpoints.find endpointId = some endpoint
  notBefore : endpoint.createdAt ≤ observedAt
  numbered : nextGeneration t endpointId = .ok generation
  valid : validateObservations endpointId observations = .ok ()
  observed : placed.map Prod.fst = observations
  well : ∀ q ∈ placed, PlacedWell t endpointId observedAt q
  answer : snapshots = (placed.map
    (answerOf endpointId generation observedAt)).mergeSort byODataId
  looped : Looped endpointId generation observedAt (existing t endpointId) t u
    placed
  failures : decodeFailures.foldlM (insertDecodeFailure endpointId generation)
    u = .ok t'

section Commit

variable {t t' : Tables} {endpointId : EndpointId}
  {observations : List (NewResourceSnapshot canonicalize)}
  {decodeFailures : List ResourceDecodeFailure} {observedAt : Instant}
  {fresh : Nat → ResourceId} {snapshots : List (ResourceSnapshot canonicalize)}

theorem validateStableFeatures_ok {known : String → Option ResourceModel}
    (h : validateStableFeatures endpointId known observations = .ok ()) :
    ∀ o ∈ observations, ∀ model, known o.odataId.text = some model →
      ResourceFeature.fromStr model.feature = some o.feature := by
  induction observations with
  | nil => exact fun o ho => absurd ho List.not_mem_nil
  | cons observation rest ih =>
      intro o ho model hmodel
      unfold validateStableFeatures at h
      split at h
      · next hnone =>
          rcases List.mem_cons.mp ho with rfl | ho
          · rw [hnone] at hmodel
            cases hmodel
          · exact ih h o ho model hmodel
      · next model' hsome =>
          split at h
          · cases h
          · next stored hstored =>
              split at h
              · next hsame =>
                  rcases List.mem_cons.mp ho with rfl | ho
                  · rw [hsome] at hmodel
                    cases hmodel
                    rw [hstored, hsame]
                  · exact ih h o ho model hmodel
              · cases h

theorem placedWell {q : Placed canonicalize} (hsound : Sound t)
    (hfeature : ∀ model, existing t endpointId q.1.odataId.text = some model →
      ResourceFeature.fromStr model.feature = some q.1.feature)
    (hchosen : Chosen (existing t endpointId q.1.odataId.text) endpointId
      observedAt q) : PlacedWell t endpointId observedAt q := by
  obtain ⟨o, row⟩ := q
  unfold Chosen at hchosen
  dsimp only at hchosen hfeature
  split at hchosen
  · next model hmodel =>
      subst hchosen
      obtain ⟨hfind, hendpoint, hodata⟩ := existing_some hmodel
      obtain ⟨feature, hstored⟩ := (hsound.rows _ _ hfind).feature
      have hparse := hfeature row hmodel
      rw [hstored, ResourceFeature.fromStr_asStr] at hparse
      cases hparse
      refine ⟨hendpoint, hodata, hstored, ?_⟩
      dsimp only
      rw [hmodel]
      exact ⟨fun h row' hrow' => by cases hrow'; exact h, fun h => h row rfl⟩
  · next hnone =>
      rw [hchosen]
      refine ⟨rfl, rfl, rfl, iff_of_true (Int.le_refl _) fun row' hrow' => ?_⟩
      dsimp only at hrow'
      rw [hnone] at hrow'
      cases hrow'

theorem commit_ok (hsound : Sound t)
    (h : commitResourceGeneration t endpointId observations decodeFailures
      observedAt fresh = .ok (snapshots, t')) :
    ∃ endpoint generation placed u, Committed t endpointId observations
      decodeFailures observedAt snapshots t' endpoint generation placed u := by
  unfold commitResourceGeneration at h
  obtain ⟨⟨⟩, hvalid, h⟩ := bind_ok h
  split at h
  · cases h
  · next endpoint hendpoint =>
      split at h
      · cases h
      · next htime =>
          obtain ⟨generation, hgeneration, h⟩ := bind_ok h
          obtain ⟨⟨⟩, hstable, h⟩ := bind_ok h
          obtain ⟨⟨answers, u⟩, hloop, h⟩ := bind_ok h
          obtain ⟨t₂, hfailures, h⟩ := bind_ok h
          cases h
          obtain ⟨placed, hfst, rfl, hlooped⟩ := insertObservations_looped
            (fun _ _ hmodel => (existing_some hmodel).1) hloop
          refine ⟨endpoint, generation, placed, u, hendpoint, Int.not_lt.mp htime,
            hgeneration, hvalid, hfst, fun q hq => ?_, rfl, hlooped, hfailures⟩
          refine placedWell hsound (fun model hmodel => ?_)
            (hlooped.placed q hq).2
          refine validateStableFeatures_ok hstable q.1 ?_ model hmodel
          rw [← hfst]
          exact List.mem_map_of_mem hq

end Commit

end Rutilus.Proofs.ResourceRows
