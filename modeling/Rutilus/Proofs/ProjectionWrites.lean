import Rutilus.Lib.Rely
import Rutilus.Report.Stores

/-!
# What a projection write may touch

Each of the four writes is about one endpoint. It changes nothing the center
holds of any other endpoint, and it changes something of its own endpoint only
if the center holds no such endpoint, the reporting site owns it, or the owner's
binding was revoked. Afterwards the reporting site owns the endpoint, if it is
still there.

A consumer of a site's frame writes for that site only.
-/

namespace Rutilus.Proofs.ProjectionWrites

open Rutilus.Domain Rutilus.Lib Rutilus.Store Rutilus.Report

/-- All the center holds of an endpoint. -/
structure Holding where
  endpoint : Option EndpointRow
  trust : Option TrustRow
  addresses : List AddressRow
  resources : List ResourceRow
  snapshots : List SnapshotRow

def holding (t : ProjectionTables) (e : EndpointId) : Holding where
  endpoint := t.endpoints.find e
  trust := t.trusts.find e
  addresses := t.addresses.rows.filter fun row => row.endpointId = e
  resources := t.resources.rows.filter fun row => row.endpointId = e
  snapshots := t.snapshots.rows.filter fun row => row.endpointId = e

/-- The site owns the endpoint. -/
def Owns (t : ProjectionTables) (X : InstanceId) (e : EndpointId) : Prop :=
  ∃ row, t.endpoints.find e = some row ∧ row.siteId = some X

def MayWrite (t : ProjectionTables) (X : InstanceId) (e : EndpointId) : Prop :=
  ∀ row, t.endpoints.find e = some row →
    row.siteId = some X ∨ bindingRevoked t.bindings row.siteId = true

/-- The tables after a write of a site about an endpoint. -/
structure Written (X : InstanceId) (e : EndpointId) (t t' : ProjectionTables) :
    Prop where
  bindings : t'.bindings = t.bindings
  elsewhere : ∀ e', e' ≠ e → holding t' e' = holding t e'
  owner : ∀ row, t'.endpoints.find e = some row → row.siteId = some X

/-- A landed write changed nothing or wrote about an endpoint it may write. -/
def Lawful (X : InstanceId) (e : EndpointId) (t t' : ProjectionTables) : Prop :=
  t' = t ∨ MayWrite t X e ∧ Written X e t t'

section Writes

variable {t t' : ProjectionTables} {X : InstanceId} {now : Instant}
  {outcome : ProjectionWriteOutcome} {e e' : EndpointId}

theorem holding_ext {a b : Holding} (h₁ : a.endpoint = b.endpoint)
    (h₂ : a.trust = b.trust) (h₃ : a.addresses = b.addresses)
    (h₄ : a.resources = b.resources) (h₅ : a.snapshots = b.snapshots) :
    a = b := by
  cases a
  cases b
  cases h₁
  cases h₂
  cases h₃
  cases h₄
  cases h₅
  rfl

/-! ### Endpoints -/

theorem replaceAddress_ok {projection : EndpointProjectionWrite}
    (h : replaceAddress t projection now = some t') :
    t'.bindings = t.bindings ∧ t'.endpoints = t.endpoints ∧
      t'.trusts = t.trusts ∧ t'.resources = t.resources ∧
      t'.snapshots = t.snapshots ∧
      ∀ e', e' ≠ projection.endpointId →
        (t'.addresses.rows.filter fun row => row.endpointId = e') =
          t.addresses.rows.filter fun row => row.endpointId = e' := by
  unfold replaceAddress at h
  dsimp only at h
  split at h
  · cases h
    exact ⟨rfl, rfl, rfl, rfl, rfl, fun _ _ => rfl⟩
  · split at h
    · cases h
    · cases h
      refine ⟨rfl, rfl, rfl, rfl, rfl, fun e' hne => ?_⟩
      rw [Table.filter_insertNew (by simpa using hne.symm)]
      refine Table.filter_filter fun row hrow => ?_
      rw [of_decide_eq_true hrow]
      simpa using hne

theorem replaceTrust_spec {projection : EndpointProjectionWrite} :
    ∃ trusts, replaceTrust t projection now = { t with trusts } ∧
      ∀ e', e' ≠ projection.endpointId →
        trusts.find e' = t.trusts.find e' := by
  unfold replaceTrust
  dsimp only
  split
  · exact ⟨t.trusts, rfl, fun _ _ => rfl⟩
  · refine ⟨_, rfl, fun e' hne => ?_⟩
    rw [Table.find_put, if_neg hne.symm]

/-- The row was written; address and trust follow or all of it is undone. -/
theorem projectDetails_lawful {projection : EndpointProjectionWrite}
    {endpoints : Table EndpointId EndpointRow EndpointRow.id}
    (h : projectDetails t { t with endpoints } projection now =
      .ok (outcome, t'))
    (hmay : MayWrite t X projection.endpointId)
    (helse : ∀ e', e' ≠ projection.endpointId →
      endpoints.find e' = t.endpoints.find e')
    (howner : ∀ row, endpoints.find projection.endpointId = some row →
      row.siteId = some X) :
    Lawful X projection.endpointId t t' := by
  unfold projectDetails at h
  split at h
  · cases h
    exact .inl rfl
  · next t₁ haddress =>
      cases h
      obtain ⟨hb, he, ht, hr, hs, ha⟩ := replaceAddress_ok haddress
      obtain ⟨trusts, htrust, htelse⟩ :=
        replaceTrust_spec (t := t₁)
      rw [htrust]
      refine .inr ⟨hmay, hb, fun e' hne => holding_ext ?_ ?_ ?_ ?_ ?_,
        fun row hrow =>
          howner row ((congrArg (Table.find · _) he).symm.trans hrow)⟩
      · exact (congrArg (Table.find · e') he).trans (helse e' hne)
      · exact (htelse e' hne).trans (congrArg (Table.find · e') ht)
      · exact ha e' hne
      · simp only [holding, hr]
      · simp only [holding, hs]

theorem upsertEndpoint_lawful {projection : EndpointProjectionWrite}
    (h : upsertEndpointProjection t projection X now = .ok (outcome, t')) :
    Lawful X projection.endpointId t t' := by
  unfold upsertEndpointProjection at h
  split at h
  · next stored hstored =>
      have hid : stored.id = projection.endpointId :=
        Table.key_of_find hstored
      simp only at h
      split at h
      · cases h
        exact .inl rfl
      · next hown =>
          have hmay : MayWrite t X projection.endpointId := by
            intro row hrow
            rw [hstored] at hrow
            cases hrow
            by_cases hX : stored.siteId = some X
            · exact .inl hX
            · refine .inr (Decidable.by_contra fun hrevoked => hown ⟨hX, ?_⟩)
              exact fun hrehome => hrevoked hrehome.2
          split at h
          · cases h
            exact .inl rfl
          · split at h
            · cases h
            · refine projectDetails_lawful h hmay (fun e' hne => ?_)
                fun row hrow => ?_
              · rw [Table.find_replace, if_neg fun h => hne (h.1.symm.trans hid)]
              · rw [Table.find_replace, if_pos ⟨hid, by rw [hstored]; rfl⟩] at hrow
                cases hrow
                by_cases hX : stored.siteId = some X
                · exact (if_neg fun h => h.1 hX).trans hX
                · refine if_pos ⟨hX, ?_⟩
                  exact (hmay stored hstored).resolve_left hX
  · next hnone =>
      split at h
      · cases h
      · refine projectDetails_lawful h (fun row hrow => ?_) (fun e' hne => ?_)
          fun row hrow => ?_
        · rw [hnone] at hrow
          cases hrow
        · rw [Table.find_insertNew, if_neg fun h => hne h.1.symm]
        · rw [Table.find_insertNew, if_pos ⟨rfl, hnone⟩] at hrow
          cases hrow
          rfl

theorem deleteEndpoint_lawful
    (h : deleteEndpointProjection t e X = .ok (outcome, t')) :
    Lawful X e t t' := by
  unfold deleteEndpointProjection at h
  split at h
  · cases h
    exact .inl rfl
  · next stored hstored =>
      split at h
      · cases h
        exact .inl rfl
      · next hown =>
          cases h
          have hspare : ∀ {e' e'' : EndpointId}, e' ≠ e →
              decide (e'' = e') = true → decide (e'' ≠ e) = true := by
            intro e' e'' hne heq
            rw [of_decide_eq_true heq]
            exact decide_eq_true hne
          refine .inr ⟨fun row hrow => ?_, rfl,
            fun e' hne => holding_ext ?_ ?_ ?_ ?_ ?_, fun row hrow => ?_⟩
          · rw [hstored] at hrow
            cases hrow
            by_cases hX : stored.siteId = some X
            · exact .inl hX
            · refine .inr ?_
              cases hrevoked : bindingRevoked t.bindings stored.siteId with
              | true => rfl
              | false => exact absurd ⟨hX, hrevoked⟩ hown
          · exact Table.find_filter_of_key fun row hrow =>
              decide_eq_true (hrow ▸ hne)
          · exact Table.find_filter_of_key fun row hrow =>
              decide_eq_true (hrow ▸ hne)
          · exact Table.filter_filter fun row hrow => hspare hne hrow
          · exact Table.filter_filter fun row hrow => hspare hne hrow
          · exact Table.filter_filter fun row hrow => hspare hne hrow
          · obtain ⟨hmem, hid⟩ := Table.find_eq_some_iff.mp hrow
            have := List.of_mem_filter hmem
            exact absurd hid (of_decide_eq_true this)

/-! ### Resources -/

theorem upsertResource_lawful {projection : ResourceProjectionWrite}
    (h : upsertResourceProjection t projection X now = .ok (outcome, t')) :
    Lawful X projection.endpointId t t' := by
  unfold upsertResourceProjection at h
  split at h
  · cases h
    exact .inl rfl
  · next stored hstored =>
      split at h
      · cases h
        exact .inl rfl
      · next hown =>
          have hX : stored.siteId = some X := Decidable.of_not_not hown
          split at h
          · cases h
            exact .inl rfl
          · split at h
            · cases h
            · cases h
              refine .inr ⟨fun row hrow => ?_, rfl,
                fun e' hne => holding_ext rfl rfl rfl ?_ ?_,
                fun row hrow => ?_⟩
              · rw [hstored] at hrow
                cases hrow
                exact .inl hX
              · exact Table.filter_insertNew (decide_eq_false hne.symm)
              · refine Table.filter_put fun row hrow => decide_eq_false ?_
                rw [(Prod.mk.inj hrow).1]
                exact hne.symm
              · rw [hstored] at hrow
                cases hrow
                exact hX

theorem deleteResource_lawful {odataId : String}
    (h : deleteResourceProjection t e odataId X = .ok (outcome, t')) :
    Lawful X e t t' := by
  unfold deleteResourceProjection at h
  split at h
  · cases h
    exact .inl rfl
  · next stored hstored =>
      split at h
      · cases h
        exact .inl rfl
      · next hown =>
          have hX : stored.siteId = some X := Decidable.of_not_not hown
          cases h
          refine .inr ⟨fun row hrow => ?_, rfl,
            fun e' hne => holding_ext rfl rfl rfl ?_ ?_, fun row hrow => ?_⟩
          · rw [hstored] at hrow
            cases hrow
            exact .inl hX
          · refine Table.filter_filter fun row hrow => decide_eq_true ?_
            rintro ⟨he, -⟩
            exact hne ((of_decide_eq_true hrow).symm.trans he)
          · refine Table.filter_filter fun row hrow => decide_eq_true ?_
            rintro ⟨he, -⟩
            exact hne ((of_decide_eq_true hrow).symm.trans he)
          · have := hstored.symm.trans hrow
            cases this
            exact hX

end Writes

/-! ## Calls -/

open CenterProjection

/-- A projection write of a call is made for the site. -/
def ForSite (X : InstanceId) : ProjectionReq → Prop
  | .upsertEndpoint _ site _ | .deleteEndpoint _ site
  | .upsertResource _ site _ | .deleteResource _ _ site => site = X
  | _ => True

theorem projected_lawful {w : CenterStore} {X : InstanceId} {e : EndpointId}
    {r : ProjectionWrite}
    (h : ∀ outcome t', r = .ok (outcome, t') → Lawful X e w.projection t') :
    Lawful X e w.projection (projected w r).2.projection := by
  match r with
  | .error error => exact .inl rfl
  | .ok (outcome, t') => exact h outcome t' rfl

/-- A call for a site writes about one endpoint, lawfully. -/
theorem performCenter_lawful {sha : Bytes → Digest} {o : CenterOracle}
    {q : ProjectionReq} {w : CenterStore} {X : InstanceId}
    (hq : ForSite X q) :
    ∃ e, Lawful X e w.projection (performCenter sha o q w).2.projection := by
  cases q with
  | upsertEndpoint projection site now =>
      obtain rfl := hq
      refine ⟨projection.endpointId, ?_⟩
      simp only [performCenter]
      split
      · exact .inl rfl
      · exact projected_lawful fun _ _ h => upsertEndpoint_lawful h
  | deleteEndpoint e site =>
      obtain rfl := hq
      refine ⟨e, ?_⟩
      simp only [performCenter]
      split
      · exact .inl rfl
      · exact projected_lawful fun _ _ h => deleteEndpoint_lawful h
  | upsertResource projection site now =>
      obtain rfl := hq
      refine ⟨projection.endpointId, ?_⟩
      simp only [performCenter]
      split
      · exact .inl rfl
      · exact projected_lawful fun _ _ h => upsertResource_lawful h
  | deleteResource e odataId site =>
      obtain rfl := hq
      refine ⟨e, ?_⟩
      simp only [performCenter]
      split
      · exact .inl rfl
      · exact projected_lawful fun _ _ h => deleteResource_lawful h
  | generateEventId => exact ⟨⟨0⟩, .inl rfl⟩
  | upsertEvents events site =>
      refine ⟨⟨0⟩, .inl ?_⟩
      simp only [performCenter]
      split
      · rfl
      · cases appendCenterEvents w.events site events <;> rfl
  | declareArtifact artifact site =>
      refine ⟨⟨0⟩, .inl ?_⟩
      simp only [performCenter]
      split
      · rfl
      · cases declareArtifact w.artifacts artifact (some site) <;> rfl
  | updateArtifact artifactId uploadedBytes state now =>
      refine ⟨⟨0⟩, .inl ?_⟩
      simp only [performCenter]
      split
      · rfl
      · cases updateArtifact w.artifacts artifactId uploadedBytes state now <;>
          rfl
  | hashArtifactFile artifactId =>
      refine ⟨⟨0⟩, .inl ?_⟩
      simp only [performCenter]
      split
      · rfl
      · cases w.files artifactId <;> rfl
  | _ =>
      refine ⟨⟨0⟩, .inl ?_⟩
      simp only [performCenter]
      split <;> rfl

/-! ## Consumers -/

/-- Every call of a consumer, whatever it was answered, is for its site. -/
def Loyal {α : Type} (X : InstanceId) (p : Prog projectionSig α) : Prop :=
  Safe (σ := Unit) (fun _ _ _ _ => True) (fun _ _ => True)
    (fun q _ _ => ForSite X q) p (fun _ _ => True) ()

section Loyal

variable {X : InstanceId} {α β ε : Type}

theorem Loyal.next {q : ProjectionReq} {k : q.Resp → Prog projectionSig α}
    (h : Loyal X (.call q k)) (r : q.Resp) : ForSite X q ∧ Loyal X (k r) :=
  h () trivial r () trivial

theorem loyal_call {q : ProjectionReq} (hq : ForSite X q) :
    Loyal X (call q) :=
  fun _ _ _ _ _ => ⟨hq, trivial⟩

theorem Loyal.then {p : M α} {f : α → M β} (hp : Loyal X p)
    (hf : ∀ a, Loyal X (f a)) : Loyal X (p >>= f : M β) := by
  refine Safe.bindE.mpr (hp.imp fun r _ _ => ?_)
  cases r with
  | ok a => exact hf a
  | error e => trivial

theorem Loyal.lift {p : Prog projectionSig α} (hp : Loyal X p) :
    Loyal X (liftM p : M α) :=
  Safe.liftE.mpr (hp.imp fun _ _ _ => trivial)

theorem loyal_orThrow {ε : Type} {p : Prog projectionSig (Except ε α)}
    {wrap : ε → CenterProjectionError} (hp : Loyal X p) :
    Loyal X (orThrow p wrap) :=
  Safe.orThrow.mpr (hp.imp fun _ _ _ => trivial)

/-- A call whose error ends the consumption, and what comes after it. -/
theorem loyal_asks {ε : Type} {p : Prog projectionSig (Except ε α)}
    {wrap : ε → CenterProjectionError} {f : α → M β} (hp : Loyal X p)
    (hf : ∀ a, Loyal X (f a)) : Loyal X (orThrow p wrap >>= f : M β) :=
  Loyal.then (loyal_orThrow hp) hf

theorem passesCursor_loyal {stream : SyncStream} {sequence : Nat} :
    Loyal X (passesCursor X stream sequence) := by
  refine loyal_asks (loyal_call trivial) fun cursor => ?_
  match cursor with
  | none => trivial
  | some ⟨_, _, none, _⟩ => trivial
  | some ⟨_, _, some _, _⟩ => trivial

theorem advanceCursor_loyal {stream : SyncStream} {sequence : Nat}
    {now : Instant} : Loyal X (advanceCursor X stream sequence now) :=
  loyal_orThrow (loyal_call trivial)

/-- What comes after the cursor was compared. -/
theorem gated_loyal {stream : SyncStream} {sequence : Nat} {rest : M Unit}
    (h : Loyal X rest) :
    Loyal X (do
      if !(← passesCursor X stream sequence) then return ()
      rest : M Unit) := by
  refine passesCursor_loyal.then fun passes => ?_
  cases passes with
  | false => trivial
  | true => exact h

theorem consumeEndpoint_loyal {sequence : Nat} {snapshot : EndpointSnapshot}
    {now : Instant} : Loyal X (consumeEndpoint X sequence snapshot now) := by
  refine gated_loyal ?_
  cases decodeEndpoint snapshot with
  | error reason => exact advanceCursor_loyal
  | ok projection =>
      exact loyal_asks (loyal_call rfl) fun _ => advanceCursor_loyal

theorem consumeResourceDelta_loyal {sequence : Nat} {delta : ResourceDelta}
    {now : Instant} :
    Loyal X (consumeResourceDelta X sequence delta now) := by
  refine gated_loyal ?_
  cases decodeDelta delta with
  | error reason => exact advanceCursor_loyal
  | ok decoded =>
      refine Loyal.then ?_ fun _ => advanceCursor_loyal
      cases decoded with
      | deleteEndpoint e => exact loyal_orThrow (loyal_call rfl)
      | deleteResource e odataId => exact loyal_orThrow (loyal_call rfl)
      | upsertResource projection => exact loyal_orThrow (loyal_call rfl)

theorem recordsOf_loyal {owners : Owners} (events : List Event) :
    Loyal X (recordsOf owners X events) := by
  have habsorb : ∀ event reason, Loyal X (absorbEvent event X reason) :=
    fun _ _ => Safe.bind.mpr (loyal_call trivial)
  induction events with
  | nil => trivial
  | cons event events ih =>
      refine Safe.bind.mpr (Safe.imp (Q := fun _ _ => True) ?_ fun record _ _ =>
        Safe.bind.mpr (ih.imp fun _ _ _ => trivial))
      unfold recordOf
      split
      · split
        · trivial
        · exact habsorb event _
      · exact habsorb event _

theorem consumeEventBatch_loyal {sequence : Nat} {records : List EventRecord}
    {now : Instant} : Loyal X (consumeEventBatch X sequence records now) := by
  refine gated_loyal ?_
  refine loyal_asks (loyal_call trivial) fun owners => ?_
  refine (recordsOf_loyal _).lift.then fun records => ?_
  cases records with
  | nil => exact advanceCursor_loyal
  | cons record records =>
      exact loyal_asks (loyal_call trivial) fun _ =>
        advanceCursor_loyal

theorem consumeArtifactManifest_loyal {sequence : Nat}
    {manifest : ArtifactManifest} {now : Instant} :
    Loyal X (consumeArtifactManifest X sequence manifest now) := by
  refine gated_loyal ?_
  cases decodeManifest manifest now with
  | error reason => exact advanceCursor_loyal
  | ok artifact =>
      exact loyal_asks (loyal_call trivial) fun _ =>
        advanceCursor_loyal

theorem finalizeArtifact_loyal {artifactId : ArtifactId} {sizeBytes : Nat}
    {now : Instant} :
    Loyal X (finalizeArtifact artifactId sizeBytes now) := by
  refine loyal_asks (loyal_call trivial) fun digest => ?_
  refine loyal_asks (loyal_call trivial) fun artifact => ?_
  cases artifact with
  | none => trivial
  | some artifact => exact loyal_orThrow (loyal_call trivial)

theorem placeChunk_loyal {sequence : Nat} {artifact : Artifact}
    {artifactId : ArtifactId} {index : Nat} {data : Bytes} {now : Instant} :
    Loyal X (placeChunk X sequence artifact artifactId index data now) := by
  unfold placeChunk
  dsimp only
  split
  · exact advanceCursor_loyal
  · split
    · exact advanceCursor_loyal
    · split
      · exact advanceCursor_loyal
      · split
        · exact advanceCursor_loyal
        · split
          · exact advanceCursor_loyal
          · refine loyal_asks (loyal_call trivial) fun _ => ?_
            split
            · exact loyal_asks (loyal_call trivial) fun _ =>
                advanceCursor_loyal
            · exact finalizeArtifact_loyal.then fun _ => advanceCursor_loyal

theorem consumeArtifactChunk_loyal {sequence : Nat} {chunk : ArtifactChunk}
    {now : Instant} : Loyal X (consumeArtifactChunk X sequence chunk now) := by
  refine gated_loyal ?_
  split
  · exact advanceCursor_loyal
  · refine loyal_asks (loyal_call trivial) fun artifact => ?_
    cases artifact with
    | none => exact advanceCursor_loyal
    | some artifact =>
        refine loyal_asks (loyal_call trivial) fun owner => ?_
        split
        · exact advanceCursor_loyal
        · split
          · exact advanceCursor_loyal
          · exact placeChunk_loyal

theorem onFrame_loyal (sequence : Nat) (message : EnvelopeMessage)
    (now : Instant) : Loyal X (onFrame X sequence message now) := by
  cases message with
  | endpointSnapshot snapshot => exact consumeEndpoint_loyal
  | resourceDelta delta => exact consumeResourceDelta_loyal
  | eventBatch records => exact consumeEventBatch_loyal
  | artifactManifest manifest => exact consumeArtifactManifest_loyal
  | artifactChunk chunk => exact consumeArtifactChunk_loyal
  | _ => trivial

end Loyal

end Rutilus.Proofs.ProjectionWrites
