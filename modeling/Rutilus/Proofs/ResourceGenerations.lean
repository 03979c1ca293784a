import Rutilus.Proofs.ResourceRows

/-!
# Generations of an endpoint

The commits of an endpoint are numbered from one, and the join of the latest
number is the block of the last commit (`Current`). Reading it goes through each
row's checks again. One of them the commit does not make: that no resource is
newer than the snapshot. A commit whose time went back behind a resource that it
uses again is accepted, and cannot be read. So is a payload whose canonical text
is not one that parses to itself.
-/

namespace Rutilus.Proofs.ResourceGenerations

open Rutilus.Domain hiding ResourceFeature
open Rutilus.Domain.Resource Rutilus.Lib Rutilus.Store.Resources
open Rutilus.Proofs.ResourceRows

variable {canonicalize : Canonicalize}

/-! ## The join after a commit -/

/-- A placed observation as it is found in the join. -/
def pairOf (generation : RefreshGeneration) (observedAt : Instant)
    (q : Placed canonicalize) : SnapshotModel × ResourceModel :=
  (snapshotModel q.2.id generation q.1 observedAt, q.2)

section Tables

variable {t t' u : Tables} {endpointId : EndpointId}
  {observations : List (NewResourceSnapshot canonicalize)}
  {decodeFailures : List ResourceDecodeFailure} {observedAt : Instant}
  {snapshots : List (ResourceSnapshot canonicalize)}
  {endpoint : EndpointModel} {generation : RefreshGeneration}
  {placed : List (Placed canonicalize)}

/-- Records of failures touch no other table. -/
structure SameBut (u t' : Tables) : Prop where
  endpoints : t'.endpoints = u.endpoints
  resources : t'.resources = u.resources
  snapshots : t'.snapshots = u.snapshots

theorem insertDecodeFailures_same
    (h : decodeFailures.foldlM (insertDecodeFailure endpointId generation) u =
      .ok t') : SameBut u t' := by
  induction decodeFailures generalizing u with
  | nil =>
      cases h
      exact ⟨rfl, rfl, rfl⟩
  | cons failure rest ih =>
      rw [List.foldlM_cons] at h
      obtain ⟨v, hv, h⟩ := bind_ok h
      have hrest := ih h
      unfold insertDecodeFailure at hv
      dsimp only at hv
      split at hv
      · cases hv
      · cases hv
        exact ⟨hrest.endpoints, hrest.resources, hrest.snapshots⟩

theorem joined_same (h : SameBut u t') (e : EndpointId) :
    joined t' e = joined u e := by
  unfold joined
  rw [h.snapshots, h.resources]

theorem joined_looped (hsound : Sound t)
    (hwell : ∀ q ∈ placed, q.2.endpointId = endpointId)
    (h : Looped endpointId generation observedAt (existing t endpointId) t u
      placed) (e : EndpointId) :
    joined u e = joined t e ++
      if e = endpointId then placed.map (pairOf generation observedAt)
      else [] := by
  unfold joined
  rw [h.rows, List.filterMap_append, List.filterMap_map]
  congr 1
  · refine List.filterMap_congr fun s hs => ?_
    obtain ⟨row, hrow⟩ := Option.isSome_iff_exists.mp (hsound.snapshots s hs)
    rw [hrow, h.added.kept _ _ hrow]
  · have hfind : ∀ q ∈ placed, u.resources.find
        (snapshotModel q.2.id generation q.1 observedAt).resourceId =
          some q.2 := fun q hq => (h.placed q hq).1
    split
    · next he =>
        subst he
        rw [← List.filterMap_eq_map]
        refine List.filterMap_congr fun q hq => ?_
        simp only [Function.comp_apply, hfind q hq, Option.filter_some,
          hwell q hq, decide_true, if_true, Option.map_some, pairOf]
    · next he =>
        refine List.filterMap_eq_nil_iff.mpr fun q hq => ?_
        have hother : ¬ q.2.endpointId = e := fun h => he (h.symm.trans (hwell q hq))
        simp only [Function.comp_apply, hfind q hq, Option.filter_some, hother,
          decide_false, Bool.false_eq_true, if_false, Option.map_none]

theorem new_ok {value : Nat} (h : RefreshGeneration.new value = .ok generation) :
    generation.get = value := by
  unfold RefreshGeneration.new at h
  split at h
  · cases h
  · split at h
    · cases h
    · cases h
      rfl

theorem new_get (g : RefreshGeneration) : RefreshGeneration.new g.get = .ok g := by
  unfold RefreshGeneration.new
  rw [dif_neg (Nat.ne_of_gt g.positive), dif_neg (Nat.not_lt.mpr g.small)]

theorem nextGeneration_ok (h : nextGeneration t endpointId = .ok generation) :
    generation.get = (latestGeneration t endpointId).getD 0 + 1 := by
  unfold nextGeneration at h
  split at h
  · next hnone =>
      rw [hnone, new_ok (mapError_ok h)]
      rfl
  · next latest hlatest =>
      split at h
      · cases h
      · next current hcurrent =>
          rw [hlatest, new_ok (mapError_ok h), new_ok (mapError_ok hcurrent)]
          rfl

theorem validateObservations_ok
    (h : validateObservations endpointId observations = .ok ()) :
    observations ≠ [] ∧
      observations.countP (fun o => o.feature = .serviceRoot) = 1 := by
  unfold validateObservations at h
  split at h
  · cases h
  · next hne =>
      split at h
      · cases h
      · split at h
        · cases h
        · next hone => exact ⟨fun hnil => hne (by rw [hnil]; rfl), hone⟩
        · cases h

theorem committed_sound
    (h : Committed t endpointId observations decodeFailures observedAt snapshots
      t' endpoint generation placed u) (hsound : Sound t) : Sound t' := by
  have hsame := insertDecodeFailures_same h.failures
  have hadded := h.looped.added
  refine ⟨?_, fun id row hrow => ?_, fun s hs => ?_⟩
  · have hone := hadded.oneEach hsound.oneEach
    unfold OneEach at hone ⊢
    rw [hsame.resources]
    exact hone
  · rw [hsame.resources] at hrow
    have hendpoints : t'.endpoints = t.endpoints :=
      hsame.endpoints.trans hadded.endpoints
    rcases hadded.new id row hrow with hold | hmade
    · obtain ⟨hendpoint, hodata, hfeature⟩ := hsound.rows id row hold
      exact ⟨by rw [hendpoints]; exact hendpoint, hodata, hfeature⟩
    · refine ⟨⟨endpoint, ?_, ?_⟩, hmade.odataId, hmade.feature⟩
      · rw [hendpoints, hmade.endpointId]
        exact h.found
      · rw [hmade.createdAt]
        exact h.notBefore
  · rw [hsame.snapshots, h.looped.rows] at hs
    rw [hsame.resources]
    rcases List.mem_append.mp hs with hs | hs
    · obtain ⟨row, hrow⟩ := Option.isSome_iff_exists.mp (hsound.snapshots s hs)
      rw [hadded.kept _ _ hrow]
      rfl
    · obtain ⟨q, hq, rfl⟩ := List.mem_map.mp hs
      have hfind := (h.looped.placed q hq).1
      show (u.resources.find q.2.id).isSome = true
      rw [hfind]
      rfl

theorem committed_joined
    (h : Committed t endpointId observations decodeFailures observedAt snapshots
      t' endpoint generation placed u) (hsound : Sound t) (e : EndpointId) :
    joined t' e = joined t e ++
      if e = endpointId then placed.map (pairOf generation observedAt)
      else [] := by
  rw [joined_same (insertDecodeFailures_same h.failures)]
  exact joined_looped hsound (fun q hq => (h.well q hq).owner) h.looped e

end Tables

/-! ## Reading -/

/-- The time of the commit is not before the creation of a resource that it uses
again. -/
def Timely (before : Tables) (endpointId : EndpointId) (observedAt : Instant)
    (o : NewResourceSnapshot canonicalize) : Prop :=
  ∀ row, existing before endpointId o.odataId.text = some row →
    row.createdAt ≤ observedAt

/-- The payload's text parses to the payload. -/
def Stable (o : NewResourceSnapshot canonicalize) : Prop :=
  ResourceSnapshotPayload.parse canonicalize o.payload.text = .ok o.payload

theorem mapStoredType_map (e : EndpointId) (odataType : Option ResourceODataType) :
    mapStoredType e (odataType.map (·.text)) = .ok odataType := by
  cases odataType with
  | none => rfl
  | some odataType => simp [mapStoredType]

theorem mapStoredEtag_map (e : EndpointId) (etag : Option ResourceEtag) :
    mapStoredEtag e (etag.map (·.text)) = .ok etag := by
  cases etag with
  | none => rfl
  | some etag => simp [mapStoredEtag]

section Reading

variable {before : Tables} {endpointId : EndpointId} {observedAt created : Instant}
  {generation : RefreshGeneration} {q : Placed canonicalize}

/-- Every check but those of time and payload passes. -/
theorem mapStoredSnapshot_placed
    (hwell : PlacedWell before endpointId observedAt q)
    (hcreated : created ≤ q.2.createdAt) (htime : q.2.createdAt ≤ observedAt) :
    mapStoredSnapshot canonicalize endpointId created generation q.2
        (pairOf generation observedAt q).1 =
      match ResourceSnapshotPayload.parse canonicalize q.1.payload.text with
      | .error e => .error (.corrupt endpointId (.invalidPayload e))
      | .ok payload => .ok { answerOf endpointId generation observedAt q with
          payload } := by
  have htime' : ¬ (pairOf generation observedAt q).1.observedAt < q.2.createdAt :=
    Int.not_lt.mpr htime
  have hpayload : (pairOf generation observedAt q).1.typedPayloadJson =
    q.1.payload.text := rfl
  unfold mapStoredSnapshot
  rw [if_neg (Int.not_lt.mpr hcreated), if_neg htime', hwell.feature,
    ResourceFeature.fromStr_asStr, hwell.name, hpayload]
  dsimp only
  rw [ResourceODataId.parse_text]
  dsimp only
  cases ResourceSnapshotPayload.parse canonicalize q.1.payload.text with
  | error e => rfl
  | ok payload =>
      have htype : mapStoredType endpointId (pairOf generation observedAt q).1.odataType =
          .ok q.1.odataType := mapStoredType_map endpointId q.1.odataType
      have hetag : mapStoredEtag endpointId (pairOf generation observedAt q).1.etag =
          .ok q.1.etag := mapStoredEtag_map endpointId q.1.etag
      dsimp only
      rw [htype, hetag]
      rfl

theorem mapStoredSnapshot_iff (hwell : PlacedWell before endpointId observedAt q)
    (hcreated : created ≤ q.2.createdAt) :
    mapStoredSnapshot canonicalize endpointId created generation q.2
        (pairOf generation observedAt q).1 =
      .ok (answerOf endpointId generation observedAt q) ↔
    Timely before endpointId observedAt q.1 ∧ Stable q.1 := by
  unfold Timely Stable
  rw [← hwell.time]
  by_cases htime : q.2.createdAt ≤ observedAt
  · rw [mapStoredSnapshot_placed hwell hcreated htime]
    cases hparse : ResourceSnapshotPayload.parse canonicalize
        q.1.payload.text with
    | error e =>
        refine iff_of_false nofun ?_
        rintro ⟨-, h⟩
        cases h
    | ok payload =>
        constructor
        · intro h
          have hpayload := congrArg ResourceSnapshot.payload (Except.ok.inj h)
          exact ⟨htime, congrArg Except.ok hpayload⟩
        · rintro ⟨-, h⟩
          cases h
          rfl
  · refine iff_of_false ?_ fun h => htime h.1
    have htime' : (pairOf generation observedAt q).1.observedAt < q.2.createdAt :=
      Int.not_le.mp htime
    unfold mapStoredSnapshot
    rw [if_neg (Int.not_lt.mpr hcreated), if_pos htime']
    exact nofun

end Reading

/-- The block of an endpoint's last commit. -/
structure Current (t : Tables) (c : Commit canonicalize)
    (endpoint : EndpointModel) (generation : RefreshGeneration)
    (placed : List (Placed canonicalize)) : Prop where
  found : t.endpoints.find c.endpointId = some endpoint
  latest : latestGeneration t c.endpointId = some generation.get
  block : (joined t c.endpointId).filter
      (fun row => row.1.generation = generation.get) =
    placed.map (pairOf generation c.observedAt)
  valid : validateObservations c.endpointId c.observations = .ok ()
  observed : placed.map Prod.fst = c.observations
  well : ∀ q ∈ placed, PlacedWell c.before c.endpointId c.observedAt q
  created : ∀ q ∈ placed, endpoint.createdAt ≤ q.2.createdAt
  answer : c.snapshots = (placed.map
    (answerOf c.endpointId generation c.observedAt)).mergeSort byODataId

section Current

variable {t : Tables} {c : Commit canonicalize} {endpoint : EndpointModel}
  {generation : RefreshGeneration} {placed : List (Placed canonicalize)}

theorem Current.loaded (h : Current t c endpoint generation placed) :
    validateLoadedGeneration c.endpointId c.snapshots = .ok () := by
  obtain ⟨hne, hone⟩ := validateObservations_ok h.valid
  have hperm : c.snapshots.Perm
      (placed.map (answerOf c.endpointId generation c.observedAt)) := by
    rw [h.answer]
    exact List.mergeSort_perm _ _
  have hcount : c.snapshots.countP (fun s => s.feature = .serviceRoot) = 1 := by
    rw [hperm.countP_eq, List.countP_map, ← hone, ← h.observed, List.countP_map]
    rfl
  have htime : ∀ x ∈ c.snapshots, x.observedAt = c.observedAt := by
    intro x hx
    obtain ⟨q, -, rfl⟩ := List.mem_map.mp (hperm.mem_iff.mp hx)
    rfl
  unfold validateLoadedGeneration
  split
  · next hnil =>
      rw [hnil] at hcount
      cases hcount
  · next first rest heq =>
      dsimp only
      have hfirst : first.observedAt = c.observedAt :=
        htime first (heq ▸ List.mem_cons_self)
      rw [if_neg, if_neg (not_not.mpr hcount)]
      intro hany
      obtain ⟨x, hx, hdiffer⟩ := List.any_eq_true.mp hany
      simp [htime x hx, hfirst] at hdiffer

/-- The last commit can be read, and reads as it was answered, exactly when each
of its observations is timely and stable. -/
theorem Current.find_iff (h : Current t c endpoint generation placed) :
    findCurrentResourceGeneration canonicalize t c.endpointId =
      .ok (some c.snapshots) ↔
    ∀ o ∈ c.observations,
      Timely c.before c.endpointId c.observedAt o ∧ Stable o := by
  let byName : Placed canonicalize → Placed canonicalize → Bool :=
    fun a b => a.2.odataId ≤ b.2.odataId
  let rows := placed.mergeSort byName
  have hrows : (placed.map (pairOf generation c.observedAt)).mergeSort
      byResource = rows.map (pairOf generation c.observedAt) :=
    (List.map_mergeSort (r := byName) (s := byResource) fun _ _ _ _ => rfl).symm
  have hanswer : c.snapshots =
      rows.map (answerOf c.endpointId generation c.observedAt) := by
    rw [h.answer]
    refine (List.map_mergeSort (r := byName) (s := byODataId)
      fun a ha b hb => ?_).symm
    show decide (a.2.odataId ≤ b.2.odataId) = _
    rw [(h.well a ha).name, (h.well b hb).name]
    rfl
  have hload : findCurrentResourceGeneration canonicalize t c.endpointId =
      .ok (some c.snapshots) ↔
      (rows.map (pairOf generation c.observedAt)).mapM (fun row =>
        mapStoredSnapshot canonicalize c.endpointId endpoint.createdAt generation
          row.2 row.1) = .ok c.snapshots := by
    unfold findCurrentResourceGeneration
    rw [h.found, h.latest]
    dsimp only
    rw [h.block, hrows, mapGeneration, new_get]
    constructor
    · intro hfind
      obtain ⟨_, hgeneration, hfind⟩ := bind_ok hfind
      cases hgeneration
      obtain ⟨loaded, hloaded, hfind⟩ := bind_ok hfind
      obtain ⟨_, -, hfind⟩ := bind_ok hfind
      cases hfind
      exact hloaded
    · intro hloaded
      show (do
        let snapshots ← (rows.map (pairOf generation c.observedAt)).mapM _
        validateLoadedGeneration c.endpointId snapshots
        .ok (some snapshots)) = _
      rw [hloaded]
      show (do
        validateLoadedGeneration c.endpointId c.snapshots
        .ok (some c.snapshots)) = _
      rw [h.loaded]
      rfl
  rw [hload, hanswer, mapM_map_ok_iff, ← h.observed]
  constructor
  · intro hall o ho
    obtain ⟨q, hq, rfl⟩ := List.mem_map.mp ho
    exact (mapStoredSnapshot_iff (h.well q hq) (h.created q hq)).mp
      (hall q (List.mem_mergeSort.mpr hq))
  · intro hall q hq
    have hq : q ∈ placed := List.mem_mergeSort.mp hq
    exact (mapStoredSnapshot_iff (h.well q hq) (h.created q hq)).mpr
      (hall q.1 (List.mem_map_of_mem hq))

end Current

/-! ## Sequences of commits -/

def observationOf (x : ResourceSnapshot canonicalize) :
    NewResourceSnapshot canonicalize :=
  ⟨x.feature, x.odataId, x.odataType, x.etag, x.payload⟩

/-- The answer is the observations, each once, in the order of their
`@odata.id`s. -/
structure Faithful (c : Commit canonicalize) : Prop where
  observations : (c.snapshots.map observationOf).Perm c.observations
  sorted : c.snapshots.Pairwise fun a b => a.odataId.text ≤ b.odataId.text
  endpointId : ∀ x ∈ c.snapshots, x.endpointId = c.endpointId
  observedAt : ∀ x ∈ c.snapshots, x.observedAt = c.observedAt

structure Inv (s : State canonicalize) : Prop where
  sound : Sound s.tables
  latest : ∀ e, latestGeneration s.tables e =
    match (s.commitsOf e).length with
    | 0 => none
    | n + 1 => some (n + 1)
  numbered : ∀ e (i : Nat) c, (s.commitsOf e)[i]? = some c →
    ∀ x ∈ c.snapshots, x.generation.get = i + 1
  identified : ∀ c ∈ s.commits, ∀ x ∈ c.snapshots, ∃ row,
    s.tables.resources.find x.resourceId = some row ∧
    row.endpointId = c.endpointId ∧ row.odataId = x.odataId.text
  faithful : ∀ c ∈ s.commits, Faithful c
  current : ∀ e c, (s.commitsOf e).getLast? = some c →
    ∃ endpoint generation placed, Current s.tables c endpoint generation placed

theorem byODataId_sorted (l : List (ResourceSnapshot canonicalize)) :
    (l.mergeSort byODataId).Pairwise fun a b =>
      a.odataId.text ≤ b.odataId.text := by
  refine (List.pairwise_mergeSort (fun a b c hab hbc => ?_) (fun a b => ?_)
    l).imp fun h => of_decide_eq_true h
  · exact decide_eq_true (le_trans (of_decide_eq_true hab) (of_decide_eq_true hbc))
  · rw [Bool.or_eq_true]
    exact (le_total a.odataId.text b.odataId.text).imp decide_eq_true
      decide_eq_true

theorem commitsOf_concat (s : State canonicalize) (t : Tables)
    (c : Commit canonicalize) (e : EndpointId) :
    State.commitsOf ⟨t, s.commits ++ [c]⟩ e =
      s.commitsOf e ++ if e = c.endpointId then [c] else [] := by
  unfold State.commitsOf
  rw [List.filter_append]
  congr 1
  split
  · next h =>
      subst h
      simp
  · next h => simp [Ne.symm h]

section Step

variable {s : State canonicalize} {t' u : Tables} {endpointId : EndpointId}
  {observations : List (NewResourceSnapshot canonicalize)}
  {decodeFailures : List ResourceDecodeFailure} {observedAt : Instant}
  {snapshots : List (ResourceSnapshot canonicalize)}
  {endpoint : EndpointModel} {generation : RefreshGeneration}
  {placed : List (Placed canonicalize)}

/-- The number of a commit is the next one. -/
theorem Inv.generation_next (h : Inv s)
    (hc : Committed s.tables endpointId observations decodeFailures observedAt
      snapshots t' endpoint generation placed u) :
    generation.get = (s.commitsOf endpointId).length + 1 := by
  rw [nextGeneration_ok hc.numbered, h.latest]
  cases (s.commitsOf endpointId).length with
  | zero => rfl
  | succ n => rfl

/-- Every snapshot of an endpoint is of a commit that it has had. -/
theorem Inv.bounded (h : Inv s) (e : EndpointId) :
    ∀ row ∈ joined s.tables e,
      row.1.generation ≤ (s.commitsOf e).length := by
  intro row hrow
  have hlatest := h.latest e
  unfold latestGeneration at hlatest
  cases hn : (s.commitsOf e).length with
  | zero =>
      rw [hn] at hlatest
      have hnil := List.map_eq_nil_iff.mp (List.max?_eq_none_iff.mp hlatest)
      rw [hnil] at hrow
      cases hrow
  | succ n =>
      rw [hn] at hlatest
      exact (List.max?_eq_some_iff.mp hlatest).2 _
        (List.mem_map_of_mem hrow)

theorem placed_ne
    (hc : Committed s.tables endpointId observations decodeFailures observedAt
      snapshots t' endpoint generation placed u) : placed ≠ [] := by
  rintro rfl
  exact (validateObservations_ok hc.valid).1 hc.observed.symm

theorem Inv.latest_next (h : Inv s)
    (hc : Committed s.tables endpointId observations decodeFailures observedAt
      snapshots t' endpoint generation placed u) :
    latestGeneration t' endpointId = some generation.get := by
  unfold latestGeneration
  rw [committed_joined hc h.sound, if_pos rfl, List.map_append, List.map_map]
  refine List.max?_eq_some_iff.mpr ⟨?_, fun n hn => ?_⟩
  · obtain ⟨q, hq⟩ := List.exists_mem_of_ne_nil _ (placed_ne hc)
    exact List.mem_append_right _ (List.mem_map.mpr ⟨q, hq, rfl⟩)
  · rcases List.mem_append.mp hn with hn | hn
    · obtain ⟨row, hrow, rfl⟩ := List.mem_map.mp hn
      have hle := h.bounded endpointId row hrow
      rw [h.generation_next hc]
      omega
    · obtain ⟨q, -, rfl⟩ := List.mem_map.mp hn
      exact Nat.le_refl _

theorem Inv.block_next (h : Inv s)
    (hc : Committed s.tables endpointId observations decodeFailures observedAt
      snapshots t' endpoint generation placed u) :
    (joined t' endpointId).filter
      (fun row => row.1.generation = generation.get) =
      placed.map (pairOf generation observedAt) := by
  rw [committed_joined hc h.sound, if_pos rfl, List.filter_append]
  have hold : (joined s.tables endpointId).filter
      (fun row => row.1.generation = generation.get) = [] := by
    refine List.filter_eq_nil_iff.mpr fun row hrow => ?_
    have hle := h.bounded endpointId row hrow
    rw [h.generation_next hc, decide_eq_true_eq]
    omega
  have hnew : ∀ row ∈ placed.map (pairOf generation observedAt),
      decide (row.1.generation = generation.get) = true := by
    intro row hrow
    obtain ⟨q, -, rfl⟩ := List.mem_map.mp hrow
    exact decide_eq_true rfl
  rw [hold, List.filter_eq_self.mpr hnew, List.nil_append]

/-- A commit of another endpoint. -/
theorem Current.frame {c : Commit canonicalize} {endpoint' : EndpointModel}
    {generation' : RefreshGeneration} {placed' : List (Placed canonicalize)}
    (h : Current s.tables c endpoint' generation' placed')
    (hsound : Sound s.tables)
    (hc : Committed s.tables endpointId observations decodeFailures observedAt
      snapshots t' endpoint generation placed u)
    (hother : c.endpointId ≠ endpointId) :
    Current t' c endpoint' generation' placed' := by
  have hjoined : joined t' c.endpointId = joined s.tables c.endpointId := by
    rw [committed_joined hc hsound, if_neg hother, List.append_nil]
  have hendpoints : t'.endpoints = s.tables.endpoints :=
    (insertDecodeFailures_same hc.failures).endpoints.trans
      hc.looped.added.endpoints
  refine { h with found := ?_, latest := ?_, block := ?_ }
  · rw [hendpoints]
    exact h.found
  · unfold latestGeneration
    rw [hjoined]
    exact h.latest
  · rw [hjoined]
    exact h.block

theorem committed_faithful
    (hc : Committed s.tables endpointId observations decodeFailures observedAt
      snapshots t' endpoint generation placed u) :
    Faithful ⟨endpointId, observations, observedAt, s.tables, snapshots⟩ := by
  have hperm : snapshots.Perm
      (placed.map (answerOf endpointId generation observedAt)) := by
    rw [hc.answer]
    exact List.mergeSort_perm _ _
  refine ⟨?_, ?_, fun x hx => ?_, fun x hx => ?_⟩
  · have hmap := hperm.map observationOf
    rw [List.map_map] at hmap
    have hsame : (observationOf ∘ answerOf endpointId generation observedAt :
        Placed canonicalize → _) = Prod.fst := rfl
    rw [hsame, hc.observed] at hmap
    exact hmap
  · dsimp only
    rw [hc.answer]
    exact byODataId_sorted _
  · obtain ⟨q, -, rfl⟩ := List.mem_map.mp (hperm.mem_iff.mp hx)
    rfl
  · obtain ⟨q, -, rfl⟩ := List.mem_map.mp (hperm.mem_iff.mp hx)
    rfl

theorem Inv.commit (h : Inv s)
    (hc : Committed s.tables endpointId observations decodeFailures observedAt
      snapshots t' endpoint generation placed u) :
    Inv ⟨t', s.commits ++
      [⟨endpointId, observations, observedAt, s.tables, snapshots⟩]⟩ := by
  have hsame := insertDecodeFailures_same hc.failures
  have hkept : ∀ id row, s.tables.resources.find id = some row →
      t'.resources.find id = some row := by
    intro id row hrow
    rw [hsame.resources]
    exact hc.looped.added.kept id row hrow
  have hanswer : ∀ x ∈ snapshots, ∃ q ∈ placed,
      x = answerOf endpointId generation observedAt q := by
    intro x hx
    rw [hc.answer, List.mem_mergeSort] at hx
    obtain ⟨q, hq, rfl⟩ := List.mem_map.mp hx
    exact ⟨q, hq, rfl⟩
  refine ⟨committed_sound hc h.sound, fun e => ?_, fun e i c hget x hx => ?_,
    fun c hc' x hx => ?_, fun c hc' => ?_, fun e c hlast => ?_⟩
  · rw [commitsOf_concat]
    dsimp only
    by_cases he : e = endpointId
    · subst he
      rw [if_pos rfl, List.length_append, h.latest_next hc, h.generation_next hc]
      rfl
    · rw [if_neg he, List.append_nil, ← h.latest e]
      unfold latestGeneration
      rw [committed_joined hc h.sound, if_neg he, List.append_nil]
  · rw [commitsOf_concat] at hget
    dsimp only at hget
    split at hget
    · next he =>
        subst he
        rcases getElem?_concat_cases hget with ⟨rfl, rfl⟩ | hold
        · obtain ⟨q, -, rfl⟩ := hanswer x hx
          exact h.generation_next hc
        · exact h.numbered _ i c hold x hx
    · rw [List.append_nil] at hget
      exact h.numbered e i c hget x hx
  · rcases List.mem_append.mp hc' with hold | hnew
    · obtain ⟨row, hrow, hname⟩ := h.identified c hold x hx
      exact ⟨row, hkept _ row hrow, hname⟩
    · cases List.mem_singleton.mp hnew
      obtain ⟨q, hq, rfl⟩ := hanswer x hx
      refine ⟨q.2, ?_, (hc.well q hq).owner, (hc.well q hq).name⟩
      rw [hsame.resources]
      exact (hc.looped.placed q hq).1
  · rcases List.mem_append.mp hc' with hold | hnew
    · exact h.faithful c hold
    · cases List.mem_singleton.mp hnew
      exact committed_faithful hc
  · rw [commitsOf_concat] at hlast
    dsimp only at hlast
    split at hlast
    · next he =>
        subst he
        rw [List.getLast?_append_of_ne_nil _ (List.cons_ne_nil _ [])] at hlast
        cases hlast
        refine ⟨endpoint, generation, placed, ?_, h.latest_next hc,
          h.block_next hc, hc.valid, hc.observed, hc.well, fun q hq => ?_,
          hc.answer⟩
        · rw [hsame.endpoints, hc.looped.added.endpoints]
          exact hc.found
        · have hrow := (hc.looped.placed q hq).1
          rw [← hsame.resources] at hrow
          obtain ⟨endpoint', hfound, hle⟩ :=
            ((committed_sound hc h.sound).rows _ _ hrow).endpoint
          rw [(hc.well q hq).owner, hsame.endpoints, hc.looped.added.endpoints,
            hc.found] at hfound
          cases hfound
          exact hle
    · next he =>
        rw [List.append_nil] at hlast
        obtain ⟨endpoint', generation', placed', hcurrent⟩ := h.current e c hlast
        have howner : c.endpointId = e := of_decide_eq_true
          (List.mem_filter.mp (List.mem_of_getLast? hlast)).2
        exact ⟨endpoint', generation', placed',
          hcurrent.frame h.sound hc fun heq => he (howner.symm.trans heq)⟩

end Step

theorem Inv.initial {s : State canonicalize} (h : Initial s) : Inv s := by
  obtain ⟨hresources, hsnapshots, -, hcommits⟩ := h
  have hnone : ∀ e, s.commitsOf e = [] := by
    intro e
    rw [State.commitsOf, hcommits]
    rfl
  have hfind : ∀ id, s.tables.resources.find id = none := by
    intro id
    rw [Table.find_eq_none_iff, hresources]
    exact fun _ hin => absurd hin List.not_mem_nil
  refine ⟨⟨fun a ha => ?_, fun id row hrow => ?_, fun x hx => ?_⟩, fun e => ?_,
    fun e i c hget => ?_, fun c hc => ?_, fun c hc => ?_, fun e c hlast => ?_⟩
  · rw [hresources] at ha
    cases ha
  · rw [hfind] at hrow
    cases hrow
  · rw [hsnapshots] at hx
    cases hx
  · rw [hnone, latestGeneration, joined, hsnapshots]
    rfl
  · rw [hnone] at hget
    cases hget
  · rw [hcommits] at hc
    cases hc
  · rw [hcommits] at hc
    cases hc
  · rw [hnone] at hlast
    cases hlast

/-- What a call comes to. -/
theorem next_cases {s t : State canonicalize} {l : Label canonicalize}
    (h : next s l = some t) :
    (∃ e, (call s.tables l).1 = .error e ∧ t = s) ∨
      ∃ snapshots t', commitResourceGeneration s.tables l.endpointId
          l.observations l.decodeFailures l.observedAt l.fresh =
            .ok (snapshots, t') ∧
        (call s.tables l).1 = .ok snapshots ∧
        t = ⟨t', s.commits ++
          [⟨l.endpointId, l.observations, l.observedAt, s.tables, snapshots⟩]⟩ := by
  unfold next call transact at *
  cases hfault : l.fault with
  | some fault =>
      rw [hfault] at h
      cases fault with
      | coordinate =>
          cases h
          exact .inl ⟨_, rfl, rfl⟩
      | database =>
          cases h
          exact .inl ⟨_, rfl, rfl⟩
  | none =>
      rw [hfault] at h
      cases hcommit : commitResourceGeneration s.tables l.endpointId l.observations
          l.decodeFailures l.observedAt l.fresh with
      | error e =>
          rw [hcommit] at h
          cases h
          exact .inl ⟨e, rfl, rfl⟩
      | ok r =>
          obtain ⟨snapshots, t'⟩ := r
          rw [hcommit] at h
          cases h
          exact .inr ⟨snapshots, t', rfl, rfl, rfl⟩

theorem Inv.step {s t : State canonicalize} {l : Label canonicalize}
    (h : Inv s) (hstep : next s l = some t) : Inv t := by
  rcases next_cases hstep with ⟨e, -, rfl⟩ | ⟨snapshots, t', hcommit, -, rfl⟩
  · exact h
  · obtain ⟨endpoint, generation, placed, u, hc⟩ := commit_ok h.sound hcommit
    exact h.commit hc

/-- A new endpoint changes nothing for the others. -/
theorem Inv.enroll {s : State canonicalize} (h : Inv s) (endpoint : EndpointModel) :
    Inv ⟨{ s.tables with endpoints := s.tables.endpoints.insertNew endpoint },
      s.commits⟩ := by
  have hkept : ∀ e found, s.tables.endpoints.find e = some found →
      (s.tables.endpoints.insertNew endpoint).find e = some found := by
    intro e found hfound
    rw [Table.find_insertNew, if_neg (by simp [hfound]), hfound]
  refine { h with sound := { h.sound with rows := fun id row hrow => ?_ },
                  current := fun e c hlast => ?_ }
  · have hold := h.sound.rows id row hrow
    obtain ⟨found, hfound, hcreated⟩ := hold.endpoint
    exact { hold with endpoint := ⟨found, hkept _ _ hfound, hcreated⟩ }
  · obtain ⟨found, generation, placed, hcurrent⟩ := h.current e c hlast
    exact ⟨found, generation, placed,
      { hcurrent with found := hkept _ _ hcurrent.found }⟩

theorem reachable_inv {s : State canonicalize} (h : Reachable s) : Inv s :=
  h.inv (fun _ => Inv.initial) fun _ _ hinv hstep => hinv.step hstep.choose_spec

/-- Commits are numbered and faithful, a resource keeps its identity, what fails
changes nothing; and the last commit of an endpoint can be read as it was
answered if and only if its time is not before the creation of a resource it uses
again and its payloads parse to themselves. -/
theorem current_generation_iff (canonicalize : Canonicalize) :
    (∀ s : State canonicalize, Reachable s → ∀ e (i : Nat) c,
      (s.commitsOf e)[i]? = some c →
        Faithful c ∧ ∀ x ∈ c.snapshots, x.generation.get = i + 1) ∧
    (∀ (s t : State canonicalize) l e, next s l = some t →
      (call s.tables l).1 = .error e → t = s) ∧
    (∀ s : State canonicalize, Reachable s → ∀ e, ∀ c ∈ s.commitsOf e,
      ∀ c' ∈ s.commitsOf e, ∀ x ∈ c.snapshots, ∀ y ∈ c'.snapshots,
        x.odataId = y.odataId → x.resourceId = y.resourceId) ∧
    (∀ s : State canonicalize, Reachable s → ∀ e c,
      (s.commitsOf e).getLast? = some c →
        (findCurrentResourceGeneration canonicalize s.tables e =
            .ok (some c.snapshots) ↔
          ∀ o ∈ c.observations, Timely c.before e c.observedAt o ∧ Stable o)) := by
  refine ⟨fun s hs e i c hget => ?_, fun s t l e hstep herror => ?_,
    fun s hs e c hc c' hc' x hx y hy heq => ?_, fun s hs e c hlast => ?_⟩
  · have hinv := reachable_inv hs
    have hin : c ∈ s.commits :=
      (List.mem_filter.mp (List.mem_of_getElem? hget)).1
    exact ⟨hinv.faithful c hin, hinv.numbered e i c hget⟩
  · rcases next_cases hstep with ⟨-, -, rfl⟩ | ⟨snapshots, t', -, hok, -⟩
    · rfl
    · rw [hok] at herror
      cases herror
  · have hinv := reachable_inv hs
    obtain ⟨hin, howner⟩ := List.mem_filter.mp hc
    obtain ⟨hin', howner'⟩ := List.mem_filter.mp hc'
    obtain ⟨row, hrow, hend, hname⟩ := hinv.identified c hin x hx
    obtain ⟨row', hrow', hend', hname'⟩ := hinv.identified c' hin' y hy
    have hone := hinv.sound.oneEach row (Table.find_eq_some_iff.mp hrow).1 row'
      (Table.find_eq_some_iff.mp hrow').1
      (by rw [hend, hend', of_decide_eq_true howner, of_decide_eq_true howner'])
      (by rw [hname, hname', heq])
    rw [← Table.key_of_find hrow, ← Table.key_of_find hrow', hone]
  · obtain ⟨endpoint, generation, placed, hcurrent⟩ :=
      (reachable_inv hs).current e c hlast
    have howner : c.endpointId = e := of_decide_eq_true
      (List.mem_filter.mp (List.mem_of_getLast? hlast)).2
    subst howner
    exact hcurrent.find_iff

/-! ## A clock that goes back -/

/-- The empty object, and nothing else. -/
def emptyObject : Canonicalize := fun value =>
  if value = "\x7b\x7d" then .ok value else .error .invalidJson

def someEndpoint : EndpointId := ⟨1⟩

def enrolled : State emptyObject :=
  ⟨⟨Table.empty.insertNew ⟨someEndpoint, 0⟩, .empty, .empty, .empty⟩, []⟩

def serviceRoot : NewResourceSnapshot emptyObject :=
  ⟨.serviceRoot, ⟨"/redfish/v1", by decide⟩, none, none,
    ⟨"\x7b\x7d", "\x7b\x7d", by decide⟩⟩

def commitAt (observedAt : Instant) : Label emptyObject :=
  ⟨someEndpoint, [serviceRoot], [], observedAt, fun n => ⟨n⟩, none⟩

/-- The last commit of the endpoint succeeded and cannot be read. -/
def unreadable (s : State emptyObject) : Bool :=
  !(s.commitsOf someEndpoint).isEmpty &&
    match findCurrentResourceGeneration emptyObject s.tables someEndpoint with
    | .error _ => true
    | .ok _ => false

/-- Two commits of the Service Root, the second one five seconds before the
first. -/
theorem clock_went_back : ¬ ∀ s : State emptyObject, Reachable s → ∀ e c,
    (s.commitsOf e).getLast? = some c →
      findCurrentResourceGeneration emptyObject s.tables e =
        .ok (some c.snapshots) := by
  intro hall
  obtain ⟨s, hs, hp⟩ := exists_reach_of_follow Initial next (s := enrolled)
    [commitAt 10, commitAt 5] unreadable ⟨rfl, rfl, rfl, rfl⟩ (by decide +kernel)
  unfold unreadable at hp
  rw [Bool.and_eq_true] at hp
  obtain ⟨hsome, herror⟩ := hp
  cases hlast : (s.commitsOf someEndpoint).getLast? with
  | none =>
      rw [List.getLast?_eq_none_iff.mp hlast] at hsome
      cases hsome
  | some c =>
      rw [hall s hs someEndpoint c hlast] at herror
      cases herror

end Rutilus.Proofs.ResourceGenerations
