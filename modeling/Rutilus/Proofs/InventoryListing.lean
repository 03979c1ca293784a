import Rutilus.App.EndpointInventory
import Rutilus.Lib.Rely
import Rutilus.Proofs.DecodeFailures

/-!
# A listing among commits

A commit only appends: the generation it makes is new, and no later commit
touches the rows of an earlier one. So it does not matter how many commits come
between the transactions of a listing. The snapshots it loads are those of the
last commit at that moment, and the records it then asks for are still the ones
of that commit, whatever is the last one by then.

What can fail is the load itself, after a commit that the store accepted and
cannot read back: one whose time precedes the creation of a resource it uses
again, or whose payload does not parse to itself. A listing among other commits
answers.
-/

namespace Rutilus.Proofs.InventoryListing

open Rutilus.Domain hiding ResourceFeature
open Rutilus.Domain.Resource Rutilus.Lib Rutilus.App.EndpointInventory
open Rutilus.Store.Resources (Tables Commit NewResourceSnapshot EndpointModel
  Outcome byODataId commitResourceGeneration validateObservations firstRepeated
  joined SnapshotModel findCurrentResourceGeneration latestGeneration
  decodeFailureModel)
open Rutilus.Proofs.ResourceRows Rutilus.Proofs.ResourceGenerations
open Rutilus.Proofs.DecodeFailures

variable {canonicalize : Canonicalize}

/-! ## What was committed makes an item -/

section Items

variable {t : Tables} {c : Commit canonicalize} {endpoint : EndpointModel}
  {generation : RefreshGeneration} {placed : List (Placed canonicalize)}

theorem nodup_of_firstRepeated
    {seen : List ResourceODataId}
    {observations : List (NewResourceSnapshot canonicalize)}
    (h : firstRepeated seen observations = none) :
    (observations.map (·.odataId)).Nodup ∧
      ∀ o ∈ observations, o.odataId ∉ seen := by
  induction observations generalizing seen with
  | nil => exact ⟨List.nodup_nil, fun _ ho => nomatch ho⟩
  | cons o rest ih =>
      unfold firstRepeated at h
      split at h
      · cases h
      · next hnew =>
          obtain ⟨hnodup, hout⟩ := ih h
          refine ⟨List.nodup_cons.mpr ⟨fun hin => ?_, hnodup⟩, fun o' ho' => ?_⟩
          · obtain ⟨o', ho', heq⟩ := List.mem_map.mp hin
            exact hout o' ho' (heq ▸ List.mem_cons_self)
          · rcases List.mem_cons.mp ho' with rfl | ho'
            · exact hnew
            · exact fun hin => hout o' ho' (List.mem_cons_of_mem _ hin)

theorem nodup_odataIds {endpointId : EndpointId}
    {observations : List (NewResourceSnapshot canonicalize)}
    (h : validateObservations endpointId observations = .ok ()) :
    (observations.map (·.odataId)).Nodup := by
  unfold validateObservations at h
  split at h
  · cases h
  · split at h
    · cases h
    · next hnone => exact (nodup_of_firstRepeated hnone).1

/-- The snapshots of one generation are of different resources. -/
theorem nodup_resourceIds
    (h : Current t c endpoint generation placed) :
    (c.snapshots.map (·.resourceId)).Nodup := by
  have hperm : (c.snapshots.map (·.resourceId)).Perm
      (placed.map fun q => q.2.id) := by
    rw [h.answer]
    refine ((List.mergeSort_perm _ _).map _).trans ?_
    rw [List.map_map]
    exact List.Perm.refl _
  have hsub : ((joined t c.endpointId).map Prod.fst).Sublist
      t.snapshots.rows := by
    unfold joined
    induction t.snapshots.rows with
    | nil => exact List.Sublist.refl _
    | cons row rows ih =>
        rw [List.filterMap_cons]
        split
        · exact ih.cons _
        · next pair hpair =>
            obtain ⟨resource, -, rfl⟩ := Option.map_eq_some_iff.mp hpair
            exact ih.cons_cons _
  have hkeys : ((placed.map (pairOf generation c.observedAt)).map fun row =>
      (row.1.resourceId, row.1.generation)).Nodup := by
    rw [← h.block]
    have hall : ((joined t c.endpointId).map fun row =>
        (row.1.resourceId, row.1.generation)).Nodup := by
      have := (hsub.map SnapshotModel.key).nodup t.snapshots.nodup
      rwa [List.map_map] at this
    exact (List.filter_sublist.map _).nodup hall
  refine hperm.nodup_iff.mpr ?_
  rw [List.map_map] at hkeys
  have hpair : (fun q : Placed canonicalize => (q.2.id, generation.get)) =
      (fun row : SnapshotModel × Store.Resources.ResourceModel =>
        (row.1.resourceId, row.1.generation)) ∘
          pairOf generation c.observedAt := rfl
  rw [← hpair] at hkeys
  refine List.Nodup.of_map (fun id => (id, generation.get)) ?_
  rw [List.map_map]
  exact hkeys

theorem checkResources_ok {endpointId : EndpointId} {observedAt : Instant}
    {resources : List (ResourceSnapshot canonicalize)}
    (resourceIds : List ResourceId) (odataIds : List ResourceODataId)
    (serviceRoots : Nat)
    (hsame : ∀ x ∈ resources, x.endpointId = endpointId ∧
      x.generation = generation ∧ x.observedAt = observedAt)
    (hids : (resources.map (·.resourceId)).Nodup)
    (hodata : (resources.map (·.odataId)).Nodup)
    (hfresh : ∀ x ∈ resources, x.resourceId ∉ resourceIds ∧
      x.odataId ∉ odataIds) :
    EndpointInventoryItem.checkResources endpointId generation observedAt
        resourceIds odataIds serviceRoots resources =
      .ok (serviceRoots +
        resources.countP fun x => x.feature = .serviceRoot) := by
  induction resources generalizing resourceIds odataIds serviceRoots with
  | nil => rfl
  | cons x rest ih =>
      obtain ⟨hendpoint, hgeneration, htime⟩ := hsame x List.mem_cons_self
      obtain ⟨hid, hname⟩ := hfresh x List.mem_cons_self
      obtain ⟨hidout, hids⟩ := List.nodup_cons.mp hids
      obtain ⟨hnameout, hodata⟩ := List.nodup_cons.mp hodata
      unfold EndpointInventoryItem.checkResources
      rw [if_neg (not_not.mpr hendpoint), if_neg (not_not.mpr hgeneration),
        if_neg (not_not.mpr htime), if_neg hid, if_neg hname,
        ih _ _ _ (fun y hy => hsame y (List.mem_cons_of_mem _ hy)) hids hodata ?_]
      · rw [List.countP_cons]
        congr 1
        by_cases hroot : x.feature = .serviceRoot
        · simp only [hroot, decide_true, if_true]
          omega
        · simp only [hroot, decide_false, Bool.false_eq_true, if_false]
          omega
      · intro y hy
        obtain ⟨hyid, hyname⟩ := hfresh y (List.mem_cons_of_mem _ hy)
        refine ⟨fun hin => ?_, fun hin => ?_⟩
        · rcases List.mem_cons.mp hin with heq | hin
          · exact hidout (List.mem_map.mpr ⟨y, hy, heq⟩)
          · exact hyid hin
        · rcases List.mem_cons.mp hin with heq | hin
          · exact hnameout (List.mem_map.mpr ⟨y, hy, heq⟩)
          · exact hyname hin

/-- The last commit makes an item: all its snapshots, under its generation. -/
theorem tryNew_current (hfaithful : Faithful c)
    (hnumbered : ∀ x ∈ c.snapshots, x.generation = generation)
    (h : Current t c endpoint generation placed) {model : EndpointModel}
    (hmodel : model.id = c.endpointId) :
    EndpointInventoryItem.tryNew model c.snapshots =
        .ok ⟨model, c.snapshots, []⟩ ∧
      c.snapshots.head?.map (·.generation) = some generation := by
  obtain ⟨hne, hroot⟩ := validateObservations_ok h.valid
  have hcount : c.snapshots.countP (fun x => x.feature = .serviceRoot) = 1 := by
    rw [← hroot, ← hfaithful.observations.countP_eq, List.countP_map]
    rfl
  have hodata : (c.snapshots.map (·.odataId)).Nodup := by
    have hperm := hfaithful.observations.map (·.odataId)
    rw [List.map_map] at hperm
    exact hperm.nodup_iff.mpr (nodup_odataIds h.valid)
  have hsorted : c.snapshots.mergeSort byODataId = c.snapshots := by
    refine List.mergeSort_of_pairwise (hfaithful.sorted.imp fun hab => ?_)
    exact decide_eq_true hab
  cases hsnapshots : c.snapshots with
  | nil =>
      rw [hsnapshots] at hcount
      cases hcount
  | cons first rest =>
      have hfirst : first ∈ c.snapshots := hsnapshots ▸ List.mem_cons_self
      have hcheck := checkResources_ok [] [] 0
        (fun x hx => ⟨(hfaithful.endpointId x hx).trans hmodel.symm,
          hnumbered x hx, (hfaithful.observedAt x hx).trans
            (hfaithful.observedAt first hfirst).symm⟩)
        (nodup_resourceIds h) hodata fun _ _ => ⟨nofun, nofun⟩
      refine ⟨?_, by rw [← hnumbered first hfirst]; rfl⟩
      unfold EndpointInventoryItem.tryNew
      dsimp only
      rw [hnumbered first hfirst, ← hsnapshots, hcheck, hcount, hsorted]
      rfl

end Items

/-! ## The worlds of good commits -/

/-- What a commit must meet to be read back. -/
def Good (w : World canonicalize) (l : Store.Resources.Label canonicalize) :
    Prop :=
  ∀ o ∈ l.observations, Timely w.tables l.endpointId l.observedAt o ∧ Stable o

/-- The commits are numbered and readable, and each has its records in the
tables. -/
structure WorldInv (w : World canonicalize) : Prop where
  store : Inv w.store
  numbered : Numbered w.store
  good : ∀ entry ∈ w.log, ∀ o ∈ entry.1.observations,
    Timely entry.1.before entry.1.endpointId entry.1.observedAt o ∧ Stable o
  records : ∀ e (i : Nat) entry, (World.logOf w.log e)[i]? = some entry →
    ∀ generation : RefreshGeneration, generation.get = i + 1 →
      w.tables.decodeFailures.rows.filter (fun row =>
        row.endpointId = e ∧ row.generation = generation.get) =
          entry.2.map (decodeFailureModel e generation)

/-- More commits of the same endpoints. -/
structure Grows (w w' : World canonicalize) : Prop where
  inv : WorldInv w'
  endpoints : w'.tables.endpoints = w.tables.endpoints
  log : w.log <+: w'.log

section Worlds

variable {w w' w'' : World canonicalize} {e : EndpointId}

theorem Grows.trans (h₁ : Grows w w') (h₂ : Grows w' w'') : Grows w w'' :=
  ⟨h₂.inv, h₂.endpoints.trans h₁.endpoints, h₁.log.trans h₂.log⟩

theorem commitsOf_store (w : World canonicalize) (e : EndpointId) :
    w.store.commitsOf e = (World.logOf w.log e).map Prod.fst := by
  unfold Store.Resources.State.commitsOf World.store World.logOf
  rw [List.filter_map]
  rfl

theorem logOf_prefix {log log' : List (Entry canonicalize)}
    (h : log <+: log') : World.logOf log e <+: World.logOf log' e := by
  obtain ⟨tail, rfl⟩ := h
  unfold World.logOf
  rw [List.filter_append]
  exact List.prefix_append _ _

/-- What a commit comes to. -/
theorem commit_cases (w : World canonicalize)
    (l : Store.Resources.Label canonicalize) :
    w.commit l = w ∨ ∃ snapshots t', commitResourceGeneration w.tables
        l.endpointId l.observations l.decodeFailures l.observedAt l.fresh =
          .ok (snapshots, t') ∧
      w.commit l = ⟨t', w.log ++ [(⟨l.endpointId, l.observations,
        l.observedAt, w.tables, snapshots⟩, l.decodeFailures)]⟩ := by
  unfold World.commit Store.Resources.call Store.Resources.transact
  cases l.fault with
  | some fault => cases fault <;> exact .inl rfl
  | none =>
      cases hcommit : commitResourceGeneration w.tables l.endpointId
          l.observations l.decodeFailures l.observedAt l.fresh with
      | error err => exact .inl rfl
      | ok r =>
          obtain ⟨snapshots, t'⟩ := r
          exact .inr ⟨snapshots, t', rfl, rfl⟩

theorem store_commit (w : World canonicalize)
    (l : Store.Resources.Label canonicalize) :
    Store.Resources.next w.store l = some (w.commit l).store := by
  unfold Store.Resources.next World.commit World.store
  split
  · next heq =>
      rw [heq]
  · next heq =>
      rw [heq]
      dsimp only
      rw [List.map_append, List.map_singleton]

/-- A good commit keeps everything and adds at the end. -/
theorem WorldInv.commit (h : WorldInv w)
    {l : Store.Resources.Label canonicalize} (hgood : Good w l) :
    Grows w (w.commit l) := by
  have hinv : Inv (w.commit l).store := h.store.step (store_commit w l)
  have hnumbered : Numbered (w.commit l).store :=
    h.numbered.step h.store (store_commit w l)
  rcases commit_cases w l with heq | ⟨snapshots, t', hcommit, heq⟩
  · rw [heq]
    exact ⟨h, rfl, List.prefix_refl _⟩
  · rw [heq] at hinv hnumbered ⊢
    obtain ⟨endpoint, generation, placed, u, hc⟩ :=
      commit_ok (t := w.tables) h.store.sound hcommit
    have hrows : t'.decodeFailures.rows = w.tables.decodeFailures.rows ++
        l.decodeFailures.map (decodeFailureModel l.endpointId generation) := by
      rw [insertDecodeFailures_rows hc.failures,
        hc.looped.added.decodeFailures]
    have hnext := h.store.generation_next (s := w.store) hc
    rw [commitsOf_store, List.length_map] at hnext
    have hbound : ∀ row ∈ w.tables.decodeFailures.rows,
        row.generation ≤ (World.logOf w.log row.endpointId).length := by
      intro row hrow
      have hle := h.numbered row hrow
      rwa [commitsOf_store, List.length_map] at hle
    refine ⟨⟨hinv, hnumbered, fun entry hentry => ?_, ?_⟩, ?_,
      List.prefix_append _ _⟩
    · rcases List.mem_append.mp hentry with hold | hnew
      · exact h.good entry hold
      · cases List.mem_singleton.mp hnew
        exact hgood
    · intro e i entry hget g hg
      dsimp only at hget ⊢
      unfold World.logOf at hget
      rw [List.filter_append] at hget
      by_cases he : l.endpointId = e
      · subst he
        rw [List.filter_cons_of_pos (by simp), List.filter_nil] at hget
        rcases getElem?_concat_cases hget with ⟨rfl, rfl⟩ | hold
        · -- the new commit: its number is above those of all older records
          obtain rfl : g = generation := by
            cases g
            cases generation
            dsimp only at hg hnext
            subst hg hnext
            rfl
          refine block_of_rows hrows fun row hrow hrow' => ?_
          have hle := hbound row hrow
          rw [hrow'.1, hrow'.2, hnext] at hle
          exact absurd hle (by omega)
        · have hlt : i < (World.logOf w.log l.endpointId).length := by
            obtain ⟨hlt, -⟩ := List.getElem?_eq_some_iff.mp hold
            exact hlt
          rw [hrows, List.filter_append, h.records _ i entry hold g hg,
            List.filter_eq_nil_iff.mpr, List.append_nil]
          intro row hrow hrow'
          obtain ⟨failure, -, rfl⟩ := List.mem_map.mp hrow
          have hsame : generation.get = g.get := (of_decide_eq_true hrow').2
          omega
      · rw [List.filter_cons_of_neg (by simp [he]), List.filter_nil,
          List.append_nil] at hget
        rw [hrows, List.filter_append, h.records _ i entry hget g hg,
          List.filter_eq_nil_iff.mpr, List.append_nil]
        intro row hrow hrow'
        obtain ⟨failure, -, rfl⟩ := List.mem_map.mp hrow
        exact he (of_decide_eq_true hrow').1
    · exact (insertDecodeFailures_same hc.failures).endpoints.trans
        hc.looped.added.endpoints

theorem WorldInv.initial {w : World canonicalize}
    (h : Store.Resources.Initial w.store) : WorldInv w := by
  have hlog : w.log = [] := List.map_eq_nil_iff.mp h.2.2.2
  refine ⟨Inv.initial h, fun row hrow => ?_, fun entry hentry => ?_,
    fun e i entry hget => ?_⟩
  · have hnone : w.store.tables.decodeFailures.rows = [] := h.2.2.1
    rw [hnone] at hrow
    cases hrow
  · rw [hlog] at hentry
    cases hentry
  · rw [hlog] at hget
    cases hget

end Worlds

/-! ## The listing -/

/-- The item is a commit, its snapshots and its records, or nothing before the
first. -/
def IsOf (item : EndpointInventoryItem canonicalize) :
    Option (Entry canonicalize) → Prop
  | none => item.resources = [] ∧ item.decodeFailures = []
  | some (c, records) => Faithful c ∧ item.resources = c.snapshots ∧
      item.decodeFailures.Perm records

/-- The item is what was the last commit of its endpoint at a moment between
`since` and now. -/
def Whole (w : World canonicalize) (since : Nat)
    (item : EndpointInventoryItem canonicalize) : Prop :=
  ∃ n, since ≤ n ∧ n ≤ w.log.length ∧
    IsOf item (World.logOf (w.log.take n) item.endpoint.id).getLast?

section Listing

variable {w w' : World canonicalize} {since : Nat}
  {order : EndpointModel → EndpointModel → Bool}

theorem Whole.grows {item : EndpointInventoryItem canonicalize}
    (h : Whole w since item) (hw : Grows w w') : Whole w' since item := by
  obtain ⟨n, hsince, hn, hlast⟩ := h
  obtain ⟨tail, htail⟩ := hw.log
  refine ⟨n, hsince, hn.trans (htail ▸ by simp), ?_⟩
  rw [← htail, List.take_append_of_le_length hn]
  exact hlast

/-- The calls only read. -/
def Reads (order : EndpointModel → EndpointModel → Bool) :
    Sem (inventorySig canonicalize) (World canonicalize) :=
  fun q w r w' => r = answer order w.tables q ∧ w' = w

/-- The last commit is read as it was answered. -/
theorem find_last (h : WorldInv w) {e : EndpointId} {c : Commit canonicalize}
    {records : List ResourceDecodeFailure}
    (hlast : (World.logOf w.log e).getLast? = some (c, records)) :
    findCurrentResourceGeneration canonicalize w.tables e =
        .ok (some c.snapshots) ∧
      ∃ generation : RefreshGeneration, ∃ i : Nat, generation.get = i + 1 ∧
        (World.logOf w.log e)[i]? = some (c, records) ∧
        ∀ model : EndpointModel, model.id = e →
          EndpointInventoryItem.tryNew model c.snapshots =
              .ok ⟨model, c.snapshots, []⟩ ∧
            c.snapshots.head?.map (·.generation) = some generation := by
  have hmem := List.mem_of_getLast? hlast
  obtain ⟨hin, howner⟩ := List.mem_filter.mp hmem
  have howner : c.endpointId = e := of_decide_eq_true howner
  have hstore : (w.store.commitsOf e).getLast? = some c := by
    rw [commitsOf_store, List.getLast?_map, hlast]
    rfl
  obtain ⟨endpoint, generation, placed, hcurrent⟩ :=
    h.store.current e c hstore
  subst howner
  refine ⟨hcurrent.find_iff.mpr (h.good _ hin), generation, ?_⟩
  have hlength : (World.logOf w.log c.endpointId).length ≠ 0 := fun hzero => by
    rw [List.length_eq_zero_iff.mp hzero] at hlast
    cases hlast
  set i := (World.logOf w.log c.endpointId).length - 1 with hi
  have hget : (World.logOf w.log c.endpointId)[i]? = some (c, records) := by
    rw [hi, ← List.getLast?_eq_getElem?]
    exact hlast
  have hnumber : generation.get = i + 1 := by
    have hlatest := h.store.latest c.endpointId
    rw [commitsOf_store, List.length_map] at hlatest
    have hcount : (World.logOf w.log c.endpointId).length = i + 1 := by omega
    rw [hcount] at hlatest
    exact Option.some.inj (hcurrent.latest.symm.trans hlatest)
  have hfaithful : Faithful c :=
    h.store.faithful c (List.mem_map.mpr ⟨_, hin, rfl⟩)
  refine ⟨i, hnumber, hget, fun model hmodel => tryNew_current hfaithful
    (fun x hx => ?_) hcurrent hmodel⟩
  have hx : x.generation.get = i + 1 := by
    refine h.store.numbered c.endpointId i c ?_ x hx
    rw [commitsOf_store, List.getElem?_map, hget]
    rfl
  cases hg : x.generation with
  | mk get positive small =>
      cases generation
      rw [hg] at hx
      dsimp only at hx hnumber
      subst hx hnumber
      rfl

/-- An endpoint without commits has no snapshots. -/
theorem find_none (h : WorldInv w) {endpoint : EndpointModel}
    (hfound : w.tables.endpoints.find endpoint.id = some endpoint)
    (hlast : (World.logOf w.log endpoint.id).getLast? = none) :
    findCurrentResourceGeneration canonicalize w.tables endpoint.id =
      .ok (some []) := by
  have hlatest := h.store.latest endpoint.id
  rw [commitsOf_store, List.length_map, List.getLast?_eq_none_iff.mp hlast]
    at hlatest
  unfold findCurrentResourceGeneration
  rw [hfound]
  dsimp only
  rw [show latestGeneration w.tables endpoint.id = none from hlatest]

/-- The item of one endpoint. -/
theorem loadItem_safe {endpoint : EndpointModel}
    (hfound : w.tables.endpoints.find endpoint.id = some endpoint)
    (hsince : since ≤ w.log.length) :
    Safe (Reads order) Grows (fun _ _ _ => True)
      (@loadItem canonicalize endpoint)
      (fun r w' => Grows w w' ∧ ∃ item, r = .ok item ∧
        item.endpoint = endpoint ∧ Whole w' since item) w := by
  unfold loadItem
  rw [Safe.bindE, Safe.orThrow]
  rintro w₁ hw₁ r w₁' ⟨rfl, rfl⟩
  refine ⟨trivial, ?_⟩
  have hfound₁ : w₁'.tables.endpoints.find endpoint.id = some endpoint :=
    hw₁.endpoints ▸ hfound
  have hlength : since ≤ w₁'.log.length := hsince.trans hw₁.log.length_le
  have hwhole : ∀ item : EndpointInventoryItem canonicalize,
      IsOf item (World.logOf w₁'.log item.endpoint.id).getLast? →
        Whole w₁' since item := by
    intro item hitem
    refine ⟨w₁'.log.length, hlength, le_rfl, ?_⟩
    rwa [List.take_length]
  rw [Safe.ret]
  cases hlast : (World.logOf w₁'.log endpoint.id).getLast? with
  | none =>
      have hanswer : @answer canonicalize order w₁'.tables
          (.findCurrentResourceGeneration endpoint.id) = .ok (some []) :=
        find_none hw₁.inv hfound₁ hlast
      rw [hanswer]
      refine ⟨hw₁, _, rfl, rfl, hwhole _ ?_⟩
      exact hlast ▸ (⟨rfl, rfl⟩ : IsOf ⟨endpoint, [], []⟩ none)
  | some entry =>
      obtain ⟨c, records⟩ := entry
      obtain ⟨hfind, generation, i, hnumber, hget, hitem⟩ :=
        find_last hw₁.inv hlast
      obtain ⟨hnew, hgeneration⟩ := hitem endpoint rfl
      have hmem := List.mem_of_getLast? hlast
      have hfaithful : Faithful c := hw₁.inv.store.faithful c
        (List.mem_map.mpr ⟨_, (List.mem_filter.mp hmem).1, rfl⟩)
      have hanswer : @answer canonicalize order w₁'.tables
          (.findCurrentResourceGeneration endpoint.id) =
            .ok (some c.snapshots) := hfind
      have hgeneration : (EndpointInventoryItem.mk endpoint c.snapshots
        []).generation = some generation := hgeneration
      rw [hanswer]
      dsimp only [Except.mapError]
      rw [hnew]
      dsimp only
      rw [hgeneration]
      dsimp only
      rw [Safe.bindE, Safe.orThrow]
      -- whatever was committed meanwhile, the records of this one are there
      rintro w₂ hw₂ r w₂' ⟨rfl, rfl⟩
      refine ⟨trivial, ?_⟩
      have hget₂ : (World.logOf w₂'.log endpoint.id)[i]? =
          some (c, records) := by
        obtain ⟨tail, htail⟩ := logOf_prefix (e := endpoint.id) hw₂.log
        rw [← htail, List.getElem?_append_left
          (List.getElem?_eq_some_iff.mp hget).1]
        exact hget
      obtain ⟨found, hrecords, hperm⟩ := findCurrentDecodeFailures_block
        (hw₂.inv.records endpoint.id i _ hget₂ generation hnumber)
      have hanswer₂ : @answer canonicalize order w₂'.tables
          (.findCurrentDecodeFailures endpoint.id generation) = .ok found :=
        hrecords
      rw [Safe.ret, hanswer₂]
      refine ⟨hw₁.trans hw₂, _, rfl, rfl, Whole.grows (hwhole _ ?_) hw₂⟩
      have his : IsOf (⟨endpoint, c.snapshots, found⟩ :
          EndpointInventoryItem canonicalize) (some (c, records)) :=
        ⟨hfaithful, rfl, hperm⟩
      exact hlast ▸ his

/-- The items of all endpoints, in the order of the listing. -/
theorem loadItems_safe {endpoints : List EndpointModel} (h : WorldInv w)
    (hfound : ∀ endpoint ∈ endpoints,
      w.tables.endpoints.find endpoint.id = some endpoint)
    (hsince : since ≤ w.log.length) :
    Safe (Reads order) Grows (fun _ _ _ => True)
      (@loadItems canonicalize endpoints)
      (fun r w' => Grows w w' ∧ ∃ items, r = .ok items ∧
        items.map (·.endpoint) = endpoints ∧
        ∀ item ∈ items, Whole w' since item) w := by
  induction endpoints generalizing w with
  | nil => exact ⟨⟨h, rfl, List.prefix_refl _⟩, [], rfl, rfl, nofun⟩
  | cons endpoint endpoints ih =>
      unfold loadItems
      rw [Safe.bindE]
      refine (loadItem_safe (hfound endpoint List.mem_cons_self) hsince).imp ?_
      rintro r w₁ ⟨hw₁, item, rfl, hendpoint, hwhole⟩
      dsimp only
      rw [Safe.bindE]
      have hfound₁ : ∀ e ∈ endpoints,
          w₁.tables.endpoints.find e.id = some e := fun e he =>
        hw₁.endpoints ▸ hfound e (List.mem_cons_of_mem _ he)
      refine (ih hw₁.inv hfound₁ (hsince.trans hw₁.log.length_le)).imp ?_
      rintro r w₂ ⟨hw₂, items, rfl, hendpoints, hwholes⟩
      refine ⟨hw₁.trans hw₂, item :: items, rfl, ?_, fun i hi => ?_⟩
      · rw [List.map_cons, hendpoint, hendpoints]
      · rcases List.mem_cons.mp hi with rfl | hi
        · exact hwhole.grows hw₂
        · exact hwholes i hi

theorem listEndpointInventory_safe (hsince : since ≤ w.log.length) :
    Safe (Reads order) Grows (fun _ _ _ => True)
      (@listEndpointInventory canonicalize)
      (fun r w' => Grows w w' ∧ ∃ items, r = .ok items ∧
        items.map (·.endpoint) = w'.tables.endpoints.rows.mergeSort order ∧
        ∀ item ∈ items, Whole w' since item) w := by
  unfold listEndpointInventory
  rw [Safe.bindE, Safe.orThrow]
  rintro w₁ hw₁ r w₁' ⟨rfl, rfl⟩
  refine ⟨trivial, ?_⟩
  rw [Safe.ret]
  have hfound : ∀ endpoint ∈ w₁'.tables.endpoints.rows.mergeSort order,
      w₁'.tables.endpoints.find endpoint.id = some endpoint := fun e he =>
    Table.find_eq_some_iff.mpr ⟨List.mem_mergeSort.mp he, rfl⟩
  refine (loadItems_safe hw₁.inv hfound
    (hsince.trans hw₁.log.length_le)).imp ?_
  rintro r w₂ ⟨hw₂, items, rfl, hendpoints, hwholes⟩
  refine ⟨hw₁.trans hw₂, items, rfl, ?_, hwholes⟩
  rw [hendpoints, hw₂.endpoints]

/-- What a finished listing answered. -/
def Answered (order : EndpointModel → EndpointModel → Bool) (since : Nat)
    (r : Except EndpointInventoryPersistenceError
      (List (EndpointInventoryItem canonicalize)))
    (w : World canonicalize) : Prop :=
  ∃ items, r = .ok items ∧
    items.map (·.endpoint) = w.tables.endpoints.rows.mergeSort order ∧
    ∀ item ∈ items, Whole w since item

theorem Answered.grows {r : Except EndpointInventoryPersistenceError
      (List (EndpointInventoryItem canonicalize))}
    (h : Answered order since r w) (hw : Grows w w') :
    Answered order since r w' := by
  obtain ⟨items, rfl, hendpoints, hwholes⟩ := h
  refine ⟨items, rfl, ?_, fun item hitem => (hwholes item hitem).grows hw⟩
  rw [hw.endpoints, hendpoints]

end Listing

/-! ## Runs -/

/-- Commits are good; the rest is free. -/
def GoodLabel (s : System canonicalize) : Label canonicalize → Prop
  | .commit l => Good s.world l
  | .start => True
  | .read => True

/-- The systems that good commits and listings lead to. -/
abbrev Reachable (order : EndpointModel → EndpointModel → Bool)
    (s : System canonicalize) : Prop :=
  Reach Initial (fun s t => ∃ l, GoodLabel s l ∧ next order s l = some t) s

structure SystemInv (order : EndpointModel → EndpointModel → Bool)
    (s : System canonicalize) : Prop where
  world : WorldInv s.world
  listing : ∀ listing, s.listing = some listing →
    listing.since ≤ s.world.log.length ∧
      Safe (Reads order) Grows (fun _ _ _ => True) listing.rest
        (Answered order listing.since) s.world

theorem SystemInv.step {order : EndpointModel → EndpointModel → Bool}
    {s t : System canonicalize} {l : Label canonicalize}
    (h : SystemInv order s) (hgood : GoodLabel s l)
    (hstep : next order s l = some t) : SystemInv order t := by
  cases l with
  | commit l =>
      cases hstep
      have hgrows := h.world.commit hgood
      refine ⟨hgrows.inv, fun listing hlisting => ?_⟩
      obtain ⟨hsince, hsafe⟩ := h.listing listing hlisting
      exact ⟨hsince.trans hgrows.log.length_le,
        hsafe.stable Grows.trans (fun _ h => h.grows hgrows) hgrows⟩
  | start =>
      cases hstep
      refine ⟨h.world, fun listing hlisting => ?_⟩
      cases hlisting
      refine ⟨le_rfl, (listEndpointInventory_safe le_rfl).imp ?_⟩
      exact fun r w hr => hr.2
  | read =>
      unfold next at hstep
      dsimp only at hstep
      split at hstep
      · next since q k heq =>
          cases hstep
          refine ⟨h.world, fun listing hlisting => ?_⟩
          cases hlisting
          obtain ⟨hsince, hsafe⟩ := h.listing _ heq
          exact ⟨hsince, (hsafe s.world
            ⟨h.world, rfl, List.prefix_refl _⟩ _ _ ⟨rfl, rfl⟩).2⟩
      · cases hstep

theorem reachable_systemInv {order : EndpointModel → EndpointModel → Bool}
    {s : System canonicalize} (h : Reachable order s) : SystemInv order s := by
  have hstart : ∀ s : System canonicalize, Initial s → SystemInv order s := by
    intro s hs
    refine ⟨WorldInv.initial hs.1, fun listing hlisting => ?_⟩
    rw [hs.2] at hlisting
    cases hlisting
  refine h.inv (P := SystemInv order) hstart fun s t hinv hstep => ?_
  obtain ⟨l, hgood, hnext⟩ := hstep
  exact hinv.step hgood hnext

/-- Along every run of commits that can be read back, a listing that has ended
answered: with an item for every endpoint, each holding the snapshots and the
records of the one commit that was the last of its endpoint at some moment since
the listing began (or nothing, before the first commit). A listing that has not
ended can always go on. -/
theorem listing_whole (canonicalize : Canonicalize)
    (order : EndpointModel → EndpointModel → Bool) :
    (∀ s : System canonicalize, Reachable order s → ∀ since r,
      s.listing = some ⟨since, .ret r⟩ → Answered order since r s.world) ∧
    ∀ (s : System canonicalize) since q k,
      s.listing = some ⟨since, .call q k⟩ →
        ∃ t, next order s .read = some t ∧ t.world = s.world := by
  constructor
  · intro s hs since r hlisting
    exact ((reachable_systemInv hs).listing _ hlisting).2
  · intro s since q k hlisting
    unfold next
    rw [hlisting]
    exact ⟨_, rfl, rfl⟩

/-! ## A commit that cannot be read back -/

namespace Torn

def enrolledSystem : System emptyObject := ⟨⟨enrolled.tables, []⟩, none⟩

/-- The listing has the endpoints and asks for a generation after the clock went
back. -/
def labels : List (Label emptyObject) :=
  [.commit (commitAt 10), .start, .read, .commit (commitAt 5), .read]

def anyOrder (_ _ : EndpointModel) : Bool := true

def failed (s : System emptyObject) : Bool :=
  match s.listing with
  | some ⟨_, .ret (.error _)⟩ => true
  | _ => false

theorem listing_fails : ¬ ∀ s : System emptyObject,
    Reach Initial (Next (next anyOrder)) s → ∀ since r,
      s.listing = some ⟨since, .ret r⟩ → Answered anyOrder since r s.world := by
  intro hall
  obtain ⟨s, hs, hfailed⟩ := exists_reach_of_follow Initial (next anyOrder)
    (s := enrolledSystem) labels failed ⟨⟨rfl, rfl, rfl, rfl⟩, rfl⟩
    (by decide +kernel)
  unfold failed at hfailed
  split at hfailed
  · next since e heq =>
      obtain ⟨items, hok, -⟩ := hall s hs since _ heq
      cases hok
  · cases hfailed

end Torn

end Rutilus.Proofs.InventoryListing
