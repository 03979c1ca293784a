import Rutilus.App.CenterSync
import Rutilus.App.EndpointInventory
import Rutilus.Lib.Rely
import Rutilus.Proofs.ResourceGenerations

/-!
# Targets of offers

The recheck lets a target through that is a stored resource of the endpoint or lies
below one. Every generation has its Service Root, and every path of the service lies
below the root's, so the recheck refuses nothing on the service as long as the root is
spelled without a slash at its end.
-/

namespace Rutilus.Proofs.OfferTargets

open Rutilus.Domain hiding ResourceFeature
open Rutilus.Domain.Resource Rutilus.Lib Rutilus.Store Rutilus.Store.Resources
open Rutilus.App.EndpointInventory (EndpointInventoryItem)
open Rutilus.App.CenterSync
open Rutilus.Proofs.ResourceGenerations (validateObservations_ok emptyObject
  someEndpoint enrolled serviceRoot)

variable {canonicalize : Canonicalize} {e : EndpointId} {target : String}
  {snapshots : List (ResourceSnapshot canonicalize)}

/-! ### Inventories -/

/-- The snapshots of a commit that succeeded. -/
def Stored (e : EndpointId) (snapshots : List (ResourceSnapshot canonicalize)) : Prop :=
  ∃ t observations decodeFailures observedAt fresh t',
    commitResourceGeneration t e observations decodeFailures observedAt fresh =
      .ok (snapshots, t')

def IsBelow (target odataId : String) : Prop :=
  target.startsWith (odataId ++ "/") = true

/-- The target is no stored resource, and is below none but the Service Root. -/
def Vanished (snapshots : List (ResourceSnapshot canonicalize)) (target : String) :
    Prop :=
  ∀ s ∈ snapshots, target ≠ s.odataId.text ∧
    (s.feature ≠ .serviceRoot → ¬ IsBelow target s.odataId.text)

/-- What the recheck looks at of an item. -/
def inventoryItem (item : EndpointInventoryItem canonicalize) : InventoryItem where
  endpointId := item.endpoint.id
  odataIds := item.resources.map (·.odataId.text)

/-- The endpoint is listed, with these resources. -/
structure Lists (e : EndpointId) (snapshots : List (ResourceSnapshot canonicalize))
    (items : List (EndpointInventoryItem canonicalize)) : Prop where
  listed : ∃ item ∈ items, item.endpoint.id = e
  resources : ∀ item ∈ items, item.endpoint.id = e → item.resources = snapshots

/-- The rechecks may be answered in any way, but the inventory shows these resources. -/
def Answers (e : EndpointId) (snapshots : List (ResourceSnapshot canonicalize)) :
    Sem sync Unit
  | .recheck .inventory, _, r, _ => ∀ items, r = .ok items →
      ∃ listed : List (EndpointInventoryItem canonicalize),
        items = listed.map inventoryItem ∧ Lists e snapshots listed
  | _, _, _, _ => True

/-- What every answer to an offer for the target satisfies. -/
def Decides (e : EndpointId) (snapshots : List (ResourceSnapshot canonicalize))
    (target : String) (Q : OfferDecision → Prop) : Prop :=
  ∀ offer entry now, offer.target = target →
    Succeeds (Answers e snapshots) Eq (fun _ _ _ => True)
      (decideOffer offer entry e now) (fun decision _ => Q decision) ()

def NeverAccepts (e : EndpointId) (snapshots : List (ResourceSnapshot canonicalize))
    (target : String) : Prop :=
  Decides e snapshots target fun decision => ∀ command, decision ≠ .accept command

def NeverChanged (e : EndpointId) (snapshots : List (ResourceSnapshot canonicalize))
    (target : String) : Prop :=
  Decides e snapshots target fun decision =>
    ∀ detail, decision ≠ .reject .targetStateChanged detail

/-! ### The recheck -/

/-- The target is a stored resource or below one. -/
def Known (snapshots : List (ResourceSnapshot canonicalize)) (target : String) : Prop :=
  ∃ s ∈ snapshots, target = s.odataId.text ∨ IsBelow target s.odataId.text

theorem targetKnown_iff {items : List (EndpointInventoryItem canonicalize)}
    (h : Lists e snapshots items) :
    targetKnown target e (items.map inventoryItem) = true ↔ Known snapshots target := by
  unfold targetKnown
  simp only [List.any_map, List.any_eq_true, Function.comp_apply, inventoryItem,
    Bool.and_eq_true, Bool.or_eq_true, decide_eq_true_eq]
  constructor
  · rintro ⟨item, hitem, howner, s, hs, hknown⟩
    exact ⟨s, h.resources item hitem (of_decide_eq_true howner) ▸ hs, hknown⟩
  · rintro ⟨s, hs, hknown⟩
    obtain ⟨item, hitem, howner⟩ := h.listed
    exact ⟨item, hitem, decide_eq_true howner, s,
      (h.resources item hitem howner).symm ▸ hs, hknown⟩

/-- A decision fits what is known of the target. -/
def Fits (snapshots : List (ResourceSnapshot canonicalize)) (target : String)
    (decision : OfferDecision) : Prop :=
  (∀ command, decision = .accept command → Known snapshots target) ∧
    ∀ detail, decision = .reject .targetStateChanged detail → ¬ Known snapshots target

theorem Fits.decided {decision : OfferDecision} {s : Unit}
    (h : Fits snapshots target decision) :
    Succeeds (Answers e snapshots) Eq (fun _ _ _ => True)
      (pure decision : M OfferDecision)
      (fun decision _ => Fits snapshots target decision) s := by
  intro a ha
  cases ha
  exact h

/-- The other rechecks come before the target, or after it. -/
theorem decides_fits : Decides e snapshots target (Fits snapshots target) := by
  rintro offer entry now rfl
  have hany : ∀ {α : Type} {p : Prog sync (Except Fault α)}
      {wrap : Fault → CenterSyncError} {s : Unit},
      Safe (Answers e snapshots) Eq (fun _ _ _ => True) p (fun _ _ => True) s →
        Succeeds (Answers e snapshots) Eq (fun _ _ _ => True) (orThrow p wrap)
          (fun _ _ => True) s :=
    fun h => Succeeds.orThrow (h.imp fun _ _ _ _ _ => trivial)
  have hcall : ∀ (q : SyncReq) (s : Unit),
      Safe (Answers e snapshots) Eq (fun _ _ _ => True) (App.CenterSync.call q)
        (fun _ _ => True) s := fun _ _ _ _ _ _ _ => ⟨trivial, trivial⟩
  refine Succeeds.bind (hany (hcall (.recheck (.findEndpoint e)) _)) ?_
  rintro found ⟨⟩ -
  cases found with
  | none => exact Fits.decided ⟨nofun, nofun⟩
  | some endpoint =>
    cases hcommand : offer.command with
    | none => exact Fits.decided ⟨nofun, nofun⟩
    | some command =>
      refine Succeeds.bind (hany (hcall (.recheck (.capabilities e)) _)) ?_
      rintro entries ⟨⟩ -
      split
      · exact Fits.decided ⟨nofun, nofun⟩
      · refine Succeeds.bind (hany (hcall (.recheck .listCredentials) _)) ?_
        rintro credentials ⟨⟩ -
        split
        · exact Fits.decided ⟨nofun, nofun⟩
        · have hlisted : Succeeds (Answers e snapshots) Eq (fun _ _ _ => True)
              (orThrow (App.CenterSync.call (.recheck .inventory))
                CenterSyncError.inventory)
              (fun (items : List InventoryItem) _ =>
                targetKnown offer.target e items = true ↔
                  Known snapshots offer.target) () := by
            refine Succeeds.orThrow fun _ _ r _ hr => ⟨trivial, fun items hitems => ?_⟩
            obtain ⟨listed, rfl, hlists⟩ := hr items hitems
            exact targetKnown_iff hlists
          refine Succeeds.bind hlisted ?_
          rintro items ⟨⟩ hknown
          split
          · next hnot =>
              refine Fits.decided ⟨nofun, fun _ _ h => ?_⟩
              rw [hknown.mpr h] at hnot
              cases hnot
          · next hfound =>
              split
              · exact Fits.decided ⟨nofun, nofun⟩
              · refine Fits.decided ⟨fun _ _ => hknown.mp ?_, nofun⟩
                simpa using hfound

/-! ### An offer that passes the other rechecks -/

section Passing

variable (e) (snapshots)

def passingItem : EndpointInventoryItem canonicalize := ⟨⟨e, 0⟩, snapshots, []⟩

theorem lists_passingItem : Lists e snapshots [passingItem e snapshots] where
  listed := ⟨_, List.mem_singleton_self _, rfl⟩
  resources := fun item hitem _ => by rw [List.mem_singleton.mp hitem]; rfl

variable (target)

def passingOffer : OperationOffer :=
  ⟨none, none, none, some (.system (.reset "On")), target, none, ""⟩

end Passing

def passingEntry : InboxEntry := .new ⟨0⟩ ⟨0⟩ ⟨0, 0, none⟩ 0 0

/-- Everything else about an offer may be in order. -/
theorem known_accepted (hknown : Known snapshots target) :
    ¬ NeverAccepts e snapshots target := by
  intro hnever
  have h := hnever (passingOffer target) passingEntry 0 rfl
  have h := (Safe.orThrow.mp (Safe.bindE.mp h) () rfl (.ok (some ⟨⟨0⟩⟩)) () trivial).2
  have h := (Safe.orThrow.mp (Safe.bindE.mp h) () rfl
    (.ok (some [⟨.systems, some .supported, none⟩])) () trivial).2
  have h := (Safe.orThrow.mp (Safe.bindE.mp h) () rfl (.ok [⟨0⟩]) () trivial).2
  have h := (Safe.orThrow.mp (Safe.bindE.mp h) () rfl
    (.ok [inventoryItem (passingItem e snapshots)]) ()
    (fun items hitems => ⟨[passingItem e snapshots], by cases hitems; rfl,
      lists_passingItem e snapshots⟩)).2
  have hfound : targetKnown target e [inventoryItem (passingItem e snapshots)] = true :=
    (targetKnown_iff (lists_passingItem e snapshots)).mpr hknown
  -- What is left is the answer on the target; the entry expires at time 0, not before.
  have h : Succeeds (Answers e snapshots) Eq (fun _ _ _ => True)
      (if (!targetKnown target e [inventoryItem (passingItem e snapshots)]) then
        pure (OfferDecision.reject .targetStateChanged
          "the target is not in the endpoint's last-known projection")
      else pure (.accept (.system (.reset "On"))) : M OfferDecision)
      (fun decision _ => ∀ command, decision ≠ .accept command) () := h
  rw [hfound] at h
  exact h _ rfl _ rfl

/-! ### The Service Root -/

theorem insertObservations_observed {generation : RefreshGeneration}
    {observedAt : Instant} {known : String → Option ResourceModel}
    {fresh : Nat → ResourceId} {n : Nat} {t t' : Tables}
    {observations : List (NewResourceSnapshot canonicalize)}
    (h : insertObservations e generation observedAt known fresh n t observations =
      .ok (snapshots, t')) :
    snapshots.map (fun s => (s.feature, s.odataId)) =
      observations.map fun o => (o.feature, o.odataId) := by
  induction observations generalizing n t snapshots with
  | nil =>
      cases h
      rfl
  | cons observation observations ih =>
      obtain ⟨⟨resourceId, t₁⟩, -, h⟩ := bind_ok h
      obtain ⟨t₂, -, h⟩ := bind_ok h
      obtain ⟨⟨rest, t₃⟩, hrest, h⟩ := bind_ok h
      cases h
      exact congrArg (_ :: ·) (ih hrest)

/-- What a commit stores was observed, with one Service Root. -/
theorem Stored.observed (h : Stored e snapshots) :
    ∃ observations : List (NewResourceSnapshot canonicalize),
      validateObservations e observations = .ok () ∧
        (snapshots.map fun s => (s.feature, s.odataId)).Perm
          (observations.map fun o => (o.feature, o.odataId)) := by
  obtain ⟨t, observations, decodeFailures, observedAt, fresh, t', h⟩ := h
  obtain ⟨⟨⟩, hvalid, h⟩ := bind_ok h
  refine ⟨observations, hvalid, ?_⟩
  split at h
  · cases h
  · split at h
    · cases h
    · obtain ⟨generation, -, h⟩ := bind_ok h
      obtain ⟨-, -, h⟩ := bind_ok h
      obtain ⟨⟨inserted, t₁⟩, hinserted, h⟩ := bind_ok h
      obtain ⟨t₂, -, h⟩ := bind_ok h
      cases h
      rw [← insertObservations_observed hinserted]
      exact (List.mergeSort_perm _ _).map _

theorem Stored.serviceRoot (h : Stored e snapshots) :
    ∃ root ∈ snapshots, root.feature = .serviceRoot ∧
      ∀ s ∈ snapshots, s.feature = .serviceRoot → s = root := by
  obtain ⟨observations, hvalid, hperm⟩ := h.observed
  have hone : snapshots.countP (fun s => s.feature = .serviceRoot) = 1 := by
    have hcount := hperm.countP_eq fun x => decide (x.1 = .serviceRoot)
    rw [List.countP_map, List.countP_map] at hcount
    exact hcount.trans (validateObservations_ok hvalid).2
  rw [List.countP_eq_length_filter, List.length_eq_one_iff] at hone
  obtain ⟨root, hroot⟩ := hone
  have hmem : ∀ s, s ∈ snapshots ∧ s.feature = .serviceRoot ↔ s = root := by
    intro s
    calc s ∈ snapshots ∧ s.feature = .serviceRoot
        ↔ s ∈ snapshots.filter (fun s => s.feature = .serviceRoot) := by
          rw [List.mem_filter, decide_eq_true_eq]
      _ ↔ s = root := by rw [hroot, List.mem_singleton]
  exact ⟨root, ((hmem root).mpr rfl).1, ((hmem root).mpr rfl).2,
    fun s hs hfeature => (hmem s).mp ⟨hs, hfeature⟩⟩

/-! ### Vanished targets -/

/-- Whatever the commit stored: a target that has vanished is refused exactly if it is
not below the Service Root as the root is spelled, and a target that is stored is never
refused as changed. -/
theorem vanished_refused_iff (canonicalize : Canonicalize) (e : EndpointId)
    (snapshots : List (ResourceSnapshot canonicalize)) :
    (Stored e snapshots →
      ∃ root ∈ snapshots, root.feature = .serviceRoot ∧ ∀ target,
        Vanished snapshots target →
          (NeverAccepts e snapshots target ↔ ¬ IsBelow target root.odataId.text)) ∧
    (Stored e snapshots →
      ∀ s ∈ snapshots, NeverChanged e snapshots s.odataId.text) := by
  refine ⟨fun h => ?_, fun h s hs => ?_⟩
  · obtain ⟨root, hroot, hfeature, hunique⟩ := h.serviceRoot
    refine ⟨root, hroot, hfeature, fun target hvanished => ?_⟩
    have hknown : Known snapshots target ↔ IsBelow target root.odataId.text := by
      constructor
      · rintro ⟨s, hs, heq | hbelow⟩
        · exact absurd heq (hvanished s hs).1
        · by_cases hs' : s.feature = .serviceRoot
          · exact hunique s hs hs' ▸ hbelow
          · exact absurd hbelow ((hvanished s hs).2 hs')
      · intro hbelow
        exact ⟨root, hroot, Or.inr hbelow⟩
    rw [← hknown]
    constructor
    · intro hnever hk
      exact known_accepted hk hnever
    · intro hk offer entry now htarget
      refine (decides_fits offer entry now htarget).imp ?_
      intro r _ hr decision hdecision command haccept
      exact hk ((hr decision hdecision).1 command haccept)
  · intro offer entry now htarget
    refine (decides_fits offer entry now htarget).imp ?_
    intro r _ hr decision hdecision detail hchanged
    exact (hr decision hdecision).2 detail hchanged ⟨s, hs, Or.inl rfl⟩

/-- A commit of the Service Root alone. -/
def rootCommit : Outcome (List (ResourceSnapshot emptyObject) × Tables) :=
  commitResourceGeneration enrolled.tables someEndpoint [serviceRoot] [] 10 fun n => ⟨n⟩

theorem rootCommit_snapshots : ∃ root t, rootCommit = .ok ([root], t) ∧
    root.feature = .serviceRoot ∧ root.odataId.text = "/redfish/v1" := by
  have hcommit : rootCommit.toOption.map
      (fun r => r.1.map fun s => (s.feature, s.odataId.text)) =
        some [(.serviceRoot, "/redfish/v1")] := by
    decide +kernel
  cases h : rootCommit with
  | error x =>
      rw [h] at hcommit
      cases hcommit
  | ok r =>
      rw [h] at hcommit
      obtain ⟨root, hroot, hname⟩ :=
        List.map_eq_singleton_iff.mp (Option.some.inj hcommit)
      obtain ⟨hfeature, htext⟩ := Prod.mk.inj hname
      exact ⟨root, r.2, by rw [← hroot], hfeature, htext⟩

/-- Nothing but the Service Root is stored, and an offer for a system is accepted. -/
theorem vanished_target_accepted :
    ∃ snapshots : List (ResourceSnapshot emptyObject), Stored someEndpoint snapshots ∧
      Vanished snapshots "/redfish/v1/Systems/9" ∧
        ¬ NeverAccepts someEndpoint snapshots "/redfish/v1/Systems/9" := by
  obtain ⟨root, t, hcommit, hfeature, htext⟩ := rootCommit_snapshots
  refine ⟨[root], ⟨_, _, _, _, _, t, hcommit⟩, fun s hs => ?_, known_accepted ?_⟩
  · obtain rfl := List.mem_singleton.mp hs
    rw [htext]
    exact ⟨by decide, fun h => absurd hfeature h⟩
  · refine ⟨root, List.mem_singleton_self _, Or.inr ?_⟩
    rw [htext]
    unfold IsBelow
    decide +kernel

end Rutilus.Proofs.OfferTargets
