import Rutilus.Proofs.Captures
import Rutilus.Proofs.ResourceGenerations

/-!
# Records of skipped members

The store keeps one record for an endpoint, a generation and an `@odata.id`, and
writes the records in the transaction of the snapshots. The number of a commit is
new, so its records meet no older one; they only meet each other. Two of them
under one identifier take the whole generation with them, which is what happens
when a member is skipped for two features, or twice.
-/

namespace Rutilus.Proofs.DecodeFailures

open Rutilus.Domain hiding ResourceFeature
open Rutilus.Domain.Resource Rutilus.Lib Rutilus.Gateway Rutilus.Store.Resources
open Rutilus.Proofs.Captures Rutilus.Proofs.ResourceRows
open Rutilus.Proofs.ResourceGenerations

variable {canonicalize : Canonicalize}

/-! ## Inserting the records -/

section Insert

variable {endpointId : EndpointId} {generation : RefreshGeneration} {u t : Tables}
  {failure : ResourceDecodeFailure} {failures : List ResourceDecodeFailure}

/-- The place of a record. -/
def keyOf (endpointId : EndpointId) (generation : RefreshGeneration)
    (failure : ResourceDecodeFailure) : EndpointId × Nat × String :=
  (decodeFailureModel endpointId generation failure).key

theorem keyOf_eq_iff {other : ResourceDecodeFailure} :
    keyOf endpointId generation failure = keyOf endpointId generation other ↔
      failure.odataUri = other.odataUri := by
  constructor
  · intro h
    have htext : failure.odataUri.text = other.odataUri.text :=
      congrArg (fun k => k.2.2) h
    rcases hodata : failure.odataUri with ⟨text, valid⟩
    rcases hother : other.odataUri with ⟨text', valid'⟩
    rw [hodata, hother] at htext
    subst htext
    rfl
  · intro h
    unfold keyOf decodeFailureModel DecodeFailureModel.key
    rw [h]

/-- Into a free place, and only there. -/
theorem insertDecodeFailure_free
    (h : u.decodeFailures.find (keyOf endpointId generation failure) = none) :
    insertDecodeFailure endpointId generation u failure = .ok { u with
      decodeFailures := u.decodeFailures.insertNew
        (decodeFailureModel endpointId generation failure) } := by
  unfold insertDecodeFailure
  rw [if_neg]
  unfold Table.has
  rw [show u.decodeFailures.find
    (decodeFailureModel endpointId generation failure).key = none from h]
  exact Bool.false_ne_true

theorem insertDecodeFailure_taken {row : DecodeFailureModel}
    (h : u.decodeFailures.find (keyOf endpointId generation failure) = some row) :
    insertDecodeFailure endpointId generation u failure = .error .database := by
  unfold insertDecodeFailure
  rw [if_pos]
  unfold Table.has
  rw [show u.decodeFailures.find
    (decodeFailureModel endpointId generation failure).key = some row from h]
  rfl

/-- One record whose place is taken ends the transaction. -/
theorem insertDecodeFailures_taken (hin : failure ∈ failures)
    {row : DecodeFailureModel}
    (h : u.decodeFailures.find (keyOf endpointId generation failure) = some row) :
    failures.foldlM (insertDecodeFailure endpointId generation) u =
      .error .database := by
  induction failures generalizing u row with
  | nil => cases hin
  | cons first rest ih =>
      rw [List.foldlM_cons]
      cases hfirst : u.decodeFailures.find (keyOf endpointId generation first) with
      | some other =>
          rw [insertDecodeFailure_taken hfirst]
          rfl
      | none =>
          rw [insertDecodeFailure_free hfirst]
          rcases List.mem_cons.mp hin with rfl | hin
          · rw [h] at hfirst
            cases hfirst
          · refine ih hin (?_ : (u.decodeFailures.insertNew
              (decodeFailureModel endpointId generation first)).find _ = some row)
            rw [Table.find_insertNew, if_neg]
            · exact h
            · rintro ⟨hkey, -⟩
              have hsame : keyOf endpointId generation failure =
                keyOf endpointId generation first := hkey.symm
              rw [hsame, hfirst] at h
              cases h

/-- Records into free places, each of its own: all of them. -/
theorem insertDecodeFailures_nodup
    (hfree : ∀ f ∈ failures,
      u.decodeFailures.find (keyOf endpointId generation f) = none)
    (h : (failures.map (·.odataUri)).Nodup) :
    ∃ t, failures.foldlM (insertDecodeFailure endpointId generation) u = .ok t ∧
      t.decodeFailures.rows = u.decodeFailures.rows ++
        failures.map (decodeFailureModel endpointId generation) := by
  induction failures generalizing u with
  | nil => exact ⟨u, rfl, (List.append_nil _).symm⟩
  | cons first rest ih =>
      obtain ⟨hnew, hrest⟩ := List.nodup_cons.mp h
      have hfirst := hfree first List.mem_cons_self
      have hfree' : ∀ f ∈ rest, (u.decodeFailures.insertNew
          (decodeFailureModel endpointId generation first)).find
            (keyOf endpointId generation f) = none := by
        intro f hf
        rw [Table.find_insertNew, if_neg]
        · exact hfree f (List.mem_cons_of_mem _ hf)
        · rintro ⟨hkey, -⟩
          have heq : first.odataUri = f.odataUri := keyOf_eq_iff.mp hkey
          exact hnew (List.mem_map.mpr ⟨f, hf, heq.symm⟩)
      rw [List.foldlM_cons, insertDecodeFailure_free hfirst]
      obtain ⟨t, hfold, hrows⟩ := ih (u := { u with
        decodeFailures := u.decodeFailures.insertNew
          (decodeFailureModel endpointId generation first) }) hfree' hrest
      refine ⟨t, hfold, ?_⟩
      rw [hrows]
      dsimp only
      rw [Table.rows_insertNew hfirst, List.map_cons, List.append_assoc,
        List.singleton_append]

/-- Two under one identifier: none of them. -/
theorem insertDecodeFailures_repeated
    (h : ¬ (failures.map (·.odataUri)).Nodup) :
    failures.foldlM (insertDecodeFailure endpointId generation) u =
      .error .database := by
  induction failures generalizing u with
  | nil => exact absurd List.nodup_nil h
  | cons first rest ih =>
      rw [List.foldlM_cons]
      cases hfirst : u.decodeFailures.find (keyOf endpointId generation first) with
      | some other =>
          rw [insertDecodeFailure_taken hfirst]
          rfl
      | none =>
          rw [insertDecodeFailure_free hfirst]
          by_cases hagain : first.odataUri ∈ rest.map (·.odataUri)
          · obtain ⟨f, hf, heq⟩ := List.mem_map.mp hagain
            have hsame : keyOf endpointId generation f =
              keyOf endpointId generation first := keyOf_eq_iff.mpr heq
            have hfound : (u.decodeFailures.insertNew
                (decodeFailureModel endpointId generation first)).find
                  (keyOf endpointId generation f) =
                some (decodeFailureModel endpointId generation first) := by
              rw [hsame, Table.find_insertNew, if_pos ⟨rfl, hfirst⟩]
            exact insertDecodeFailures_taken hf hfound
          · exact ih fun hrest => h (List.nodup_cons.mpr ⟨hagain, hrest⟩)

end Insert

/-! ## Reading the records -/

section Find

variable {endpointId : EndpointId} {generation : RefreshGeneration} {t : Tables}
  {older : List DecodeFailureModel} {failures : List ResourceDecodeFailure}

theorem mapStoredFailureType_map (odataType : Option ResourceODataType) :
    mapStoredFailureType endpointId (odataType.map (·.text)) = .ok odataType := by
  cases odataType with
  | none => rfl
  | some odataType => simp [mapStoredFailureType]

/-- A record is read as it was written. -/
theorem mapStoredDecodeFailure_model (failure : ResourceDecodeFailure) :
    mapStoredDecodeFailure endpointId
      (decodeFailureModel endpointId generation failure) = .ok failure := by
  unfold mapStoredDecodeFailure decodeFailureModel
  dsimp only
  rw [ResourceFeature.fromStr_asStr, ResourceODataId.parse_text]
  dsimp only
  rw [mapStoredFailureType_map]
  show (ResourceDecodeFailure.tryNew failure.odataUri failure.odataType
    failure.feature failure.oemNamespace failure.errorSummary
    failure.extendedInfo).mapError _ = _
  rw [ResourceDecodeFailure.tryNew_self]
  rfl

/-- The records of a generation, in the order of their identifiers. -/
theorem findCurrentDecodeFailures_block
    (hblock : t.decodeFailures.rows.filter (fun row =>
      row.endpointId = endpointId ∧ row.generation = generation.get) =
        failures.map (decodeFailureModel endpointId generation)) :
    ∃ found, findCurrentDecodeFailures t endpointId generation = .ok found ∧
      found.Perm failures := by
  let byName : ResourceDecodeFailure → ResourceDecodeFailure → Bool :=
    fun a b => a.odataUri.text ≤ b.odataUri.text
  have hsorted : (failures.map (decodeFailureModel endpointId generation)).mergeSort
      byUri = (failures.mergeSort byName).map
        (decodeFailureModel endpointId generation) :=
    (List.map_mergeSort (r := byName) (s := byUri) fun _ _ _ _ => rfl).symm
  refine ⟨failures.mergeSort byName, ?_, List.mergeSort_perm _ _⟩
  unfold findCurrentDecodeFailures
  rw [hblock, hsorted]
  have hread := mapM_map_ok_iff (l := failures.mergeSort byName)
    (f := mapStoredDecodeFailure endpointId)
    (g := decodeFailureModel endpointId generation) (d := id)
  rw [List.map_id] at hread
  exact hread.mpr fun failure _ => mapStoredDecodeFailure_model failure

/-- The rows of a generation that no other row has. -/
theorem block_of_rows
    (hrows : t.decodeFailures.rows =
      older ++ failures.map (decodeFailureModel endpointId generation))
    (holder : ∀ row ∈ older,
      ¬ (row.endpointId = endpointId ∧ row.generation = generation.get)) :
    t.decodeFailures.rows.filter (fun row =>
      row.endpointId = endpointId ∧ row.generation = generation.get) =
        failures.map (decodeFailureModel endpointId generation) := by
  have hnew : ∀ row ∈ failures.map (decodeFailureModel endpointId generation),
      decide (row.endpointId = endpointId ∧ row.generation = generation.get) =
        true := by
    intro row hrow
    obtain ⟨failure, -, rfl⟩ := List.mem_map.mp hrow
    exact decide_eq_true ⟨rfl, rfl⟩
  rw [hrows, List.filter_append, List.filter_eq_nil_iff.mpr fun row hrow h =>
    holder row hrow (of_decide_eq_true h), List.nil_append,
    List.filter_eq_self.mpr hnew]

end Find

/-! ## Commits with records -/

/-- What a commit without records comes to decides, with the records, what the
commit with them comes to. -/
theorem commit_records {t u : Tables} {endpointId : EndpointId}
    {observations : List (NewResourceSnapshot canonicalize)}
    {observedAt : Instant} {fresh : Nat → ResourceId}
    {snapshots : List (ResourceSnapshot canonicalize)}
    (h : commitResourceGeneration t endpointId observations [] observedAt fresh =
      .ok (snapshots, u)) :
    ∃ generation, nextGeneration t endpointId = .ok generation ∧
      ∀ failures, commitResourceGeneration t endpointId observations failures
        observedAt fresh =
          (failures.foldlM (insertDecodeFailure endpointId generation) u).map
            (snapshots, ·) := by
  unfold commitResourceGeneration at h
  obtain ⟨⟨⟩, hvalid, h⟩ := bind_ok h
  split at h
  · cases h
  · next endpoint hendpoint =>
      split at h
      · cases h
      · next htime =>
          obtain ⟨generation, hgeneration, h⟩ := bind_ok h
          obtain ⟨⟨⟩, hstable, h⟩ := bind_ok h
          obtain ⟨⟨answers, v⟩, hloop, h⟩ := bind_ok h
          obtain ⟨w, hnone, h⟩ := bind_ok h
          cases hnone
          cases h
          refine ⟨generation, hgeneration, fun failures => ?_⟩
          unfold commitResourceGeneration
          simp only [hvalid, hendpoint, if_neg htime, hgeneration, hstable, hloop,
            bind, Except.bind]
          cases failures.foldlM (insertDecodeFailure endpointId generation) u with
          | error e => rfl
          | ok t' => rfl

/-- No record has a number that its endpoint has not reached. -/
def Numbered (s : State canonicalize) : Prop :=
  ∀ row ∈ s.tables.decodeFailures.rows,
    row.generation ≤ (s.commitsOf row.endpointId).length

/-- A commit that lands appends a row for each record. -/
theorem insertDecodeFailures_rows {endpointId : EndpointId}
    {generation : RefreshGeneration} {failures : List ResourceDecodeFailure}
    {u t : Tables}
    (h : failures.foldlM (insertDecodeFailure endpointId generation) u =
      .ok t) :
    t.decodeFailures.rows = u.decodeFailures.rows ++
      failures.map (decodeFailureModel endpointId generation) := by
  induction failures generalizing u with
  | nil =>
      cases h
      exact (List.append_nil _).symm
  | cons first rest ih =>
      rw [List.foldlM_cons] at h
      obtain ⟨v, hv, h⟩ := bind_ok h
      cases hfirst : u.decodeFailures.find (keyOf endpointId generation first) with
      | some other =>
          rw [insertDecodeFailure_taken hfirst] at hv
          cases hv
      | none =>
          rw [insertDecodeFailure_free hfirst] at hv
          cases hv
          rw [ih h]
          dsimp only
          rw [Table.rows_insertNew hfirst, List.map_cons, List.append_assoc,
            List.singleton_append]

theorem insertDecodeFailures_mem {endpointId : EndpointId}
    {generation : RefreshGeneration} {failures : List ResourceDecodeFailure}
    {u t : Tables} {row : DecodeFailureModel}
    (h : failures.foldlM (insertDecodeFailure endpointId generation) u = .ok t)
    (hrow : row ∈ t.decodeFailures.rows) :
    row ∈ u.decodeFailures.rows ∨
      row.endpointId = endpointId ∧ row.generation = generation.get := by
  rw [insertDecodeFailures_rows h] at hrow
  refine (List.mem_append.mp hrow).imp_right fun hnew => ?_
  obtain ⟨failure, -, rfl⟩ := List.mem_map.mp hnew
  exact ⟨rfl, rfl⟩

theorem Numbered.step {s t : State canonicalize} {l : Label canonicalize}
    (hinv : Inv s) (h : Numbered s) (hstep : next s l = some t) : Numbered t := by
  rcases next_cases hstep with ⟨e, -, rfl⟩ | ⟨snapshots, t', hcommit, -, rfl⟩
  · exact h
  · obtain ⟨endpoint, generation, placed, u, hc⟩ := commit_ok hinv.sound hcommit
    intro row hrow
    rw [commitsOf_concat, List.length_append]
    dsimp only
    rcases insertDecodeFailures_mem hc.failures hrow with hold | ⟨hendpoint, hnumber⟩
    · rw [hc.looped.added.decodeFailures] at hold
      exact Nat.le_add_right_of_le (h row hold)
    · rw [hendpoint, if_pos rfl, hnumber, hinv.generation_next hc]
      exact Nat.le_refl _

theorem reachable_numbered {s : State canonicalize} (h : Reachable s) :
    Numbered s := by
  have hboth := h.inv (P := fun s => Inv s ∧ Numbered s)
    (fun s hs => ⟨Inv.initial hs, fun row hrow => by
      rw [hs.2.2.1] at hrow
      cases hrow⟩)
    fun s t hinv hstep => ⟨hinv.1.step hstep.choose_spec,
      hinv.2.step hinv.1 hstep.choose_spec⟩
  exact hboth.2

/-- What a commit without records tells about its generation. -/
theorem commit_numbered {s : State canonicalize} {u : Tables}
    {endpointId : EndpointId} {observations : List (NewResourceSnapshot canonicalize)}
    {observedAt : Instant} {fresh : Nat → ResourceId}
    {snapshots : List (ResourceSnapshot canonicalize)} (hs : Reachable s)
    (h : commitResourceGeneration s.tables endpointId observations [] observedAt
      fresh = .ok (snapshots, u)) {generation : RefreshGeneration}
    (hgeneration : nextGeneration s.tables endpointId = .ok generation) :
    snapshots ≠ [] ∧ (∀ x ∈ snapshots, x.generation = generation) ∧
      ∀ row ∈ u.decodeFailures.rows,
        ¬ (row.endpointId = endpointId ∧ row.generation = generation.get) := by
  have hinv := reachable_inv hs
  obtain ⟨endpoint, found, placed, v, hc⟩ := commit_ok hinv.sound h
  have hsame := hc.numbered
  rw [hgeneration] at hsame
  cases hsame
  have hu : v = u := Except.ok.inj hc.failures
  have hanswer : ∀ x, x ∈ snapshots ↔
      x ∈ placed.map (answerOf endpointId generation observedAt) := by
    intro x
    rw [hc.answer]
    exact List.mem_mergeSort
  refine ⟨?_, fun x hx => ?_, fun row hrow hrow' => ?_⟩
  · obtain ⟨q, hq⟩ := List.exists_mem_of_ne_nil _ (placed_ne hc)
    exact List.ne_nil_of_mem ((hanswer _).mpr (List.mem_map_of_mem hq))
  · obtain ⟨q, -, rfl⟩ := List.mem_map.mp ((hanswer x).mp hx)
    rfl
  · rw [← hu, hc.looped.added.decodeFailures] at hrow
    have hle := reachable_numbered hs row hrow
    rw [hrow'.1, hrow'.2, hinv.generation_next hc] at hle
    omega

theorem root_valid : validateExactText "/redfish/v1" maxODataIdBytes = .ok () := by
  decide

theorem empty_parsed :
    ∃ value, canonicalPayload emptyObject value = .ok "\x7b\x7d" :=
  ⟨"\x7b\x7d", by decide⟩

def rootDocument : Document emptyObject :=
  ⟨"/redfish/v1", .ok ⟨.serviceRoot, ⟨"/redfish/v1", root_valid⟩, none,
    ⟨"\x7b\x7d", empty_parsed⟩⟩⟩

/-- The segment under `Oem.Supermicro` cannot be decoded; all else is absent. -/
def supermicroManager : Manager emptyObject where
  odataId := "/redfish/v1/Managers/1"
  projection := .ok ⟨.managers, ⟨"/redfish/v1/Managers/1", by decide⟩, none,
    ⟨"\x7b\x7d", empty_parsed⟩⟩
  id := "1"
  ethernetInterfaces := none
  logServices := none
  networkProtocol := none
  hostInterfaces := none
  dell := none
  supermicro := .undecodable
  nvidia := none
  lenovo := .absent
  advertisesAmi := false
  configBmc := none
  hpe := .absent

def supermicroRoot : ServiceRoot emptyObject where
  toDocument := rootDocument
  ami := .absent
  hpe := .absent
  systems := none
  chassis := none
  managers := some ⟨"/redfish/v1/Managers",
    .ok ⟨[⟨"/redfish/v1/Managers/1", .ok supermicroManager⟩]⟩⟩
  accountService := none
  updateService := none
  eventService := none
  telemetryService := none
  tasks := none
  powerEquipment := none

/-- The observations alone are committed, with the records they are not. -/
def recordsRefused (root : ServiceRoot emptyObject) : Bool :=
  match readAuthenticatedCoreResources root with
  | .error _ => false
  | .ok outcome =>
    match commitResourceGeneration enrolled.tables someEndpoint
        outcome.observations [] 1 fun n => ⟨n⟩,
      commitResourceGeneration enrolled.tables someEndpoint
        outcome.observations outcome.records 1 fun n => ⟨n⟩ with
    | .ok _, .error _ => true
    | _, _ => false

end Rutilus.Proofs.DecodeFailures
