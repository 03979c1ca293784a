import Rutilus.Proofs.ResourceGenerations

/-!
# Reading a payload again

A payload is bounded when it comes in, by the text it comes as. What is stored is the
text the parsed value is printed as, and the bound is on that text when it is read
again. A number may be printed longer than it was written, so a text just below the
bound may be stored as one above it. The value itself is read back as it was printed.
-/

namespace Rutilus.Proofs.PayloadTexts

open Rutilus.Domain hiding ResourceFeature
open Rutilus.Domain.Resource Rutilus.Store.Resources

/-! ## The JSON library -/

/-- The library that parses and prints JSON values. -/
structure SerdeJson where
  Value : Type
  fromStr : String → Option Value
  isObject : Value → Bool
  toString : Value → String

namespace SerdeJson

variable (json : SerdeJson)

/-- What is printed is read back as the value it was printed from. -/
def ReadsBack : Prop :=
  ∀ text value, json.fromStr text = some value →
    json.fromStr (json.toString value) = some value

/-- Parse a text and print the object it holds. -/
def canonicalize : Canonicalize := fun text =>
  match json.fromStr text with
  | none => .error .invalidJson
  | some value =>
    if !json.isObject value then .error .notObject
    else .ok (json.toString value)

/-- The text is that of an object and within the bound, and the object is printed as a
text that is not. -/
def Grows (text : String) : Prop :=
  text.utf8ByteSize ≤ maxTypedPayloadBytes ∧
    ∃ value, json.fromStr text = some value ∧ json.isObject value = true ∧
      maxTypedPayloadBytes < (json.toString value).utf8ByteSize

variable {json}

theorem canonicalize_ok_iff {text printed : String} :
    json.canonicalize text = .ok printed ↔
      ∃ value, json.fromStr text = some value ∧ json.isObject value = true ∧
        json.toString value = printed := by
  unfold canonicalize
  cases hread : json.fromStr text with
  | none => simp
  | some value =>
      cases hobject : json.isObject value with
      | false => simp [hobject]
      | true => simp [hobject]

/-- A printed object is printed as it is. -/
theorem ReadsBack.canonicalize (h : json.ReadsBack) {text printed : String}
    (hprinted : json.canonicalize text = .ok printed) :
    json.canonicalize printed = .ok printed := by
  obtain ⟨value, hread, hobject, rfl⟩ := canonicalize_ok_iff.mp hprinted
  exact canonicalize_ok_iff.mpr ⟨value, h text value hread, hobject, rfl⟩

end SerdeJson

/-! ## Payloads -/

section Payloads

variable {canonicalize : Canonicalize}

theorem canonicalPayload_ok_iff {text printed : String} :
    canonicalPayload canonicalize text = .ok printed ↔
      text.utf8ByteSize ≤ maxTypedPayloadBytes ∧ canonicalize text = .ok printed := by
  unfold canonicalPayload
  by_cases hlarge : maxTypedPayloadBytes < text.utf8ByteSize
  · rw [if_pos hlarge]
    exact ⟨nofun, fun h => absurd h.1 (Nat.not_le.mpr hlarge)⟩
  · rw [if_neg hlarge]
    cases hcanonical : canonicalize text with
    | error e => simp [Except.mapError]
    | ok found => simp [Except.mapError, Nat.not_lt.mp hlarge]

theorem parse_ok_iff {text : String} {payload : ResourceSnapshotPayload canonicalize} :
    ResourceSnapshotPayload.parse canonicalize text = .ok payload ↔
      canonicalPayload canonicalize text = .ok payload.text := by
  unfold ResourceSnapshotPayload.parse
  split
  · next e h =>
      rw [h]
      exact ⟨nofun, nofun⟩
  · next printed h =>
      constructor
      · intro heq
        cases heq
        exact h
      · intro heq
        rw [h] at heq
        cases heq
        rfl

end Payloads

variable {json : SerdeJson} {text : String}

/-- A payload is read back from its text where the text is within the bound. -/
theorem reread_payload_iff (h : json.ReadsBack)
    {payload : ResourceSnapshotPayload json.canonicalize}
    (hpayload : ResourceSnapshotPayload.parse json.canonicalize text =
      .ok payload) :
    ResourceSnapshotPayload.parse json.canonicalize payload.text = .ok payload ↔
      payload.text.utf8ByteSize ≤ maxTypedPayloadBytes := by
  have hcanonical := h.canonicalize
    (canonicalPayload_ok_iff.mp (parse_ok_iff.mp hpayload)).2
  rw [parse_ok_iff, canonicalPayload_ok_iff]
  exact and_iff_left hcanonical

/-- Where a text grows, the payload it is parsed to has the longer one. -/
theorem grows_iff :
    json.Grows text ↔
      ∃ payload, ResourceSnapshotPayload.parse json.canonicalize text = .ok payload ∧
        maxTypedPayloadBytes < payload.text.utf8ByteSize := by
  constructor
  · rintro ⟨hsize, value, hread, hobject, hgrown⟩
    have hparsed : canonicalPayload json.canonicalize text =
        .ok (json.toString value) :=
      canonicalPayload_ok_iff.mpr
        ⟨hsize, SerdeJson.canonicalize_ok_iff.mpr ⟨value, hread, hobject, rfl⟩⟩
    exact ⟨⟨_, text, hparsed⟩, parse_ok_iff.mpr hparsed, hgrown⟩
  · rintro ⟨payload, hpayload, hgrown⟩
    obtain ⟨hsize, hcanonical⟩ :=
      canonicalPayload_ok_iff.mp (parse_ok_iff.mp hpayload)
    obtain ⟨value, hread, hobject, hprinted⟩ :=
      SerdeJson.canonicalize_ok_iff.mp hcanonical
    exact ⟨hsize, value, hread, hobject, hprinted ▸ hgrown⟩

/-- Every payload that is parsed from the text is read back. -/
def Rereads (json : SerdeJson) (text : String) : Prop :=
  ∀ payload, ResourceSnapshotPayload.parse json.canonicalize text = .ok payload →
    ResourceSnapshotPayload.parse json.canonicalize payload.text = .ok payload

/-- No stored snapshot with a payload parsed from the text is corrupt by its payload. -/
def Loads (json : SerdeJson) (text : String) : Prop :=
  ∀ payload, ResourceSnapshotPayload.parse json.canonicalize text = .ok payload →
    ∀ (endpointId : EndpointId) (endpointCreatedAt : Instant)
      (generation : RefreshGeneration) (resource : ResourceModel)
      (snapshot : SnapshotModel), snapshot.typedPayloadJson = payload.text →
        ∀ e, mapStoredSnapshot json.canonicalize endpointId endpointCreatedAt
            generation resource snapshot ≠
          .error (.corrupt endpointId (.invalidPayload e))

theorem rereads_iff (h : json.ReadsBack) : Rereads json text ↔ ¬ json.Grows text := by
  rw [grows_iff]
  constructor
  · rintro hall ⟨payload, hpayload, hgrown⟩
    have hsmall := (reread_payload_iff h hpayload).mp (hall payload hpayload)
    exact absurd hsmall (Nat.not_le.mpr hgrown)
  · intro hsmall payload hpayload
    refine (reread_payload_iff h hpayload).mpr (Nat.not_lt.mp fun hgrown => ?_)
    exact hsmall ⟨payload, hpayload, hgrown⟩

section Stored

variable {canonicalize : Canonicalize} {endpointId : EndpointId}

theorem mapStoredType_payload {odataType : Option String}
    {e : ResourceSnapshotPayloadError} :
    mapStoredType endpointId odataType ≠
      .error (.corrupt endpointId (.invalidPayload e)) := by
  unfold mapStoredType
  cases odataType with
  | none => exact nofun
  | some value =>
      dsimp only
      cases ResourceODataType.parse value with
      | error e => exact nofun
      | ok odataType => exact nofun

theorem mapStoredEtag_payload {etag : Option String}
    {e : ResourceSnapshotPayloadError} :
    mapStoredEtag endpointId etag ≠
      .error (.corrupt endpointId (.invalidPayload e)) := by
  unfold mapStoredEtag
  cases etag with
  | none => exact nofun
  | some value =>
      dsimp only
      cases ResourceEtag.parse value with
      | error e => exact nofun
      | ok etag => exact nofun

/-- Only a payload that does not parse is refused as one. -/
theorem invalidPayload_of_stored {endpointCreatedAt : Instant}
    {generation : RefreshGeneration} {resource : ResourceModel}
    {snapshot : SnapshotModel} {e : ResourceSnapshotPayloadError}
    (h : mapStoredSnapshot canonicalize endpointId endpointCreatedAt generation
      resource snapshot = .error (.corrupt endpointId (.invalidPayload e))) :
    ResourceSnapshotPayload.parse canonicalize snapshot.typedPayloadJson =
      .error e := by
  unfold mapStoredSnapshot at h
  split at h
  · cases h
  split at h
  · cases h
  split at h
  · cases h
  split at h
  · cases h
  split at h
  · next hparse =>
      cases h
      exact hparse
  · cases htype : mapStoredType endpointId snapshot.odataType with
    | error e' =>
        rw [htype] at h
        cases h
        exact absurd htype mapStoredType_payload
    | ok odataType =>
        cases hetag : mapStoredEtag endpointId snapshot.etag with
        | error e' =>
            rw [htype, hetag] at h
            cases h
            exact absurd hetag mapStoredEtag_payload
        | ok etag =>
            rw [htype, hetag] at h
            cases h

/-- The stored Service Root of an endpoint, with a payload that does not parse. -/
theorem stored_invalidPayload {payload : String} {e : ResourceSnapshotPayloadError}
    (h : ResourceSnapshotPayload.parse canonicalize payload = .error e) :
    mapStoredSnapshot canonicalize endpointId 0 ⟨1, by decide, by decide⟩
        ⟨⟨0⟩, endpointId, "/redfish/v1", "service-root", 0⟩
        ⟨⟨0⟩, 1, none, none, payload, 0⟩ =
      .error (.corrupt endpointId (.invalidPayload e)) := by
  have hfeature : ResourceFeature.fromStr "service-root" = some .serviceRoot :=
    ResourceFeature.fromStr_asStr .serviceRoot
  have hid : ResourceODataId.parse "/redfish/v1" = .ok ⟨"/redfish/v1", by decide⟩ :=
    ResourceODataId.parse_text ⟨"/redfish/v1", by decide⟩
  unfold mapStoredSnapshot
  rw [if_neg (Int.lt_irrefl 0), if_neg (Int.lt_irrefl 0)]
  dsimp only
  rw [hfeature, hid]
  dsimp only
  rw [h]

end Stored

theorem loads_iff (h : json.ReadsBack) : Loads json text ↔ ¬ json.Grows text := by
  constructor
  · intro hall hgrows
    obtain ⟨payload, hpayload, hgrown⟩ := grows_iff.mp hgrows
    have hlarge : ResourceSnapshotPayload.parse json.canonicalize payload.text ≠
        .ok payload := fun hsame =>
      absurd ((reread_payload_iff h hpayload).mp hsame) (Nat.not_le.mpr hgrown)
    cases hparse : ResourceSnapshotPayload.parse json.canonicalize payload.text with
    | error e =>
        exact hall payload hpayload ⟨0⟩ _ _ _ _ rfl e (stored_invalidPayload hparse)
    | ok again =>
        have hsize := (canonicalPayload_ok_iff.mp (parse_ok_iff.mp hparse)).1
        exact absurd hsize (Nat.not_le.mpr hgrown)
  · intro hsmall payload hpayload endpointId created generation resource snapshot
      htext e hrefused
    have hparse := invalidPayload_of_stored hrefused
    rw [htext, (rereads_iff h).mpr hsmall payload hpayload] at hparse
    cases hparse

/-- A payload is read back from its text, and the row that holds it is not corrupt by
it, exactly unless the text it was parsed from grows over the bound. -/
theorem payload_closed_iff (json : SerdeJson) (h : json.ReadsBack) (text : String) :
    (Rereads json text ↔ ¬ json.Grows text) ∧
      (Loads json text ↔ ¬ json.Grows text) :=
  ⟨rereads_iff h, loads_iff h⟩

/-! ## A text that grows -/

/-- The library at one value, written in one way and printed in another. -/
def oneValue (written printed : String) : SerdeJson where
  Value := Unit
  fromStr text := if text = written ∨ text = printed then some () else none
  isObject _ := true
  toString _ := printed

theorem oneValue_readsBack (written printed : String) :
    (oneValue written printed).ReadsBack :=
  fun _ _ _ => if_pos (.inr rfl)

theorem oneValue_grows {written printed : String}
    (hsize : written.utf8ByteSize ≤ maxTypedPayloadBytes)
    (hgrown : maxTypedPayloadBytes < printed.utf8ByteSize) :
    (oneValue written printed).Grows written :=
  ⟨hsize, (), if_pos (.inl rfl), rfl, hgrown⟩

/-- An object with a number is stored without its blanks, and can be read. -/
theorem small_payload_closed :
    Rereads (oneValue "\x7b\"a\": 1e5\x7d" "\x7b\"a\":100000.0\x7d")
        "\x7b\"a\": 1e5\x7d" ∧
      Loads (oneValue "\x7b\"a\": 1e5\x7d" "\x7b\"a\":100000.0\x7d")
        "\x7b\"a\": 1e5\x7d" := by
  have hclosed := payload_closed_iff
    (oneValue "\x7b\"a\": 1e5\x7d" "\x7b\"a\":100000.0\x7d")
    (oneValue_readsBack _ _) "\x7b\"a\": 1e5\x7d"
  have hsmall : ¬ (oneValue "\x7b\"a\": 1e5\x7d"
      "\x7b\"a\":100000.0\x7d").Grows "\x7b\"a\": 1e5\x7d" := by
    rintro ⟨-, value, -, -, hgrown⟩
    have hsize : ¬ maxTypedPayloadBytes < "\x7b\"a\":100000.0\x7d".utf8ByteSize := by
      decide
    exact hsize hgrown
  exact ⟨hclosed.1.mpr hsmall, hclosed.2.mpr hsmall⟩

/-- An object with a long text and a number. -/
def longObject (number : String) : String :=
  "\x7b\"a\":\"" ++ String.ofList (List.replicate 4194288 'x') ++ "\",\"b\":" ++
    number ++ "\x7d"

theorem utf8ByteSize_replicate (n : Nat) :
    (String.ofList (List.replicate n 'x')).utf8ByteSize = n := by
  induction n with
  | zero => rfl
  | succ n ih =>
      rw [List.replicate_succ, String.ofList_cons, String.utf8ByteSize_append, ih,
        String.utf8ByteSize_singleton, Nat.add_comm]
      rfl

theorem utf8ByteSize_longObject (number : String) :
    (longObject number).utf8ByteSize = 4194301 + number.utf8ByteSize := by
  have hopen : "\x7b\"a\":\"".utf8ByteSize = 6 := by decide
  have hmiddle : "\",\"b\":".utf8ByteSize = 6 := by decide
  have hclose : "\x7d".utf8ByteSize = 1 := by decide
  unfold longObject
  rw [String.utf8ByteSize_append, String.utf8ByteSize_append,
    String.utf8ByteSize_append, String.utf8ByteSize_append, utf8ByteSize_replicate,
    hopen, hmiddle, hclose]
  omega

/-- An object of exactly four MiB whose number is printed five bytes longer. -/
theorem long_payload_not_reread :
    ¬ Rereads (oneValue (longObject "1e5") (longObject "100000.0"))
      (longObject "1e5") := by
  have hwritten : "1e5".utf8ByteSize = 3 := by decide
  have hprinted : "100000.0".utf8ByteSize = 8 := by decide
  have hgrows : (oneValue (longObject "1e5") (longObject "100000.0")).Grows
      (longObject "1e5") := by
    apply oneValue_grows
    · rw [utf8ByteSize_longObject, hwritten]
      decide
    · rw [utf8ByteSize_longObject, hprinted]
      decide
  exact fun hall => (rereads_iff (oneValue_readsBack _ _)).mp hall hgrows

end Rutilus.Proofs.PayloadTexts
