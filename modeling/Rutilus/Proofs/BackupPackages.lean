import Rutilus.Lib.Outcome
import Rutilus.Security.BackupPackage

/-!
# What a backup package gives back

The reader cuts a package at the places where the writer put its parts together, and
asks of the parts what the writer has made sure of. Of every other byte string it
answers an error; a package with another byte in its header, manifest or ciphertext was
never encrypted, so it is not decrypted either.
-/

namespace Rutilus.Proofs.BackupPackages

open Rutilus.Domain (Bytes)
open Rutilus.Lib Rutilus.Security.BackupPackage

variable {κ ρ : Type} {cipher : Cipher} {json : Json κ} {hexSha256 : Bytes → String}
  {text nonce ciphertext plaintext package payload : Bytes} {manifest : BackupManifest}
  {backup : DecryptedBackup}

/-- What is written is read back, and what follows it is refused or blank. -/
structure Lawful (json : Json κ) : Prop where
  readsBack : ∀ manifest text, json.toVec manifest = .ok text →
    json.fromSlice text = .ok manifest
  endsThere : ∀ manifest manifest' text more, json.toVec manifest = .ok text →
    json.fromSlice (text ++ more) = .ok manifest' → manifest' = manifest

/-- The cipher decrypts exactly what was encrypted with it. A nonce is used once, and
associated data that begins like a package is that of a package. -/
structure Ideal (cipher : Cipher) (json : Json κ) : Prop where
  exact : ∀ nonce associatedData message ciphertext,
    cipher.decrypt nonce associatedData ciphertext = some message ↔
      cipher.encrypt nonce associatedData message = some ciphertext
  length : ∀ nonce associatedData message ciphertext,
    cipher.encrypt nonce associatedData message = some ciphertext →
      ciphertext.length = message.length + authenticationTagLength
  once : ∀ nonce associatedData associatedData' message message' ciphertext ciphertext',
    cipher.encrypt nonce associatedData message = some ciphertext →
    cipher.encrypt nonce associatedData' message' = some ciphertext' →
      associatedData' = associatedData ∧ message' = message
  framed : ∀ nonce rest message ciphertext,
    cipher.encrypt nonce (backupPackageMagic ++ rest) message = some ciphertext →
      ∃ manifest text, json.toVec manifest = .ok text ∧
        (framedHeaderAndManifest text : Except (BackupPackageError Unit Unit) Bytes) =
          .ok (backupPackageMagic ++ rest)

/-! ### Framing -/

/-- The length field of a manifest. -/
def lengthField (n : Nat) : Bytes := (toBigEndian manifestLengthBytes n).reverse

/-- The header before a manifest of a length, and the manifest. -/
def framedBytes (text : Bytes) : Bytes :=
  backupPackageMagic ++ [backupPackageFormatVersion] ++ lengthField text.length ++ text

theorem maxManifestLength_lt : maxManifestLength < 256 ^ manifestLengthBytes := by
  decide

@[simp]
theorem length_lengthField {n : Nat} :
    (lengthField n).length = manifestLengthBytes := by
  rw [lengthField, List.length_reverse, length_toBigEndian]

theorem length_framedBytes :
    (framedBytes text).length = headerLength + text.length := by
  unfold framedBytes
  rw [List.length_append, List.length_append, List.length_append, length_lengthField]
  rfl

theorem framedHeaderAndManifest_ok {associatedData : Bytes}
    (h : (framedHeaderAndManifest text : Except (BackupPackageError κ ρ) Bytes) =
      .ok associatedData) : associatedData = framedBytes text := by
  unfold framedHeaderAndManifest at h
  split at h
  · cases h
    rfl
  · cases h

theorem framedHeaderAndManifest_eq (h : text.length ≤ maxManifestLength) :
    (framedHeaderAndManifest text : Except (BackupPackageError κ ρ) Bytes) =
      .ok (framedBytes text) :=
  if_pos (Nat.lt_of_le_of_lt h maxManifestLength_lt)

theorem within_ok {α : Type} {x : Option α} {a : α}
    (h : (within x : Except (Failure κ ρ) α) = .ok a) : x = some a := by
  cases x with
  | none => cases h
  | some b =>
      cases h
      rfl

/-! ### Sums of lengths -/

theorem foldLengths_ok {lengths : List Nat} {n total : Nat}
    (h : foldLengths n lengths = .ok total) : total = n + lengths.sum := by
  induction lengths generalizing n with
  | nil =>
      cases h
      rfl
  | cons length lengths ih =>
      rw [foldLengths] at h
      split at h
      · rw [ih h, List.sum_cons, Nat.add_assoc]
      · cases h

theorem length_flatten_contents (entries : List BackupEntry) :
    (entries.map (·.content)).flatten.length =
      (entries.map (·.content.length)).sum := by
  rw [List.length_flatten, List.map_map]
  rfl

/-! ### Creating -/

/-- The manifest that lists the entries. -/
def manifestOf (hexSha256 : Bytes → String) (productVersion : String)
    (schemaVersion : UInt32) (entries : List BackupEntry) : BackupManifest where
  productVersion := productVersion
  schemaVersion := schemaVersion
  entries := entries.map (·.line hexSha256)

/-- What a package that was created is made of. -/
theorem createBackupPackage_ok {productVersion : String} {schemaVersion : UInt32}
    {entries : List BackupEntry} {randomness : Except ρ Nonce}
    (h : createBackupPackage cipher json hexSha256 productVersion schemaVersion entries
      randomness = .ok package) :
    ∃ text nonce ciphertext total, entries.length ≤ maxEntries ∧
      (ensureUniqueNames entries : Except (BackupPackageError κ ρ) Unit) = .ok () ∧
      json.toVec (manifestOf hexSha256 productVersion schemaVersion entries) =
        .ok text ∧
      text.length ≤ maxManifestLength ∧
      foldLengths 0 (entries.map (·.content.length)) = .ok total ∧
      randomness = .ok nonce ∧
      cipher.encrypt nonce.bytes (framedBytes text) (entries.map (·.content)).flatten =
        some ciphertext ∧
      package = framedBytes text ++ nonce.bytes ++ ciphertext := by
  unfold createBackupPackage at h
  split at h
  · cases h
  · split at h
    · cases h
    · next hcount =>
        obtain ⟨u, hunique, h⟩ := bind_ok h
        obtain ⟨text, htext, h⟩ := bind_ok h
        split at h
        · cases h
        · next hlength =>
            obtain ⟨total, htotal, h⟩ := bind_ok h
            obtain ⟨nonce, hnonce, h⟩ := bind_ok h
            obtain ⟨associatedData, hdata, h⟩ := bind_ok h
            obtain rfl := framedHeaderAndManifest_ok hdata
            split at h
            · cases h
            · next ciphertext hencrypt =>
                cases h
                exact ⟨text, nonce, ciphertext, total, Nat.not_lt.mp hcount, hunique,
                  mapError_ok htext, Nat.not_lt.mp hlength, mapError_ok htotal,
                  mapError_ok hnonce, hencrypt, rfl⟩

/-! ### Opening -/

theorem prefix_of_slice {front : Bytes} (h : front.isPrefixOf package = true) :
    slice package 0 front.length = some front := by
  obtain ⟨back, rfl⟩ := List.isPrefixOf_iff_prefix.mp h
  exact slice_eq_some_iff.mpr
    ⟨Nat.zero_le _, by rw [List.length_append]; omega, by rw [List.take_left' rfl]; rfl⟩

theorem slice_one {α : Type} {l : List α} {i : Nat} {a : α} (h : l[i]? = some a) :
    slice l i (i + 1) = some [a] := by
  obtain ⟨hi, rfl⟩ := List.getElem?_eq_some_iff.mp h
  refine slice_eq_some_iff.mpr ⟨Nat.le_succ i, hi, ?_⟩
  rw [List.take_succ_eq_append_getElem hi,
    List.drop_left' (by rw [List.length_take]; omega)]

/-- The length field is written back from what is read of it. -/
theorem readManifestLength_ok {n : Nat}
    (h : (readManifestLength package : Except (Failure κ ρ) Nat) = .ok n) :
    n ≤ maxManifestLength ∧
      slice package (backupPackageMagic.length + formatVersionBytes) headerLength =
        some (lengthField n) := by
  obtain ⟨bytes, hbytes, h⟩ := bind_ok h
  have hslice := within_ok hbytes
  dsimp only at h
  split at h
  · cases h
  · next hmax =>
      cases h
      refine ⟨Nat.not_lt.mp hmax, ?_⟩
      have hlength : bytes.reverse.length = manifestLengthBytes := by
        rw [List.length_reverse, length_of_slice hslice]
        rfl
      rw [hslice, lengthField, ← hlength, toBigEndian_bigEndian, List.reverse_reverse]

/-- What a package that was opened is made of. -/
theorem openBackupPackage_ok
    (h : (openBackupPackage cipher json hexSha256 package :
      Except (Failure κ ρ) DecryptedBackup) = .ok backup) :
    ∃ text nonce ciphertext plaintext,
      package = framedBytes text ++ nonce ++ ciphertext ∧
      text.length ≤ maxManifestLength ∧ nonce.length = nonceLength ∧
      cipher.decrypt nonce (framedBytes text) ciphertext = some plaintext := by
  unfold openBackupPackage at h
  split at h
  · cases h
  · split at h
    · cases h
    · next hmagic =>
        obtain ⟨version, hversion, h⟩ := bind_ok h
        split at h
        · cases h
        · next hformat =>
            obtain ⟨n, hn, h⟩ := bind_ok h
            dsimp only at h
            split at h
            · cases h
            · obtain ⟨text, htext, h⟩ := bind_ok h
              obtain ⟨manifest, -, h⟩ := bind_ok h
              split at h
              · cases h
              · obtain ⟨u, -, h⟩ := bind_ok h
                obtain ⟨u', -, h⟩ := bind_ok h
                obtain ⟨nonce, hnonce, h⟩ := bind_ok h
                obtain ⟨ciphertext, hciphertext, h⟩ := bind_ok h
                obtain ⟨associatedData, hdata, h⟩ := bind_ok h
                split at h
                · cases h
                · next plaintext hdecrypt =>
                    rw [Bool.not_eq_false] at hmagic
                    have hone := slice_one (within_ok hversion)
                    obtain ⟨hmax, hfield⟩ := readManifestLength_ok hn
                    have hlength : text.length = n := by
                      rw [length_of_slice (within_ok htext)]
                      omega
                    have hhead := slice_trans (slice_trans (slice_trans
                      (prefix_of_slice hmagic) hone) hfield) (within_ok htext)
                    have hframed : associatedData = framedBytes text := by
                      rw [within_ok hdata, Option.some.injEq] at hhead
                      rw [hhead, framedBytes, hlength, not_ne_iff.mp hformat]
                    have hwhole := slice_trans (slice_trans (within_ok hdata)
                      (within_ok hnonce)) (within_ok hciphertext)
                    rw [slice_whole, Option.some.injEq, hframed] at hwhole
                    rw [hframed] at hdecrypt
                    refine ⟨text, nonce, ciphertext, plaintext, hwhole, ?_, ?_,
                      hdecrypt⟩
                    · rw [hlength]
                      exact hmax
                    · rw [length_of_slice (within_ok hnonce)]
                      omega

theorem length_framed :
    (framedBytes text ++ nonce ++ ciphertext).length =
      headerLength + text.length + nonce.length + ciphertext.length := by
  rw [List.length_append, List.length_append, length_framedBytes]

/-! Where the parts of a package stand. -/

theorem lengthField_at : slice (framedBytes text ++ nonce ++ ciphertext)
    (backupPackageMagic.length + formatVersionBytes) headerLength =
    some (lengthField text.length) := by
  refine slice_of_append (backupPackageMagic ++ [backupPackageFormatVersion])
    (text ++ nonce ++ ciphertext) ?_ rfl ?_
  · simp only [framedBytes, List.append_assoc]
  · rw [length_lengthField]
    rfl

theorem manifest_at : slice (framedBytes text ++ nonce ++ ciphertext) headerLength
    (headerLength + text.length) = some text := by
  refine slice_of_append (backupPackageMagic ++ [backupPackageFormatVersion] ++
    lengthField text.length) (nonce ++ ciphertext) ?_ ?_ rfl
  · simp only [framedBytes, List.append_assoc]
  · rw [List.length_append, length_lengthField]
    rfl

theorem nonce_at (hnonce : nonce.length = nonceLength) :
    slice (framedBytes text ++ nonce ++ ciphertext) (headerLength + text.length)
      (headerLength + text.length + nonceLength) = some nonce :=
  slice_of_append _ _ rfl length_framedBytes.symm (by rw [hnonce])

theorem ciphertext_at (hnonce : nonce.length = nonceLength) :
    slice (framedBytes text ++ nonce ++ ciphertext)
      (headerLength + text.length + nonceLength)
      (framedBytes text ++ nonce ++ ciphertext).length = some ciphertext := by
  refine slice_of_append _ [] (List.append_nil _).symm ?_ ?_
  · rw [List.length_append, length_framedBytes, hnonce]
  · rw [length_framed, hnonce]

theorem associatedData_at : slice (framedBytes text ++ nonce ++ ciphertext) 0
    (headerLength + text.length) = some (framedBytes text) := by
  refine slice_of_append [] (nonce ++ ciphertext) ?_ rfl ?_
  · rw [List.nil_append, List.append_assoc]
  · rw [length_framedBytes, Nat.zero_add]

theorem rest_at : slice (framedBytes text ++ nonce ++ ciphertext) headerLength
    (framedBytes text ++ nonce ++ ciphertext).length =
    some (text ++ nonce ++ ciphertext) := by
  refine slice_of_append (backupPackageMagic ++ [backupPackageFormatVersion] ++
    lengthField text.length) [] ?_ ?_ ?_
  · simp only [framedBytes, List.append_assoc, List.append_nil]
  · rw [List.length_append, length_lengthField]
    rfl
  · rw [length_framed, List.length_append, List.length_append]
    omega

theorem readManifestLength_framed (h : text.length ≤ maxManifestLength) :
    (readManifestLength (framedBytes text ++ nonce ++ ciphertext) :
      Except (Failure κ ρ) Nat) = .ok text.length := by
  have hread : bigEndian (lengthField text.length).reverse = text.length := by
    rw [lengthField, List.reverse_reverse]
    exact bigEndian_toBigEndian (Nat.lt_of_le_of_lt h maxManifestLength_lt)
  unfold readManifestLength
  rw [lengthField_at]
  simp only [within, bind, Except.bind]
  rw [hread, if_neg (Nat.not_lt.mpr h)]

/-- A package whose parts pass the checks is opened. -/
theorem openBackupPackage_framed (htext : text.length ≤ maxManifestLength)
    (hnonce : nonce.length = nonceLength)
    (hciphertext : authenticationTagLength ≤ ciphertext.length)
    (hmanifest : json.fromSlice text = .ok manifest)
    (hcount : manifest.entries.length ≤ maxEntries)
    (hnames : (validateEntryNames manifest.entries :
      Except (BackupPackageError κ ρ) Unit) = .ok ())
    (hunique : (ensureUniqueManifestNames manifest.entries :
      Except (BackupPackageError κ ρ) Unit) = .ok ())
    (hdecrypt : cipher.decrypt nonce (framedBytes text) ciphertext = some plaintext) :
    (openBackupPackage cipher json hexSha256 (framedBytes text ++ nonce ++ ciphertext) :
      Except (Failure κ ρ) DecryptedBackup) =
      readPayload hexSha256 manifest plaintext := by
  have hlength := @length_framed text nonce ciphertext
  have hmagic : backupPackageMagic.isPrefixOf
      (framedBytes text ++ nonce ++ ciphertext) = true := by
    refine List.isPrefixOf_iff_prefix.mpr ⟨[backupPackageFormatVersion] ++
      lengthField text.length ++ text ++ nonce ++ ciphertext, ?_⟩
    simp only [framedBytes, List.append_assoc]
  have hversion :
      (framedBytes text ++ nonce ++ ciphertext)[backupPackageMagic.length]? =
        some backupPackageFormatVersion := rfl
  have hmin : minimumPackageLength =
      headerLength + nonceLength + authenticationTagLength := rfl
  unfold openBackupPackage
  rw [if_neg (by rw [hlength, hmin]; omega),
    if_neg (by rw [hmagic]; exact Bool.noConfusion), hversion]
  simp only [within, bind, Except.bind]
  rw [if_neg (fun hne => hne rfl), readManifestLength_framed htext]
  dsimp only
  rw [if_neg (by rw [hlength]; omega), manifest_at]
  dsimp only
  rw [hmanifest]
  simp only [Except.mapError]
  rw [if_neg (Nat.not_lt.mpr hcount), hnames, hunique]
  dsimp only
  rw [nonce_at hnonce, ciphertext_at hnonce, associatedData_at]
  dsimp only
  rw [hdecrypt]

/-! ### Entries -/

/-- The entry that is given back. -/
def decrypted (entry : BackupEntry) : DecryptedEntry where
  name := entry.name
  kind := entry.kind
  content := entry.content

theorem validateEntryName_ok {κ' ρ' : Type} {name : String}
    (h : (validateEntryName name : Except (BackupPackageError κ ρ) Unit) = .ok ()) :
    (validateEntryName name : Except (BackupPackageError κ' ρ') Unit) = .ok () := by
  unfold validateEntryName at h ⊢
  split at h
  · cases h
  · split at h
    · cases h
    · split at h
      · cases h
      · next hempty hlong hnul => rw [if_neg hempty, if_neg hlong, if_neg hnul]

theorem validateEntryNames_lines (entries : List BackupEntry) :
    (validateEntryNames (entries.map (·.line hexSha256)) :
      Except (BackupPackageError κ ρ) Unit) = .ok () := by
  induction entries with
  | nil => rfl
  | cons entry entries ih =>
      rw [List.map_cons, validateEntryNames]
      rw [show (entry.line hexSha256).name = entry.name from rfl,
        validateEntryName_ok entry.valid]
      exact ih

/-- The contents are cut out where they were put together. -/
theorem readEntries_lines (entries : List BackupEntry) (front : Bytes) :
    (readEntries hexSha256 (front ++ (entries.map (·.content)).flatten) front.length
      (entries.map (·.line hexSha256)) : Except (Failure κ ρ) (List DecryptedEntry)) =
      .ok (entries.map decrypted) := by
  induction entries generalizing front with
  | nil => rfl
  | cons entry entries ih =>
      have hcut : slice (front ++ ((entry :: entries).map (·.content)).flatten)
          front.length (front.length + (entry.line hexSha256).length) =
          some entry.content := by
        refine slice_of_append _ (entries.map (·.content)).flatten ?_ rfl rfl
        rw [List.map_cons, List.flatten_cons, List.append_assoc]
      have hrest := ih (front ++ entry.content)
      rw [List.length_append, List.append_assoc] at hrest
      show readEntries hexSha256 _ _
        (entry.line hexSha256 :: entries.map (·.line hexSha256)) = _
      rw [readEntries, hcut]
      simp only [within, bind, Except.bind]
      rw [if_neg (fun hne => hne rfl)]
      rw [List.map_cons, List.flatten_cons,
        show (entry.line hexSha256).length = entry.content.length from rfl, hrest]
      rfl

theorem readPayload_lines {productVersion : String} {schemaVersion : UInt32}
    {entries : List BackupEntry} {total : Nat}
    (h : foldLengths 0 (entries.map (·.content.length)) = .ok total) :
    (readPayload hexSha256 (manifestOf hexSha256 productVersion schemaVersion entries)
      (entries.map (·.content)).flatten : Except (Failure κ ρ) DecryptedBackup) =
      .ok { productVersion, schemaVersion, entries := entries.map decrypted } := by
  have hlengths :
      (manifestOf hexSha256 productVersion schemaVersion entries).entries.map
        (·.length) = entries.map (·.content.length) := by
    rw [manifestOf, List.map_map]
    rfl
  have htotal : total = (entries.map (·.content)).flatten.length := by
    rw [length_flatten_contents, foldLengths_ok h, Nat.zero_add]
  unfold readPayload
  rw [hlengths, h]
  dsimp only
  rw [if_neg (not_ne_iff.mpr htotal)]
  have hread := @readEntries_lines κ ρ hexSha256 entries []
  rw [List.nil_append, List.length_nil] at hread
  rw [show (manifestOf hexSha256 productVersion schemaVersion entries).entries =
    entries.map (·.line hexSha256) from rfl, hread]
  rfl

/-- What was created is given back. -/
theorem openBackupPackage_create (hjson : Lawful json) (hcipher : Ideal cipher json)
    {productVersion : String} {schemaVersion : UInt32} {entries : List BackupEntry}
    {randomness : Except ρ Nonce}
    (h : createBackupPackage cipher json hexSha256 productVersion schemaVersion entries
      randomness = .ok package) :
    (openBackupPackage cipher json hexSha256 package :
      Except (Failure κ ρ) DecryptedBackup) =
      .ok { productVersion, schemaVersion, entries := entries.map decrypted } := by
  obtain ⟨text, nonce, ciphertext, total, hcount, hunique, htext, hlength, htotal, -,
    hencrypt, rfl⟩ := createBackupPackage_ok h
  have htag := hcipher.length _ _ _ _ hencrypt
  rw [openBackupPackage_framed hlength nonce.length_eq (by omega)
    (hjson.readsBack _ _ htext) ?_ (validateEntryNames_lines entries) ?_
    ((hcipher.exact _ _ _ _).mpr hencrypt)]
  · exact readPayload_lines htotal
  · rw [manifestOf, List.length_map]
    exact hcount
  · unfold ensureUniqueManifestNames manifestOf
    rw [List.map_map]
    exact hunique

/-! ### Slices within bounds -/

/-- A reading that takes no slice out of bounds. -/
def InBounds {α : Type} (x : Except (Failure κ ρ) α) : Prop := x ≠ .error .outOfBounds

section

variable {α β : Type}

theorem InBounds.ok {a : α} : InBounds (.ok a : Except (Failure κ ρ) α) := by
  intro h
  cases h

theorem InBounds.fail {error : BackupPackageError κ ρ} :
    InBounds (fail error : Except (Failure κ ρ) α) := by
  intro h
  cases h

theorem InBounds.mapError {ε : Type} {x : Except ε α} {f : ε → BackupPackageError κ ρ} :
    InBounds (x.mapError fun error => .returned (f error)) := by
  cases x with
  | error error => exact .fail
  | ok a => exact .ok

theorem InBounds.within {x : Option α} {a : α} (h : x = some a) :
    InBounds (within x : Except (Failure κ ρ) α) := by
  subst h
  exact .ok

theorem InBounds.bind {x : Except (Failure κ ρ) α} {f : α → Except (Failure κ ρ) β}
    (hx : InBounds x) (hf : ∀ a, x = .ok a → InBounds (f a)) : InBounds (x >>= f) := by
  cases x with
  | error failure =>
      intro h
      cases h
      exact hx rfl
  | ok a => exact hf a rfl

end

theorem readEntries_inBounds (entries : List BackupManifestEntry) (offset : Nat)
    (h : offset + (entries.map (·.length)).sum ≤ plaintext.length) :
    InBounds (readEntries hexSha256 plaintext offset entries :
      Except (Failure κ ρ) (List DecryptedEntry)) := by
  induction entries generalizing offset with
  | nil => exact .ok
  | cons entry entries ih =>
      rw [List.map_cons, List.sum_cons] at h
      obtain ⟨content, hcontent⟩ := exists_slice (l := plaintext)
        (Nat.le_add_right offset entry.length) (by omega)
      refine (InBounds.within hcontent).bind fun content' _ => ?_
      split
      · exact .fail
      · refine (ih (offset + entry.length) (by omega)).bind fun rest _ => .ok

theorem readPayload_inBounds :
    InBounds (readPayload hexSha256 manifest plaintext :
      Except (Failure κ ρ) DecryptedBackup) := by
  unfold readPayload
  split
  · exact .fail
  · next total htotal =>
      split
      · exact .fail
      · next hlength =>
          have hsum := foldLengths_ok htotal
          refine (readEntries_inBounds _ 0 ?_).bind fun entries _ => .ok
          rw [← hsum, not_ne_iff.mp hlength]

/-- No slice is out of bounds, whatever the bytes are. -/
theorem openBackupPackage_inBounds (package : Bytes) :
    InBounds (openBackupPackage cipher json hexSha256 package :
      Except (Failure κ ρ) DecryptedBackup) := by
  have hmin : minimumPackageLength =
      headerLength + nonceLength + authenticationTagLength := rfl
  have hheader : headerLength = backupPackageMagic.length + 1 + 4 := rfl
  unfold openBackupPackage
  split
  · exact .fail
  · next hshort =>
      split
      · exact .fail
      · refine (InBounds.within (List.getElem?_eq_getElem (by omega))).bind
          fun version _ => ?_
        split
        · exact .fail
        · refine InBounds.bind ?_ fun n _ => ?_
          · obtain ⟨bytes, hbytes⟩ := exists_slice (l := package)
              (i := backupPackageMagic.length + formatVersionBytes) (j := headerLength)
              (by decide) (by omega)
            refine (InBounds.within hbytes).bind fun bytes' _ => ?_
            dsimp only
            split
            · exact .fail
            · exact .ok
          · dsimp only
            split
            · exact .fail
            · next hlong =>
                obtain ⟨text, htext⟩ := exists_slice (l := package)
                  (Nat.le_add_right headerLength n) (by omega)
                obtain ⟨nonce, hnonce⟩ := exists_slice (l := package)
                  (Nat.le_add_right (headerLength + n) nonceLength) (by omega)
                obtain ⟨ciphertext, hciphertext⟩ := exists_slice (l := package)
                  (i := headerLength + n + nonceLength) (by omega) (Nat.le_refl _)
                obtain ⟨data, hdata⟩ := exists_slice (l := package) (i := 0)
                  (j := headerLength + n) (Nat.zero_le _) (by omega)
                refine (InBounds.within htext).bind fun _ _ =>
                  InBounds.mapError.bind fun manifest _ => ?_
                split
                · exact .fail
                · refine InBounds.mapError.bind fun _ _ =>
                    InBounds.mapError.bind fun _ _ =>
                    (InBounds.within hnonce).bind fun _ _ =>
                    (InBounds.within hciphertext).bind fun _ _ =>
                    (InBounds.within hdata).bind fun _ _ => ?_
                  split
                  · exact .fail
                  · exact readPayload_inBounds

/-! ### Altered packages -/

theorem framedBytes_inj {text' : Bytes} (h : framedBytes text = framedBytes text') :
    text = text' := by
  unfold framedBytes at h
  refine (List.append_inj h ?_).2
  simp only [List.length_append, length_lengthField]

theorem lengthField_inj {m n : Nat} (hm : m ≤ maxManifestLength)
    (hn : n ≤ maxManifestLength) (h : lengthField m = lengthField n) : m = n :=
  toBigEndian_inj (Nat.lt_of_le_of_lt hm maxManifestLength_lt)
    (Nat.lt_of_le_of_lt hn maxManifestLength_lt) (List.reverse_injective h)

/-- The text of no manifest goes on after that of another. -/
theorem manifest_eq_of_append (hjson : Lawful json) {manifest' : BackupManifest}
    {text' more : Bytes} (htext : json.toVec manifest = .ok text)
    (htext' : json.toVec manifest' = .ok text') (h : text' = text ++ more) :
    text' = text := by
  have hread := hjson.readsBack manifest' text' htext'
  rw [h] at hread
  obtain rfl := hjson.endsThere manifest manifest' text more htext hread
  rw [htext] at htext'
  cases htext'
  rfl

/-- Whether a byte is one of the nonce behind a manifest of this length. -/
def InNonce (n i : Nat) : Prop :=
  headerLength + n ≤ i ∧ i < headerLength + n + nonceLength

/-- A package of an encryption that was made, with another byte outside its nonce, is
not that of another encryption. -/
theorem altered_not_made (hjson : Lawful json) (hcipher : Ideal cipher json)
    (htext : json.toVec manifest = .ok text) (hmax : text.length ≤ maxManifestLength)
    (hnonce : nonce.length = nonceLength)
    (hencrypt : cipher.encrypt nonce (framedBytes text) payload = some ciphertext)
    {manifest' : BackupManifest} {text' nonce' ciphertext' payload' : Bytes}
    (htext' : json.toVec manifest' = .ok text')
    (hmax' : text'.length ≤ maxManifestLength) (hnonce' : nonce'.length = nonceLength)
    (hencrypt' : cipher.encrypt nonce' (framedBytes text') payload' = some ciphertext')
    {i : Nat} {byte : UInt8} (hi : ¬InNonce text.length i)
    (h : (framedBytes text ++ nonce ++ ciphertext).set i byte =
      framedBytes text' ++ nonce' ++ ciphertext') :
    framedBytes text' ++ nonce' ++ ciphertext' =
      framedBytes text ++ nonce ++ ciphertext := by
  have hheader : headerLength =
      backupPackageMagic.length + formatVersionBytes + 4 := rfl
  have hlength := congrArg List.length h
  rw [List.length_set] at hlength
  obtain hfront | hback := Nat.lt_or_ge i headerLength
  · -- what follows the header is the same, so the texts are
    have hrest := @rest_at text' nonce' ciphertext'
    rw [← h, List.length_set, slice_set (.inl hfront), rest_at, Option.some.injEq,
      List.append_assoc, List.append_assoc] at hrest
    have htexts : text' = text := by
      obtain ⟨more, hmore, -⟩ | ⟨more, hmore, -⟩ := List.append_eq_append_iff.mp hrest
      · exact manifest_eq_of_append hjson htext htext' hmore
      · exact (manifest_eq_of_append hjson htext' htext hmore).symm
    rw [htexts] at hrest ⊢
    rw [List.append_assoc, List.append_assoc, List.append_cancel_left hrest]
  · -- the length field is the same, so the nonce is
    have hfield := @lengthField_at text' nonce' ciphertext'
    rw [← h, slice_set (.inr hback), lengthField_at, Option.some.injEq] at hfield
    have htexts : text'.length = text.length := (lengthField_inj hmax hmax' hfield).symm
    have hat := @nonce_at text' nonce' ciphertext' hnonce'
    rw [htexts, ← h, slice_set (by unfold InNonce at hi; omega), nonce_at hnonce,
      Option.some.injEq] at hat
    rw [← hat] at hencrypt' ⊢
    obtain ⟨hdata, rfl⟩ := hcipher.once _ _ _ _ _ _ _ hencrypt hencrypt'
    rw [hdata] at hencrypt' ⊢
    rw [hencrypt] at hencrypt'
    cases hencrypt'
    rfl

/-- A package that was opened is that of an encryption that was made. -/
theorem openBackupPackage_made (hcipher : Ideal cipher json)
    (h : (openBackupPackage cipher json hexSha256 package :
      Except (Failure κ ρ) DecryptedBackup) = .ok backup) :
    ∃ text nonce payload ciphertext, package = framedBytes text ++ nonce ++ ciphertext ∧
      text.length ≤ maxManifestLength ∧ nonce.length = nonceLength ∧
      (∃ manifest, json.toVec manifest = .ok text) ∧
      cipher.encrypt nonce (framedBytes text) payload = some ciphertext := by
  obtain ⟨text, nonce, ciphertext, plaintext, hpackage, hmax, hnonce, hdecrypt⟩ :=
    openBackupPackage_ok h
  have hencrypt := (hcipher.exact _ _ _ _).mp hdecrypt
  have hmagic : framedBytes text = backupPackageMagic ++
      ([backupPackageFormatVersion] ++ lengthField text.length ++ text) := by
    simp only [framedBytes, List.append_assoc]
  obtain ⟨manifest, text', htext', hframed⟩ :=
    hcipher.framed _ _ _ _ (hmagic ▸ hencrypt)
  have heq := framedHeaderAndManifest_ok hframed
  rw [← hmagic] at heq
  rw [← framedBytes_inj heq] at htext'
  exact ⟨text, nonce, plaintext, ciphertext, hpackage, hmax, hnonce, ⟨manifest, htext'⟩,
    hencrypt⟩

/-- What opening a package comes to. What was created is given back under the same key,
with the versions and the entries in their order. Whatever the bytes are, no slice is
out of bounds. A package that was created, with another byte in its header, its manifest
or its ciphertext, is answered with an error; and a package that is opened at all is
that of an encryption that was made. -/
theorem packages_exact (cipher : Cipher) (json : Json κ) (hexSha256 : Bytes → String)
    (hjson : Lawful json) (hcipher : Ideal cipher json) :
    (∀ productVersion schemaVersion entries (randomness : Except ρ Nonce) package,
      createBackupPackage cipher json hexSha256 productVersion schemaVersion entries
        randomness = .ok package →
      (openBackupPackage cipher json hexSha256 package :
        Except (Failure κ ρ) DecryptedBackup) =
        .ok { productVersion, schemaVersion, entries := entries.map decrypted }) ∧
    (∀ package, (openBackupPackage cipher json hexSha256 package :
      Except (Failure κ ρ) DecryptedBackup) ≠ .error .outOfBounds) ∧
    (∀ productVersion schemaVersion entries (randomness : Except ρ Nonce) package text,
      createBackupPackage cipher json hexSha256 productVersion schemaVersion entries
        randomness = .ok package →
      json.toVec (manifestOf hexSha256 productVersion schemaVersion entries) =
        .ok text →
      ∀ i byte, i < package.length → package[i]? ≠ some byte → ¬InNonce text.length i →
        ∃ error, (openBackupPackage cipher json hexSha256 (package.set i byte) :
          Except (Failure κ ρ) DecryptedBackup) = .error (.returned error)) ∧
    (∀ package backup, (openBackupPackage cipher json hexSha256 package :
        Except (Failure κ ρ) DecryptedBackup) = .ok backup →
      ∃ nonce associatedData message ciphertext,
        cipher.encrypt nonce associatedData message = some ciphertext ∧
          package = associatedData ++ nonce ++ ciphertext) := by
  refine ⟨fun _ _ _ _ _ h => openBackupPackage_create hjson hcipher h,
    openBackupPackage_inBounds, ?_, ?_⟩
  · intro productVersion schemaVersion entries randomness package text h htext i byte hi
      hbyte hplace
    obtain ⟨text', nonce, ciphertext, total, -, -, htext', hmax, -, -, hencrypt, rfl⟩ :=
      createBackupPackage_ok h
    rw [htext] at htext'
    cases htext'
    cases hopen : (openBackupPackage cipher json hexSha256
        ((framedBytes text ++ nonce.bytes ++ ciphertext).set i byte) :
        Except (Failure κ ρ) DecryptedBackup) with
    | error failure =>
        cases failure with
        | returned error => exact ⟨error, rfl⟩
        | outOfBounds => exact absurd hopen (openBackupPackage_inBounds _)
    | ok backup =>
        obtain ⟨text', nonce', payload', ciphertext', haltered, hmax', hnonce',
          ⟨manifest', htext'⟩, hencrypt'⟩ := openBackupPackage_made hcipher hopen
        have hsame := altered_not_made hjson hcipher htext hmax nonce.length_eq hencrypt
          htext' hmax' hnonce' hencrypt' hplace haltered
        rw [hsame] at haltered
        refine absurd ?_ hbyte
        rw [← haltered, List.getElem?_set_self hi]
  · intro package backup h
    obtain ⟨text, nonce, payload, ciphertext, hpackage, -, -, -, hencrypt⟩ :=
      openBackupPackage_made hcipher h
    exact ⟨nonce, framedBytes text, payload, ciphertext, hencrypt, hpackage⟩

/-! ### One package -/

/-- The manifest of a package with one entry of one byte. -/
def smallManifest : BackupManifest where
  productVersion := "0"
  schemaVersion := 1
  entries := [{
    name := "a", kind := .masterKey, length := 1
    sha256 := "4bf5122f344554c53bde2ebb8cd2b7e3d1600ad631c385a5d7cce23c7785459a" }]

/-- How it is written. -/
def smallText : Bytes :=
  [123, 34, 112, 114, 111, 100, 117, 99, 116, 95, 118, 101, 114, 115, 105, 111, 110,
    34, 58, 34, 48, 34, 44, 34, 115, 99, 104, 101, 109, 97, 95, 118, 101, 114, 115,
    105, 111, 110, 34, 58, 49, 44, 34, 101, 110, 116, 114, 105, 101, 115, 34, 58, 91,
    123, 34, 110, 97, 109, 101, 34, 58, 34, 97, 34, 44, 34, 107, 105, 110, 100, 34,
    58, 34, 109, 97, 115, 116, 101, 114, 45, 107, 101, 121, 34, 44, 34, 108, 101, 110,
    103, 116, 104, 34, 58, 49, 44, 34, 115, 104, 97, 50, 53, 54, 34, 58, 34, 52, 98,
    102, 53, 49, 50, 50, 102, 51, 52, 52, 53, 53, 52, 99, 53, 51, 98, 100, 101, 50,
    101, 98, 98, 56, 99, 100, 50, 98, 55, 101, 51, 100, 49, 54, 48, 48, 97, 100, 54,
    51, 49, 99, 51, 56, 53, 97, 53, 100, 55, 99, 99, 101, 50, 51, 99, 55, 55, 56, 53,
    52, 53, 57, 97, 34, 125, 93, 125]

def zeroNonce : Nonce where
  bytes := List.replicate 24 0
  length_eq := rfl

/-- The entry's byte, encrypted under the key of zeros. -/
def smallCiphertext : Bytes :=
  [121, 199, 190, 230, 224, 206, 248, 22, 41, 249, 185, 19, 46, 13, 171, 96, 130]

/-- The cipher when this encryption is the one that is made. -/
def smallCipher : Cipher where
  encrypt := fun nonce associatedData message =>
    if nonce = zeroNonce.bytes ∧ associatedData = framedBytes smallText ∧
      message = [1] then some smallCiphertext
    else none
  decrypt := fun nonce associatedData ciphertext =>
    if nonce = zeroNonce.bytes ∧ associatedData = framedBytes smallText ∧
      ciphertext = smallCiphertext then some [1]
    else none

def smallJson : Json Unit where
  toVec := fun manifest => if manifest = smallManifest then .ok smallText else .error ()
  fromSlice := fun text => if text = smallText then .ok smallManifest else .error ()

def smallEntry : BackupEntry where
  name := "a"
  kind := .masterKey
  content := [1]
  valid := by decide

theorem smallJson_lawful : Lawful smallJson := by
  constructor
  · intro manifest text h
    simp only [smallJson] at h ⊢
    split at h
    · next hmanifest =>
        cases h
        rw [if_pos rfl, hmanifest]
    · cases h
  · intro manifest manifest' text more h h'
    simp only [smallJson] at h h'
    split at h
    · next hmanifest =>
        split at h'
        · cases h'
          exact hmanifest.symm
        · cases h'
    · cases h

theorem smallCipher_ideal : Ideal smallCipher smallJson := by
  constructor
  · intro nonce associatedData message ciphertext
    simp only [smallCipher]
    constructor
    · intro h
      split at h
      · next hsame =>
          cases h
          rw [if_pos ⟨hsame.1, hsame.2.1, rfl⟩, hsame.2.2]
      · cases h
    · intro h
      split at h
      · next hsame =>
          cases h
          rw [if_pos ⟨hsame.1, hsame.2.1, rfl⟩, hsame.2.2]
      · cases h
  · intro nonce associatedData message ciphertext h
    simp only [smallCipher] at h
    split at h
    · next hsame =>
        cases h
        rw [hsame.2.2]
        rfl
    · cases h
  · intro nonce associatedData associatedData' message message' ciphertext ciphertext'
      h h'
    simp only [smallCipher] at h h'
    split at h
    · next hsame =>
        split at h'
        · next hsame' => exact ⟨hsame'.2.1.trans hsame.2.1.symm,
            hsame'.2.2.trans hsame.2.2.symm⟩
        · cases h'
    · cases h
  · intro nonce rest message ciphertext h
    simp only [smallCipher] at h
    split at h
    · next hsame =>
        refine ⟨smallManifest, smallText, rfl, ?_⟩
        rw [hsame.2.1]
        exact framedHeaderAndManifest_eq (by decide +kernel)
    · cases h

theorem small_package_given_back :
    (openBackupPackage smallCipher smallJson
      (fun _ => "4bf5122f344554c53bde2ebb8cd2b7e3d1600ad631c385a5d7cce23c7785459a")
      (framedBytes smallText ++ zeroNonce.bytes ++ smallCiphertext) :
      Except (Failure Unit Unit) DecryptedBackup) =
      .ok { productVersion := "0", schemaVersion := 1,
            entries := [decrypted smallEntry] } :=
  (packages_exact smallCipher smallJson
    (fun _ => "4bf5122f344554c53bde2ebb8cd2b7e3d1600ad631c385a5d7cce23c7785459a")
    smallJson_lawful smallCipher_ideal).1 "0" 1 [smallEntry]
    (.ok zeroNonce : Except Unit Nonce)
    (framedBytes smallText ++ zeroNonce.bytes ++ smallCiphertext) (by decide +kernel)

end Rutilus.Proofs.BackupPackages
