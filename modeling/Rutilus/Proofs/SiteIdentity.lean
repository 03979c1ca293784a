import Rutilus.Lib.Der
import Rutilus.Proofs.DerStrictness

/-!
# The fingerprint in a certificate

The walker undoes the encoding of trees of elements, so it finds the site's extension
where the center wrote it. What it reads of an extension that comes before is only the
identifier, which no other identifier's encoding is read as. Of other byte strings the
walker answers an error, and never reads beyond their end.
-/

namespace Rutilus.Proofs.SiteIdentity

open Rutilus.Domain (Bytes)
open Rutilus.Lib Rutilus.Protocol.X509 Rutilus.Proofs.DerStrictness

variable {bytes rest content : Bytes} {tag : UInt8} {tree : DerTree}
  {children : List DerTree}

/-! ### Elements -/

/-- The element that a tree is read as. -/
def elementOf (tree : DerTree) : Element where
  tag := tree.tag
  content := tree.content

theorem toBigEndian_ne_nil {width n : Nat} : toBigEndian (width + 1) n ≠ [] := by
  intro h
  cases h

theorem length_derLength_le {n : Nat} (h : n < 2 ^ 32) : (derLength n).length ≤ 5 := by
  unfold derLength
  split
  · exact Nat.le_add_left 1 4
  · have hlog : Nat.log 256 n < 4 := Nat.log_lt_of_lt_pow (by omega) h
    rw [List.length_cons, length_toBigEndian]
    omega

theorem readLength_derLength {n : Nat} (h : n < 2 ^ 32) :
    readLength (derLength n ++ rest) = .ok (n, (derLength n).length) := by
  unfold derLength
  split
  · next hshort =>
      have hbyte : (UInt8.ofNat n).toNat = n := by
        rw [UInt8.toNat_ofNat']
        omega
      refine readLength_ok_iff.mpr (.inl ⟨?_, ?_, rfl⟩)
      · omega
      · exact hbyte.symm
  · next hlong =>
      have hlog : Nat.log 256 n < 4 := Nat.log_lt_of_lt_pow (by omega) h
      have hpow : n < 256 ^ (Nat.log 256 n + 1) :=
        Nat.lt_pow_succ_log_self (by decide) n
      refine readLength_ok_iff.mpr (.inr ⟨_, rest, rfl, toBigEndian_ne_nil, ?_, ?_, ?_,
        ?_⟩)
      · rw [length_toBigEndian]
        omega
      · rw [length_toBigEndian, UInt8.toNat_ofNat']
        omega
      · exact (bigEndian_toBigEndian hpow).symm
      · rw [List.length_cons, Nat.add_comm]

/-- An element is read back from its encoding. -/
theorem readElement_derElement (h : content.length < 2 ^ 32) :
    readElement (derElement tag content ++ rest) =
      .ok ({ tag, content }, (derElement tag content).length) := by
  have hle := length_derLength_le h
  have hslice : slice (tag :: derLength content.length ++ content ++ rest)
      (tag :: derLength content.length).length
      ((tag :: derLength content.length).length + content.length) = some content :=
    slice_append
  rw [List.length_cons, Nat.add_comm _ 1] at hslice
  rw [derElement, List.cons_append, List.append_assoc, readElement,
    readLength_derLength h]
  unfold checked
  dsimp only
  rw [if_pos (by omega)]
  dsimp only
  rw [List.cons_append, List.cons_append, List.append_assoc] at hslice
  rw [hslice, List.length_cons, List.length_append]
  simp only [Except.ok.injEq, Prod.mk.injEq, true_and]
  omega

theorem readElement_encode (h : tree.content.length < 2 ^ 32) :
    readElement (tree.encode ++ rest) = .ok (elementOf tree, tree.encode.length) :=
  readElement_derElement h

/-- The elements of a sequence are read back one after the other. -/
theorem siblings_derContents (h : (derContents children).length < 2 ^ 32) :
    ∀ fuel, (derContents children).length ≤ fuel →
      siblings fuel (derContents children) = .ok (children.map elementOf) := by
  induction children with
  | nil =>
      intro fuel _
      cases fuel with
      | zero => rfl
      | succ fuel => rfl
  | cons tree children ih =>
      intro fuel hfuel
      have htree : tree.content.length ≤ (derContents (tree :: children)).length :=
        length_content_le List.mem_cons_self
      have hlength : (derContents (tree :: children)).length =
          tree.encode.length + (derContents children).length := by
        rw [derContents_cons, List.length_append]
      have hpos : 0 < tree.encode.length := Nat.succ_pos _
      have hne : derContents (tree :: children) ≠ [] := by
        refine List.ne_nil_of_length_pos ?_
        omega
      obtain ⟨fuel, rfl⟩ : ∃ f, fuel = f + 1 := ⟨fuel - 1, by omega⟩
      rw [siblings, if_neg hne, derContents_cons, readElement_encode (by omega)]
      dsimp only
      rw [slice_rest]
      dsimp only
      rw [ih (by omega) fuel (by omega)]
      rfl

theorem readChildren_constructed (h : (derContents children).length < 2 ^ 32)
    (htag : tag = tagSequence ∨ tag = tagSet) :
    readChildren (elementOf (.constructed tag children)) =
      .ok (children.map elementOf) := by
  unfold readChildren
  exact (if_pos htag).trans (siblings_derContents h _ (Nat.le_refl _))

theorem readChildren_sequence (h : (derContents children).length < 2 ^ 32) :
    readChildren (elementOf (.constructed tagSequence children)) =
      .ok (children.map elementOf) :=
  readChildren_constructed h (.inl rfl)

/-! ### Identifiers -/

/-- Where the run of the first two arcs goes on after its first byte, what follows is a
run as well, and it fits. -/
theorem tail_of_base128 {n : Nat} {first : UInt8} {tail : Bytes}
    (h : base128 n = first :: tail) (hn : n < 2 ^ 64 + 80) (hne : tail ≠ []) :
    SeptetRun tail ∧ septets tail < 2 ^ 64 ∧ 128 ≤ first.toNat := by
  have hrun := septetRun_base128 n
  have hvalue := septets_base128 n
  have hhead := head?_base128 n
  rw [h] at hrun hvalue hhead
  cases hrun with
  | last hlast => exact absurd rfl hne
  | cons hmore hrest =>
      refine ⟨hrest, ?_, hmore⟩
      have hfirst : first.toNat ≠ 128 := fun heq =>
        hhead (congrArg some (UInt8.toNat_inj.mp heq))
      have hbyte : first.toNat < 256 := first.toNat_lt
      have hdigit : 1 ≤ first.toNat % 128 := by omega
      have hmul := Nat.mul_le_mul_right (128 ^ tail.length) hdigit
      have hlt := septets_lt tail
      rw [septets_cons] at hvalue
      have hlength : tail.length ≤ 9 := by
        refine Nat.not_lt.mp fun hten => ?_
        have hpow : 128 ^ 10 ≤ 128 ^ tail.length :=
          Nat.pow_le_pow_right (by decide) hten
        omega
      have hpow : 128 ^ tail.length ≤ 128 ^ 9 :=
        Nat.pow_le_pow_right (by decide) hlength
      omega

theorem base128_ne_nil (n : Nat) : base128 n ≠ [] := by
  intro h
  have hpos := (septetRun_base128 n).length_pos
  rw [h] at hpos
  exact absurd hpos (Nat.lt_irrefl 0)

/-- The runs of the arcs, which all fit. -/
theorem fit_base128 {arcs : List Nat} (h : ∀ arc ∈ arcs, arc < 2 ^ 64) :
    Fit (arcs.map base128) := by
  intro run hrun
  obtain ⟨n, hn, rfl⟩ := List.mem_map.mp hrun
  rw [septets_base128]
  exact ⟨septetRun_base128 n, h n hn⟩

/-- An identifier whose arcs fit is read, and read as the site's only if it is that. -/
theorem decodeOid_other {v : List Nat} (h : derOid v = some content)
    (hfit : ∀ arc ∈ v, arc < 2 ^ 64) :
    ∃ components, decodeOid content = .ok components ∧
      (components = siteIdentityExtensionOid →
        v = siteIdentityExtensionOid.map (·.toNat)) := by
  obtain ⟨a, b, arcs, rfl, hvalid, rfl⟩ := derOid_eq_some h
  have hb : b < 2 ^ 64 := hfit b (by simp)
  have hfits : Fit (arcs.map base128) :=
    fit_base128 fun arc harc => hfit arc (by simp [harc])
  obtain ⟨first, tail, hhead⟩ :=
    List.exists_cons_of_ne_nil (base128_ne_nil (40 * a + b))
  rw [hhead, List.cons_append]
  by_cases htail : tail = []
  · rw [htail] at hhead ⊢
    refine ⟨_, decodeOid_ok_iff.mpr ⟨_, rfl, hfits, rfl⟩, fun hsite => ?_⟩
    obtain ⟨hone, hthree, harcs⟩ : (first / 40).toUInt64 = 1 ∧
        (first % 40).toUInt64 = 3 ∧
        arcsOf (arcs.map base128) = [6, 1, 4, 1, 59745, 2, 1] := by
      simpa [siteIdentityExtensionOid] using hsite
    have hdiv := congrArg UInt64.toNat hone
    have hmod := congrArg UInt64.toNat hthree
    rw [toNat_div_forty] at hdiv
    rw [toNat_mod_forty] at hmod
    have hvalue := septets_base128 (40 * a + b)
    rw [hhead, septets_cons] at hvalue
    simp only [List.length_nil, pow_zero, Nat.mul_one, septets, List.foldl_nil,
      Nat.add_zero] at hvalue
    have h1 : (1 : UInt64).toNat = 1 := rfl
    have h3 : (3 : UInt64).toNat = 3 := rfl
    obtain ⟨rfl, rfl⟩ : a = 1 ∧ b = 3 := by omega
    have hlist := congrArg (List.map (·.toNat)) harcs
    rw [map_toNat_arcsOf hfits, List.map_map] at hlist
    have hid : arcs.map (septets ∘ base128) = arcs :=
      (List.map_congr_left fun n _ => septets_base128 n).trans (List.map_id arcs)
    rw [hid] at hlist
    rw [hlist]
    rfl
  · obtain ⟨hrun, hsmall, hmore⟩ := tail_of_base128 hhead (by omega) htail
    have hboth : Fit (tail :: arcs.map base128) := by
      intro run hmem
      obtain rfl | hmem := List.mem_cons.mp hmem
      · exact ⟨hrun, hsmall⟩
      · exact hfits run hmem
    refine ⟨_, decodeOid_ok_iff.mpr ⟨_, rfl, hboth, rfl⟩, fun hsite => ?_⟩
    have hone := congrArg UInt64.toNat (List.cons.inj hsite).1
    rw [toNat_div_forty] at hone
    have h1 : (1 : UInt64).toNat = 1 := rfl
    omega

/-- The site's own identifier is read. -/
theorem decodeOid_site
    (h : derOid (siteIdentityExtensionOid.map (·.toNat)) = some content) :
    decodeOid content = .ok siteIdentityExtensionOid :=
  decodeOid_derOid h rfl (by decide)

/-! ### Extensions -/

variable {oid components : List UInt64} {extension : Extension}
  {elements : List Element}

/-- What is read of an extension. -/
theorem findExtension_cons (hlength : extension.tree.content.length < 2 ^ 32)
    (h : decodeOid extension.idContent = .ok components) :
    findExtension oid (elementOf extension.tree :: elements) =
      if components = oid then .ok (some extension.value)
      else findExtension oid elements := by
  have hchildren := readChildren_sequence hlength
  have hparts : valuePart none (((if extension.critical then
      [DerTree.primitive 0x01 [0xFF]] else []) ++
        [DerTree.primitive 0x04 extension.value]).map elementOf) =
      .ok (some (elementOf (.primitive 0x04 extension.value))) := by
    cases extension.critical with
    | true => rfl
    | false => rfl
  have htree : elementOf extension.tree = elementOf (.constructed tagSequence
      (.primitive 0x06 extension.idContent :: ((if extension.critical then
        [.primitive 0x01 [0xFF]] else []) ++ [.primitive 0x04 extension.value]))) := rfl
  rw [findExtension, htree, hchildren, List.map_cons]
  dsimp only
  rw [if_neg (fun hne => hne rfl), hparts]
  dsimp only
  rw [show (elementOf (DerTree.primitive 0x06 extension.idContent)).content =
    extension.idContent from rfl, h]
  rfl

/-- Extensions with other identifiers that fit are passed over. -/
theorem findExtension_others {before : List Extension}
    (hlength : ∀ extension ∈ before, extension.tree.content.length < 2 ^ 32)
    (hother : ∀ extension ∈ before,
      extension.id ≠ siteIdentityExtensionOid.map (·.toNat))
    (hfit : ∀ extension ∈ before, ∀ arc ∈ extension.id, arc < 2 ^ 64) :
    findExtension siteIdentityExtensionOid
        (before.map (fun extension => elementOf extension.tree) ++ elements) =
      findExtension siteIdentityExtensionOid elements := by
  induction before with
  | nil => rfl
  | cons extension before ih =>
      have hmem : extension ∈ extension :: before := List.mem_cons_self
      obtain ⟨components, hdecode, hsite⟩ :=
        decodeOid_other extension.encodes (hfit extension hmem)
      rw [List.map_cons, List.cons_append,
        findExtension_cons (hlength extension hmem) hdecode,
        if_neg fun heq => hother extension hmem (hsite heq)]
      exact ih (fun e he => hlength e (List.mem_cons_of_mem _ he))
        (fun e he => hother e (List.mem_cons_of_mem _ he))
        (fun e he => hfit e (List.mem_cons_of_mem _ he))

/-! ### Certificates -/

variable {certificate : Certificate}

/-- Every element of a certificate is as short as the certificate. -/
structure Short (certificate : Certificate) : Prop where
  tree : certificate.tree.content.length < 2 ^ 32
  toBeSigned : certificate.toBeSigned.content.length < 2 ^ 32
  sequence : certificate.extensionSequence.content.length < 2 ^ 32
  field : (DerTree.constructed 0xA3 [certificate.extensionSequence]).content.length <
    2 ^ 32
  extension : ∀ extension ∈ certificate.extensions,
    extension.tree.content.length < 2 ^ 32

theorem short_of_length (h : certificate.tree.content.length < 2 ^ 32) :
    Short certificate := by
  have htbs : certificate.toBeSigned.content.length ≤ certificate.tree.content.length :=
    length_content_le (by simp)
  have hfield : (DerTree.constructed 0xA3
      [certificate.extensionSequence]).content.length ≤
      certificate.toBeSigned.content.length :=
    length_content_le (by simp)
  have hsequence : certificate.extensionSequence.content.length ≤
      (DerTree.constructed 0xA3 [certificate.extensionSequence]).content.length :=
    length_content_le (by simp)
  refine ⟨h, by omega, by omega, by omega, fun extension hmem => ?_⟩
  have hextension : extension.tree.content.length ≤
      certificate.extensionSequence.content.length :=
    length_content_le (List.mem_map.mpr ⟨extension, hmem, rfl⟩)
  omega

theorem tbsCertificate_encode (h : Short certificate) :
    tbsCertificate certificate.encode = .ok (elementOf certificate.toBeSigned) := by
  have hread : readElement (certificate.tree.encode ++ []) = _ :=
    readElement_encode h.tree
  have hchildren := readChildren_sequence h.tree
  rw [List.append_nil] at hread
  unfold tbsCertificate Certificate.encode
  rw [hread]
  dsimp only
  rw [if_neg (fun hne => hne rfl), if_neg (fun hne => hne rfl),
    show elementOf certificate.tree = elementOf (.constructed tagSequence _) from rfl,
    hchildren]
  rfl

/-- The extensions field is the only one with its tag. -/
theorem find?_extensions :
    (((certificate.head ++
      [DerTree.constructed 0xA3 [certificate.extensionSequence]]).map elementOf).find?
        fun field => field.tag = tagContext3) =
      some (elementOf (.constructed 0xA3 [certificate.extensionSequence])) := by
  have hhead : ∀ tree ∈ certificate.head, tree.tag ≠ tagContext3 := by
    intro tree htree
    unfold Certificate.head at htree
    simp only [List.mem_append, List.mem_cons, List.not_mem_nil, or_false,
      List.mem_map] at htree
    obtain ((rfl | rfl | rfl | rfl | rfl | rfl | rfl) | ⟨id, -, rfl⟩) |
      ⟨id, -, rfl⟩ := htree
    all_goals simp [DerTree.tag, tagContext3]
  rw [List.map_append, List.find?_append, List.find?_eq_none.mpr]
  · rfl
  · intro element helement
    obtain ⟨tree, htree, rfl⟩ := List.mem_map.mp helement
    exact fun h => hhead tree htree (of_decide_eq_true h)

/-- The value of an extension is looked for among those of the certificate. -/
theorem extensionValue_encode (h : Short certificate) :
    extensionValue certificate.encode oid =
      findExtension oid
        (certificate.extensions.map fun extension => elementOf extension.tree) := by
  have hfields := readChildren_sequence h.toBeSigned
  have hmembers := readChildren_sequence h.sequence
  have hread : readElement (certificate.extensionSequence.encode ++ []) = _ :=
    readElement_encode h.sequence
  have hcontent : (elementOf (.constructed 0xA3
      [certificate.extensionSequence])).content =
      certificate.extensionSequence.encode ++ [] := rfl
  unfold extensionValue
  rw [tbsCertificate_encode h]
  simp only [bind, Except.bind]
  rw [show elementOf certificate.toBeSigned =
    elementOf (.constructed tagSequence _) from rfl, hfields]
  dsimp only
  rw [find?_extensions]
  dsimp only
  rw [hcontent, hread]
  dsimp only
  rw [if_neg (fun hne => hne rfl), if_neg (fun hne => hne (by rw [List.append_nil])),
    show elementOf certificate.extensionSequence =
      elementOf (.constructed tagSequence _) from rfl, hmembers, List.map_map]
  rfl

/-- The fingerprint is read out of the content that the center wrote. -/
theorem readElement_siteIdentityExtension (fingerprint : CertificateFingerprint) :
    readElement (siteIdentityExtension fingerprint) =
      .ok ({ tag := tagOctetString, content := fingerprint.bytes },
        (siteIdentityExtension fingerprint).length) := by
  have hlength := fingerprint.length_eq
  have hcontent : siteIdentityExtension fingerprint =
      derElement tagOctetString fingerprint.bytes ++ [] := by
    unfold siteIdentityExtension derElement derLength
    rw [if_pos (by omega), List.append_nil]
    rfl
  rw [hcontent, readElement_derElement (by omega), List.append_nil]

/-! ### Arbitrary byte strings -/

variable {α β : Type}

/-- A walk that stops short does so with an error of its own. -/
def Controlled (x : Except Halt α) : Prop :=
  ∀ halt, x = .error halt → ∃ error, halt = .returned error

theorem Controlled.ok {a : α} : Controlled (.ok a) := by
  intro halt h
  cases h

theorem Controlled.returned {error : DerReadError} :
    Controlled (.error (.returned error) : Except Halt α) := by
  intro halt h
  cases h
  exact ⟨error, rfl⟩

theorem Controlled.bind {x : Except Halt α} {f : α → Except Halt β} (hx : Controlled x)
    (hf : ∀ a, x = .ok a → Controlled (f a)) : Controlled (x >>= f) := by
  cases x with
  | error halt =>
      obtain ⟨error, rfl⟩ := hx halt rfl
      exact .returned
  | ok a => exact hf a rfl

/-- An element takes at least its tag, and no more bytes than there are. -/
theorem readElement_bounds {element : Element} {consumed : Nat}
    (h : readElement bytes = .ok (element, consumed)) :
    0 < consumed ∧ consumed ≤ bytes.length := by
  cases bytes with
  | nil => cases h
  | cons tag rest =>
      rw [readElement] at h
      split at h
      · cases h
      · next contentLength lengthBytes hlength =>
          dsimp only at h
          split at h
          · cases h
          · next contentEnd hend =>
              split at h
              · cases h
              · next content hslice =>
                  cases h
                  obtain ⟨hle, hbound, -⟩ := slice_eq_some_iff.mp hslice
                  exact ⟨by omega, hbound⟩

/-- The loop ends within as many turns as there are bytes. -/
theorem siblings_controlled (fuel : Nat) :
    ∀ rest : Bytes, rest.length ≤ fuel → Controlled (siblings fuel rest) := by
  induction fuel with
  | zero =>
      intro rest hrest
      obtain rfl := List.eq_nil_of_length_eq_zero (Nat.le_zero.mp hrest)
      exact .ok
  | succ fuel ih =>
      intro rest hrest
      rw [siblings]
      split
      · exact .ok
      · split
        · exact .returned
        · next child consumed hread =>
            obtain ⟨hpos, hbound⟩ := readElement_bounds hread
            have hslice : slice rest consumed rest.length =
                some (rest.drop consumed) :=
              slice_eq_some_iff.mpr ⟨hbound, Nat.le_refl _, by rw [List.take_length]⟩
            rw [hslice]
            dsimp only
            have hrec := ih (rest.drop consumed) (by
              rw [List.length_drop]
              omega)
            cases hsiblings : siblings fuel (rest.drop consumed) with
            | ok children => exact .ok
            | error halt =>
                obtain ⟨error, rfl⟩ := hrec halt hsiblings
                exact .returned

theorem readChildren_controlled (element : Element) :
    Controlled (readChildren element) := by
  unfold readChildren
  split
  · exact siblings_controlled _ _ (Nat.le_refl _)
  · exact .returned

theorem tbsCertificate_controlled (der : Bytes) : Controlled (tbsCertificate der) := by
  unfold tbsCertificate
  split
  · exact .returned
  · split
    · exact .returned
    · split
      · exact .returned
      · split
        · next halt hchildren =>
            obtain ⟨error, rfl⟩ := readChildren_controlled _ halt hchildren
            exact .returned
        · exact .returned
        · split
          · exact .returned
          · exact .ok

theorem findExtension_controlled (elements : List Element) :
    Controlled (findExtension oid elements) := by
  induction elements with
  | nil => exact .ok
  | cons extension elements ih =>
      rw [findExtension]
      split
      · next halt hchildren =>
          obtain ⟨error, rfl⟩ := readChildren_controlled _ halt hchildren
          exact .returned
      · exact .returned
      · split
        · exact .returned
        · split
          · exact .returned
          · split
            · exact .returned
            · split
              · exact .ok
              · exact ih

theorem extensionValue_controlled (der : Bytes) :
    Controlled (extensionValue der oid) := by
  refine (tbsCertificate_controlled der).bind fun tbs _ =>
    (readChildren_controlled tbs).bind fun fields _ => ?_
  split
  · exact .ok
  · split
    · exact .returned
    · split
      · exact .returned
      · split
        · exact .returned
        · exact (readChildren_controlled _).bind fun members _ =>
            findExtension_controlled members

theorem siteIdentityFingerprint_controlled (der : Bytes) :
    Controlled (siteIdentityFingerprint der) := by
  refine (extensionValue_controlled der).bind fun value _ => ?_
  split
  · exact .ok
  · split
    · exact .returned
    · split
      · exact .returned
      · split
        · exact .returned
        · split
          · exact .ok
          · exact .returned

/-! ### The result -/

/-- The walker undoes the encoding of every tree of elements whose lengths fit four
bytes, the children of sequences and sets being read and those of other elements
refused. It reads exactly the fingerprint that the center wrote into a certificate,
whatever stands in its other fields and extensions, where the identifiers of the
extensions before the site's have arcs of 64 bits; and none where there is no such
extension. For other byte strings it answers an error, within as many turns of its loop
as there are bytes and without a slice out of bounds. -/
theorem site_identity_read :
    (∀ (tree : DerTree) rest, tree.content.length < 2 ^ 32 →
      readElement (tree.encode ++ rest) = .ok (elementOf tree, tree.encode.length)) ∧
    (∀ tag children, (DerTree.constructed tag children).content.length < 2 ^ 32 →
      readChildren (elementOf (.constructed tag children)) =
        if tag = tagSequence ∨ tag = tagSet then .ok (children.map elementOf)
        else .error (.returned (.unexpectedTag "SEQUENCE or SET" tag))) ∧
    (∀ certificate : Certificate, certificate.tree.content.length < 2 ^ 32 →
      ∀ before site after, certificate.extensions = before ++ site :: after →
      ∀ fingerprint, site.id = siteIdentityExtensionOid.map (·.toNat) →
        site.value = siteIdentityExtension fingerprint →
        (∀ extension ∈ before, ∀ arc ∈ extension.id, arc < 2 ^ 64) →
        siteIdentityFingerprint certificate.encode = .ok (some fingerprint)) ∧
    (∀ certificate : Certificate, certificate.tree.content.length < 2 ^ 32 →
      (∀ extension ∈ certificate.extensions,
        extension.id ≠ siteIdentityExtensionOid.map (·.toNat) ∧
          ∀ arc ∈ extension.id, arc < 2 ^ 64) →
        siteIdentityFingerprint certificate.encode = .ok none) ∧
    (∀ der halt, siteIdentityFingerprint der = .error halt →
      ∃ error, halt = .returned error) ∧
    (∀ fuel rest halt, rest.length ≤ fuel → siblings fuel rest = .error halt →
      ∃ error, halt = .returned error) := by
  refine ⟨fun tree rest h => readElement_encode h, ?_, ?_, ?_,
    siteIdentityFingerprint_controlled, fun fuel rest halt hfuel =>
      siblings_controlled fuel rest hfuel halt⟩
  · intro tag children h
    split
    · next htag => exact readChildren_constructed h htag
    · next htag =>
        unfold readChildren
        exact if_neg htag
  · intro certificate hlength before site after hextensions fingerprint hid hvalue hfit
    have hshort := short_of_length hlength
    have hdistinct := certificate.distinct
    rw [hextensions, List.map_append, List.map_cons] at hdistinct
    have hother : ∀ extension ∈ before,
        extension.id ≠ siteIdentityExtensionOid.map (·.toNat) := by
      intro extension hmem heq
      refine (List.nodup_append.mp hdistinct).2.2 _ (List.mem_map_of_mem hmem)
        _ List.mem_cons_self ?_
      rw [heq, hid]
    have hencodes := site.encodes
    rw [hid] at hencodes
    have hextension : ∀ extension ∈ before ++ site :: after,
        extension.tree.content.length < 2 ^ 32 := hextensions ▸ hshort.extension
    have hfound : extensionValue certificate.encode siteIdentityExtensionOid =
        .ok (some (siteIdentityExtension fingerprint)) := by
      rw [extensionValue_encode hshort, hextensions, List.map_append, List.map_cons,
        findExtension_others
          (fun e he => hextension e (List.mem_append_left _ he)) hother hfit,
        findExtension_cons (hextension site (by simp)) (decodeOid_site hencodes),
        if_pos rfl, hvalue]
    unfold siteIdentityFingerprint
    rw [hfound]
    simp only [bind, Except.bind]
    rw [readElement_siteIdentityExtension]
    dsimp only
    rw [if_neg (fun hne => hne rfl), if_neg (fun hne => hne rfl),
      dif_pos fingerprint.length_eq]
  · intro certificate hlength hothers
    have hshort := short_of_length hlength
    have hfound : extensionValue certificate.encode siteIdentityExtensionOid =
        .ok none := by
      rw [extensionValue_encode hshort]
      have hskip := @findExtension_others [] certificate.extensions hshort.extension
        (fun e he => (hothers e he).1) (fun e he => (hothers e he).2)
      rw [List.append_nil] at hskip
      rw [hskip]
      rfl
    unfold siteIdentityFingerprint
    rw [hfound]
    rfl

/-! ### An arc of more than 64 bits -/

/-- An extension under a universally unique identifier, `2.25.18446744073709551616`. -/
def uuidExtension : Extension where
  id := [2, 25, 2 ^ 64]
  idContent := [0x69, 0x82, 0x80, 0x80, 0x80, 0x80, 0x80, 0x80, 0x80, 0x80, 0x00]
  encodes := by decide
  critical := false
  value := []

def zeroFingerprint : CertificateFingerprint where
  bytes := List.replicate 32 0
  length_eq := rfl

def siteExtension : Extension where
  id := [1, 3, 6, 1, 4, 1, 59745, 2, 1]
  idContent := [0x2B, 0x06, 0x01, 0x04, 0x01, 0x83, 0xD2, 0x61, 0x02, 0x01]
  encodes := by decide
  critical := false
  value := siteIdentityExtension zeroFingerprint

def uuidCertificate : Certificate where
  serialNumber := [1]
  signature := []
  issuer := []
  validity := []
  subject := []
  subjectPublicKeyInfo := []
  issuerUniqueId := none
  subjectUniqueId := none
  extensions := [uuidExtension, siteExtension]
  distinct := by decide
  signatureAlgorithm := []
  signatureValue := [0]

/-- Before the site's extension, the walker stops at an arc that does not fit 64 bits;
and it refuses the children of an element with a tag of its context. -/
theorem uuid_extension_stops :
    ¬(∀ certificate : Certificate, certificate.tree.content.length < 2 ^ 32 →
      ∀ site ∈ certificate.extensions, ∀ fingerprint,
        site.id = siteIdentityExtensionOid.map (·.toNat) →
        site.value = siteIdentityExtension fingerprint →
        siteIdentityFingerprint certificate.encode = .ok (some fingerprint)) ∧
    ¬(∀ tag children, (DerTree.constructed tag children).content.length < 2 ^ 32 →
      readChildren (elementOf (.constructed tag children)) =
        .ok (children.map elementOf)) := by
  constructor
  · intro h
    have hread := h uuidCertificate (by decide) siteExtension
      (by simp [uuidCertificate]) zeroFingerprint (by decide) rfl
    have hstop : siteIdentityFingerprint uuidCertificate.encode =
        .error (.returned .oidComponentTooLarge) := by
      decide +kernel
    rw [hstop] at hread
    cases hread
  · intro h
    exact absurd (h 0xA3 [] (by decide)) (by decide)

end Rutilus.Proofs.SiteIdentity
