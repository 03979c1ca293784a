import Mathlib.Data.List.Basic
import Mathlib.Data.Nat.Log
import Rutilus.Lib.Endian

/-!
# Distinguished encodings

How DER writes numbers into bytes. An arc of an object identifier is a run of septets,
the most significant first, in which every byte but the last has its high bit set and
which does not start with a zero septet. A length is one byte below 128, or the count
of its bytes and then these bytes, as few as can hold it.
-/

namespace Rutilus.Lib

variable {bytes run run' rest rest' : List UInt8} {k n : Nat}

/-! ## Runs of septets -/

/-- The number the septets of some bytes stand for. -/
def septets (bytes : List UInt8) : Nat :=
  bytes.foldl (fun n byte => n * 128 + byte.toNat % 128) 0

/-- Every byte but the last continues the run. -/
inductive SeptetRun : List UInt8 → Prop where
  | last {byte : UInt8} (h : byte.toNat < 128) : SeptetRun [byte]
  | cons {byte : UInt8} {bytes : List UInt8} (h : 128 ≤ byte.toNat)
      (hrest : SeptetRun bytes) : SeptetRun (byte :: bytes)

/-- The lowest `k + 1` septets of a number as a run. -/
def toRun : Nat → Nat → List UInt8
  | 0, n => [UInt8.ofNat (n % 128)]
  | k + 1, n => UInt8.ofNat (128 + n / 128 ^ (k + 1) % 128) :: toRun k n

/-- A number in as few septets as can hold it. -/
def base128 (n : Nat) : List UInt8 := toRun (Nat.log 128 n) n

theorem foldl_septets (bytes : List UInt8) (m : Nat) :
    bytes.foldl (fun n byte => n * 128 + byte.toNat % 128) m =
      m * 128 ^ bytes.length + septets bytes := by
  unfold septets
  induction bytes generalizing m with
  | nil => simp
  | cons b bytes ih =>
      rw [List.foldl_cons, List.foldl_cons, ih, ih (0 * 128 + b.toNat % 128),
        List.length_cons, pow_succ]
      ring

theorem septets_cons (b : UInt8) (bytes : List UInt8) :
    septets (b :: bytes) = b.toNat % 128 * 128 ^ bytes.length + septets bytes := by
  rw [septets, List.foldl_cons, foldl_septets, Nat.zero_mul, Nat.zero_add]

theorem septets_concat (bytes : List UInt8) (b : UInt8) :
    septets (bytes ++ [b]) = septets bytes * 128 + b.toNat % 128 := by
  rw [septets, List.foldl_append]
  rfl

theorem septets_lt (bytes : List UInt8) : septets bytes < 128 ^ bytes.length := by
  induction bytes with
  | nil => exact Nat.one_pos
  | cons b bytes ih =>
      have hb : b.toNat % 128 + 1 ≤ 128 := Nat.mod_lt _ (by decide)
      have hmul := Nat.mul_le_mul_right (128 ^ bytes.length) hb
      rw [septets_cons, List.length_cons, pow_succ]
      rw [Nat.add_mul, Nat.one_mul] at hmul
      omega

@[simp]
theorem length_toRun : (toRun k n).length = k + 1 := by
  induction k with
  | zero => rfl
  | succ k ih => rw [toRun, List.length_cons, ih]

theorem septetRun_toRun (k n : Nat) : SeptetRun (toRun k n) := by
  induction k with
  | zero =>
      refine .last ?_
      rw [UInt8.toNat_ofNat']
      omega
  | succ k ih =>
      refine .cons ?_ ih
      rw [UInt8.toNat_ofNat']
      omega

theorem septets_toRun (k n : Nat) : septets (toRun k n) = n % 128 ^ (k + 1) := by
  induction k with
  | zero =>
      rw [toRun, septets_cons, UInt8.toNat_ofNat']
      simp [septets]
  | succ k ih =>
      have hbyte : (UInt8.ofNat (128 + n / 128 ^ (k + 1) % 128)).toNat % 128 =
          n / 128 ^ (k + 1) % 128 := by
        rw [UInt8.toNat_ofNat']
        omega
      rw [toRun, septets_cons, hbyte, length_toRun, ih, pow_succ 128 (k + 1),
        Nat.mod_mul, Nat.add_comm, Nat.mul_comm]

theorem toRun_add (k m n : Nat) : toRun k (m * 128 ^ (k + 1) + n) = toRun k n := by
  induction k generalizing m with
  | zero => simp [toRun, Nat.add_mod]
  | succ k ih =>
      have hsplit : m * 128 ^ (k + 2) + n = m * 128 * 128 ^ (k + 1) + n := by
        rw [pow_succ]
        ring
      have hdigit : (m * 128 * 128 ^ (k + 1) + n) / 128 ^ (k + 1) % 128 =
          n / 128 ^ (k + 1) % 128 := by
        rw [Nat.add_comm, Nat.add_mul_div_right _ _ (Nat.pow_pos (by decide)),
          Nat.add_mul_mod_self_right]
      rw [toRun, toRun, hsplit, ih, hdigit]

theorem SeptetRun.length_pos (h : SeptetRun run) : 0 < run.length := by
  cases h with
  | last h => exact Nat.one_pos
  | cons h hrest => exact Nat.succ_pos _

/-- A run is written back from its length and its number. -/
theorem SeptetRun.eq_toRun (h : SeptetRun run) :
    run = toRun (run.length - 1) (septets run) := by
  induction h with
  | @last byte h =>
      simp only [List.length_singleton, Nat.sub_self, toRun, septets_cons,
        List.length_nil, pow_zero, Nat.mul_one]
      rw [show septets [] = 0 from rfl, Nat.add_zero, Nat.mod_mod, Nat.mod_eq_of_lt h,
        UInt8.ofNat_toNat]
  | @cons byte bytes h hrest ih =>
      obtain ⟨k, hk⟩ : ∃ k, bytes.length = k + 1 :=
        ⟨bytes.length - 1, by have := hrest.length_pos; omega⟩
      have hbyte : byte.toNat < 256 := byte.toNat_lt
      have hlt : septets bytes < 128 ^ (k + 1) := hk ▸ septets_lt bytes
      have hdigit : (byte.toNat % 128 * 128 ^ (k + 1) + septets bytes) / 128 ^ (k + 1) =
          byte.toNat % 128 := by
        rw [Nat.add_comm, Nat.add_mul_div_right _ _ (Nat.pow_pos (by decide)),
          Nat.div_eq_of_lt hlt, Nat.zero_add]
      have hhead : 128 + byte.toNat % 128 % 128 = byte.toNat := by omega
      rw [septets_cons, List.length_cons, hk, Nat.add_sub_cancel, toRun, toRun_add,
        hdigit, hhead, UInt8.ofNat_toNat]
      rw [hk, Nat.add_sub_cancel] at ih
      rw [← ih]

/-- A run that does not start with a zero septet is as short as it can be. -/
theorem SeptetRun.log_septets (h : SeptetRun run) (hhead : run.head? ≠ some 0x80) :
    Nat.log 128 (septets run) = run.length - 1 := by
  have hlt := septets_lt run
  cases h with
  | @last byte h =>
      exact Nat.log_of_lt (by simpa using hlt)
  | @cons byte bytes h hrest =>
      have hne : byte ≠ 0x80 := by simpa using hhead
      have hbyte : byte.toNat ≠ 128 := fun heq => hne (UInt8.toNat_inj.mp heq)
      have hlt' : byte.toNat < 256 := byte.toNat_lt
      have hdigit : 1 ≤ byte.toNat % 128 := by omega
      have hle := Nat.mul_le_mul_right (128 ^ bytes.length) hdigit
      rw [List.length_cons, Nat.add_sub_cancel]
      rw [List.length_cons] at hlt
      refine Nat.log_eq_of_pow_le_of_lt_pow ?_ hlt
      rw [septets_cons]
      omega

theorem SeptetRun.eq_base128 (h : SeptetRun run) (hhead : run.head? ≠ some 0x80) :
    run = base128 (septets run) := by
  rw [base128, h.log_septets hhead]
  exact h.eq_toRun

theorem septetRun_base128 (n : Nat) : SeptetRun (base128 n) := septetRun_toRun _ n

theorem septets_base128 (n : Nat) : septets (base128 n) = n := by
  rw [base128, septets_toRun]
  exact Nat.mod_eq_of_lt (Nat.lt_pow_succ_log_self (by decide) n)

theorem head?_base128 (n : Nat) : (base128 n).head? ≠ some 0x80 := by
  unfold base128
  cases hk : Nat.log 128 n with
  | zero =>
      intro h
      have heq := congrArg UInt8.toNat (Option.some.inj h)
      rw [UInt8.toNat_ofNat'] at heq
      have h128 : (0x80 : UInt8).toNat = 128 := rfl
      omega
  | succ k =>
      have hn : n ≠ 0 := by
        rintro rfl
        simp at hk
      have hle : 128 ^ (k + 1) ≤ n := hk ▸ Nat.pow_log_le_self 128 hn
      have hlt : n < 128 ^ (k + 1) * 128 := by
        have := Nat.lt_pow_succ_log_self (b := 128) (by decide) n
        rwa [hk, pow_succ] at this
      have hpos : 1 ≤ n / 128 ^ (k + 1) := Nat.div_pos hle (Nat.pow_pos (by decide))
      have hdigit : n / 128 ^ (k + 1) < 128 := Nat.div_lt_of_lt_mul hlt
      intro h
      have heq := congrArg UInt8.toNat (Option.some.inj h)
      rw [UInt8.toNat_ofNat'] at heq
      have h128 : (0x80 : UInt8).toNat = 128 := rfl
      omega

/-- A run at the start of a byte string ends at its first byte without the high bit. -/
theorem SeptetRun.append_inj (h : SeptetRun run) (h' : SeptetRun run')
    (heq : run ++ rest = run' ++ rest') : run = run' ∧ rest = rest' := by
  induction h generalizing run' with
  | last hlast =>
      cases h' with
      | last hlast' =>
          rw [List.singleton_append, List.singleton_append] at heq
          obtain ⟨rfl, rfl⟩ := List.cons.inj heq
          exact ⟨rfl, rfl⟩
      | cons hmore hrest =>
          obtain ⟨rfl, -⟩ := List.cons.inj heq
          omega
  | cons hmore hrest ih =>
      cases h' with
      | last hlast' =>
          obtain ⟨rfl, -⟩ := List.cons.inj heq
          omega
      | cons hmore' hrest' =>
          obtain ⟨rfl, htail⟩ := List.cons.inj heq
          obtain ⟨rfl, rfl⟩ := ih hrest' htail
          exact ⟨rfl, rfl⟩

/-- A byte string is cut into runs in one way at most. -/
theorem runs_unique {runs runs' : List (List UInt8)} (h : ∀ r ∈ runs, SeptetRun r)
    (h' : ∀ r ∈ runs', SeptetRun r) (heq : runs.flatten = runs'.flatten) :
    runs = runs' := by
  induction runs generalizing runs' with
  | nil =>
      cases runs' with
      | nil => rfl
      | cons r' runs' =>
          have hpos := (h' r' List.mem_cons_self).length_pos
          have hlength := congrArg List.length heq
          simp only [List.flatten_nil, List.flatten_cons, List.length_append,
            List.length_nil] at hlength
          omega
  | cons r runs ih =>
      cases runs' with
      | nil =>
          have hpos := (h r List.mem_cons_self).length_pos
          have hlength := congrArg List.length heq
          simp only [List.flatten_nil, List.flatten_cons, List.length_append,
            List.length_nil] at hlength
          omega
      | cons r' runs' =>
          rw [List.flatten_cons, List.flatten_cons] at heq
          obtain ⟨rfl, htail⟩ := (h r List.mem_cons_self).append_inj
            (h' r' List.mem_cons_self) heq
          rw [ih (fun r hr => h r (List.mem_cons_of_mem _ hr))
            (fun r hr => h' r (List.mem_cons_of_mem _ hr)) htail]

/-! ## Object identifiers -/

/-- The content of an object identifier: its first two arcs share a run. -/
def derOid : List Nat → Option (List UInt8)
  | first :: second :: arcs =>
    if first < 2 ∧ second < 40 ∨ first = 2 then
      some (base128 (40 * first + second) ++ arcs.flatMap base128)
    else none
  | _ => none

theorem derOid_eq_some {v : List Nat} {c : List UInt8} (h : derOid v = some c) :
    ∃ first second arcs, v = first :: second :: arcs ∧
      (first < 2 ∧ second < 40 ∨ first = 2) ∧
      c = base128 (40 * first + second) ++ (arcs.map base128).flatten := by
  match v, h with
  | first :: second :: arcs, h =>
      simp only [derOid] at h
      split at h
      · next hfirst =>
          cases h
          exact ⟨first, second, arcs, rfl, hfirst, by rw [List.flatMap_def]⟩
      · cases h

/-! ## Lengths -/

/-- A length in its shortest form. -/
def derLength (n : Nat) : List UInt8 :=
  if n < 128 then [UInt8.ofNat n]
  else UInt8.ofNat (128 + (Nat.log 256 n + 1)) :: toBigEndian (Nat.log 256 n + 1) n

/-- Bytes that do not start with a zero are as few as can hold their number. -/
theorem log_bigEndian (hne : bytes ≠ []) (hhead : bytes.head? ≠ some 0) :
    Nat.log 256 (bigEndian bytes) + 1 = bytes.length := by
  cases bytes with
  | nil => exact absurd rfl hne
  | cons b bytes =>
      have hb : b.toNat ≠ 0 := fun heq =>
        hhead (congrArg some (UInt8.toNat_inj.mp heq))
      have hle := Nat.mul_le_mul_right (256 ^ bytes.length) (Nat.pos_of_ne_zero hb)
      have hlt := bigEndian_lt (b :: bytes)
      rw [List.length_cons] at hlt
      rw [List.length_cons, Nat.log_eq_of_pow_le_of_lt_pow ?_ hlt]
      rw [bigEndian_cons]
      omega

theorem head?_toBigEndian_log (hn : n ≠ 0) :
    (toBigEndian (Nat.log 256 n + 1) n).head? ≠ some 0 := by
  have hpos : 1 ≤ n / 256 ^ Nat.log 256 n :=
    Nat.div_pos (Nat.pow_log_le_self 256 hn) (Nat.pow_pos (by decide))
  have hlt : n / 256 ^ Nat.log 256 n < 256 := by
    refine Nat.div_lt_of_lt_mul ?_
    rw [← pow_succ]
    exact Nat.lt_pow_succ_log_self (by decide) n
  intro h
  have heq := congrArg UInt8.toNat (Option.some.inj h)
  rw [UInt8.toNat_ofNat'] at heq
  have h0 : (0 : UInt8).toNat = 0 := rfl
  omega

/-! ## Elements -/

/-- A tag of one byte, the length of the content and the content. -/
def derElement (tag : UInt8) (content : List UInt8) : List UInt8 :=
  tag :: (derLength content.length ++ content)

/-- Elements in elements. -/
inductive DerTree where
  | primitive (tag : UInt8) (content : List UInt8)
  | constructed (tag : UInt8) (children : List DerTree)

def DerTree.tag : DerTree → UInt8
  | .primitive tag _ => tag
  | .constructed tag _ => tag

mutual

def DerTree.content : DerTree → List UInt8
  | .primitive _ content => content
  | .constructed _ children => derContents children

def derContents : List DerTree → List UInt8
  | [] => []
  | tree :: trees => derElement tree.tag tree.content ++ derContents trees

end

def DerTree.encode (tree : DerTree) : List UInt8 := derElement tree.tag tree.content

variable {tree : DerTree} {children : List DerTree}

theorem derContents_cons :
    derContents (tree :: children) = tree.encode ++ derContents children := rfl

theorem length_derElement {tag : UInt8} :
    (derElement tag bytes).length =
      1 + (derLength bytes.length).length + bytes.length := by
  rw [derElement, List.length_cons, List.length_append]
  omega

/-- No child is longer than the elements it is among. -/
theorem length_content_le (h : tree ∈ children) :
    tree.content.length ≤ (derContents children).length := by
  induction children with
  | nil => cases h
  | cons first children ih =>
      rw [derContents_cons, List.length_append]
      obtain rfl | h := List.mem_cons.mp h
      · rw [DerTree.encode, length_derElement]
        omega
      · have := ih h
        omega

end Rutilus.Lib

/-!
## Certificates

The shape of a version 3 certificate: its fields in their order, of which the walkers of
certificates look into the extensions only. An extension is marked critical or not, and
no two extensions have the same identifier.
-/

namespace Rutilus.Lib

/-- An extension, with the encoding of its identifier. -/
structure Extension where
  id : List Nat
  idContent : List UInt8
  encodes : derOid id = some idContent
  critical : Bool
  value : List UInt8

/-- The mark is left out where it is the default. -/
def Extension.tree (extension : Extension) : DerTree :=
  .constructed 0x30
    (.primitive 0x06 extension.idContent ::
      ((if extension.critical then [.primitive 0x01 [0xFF]] else []) ++
        [.primitive 0x04 extension.value]))

structure Certificate where
  serialNumber : List UInt8
  signature : List UInt8
  issuer : List UInt8
  validity : List UInt8
  subject : List UInt8
  subjectPublicKeyInfo : List UInt8
  issuerUniqueId : Option (List UInt8)
  subjectUniqueId : Option (List UInt8)
  extensions : List Extension
  distinct : (extensions.map (·.id)).Nodup
  signatureAlgorithm : List UInt8
  signatureValue : List UInt8

namespace Certificate

variable (certificate : Certificate)

/-- The fields before the extensions. -/
def head : List DerTree :=
  [.constructed 0xA0 [.primitive 0x02 [2]], .primitive 0x02 certificate.serialNumber,
    .primitive 0x30 certificate.signature, .primitive 0x30 certificate.issuer,
    .primitive 0x30 certificate.validity, .primitive 0x30 certificate.subject,
    .primitive 0x30 certificate.subjectPublicKeyInfo] ++
  certificate.issuerUniqueId.toList.map (.primitive 0x81) ++
  certificate.subjectUniqueId.toList.map (.primitive 0x82)

def extensionSequence : DerTree :=
  .constructed 0x30 (certificate.extensions.map Extension.tree)

def toBeSigned : DerTree :=
  .constructed 0x30
    (certificate.head ++ [.constructed 0xA3 [certificate.extensionSequence]])

def tree : DerTree :=
  .constructed 0x30
    [certificate.toBeSigned, .primitive 0x30 certificate.signatureAlgorithm,
      .primitive 0x03 certificate.signatureValue]

def encode : List UInt8 := certificate.tree.encode

end Certificate

end Rutilus.Lib
