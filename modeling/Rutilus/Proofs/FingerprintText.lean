import Rutilus.Domain.Endpoint
import Rutilus.Lib.Ascii
import Rutilus.Lib.Outcome

/-!
# The text of a fingerprint

The text of a fingerprint is 32 groups of two hex digits with colons between them.
The parser reads the bytes of a text at computed places: a text of another length is
refused before, so every place is inside. In UTF-8 only an ASCII text has the bytes of
hex digits and colons, so what is accepted is such a text, and it is printed in
capitals.
-/

namespace Rutilus.Proofs.FingerprintText

open Rutilus.Domain Rutilus.Domain.Endpoint Rutilus.Lib Rutilus.Lib.Ascii

/-! ## Digits -/

/-- The hex digits, in either case. -/
def hexDigits : List Char := "0123456789abcdefABCDEF".toList

theorem hexDigits_ascii {c : Char} (h : c ∈ hexDigits) : c.toNat < 128 := by
  have hall : hexDigits.all (fun c => decide (c.toNat < 128)) = true := by decide
  simpa using List.all_eq_true.mp hall c h

/-- What a digit stands for. -/
def digitOf (c : Char) : UInt8 := (decodeHex (byteOf c)).getD 0

theorem decodeHex_digit {c : Char} (h : c ∈ hexDigits) :
    decodeHex (byteOf c) = some (digitOf c) := by
  have hall : hexDigits.all (fun c =>
      decide (decodeHex (byteOf c) = some (digitOf c))) = true := by
    decide +kernel
  simpa using List.all_eq_true.mp hall c h

/-- A byte that is read as a digit is the byte of one. -/
theorem digit_of_decodeHex {byte value : UInt8} (h : decodeHex byte = some value) :
    ∃ c ∈ hexDigits, byte = byteOf c := by
  have hall : ∀ n : Fin 256, (decodeHex (UInt8.ofNat n.val)).isSome = true →
      hexDigits.any (fun c => decide (UInt8.ofNat n.val = byteOf c)) = true := by
    decide +kernel
  have hbyte : UInt8.ofNat byte.toNat = byte := UInt8.ofNat_toNat
  have hany := hall ⟨byte.toNat, byte.toNat_lt⟩ (by
    show (decodeHex (UInt8.ofNat byte.toNat)).isSome = true
    rw [hbyte, h]
    rfl)
  obtain ⟨c, hc, heq⟩ := List.any_eq_true.mp hany
  have heq : UInt8.ofNat byte.toNat = byteOf c := of_decide_eq_true heq
  exact ⟨c, hc, hbyte ▸ heq⟩

/-! ## Groups -/

/-- Two digits. -/
abbrev Group : Type := Char × Char

def IsHex (group : Group) : Prop := group.1 ∈ hexDigits ∧ group.2 ∈ hexDigits

/-- The byte of two digits. -/
def byteOfGroup (group : Group) : UInt8 := digitOf group.1 <<< 4 ||| digitOf group.2

/-- The digits of a byte in capitals. -/
theorem upperHex_byteOfGroup {group : Group} (h : IsHex group) :
    upperHex (byteOfGroup group) = [group.1.toUpper, group.2.toUpper] := by
  have hall : hexDigits.all (fun high => hexDigits.all fun low =>
      decide (upperHex (byteOfGroup (high, low)) = [high.toUpper, low.toUpper])) =
        true := by
    decide +kernel
  have hhigh := List.all_eq_true.mp hall group.1 h.1
  exact of_decide_eq_true (List.all_eq_true.mp hhigh group.2 h.2)

/-- The group a byte is printed as. -/
def groupOf (byte : UInt8) : Group :=
  let digits := "0123456789ABCDEF".toList
  (digits.getD (byte.toNat / 16) '0', digits.getD (byte.toNat % 16) '0')

theorem groupOf_spec (byte : UInt8) :
    IsHex (groupOf byte) ∧ byteOfGroup (groupOf byte) = byte := by
  have hall : ∀ n : Fin 256, ((groupOf (UInt8.ofNat n.val)).1 ∈ hexDigits ∧
      (groupOf (UInt8.ofNat n.val)).2 ∈ hexDigits) ∧
      byteOfGroup (groupOf (UInt8.ofNat n.val)) = UInt8.ofNat n.val := by
    decide +kernel
  have hbyte := hall ⟨byte.toNat, byte.toNat_lt⟩
  rw [UInt8.ofNat_toNat] at hbyte
  exact hbyte

/-- The characters of a group. -/
def chars (group : Group) : List Char := [group.1, group.2]

theorem upperHex_eq (byte : UInt8) : upperHex byte = chars (groupOf byte) := rfl

/-- The groups with colons between them. -/
def joined (groups : List Group) : List Char := [':'].intercalate (groups.map chars)

theorem joined_cons (group : Group) (groups : List Group) :
    joined (group :: groups) =
      chars group ++ groups.flatMap fun g => ':' :: chars g := by
  unfold joined
  induction groups generalizing group with
  | nil => simp
  | cons next groups ih =>
      rw [List.map_cons, List.map_cons, List.intercalate_cons_cons, ← List.map_cons,
        ih next, List.flatMap_cons]
      simp

theorem joined_ascii {groups : List Group} (h : ∀ g ∈ groups, IsHex g) :
    ∀ c ∈ joined groups, c.toNat < 128 := by
  have hchars : ∀ g ∈ groups, ∀ c ∈ chars g, c.toNat < 128 := by
    intro g hg c hc
    rcases List.mem_cons.mp hc with rfl | hc
    · exact hexDigits_ascii (h g hg).1
    · rw [List.mem_singleton.mp hc]
      exact hexDigits_ascii (h g hg).2
  cases groups with
  | nil => exact nofun
  | cons group groups =>
      intro c hc
      rw [joined_cons] at hc
      rcases List.mem_append.mp hc with hc | hc
      · exact hchars group (.head _) c hc
      · obtain ⟨g, hg, hc⟩ := List.mem_flatMap.mp hc
        rcases List.mem_cons.mp hc with rfl | hc
        · decide
        · exact hchars g (.tail _ hg) c hc

/-- The text is that of the groups. -/
structure IsText (value : String) (groups : List Group) : Prop where
  length_eq : groups.length = fingerprintLength
  hex : ∀ g ∈ groups, IsHex g
  text : value.toList = joined groups

/-! ## Reading one group -/

/-- What two bytes are read as. -/
def readDigits (high low : UInt8) : Option UInt8 := do
  let x ← decodeHex high
  let y ← decodeHex low
  return x <<< 4 ||| y

theorem readDigits_some_iff {high low byte : UInt8} :
    readDigits high low = some byte ↔
      ∃ group, IsHex group ∧ [high, low] = (chars group).map byteOf ∧
        byteOfGroup group = byte := by
  constructor
  · intro h
    obtain ⟨x, hx, h⟩ := Option.bind_eq_some_iff.mp h
    obtain ⟨y, hy, h⟩ := Option.bind_eq_some_iff.mp h
    obtain ⟨c, hc, rfl⟩ := digit_of_decodeHex hx
    obtain ⟨d, hd, rfl⟩ := digit_of_decodeHex hy
    cases (decodeHex_digit hc).symm.trans hx
    cases (decodeHex_digit hd).symm.trans hy
    exact ⟨(c, d), ⟨hc, hd⟩, rfl, Option.some.inj h⟩
  · rintro ⟨⟨c, d⟩, ⟨hc, hd⟩, hbytes, rfl⟩
    obtain ⟨rfl, hrest⟩ := List.cons.inj hbytes
    obtain ⟨rfl, -⟩ := List.cons.inj hrest
    unfold readDigits
    rw [decodeHex_digit hc, decodeHex_digit hd]
    rfl

theorem byteAt_of_some {encoded : List UInt8} {index : Nat} {byte : UInt8}
    (h : encoded[index]? = some byte) : byteAt encoded index = .ok byte := by
  unfold byteAt
  rw [h]

/-- A group inside the text is read from its bytes. -/
theorem decodeGroup_eq {encoded : List UInt8} {index : Nat} {mark high low : UInt8}
    (hmark : 0 < index → encoded[index * 3 - 1]? = some mark)
    (hhigh : encoded[index * 3]? = some high)
    (hlow : encoded[index * 3 + 1]? = some low) :
    decodeGroup encoded index =
      if 0 < index ∧ mark ≠ 0x3A then .error (.refused .invalidEncoding)
      else match readDigits high low with
        | none => .error (.refused .invalidEncoding)
        | some byte => .ok byte := by
  unfold decodeGroup readDigits
  dsimp only
  rw [byteAt_of_some hhigh, byteAt_of_some hlow]
  by_cases hindex : 0 < index
  · rw [if_pos hindex, byteAt_of_some (hmark hindex)]
    show (if mark ≠ 0x3A then _ else _) = _
    by_cases hcolon : mark = 0x3A
    · rw [if_neg (not_not.mpr hcolon), if_neg fun h => h.2 hcolon]
      cases hx : decodeHex high <;> cases hy : decodeHex low <;>
        simp [bind, Except.bind, hx, hy] <;> rfl
    · rw [if_pos hcolon, if_pos ⟨hindex, hcolon⟩]
      rfl
  · rw [if_neg hindex, if_neg fun h => hindex h.1]
    cases hx : decodeHex high <;> cases hy : decodeHex low <;>
      simp [bind, Except.bind, hx, hy] <;> rfl

/-! ## Reading the text -/

theorem exists_three {bytes : List UInt8} {m : Nat}
    (h : bytes.length = (m + 1) * 3) :
    ∃ mark high low rest, bytes = mark :: high :: low :: rest ∧
      rest.length = m * 3 := by
  match bytes, h with
  | [], h | [_], h | [_, _], h =>
      simp only [List.length_cons, List.length_nil] at h
      omega
  | mark :: high :: low :: rest, h =>
      refine ⟨mark, high, low, rest, rfl, ?_⟩
      simp only [List.length_cons] at h
      omega

/-- A group with its colon is read after what comes before. -/
theorem decodeGroup_next {before after : List UInt8} {k : Nat} {mark high low : UInt8}
    (hk : 0 < k) (hbefore : before.length + 1 = k * 3) :
    decodeGroup (before ++ mark :: high :: low :: after) k =
      if mark ≠ 0x3A then .error (.refused .invalidEncoding)
      else match readDigits high low with
        | none => .error (.refused .invalidEncoding)
        | some byte => .ok byte := by
  have hat : ∀ i, (before ++ mark :: high :: low :: after)[before.length + i]? =
      (mark :: high :: low :: after)[i]? := fun i => by
    rw [List.getElem?_append_right (Nat.le_add_right _ _), Nat.add_sub_cancel_left]
  have hmark := hat 0
  have hhigh := hat 1
  have hlow := hat 2
  rw [show before.length + 0 = k * 3 - 1 by omega] at hmark
  rw [hbefore] at hhigh
  rw [show before.length + 2 = k * 3 + 1 by omega] at hlow
  rw [decodeGroup_eq (fun _ => hmark) hhigh hlow]
  by_cases hcolon : mark = 0x3A
  · rw [if_neg fun h => h.2 hcolon, if_neg (not_not.mpr hcolon)]
  · rw [if_pos ⟨hk, hcolon⟩, if_pos hcolon]

theorem decodeGroup_next_ok_iff {before after : List UInt8} {k : Nat}
    {mark high low byte : UInt8} (hk : 0 < k) (hbefore : before.length + 1 = k * 3) :
    decodeGroup (before ++ mark :: high :: low :: after) k = .ok byte ↔
      mark = 0x3A ∧ readDigits high low = some byte := by
  rw [decodeGroup_next hk hbefore]
  by_cases hcolon : mark = 0x3A
  · rw [if_neg (not_not.mpr hcolon)]
    cases readDigits high low <;> simp [hcolon]
  · rw [if_pos hcolon]
    exact ⟨nofun, fun h => absurd h.1 hcolon⟩

/-- The groups after the first are read with their colons. -/
theorem tail_ok_iff {m k : Nat} {before after decoded : List UInt8} (hk : 0 < k)
    (hbefore : before.length + 1 = k * 3) (hafter : after.length = m * 3) :
    (List.range' k m).mapM (decodeGroup (before ++ after)) = .ok decoded ↔
      ∃ groups : List Group, groups.length = m ∧ (∀ g ∈ groups, IsHex g) ∧
        after = (groups.flatMap fun g => ':' :: chars g).map byteOf ∧
        groups.map byteOfGroup = decoded := by
  induction m generalizing k before after decoded with
  | zero =>
      cases List.eq_nil_of_length_eq_zero (hafter.trans (Nat.zero_mul 3))
      constructor
      · intro h
        cases h
        exact ⟨[], rfl, nofun, rfl, rfl⟩
      · rintro ⟨groups, hlength, -, -, rfl⟩
        cases List.eq_nil_of_length_eq_zero hlength
        rfl
  | succ m ih =>
      obtain ⟨mark, high, low, rest, rfl, hrest⟩ := exists_three hafter
      have hnext : (before ++ [mark, high, low]).length + 1 = (k + 1) * 3 := by
        simp only [List.length_append, List.length_cons, List.length_nil]
        omega
      have hsplit : before ++ mark :: high :: low :: rest =
          (before ++ [mark, high, low]) ++ rest := by simp
      have hih := fun d => @ih (k + 1) _ _ d (Nat.succ_pos k) hnext hrest
      rw [List.range'_succ, List.mapM_cons]
      constructor
      · intro h
        obtain ⟨byte, hbyte, h⟩ := bind_ok h
        obtain ⟨bytes, hbytes, h⟩ := bind_ok h
        cases h
        obtain ⟨rfl, hdigits⟩ := (decodeGroup_next_ok_iff hk hbefore).mp hbyte
        obtain ⟨group, hhex, hchars, rfl⟩ := readDigits_some_iff.mp hdigits
        rw [hsplit] at hbytes
        obtain ⟨groups, hlength, hall, rfl, rfl⟩ := (hih _).mp hbytes
        refine ⟨group :: groups, congrArg Nat.succ hlength, ?_, ?_, rfl⟩
        · intro g hg
          rcases List.mem_cons.mp hg with rfl | hg
          · exact hhex
          · exact hall g hg
        · obtain ⟨rfl, hlow⟩ := List.cons.inj hchars
          obtain ⟨rfl, -⟩ := List.cons.inj hlow
          rfl
      · rintro ⟨groups, hlength, hall, hbytes, rfl⟩
        obtain ⟨group, groups, rfl⟩ := List.exists_cons_of_length_eq_add_one hlength
        obtain ⟨hmark, hbytes⟩ := List.cons.inj hbytes
        obtain ⟨hhigh, hbytes⟩ := List.cons.inj hbytes
        obtain ⟨hlow, hbytes⟩ := List.cons.inj hbytes
        have hchars : [high, low] = (chars group).map byteOf := by
          rw [hhigh, hlow]
          rfl
        have hgroup : decodeGroup (before ++ mark :: high :: low :: rest) k =
            .ok (byteOfGroup group) :=
          (decodeGroup_next_ok_iff hk hbefore).mpr ⟨hmark,
            readDigits_some_iff.mpr ⟨group, hall group (.head _), hchars, rfl⟩⟩
        have htail := (hih _).mpr ⟨groups, Nat.succ.inj hlength,
          fun g hg => hall g (.tail _ hg), hbytes, rfl⟩
        rw [← hsplit] at htail
        rw [hgroup, htail]
        rfl

/-- The first group has no colon before it. -/
theorem decodeGroup_first {after : List UInt8} {high low : UInt8} :
    decodeGroup (high :: low :: after) 0 =
      match readDigits high low with
        | none => .error (.refused .invalidEncoding)
        | some byte => .ok byte :=
  @decodeGroup_eq _ 0 0 high low nofun rfl rfl

/-- The bytes of a text are read where they are those of groups with colons. -/
theorem groups_ok_iff {m : Nat} {encoded decoded : List UInt8}
    (hlength : encoded.length + 1 = (m + 1) * 3) :
    (List.range (m + 1)).mapM (decodeGroup encoded) = .ok decoded ↔
      ∃ groups : List Group, groups.length = m + 1 ∧ (∀ g ∈ groups, IsHex g) ∧
        encoded = (joined groups).map byteOf ∧
        groups.map byteOfGroup = decoded := by
  obtain ⟨high, low, rest, rfl, hrest⟩ :
      ∃ high low rest, encoded = high :: low :: rest ∧ rest.length = m * 3 := by
    have hmarked : ((0 : UInt8) :: encoded).length = (m + 1) * 3 := hlength
    obtain ⟨mark, high, low, rest, heq, hrest⟩ := exists_three hmarked
    exact ⟨high, low, rest, (List.cons.inj heq).2, hrest⟩
  have htail := fun d => @tail_ok_iff m 1 [high, low] rest d Nat.one_pos rfl hrest
  have hfirst := @decodeGroup_first rest high low
  rw [List.range_eq_range', List.range'_succ, List.mapM_cons, hfirst]
  constructor
  · intro h
    obtain ⟨byte, hbyte, h⟩ := bind_ok h
    obtain ⟨bytes, hbytes, h⟩ := bind_ok h
    cases h
    obtain ⟨groups, hcount, hall, rfl, rfl⟩ := (htail _).mp hbytes
    split at hbyte
    · cases hbyte
    · next hdigits =>
        cases hbyte
        obtain ⟨group, hhex, hchars, rfl⟩ := readDigits_some_iff.mp hdigits
        refine ⟨group :: groups, congrArg Nat.succ hcount, ?_, ?_, rfl⟩
        · intro g hg
          rcases List.mem_cons.mp hg with rfl | hg
          · exact hhex
          · exact hall g hg
        · rw [joined_cons, List.map_append, ← hchars]
          rfl
  · rintro ⟨groups, hcount, hall, hbytes, rfl⟩
    obtain ⟨group, groups, rfl⟩ := List.exists_cons_of_length_eq_add_one hcount
    rw [joined_cons] at hbytes
    obtain ⟨hhigh, hbytes⟩ := List.cons.inj hbytes
    obtain ⟨hlow, hbytes⟩ := List.cons.inj hbytes
    have hchars : [high, low] = (chars group).map byteOf := by
      rw [hhigh, hlow]
      rfl
    have hgroups : (List.range' (0 + 1) m).mapM (decodeGroup (high :: low :: rest)) =
        .ok (groups.map byteOfGroup) :=
      (htail _).mpr ⟨groups, Nat.succ.inj hcount,
        fun g hg => hall g (.tail _ hg), hbytes, rfl⟩
    rw [readDigits_some_iff.mpr ⟨group, hall group (.head _), hchars, rfl⟩, hgroups]
    rfl

/-! ## The codec -/

/-- The text of 32 groups is 95 bytes long. -/
theorem joined_length {groups : List Group} {m : Nat} (h : groups.length = m + 1) :
    (joined groups).length = (m + 1) * 3 - 1 := by
  obtain ⟨group, groups, rfl⟩ := List.exists_cons_of_length_eq_add_one h
  have hsum : ∀ gs : List Group,
      (gs.flatMap fun g => ':' :: chars g).length = gs.length * 3 := by
    intro gs
    induction gs with
    | nil => rfl
    | cons g gs ih =>
        rw [List.flatMap_cons, List.length_append, ih]
        show 3 + gs.length * 3 = (gs.length + 1) * 3
        omega
  rw [joined_cons, List.length_append, hsum, Nat.succ.inj h]
  show 2 + _ = _
  omega

/-- The accepted texts, and the bytes they are read as. -/
theorem fromStr_ok_iff {value : String}
    {fingerprint : Endpoint.CertificateFingerprint} :
    CertificateFingerprint.fromStr value = .ok fingerprint ↔
      ∃ groups, IsText value groups ∧ groups.map byteOfGroup = fingerprint.bytes := by
  unfold CertificateFingerprint.fromStr
  dsimp only
  constructor
  · intro h
    split at h
    · cases h
    next hlength =>
    split at h
    · cases h
    next decoded hdecoded =>
    cases h
    have hlength := not_not.mp hlength
    obtain ⟨groups, hcount, hall, htext, hbytes⟩ :=
      (groups_ok_iff (m := 31) (congrArg Nat.succ hlength)).mp hdecoded
    exact ⟨groups, ⟨hcount, hall, (utf8_eq_iff (joined_ascii hall)).mp htext⟩, hbytes⟩
  · rintro ⟨groups, ⟨hcount, hall, htext⟩, hbytes⟩
    have hencoded := (utf8_eq_iff (joined_ascii hall)).mpr htext
    have hlength : (value.toList.flatMap String.utf8EncodeChar).length =
        fingerprintTextLength := by
      rw [hencoded, List.length_map, joined_length hcount]
      rfl
    rw [if_neg (not_not.mpr hlength)]
    have hread : (List.range fingerprintLength).mapM (decodeGroup _) =
        .ok fingerprint.bytes :=
      (groups_ok_iff (m := 31) (congrArg Nat.succ hlength)).mpr
        ⟨groups, hcount, hall, hencoded, hbytes⟩
    split
    · next stop hstop =>
        cases hread.symm.trans hstop
    · next decoded hdecoded =>
        cases hread.symm.trans hdecoded
        rfl

/-- Capitals leave the colons and the number of groups. -/
theorem joined_upper (groups : List Group) :
    (joined groups).map Char.toUpper =
      joined (groups.map fun g => (g.1.toUpper, g.2.toUpper)) := by
  cases groups with
  | nil => rfl
  | cons group groups =>
      have htail : ∀ gs : List Group,
          (gs.flatMap fun g => ':' :: chars g).map Char.toUpper =
            (gs.map fun g => (g.1.toUpper, g.2.toUpper)).flatMap
              fun g => ':' :: chars g := by
        intro gs
        induction gs with
        | nil => rfl
        | cons g gs ih =>
            rw [List.flatMap_cons, List.map_append, ih]
            rfl
      rw [joined_cons, List.map_append, htail, List.map_cons, joined_cons]
      rfl

/-- The displayed text is that of the groups of its bytes. -/
theorem toString_toList (fingerprint : Endpoint.CertificateFingerprint) :
    fingerprint.toString.toList = joined (fingerprint.bytes.map groupOf) := by
  unfold CertificateFingerprint.toString joined
  rw [String.toList_ofList, List.map_map]
  rfl

theorem fromStr_toString (fingerprint : Endpoint.CertificateFingerprint) :
    CertificateFingerprint.fromStr fingerprint.toString = .ok fingerprint := by
  refine fromStr_ok_iff.mpr ⟨fingerprint.bytes.map groupOf, ⟨?_, ?_, ?_⟩, ?_⟩
  · rw [List.length_map]
    exact fingerprint.length_eq
  · intro g hg
    obtain ⟨byte, -, rfl⟩ := List.mem_map.mp hg
    exact (groupOf_spec byte).1
  · exact toString_toList fingerprint
  · rw [List.map_map]
    exact (List.map_congr_left fun byte _ => (groupOf_spec byte).2).trans
      (List.map_id _)

theorem toString_fromStr {value : String}
    {fingerprint : Endpoint.CertificateFingerprint}
    (h : CertificateFingerprint.fromStr value = .ok fingerprint) :
    fingerprint.toString.toList = value.toList.map Char.toUpper := by
  obtain ⟨groups, ⟨-, hall, htext⟩, hbytes⟩ := fromStr_ok_iff.mp h
  rw [toString_toList, ← hbytes, htext, joined_upper, List.map_map]
  refine congrArg joined (List.map_congr_left fun g hg => ?_)
  have hupper := upperHex_byteOfGroup (hall g hg)
  rw [upperHex_eq] at hupper
  obtain ⟨hhigh, hlow⟩ := List.cons.inj hupper
  exact Prod.ext hhigh (List.cons.inj hlow).1

/-- Inside a text of the expected length no byte is missing. -/
theorem decodeGroup_in_range {encoded : List UInt8} {index : Nat}
    (hlength : encoded.length = fingerprintTextLength) (hindex : index < 32) :
    decodeGroup encoded index ≠ .error .outOfRange := by
  have hat : ∀ i, i < 95 → ∃ byte, encoded[i]? = some byte := fun i hi =>
    ⟨_, List.getElem?_eq_getElem (hlength ▸ hi)⟩
  obtain ⟨mark, hmark⟩ := hat (index * 3 - 1) (by omega)
  obtain ⟨high, hhigh⟩ := hat (index * 3) (by omega)
  obtain ⟨low, hlow⟩ := hat (index * 3 + 1) (by omega)
  rw [decodeGroup_eq (fun _ => hmark) hhigh hlow]
  split
  · nofun
  · split <;> nofun

/-- An error of a list of steps is that of one of them. -/
theorem exists_of_mapM_error {ε α β : Type} {f : α → Except ε β} {xs : List α} {e : ε}
    (h : xs.mapM f = .error e) : ∃ x ∈ xs, f x = .error e := by
  induction xs with
  | nil => cases h
  | cons x xs ih =>
      rw [List.mapM_cons] at h
      cases hx : f x with
      | error e' =>
          rw [hx] at h
          cases h
          exact ⟨x, .head _, hx⟩
      | ok y =>
          rw [hx] at h
          cases hxs : xs.mapM f with
          | ok ys =>
              rw [hxs] at h
              cases h
          | error e' =>
              rw [hxs] at h
              cases h
              obtain ⟨z, hz, herror⟩ := ih hxs
              exact ⟨z, .tail _ hz, herror⟩

theorem fromStr_in_range (value : String) :
    CertificateFingerprint.fromStr value ≠ .error .outOfRange := by
  unfold CertificateFingerprint.fromStr
  dsimp only
  split
  · nofun
  next hlength =>
  split
  · next stop hstop =>
      obtain ⟨index, hindex, herror⟩ := exists_of_mapM_error hstop
      have hin := decodeGroup_in_range (not_not.mp hlength) (List.mem_range.mp hindex)
      intro h
      cases h
      exact hin herror
  · nofun

/-- A displayed fingerprint is read back. Exactly the texts of 32 groups with colons
are read, each is displayed again in capitals, and no text is read past its end. -/
theorem fingerprint_codec :
    (∀ fingerprint : Endpoint.CertificateFingerprint,
      CertificateFingerprint.fromStr fingerprint.toString = .ok fingerprint) ∧
    (∀ value, (∃ fingerprint, CertificateFingerprint.fromStr value = .ok fingerprint) ↔
      ∃ groups, IsText value groups) ∧
    (∀ value fingerprint, CertificateFingerprint.fromStr value = .ok fingerprint →
      fingerprint.toString.toList = value.toList.map Char.toUpper) ∧
    ∀ value, CertificateFingerprint.fromStr value ≠ .error .outOfRange := by
  refine ⟨fromStr_toString, fun value => ⟨?_, ?_⟩, fun _ _ => toString_fromStr,
    fromStr_in_range⟩
  · rintro ⟨fingerprint, h⟩
    obtain ⟨groups, htext, -⟩ := fromStr_ok_iff.mp h
    exact ⟨groups, htext⟩
  · rintro ⟨groups, htext⟩
    have hlength : (groups.map byteOfGroup).length = fingerprintLength := by
      rw [List.length_map, htext.length_eq]
    exact ⟨⟨groups.map byteOfGroup, hlength⟩, fromStr_ok_iff.mpr ⟨groups, htext, rfl⟩⟩

end Rutilus.Proofs.FingerprintText
