import Mathlib.Data.List.Basic

/-!
# ASCII texts and their bytes

In UTF-8 an ASCII character is the one byte of its number, and every other character
starts with a byte above. So a text whose bytes are those of an ASCII text is that text.
-/

namespace Rutilus.Lib.Ascii

/-- The byte of an ASCII character. -/
def byteOf (c : Char) : UInt8 := UInt8.ofNat c.toNat

theorem toNat_byteOf {c : Char} (h : c.toNat < 128) : (byteOf c).toNat = c.toNat :=
  Nat.mod_eq_of_lt (Nat.lt_trans h (by decide))

theorem byteOf_inj {c d : Char} (hc : c.toNat < 128) (hd : d.toNat < 128)
    (h : byteOf c = byteOf d) : c = d := by
  have hnat : c.toNat = d.toNat := by
    rw [← toNat_byteOf hc, ← toNat_byteOf hd, h]
  rw [← Char.ofNat_toNat c, ← Char.ofNat_toNat d, hnat]

theorem utf8EncodeChar_ascii {c : Char} (h : c.toNat < 128) :
    String.utf8EncodeChar c = [byteOf c] :=
  if_pos (Nat.le_of_lt_succ h)

theorem utf8EncodeChar_high {c : Char} (h : 128 ≤ c.toNat) :
    ∃ b rest, String.utf8EncodeChar c = b :: rest ∧ 128 ≤ b.toNat := by
  have hlow : ¬ c.val.toNat ≤ 0x7f := Nat.not_le.mpr h
  unfold String.utf8EncodeChar
  dsimp only
  rw [if_neg hlow]
  split
  · refine ⟨_, _, rfl, ?_⟩
    rw [UInt8.toNat_ofNat']
    omega
  split
  · refine ⟨_, _, rfl, ?_⟩
    rw [UInt8.toNat_ofNat']
    omega
  · refine ⟨_, _, rfl, ?_⟩
    rw [UInt8.toNat_ofNat']
    omega

theorem utf8_ascii {ascii : List Char} (h : ∀ c ∈ ascii, c.toNat < 128) :
    ascii.flatMap String.utf8EncodeChar = ascii.map byteOf := by
  induction ascii with
  | nil => rfl
  | cons c cs ih =>
      rw [List.flatMap_cons, utf8EncodeChar_ascii (h c (.head _)), List.map_cons,
        ih fun d hd => h d (.tail _ hd)]
      rfl

/-- A text is known by its bytes where they are ASCII. -/
theorem utf8_eq_iff {text ascii : List Char} (h : ∀ c ∈ ascii, c.toNat < 128) :
    text.flatMap String.utf8EncodeChar = ascii.map byteOf ↔ text = ascii := by
  refine ⟨fun heq => ?_, ?_⟩
  swap
  · rintro rfl
    exact utf8_ascii h
  induction text generalizing ascii with
  | nil =>
      cases ascii with
      | nil => rfl
      | cons c cs => cases heq
  | cons d text ih =>
      rw [List.flatMap_cons] at heq
      by_cases hd : d.toNat < 128
      · rw [utf8EncodeChar_ascii hd, List.singleton_append] at heq
        cases ascii with
        | nil => cases heq
        | cons c cs =>
            obtain ⟨hhead, htail⟩ := List.cons.inj heq
            rw [byteOf_inj hd (h c (.head _)) hhead,
              ih (fun e he => h e (.tail _ he)) htail]
      · obtain ⟨b, rest, hbytes, hhigh⟩ := utf8EncodeChar_high (Nat.not_lt.mp hd)
        rw [hbytes, List.cons_append] at heq
        cases ascii with
        | nil => cases heq
        | cons c cs =>
            have hhead := (List.cons.inj heq).1
            rw [hhead, toNat_byteOf (h c (.head _))] at hhigh
            exact absurd (h c (.head _)) (Nat.not_lt.mpr hhigh)

end Rutilus.Lib.Ascii
