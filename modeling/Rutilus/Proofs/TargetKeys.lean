import Mathlib.Algebra.Group.Nat.Defs
import Rutilus.App.CenterDispatch

/-!
# When two targets have one key

The key of a target is text, but what a target decodes to may be no text. The
conversion puts one character for each ill-formed sequence, so the key forgets which
one it was. Cutting the bytes into the pieces that one character stands for shows
that it forgets nothing else.
-/

namespace Rutilus.Proofs.TargetKeys

open Rutilus.App.CenterDispatch

/-! ## The bytes of a target -/

def toAsciiLowercase (byte : UInt8) : UInt8 :=
  if 0x41 ≤ byte ∧ byte ≤ 0x5A then byte + 0x20 else byte

/-- Decoded, in lower case, without trailing slashes. -/
def targetBytes (target : String) : List UInt8 :=
  ((percentDecode (target.toList.flatMap String.utf8EncodeChar)).map
    toAsciiLowercase).rdropWhile (· = 0x2F)

/-! ## Pieces -/

/-- How many of the bytes after a first one belong to the same character, and whether
they complete it. -/
def cut (a : UInt8) (rest : List UInt8) : Nat × Bool :=
  if a < 0x80 then (0, true)
  else if 0xC2 ≤ a ∧ a ≤ 0xDF then match rest with
    | b :: _ => if isContinuation b then (1, true) else (0, false)
    | [] => (0, false)
  else if 0xE0 ≤ a ∧ a ≤ 0xEF then match rest with
    | b :: rest =>
      if isSecondOfThree a b then match rest with
        | c :: _ => if isContinuation c then (2, true) else (1, false)
        | [] => (1, false)
      else (0, false)
    | [] => (0, false)
  else if 0xF0 ≤ a ∧ a ≤ 0xF4 then match rest with
    | b :: rest =>
      if isSecondOfFour a b then match rest with
        | c :: rest =>
          if isContinuation c then match rest with
            | d :: _ => if isContinuation d then (3, true) else (2, false)
            | [] => (2, false)
          else (1, false)
        | [] => (1, false)
      else (0, false)
    | [] => (0, false)
  else (0, false)

/-- What one character of the text stands for. -/
structure Piece where
  bytes : List UInt8
  wellFormed : Bool
  deriving DecidableEq, Repr

def pieceAt (a : UInt8) (rest : List UInt8) : Piece :=
  ⟨a :: rest.take (cut a rest).1, (cut a rest).2⟩

def pieces : List UInt8 → List Piece
  | [] => []
  | a :: rest => pieceAt a rest :: pieces (rest.drop (cut a rest).1)
termination_by bytes => bytes.length
decreasing_by
  rw [List.length_drop, List.length_cons]
  omega

/-- The number a well-formed sequence encodes. -/
def codePoint : List UInt8 → Nat
  | [a] => a.toNat
  | [a, b] => (a.toNat - 192) * 64 + (b.toNat - 128)
  | [a, b, c] =>
      ((a.toNat - 224) * 64 + (b.toNat - 128)) * 64 + (c.toNat - 128)
  | [a, b, c, d] =>
      (((a.toNat - 240) * 64 + (b.toNat - 128)) * 64 + (c.toNat - 128)) * 64 +
        (d.toNat - 128)
  | _ => 0

section

variable {a b c d : UInt8}

theorem codePoint_one : codePoint [a] = a.toNat := rfl

theorem codePoint_two :
    codePoint [a, b] = (a.toNat - 192) * 64 + (b.toNat - 128) := rfl

theorem codePoint_three : codePoint [a, b, c] =
    ((a.toNat - 224) * 64 + (b.toNat - 128)) * 64 + (c.toNat - 128) := rfl

theorem codePoint_four : codePoint [a, b, c, d] =
    (((a.toNat - 240) * 64 + (b.toNat - 128)) * 64 + (c.toNat - 128)) * 64 +
      (d.toNat - 128) := rfl

end

def Piece.char (p : Piece) : Char :=
  if p.wellFormed then Char.ofNat (codePoint p.bytes) else replacement

/-- A piece that reads as the replacement character. -/
def Piece.Blurred (p : Piece) : Prop :=
  p.wellFormed = false ∨ p.bytes = [0xEF, 0xBF, 0xBD]

/-- Two byte strings that differ, and only in what reads as the replacement
character. -/
def DifferBlurred (x y : List UInt8) : Prop :=
  x ≠ y ∧ List.Forall₂ (fun p q => p = q ∨ p.Blurred ∧ q.Blurred)
    (pieces x) (pieces y)

/-! ## Bytes as numbers -/

theorem and_mask (a : UInt8) (k : Nat) (hk : 2 ^ k - 1 < 256) :
    (a &&& UInt8.ofNat (2 ^ k - 1)).toNat = a.toNat % 2 ^ k := by
  rw [UInt8.toNat_and, UInt8.toNat_ofNat', Nat.mod_eq_of_lt hk,
    Nat.and_two_pow_sub_one_eq_mod]

theorem isContinuation_iff {b : UInt8} :
    isContinuation b = true ↔ 128 ≤ b.toNat ∧ b.toNat < 192 := by
  have hall : ∀ n, n < 256 → ((UInt8.ofNat n &&& 0xC0 = 0x80) ↔
      128 ≤ n ∧ n < 192) := by decide +kernel
  have := hall b.toNat (UInt8.toNat_lt b)
  rw [UInt8.ofNat_toNat] at this
  unfold isContinuation
  rw [decide_eq_true_iff, this]

theorem isSecondOfThree_iff {a b : UInt8} :
    isSecondOfThree a b = true ↔ 128 ≤ b.toNat ∧ b.toNat < 192 ∧
      (a.toNat = 0xE0 → 160 ≤ b.toNat) ∧ (a.toNat = 0xED → b.toNat < 160) := by
  unfold isSecondOfThree
  split
  · next ha =>
      subst ha
      simp [UInt8.le_iff_toNat_le]
      omega
  · next ha =>
      split
      · next hd =>
          subst hd
          simp [UInt8.le_iff_toNat_le]
          omega
      · next hd =>
          rw [← UInt8.toNat_inj] at ha hd
          rw [isContinuation_iff]
          simp at ha hd
          simp [ha, hd]

theorem isSecondOfFour_iff {a b : UInt8} :
    isSecondOfFour a b = true ↔ 128 ≤ b.toNat ∧ b.toNat < 192 ∧
      (a.toNat = 0xF0 → 144 ≤ b.toNat) ∧ (a.toNat = 0xF4 → b.toNat < 144) := by
  unfold isSecondOfFour
  split
  · next ha =>
      subst ha
      simp [UInt8.le_iff_toNat_le]
      omega
  · next ha =>
      split
      · next hd =>
          subst hd
          simp [UInt8.le_iff_toNat_le]
          omega
      · next hd =>
          rw [← UInt8.toNat_inj] at ha hd
          rw [isContinuation_iff]
          simp at ha hd
          simp [ha, hd]

/-! ## Well-formed sequences -/

/-- The well-formed sequences and the numbers they encode. -/
inductive WellFormed : List UInt8 → Prop where
  | one {a : UInt8} (ha : a.toNat < 128) : WellFormed [a]
  | two {a b : UInt8} (ha : 194 ≤ a.toNat ∧ a.toNat ≤ 223)
      (hb : 128 ≤ b.toNat ∧ b.toNat < 192) : WellFormed [a, b]
  | three {a b c : UInt8} (ha : 224 ≤ a.toNat ∧ a.toNat ≤ 239)
      (hb : 128 ≤ b.toNat ∧ b.toNat < 192 ∧ (a.toNat = 0xE0 → 160 ≤ b.toNat) ∧
        (a.toNat = 0xED → b.toNat < 160))
      (hc : 128 ≤ c.toNat ∧ c.toNat < 192) : WellFormed [a, b, c]
  | four {a b c d : UInt8} (ha : 240 ≤ a.toNat ∧ a.toNat ≤ 244)
      (hb : 128 ≤ b.toNat ∧ b.toNat < 192 ∧ (a.toNat = 0xF0 → 144 ≤ b.toNat) ∧
        (a.toNat = 0xF4 → b.toNat < 144))
      (hc : 128 ≤ c.toNat ∧ c.toNat < 192)
      (hd : 128 ≤ d.toNat ∧ d.toNat < 192) : WellFormed [a, b, c, d]

theorem WellFormed.valid {p : List UInt8} (h : WellFormed p) :
    (codePoint p).isValidChar := by
  cases h with
  | one ha =>
      rw [codePoint_one]
      exact .inl (show _ < 0xD800 by omega)
  | two ha hb =>
      rw [codePoint_two]
      exact .inl (show _ < 0xD800 by omega)
  | three ha hb hc =>
      rw [codePoint_three]
      show _ < 0xD800 ∨ 0xDFFF < _ ∧ _ < 0x110000
      omega
  | four ha hb hc hd =>
      rw [codePoint_four]
      show _ < 0xD800 ∨ 0xDFFF < _ ∧ _ < 0x110000
      omega

/-- No two well-formed sequences encode one number. -/
theorem WellFormed.inj {p q : List UInt8} (hp : WellFormed p) (hq : WellFormed q)
    (h : codePoint p = codePoint q) : p = q := by
  cases hp <;> cases hq <;>
    simp only [codePoint_one, codePoint_two, codePoint_three, codePoint_four] at h <;>
    first
    | (exfalso; omega)
    | (simp only [List.cons.injEq, ← UInt8.toNat_inj, and_true]; omega)

theorem toNat_ofNat {n : Nat} (h : n.isValidChar) : (Char.ofNat n).toNat = n := by
  rw [Char.ofNat, dif_pos h]
  rfl

theorem ofNat_inj {n m : Nat} (hn : n.isValidChar) (hm : m.isValidChar)
    (h : Char.ofNat n = Char.ofNat m) : n = m := by
  rw [← toNat_ofNat hn, ← toNat_ofNat hm, h]

/-! ## Decoding in pieces -/

section Cut

variable {a : UInt8} {rest : List UInt8}

theorem low_six (b : UInt8) : (b &&& 0x3F).toNat = b.toNat % 64 :=
  and_mask b 6 (by decide)

theorem charOf_two {b : UInt8} (ha : 0xC2 ≤ a ∧ a ≤ 0xDF)
    (hb : isContinuation b = true) :
    charOf (a &&& 0x1F) [b] = Char.ofNat (codePoint [a, b]) := by
  simp only [UInt8.le_iff_toNat_le] at ha
  rw [isContinuation_iff] at hb
  have hlead : (a &&& 0x1F).toNat = a.toNat % 32 := and_mask a 5 (by decide)
  unfold charOf
  rw [codePoint_two]
  simp only [List.foldl_cons, List.foldl_nil, low_six, hlead]
  refine congrArg Char.ofNat ?_
  simp at ha
  omega

theorem charOf_three {b c : UInt8} (ha : 0xE0 ≤ a ∧ a ≤ 0xEF)
    (hb : isSecondOfThree a b = true) (hc : isContinuation c = true) :
    charOf (a &&& 0x0F) [b, c] = Char.ofNat (codePoint [a, b, c]) := by
  simp only [UInt8.le_iff_toNat_le] at ha
  rw [isSecondOfThree_iff] at hb
  rw [isContinuation_iff] at hc
  have hlead : (a &&& 0x0F).toNat = a.toNat % 16 := and_mask a 4 (by decide)
  unfold charOf
  rw [codePoint_three]
  simp only [List.foldl_cons, List.foldl_nil, low_six, hlead]
  refine congrArg Char.ofNat ?_
  simp at ha
  omega

theorem charOf_four {b c d : UInt8} (ha : 0xF0 ≤ a ∧ a ≤ 0xF4)
    (hb : isSecondOfFour a b = true) (hc : isContinuation c = true)
    (hd : isContinuation d = true) :
    charOf (a &&& 0x07) [b, c, d] = Char.ofNat (codePoint [a, b, c, d]) := by
  simp only [UInt8.le_iff_toNat_le] at ha
  rw [isSecondOfFour_iff] at hb
  rw [isContinuation_iff] at hc hd
  have hlead : (a &&& 0x07).toNat = a.toNat % 8 := and_mask a 3 (by decide)
  unfold charOf
  rw [codePoint_four]
  simp only [List.foldl_cons, List.foldl_nil, low_six, hlead]
  refine congrArg Char.ofNat ?_
  simp at ha
  omega

/-- What the conversion does with the first byte. -/
theorem fromUtf8Lossy_cons : fromUtf8Lossy (a :: rest) =
    (pieceAt a rest).char :: fromUtf8Lossy (rest.drop (cut a rest).1) := by
  have hnil : fromUtf8Lossy [] = [] := by rw [fromUtf8Lossy]
  conv_lhs => unfold fromUtf8Lossy
  unfold pieceAt cut Piece.char
  split
  · rfl
  split
  · next ha =>
      split
      · split
        · next hb => simp [hb, charOf_two ha hb]
        · next hb => simp [hb]
      · simp [hnil]
  split
  · next ha =>
      split
      · split
        · next hb =>
            split
            · split
              · next hc => simp [hb, hc, charOf_three ha hb hc]
              · next hc => simp [hb, hc]
            · simp [hb, hnil]
        · next hb => simp [hb]
      · simp [hnil]
  split
  · next ha =>
      split
      · split
        · next hb =>
            split
            · split
              · next hc =>
                  split
                  · split
                    · next hd =>
                        simp [hb, hc, hd, charOf_four ha hb hc hd]
                    · next hd => simp [hb, hc, hd]
                  · simp [hb, hc, hnil]
              · next hc => simp [hb, hc]
            · simp [hb, hnil]
        · next hb => simp [hb]
      · simp [hnil]
  · simp

theorem wellFormed_of_cut {n : Nat} (h : cut a rest = (n, true)) :
    WellFormed (a :: rest.take n) := by
  unfold cut at h
  simp only [UInt8.le_iff_toNat_le, UInt8.lt_iff_toNat_lt] at h
  split at h
  · next ha =>
      cases h
      exact .one ha
  split at h
  · next ha =>
      split at h
      · split at h
        · next hb =>
            cases h
            exact .two ha (isContinuation_iff.mp hb)
        · cases h
      · cases h
  split at h
  · next ha =>
      split at h
      · split at h
        · next hb =>
            split at h
            · split at h
              · next hc =>
                  cases h
                  exact .three ha (isSecondOfThree_iff.mp hb)
                    (isContinuation_iff.mp hc)
              · cases h
            · cases h
        · cases h
      · cases h
  split at h
  · next ha =>
      split at h
      · split at h
        · next hb =>
            split at h
            · split at h
              · next hc =>
                  split at h
                  · split at h
                    · next hd =>
                        cases h
                        exact .four ha (isSecondOfFour_iff.mp hb)
                          (isContinuation_iff.mp hc) (isContinuation_iff.mp hd)
                    · cases h
                  · cases h
              · cases h
            · cases h
        · cases h
      · cases h
  · cases h

theorem cut_le : (cut a rest).1 ≤ rest.length := by
  unfold cut
  repeat' split
  all_goals simp

end Cut

theorem wellFormed_of_mem {bytes : List UInt8} {p : Piece} (h : p ∈ pieces bytes)
    (hp : p.wellFormed = true) : WellFormed p.bytes := by
  induction bytes using pieces.induct with
  | case1 =>
      rw [pieces] at h
      cases h
  | case2 a rest ih =>
      rw [pieces] at h
      rcases List.mem_cons.mp h with rfl | h
      · exact wellFormed_of_cut (Prod.ext rfl hp)
      · exact ih h

theorem fromUtf8Lossy_eq (bytes : List UInt8) :
    fromUtf8Lossy bytes = (pieces bytes).map Piece.char := by
  induction bytes using pieces.induct with
  | case1 =>
      rw [pieces, fromUtf8Lossy]
      rfl
  | case2 a rest ih =>
      rw [pieces, fromUtf8Lossy_cons, ih]
      rfl

/-! ## What a character says about its piece -/

theorem wellFormed_replacement : WellFormed [0xEF, 0xBF, 0xBD] :=
  .three (by decide) (by decide) (by decide)

/-- Two pieces read as one character when they are equal or both blurred. -/
theorem char_eq_iff {p q : Piece} (hp : p.wellFormed = true → WellFormed p.bytes)
    (hq : q.wellFormed = true → WellFormed q.bytes) :
    p.char = q.char ↔ p = q ∨ p.Blurred ∧ q.Blurred := by
  have hblur : ∀ r : Piece, (r.wellFormed = true → WellFormed r.bytes) →
      (r.char = replacement ↔ r.Blurred) := by
    intro r hr
    unfold Piece.char Piece.Blurred
    split
    · next hok =>
        constructor
        · intro h
          have := ofNat_inj (hr hok).valid wellFormed_replacement.valid h
          exact .inr ((hr hok).inj wellFormed_replacement this)
        · rintro (hno | hbytes)
          · rw [hok] at hno
            cases hno
          · rw [hbytes]
            rfl
    · next hno => exact iff_of_true rfl (.inl (Bool.eq_false_iff.mpr hno))
  constructor
  · intro h
    by_cases hq' : q.char = replacement
    · exact .inr ⟨(hblur p hp).mp (h.trans hq'), (hblur q hq).mp hq'⟩
    · have hokq : q.wellFormed = true := by
        by_contra hno
        exact hq' (by unfold Piece.char; rw [if_neg hno])
      have hokp : p.wellFormed = true := by
        by_contra hno
        exact hq' (by rw [← h]; unfold Piece.char; rw [if_neg hno])
      unfold Piece.char at h
      rw [if_pos hokp, if_pos hokq] at h
      have hbytes := (hp hokp).inj (hq hokq)
        (ofNat_inj (hp hokp).valid (hq hokq).valid h)
      left
      obtain ⟨bytes, wellFormed⟩ := p
      obtain ⟨bytes', wellFormed'⟩ := q
      cases hbytes
      cases hokp
      cases hokq
      rfl
  · rintro (rfl | ⟨hp', hq'⟩)
    · rfl
    · rw [(hblur p hp).mpr hp', (hblur q hq).mpr hq']

/-- The conversion forgets what the ill-formed sequences were, and nothing else. -/
theorem fromUtf8Lossy_eq_iff (x y : List UInt8) :
    fromUtf8Lossy x = fromUtf8Lossy y ↔
      List.Forall₂ (fun p q => p = q ∨ p.Blurred ∧ q.Blurred)
        (pieces x) (pieces y) := by
  rw [fromUtf8Lossy_eq, fromUtf8Lossy_eq, ← List.forall₂_eq_eq_eq,
    List.forall₂_map_left_iff, List.forall₂_map_right_iff,
    List.forall₂_iff_zip, List.forall₂_iff_zip]
  refine and_congr_right fun _ => ?_
  have hread : ∀ {p q}, (p, q) ∈ (pieces x).zip (pieces y) →
      (p.char = q.char ↔ p = q ∨ p.Blurred ∧ q.Blurred) := fun hmem =>
    char_eq_iff (wellFormed_of_mem (List.of_mem_zip hmem).1)
      (wellFormed_of_mem (List.of_mem_zip hmem).2)
  exact ⟨fun h p q hmem => (hread hmem).mp (h hmem),
    fun h p q hmem => (hread hmem).mpr (h hmem)⟩

/-! ## The case of letters -/

theorem toNat_toAsciiLowercase (b : UInt8) : (toAsciiLowercase b).toNat =
    if 65 ≤ b.toNat ∧ b.toNat ≤ 90 then b.toNat + 32 else b.toNat := by
  unfold toAsciiLowercase
  simp only [UInt8.le_iff_toNat_le]
  split
  · next h =>
      have h : 65 ≤ b.toNat ∧ b.toNat ≤ 90 := h
      rw [if_pos h, UInt8.toNat_add]
      exact Nat.mod_eq_of_lt (show b.toNat + 32 < 256 by omega)
  · next h =>
      have h : ¬ (65 ≤ b.toNat ∧ b.toNat ≤ 90) := h
      rw [if_neg h]

theorem isContinuation_lower (b : UInt8) :
    isContinuation (toAsciiLowercase b) = isContinuation b := by
  rw [Bool.eq_iff_iff, isContinuation_iff, isContinuation_iff,
    toNat_toAsciiLowercase]
  split <;> omega

theorem lower_of_high {b : UInt8} (h : 91 ≤ b.toNat) : toAsciiLowercase b = b := by
  rw [← UInt8.toNat_inj, toNat_toAsciiLowercase, if_neg (by omega)]

theorem isSecondOfThree_lower (a b : UInt8) :
    isSecondOfThree a (toAsciiLowercase b) = isSecondOfThree a b := by
  rw [Bool.eq_iff_iff, isSecondOfThree_iff, isSecondOfThree_iff,
    toNat_toAsciiLowercase]
  split <;> omega

theorem isSecondOfFour_lower (a b : UInt8) :
    isSecondOfFour a (toAsciiLowercase b) = isSecondOfFour a b := by
  rw [Bool.eq_iff_iff, isSecondOfFour_iff, isSecondOfFour_iff,
    toNat_toAsciiLowercase]
  split <;> omega

/-- The case of letters does not move the cuts. -/
theorem cut_lower (a : UInt8) (rest : List UInt8) :
    cut (toAsciiLowercase a) (rest.map toAsciiLowercase) = cut a rest := by
  have hlow : toAsciiLowercase a < 0x80 ↔ a < 0x80 := by
    have hmod : (0x80 : UInt8).toNat = 128 := rfl
    rw [UInt8.lt_iff_toNat_lt, UInt8.lt_iff_toNat_lt, toNat_toAsciiLowercase, hmod]
    split <;> omega
  by_cases h : a < 0x80
  · unfold cut
    rw [if_pos h, if_pos (hlow.mpr h)]
  · have ha : toAsciiLowercase a = a := by
      rw [UInt8.lt_iff_toNat_lt] at h
      exact lower_of_high (by simp at h; omega)
    rw [ha]
    rcases rest with _ | ⟨b, _ | ⟨c, _ | ⟨d, rest⟩⟩⟩
    all_goals
      simp only [cut, List.map_cons, List.map_nil, isContinuation_lower,
        isSecondOfThree_lower, isSecondOfFour_lower]

theorem toNat_toLower (c : Char) : c.toLower.toNat =
    if 65 ≤ c.toNat ∧ c.toNat ≤ 90 then c.toNat + 32 else c.toNat := by
  unfold Char.toLower
  split
  · next h =>
      have h : 65 ≤ c.toNat ∧ c.toNat ≤ 90 := h
      rw [if_pos h]
      show (c.val + 32).toNat = c.val.toNat + 32
      rw [UInt32.toNat_add]
      have : c.val.toNat ≤ 90 := h.2
      exact Nat.mod_eq_of_lt (show c.val.toNat + 32 < 4294967296 by omega)
  · next h =>
      have h : ¬ (65 ≤ c.toNat ∧ c.toNat ≤ 90) := h
      rw [if_neg h]

/-- A character keeps its case with its bytes. -/
theorem char_lower {bytes : List UInt8} (h : WellFormed bytes) :
    Char.ofNat (codePoint (bytes.map toAsciiLowercase)) =
      (Char.ofNat (codePoint bytes)).toLower := by
  have hhigh : bytes.map toAsciiLowercase = bytes → 128 ≤ codePoint bytes →
      Char.ofNat (codePoint (bytes.map toAsciiLowercase)) =
        (Char.ofNat (codePoint bytes)).toLower := by
    intro hsame hge
    rw [hsame, ← Char.toNat_inj, toNat_toLower, toNat_ofNat h.valid,
      if_neg (by omega)]
  cases h with
  | @one a ha =>
      have hvalid : a.toNat.isValidChar := .inl (show _ < 0xD800 by omega)
      have hlow := toNat_toAsciiLowercase a
      have hvalid' : (toAsciiLowercase a).toNat.isValidChar := by
        refine .inl (show _ < 0xD800 from ?_)
        split at hlow <;> omega
      rw [List.map_cons, List.map_nil, codePoint_one, codePoint_one,
        ← Char.toNat_inj, toNat_toLower, toNat_ofNat hvalid, toNat_ofNat hvalid']
      exact hlow
  | @two a b ha hb =>
      refine hhigh ?_ ?_
      · simp only [List.map_cons, List.map_nil,
          lower_of_high (show 91 ≤ a.toNat by omega),
          lower_of_high (show 91 ≤ b.toNat by omega)]
      · rw [codePoint_two]
        omega
  | @three a b c ha hb hc =>
      refine hhigh ?_ ?_
      · simp only [List.map_cons, List.map_nil,
          lower_of_high (show 91 ≤ a.toNat by omega),
          lower_of_high (show 91 ≤ b.toNat by omega),
          lower_of_high (show 91 ≤ c.toNat by omega)]
      · rw [codePoint_three]
        omega
  | @four a b c d ha hb hc hd =>
      refine hhigh ?_ ?_
      · simp only [List.map_cons, List.map_nil,
          lower_of_high (show 91 ≤ a.toNat by omega),
          lower_of_high (show 91 ≤ b.toNat by omega),
          lower_of_high (show 91 ≤ c.toNat by omega),
          lower_of_high (show 91 ≤ d.toNat by omega)]
      · rw [codePoint_four]
        omega

theorem fromUtf8Lossy_lower (bytes : List UInt8) :
    fromUtf8Lossy (bytes.map toAsciiLowercase) =
      (fromUtf8Lossy bytes).map Char.toLower := by
  induction bytes using pieces.induct with
  | case1 =>
      rw [List.map_nil, fromUtf8Lossy]
      rfl
  | case2 a rest ih =>
      rw [List.map_cons, fromUtf8Lossy_cons, fromUtf8Lossy_cons, List.map_cons,
        cut_lower, ← List.map_drop, ih]
      congr 1
      unfold pieceAt Piece.char
      dsimp only
      rw [cut_lower]
      split
      · next hok =>
          rw [← List.map_take, ← List.map_cons]
          exact char_lower (wellFormed_of_cut (Prod.ext rfl hok))
      · rfl

/-! ## Trailing slashes -/

theorem cut_append (a : UInt8) (rest : List UInt8) :
    cut a (rest ++ [0x2F]) = cut a rest := by
  have hslash : isContinuation 0x2F = false := by decide
  have hthree : ∀ a, isSecondOfThree a 0x2F = false := by
    intro a
    rw [Bool.eq_false_iff, ne_eq, isSecondOfThree_iff]
    exact fun h => absurd h.1 (by decide)
  have hfour : ∀ a, isSecondOfFour a 0x2F = false := by
    intro a
    rw [Bool.eq_false_iff, ne_eq, isSecondOfFour_iff]
    exact fun h => absurd h.1 (by decide)
  rcases rest with _ | ⟨b, _ | ⟨c, _ | ⟨d, rest⟩⟩⟩
  all_goals
    simp [cut, hslash, hthree, hfour]

theorem fromUtf8Lossy_append (bytes : List UInt8) :
    fromUtf8Lossy (bytes ++ [0x2F]) = fromUtf8Lossy bytes ++ ['/'] := by
  induction bytes using pieces.induct with
  | case1 => decide
  | case2 a rest ih =>
      rw [List.cons_append, fromUtf8Lossy_cons, fromUtf8Lossy_cons, cut_append,
        List.drop_append_of_le_length cut_le, ih, List.cons_append]
      congr 1
      unfold pieceAt
      rw [cut_append, List.take_append_of_le_length cut_le]

/-- A slash at the end of the text is one at the end of the bytes. -/
theorem last_slash {bytes : List UInt8} (h : (fromUtf8Lossy bytes).getLast? = some '/') :
    bytes.getLast? = some 0x2F := by
  induction bytes using pieces.induct with
  | case1 =>
      rw [fromUtf8Lossy] at h
      cases h
  | case2 a rest ih =>
      rw [fromUtf8Lossy_cons] at h
      cases hdrop : rest.drop (cut a rest).1 with
      | nil =>
          have hall : rest.take (cut a rest).1 = rest := by
            have := List.take_append_drop (cut a rest).1 rest
            rwa [hdrop, List.append_nil] at this
          rw [hdrop, fromUtf8Lossy, List.getLast?_singleton] at h
          have hchar := Option.some.inj h
          unfold pieceAt Piece.char at hchar
          dsimp only at hchar
          split at hchar
          · next hok =>
              have hwell := wellFormed_of_cut (Prod.ext rfl hok)
              rw [hall] at hchar hwell
              have := hwell.inj (q := [0x2F]) (.one (by decide))
                (ofNat_inj hwell.valid (.inl (by decide)) hchar)
              rw [this]
              rfl
          · exact absurd hchar (by decide)
      | cons b more =>
          have hne : fromUtf8Lossy (b :: more) ≠ [] := by
            rw [fromUtf8Lossy_cons]
            exact List.cons_ne_nil _ _
          rw [hdrop] at h ih
          rw [List.getLast?_cons, List.getLast?_eq_getLast_of_ne_nil hne,
            Option.getD_some] at h
          have hlast := ih ((List.getLast?_eq_getLast_of_ne_nil hne).trans h)
          have hsplit : a :: rest =
              (a :: rest.take (cut a rest).1) ++ b :: more := by
            rw [List.cons_append, ← hdrop, List.take_append_drop]
          rw [hsplit, List.getLast?_append_of_ne_nil _ (List.cons_ne_nil b more)]
          exact hlast

theorem fromUtf8Lossy_rdropWhile (bytes : List UInt8) :
    fromUtf8Lossy (bytes.rdropWhile (· = 0x2F)) =
      (fromUtf8Lossy bytes).rdropWhile (· = '/') := by
  induction bytes using List.reverseRecOn with
  | nil =>
      rw [List.rdropWhile_nil, fromUtf8Lossy, List.rdropWhile_nil]
  | append_singleton bytes b ih =>
      rw [List.rdropWhile_concat]
      split
      · next hb =>
          cases of_decide_eq_true hb
          rw [ih, fromUtf8Lossy_append, List.rdropWhile_concat_pos _ _ _ rfl]
      · next hb =>
          symm
          rw [List.rdropWhile_eq_self_iff]
          intro hne hlast
          refine hb ?_
          have : (bytes ++ [b]).getLast? = some 0x2F := last_slash (by
            rw [List.getLast?_eq_getLast_of_ne_nil hne]
            exact congrArg some (of_decide_eq_true hlast))
          rw [List.getLast?_concat] at this
          exact decide_eq_true (Option.some.inj this)

/-! ## The result -/

/-- The key is the text of the bytes. -/
theorem canonicalTargetKey_eq (target : String) :
    canonicalTargetKey target = fromUtf8Lossy (targetBytes target) := by
  unfold canonicalTargetKey targetBytes
  rw [fromUtf8Lossy_rdropWhile, fromUtf8Lossy_lower]

/-- Two targets have one key exactly when they decode to the same bytes, unless the
bytes differ, and only in what reads as the replacement character. -/
theorem keys_exact_iff (a b : String) :
    (canonicalTargetKey a = canonicalTargetKey b ↔
        targetBytes a = targetBytes b) ↔
      ¬ DifferBlurred (targetBytes a) (targetBytes b) := by
  have hkeys : canonicalTargetKey a = canonicalTargetKey b ↔
      List.Forall₂ (fun p q => p = q ∨ p.Blurred ∧ q.Blurred)
        (pieces (targetBytes a)) (pieces (targetBytes b)) := by
    rw [canonicalTargetKey_eq, canonicalTargetKey_eq, fromUtf8Lossy_eq_iff]
  have hsame : targetBytes a = targetBytes b →
      canonicalTargetKey a = canonicalTargetKey b := by
    intro h
    rw [canonicalTargetKey_eq, canonicalTargetKey_eq, h]
  unfold DifferBlurred
  rw [← hkeys]
  constructor
  · rintro h ⟨hne, hkey⟩
    exact hne (h.mp hkey)
  · intro h
    refine ⟨fun hkey => ?_, hsame⟩
    by_contra hne
    exact h ⟨hne, hkey⟩

/-- Two chassis whose names are one byte each, and neither byte is text. -/
theorem two_chassis_one_key : ¬ ∀ a b : String,
    canonicalTargetKey a = canonicalTargetKey b ↔
      targetBytes a = targetBytes b := by
  intro h
  have hkey : canonicalTargetKey "/redfish/v1/Chassis/%FE" =
      canonicalTargetKey "/redfish/v1/Chassis/%FF" := by decide +kernel
  have hbytes := (h _ _).mp hkey
  exact absurd hbytes (by decide +kernel)

end Rutilus.Proofs.TargetKeys
