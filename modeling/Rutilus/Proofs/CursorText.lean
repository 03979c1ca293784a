import Mathlib.Data.Nat.Digits.Lemmas
import Mathlib.Data.UInt
import Rutilus.Report.EndpointCursor

/-!
# The endpoint cursor is read as it was written

The pairs of a cursor are read in the order in which they were written, so each of
them goes after those read before and the map that was written is built again. A text
without pairs is the empty one, and a pair is never empty. The digits of a generation
have neither a comma nor a sign, and every number of 64 bits is read from its digits.
-/

namespace Rutilus.Proofs.CursorText

open Rutilus.Domain Rutilus.Lib Rutilus.Report.EndpointCursor

/-! ## Numbers -/

theorem toDigits_isDigit (n : Nat) : (Nat.toDigits 10 n).all Char.isDigit = true :=
  List.all_eq_true.mpr fun _ hc =>
    Nat.isDigit_of_mem_toDigits (by decide) (by decide) hc

/-- A character that is no digit is not among digits. -/
theorem not_mem_toDigits {c : Char} (h : c.isDigit = false) (n : Nat) :
    c ∉ Nat.toDigits 10 n := fun hc => by
  have hdigit := List.all_eq_true.mp (toDigits_isDigit n) c hc
  rw [h] at hdigit
  cases hdigit

/-- A number is read from its digits. -/
theorem parseU64_toDigits (n : UInt64) :
    parseU64 (Nat.toDigits 10 n.toNat) = some n := by
  have hne : Nat.toDigits 10 n.toNat ≠ [] := Nat.toDigits_ne_nil
  have hvalue : Nat.ofDigitChars 10 (Nat.toDigits 10 n.toNat) 0 = n.toNat :=
    Nat.ofDigitChars_toDigits (by decide) (by decide)
  have hplus : '+' ∉ Nat.toDigits 10 n.toNat := not_mem_toDigits rfl _
  have hdigits := toDigits_isDigit n.toNat
  revert hne hvalue hplus hdigits
  generalize Nat.toDigits 10 n.toNat = digits
  intro hne hvalue hplus hdigits
  unfold parseU64
  dsimp only
  split
  · next rest => exact absurd (List.mem_cons_self) hplus
  · rw [if_neg (by simp [hne, hdigits]), dif_pos (by rw [hvalue]; exact n.toNat_lt)]
    congr 1
    exact UInt64.toNat_inj.mp hvalue

/-! ## Pairs -/

theorem splitOnce_append {separator : Char} {front back : List Char}
    (h : separator ∉ front) :
    splitOnce separator (front ++ separator :: back) = some (front, back) := by
  induction front with
  | nil => exact if_pos rfl
  | cons c front ih =>
      have hne : c ≠ separator := fun heq => h (List.mem_cons.mpr (.inl heq.symm))
      rw [List.cons_append, splitOnce, if_neg hne, ih fun hmem => h (.tail _ hmem)]
      rfl

section Codec

variable {idText : EndpointId → String} {parseId : String → Option EndpointId}

section

variable (hparse : ∀ id, parseId (idText id) = some id)
  (hcolon : ∀ id, ':' ∉ (idText id).toList)

include hparse hcolon

theorem parsePair_formatPair (entry : EndpointId × UInt64) :
    parsePair parseId (formatPair idText entry) = .ok entry := by
  unfold parsePair formatPair
  rw [splitOnce_append (hcolon entry.1)]
  dsimp only
  rw [String.ofList_toList, hparse entry.1]
  dsimp only
  rw [parseU64_toDigits]
  rfl

/-- Entries above those of a map are read to its end. -/
theorem read_entries {entries : List (EndpointId × UInt64)} {read final : Watermark}
    (h : final.entries = read.entries ++ entries) :
    (entries.map (formatPair idText)).foldlM (readPair parseId) read = .ok final := by
  induction entries generalizing read with
  | nil =>
      rw [List.append_nil] at h
      cases read
      cases final
      cases h
      rfl
  | cons entry entries ih =>
      have hrising := final.rising
      rw [h] at hrising
      have hbelow : ∀ e ∈ read.entries, e.1.uuid < entry.1.uuid := fun e he =>
        (List.pairwise_append.mp hrising).2.2 e he entry (.head _)
      have hlast : (read.insert entry.1 entry.2).entries = read.entries ++ [entry] :=
        upsert_last hbelow
      have hread : readPair parseId read (formatPair idText entry) =
          .ok (read.insert entry.1 entry.2) := by
        unfold readPair
        rw [parsePair_formatPair hparse hcolon]
        rfl
      rw [List.map_cons, List.foldlM_cons, hread]
      refine ih ?_
      rw [h, hlast, List.append_assoc]
      rfl

end

theorem comma_not_mem_formatPair (hcomma : ∀ id, ',' ∉ (idText id).toList)
    (entry : EndpointId × UInt64) : ',' ∉ formatPair idText entry := by
  intro h
  rcases List.mem_append.mp h with h | h
  · exact hcomma entry.1 h
  · rcases List.mem_cons.mp h with h | h
    · cases h
    · exact not_mem_toDigits rfl _ h

theorem formatPair_ne_nil (entry : EndpointId × UInt64) :
    formatPair idText entry ≠ [] := by
  unfold formatPair
  exact List.append_ne_nil_of_right_ne_nil _ (List.cons_ne_nil _ _)

end Codec

/-- The text of a cursor is read as the cursor. -/
theorem endpoint_cursor_codec {idText : EndpointId → String}
    {parseId : String → Option EndpointId}
    (hparse : ∀ id, parseId (idText id) = some id)
    (htext : ∀ id, ',' ∉ (idText id).toList ∧ ':' ∉ (idText id).toList) :
    (∀ watermark, parseEndpointCursor parseId
      (formatEndpointCursor idText watermark) = .ok watermark) ∧
    ∀ text watermark, parseEndpointCursor parseId text = .ok watermark →
      parseEndpointCursor parseId (formatEndpointCursor idText watermark) =
        .ok watermark := by
  have hwritten : ∀ watermark, parseEndpointCursor parseId
      (formatEndpointCursor idText watermark) = .ok watermark := by
    intro watermark
    have hread : (watermark.entries.map (formatPair idText)).foldlM
        (readPair parseId) .new = .ok watermark :=
      read_entries hparse (fun id => (htext id).2)
        (List.nil_append watermark.entries).symm
    unfold parseEndpointCursor formatEndpointCursor
    cases hentries : watermark.entries with
    | nil =>
        rw [hentries] at hread
        exact hread
    | cons entry entries =>
        have hpairs : ∀ pair ∈ watermark.entries.map (formatPair idText),
            ',' ∉ pair := by
          intro pair hpair
          obtain ⟨e, -, rfl⟩ := List.mem_map.mp hpair
          exact comma_not_mem_formatPair (fun id => (htext id).1) e
        have hsplit := List.splitOn_intercalate ',' hpairs (by simp [hentries])
        rw [← hentries, if_neg ?_, String.toList_ofList, hsplit]
        · exact hread
        · intro hempty
          have hnil := congrArg String.toList hempty
          rw [String.toList_ofList] at hnil
          rw [hnil, hentries] at hsplit
          exact formatPair_ne_nil entry (List.cons.inj hsplit).1.symm
  exact ⟨hwritten, fun _ watermark _ => hwritten watermark⟩

/-! The ids are printed as 32 hex digits in five groups. -/

/-- A hyphen after each group. -/
def hyphened : List Nat → List Char → List Char
  | [], digits => digits
  | group :: groups, digits =>
      digits.take group ++ '-' :: hyphened groups (digits.drop group)

/-- The digits from the lowest on. -/
def hexDigits (n : Nat) : List Char :=
  let digits := (Nat.digits 16 n).map Nat.digitChar
  digits ++ List.replicate (32 - digits.length) '0'

def uuidText (id : EndpointId) : String :=
  String.ofList (hyphened [12, 4, 4, 4] (hexDigits id.uuid)).reverse

def hexValue (c : Char) : Nat := if c.isDigit then c.toNat - 48 else c.toNat - 87

def parseUuid (text : String) : Option EndpointId :=
  let digits := text.toList.reverse.filter (· ≠ '-')
  let id : EndpointId := ⟨Nat.ofDigits 16 (digits.map hexValue)⟩
  if uuidText id = text then some id else none

theorem mem_hexDigits {n : Nat} {c : Char} (h : c ∈ hexDigits n) :
    c ∈ (List.range 16).map Nat.digitChar := by
  rcases List.mem_append.mp h with h | h
  · obtain ⟨d, hd, rfl⟩ := List.mem_map.mp h
    have hlt : d < 16 := Nat.digits_lt_base (by decide) hd
    exact List.mem_map.mpr ⟨d, List.mem_range.mpr hlt, rfl⟩
  · rw [List.eq_of_mem_replicate h]
    decide

theorem filter_hyphened (groups : List Nat) {digits : List Char} (h : '-' ∉ digits) :
    (hyphened groups digits).filter (· ≠ '-') = digits := by
  have hkeep : ∀ l : List Char, (∀ c ∈ l, c ∈ digits) → l.filter (· ≠ '-') = l :=
    fun l hl => List.filter_eq_self.mpr fun c hc =>
      decide_eq_true fun heq => h (heq ▸ hl c hc)
  induction groups generalizing digits with
  | nil => exact hkeep digits fun _ hc => hc
  | cons group groups ih =>
      have hdrop : '-' ∉ digits.drop group := fun hc => h (List.mem_of_mem_drop hc)
      rw [hyphened, List.filter_append, hkeep _ fun _ hc => List.mem_of_mem_take hc,
        List.filter_cons_of_neg (by decide), ih hdrop fun l hl =>
          hkeep l fun c hc => List.mem_of_mem_drop (hl c hc),
        List.take_append_drop]

theorem mem_hyphened {groups : List Nat} {digits : List Char} {c : Char}
    (h : c ∈ hyphened groups digits) : c = '-' ∨ c ∈ digits := by
  induction groups generalizing digits with
  | nil => exact .inr h
  | cons group groups ih =>
      rcases List.mem_append.mp h with h | h
      · exact .inr (List.mem_of_mem_take h)
      · rcases List.mem_cons.mp h with h | h
        · exact .inl h
        · exact (ih h).imp_right List.mem_of_mem_drop

theorem mem_uuidText {id : EndpointId} {c : Char} (h : c ∈ (uuidText id).toList) :
    c = '-' ∨ c ∈ (List.range 16).map Nat.digitChar := by
  rw [uuidText, String.toList_ofList, List.mem_reverse] at h
  exact (mem_hyphened h).imp_right mem_hexDigits

theorem not_mem_uuidText {c : Char} (hhyphen : c ≠ '-')
    (hdigit : c ∉ (List.range 16).map Nat.digitChar) (id : EndpointId) :
    c ∉ (uuidText id).toList := fun h =>
  (mem_uuidText h).elim hhyphen hdigit

theorem parseUuid_uuidText (id : EndpointId) : parseUuid (uuidText id) = some id := by
  have hhyphen : '-' ∉ hexDigits id.uuid := fun h =>
    absurd (mem_hexDigits h) (by decide)
  have hdigits : ∀ d ∈ Nat.digits 16 id.uuid, hexValue (Nat.digitChar d) = d := by
    intro d hd
    have hall : ((List.range 16).all fun d =>
        hexValue (Nat.digitChar d) == d) = true := by
      decide
    have hlt : d < 16 := Nat.digits_lt_base (by decide) hd
    exact eq_of_beq (List.all_eq_true.mp hall d (List.mem_range.mpr hlt))
  have hvalue : Nat.ofDigits 16 ((hexDigits id.uuid).map hexValue) = id.uuid := by
    unfold hexDigits
    dsimp only
    have hmap : ((Nat.digits 16 id.uuid).map Nat.digitChar).map hexValue =
        Nat.digits 16 id.uuid := by
      rw [List.map_map]
      exact (List.map_congr_left hdigits).trans (List.map_id' _)
    rw [List.map_append, List.map_replicate, hmap]
    show Nat.ofDigits 16 (_ ++ List.replicate _ 0) = _
    rw [Nat.ofDigits_append_replicate_zero, Nat.ofDigits_digits]
  have hread : (uuidText id).toList.reverse.filter (· ≠ '-') = hexDigits id.uuid := by
    unfold uuidText
    rw [String.toList_ofList, List.reverse_reverse, filter_hyphened _ hhyphen]
  unfold parseUuid
  dsimp only
  rw [hread, hvalue]
  exact if_pos rfl

/-- The cursor of two endpoints, one of them at the largest generation. -/
def reported : Watermark where
  entries := [(⟨10⟩, 0), (⟨2 ^ 128 - 1⟩, 2 ^ 64 - 1)]
  rising := List.pairwise_pair.mpr (by decide)

theorem reported_reread :
    formatEndpointCursor uuidText reported =
      "00000000-0000-0000-0000-00000000000a:0," ++
        "ffffffff-ffff-ffff-ffff-ffffffffffff:18446744073709551615" ∧
    parseEndpointCursor parseUuid (formatEndpointCursor uuidText reported) =
      .ok reported := by
  refine ⟨?_, (endpoint_cursor_codec parseUuid_uuidText fun id =>
    ⟨not_mem_uuidText (by decide) (by decide) id,
      not_mem_uuidText (by decide) (by decide) id⟩).1 reported⟩
  decide +kernel

end Rutilus.Proofs.CursorText
