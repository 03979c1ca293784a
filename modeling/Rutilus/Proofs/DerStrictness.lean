import Mathlib.Data.Nat.Bitwise
import Rutilus.Lib.Der
import Rutilus.Protocol.X509

/-!
# How strict the certificate walker is

The loop over an identifier's bytes cuts them into runs of septets and reads one arc
from each. It does not ask that a run be as short as it can be, and reads the first two
arcs from one byte where a run may stand; the loop over the bytes of a length takes
leading zeros and lengths that fit one byte. On what is left both read the one DER form.
-/

namespace Rutilus.Proofs.DerStrictness

open Rutilus.Domain (Bytes)
open Rutilus.Lib Rutilus.Protocol.X509

variable {bytes rest front : Bytes} {byte first : UInt8} {v : List UInt64}

/-! ### Bits of a byte -/

theorem toNat_and_low (byte : UInt8) : (byte &&& 0x7F).toNat = byte.toNat % 128 := by
  rw [UInt8.toNat_and]
  exact Nat.and_two_pow_sub_one_eq_mod byte.toNat 7

theorem and_high_eq_zero : byte &&& 0x80 = 0 ↔ byte.toNat < 128 := by
  have hlt : byte.toNat < 256 := byte.toNat_lt
  have hand : (byte &&& 0x80).toNat = (byte.toNat.testBit 7).toNat * 2 ^ 7 := by
    rw [UInt8.toNat_and]
    exact Nat.and_two_pow byte.toNat 7
  rw [← UInt8.toNat_inj, hand, Nat.testBit_eq_decide_div_mod_eq]
  by_cases hbit : byte.toNat / 2 ^ 7 % 2 = 1
  · rw [decide_eq_true hbit]
    simp
    omega
  · rw [decide_eq_false hbit]
    simp
    omega

/-! ### Runs in the loop -/

theorem septetRun_concat (hfront : ∀ b ∈ front, 128 ≤ b.toNat) (h : byte.toNat < 128) :
    SeptetRun (front ++ [byte]) := by
  induction front with
  | nil => exact .last h
  | cons b front ih =>
      exact .cons (hfront b List.mem_cons_self)
        (ih fun b' hb' => hfront b' (List.mem_cons_of_mem _ hb'))

theorem exists_last_of_run {run : Bytes} (h : SeptetRun run) :
    ∃ b ∈ run, b.toNat < 128 := by
  induction h with
  | @last b h => exact ⟨b, List.mem_singleton_self b, h⟩
  | cons _ _ ih =>
      obtain ⟨b, hb, hlt⟩ := ih
      exact ⟨b, List.mem_cons_of_mem _ hb, hlt⟩

/-- A run at the start goes beyond the bytes that continue it. -/
theorem front_prefix_run {run tail : Bytes} (hfront : ∀ b ∈ front, 128 ≤ b.toNat)
    (hrun : SeptetRun run) (h : run ++ tail = front ++ byte :: rest) :
    ∃ more, run = front ++ byte :: more := by
  induction front generalizing run with
  | nil =>
      cases run with
      | nil => cases hrun
      | cons b run =>
          obtain ⟨rfl, -⟩ := List.cons.inj h
          exact ⟨run, rfl⟩
  | cons b front ih =>
      have hb := hfront b List.mem_cons_self
      cases hrun with
      | last hlast =>
          obtain ⟨rfl, -⟩ := List.cons.inj h
          omega
      | cons hmore hrest =>
          obtain ⟨rfl, htail⟩ := List.cons.inj h
          obtain ⟨more, rfl⟩ :=
            ih (fun b' hb' => hfront b' (List.mem_cons_of_mem _ hb')) hrest htail
          exact ⟨more, rfl⟩

theorem septets_le_append (bytes more : Bytes) :
    septets bytes ≤ septets (bytes ++ more) := by
  have happend : septets (bytes ++ more) =
      septets bytes * 128 ^ more.length + septets more := by
    rw [septets, List.foldl_append]
    exact foldl_septets more _
  have hpow : 1 ≤ 128 ^ more.length := Nat.pow_pos (by decide)
  have hmul := Nat.mul_le_mul_left (septets bytes) hpow
  omega

/-- One turn of the loop over the bytes of an arc. -/
theorem pending_step (pending : Nat) (byte : UInt8) :
    ((checked (pending * 128)).bind fun shifted =>
      checked (shifted + (byte &&& 0x7F).toNat)) =
      checked (pending * 128 + byte.toNat % 128) := by
  rw [toNat_and_low]
  unfold checked
  by_cases h : pending * 128 < 2 ^ 64
  · rw [if_pos h]
    rfl
  · rw [if_neg h, if_neg (by omega)]
    rfl

/-- The arcs that runs stand for. -/
def arcsOf (runs : List Bytes) : List UInt64 := runs.map fun run => .ofNat (septets run)

/-- Runs whose arcs fit 64 bits. -/
def Fit (runs : List Bytes) : Prop := ∀ run ∈ runs, SeptetRun run ∧ septets run < 2 ^ 64

/-- What the loop reads, in the middle of a run. -/
theorem decodeArcs_ok_iff (front : Bytes) (components : List UInt64)
    (hfront : ∀ b ∈ front, 128 ≤ b.toNat) :
    decodeArcs components (septets front) (front ≠ []) bytes = .ok v ↔
      ∃ runs, front ++ bytes = runs.flatten ∧ Fit runs ∧
        v = components ++ arcsOf runs := by
  induction bytes generalizing front components with
  | nil =>
      rw [decodeArcs, List.append_nil]
      cases front with
      | nil =>
          constructor
          · intro h
            cases h
            exact ⟨[], rfl, fun run hrun => absurd hrun List.not_mem_nil,
              by simp [arcsOf]⟩
          · rintro ⟨runs, hruns, hfit, rfl⟩
            cases runs with
            | nil => simp [arcsOf]
            | cons run runs =>
                have hpos := (hfit run List.mem_cons_self).1.length_pos
                have hlength := congrArg List.length hruns
                simp only [List.length_nil, List.flatten_cons, List.length_append]
                  at hlength
                omega
      | cons b front =>
          constructor
          · intro h
            cases h
          · rintro ⟨runs, hruns, hfit, rfl⟩
            cases runs with
            | nil => cases hruns
            | cons run runs =>
                -- the last byte of a run does not continue it
                obtain ⟨b', hb', hlt⟩ :=
                  exists_last_of_run (hfit run List.mem_cons_self).1
                have hmem : b' ∈ b :: front := by
                  rw [hruns, List.flatten_cons]
                  exact List.mem_append_left _ hb'
                have hle := hfront b' hmem
                omega
  | cons byte bytes ih =>
      have hsum := septets_concat front byte
      rw [decodeArcs, pending_step, ← hsum]
      unfold checked
      by_cases hsmall : septets (front ++ [byte]) < 2 ^ 64
      · rw [if_pos hsmall]
        dsimp only
        by_cases hbyte : byte.toNat < 128
        · rw [if_pos (and_high_eq_zero.mpr hbyte)]
          have hnil := ih [] (components ++ [UInt64.ofNat (septets (front ++ [byte]))])
            (fun b hb => absurd hb List.not_mem_nil)
          have hrun := septetRun_concat hfront hbyte
          rw [show septets [] = 0 from rfl] at hnil
          simp only [ne_eq, not_true_eq_false, decide_false, List.nil_append] at hnil
          rw [hnil]
          constructor
          · rintro ⟨runs, rfl, hfit, rfl⟩
            refine ⟨(front ++ [byte]) :: runs, by simp, ?_, by simp [arcsOf]⟩
            intro run hmem
            obtain rfl | hmem := List.mem_cons.mp hmem
            · exact ⟨hrun, hsmall⟩
            · exact hfit run hmem
          · rintro ⟨runs, hruns, hfit, rfl⟩
            cases runs with
            | nil => simp at hruns
            | cons run runs =>
                have heq : (front ++ [byte]) ++ bytes = run ++ runs.flatten := by
                  rw [List.append_assoc]
                  exact hruns
                obtain ⟨rfl, rfl⟩ :=
                  hrun.append_inj (hfit run List.mem_cons_self).1 heq
                exact ⟨runs, rfl, fun r hr => hfit r (List.mem_cons_of_mem _ hr),
                  by simp [arcsOf]⟩
        · rw [if_neg (fun h => hbyte (and_high_eq_zero.mp h))]
          have hmore := ih (front ++ [byte]) components (by
            intro b hb
            obtain hb | hb := List.mem_append.mp hb
            · exact hfront b hb
            · obtain rfl := List.mem_singleton.mp hb
              omega)
          simp only [ne_eq, List.append_eq_nil_iff, List.cons_ne_nil, and_false,
            not_false_eq_true, decide_true, List.append_assoc,
            List.singleton_append] at hmore
          exact hmore
      · rw [if_neg hsmall]
        constructor
        · intro h
          cases h
        · rintro ⟨runs, hruns, hfit, rfl⟩
          cases runs with
          | nil => simp at hruns
          | cons run runs =>
              -- the run holds the bytes so far, whose number is already too large
              obtain ⟨hrun, hlt⟩ := hfit run List.mem_cons_self
              obtain ⟨more, rfl⟩ := front_prefix_run hfront hrun hruns.symm
              have hle := septets_le_append (front ++ [byte]) more
              rw [List.append_assoc, List.singleton_append] at hle
              omega

/-- What is read from an identifier. -/
theorem decodeOid_ok_iff : decodeOid (first :: rest) = .ok v ↔
    ∃ runs, rest = runs.flatten ∧ Fit runs ∧
      v = (first / 40).toUInt64 :: (first % 40).toUInt64 :: arcsOf runs :=
  decodeArcs_ok_iff [] _ fun _ hb => absurd hb List.not_mem_nil

/-! ### Lengths -/

theorem foldLength_eq {m : Nat}
    (h : m * 256 ^ bytes.length + bigEndian bytes < 2 ^ 64) :
    foldLength m bytes = some (m * 256 ^ bytes.length + bigEndian bytes) := by
  induction bytes generalizing m with
  | nil => simp [foldLength, bigEndian]
  | cons b bytes ih =>
      have hsplit : m * 256 ^ (b :: bytes).length + bigEndian (b :: bytes) =
          (m * 256 + b.toNat) * 256 ^ bytes.length + bigEndian bytes := by
        rw [bigEndian_cons, List.length_cons, pow_succ]
        ring
      rw [hsplit] at h ⊢
      have hpow : 1 ≤ 256 ^ bytes.length := Nat.pow_pos (by decide)
      have hmul := Nat.mul_le_mul_left (m * 256 + b.toNat) hpow
      rw [Nat.mul_one] at hmul
      have hsum : m * 256 + b.toNat < 2 ^ 64 :=
        Nat.lt_of_le_of_lt (Nat.le_trans hmul (Nat.le_add_right _ _)) h
      have hshifted : m * 256 < 2 ^ 64 := Nat.lt_of_le_of_lt (Nat.le_add_right _ _) hsum
      rw [foldLength]
      unfold checked
      rw [if_pos hshifted, Option.bind_some, if_pos hsum]
      exact ih h

/-- What is read from a length. -/
theorem readLength_ok_iff {length count : Nat} :
    readLength (first :: rest) = .ok (length, count) ↔
      first.toNat < 128 ∧ length = first.toNat ∧ count = 1 ∨
      ∃ digits tail, rest = digits ++ tail ∧ digits ≠ [] ∧ digits.length ≤ 4 ∧
        first.toNat = 128 + digits.length ∧ length = bigEndian digits ∧
        count = 1 + digits.length := by
  have hbyte : first.toNat < 256 := first.toNat_lt
  unfold readLength
  dsimp only
  by_cases hshort : first.toNat < 128
  · rw [if_pos (and_high_eq_zero.mpr hshort)]
    constructor
    · intro h
      cases h
      exact .inl ⟨hshort, rfl, rfl⟩
    · rintro (⟨-, rfl, rfl⟩ | ⟨digits, tail, -, -, -, hfirst, -, -⟩)
      · rfl
      · omega
  · rw [if_neg fun h => hshort (and_high_eq_zero.mp h), toNat_and_low, slice_zero]
    have hcount : first.toNat = 128 + first.toNat % 128 := by omega
    constructor
    · intro h
      refine .inr ?_
      split at h
      · cases h
      · next hne =>
          split at h
          · cases h
          · next hfour =>
              split at h
              · cases h
              · next digits hslice =>
                  split at hslice
                  · next hle =>
                      cases hslice
                      have htake : (rest.take (first.toNat % 128)).length =
                          first.toNat % 128 := by
                        rw [List.length_take]
                        omega
                      have hlt := bigEndian_lt (rest.take (first.toNat % 128))
                      have hpow : 256 ^ (first.toNat % 128) ≤ 256 ^ 4 :=
                        Nat.pow_le_pow_right (by decide) (by omega)
                      rw [htake] at hlt
                      rw [foldLength_eq (by omega), Nat.zero_mul, Nat.zero_add] at h
                      cases h
                      refine ⟨_, _, (List.take_append_drop _ rest).symm, ?_, ?_, ?_,
                        rfl, ?_⟩
                      · intro hnil
                        rw [hnil] at htake
                        exact hne htake.symm
                      · omega
                      · omega
                      · rw [htake]
                  · cases hslice
    · rintro (⟨hlt, -, -⟩ | ⟨digits, tail, rfl, hne, hfour, hfirst, rfl, rfl⟩)
      · exact absurd hlt hshort
      · have hlength : first.toNat % 128 = digits.length := by omega
        have hpos := List.length_pos_iff.mpr hne
        have hlt := bigEndian_lt digits
        have hpow : 256 ^ digits.length ≤ 256 ^ 4 :=
          Nat.pow_le_pow_right (by decide) hfour
        have hfold : foldLength 0 digits = some (bigEndian digits) := by
          rw [foldLength_eq (by omega), Nat.zero_mul, Nat.zero_add]
        rw [hlength, if_neg (by omega), if_neg (by omega),
          if_pos (by rw [List.length_append]; omega), List.take_left' rfl]
        dsimp only
        rw [hfold]

/-- The long form is the shortest one for lengths from 128 on without leading zeros. -/
theorem long_eq_derLength_iff {digits : Bytes} (hne : digits ≠ [])
    (hfirst : first.toNat = 128 + digits.length) :
    first :: digits = derLength (bigEndian digits) ↔
      digits.head? ≠ some 0 ∧ 128 ≤ bigEndian digits := by
  have hpos := List.length_pos_iff.mpr hne
  constructor
  · intro h
    have hlong : 128 ≤ bigEndian digits := by
      refine Nat.not_lt.mp fun hlt => ?_
      rw [derLength, if_pos hlt] at h
      have hlength := congrArg List.length h
      simp only [List.length_cons, List.length_nil] at hlength
      omega
    rw [derLength, if_neg (Nat.not_lt.mpr hlong)] at h
    refine ⟨?_, hlong⟩
    rw [(List.cons.inj h).2]
    exact head?_toBigEndian_log (by omega)
  · rintro ⟨hhead, hlong⟩
    rw [derLength, if_neg (Nat.not_lt.mpr hlong), log_bigEndian hne hhead,
      toBigEndian_bigEndian, ← hfirst, UInt8.ofNat_toNat]

/-! ### Where the walker is strict -/

/-- The bytes after the first one cut into shortest runs, and the first one holds two
arcs, wherever the loop can read them at all. -/
def Shortest (c : Bytes) : Prop :=
  ∀ first rest runs, c = first :: rest → rest = runs.flatten → Fit runs →
    first.toNat < 120 ∧ ∀ run ∈ runs, run.head? ≠ some 0x80

/-- The length is not in the long form where the short one holds it, and has no leading
zeros. -/
def ShortestLength (der : Bytes) : Prop :=
  ∀ first digits tail, der = first :: (digits ++ tail) → digits ≠ [] →
    digits.length ≤ 4 → first.toNat = 128 + digits.length →
    digits.head? ≠ some 0 ∧ 128 ≤ bigEndian digits

theorem map_toNat_arcsOf {runs : List Bytes} (hfit : Fit runs) :
    (arcsOf runs).map (·.toNat) = runs.map septets := by
  unfold arcsOf
  rw [List.map_map]
  refine List.map_congr_left fun run hrun => ?_
  exact UInt64.toNat_ofNat_of_lt' (hfit run hrun).2

theorem toNat_div_forty (byte : UInt8) :
    ((byte / 40).toUInt64).toNat = byte.toNat / 40 := by
  rw [UInt8.toNat_toUInt64, UInt8.toNat_div]
  rfl

theorem toNat_mod_forty (byte : UInt8) :
    ((byte % 40).toUInt64).toNat = byte.toNat % 40 := by
  rw [UInt8.toNat_toUInt64, UInt8.toNat_mod]
  rfl

theorem base128_of_lt {n : Nat} (h : n < 128) : base128 n = [UInt8.ofNat n] := by
  rw [base128, Nat.log_of_lt h, toRun, Nat.mod_eq_of_lt h]

/-- What is read from shortest bytes has them as its one encoding. -/
theorem derOid_of_shortest {runs : List Bytes} (hfit : Fit runs)
    (hfirst : first.toNat < 120) (hruns : ∀ run ∈ runs, run.head? ≠ some 0x80) :
    derOid (((first / 40).toUInt64 :: (first % 40).toUInt64 :: arcsOf runs).map
      (·.toNat)) = some (first :: runs.flatten) := by
  rw [List.map_cons, List.map_cons, toNat_div_forty, toNat_mod_forty,
    map_toNat_arcsOf hfit, derOid, if_pos (by omega), Nat.div_add_mod,
    base128_of_lt (by omega), UInt8.ofNat_toNat, List.flatMap_def, List.map_map]
  have hself : runs.map (base128 ∘ septets) = runs := by
    refine (List.map_congr_left fun run hrun => ?_).trans (List.map_id runs)
    exact ((hfit run hrun).1.eq_base128 (hruns run hrun)).symm
  rw [hself]
  rfl

theorem sound_iff_shortest (c : Bytes) :
    (∀ v, decodeOid c = .ok v → derOid (v.map (·.toNat)) = some c) ↔ Shortest c := by
  constructor
  · rintro h first rest runs rfl rfl hfit
    have hder := h _ (decodeOid_ok_iff.mpr ⟨runs, rfl, hfit, rfl⟩)
    obtain ⟨first', second, arcs, hv, hvalid, hc⟩ := derOid_eq_some hder
    simp only [List.map_cons, toNat_div_forty, toNat_mod_forty, List.cons.injEq] at hv
    obtain ⟨rfl, rfl, rfl⟩ := hv
    have hsmall : first.toNat < 120 := by omega
    rw [Nat.div_add_mod, base128_of_lt (by omega), List.singleton_append,
      map_toNat_arcsOf hfit, List.map_map] at hc
    have hflat : runs = runs.map (base128 ∘ septets) := by
      refine runs_unique (fun run hrun => (hfit run hrun).1) ?_ (List.cons.inj hc).2
      intro run hrun
      obtain ⟨n, -, rfl⟩ := List.mem_map.mp hrun
      exact septetRun_base128 _
    refine ⟨hsmall, fun run hrun => ?_⟩
    rw [hflat] at hrun
    obtain ⟨n, -, rfl⟩ := List.mem_map.mp hrun
    exact head?_base128 _
  · intro h v hv
    cases c with
    | nil => cases hv
    | cons first rest =>
        obtain ⟨runs, rfl, hfit, rfl⟩ := decodeOid_ok_iff.mp hv
        obtain ⟨hfirst, hruns⟩ := h first _ runs rfl rfl hfit
        exact derOid_of_shortest hfit hfirst hruns

/-- An encoding is read back when its first two arcs share one byte below 120. -/
theorem decodeOid_derOid {c : Bytes} {second : UInt64}
    (h : derOid (v.map (·.toNat)) = some c) (hsecond : v[1]? = some second)
    (hlt : second.toNat < 40) : decodeOid c = .ok v := by
  obtain ⟨a, b, arcs, hv, hvalid, rfl⟩ := derOid_eq_some h
  obtain ⟨x, tail, rfl, rfl, htail⟩ := List.map_eq_cons_iff.mp hv
  obtain ⟨y, v, rfl, rfl, rfl⟩ := List.map_eq_cons_iff.mp htail
  obtain rfl : y = second := by simpa using hsecond
  have hcode : (UInt8.ofNat (40 * x.toNat + y.toNat)).toNat =
      40 * x.toNat + y.toNat := by
    rw [UInt8.toNat_ofNat']
    omega
  rw [base128_of_lt (by omega), List.singleton_append, decodeOid_ok_iff]
  refine ⟨_, rfl, ?_, ?_⟩
  · intro run hrun
    obtain ⟨n, hn, rfl⟩ := List.mem_map.mp hrun
    obtain ⟨z, -, rfl⟩ := List.mem_map.mp hn
    rw [septets_base128]
    exact ⟨septetRun_base128 _, z.toNat_lt⟩
  · have hx : ((UInt8.ofNat (40 * x.toNat + y.toNat)) / 40).toUInt64 = x := by
      rw [← UInt64.toNat_inj, toNat_div_forty, hcode]
      omega
    have hy : ((UInt8.ofNat (40 * x.toNat + y.toNat)) % 40).toUInt64 = y := by
      rw [← UInt64.toNat_inj, toNat_mod_forty, hcode]
      omega
    have harcs : arcsOf ((v.map (·.toNat)).map base128) = v := by
      unfold arcsOf
      rw [List.map_map, List.map_map]
      refine (List.map_congr_left fun z _ => ?_).trans (List.map_id v)
      simp [septets_base128]
    rw [hx, hy, harcs]

/-- An encoding is read back iff its second arc is below 40. -/
theorem decodeOid_derOid_iff {c : Bytes} {v : List UInt64}
    (h : derOid (v.map (·.toNat)) = some c) :
    decodeOid c = .ok v ↔ ∃ second, v[1]? = some second ∧ second.toNat < 40 := by
  constructor
  · intro hdecode
    cases c with
    | nil => cases hdecode
    | cons first rest =>
        obtain ⟨runs, -, -, rfl⟩ := decodeOid_ok_iff.mp hdecode
        refine ⟨_, rfl, ?_⟩
        rw [toNat_mod_forty]
        exact Nat.mod_lt _ (by decide)
  · rintro ⟨second, hsecond, hlt⟩
    exact decodeOid_derOid h hsecond hlt

theorem readLength_sound_iff (der : Bytes) :
    (∀ length count, readLength der = .ok (length, count) →
      der.take count = derLength length) ↔ ShortestLength der := by
  constructor
  · rintro h first digits tail rfl hne hfour hfirst
    have hread := h _ _ (readLength_ok_iff.mpr
      (.inr ⟨digits, tail, rfl, hne, hfour, hfirst, rfl, rfl⟩))
    rw [Nat.add_comm, List.take_succ_cons, List.take_left' rfl] at hread
    exact (long_eq_derLength_iff hne hfirst).mp hread
  · intro h length count hread
    cases der with
    | nil => cases hread
    | cons first rest =>
        obtain ⟨hlt, rfl, rfl⟩ | ⟨digits, tail, rfl, hne, hfour, hfirst, rfl, rfl⟩ :=
          readLength_ok_iff.mp hread
        · rw [derLength, if_pos hlt, UInt8.ofNat_toNat]
          rfl
        · rw [Nat.add_comm, List.take_succ_cons, List.take_left' rfl]
          exact (long_eq_derLength_iff hne hfirst).mpr
            (h first digits tail rfl hne hfour hfirst)

theorem shortest_inj {c c' : Bytes} {v : List UInt64} (hc : Shortest c)
    (hc' : Shortest c') (hdecode : decodeOid c = .ok v)
    (hdecode' : decodeOid c' = .ok v) : c = c' := by
  have h := (sound_iff_shortest c).mpr hc v hdecode
  have h' := (sound_iff_shortest c').mpr hc' v hdecode'
  exact Option.some.inj (h.symm.trans h')

/-- Where the walker is strict. Of a byte string it reads only an identifier whose
encoding it is, iff it is shortest; an encoding is read back iff its second arc is below
40; and of a length only the shortest form is read, iff that is the one there. Two
different shortest byte strings are never read as the same identifier. -/
theorem strict_where_shortest (c : Bytes) :
    ((∀ v, decodeOid c = .ok v → derOid (v.map (·.toNat)) = some c) ↔
      Shortest c) ∧
    (∀ v, derOid (v.map (·.toNat)) = some c →
      (decodeOid c = .ok v ↔ ∃ second, v[1]? = some second ∧ second.toNat < 40)) ∧
    ((∀ length count, readLength c = .ok (length, count) →
        c.take count = derLength length) ↔ ShortestLength c) ∧
    (∀ c' v, Shortest c → Shortest c' → decodeOid c = .ok v → decodeOid c' = .ok v →
      c = c') :=
  ⟨sound_iff_shortest c, fun _ h => decodeOid_derOid_iff h, readLength_sound_iff c,
    fun _ _ hc hc' => shortest_inj hc hc'⟩

/-- A zero septet before an arc is read as if it were not there, the two bytes of the
arcs `2.999` are read as four arcs, and `0x81 0x05` is read as the length five. -/
theorem deviations_read :
    ¬(∀ c v, decodeOid c = .ok v → derOid (v.map (·.toNat)) = some c) ∧
    ¬(∀ v c, derOid (v.map (·.toNat)) = some c → decodeOid c = .ok v) ∧
    ¬(∀ der length count, readLength der = .ok (length, count) →
      der.take count = derLength length) ∧
    ¬(∀ c c' v, decodeOid c = .ok v → decodeOid c' = .ok v → c = c') := by
  refine ⟨?_, ?_, ?_, ?_⟩
  · intro h
    exact absurd (h [0x2A, 0x80, 0x01] [1, 2, 1] (by decide)) (by decide)
  · intro h
    exact absurd (h [2, 999] [0x88, 0x37] (by decide)) (by decide)
  · intro h
    exact absurd (h [0x81, 0x05] 5 2 (by decide)) (by decide)
  · intro h
    exact absurd (h [0x2A, 0x80, 0x01] [0x2A, 0x01] [1, 2, 1] (by decide) (by decide))
      (by decide)

end Rutilus.Proofs.DerStrictness
