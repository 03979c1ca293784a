import Rutilus.Store.Restore

/-!
# What a restore marker says

The four tokens of a marker are words, and each stands for one content. So the
whole text records two pairs and nothing else. A text that was cut has four tokens
only when it was cut behind the third space, and the fourth is then a beginning of
the token of the WAL.
-/

namespace Rutilus.Proofs.RestoreMarker

open Rutilus.Domain Rutilus.Lib Rutilus.Store.Restore

variable {setup : Setup}

/-! ## Tokens -/

theorem hexByte_inj {a b : UInt8} (h : hexByte a = hexByte b) : a = b := by
  have hback : ∀ n : Fin 256,
      hexDigits.idxOf (hexDigits.getD (n.val / 16) '0') * 16 +
        hexDigits.idxOf (hexDigits.getD (n.val % 16) '0') = n.val := by
    decide +kernel
  have hread : ∀ c : UInt8,
      hexDigits.idxOf (hexDigits.getD (c.toNat / 16) '0') * 16 +
        hexDigits.idxOf (hexDigits.getD (c.toNat % 16) '0') = c.toNat :=
    fun c => hback ⟨c.toNat, c.toNat_lt⟩
  obtain ⟨hhigh, hlow⟩ := List.cons.inj h
  apply UInt8.toNat_inj.mp
  rw [← hread a, ← hread b, hhigh, (List.cons.inj hlow).1]

theorem flatMap_hexByte_inj {a b : Bytes}
    (h : a.flatMap hexByte = b.flatMap hexByte) : a = b := by
  induction a generalizing b with
  | nil =>
      cases b with
      | nil => rfl
      | cons y b => cases h
  | cons x a ih =>
      cases b with
      | nil => cases h
      | cons y b =>
          rw [List.flatMap_cons, List.flatMap_cons] at h
          obtain ⟨hbyte, hrest⟩ := List.append_inj h rfl
          rw [hexByte_inj hbyte, ih hrest]

theorem length_fingerprintBytes (bytes : Bytes) :
    (fingerprintBytes setup bytes).length = 64 := by
  unfold fingerprintBytes
  rw [List.length_flatMap]
  have htwo : (setup.sha256 bytes).map (fun b => (hexByte b).length) =
      List.replicate 32 2 := by
    rw [← setup.length_sha256 bytes]
    exact List.map_eq_replicate_iff.mpr fun _ _ => rfl
  rw [htwo]
  rfl

theorem mem_hexDigits {bytes : Bytes} {c : Char}
    (h : c ∈ fingerprintBytes setup bytes) : c ∈ hexDigits := by
  have hdigit : ∀ n, hexDigits.getD n '0' ∈ hexDigits := by
    intro n
    rw [List.getD_eq_getElem?_getD]
    cases hn : hexDigits[n]? with
    | none => exact .head _
    | some c => exact List.mem_of_getElem? hn
  obtain ⟨byte, -, hc⟩ := List.mem_flatMap.mp h
  rcases List.mem_cons.mp hc with rfl | hc
  · exact hdigit _
  · rw [List.mem_singleton.mp hc]
    exact hdigit _

theorem not_trimmed_of_all {text : List Char}
    (h : text.all (!isTrimmed ·) = true) : ∀ c ∈ text, isTrimmed c = false := by
  intro c hc
  simpa using List.all_eq_true.mp h c hc

theorem isWord_fingerprintBytes (bytes : Bytes) :
    IsWord isTrimmed (fingerprintBytes setup bytes) where
  ne := List.ne_nil_of_length_pos (by
    rw [length_fingerprintBytes]
    exact Nat.zero_lt_succ _)
  solid := fun c hc =>
    not_trimmed_of_all (by decide) c (mem_hexDigits hc)

/-- What stands for a file that is not there. -/
structure IsFallback (fallback : List Char) : Prop where
  word : IsWord isTrimmed fallback
  short : fallback.length < 64

theorem isFallback_absent : IsFallback markerAbsent :=
  ⟨⟨nofun, not_trimmed_of_all (by decide)⟩, by decide⟩

theorem isFallback_none : IsFallback markerNone :=
  ⟨⟨nofun, not_trimmed_of_all (by decide)⟩, by decide⟩

section Tokens

variable {fallback : List Char} {a b : Option Bytes}

theorem isWord_fingerprintOr (h : IsFallback fallback) (a : Option Bytes) :
    IsWord isTrimmed (fingerprintOr setup fallback a) := by
  cases a with
  | none => exact h.word
  | some bytes => exact isWord_fingerprintBytes bytes

/-- A token stands for one content. -/
theorem fingerprintOr_inj (h : IsFallback fallback)
    (ha : a.all setup.contents = true) (hb : b.all setup.contents = true)
    (heq : fingerprintOr setup fallback a = fingerprintOr setup fallback b) :
    a = b := by
  have hlong : ∀ bytes, fingerprintBytes setup bytes ≠ fallback := by
    intro bytes hsame
    have hshort := h.short
    rw [← hsame, length_fingerprintBytes] at hshort
    exact Nat.lt_irrefl _ hshort
  cases a with
  | none =>
      cases b with
      | none => rfl
      | some y => exact absurd heq.symm (hlong y)
  | some x =>
      cases b with
      | none => exact absurd heq (hlong x)
      | some y =>
          rw [setup.sha256_inj x y ha hb (flatMap_hexByte_inj heq)]

end Tokens

/-! ## Pairs -/

variable (setup) in
/-- The two tokens of a pair. -/
def tokens (p : Pair) : List Char × List Char :=
  (fingerprintOr setup markerAbsent p.database,
    fingerprintOr setup markerNone p.wal)

theorem tokens_inj {p q : Pair} (hp : p.within setup = true)
    (hq : q.within setup = true) (h : tokens setup p = tokens setup q) :
    p = q := by
  obtain ⟨hpd, hpw⟩ := Bool.and_eq_true_iff.mp hp
  obtain ⟨hqd, hqw⟩ := Bool.and_eq_true_iff.mp hq
  obtain ⟨hdatabase, hwal⟩ := Prod.mk.inj h
  have hdatabase := fingerprintOr_inj isFallback_absent hpd hqd hdatabase
  have hwal := fingerprintOr_inj isFallback_none hpw hqw hwal
  cases p
  cases q
  cases hdatabase
  cases hwal
  rfl

theorem isWord_database (p : Pair) : IsWord isTrimmed (tokens setup p).1 :=
  isWord_fingerprintOr isFallback_absent _

theorem isWord_wal (p : Pair) : IsWord isTrimmed (tokens setup p).2 :=
  isWord_fingerprintOr isFallback_none _

/-! ## The text -/

variable {snapshot : DatabaseSnapshot} {pre live : Pair} {text : List Char}

variable (setup snapshot pre) in
/-- The text up to the token of the live WAL. -/
def head : List Char := markerHead setup snapshot (tokens setup pre).1

variable (setup snapshot pre) in
def markerText : List Char :=
  head setup snapshot pre ++ ((tokens setup pre).2 ++ ['\n'])

theorem head_append (rest : List Char) : head setup snapshot pre ++ rest =
    (tokens setup snapshot.pair).1 ++ ' ' :: ((tokens setup snapshot.pair).2 ++
      ' ' :: ((tokens setup pre).1 ++ ' ' :: rest)) := by
  unfold head markerHead
  simp only [List.append_assoc, List.cons_append, List.nil_append]
  rfl

/-- The tokens of a text that goes on behind the third space. -/
theorem words_head (rest : List Char) :
    words isTrimmed (head setup snapshot pre ++ rest) =
      (tokens setup snapshot.pair).1 :: (tokens setup snapshot.pair).2 ::
        (tokens setup pre).1 :: words isTrimmed rest := by
  rw [head_append, words_append (isWord_database _) (by decide),
    words_append (isWord_wal _) (by decide),
    words_append (isWord_database _) (by decide)]

theorem words_markerText : words isTrimmed (markerText setup snapshot pre) =
    [(tokens setup snapshot.pair).1, (tokens setup snapshot.pair).2,
      (tokens setup pre).1, (tokens setup pre).2] := by
  unfold markerText
  rw [words_head, words_append (isWord_wal _) (by decide), words_nil]

/-- A beginning of the text with four tokens goes on behind the third space, and
its last token is the whole of the WAL's or a beginning of it. -/
theorem words_cut {a b c d : List Char}
    (h : text <+: markerText setup snapshot pre)
    (hw : words isTrimmed text = [a, b, c, d]) :
    a = (tokens setup snapshot.pair).1 ∧ b = (tokens setup snapshot.pair).2 ∧
      c = (tokens setup pre).1 ∧
      (d = (tokens setup pre).2 ∧ (text = markerText setup snapshot pre ∨
          text ++ ['\n'] = markerText setup snapshot pre) ∨
        d ≠ (tokens setup pre).2 ∧ text = head setup snapshot pre ++ d) := by
  have hblank : isTrimmed ' ' = true := by decide
  unfold markerText at h
  rw [head_append] at h
  obtain ⟨rfl, q₁, hq₁, rfl, hw₁⟩ :=
    words_past (isWord_database _) hblank h hw
  obtain ⟨rfl, q₂, hq₂, rfl, hw₂⟩ := words_past (isWord_wal _) hblank hq₁ hw₁
  obtain ⟨rfl, q, hq, rfl, hlast⟩ :=
    words_past (isWord_database _) hblank hq₂ hw₂
  refine ⟨rfl, rfl, rfl, ?_⟩
  rw [← head_append]
  rcases prefix_append_cons hq with hin | ⟨r, hr, rfl⟩
  · rcases words_of_prefix (isWord_wal _) hin with hnone | ⟨hone, -⟩
    · rw [hnone] at hlast
      cases hlast
    · rw [hone] at hlast
      obtain ⟨rfl, -⟩ := List.cons.inj hlast
      by_cases hall : q = (tokens setup pre).2
      · refine .inl ⟨hall, .inr ?_⟩
        rw [hall, List.append_assoc]
        rfl
      · exact .inr ⟨hall, rfl⟩
  · rw [List.prefix_nil.mp hr, words_append (isWord_wal _) (by decide)] at hlast
    obtain ⟨rfl, -⟩ := List.cons.inj hlast
    rw [List.prefix_nil.mp hr]
    exact .inl ⟨rfl, .inl rfl⟩

/-- The other way round: a text that goes on behind the third space has four
tokens. -/
theorem words_of_begun (h : text <+: markerText setup snapshot pre)
    (hlong : (head setup snapshot pre).length < text.length) :
    ∃ d, words isTrimmed text = [(tokens setup snapshot.pair).1,
      (tokens setup snapshot.pair).2, (tokens setup pre).1, d] := by
  obtain ⟨q, rfl⟩ : head setup snapshot pre <+: text :=
    List.prefix_of_prefix_length_le (List.prefix_append _ _) h
      (Nat.le_of_lt hlong)
  have hne : q ≠ [] := by
    rintro rfl
    rw [List.append_nil] at hlong
    exact Nat.lt_irrefl _ hlong
  rw [words_head]
  unfold markerText at h
  rw [List.prefix_append_right_inj] at h
  rcases prefix_append_cons h with hin | ⟨r, hr, rfl⟩
  · exact ⟨q, by rw [words_word ((isWord_wal _).of_front hin hne)]⟩
  · rw [List.prefix_nil.mp hr]
    exact ⟨_, by rw [words_append (isWord_wal _) (by decide), words_nil]⟩

end Rutilus.Proofs.RestoreMarker
