import Rutilus.Proofs.RestorePairs

/-!
# When an interrupted restore heals itself

The marker is created in place and then written, so a stop can leave a beginning of
it although no file was touched. An open without failures accepts a pair of one side
exactly when the text is there up to its last character, or when both sides are one
and the last token has begun.
-/

namespace Rutilus.Proofs.RestoreHealing

open Rutilus.Domain Rutilus.Lib Rutilus.Store.Restore
open Rutilus.Proofs.RestoreMarker Rutilus.Proofs.RestorePairs

variable {setup : Setup} {e : Era} {f : Files} {snapshot : DatabaseSnapshot}

/-! ## An open without failures -/

/-- Calls that do not fail. -/
def calmly (q : fileSig.Req) (f : Files) : fileSig.Resp q × Files :=
  perform ⟨false, 0⟩ q f

variable (setup) in
/-- An open accepts the files and clears the marker. -/
def Accepted (f : Files) : Prop :=
  Prog.run calmly (verifyRestoreMarker setup) f =
    (.ok (), { f with marker := none })

variable (setup) in
/-- The live pair is one of the two that four tokens record. -/
def Matches (f : Files) : List (List Char) → Prop
  | [a, b, c, d] => tokens setup f.pair = (a, b) ∨ tokens setup f.pair = (c, d)
  | _ => False

theorem run_fingerprintOfFileOr (file : DataFile) (fallback : List Char) :
    Prog.run calmly (fingerprintOfFileOr setup file fallback) f =
      (fingerprintOr setup fallback (f.get file), f) := by
  obtain ⟨database, wal, shm, marker⟩ := f
  cases file with
  | database => cases database with
    | some bytes => rfl
    | none => rfl
  | wal => cases wal with
    | some bytes => rfl
    | none => rfl
  | shm => cases shm with
    | some bytes => rfl
    | none => rfl

theorem accepted_of_clear (hmarker : f.marker = none) : Accepted setup f := by
  obtain ⟨database, wal, shm, marker⟩ := f
  cases hmarker
  rfl

theorem accepted_iff {text : List Char} (hmarker : f.marker = some text) :
    Accepted setup f ↔ Matches setup f (words isTrimmed text) := by
  obtain ⟨database, wal, shm, marker⟩ := f
  cases hmarker
  have hrun : Prog.run calmly (verifyRestoreMarker setup)
      ⟨database, wal, shm, some text⟩ =
      Prog.run calmly (match words isTrimmed text with
        | [a, b, c, d] => do
          let liveDatabase : List Char ←
            fingerprintOfFileOr setup .database markerAbsent
          let liveWal : List Char ← fingerprintOfFileOr setup .wal markerNone
          if (liveDatabase = a ∧ liveWal = b) ∨
              (liveDatabase = c ∧ liveWal = d) then
            orThrow removeRestoreMarker
              fun (_ : RestoreError) => .restoreInterrupted .uncleared
          else throw (.restoreInterrupted .mismatch)
        | _ => throw (.restoreInterrupted .malformed) : Opening Unit)
        ⟨database, wal, shm, some text⟩ := rfl
  unfold Accepted
  rw [hrun]
  unfold Matches
  split
  · next a b c d hwords =>
      rw [Prog.run_bindE, Prog.run_liftE, run_fingerprintOfFileOr]
      dsimp only
      rw [Prog.run_bindE, Prog.run_liftE, run_fingerprintOfFileOr]
      dsimp only
      split
      · next hmatch =>
          refine ⟨fun _ => ?_, fun _ => rfl⟩
          exact hmatch.imp (fun h => Prod.ext h.1 h.2) fun h => Prod.ext h.1 h.2
      · next hmatch =>
          refine ⟨nofun, fun h => absurd ?_ hmatch⟩
          exact h.imp Prod.mk.inj Prod.mk.inj
  · exact ⟨nofun, False.elim⟩

/-! ## The result -/

variable (setup) in
/-- The marker is gone, or complete up to its last character; or the two sides are
one and the fourth token has begun. -/
def Legible (e : Era) (f : Files) : Prop :=
  ∀ text, f.marker = some text → ∃ snapshot, e.snap = some snapshot ∧
    (text = markerText setup snapshot e.pre ∨
      text ++ ['\n'] = markerText setup snapshot e.pre ∨
      e.pre = snapshot.pair ∧
        (head setup snapshot e.pre).length < text.length)

/-- A whole marker records both sides. -/
theorem matches_full {d : List Char} (hpair : Has e f.pair)
    (hsnap : e.snap = some snapshot) (hd : d = (tokens setup e.pre).2) :
    Matches setup f [(tokens setup snapshot.pair).1,
      (tokens setup snapshot.pair).2, (tokens setup e.pre).1, d] := by
  rcases hpair with hpre | ⟨snapshot', hsnap', hpair⟩
  · right
    rw [hpre, hd]
  · left
    rw [hsnap] at hsnap'
    cases hsnap'
    rw [hpair]

theorem accepted_iff_legible (h : Rest setup e f) (he : Era.Within setup e)
    (hpair : Has e f.pair) : Accepted setup f ↔ Legible setup e f := by
  have hbeginning : ∀ text, f.marker = some text → ∃ snapshot,
      e.snap = some snapshot ∧ text <+: markerText setup snapshot e.pre ∧
        (text = markerText setup snapshot e.pre ∨ f.pair = e.pre) := by
    intro text hmarker
    cases h with
    | clear hnone hpair => exact absurd (hnone.symm.trans hmarker) nofun
    | begun snapshot text' hsnap hmarker' htext hpair =>
        cases hmarker'.symm.trans hmarker
        exact ⟨snapshot, hsnap, htext, .inr hpair⟩
    | full snapshot hsnap hmarker' hpair =>
        cases hmarker'.symm.trans hmarker
        exact ⟨snapshot, hsnap, List.prefix_refl _, .inl rfl⟩
  cases hmarker : f.marker with
  | none =>
      refine ⟨fun _ text htext => ?_, fun _ => accepted_of_clear hmarker⟩
      rw [hmarker] at htext
      cases htext
  | some text =>
      obtain ⟨snapshot, hsnap, htext, hwhole⟩ := hbeginning text hmarker
      rw [accepted_iff hmarker]
      constructor
      · intro hmatch text' htext'
        cases hmarker.symm.trans htext'
        refine ⟨snapshot, hsnap, ?_⟩
        unfold Matches at hmatch
        split at hmatch
        · next a b c d hwords =>
            obtain ⟨rfl, rfl, rfl, ⟨-, hend⟩ | ⟨hcut, htext⟩⟩ :=
              words_cut htext hwords
            · exact hend.imp_right .inl
            · refine .inr (.inr ?_)
              have hpre := hwhole.resolve_left fun hall => hcut (by
                rw [hall, words_markerText] at hwords
                exact (List.cons.inj (List.cons.inj (List.cons.inj
                  (List.cons.inj hwords).2).2).2).1.symm)
              have hne : d ≠ [] := fun hnil => by
                rw [htext, hnil, words_head] at hwords
                cases hwords
              constructor
              · rcases hmatch with hmatch | hmatch
                · rw [hpre] at hmatch
                  exact tokens_inj he.pre (he.snap snapshot hsnap) hmatch
                · rw [hpre] at hmatch
                  exact absurd (congrArg Prod.snd hmatch).symm hcut
              · rw [htext, List.length_append]
                exact Nat.lt_add_of_pos_right (List.length_pos_iff.mpr hne)
        · cases hmatch
      · intro hlegible
        obtain ⟨snapshot', hsnap', hcase⟩ := hlegible text hmarker
        cases hsnap.symm.trans hsnap'
        rcases hcase with rfl | hend | ⟨hsame, hbegun⟩
        · rw [words_markerText]
          exact matches_full hpair hsnap rfl
        · have hall : text = head setup snapshot e.pre ++
              (tokens setup e.pre).2 :=
            List.append_cancel_right (hend.trans (List.append_assoc ..).symm)
          rw [hall, words_head, words_word (isWord_wal _)]
          exact matches_full hpair hsnap rfl
        · obtain ⟨d, hwords⟩ := words_of_begun htext hbegun
          rw [hwords]
          left
          rcases hpair with hpair | ⟨snapshot', hsnap', hpair⟩
          · rw [hpair, hsame]
          · cases hsnap.symm.trans hsnap'
            rw [hpair]

/-- In front of a pair of one side, whatever restores and opens came before, an open
accepts the pair and clears the marker if and only if the marker is legible. -/
theorem heals_iff_legible {s : State} (h : Reachable setup s)
    (hpair : Has s.era s.files.pair) :
    Accepted setup s.files ↔ Legible setup s.era s.files :=
  accepted_iff_legible (reachable_inv h).rest (reachable_inv h).within hpair

/-! ### A torn marker -/

/-- Digests of one byte. -/
def tiny : Setup where
  sha256 := fun bytes => List.replicate 32 (bytes.headD 0)
  length_sha256 := fun _ => List.length_replicate
  contents := fun bytes => bytes.length == 1
  sha256_inj := fun a b ha hb h => by
    obtain ⟨x, rfl⟩ := List.length_eq_one_iff.mp (beq_iff_eq.mp ha)
    obtain ⟨y, rfl⟩ := List.length_eq_one_iff.mp (beq_iff_eq.mp hb)
    exact congrArg (fun d => [d.headD 0]) h
  hasParent := true

def oneDatabase : State :=
  ⟨⟨some [1], none, none, none⟩, none, ⟨⟨some [1], none⟩, none⟩⟩

theorem oneDatabase_heals : Accepted tiny oneDatabase.files ↔
    Legible tiny oneDatabase.era oneDatabase.files :=
  heals_iff_legible (.init ⟨rfl, rfl, rfl, rfl⟩) (.inl rfl)

/-- A restore is stopped when it has created its marker and not written it. -/
def tornRestore : List Label :=
  .restore ⟨[2], none, nofun⟩ :: List.replicate 5 (.step ⟨false, 0⟩) ++ [.stop 0]

/-- No file was touched, and the marker is empty. -/
theorem torn_marker_stays : ¬ ∀ s, Reachable tiny s → s.task = none →
    Has s.era s.files.pair → Accepted tiny s.files := by
  intro hall
  obtain ⟨s, hs, hend⟩ := exists_reach_of_follow (Initial tiny) (next tiny)
    (s := oneDatabase) tornRestore
    (fun s => s.task.isNone && decide (s.files = ⟨some [1], none, none, some []⟩) &&
      decide (s.era.pre = ⟨some [1], none⟩)) ⟨rfl, rfl, rfl, rfl⟩ (by decide +kernel)
  rw [Bool.and_eq_true, Bool.and_eq_true, decide_eq_true_eq,
    decide_eq_true_eq, Option.isNone_iff_eq_none] at hend
  obtain ⟨⟨htask, hfiles⟩, hpre⟩ := hend
  have hpair : Has s.era s.files.pair := .inl (by rw [hfiles, hpre]; rfl)
  have hdone := hall s hs htask hpair
  rw [accepted_iff (by rw [hfiles])] at hdone
  exact hdone

end Rutilus.Proofs.RestoreHealing
