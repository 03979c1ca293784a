import Rutilus.Lib.Rely
import Rutilus.Proofs.RestoreMarker

/-!
# An interrupted restore is never opened as a mixed pair

Between two tasks the directory is in one of three situations: without a marker, and
then the pair is of one side; with a beginning of the marker, and then no file was
touched; or with the whole marker, and then it records both sides. Every call keeps
this, also one that is stopped half way. An open clears the marker only in front of
a pair that is of one side, and a restore does nothing in front of a marker.
-/

namespace Rutilus.Proofs.RestorePairs

open Rutilus.Domain Rutilus.Lib Rutilus.Store.Restore
open Rutilus.Proofs.RestoreMarker

variable {setup : Setup} {e : Era} {f : Files} {snapshot : DatabaseSnapshot}

/-! ## Between two tasks -/

/-- A pair of one side. -/
def Has (e : Era) (p : Pair) : Prop :=
  p = e.pre ∨ ∃ snapshot ∈ e.snap, p = snapshot.pair

variable (setup) in
/-- What a stop may leave. -/
inductive Rest (e : Era) (f : Files) : Prop where
  | clear (hmarker : f.marker = none) (hpair : Has e f.pair)
  | begun (snapshot : DatabaseSnapshot) (text : List Char)
      (hsnap : e.snap = some snapshot) (hmarker : f.marker = some text)
      (htext : text <+: markerText setup snapshot e.pre)
      (hpair : f.pair = e.pre)
  | full (snapshot : DatabaseSnapshot) (hsnap : e.snap = some snapshot)
      (hmarker : f.marker = some (markerText setup snapshot e.pre))
      (hpair : f.pair = snapshot.mixed e.pre ∨ f.pair = snapshot.pair)

variable (setup) in
structure Era.Within (e : Era) : Prop where
  pre : e.pre.within setup = true
  snap : ∀ snapshot ∈ e.snap, snapshot.pair.within setup = true

theorem mixed_within {pre : Pair} (hpre : pre.within setup = true)
    (hsnap : snapshot.pair.within setup = true) :
    (snapshot.mixed pre).within setup = true :=
  Bool.and_eq_true_iff.mpr ⟨(Bool.and_eq_true_iff.mp hsnap).1,
    (Bool.and_eq_true_iff.mp hpre).2⟩

/-- A pair that matches the marker is of one side. -/
theorem Rest.has {text a b c d : List Char} (h : Rest setup e f)
    (he : Era.Within setup e) (hmarker : f.marker = some text)
    (hwords : words isTrimmed text = [a, b, c, d])
    (hmatch : tokens setup f.pair = (a, b) ∨ tokens setup f.pair = (c, d)) :
    Has e f.pair := by
  cases h with
  | clear hnone hpair => exact hpair
  | begun snapshot text' hsnap hmarker' htext hpair => exact .inl hpair
  | full snapshot hsnap hmarker' hpair =>
      rw [hmarker] at hmarker'
      cases hmarker'
      rw [words_markerText] at hwords
      cases hwords
      have hwithin := he.snap snapshot hsnap
      have hlive : f.pair.within setup = true := by
        rcases hpair with hpair | hpair
        · rw [hpair]
          exact mixed_within he.pre hwithin
        · rw [hpair]
          exact hwithin
      rcases hmatch with hmatch | hmatch
      · exact .inr ⟨snapshot, hsnap, tokens_inj hlive hwithin hmatch⟩
      · exact .inl (tokens_inj hlive he.pre hmatch)

/-! ## Calls -/

/-- What a call may do. -/
def Calls : Sem fileSig Files := fun q f r f' => ∃ o, perform o q f = (r, f')

variable (setup) in
/-- A call, and a stop in the middle of it, leave the directory at rest. -/
def Kept (e : Era) (q : FileReq) (f f' : Files) : Prop :=
  Rest setup e f' ∧ ∀ landed, Rest setup e (torn landed q f)

variable (setup) in
/-- A stage of a task: it keeps the directory at rest, and where it succeeds `Q`
holds. -/
abbrev Stage {ε α : Type} (e : Era) (p : ExceptT ε (Prog fileSig) α)
    (Q : α → Files → Prop) (f : Files) : Prop :=
  Safe Calls Eq (Kept setup e) p (fun r f' => ∀ a, r = .ok a → Q a f') f

section Stage

variable {ε ε' α β : Type} {Q : α → Files → Prop}

theorem stage_bind {p : ExceptT ε (Prog fileSig) α}
    {g : α → ExceptT ε (Prog fileSig) β} {Q' : β → Files → Prop}
    (h : Stage setup e p Q f)
    (hg : ∀ a f', Q a f' → Stage setup e (g a) Q' f') :
    Stage setup e (p >>= g) Q' f := by
  refine Safe.bindE.mpr (h.imp fun r f' hr => ?_)
  cases r with
  | ok a => exact hg a f' (hr a rfl)
  | error x => exact nofun

theorem stage_throw {x : ε} :
    Stage setup e (throw x : ExceptT ε (Prog fileSig) α) Q f := nofun

theorem stage_lift {p : Prog fileSig α} (h : Safe Calls Eq (Kept setup e) p Q f) :
    Stage setup e (liftM p : ExceptT ε (Prog fileSig) α) Q f := by
  refine Safe.liftE.mpr (h.imp fun a f' ha b hb => ?_)
  cases hb
  exact ha

theorem stage_orThrow {p : Prog fileSig (Except ε α)} {wrap : ε → ε'}
    (h : Safe Calls Eq (Kept setup e) p (fun r f' => ∀ a, r = .ok a → Q a f') f) :
    Stage setup e (orThrow p wrap) Q f := by
  refine Safe.orThrow.mpr (h.imp fun r f' hr => ?_)
  cases r with
  | ok a =>
      intro b hb
      cases hb
      exact hr a rfl
  | error x => exact nofun

/-- A call that leaves the files alone. -/
structure Quiet (q : FileReq) : Prop where
  perform : ∀ o f, (perform o q f).2 = f
  torn : ∀ landed f, torn landed q f = f

theorem Quiet.safe {q : FileReq} (hq : Quiet q) (h : Rest setup e f) :
    Safe Calls Eq (Kept setup e) (call q)
      (fun r f' => f' = f ∧ ∃ o, (Store.Restore.perform o q f).1 = r) f := by
  rintro _ rfl r f' ⟨o, ho⟩
  have hsame : f' = f := (congrArg Prod.snd ho).symm.trans (hq.perform o f)
  refine ⟨⟨hsame ▸ h, fun n => ?_⟩, hsame, o, congrArg Prod.fst ho⟩
  rw [hq.torn]
  exact h

/-- The same of a call that only succeeds or fails. -/
theorem Quiet.leaves {q : FileReq} (hq : Quiet q) (h : Rest setup e f) :
    Safe Calls Eq (Kept setup e) (call q) (fun _ f' => f' = f) f :=
  (hq.safe h).imp fun _ _ hr => hr.1

theorem stage_quiet {p : Prog fileSig (Except IoError Unit)}
    {wrap : IoError → ε}
    (h : Safe Calls Eq (Kept setup e) p (fun _ f' => f' = f) f) :
    Stage setup e (orThrow p wrap) (fun _ f' => f' = f) f :=
  stage_orThrow (h.imp fun _ _ hr _ _ => hr)

theorem quiet_inspectMarker : Quiet .inspectMarker :=
  ⟨fun _ _ => rfl, fun _ _ => rfl⟩

theorem quiet_readMarker : Quiet .readMarker :=
  ⟨fun _ _ => rfl, fun _ _ => rfl⟩

theorem quiet_syncMarker : Quiet .syncMarker :=
  ⟨fun _ _ => rfl, fun _ _ => rfl⟩

theorem quiet_read (file : DataFile) : Quiet (.read file) :=
  ⟨fun _ _ => rfl, fun _ _ => rfl⟩

theorem quiet_createParent : Quiet .createParent :=
  ⟨fun _ _ => rfl, fun _ _ => rfl⟩

theorem quiet_createTemporary : Quiet .createTemporary :=
  ⟨fun _ _ => rfl, fun _ _ => rfl⟩

theorem quiet_writeTemporary (bytes : Bytes) : Quiet (.writeTemporary bytes) :=
  ⟨fun _ _ => rfl, fun _ _ => rfl⟩

theorem quiet_synchronizePersisted : Quiet .synchronizePersisted :=
  ⟨fun _ _ => rfl, fun _ _ => rfl⟩

theorem fingerprintOfFileOr_safe (h : Rest setup e f) (file : DataFile)
    (fallback : List Char) :
    Safe Calls Eq (Kept setup e) (fingerprintOfFileOr setup file fallback)
      (fun token f' => f' = f ∧
        token = fingerprintOr setup fallback (f.get file)) f := by
  refine Safe.bind.mpr (((quiet_read file).safe h).imp fun r f' hr => ?_)
  obtain ⟨rfl, o, rfl⟩ := hr
  simp only [perform]
  cases f'.get file with
  | some bytes => exact ⟨rfl, rfl⟩
  | none => exact ⟨rfl, rfl⟩

theorem createMarker_stage {wrap : IoError → ε} (h : Rest setup e f)
    (hdone : Rest setup e { f with marker := some [] }) :
    Stage setup e (orThrow (call .createMarker) wrap)
      (fun _ f' => f' = { f with marker := some [] }) f := by
  refine stage_orThrow ?_
  rintro _ rfl r f' ⟨o, ho⟩
  simp only [perform] at ho
  split at ho
  · cases ho
    exact ⟨⟨h, fun _ => h⟩, nofun⟩
  · cases ho
    exact ⟨⟨hdone, fun _ => h⟩, fun _ _ => rfl⟩

theorem writeMarker_stage {wrap : IoError → ε} {content : List Char}
    (hdone : ∀ text, text <+: content →
      Rest setup e { f with marker := some text }) :
    Stage setup e (orThrow (call (.writeMarker content)) wrap)
      (fun _ f' => f' = { f with marker := some content }) f := by
  refine stage_orThrow ?_
  have htorn : ∀ n, Rest setup e { f with marker := some (content.take n) } :=
    fun n => hdone _ (List.take_prefix n content)
  rintro _ rfl r f' ⟨o, ho⟩
  simp only [perform] at ho
  split at ho
  · cases ho
    exact ⟨⟨htorn o.landed, htorn⟩, nofun⟩
  · cases ho
    exact ⟨⟨hdone content (List.prefix_refl content), htorn⟩, fun _ _ => rfl⟩

theorem persist_stage {wrap : IoError → ε} {file : DataFile} {bytes : Bytes}
    (h : Rest setup e f) (hdone : Rest setup e (f.put file bytes)) :
    Stage setup e (orThrow (call (.persist file bytes)) wrap)
      (fun _ f' => f' = f.put file bytes) f := by
  refine stage_orThrow ?_
  rintro _ rfl r f' ⟨o, ho⟩
  simp only [perform] at ho
  split at ho
  · cases ho
    exact ⟨⟨h, fun _ => h⟩, nofun⟩
  · cases ho
    exact ⟨⟨hdone, fun _ => h⟩, fun _ _ => rfl⟩

theorem without_of_not_has {file : StoreFile} (h : ¬ f.has file = true) :
    f.without file = f := by
  obtain ⟨database, wal, shm, marker⟩ := f
  rcases file with (_ | _ | _) | _
  · cases database with
    | none => rfl
    | some _ => exact absurd rfl h
  · cases wal with
    | none => rfl
    | some _ => exact absurd rfl h
  · cases shm with
    | none => rfl
    | some _ => exact absurd rfl h
  · cases marker with
    | none => rfl
    | some _ => exact absurd rfl h

theorem removeStaleSidecar_stage {file : StoreFile} (h : Rest setup e f)
    (hdone : Rest setup e (f.without file)) :
    Stage setup e (removeStaleSidecar file)
      (fun _ f' => f' = f.without file) f := by
  refine Safe.bindE.mpr (Safe.liftE.mpr ?_)
  rintro _ rfl r f' ⟨o, ho⟩
  simp only [perform] at ho
  split at ho
  · cases ho
    exact ⟨⟨h, fun _ => h⟩, nofun⟩
  · split at ho
    · cases ho
      exact ⟨⟨hdone, fun _ => h⟩, fun _ _ => rfl⟩
    · next hhas =>
        cases ho
        exact ⟨⟨h, fun _ => h⟩, fun _ _ => (without_of_not_has hhas).symm⟩

theorem removeRestoreMarker_stage (h : Rest setup e f)
    (hdone : Rest setup e (f.without .marker)) :
    Stage setup e removeRestoreMarker
      (fun _ f' => f' = f.without .marker) f :=
  stage_orThrow (removeStaleSidecar_stage h hdone)

theorem replaceFile_stage {file : DataFile} {bytes : Bytes}
    (h : Rest setup e f) (hdone : Rest setup e (f.put file bytes)) :
    Stage setup e (replaceFile setup file bytes)
      (fun _ f' => f' = f.put file bytes) f := by
  unfold replaceFile
  split
  · refine stage_bind (stage_quiet (quiet_createParent.leaves h)) ?_
    rintro _ _ rfl
    refine stage_bind (stage_quiet (quiet_createTemporary.leaves h)) ?_
    rintro _ _ rfl
    refine stage_bind (stage_quiet ((quiet_writeTemporary bytes).leaves h)) ?_
    rintro _ _ rfl
    refine stage_bind (persist_stage h hdone) ?_
    rintro _ _ rfl
    exact stage_quiet (quiet_synchronizePersisted.leaves hdone)
  · exact stage_throw

end Stage

/-! ## A restore -/

theorem inspected {f' : Files} {o : Oracle} {r : Except IoError Unit}
    (h : perform o .inspectMarker f = (r, f')) : f' = f ∧
      (r = .ok () ∨ r = .error .other ∨ r = .error .notFound ∧ f.marker = none) := by
  have h : ((if o.fault then .error .other
      else if f.marker.isSome then .ok () else .error .notFound :
        Except IoError Unit), f) = (r, f') := h
  split at h
  · cases h
    exact ⟨rfl, .inr (.inl rfl)⟩
  · split at h
    · cases h
      exact ⟨rfl, .inl rfl⟩
    · next hnone =>
        cases h
        exact ⟨rfl, .inr (.inr ⟨rfl, Option.not_isSome_iff_eq_none.mp hnone⟩)⟩

/-- In front of a marker a restore does nothing. -/
theorem restore_refused (hmarker : f.marker ≠ none) :
    Safe Calls Eq (fun q f₁ f₂ => f₂ = f₁ ∧ ∀ landed, torn landed q f₁ = f₁)
      (restoreDatabaseFiles setup snapshot)
      (fun r f' => r = .error .restoreInterrupted ∧ f' = f) f := by
  refine Safe.bindE.mpr (Safe.liftE.mpr ?_)
  rintro _ rfl r f' ⟨o, ho⟩
  obtain ⟨rfl, hr⟩ := inspected ho
  refine ⟨⟨rfl, fun _ => rfl⟩, ?_⟩
  rcases hr with rfl | rfl | ⟨-, hnone⟩
  · exact ⟨rfl, rfl⟩
  · exact ⟨rfl, rfl⟩
  · exact absurd hnone hmarker

theorem writeRestoreMarker_stage (hmarker : f.marker = none)
    (hera : e = ⟨f.pair, some snapshot⟩) :
    Stage setup e (writeRestoreMarker setup snapshot)
      (fun _ f' => f' =
        { f with marker := some (markerText setup snapshot e.pre) }) f := by
  have hpre : e.pre = f.pair := by rw [hera]
  have hsnap : e.snap = some snapshot := by rw [hera]
  have hrest : Rest setup e f := .clear hmarker (.inl hpre.symm)
  have hbegun : ∀ text, text <+: markerText setup snapshot e.pre →
      Rest setup e { f with marker := some text } :=
    fun text htext => .begun snapshot text hsnap rfl htext hpre.symm
  have hparent : Stage setup e (createParent setup) (fun _ f' => f' = f) f := by
    unfold createParent
    split
    · exact stage_quiet (quiet_createParent.leaves hrest)
    · exact fun _ _ => rfl
  refine stage_bind hparent ?_
  rintro _ _ rfl
  refine stage_bind (stage_lift (fingerprintOfFileOr_safe hrest _ _)) ?_
  rintro _ _ ⟨rfl, rfl⟩
  refine stage_bind (stage_lift (fingerprintOfFileOr_safe hrest _ _)) ?_
  rintro _ f ⟨rfl, rfl⟩
  refine stage_bind
    (createMarker_stage hrest (hbegun [] (List.nil_prefix ..))) ?_
  rintro _ _ rfl
  have htext : markerHead setup snapshot
      (fingerprintOr setup markerAbsent (f.get .database)) ++
        (fingerprintOr setup markerNone (f.get .wal) ++ ['\n']) =
      markerText setup snapshot e.pre := by
    rw [hpre]
    rfl
  rw [htext]
  refine stage_bind (writeMarker_stage hbegun) ?_
  rintro _ _ rfl
  exact stage_quiet (quiet_syncMarker.leaves
    (hbegun _ (List.prefix_refl _)))

theorem replaceWal_stage (h : Rest setup e f)
    (hdone : Rest setup e { f with wal := snapshot.wal }) :
    Stage setup e (replaceWal setup snapshot)
      (fun _ f' => f' = { f with wal := snapshot.wal }) f := by
  unfold replaceWal
  cases hwal : snapshot.wal with
  | some wal =>
      rw [hwal] at hdone
      exact replaceFile_stage h hdone
  | none =>
      rw [hwal] at hdone
      exact removeStaleSidecar_stage h hdone

theorem restore_stage (hmarker : f.marker = none)
    (hera : e = ⟨f.pair, some snapshot⟩) :
    Stage setup e (restoreDatabaseFiles setup snapshot) (fun _ _ => True) f := by
  have hpre : e.pre = f.pair := by rw [hera]
  have hsnap : e.snap = some snapshot := by rw [hera]
  have hrest : Rest setup e f := .clear hmarker (.inl hpre.symm)
  refine stage_bind (stage_lift (quiet_inspectMarker.safe hrest)) ?_
  rintro r _ ⟨rfl, o, ho⟩
  obtain ⟨-, rfl | rfl | ⟨rfl, -⟩⟩ := inspected (Prod.ext ho rfl)
  · exact stage_throw
  · exact stage_throw
  refine stage_bind (writeRestoreMarker_stage hmarker hera) ?_
  rintro _ _ rfl
  have hfull : ∀ f', f'.marker = some (markerText setup snapshot e.pre) →
      (f'.pair = snapshot.mixed e.pre ∨ f'.pair = snapshot.pair) →
      Rest setup e f' := fun f' => .full snapshot hsnap
  refine stage_bind (replaceFile_stage
    (.begun snapshot _ hsnap rfl (List.prefix_refl _) hpre.symm)
    (hfull _ rfl (.inl ?_))) ?_
  · rw [hpre]
    rfl
  rintro _ _ rfl
  refine stage_bind (replaceWal_stage (hfull _ rfl (.inl ?_))
    (hfull _ rfl (.inr rfl))) ?_
  · rw [hpre]
    rfl
  rintro _ _ rfl
  refine stage_bind (removeStaleSidecar_stage (hfull _ rfl (.inr rfl))
    (hfull _ rfl (.inr rfl))) ?_
  rintro _ _ rfl
  refine (removeRestoreMarker_stage (hfull _ rfl (.inr rfl))
    (.clear rfl (.inr ⟨snapshot, hsnap, rfl⟩))).imp ?_
  exact fun _ _ _ _ _ => trivial

/-! ## An open -/

theorem markerRead {f' : Files} {o : Oracle} {r : Except IoError (List Char)}
    (h : perform o .readMarker f = (r, f')) :
    r = .error .other ∨ r = .error .notFound ∧ f.marker = none ∨
      ∃ content, r = .ok content ∧ f.marker = some content := by
  simp only [perform] at h
  cases hfault : o.fault with
  | true =>
      rw [hfault] at h
      cases h
      exact .inl rfl
  | false =>
      rw [hfault] at h
      cases hmarker : f.marker with
      | none =>
          rw [hmarker] at h
          cases h
          exact .inr (.inl ⟨rfl, rfl⟩)
      | some content =>
          rw [hmarker] at h
          cases h
          exact .inr (.inr ⟨content, rfl, rfl⟩)

theorem verify_stage (h : Rest setup e f) (he : Era.Within setup e) :
    Stage setup e (verifyRestoreMarker setup)
      (fun _ f' => f'.marker = none) f := by
  refine stage_bind (stage_lift (quiet_readMarker.safe h)) ?_
  rintro r _ ⟨rfl, o, ho⟩
  rename_i f
  rcases markerRead (Prod.ext ho rfl) with rfl | ⟨rfl, hnone⟩ | ⟨content, rfl, hsome⟩
  · exact stage_throw
  · exact fun _ _ => hnone
  dsimp only
  split
  · next a b c d hwords =>
      refine stage_bind (stage_lift (fingerprintOfFileOr_safe h _ _)) ?_
      rintro _ _ ⟨rfl, rfl⟩
      refine stage_bind (stage_lift (fingerprintOfFileOr_safe h _ _)) ?_
      rintro _ f ⟨rfl, rfl⟩
      split
      · next hmatch =>
          have hpair : Has e f.pair := h.has he hsome hwords
            (hmatch.imp (fun h => Prod.ext h.1 h.2) fun h => Prod.ext h.1 h.2)
          refine (stage_orThrow
            (removeRestoreMarker_stage h (.clear rfl hpair))).imp ?_
          intro r f' hr a ha
          rw [hr a ha]
          rfl
      · exact stage_throw
  · exact stage_throw


/-! ## Runs -/

theorem Rest.within (h : Rest setup e f) (he : Era.Within setup e) :
    f.pair.within setup = true := by
  have hsides : ∀ p, Has e p → p.within setup = true := by
    rintro p (rfl | ⟨snapshot, hsnap, rfl⟩)
    · exact he.pre
    · exact he.snap snapshot hsnap
  cases h with
  | clear hmarker hpair => exact hsides _ hpair
  | begun snapshot text hsnap hmarker htext hpair =>
      exact hsides _ (.inl hpair)
  | full snapshot hsnap hmarker hpair =>
      rcases hpair with hpair | hpair
      · rw [hpair]
        exact mixed_within he.pre (he.snap snapshot hsnap)
      · rw [hpair]
        exact he.snap snapshot hsnap

/-- No call changes anything, and neither does a stop. -/
def Still (q : FileReq) (f f' : Files) : Prop :=
  f' = f ∧ ∀ landed, torn landed q f = f

variable (setup) in
structure Inv (s : State) : Prop where
  within : Era.Within setup s.era
  rest : Rest setup s.era s.files
  restoring : ∀ start run, s.task = some (.restore start run) →
    (start.marker = none →
      Stage setup s.era run (fun _ _ => True) s.files) ∧
    (start.marker ≠ none → s.files = start ∧
      Safe Calls Eq Still run
        (fun r f' => r = .error .restoreInterrupted ∧ f' = start) s.files)
  opening : ∀ run, s.task = some (.opening run) →
    Stage setup s.era run (fun _ f' => f'.marker = none) s.files

theorem Inv.initial {s : State} (h : Initial setup s) : Inv setup s := by
  obtain ⟨hwithin, hmarker, hidle, hera⟩ := h
  refine ⟨⟨?_, ?_⟩, .clear hmarker (.inl ?_), ?_, ?_⟩
  · rw [hera]
    exact hwithin
  · rw [hera]
    exact nofun
  · rw [hera]
  · rw [hidle]
    exact nofun
  · rw [hidle]
    exact nofun

theorem Inv.begin {s : State} (h : Inv setup s)
    (hwithin : snapshot.pair.within setup = true) :
    Inv setup ⟨s.files,
      some (.restore s.files (restoreDatabaseFiles setup snapshot)),
      s.era.begin s.files snapshot⟩ := by
  unfold Era.begin
  cases hmarker : s.files.marker with
  | none =>
      refine ⟨⟨h.rest.within h.within, ?_⟩, .clear hmarker (.inl rfl), ?_, nofun⟩
      · intro snapshot' hsnap
        cases hsnap
        exact hwithin
      · intro start run hrun
        cases hrun
        exact ⟨fun _ => restore_stage hmarker rfl, fun hne => absurd hmarker hne⟩
  | some text =>
      refine ⟨h.within, h.rest, ?_, nofun⟩
      intro start run hrun
      cases hrun
      have hne : s.files.marker ≠ none := hmarker ▸ nofun
      exact ⟨fun hnone => absurd hnone hne, fun _ => ⟨rfl, restore_refused hne⟩⟩

/-- A stop leaves the directory at rest. -/
theorem Inv.stopped {s : State} (h : Inv setup s)
    (hrest : Rest setup s.era f) : Inv setup ⟨f, none, s.era⟩ :=
  ⟨h.within, hrest, nofun, nofun⟩

theorem Inv.restoreStep {s : State} {start : Files} {q : FileReq}
    {k : q.Resp → Restoring Unit} (h : Inv setup s)
    (htask : s.task = some (.restore start (.call q k))) (o : Oracle) :
    Inv setup ⟨(perform o q s.files).2,
      some (.restore start (k (perform o q s.files).1)), s.era⟩ := by
  obtain ⟨hfree, hrefused⟩ := h.restoring _ _ htask
  by_cases hmarker : start.marker = none
  · obtain ⟨hkept, hgo⟩ := hfree hmarker s.files rfl _ _ ⟨o, rfl⟩
    refine ⟨h.within, hkept.1, ?_, nofun⟩
    intro start' run hrun
    cases hrun
    exact ⟨fun _ => hgo, fun hne => absurd hmarker hne⟩
  · obtain ⟨hsame, hsafe⟩ := hrefused hmarker
    obtain ⟨hstill, hgo⟩ := hsafe s.files rfl _ _ ⟨o, rfl⟩
    have hfiles : (perform o q s.files).2 = s.files := hstill.1
    have hrest : Rest setup s.era (perform o q s.files).2 := by
      rw [hfiles]
      exact h.rest
    refine ⟨h.within, hrest, ?_, nofun⟩
    intro start' run hrun
    cases hrun
    exact ⟨fun hnone => absurd hnone hmarker, fun _ => ⟨hfiles.trans hsame, hgo⟩⟩

theorem Inv.openStep {s : State} {q : FileReq} {k : q.Resp → Opening Unit}
    (h : Inv setup s) (htask : s.task = some (.opening (.call q k)))
    (o : Oracle) :
    Inv setup ⟨(perform o q s.files).2,
      some (.opening (k (perform o q s.files).1)), s.era⟩ := by
  obtain ⟨hkept, hgo⟩ := h.opening _ htask s.files rfl _ _ ⟨o, rfl⟩
  refine ⟨h.within, hkept.1, nofun, ?_⟩
  intro run hrun
  cases hrun
  exact hgo

/-- What a stop in the middle of a restore leaves. -/
theorem Inv.restoreStop {s : State} {start : Files} {q : FileReq}
    {k : q.Resp → Restoring Unit} (h : Inv setup s)
    (htask : s.task = some (.restore start (.call q k))) (landed : Nat) :
    Rest setup s.era (torn landed q s.files) ∧
      (start.marker ≠ none → torn landed q s.files = start) := by
  obtain ⟨hfree, hrefused⟩ := h.restoring _ _ htask
  have hcall := (⟨⟨false, 0⟩, rfl⟩ :
    Calls q s.files (perform ⟨false, 0⟩ q s.files).1 _)
  by_cases hmarker : start.marker = none
  · exact ⟨(hfree hmarker s.files rfl _ _ hcall).1.2 landed,
      fun hne => absurd hmarker hne⟩
  · obtain ⟨hsame, hsafe⟩ := hrefused hmarker
    have hfiles := (hsafe s.files rfl _ _ hcall).1.2 landed
    rw [hfiles]
    exact ⟨h.rest, fun _ => hsame⟩

theorem Inv.step {s t : State} {l : Label} (h : Inv setup s)
    (hstep : next setup s l = some t) : Inv setup t := by
  cases l with
  | restore snapshot =>
      simp only [next] at hstep
      split at hstep
      · split at hstep
        · next hwithin =>
            cases hstep
            exact h.begin hwithin
        · cases hstep
      · cases hstep
  | opening =>
      simp only [next] at hstep
      split at hstep
      · cases hstep
        refine ⟨h.within, h.rest, nofun, ?_⟩
        intro run hrun
        cases hrun
        exact verify_stage h.rest h.within
      · cases hstep
  | step o =>
      simp only [next] at hstep
      split at hstep
      · next start q k htask =>
          cases hstep
          exact h.restoreStep htask o
      · next q k htask =>
          cases hstep
          exact h.openStep htask o
      · cases hstep
  | work pair shm =>
      simp only [next] at hstep
      split at hstep
      · next htask =>
          split at hstep
          · next hwithin =>
              cases hstep
              have hmarker := h.opening _ htask () rfl
              refine ⟨⟨hwithin, nofun⟩, .clear hmarker (.inl rfl), ?_, ?_⟩
              · intro start run hrun
                rw [htask] at hrun
                cases hrun
              · intro run hrun
                rw [htask] at hrun
                cases hrun
                exact fun _ _ => hmarker
          · cases hstep
      · cases hstep
  | stop landed =>
      simp only [next] at hstep
      split at hstep
      · next q k htask =>
          cases hstep
          exact h.stopped (h.restoreStop htask landed).1
      · next q k htask =>
          cases hstep
          exact h.stopped ((h.opening _ htask s.files rfl _ _
            ⟨⟨false, 0⟩, rfl⟩).1.2 landed)
      · cases hstep
        exact h.stopped h.rest
      · cases hstep

theorem reachable_inv {s : State} (h : Reachable setup s) : Inv setup s :=
  h.inv (fun _ => Inv.initial) fun _ _ hinv ⟨_, hstep⟩ => hinv.step hstep

/-- After any sequence of restores and opens, each stopped anywhere: an open that
passes finds a pair of one side, the snapshot of the last restore that began without
a marker or the pair that restore found. A restore that finds a marker fails, and
changes no file, also when it is stopped. -/
theorem opened_pair_whole (setup : Setup) :
    (∀ s, Reachable setup s → s.task = some (.opening (.ret (.ok ()))) →
      Has s.era s.files.pair) ∧
    (∀ s start run, Reachable setup s →
      s.task = some (.restore start run) → start.marker ≠ none →
      s.files = start ∧
        (∀ r, run = .ret r → r = .error .restoreInterrupted) ∧
        ∀ landed t, next setup s (.stop landed) = some t → t.files = start) := by
  constructor
  · intro s hs htask
    have hinv := reachable_inv hs
    have hmarker := hinv.opening _ htask () rfl
    cases hinv.rest with
    | clear hnone hpair => exact hpair
    | begun snapshot text hsnap hsome htext hpair =>
        exact absurd (hmarker.symm.trans hsome) nofun
    | full snapshot hsnap hsome hpair =>
        exact absurd (hmarker.symm.trans hsome) nofun
  · intro s start run hs htask hmarker
    have hinv := reachable_inv hs
    obtain ⟨hsame, hsafe⟩ := (hinv.restoring _ _ htask).2 hmarker
    refine ⟨hsame, ?_, ?_⟩
    · rintro r rfl
      exact hsafe.1
    · intro landed t hstop
      simp only [next, htask] at hstop
      cases run with
      | ret r =>
          cases hstop
          exact hsame
      | call q k =>
          cases hstop
          exact (hinv.restoreStop htask landed).2 hmarker

end Rutilus.Proofs.RestorePairs
