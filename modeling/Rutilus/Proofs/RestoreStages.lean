import Rutilus.App.Backup
import Rutilus.Lib.Rely

/-!
# A restore never destroys the only copy

A restore has three stages. Its checks read. The copy of the data directory writes
beside it. Only then is the directory written over, and no call of that stage touches
the copy. So at every moment the directory is what it was, or its copy is whole, or the
restore is through; this holds wherever a call fails or the run stops.

The copy is whole because its recursion visits every name of every directory, and
because a file that was copied short is noticed by its length.
-/

namespace Rutilus.Proofs.RestoreStages

open Rutilus.Domain Rutilus.Lib Rutilus.App.Backup Rutilus.Security
open Rutilus.Store.Restore (DatabaseSnapshot IoError)
open Rutilus.Security.BackupPackage (DecryptedBackup DecryptedEntry)

variable {κ : Type} {setup : Setup κ}

/-! ## Kinds of calls -/

/-- The calls that write nothing. -/
def Reads : BackupReq → Prop
  | .acquireLock | .store _ | .createDirAll _ | .persist _ _ | .createRoot
  | .createDirectory _ | .copy _ | .removeCopy => False
  | _ => True

/-- The calls that do not touch the data directory. -/
def Aside : BackupReq → Prop
  | .acquireLock | .store _ | .createDirAll _ | .persist _ _ => False
  | _ => True

/-- The calls that do not touch the copy. -/
def SparesCopy : BackupReq → Prop
  | .createRoot | .createDirectory _ | .copy _ | .removeCopy => False
  | _ => True

theorem Reads.perform {q : BackupReq} (h : Reads q) (o : Oracle) (d : Disk) :
    (perform setup o q d).2 = d ∧ torn o q d = d := by
  cases q <;> first | exact h.elim | exact ⟨rfl, rfl⟩

theorem Aside.perform {q : BackupReq} (h : Aside q) (o : Oracle) (d : Disk) :
    (perform setup o q d).2.data = d.data ∧ (torn o q d).data = d.data := by
  cases q with
  | createRoot =>
      refine ⟨?_, rfl⟩
      simp only [App.Backup.perform]
      split <;> rfl
  | createDirectory path =>
      refine ⟨?_, rfl⟩
      simp only [App.Backup.perform]
      split
      · rfl
      · split <;> rfl
  | copy path =>
      simp only [App.Backup.perform, torn]
      constructor
      · split <;> rfl
      · split <;> rfl
  | _ => first | exact h.elim | exact ⟨rfl, rfl⟩

theorem SparesCopy.perform {q : BackupReq} (h : SparesCopy q) (o : Oracle) (d : Disk) :
    (perform setup o q d).2.copy = d.copy ∧ (torn o q d).copy = d.copy := by
  cases q with
  | acquireLock =>
      refine ⟨?_, rfl⟩
      simp only [App.Backup.perform]
      split <;> rfl
  | store q =>
      refine ⟨rfl, ?_⟩
      cases q <;> rfl
  | createDirAll path =>
      refine ⟨?_, rfl⟩
      simp only [App.Backup.perform]
      split
      · rfl
      · split <;> rfl
  | persist path bytes =>
      refine ⟨?_, rfl⟩
      simp only [App.Backup.perform]
      split
      · rfl
      · split <;> rfl
  | _ => first | exact h.elim | exact ⟨rfl, rfl⟩

/-! ## What the stages call -/

/-- The calls of the checks: the lock, and calls that read. -/
def LocksOrReads (q : BackupReq) : Prop := q = .acquireLock ∨ Reads q

theorem restoreCompatibility_reads (database : Bytes) (wal : Option Bytes) :
    Only Reads (restoreCompatibility setup database wal) :=
  Only.bindE (.orThrow (.ofCall trivial)) fun _ =>
    Only.bindE (.orThrow (.ofCall trivial)) fun _ =>
      Only.bindE (.orThrow (.ofCall trivial)) fun _ =>
        Only.bindE (.orThrow (.ofCall trivial)) fun _ => trivial

theorem writeRestoredFile_spares (path : Path) (bytes : Bytes) :
    Only SparesCopy (writeRestoredFile (κ := κ) path bytes) :=
  .orThrow (Only.bindE (.orThrow (.ofCall trivial)) fun _ =>
    Only.bindE (.orThrow (.ofCall trivial)) fun _ =>
      Only.bindE (.orThrow (.ofCall trivial)) fun _ =>
        Only.bindE (.orThrow (.ofCall trivial)) fun _ =>
          Only.bindE (.orThrow (.ofCall trivial)) fun _ => .orThrow (.ofCall trivial))

theorem restoreNamedFiles_spares (backup : DecryptedBackup)
    (files : List (String × Path)) :
    Only SparesCopy (restoreNamedFiles (κ := κ) backup files) := by
  induction files with
  | nil => trivial
  | cons file files ih =>
      unfold restoreNamedFiles
      split
      · exact Only.bindE (writeRestoredFile_spares _ _) fun _ =>
          Only.bindE ih fun _ => trivial
      · exact ih

theorem restoreArtifactFiles_spares (entries : List DecryptedEntry) :
    Only SparesCopy (restoreArtifactFiles setup entries) := by
  induction entries with
  | nil => trivial
  | cons entry entries ih =>
      unfold restoreArtifactFiles
      split
      · exact ih
      · split
        · trivial
        · exact Only.bindE (writeRestoredFile_spares _ _) fun _ =>
            Only.bindE ih fun _ => trivial

theorem stagedRows_reads (database : Bytes) (wal : Option Bytes)
    (states : List ArtifactState) :
    Only Reads (stagedRows (κ := κ) database wal states) := by
  induction states with
  | nil => trivial
  | cons state states ih =>
      exact Only.bindE (.orThrow (.ofCall trivial)) fun _ =>
        Only.bindE ih fun _ => trivial

theorem missingFiles_reads (rows : List Artifact) :
    Only Reads (missingFiles setup rows) := by
  induction rows with
  | nil => trivial
  | cons row rows ih =>
      unfold missingFiles
      split
      · exact Only.bindE (.liftE (.ofCall trivial)) fun _ =>
          Only.bindE ih fun _ => trivial
      · exact ih

theorem orphanEntries_reads (rows : List Artifact) (entries : List DecryptedEntry) :
    Only Reads (orphanEntries setup rows entries) := by
  induction entries with
  | nil => trivial
  | cons entry entries ih =>
      unfold orphanEntries
      split
      · exact ih
      · split
        · trivial
        · exact Only.bindE ih fun _ => trivial

theorem verify_reads (backup : DecryptedBackup) (database : Bytes)
    (wal : Option Bytes) :
    Only Reads (verifyRestoredArtifactConsistency setup backup database wal) := by
  refine Only.bindE (.orThrow (.ofCall trivial)) fun _ => ?_
  refine Only.bindE (.orThrow (.ofCall trivial)) fun _ => ?_
  refine Only.bindE (stagedRows_reads _ _ _) fun rows => ?_
  refine Only.bindE (missingFiles_reads rows) fun missing => ?_
  refine Only.bindE (orphanEntries_reads rows _) fun orphan => ?_
  refine Only.bindE (.orThrow (.ofCall trivial)) fun _ => ?_
  split <;> trivial

theorem Reads.sparesCopy {q : BackupReq} (h : Reads q) : SparesCopy q := by
  cases q <;> first | exact h.elim | trivial

theorem restoreDataPhase_spares (backup : DecryptedBackup) (snapshot : DatabaseSnapshot)
    (pendingMigrations : Nat) :
    Only SparesCopy (restoreDataPhase setup backup snapshot pendingMigrations) := by
  have hreads : ∀ {α : Type} {p : Prog backupSig α}, Only Reads p → Only SparesCopy p :=
    fun h => h.mono fun _ => Reads.sparesCopy
  refine Only.bindE (.orThrow (Only.lift fun _ => trivial)) fun _ => ?_
  refine Only.bindE (Only.bindE (restoreNamedFiles_spares _ _) fun _ =>
    Only.bindE (restoreArtifactFiles_spares _) fun _ => trivial) fun restored => ?_
  refine Only.bindE (.orThrow (.ofCall trivial)) fun database => ?_
  split
  · trivial
  refine Only.bindE ?_ fun wal => ?_
  · unfold readRestoredWal
    split
    · exact Only.bindE (.orThrow (.ofCall trivial)) fun _ => trivial
    · trivial
  refine Only.bindE (.orThrow (hreads (restoreCompatibility_reads _ _))) fun _ => ?_
  exact Only.bindE (hreads (verify_reads _ _ _)) fun _ => trivial

/-! ## The copy -/

/-- What a call may do. -/
def Calls (setup : Setup κ) : Sem backupSig Disk :=
  fun q d r d' => ∃ o, perform setup o q d = (r, d')

/-- A program whose effect is what is said of its success. -/
abbrev Does (setup : Setup κ) {ε α : Type} (p : ExceptT ε (Prog backupSig) α)
    (Q : α → Disk → Prop) (d : Disk) : Prop :=
  Succeeds (Calls setup) Eq (fun _ _ _ => True) p Q d

/-- What is not copied. -/
def skipped (p : Path) : Prop := runtimeLockPath <+: p ∨ backupDirectoryPath <+: p

theorem not_skipped_root : ¬ skipped [] := by
  simp [skipped, runtimeLockPath, backupDirectoryPath]

/-- What a loop leaves out is all that is skipped below a directory that is not. -/
theorem skipped_concat {source : Path} {name : String} (h : ¬ skipped source) :
    skipped (source ++ [name]) ↔
      source ++ [name] = runtimeLockPath ∨ source ++ [name] = backupDirectoryPath := by
  unfold skipped at h ⊢
  rw [List.prefix_concat_iff, List.prefix_concat_iff]
  grind

theorem skipped.below {p q : Path} (h : skipped p) (hpq : p <+: q) : skipped q :=
  h.imp (fun h => h.trans hpq) fun h => h.trans hpq

/-- A copy that has all of a directory but what is skipped. -/
def CopyOf (source copy : Tree) : Prop :=
  FileTree.Copies skipped (fun q => q ≠ []) source copy

section Copy

variable {source : Tree} {d : Disk} {done : Path → Prop}

/-- A moment of the copying: the paths that are done. -/
def At (source : Tree) (done : Path → Prop) (d : Disk) : Prop :=
  d.data = source ∧ ∃ copy, d.copy = some copy ∧
    FileTree.Copies skipped done source copy

theorem At.congr {done' : Path → Prop} (h : At source done d)
    (hdone : ∀ q, ¬ skipped q → (source.get q).isSome = true → (done q ↔ done' q)) :
    At source done' d := by
  obtain ⟨hdata, copy, hcopy, hcopies⟩ := h
  exact ⟨hdata, copy, hcopy, hcopies.congr hdone⟩

/-- A call that reads, by what it can answer. -/
theorem does_read {ε ε' α : Type} {p : Prog backupSig (Except ε' α)} {wrap : ε' → ε}
    {P : α → Prop}
    (h : Safe (Calls setup) Eq (fun _ _ _ => True) p
      (fun r d' => d' = d ∧ ∀ a, r = .ok a → P a) d) :
    Does setup (orThrow p wrap) (fun a d' => d' = d ∧ P a) d :=
  Succeeds.orThrow (h.imp fun _ _ hr a ha => ⟨hr.1, hr.2 a ha⟩)

theorem safe_read {q : BackupReq} (hq : Reads q) {P : q.Resp → Prop}
    (h : ∀ o, P (perform setup o q d).1) :
    Safe (Calls setup) Eq (fun _ _ _ => True) (call q) (fun r d' => d' = d ∧ P r)
      d := by
  intro d₁ hsame r d' ho
  subst hsame
  obtain ⟨o, ho⟩ := ho
  have hr : (perform setup o q d).1 = r := congrArg Prod.fst ho
  refine ⟨trivial, ?_, hr ▸ h o⟩
  rw [← (hq.perform o d).1]
  exact (congrArg Prod.snd ho).symm

/-- A call that might have failed has not. -/
theorem ok_of_faulty {ε α : Type} {fault : Bool} {e : ε} {r : Except ε α} {a : α}
    (h : (if fault then .error e else r) = .ok a) : r = .ok a := by
  split at h
  · cases h
  · exact h

section Reading

variable {ε : Type} {wrap : IoError → ε} {path : Path}

theorem metadata_does {bytes : Bytes} (h : d.data.get path = some (.file bytes)) :
    Does setup (orThrow (call (.metadata path)) wrap)
      (fun length d' => d' = d ∧ length = bytes.length) d := by
  refine does_read (safe_read (q := .metadata path) trivial fun o length hok => ?_)
  have hok := ok_of_faulty hok
  rw [h] at hok
  cases hok
  rfl

theorem readDirectory_does :
    Does setup (orThrow (call (.readDirectory path)) wrap)
      (fun names d' => d' = d ∧ names = d.data.names path) d := by
  refine does_read (safe_read (q := .readDirectory path) trivial fun o names hok => ?_)
  have hok : (if isDirectory d.data path then .ok (d.data.names path)
      else .error .notFound : Except IoError (List String)) = .ok names :=
    ok_of_faulty hok
  split at hok
  · cases hok
    rfl
  · cases hok

theorem fileType_does :
    Does setup (orThrow (call (.fileType path)) wrap)
      (fun found d' => d' = d ∧
        (found = .directory → d.data.get path = some .directory) ∧
        (found = .regular → ∃ bytes, d.data.get path = some (.file bytes))) d := by
  refine does_read (safe_read (q := .fileType path) trivial fun o found hok => ?_)
  have hok := ok_of_faulty hok
  split at hok
  · next bytes hfile =>
      cases hok
      exact ⟨fun h => (by cases h), fun _ => ⟨bytes, hfile⟩⟩
  · next hdir =>
      cases hok
      exact ⟨fun _ => hdir, fun h => (by cases h)⟩
  · cases hok

/-- A call whose success says nothing. -/
theorem plain_does {α : Type} {p : Prog backupSig (Except IoError α)}
    (h : Safe (Calls setup) Eq (fun _ _ _ => True) p (fun _ d' => d' = d) d) :
    Does setup (orThrow p wrap) (fun _ d' => d' = d) d :=
  Succeeds.orThrow (h.imp fun _ _ hr _ _ => hr)

end Reading

theorem safe_same {q : BackupReq} (hq : Reads q) :
    Safe (Calls setup) Eq (fun _ _ _ => True) (call q) (fun _ d' => d' = d) d :=
  (safe_read (P := fun _ => True) hq fun _ => trivial).imp fun _ _ h => h.1

/-- A file that is copied with the length it has is copied whole. -/
theorem copySnapshotFile_does {path : Path} {bytes : Bytes} (h : At source done d)
    (hsource : source.get path = some (.file bytes)) (hskip : ¬ skipped path) :
    Does setup (copySnapshotFile path)
      (fun _ => At source fun q => done q ∨ q = path) d := by
  obtain ⟨rfl, copy, hcopy, hcopies⟩ := h
  refine Succeeds.bind (metadata_does hsource) fun expected d₁ h₁ => ?_
  obtain ⟨rfl, rfl⟩ := h₁
  refine Succeeds.bind (Q := fun copied d' => ∃ o : Oracle,
    copied = (bytes.take o.landed).length ∧
      d' = { d₁ with copy := some (copy.set path (.file (bytes.take o.landed))) })
    (Succeeds.orThrow ?_) fun copied d₂ h₂ => ?_
  · intro _ hsame r d₂ ho
    subst hsame
    obtain ⟨o, ho⟩ := ho
    have hfile : d₁.data.file path = some bytes := FileTree.file_eq_some_iff.mpr hsource
    simp only [App.Backup.perform, hcopy, hfile] at ho
    cases hfault : o.fault with
    | true =>
        rw [hfault] at ho
        cases ho
        exact ⟨trivial, fun _ hok => by cases hok⟩
    | false =>
        rw [hfault] at ho
        cases ho
        refine ⟨trivial, fun copied hok => ⟨o, ?_, rfl⟩⟩
        cases hok
        rfl
  · obtain ⟨o, rfl, rfl⟩ := h₂
    split
    · exact Succeeds.throw
    · next hlength =>
        have hwhole : bytes.take o.landed = bytes :=
          List.take_of_length_le (by
            have := Decidable.not_not.mp hlength
            rw [List.length_take] at this
            omega)
        refine (plain_does (safe_same (q := .synchronizeCopy path) trivial)).imp
          fun r d₃ hr u hu => ?_
        rw [hr u hu, hwhole]
        exact ⟨rfl, _, rfl, hcopies.set hskip hsource⟩

theorem createDirectory_does {path : Path} (h : At source done d)
    (hsource : source.get path = some .directory) (hskip : ¬ skipped path)
    {wrap : IoError → PreRestoreSnapshotError} :
    Does setup (orThrow (call (.createDirectory path)) wrap)
      (fun _ => At source fun q => done q ∨ q = path) d := by
  obtain ⟨rfl, copy, hcopy, hcopies⟩ := h
  refine Succeeds.orThrow ?_
  intro _ hsame r d₂ ho
  subst hsame
  obtain ⟨o, ho⟩ := ho
  simp only [App.Backup.perform, hcopy] at ho
  split at ho
  · cases ho
    exact ⟨trivial, fun _ h => by cases h⟩
  · cases ho
    exact ⟨trivial, fun _ _ => ⟨rfl, _, rfl, hcopies.set hskip hsource⟩⟩

/-- What stands below a directory, as a loop over its names does it. -/
def Under (source : Path) (names : List String) (q : Path) : Prop :=
  ∃ name ∈ names, source ++ [name] <+: q

/-- The loop over the names, given what a recursion does. -/
theorem copyEntries_does (hclosed : source.Closed)
    {copyDirectory : Path → Copying Unit}
    (hrec : ∀ (p : Path) (done : Path → Prop) (d : Disk), At source done d →
      source.get p = some .directory → ¬ skipped p →
      Does setup (copyDirectory p)
        (fun _ => At source fun q => done q ∨ p <+: q ∧ p ≠ q) d)
    {parent : Path} (hparent : ¬ skipped parent) (names : List String)
    (h : At source done d) :
    Does setup (copyEntries copyDirectory parent names)
      (fun _ => At source fun q => done q ∨ Under parent names q) d := by
  induction names generalizing done d with
  | nil =>
      intro _ _
      exact h.congr fun q _ _ => by simp [Under]
  | cons name names ih =>
      have hcons : ∀ d', At source (fun q => done q ∨ parent ++ [name] <+: q) d' →
          Does setup (copyEntries copyDirectory parent names)
            (fun _ => At source fun q => done q ∨ Under parent (name :: names) q)
            d' := by
        intro d' h'
        refine (ih h').imp fun r d'' hr u hu => (hr u hu).congr fun q _ _ => ?_
        simp [Under, or_assoc]
      refine Succeeds.bind (plain_does (safe_same (q := .nextEntry) trivial))
        fun _ d₁ h₁ => ?_
      subst h₁
      dsimp only
      split
      · next hskip =>
          -- below what is skipped nothing is copied
          refine hcons d₁ (h.congr fun q hq _ => ?_)
          have hnot : ¬ parent ++ [name] <+: q := fun hbelow =>
            hq (((skipped_concat hparent).mpr hskip).below hbelow)
          simp [hnot]
      · next hskip =>
          have hskip : ¬ skipped (parent ++ [name]) :=
            fun hs => hskip ((skipped_concat hparent).mp hs)
          have hdata : d₁.data = source := h.1
          refine Succeeds.bind fileType_does fun found d₂ h₂ => ?_
          obtain ⟨rfl, hdir, hfile⟩ := h₂
          cases found with
          | directory =>
              have hdir := hdata ▸ hdir rfl
              refine Succeeds.bind (createDirectory_does h hdir hskip) fun _ d₃ h₃ => ?_
              refine Succeeds.bind (hrec _ _ d₃ h₃ hdir hskip) fun _ d₄ h₄ => ?_
              refine hcons d₄ (h₄.congr fun q _ _ => ?_)
              grind
          | regular =>
              obtain ⟨bytes, hfile⟩ := hdata ▸ hfile rfl
              refine Succeeds.bind (copySnapshotFile_does h hfile hskip)
                fun _ d₃ h₃ => ?_
              refine hcons d₃ (h₃.congr fun q _ hq => ?_)
              have hbelow : parent ++ [name] <+: q → q = parent ++ [name] := by
                intro hprefix
                by_cases hne : parent ++ [name] = q
                · exact hne.symm
                · rw [hclosed.nothing_below hfile (by simp) hprefix hne] at hq
                  cases hq
              exact or_congr_right ⟨fun hq => hq ▸ List.prefix_refl _, hbelow⟩

/-- What stands below a directory, at any depth, is copied. -/
theorem copyDataDirectory_does (hclosed : source.Closed) (depth : Nat) {parent : Path}
    (hparent : ¬ skipped parent) (h : At source done d) :
    Does setup (copyDataDirectory depth parent)
      (fun _ => At source fun q => done q ∨ parent <+: q ∧ parent ≠ q) d := by
  induction depth generalizing parent done d with
  | zero => exact Succeeds.throw
  | succ depth ih =>
      refine Succeeds.bind readDirectory_does fun names d₁ h₁ => ?_
      obtain ⟨rfl, rfl⟩ := h₁
      refine (copyEntries_does hclosed (fun p done d hat _ hskip => ih hskip hat)
        hparent _ h).imp fun r d₂ hr u hu =>
          (hr u hu).congr fun q _ hq => or_congr_right ?_
      rw [h.1]
      constructor
      · rintro ⟨name, -, hname⟩
        refine ⟨(List.prefix_append parent [name]).trans hname, fun heq => ?_⟩
        have := hname.length_le
        rw [← heq, List.length_append, List.length_singleton] at this
        omega
      · exact fun hbelow => hclosed.named hq hbelow.1 hbelow.2

/-- The copy, once it is made, is whole. -/
theorem createPreRestoreSnapshot_does (hclosed : d.data.Closed) :
    Does setup (createPreRestoreSnapshot setup)
      (fun _ d' => d'.data = d.data ∧ ∃ copy, d'.copy = some copy ∧ CopyOf d.data copy)
      d := by
  unfold createPreRestoreSnapshot
  split
  · refine Succeeds.bind (Q := fun _ d' => At d.data (fun _ => False) d')
      (Succeeds.orThrow ?_) fun _ d₁ h₁ => ?_
    · intro _ hsame r d₁ ho
      subst hsame
      obtain ⟨o, ho⟩ := ho
      simp only [App.Backup.perform] at ho
      split at ho
      · cases ho
        exact ⟨trivial, fun _ h => by cases h⟩
      · cases ho
        exact ⟨trivial, fun _ _ => ⟨rfl, _, rfl, FileTree.Copies.start⟩⟩
    · refine Succeeds.bind (Succeeds.lift (Q := fun r d' => r = .ok () →
        d'.data = d.data ∧ ∃ copy, d'.copy = some copy ∧ CopyOf d.data copy) ?_)
        fun copied d₂ h₂ => ?_
      · refine (copyDataDirectory_does hclosed setup.maxDepth not_skipped_root h₁).imp
          fun r d₂ hr hok => ?_
        obtain ⟨hdata, copy, hcopy, hcopies⟩ := hr () hok
        refine ⟨hdata, copy, hcopy, hcopies.congr fun q _ _ => ?_⟩
        simp [eq_comm]
      · cases copied with
        | ok u => exact fun _ _ => h₂ rfl
        | error e =>
            exact Succeeds.bind (Succeeds.lift (Q := fun _ _ => True)
              (fun _ _ _ _ _ => ⟨trivial, trivial⟩)) fun _ _ _ => Succeeds.throw
  · exact Succeeds.throw

end Copy

/-! ## The database files -/

section StoreFiles

variable {t t' : Tree}

/-- A change of one path. -/
structure Changed (p : Path) (node : Option (Node Bytes)) (t t' : Tree) : Prop where
  here : t'.get p = node
  elsewhere : ∀ q, q ≠ p → t'.get q = t.get q

theorem changed_set (p : Path) (node : Node Bytes) (t : Tree) :
    Changed p (some node) t (t.set p node) :=
  ⟨FileTree.get_set_self, fun _ hq => FileTree.get_set_other hq⟩

theorem changed_remove (p : Path) (t : Tree) : Changed p none t (t.remove p) :=
  ⟨FileTree.get_remove_self, fun _ hq => FileTree.get_remove_other hq⟩

theorem rename_ok {path : Path} {bytes : Bytes} (h : rename t path bytes = .ok t') :
    Changed path (some (.file bytes)) t t' := by
  unfold rename at h
  split at h
  · split at h
    · cases h
    · cases h
      exact changed_set path _ t
  · cases h

/-- What a call of a restore of the database files may do. -/
def StoreCalls : Sem Store.Restore.fileSig Tree :=
  fun q t r t' => ∃ o, performStore o q t = (r, t')

abbrev DoesStore {ε α : Type} (p : ExceptT ε (Prog Store.Restore.fileSig) α)
    (Q : α → Tree → Prop) (t : Tree) : Prop :=
  Succeeds StoreCalls Eq (fun _ _ _ => True) p Q t

theorem store_call {q : Store.Restore.FileReq} {Q : q.Resp → Tree → Prop}
    (h : ∀ o, Q (performStore o q t).1 (performStore o q t).2) :
    Safe StoreCalls Eq (fun _ _ _ => True) (Store.Restore.call q) Q t := by
  intro t₁ hsame r t₂ ho
  subst hsame
  obtain ⟨o, ho⟩ := ho
  have := h o
  rw [ho] at this
  exact ⟨trivial, this⟩

section Calls

variable {ε : Type} {wrap : IoError → ε}

theorem doesStore_plain {p : Prog Store.Restore.fileSig (Except IoError Unit)}
    (h : Safe StoreCalls Eq (fun _ _ _ => True) p (fun _ t' => t' = t) t) :
    DoesStore (orThrow p wrap) (fun _ t' => t' = t) t :=
  Succeeds.orThrow (h.imp fun _ _ hr _ _ => hr)

theorem createMarker_does :
    DoesStore (orThrow (Store.Restore.call .createMarker) wrap)
      (fun _ t' => t' = t.set restorePendingPath (.file [])) t := by
  refine Succeeds.orThrow (store_call fun o u hok => ?_)
  simp only [performStore] at hok ⊢
  split
  · next hfault =>
      rw [if_pos hfault] at hok
      cases hok
  · rfl

theorem writeMarker_does (content : List Char) :
    DoesStore (orThrow (Store.Restore.call (.writeMarker content)) wrap)
      (fun _ t' => t' = t.set restorePendingPath (.file (textBytes content))) t := by
  refine Succeeds.orThrow (store_call fun o u hok => ?_)
  simp only [performStore] at hok ⊢
  split
  · next hfault =>
      rw [if_pos hfault] at hok
      cases hok
  · rfl

theorem persist_does (file : Store.Restore.DataFile) (bytes : Bytes) :
    DoesStore (orThrow (Store.Restore.call (.persist file bytes)) wrap)
      (fun _ t' => Changed (dataFilePath file) (some (.file bytes)) t t') t := by
  refine Succeeds.orThrow (store_call fun o u hok => ?_)
  simp only [performStore] at hok ⊢
  split
  · next hfault =>
      rw [if_pos hfault] at hok
      cases hok
  · next hfault =>
      rw [if_neg hfault] at hok
      cases hrename : rename t (dataFilePath file) bytes with
      | ok t' => exact rename_ok hrename
      | error e =>
          rw [hrename] at hok
          cases hok

end Calls

theorem removeStaleSidecar_does (file : Store.Restore.StoreFile) :
    DoesStore (Store.Restore.removeStaleSidecar file)
      (fun _ t' => Changed (storeFilePath file) none t t') t := by
  refine Succeeds.bind (Succeeds.lift (Q := fun r t' =>
    (r = .ok () ∨ r = .error .notFound) → Changed (storeFilePath file) none t t')
    (store_call fun o hr => ?_)) fun r t' hr => ?_
  · simp only [performStore] at hr ⊢
    split
    · next hfault =>
        rw [if_pos hfault] at hr
        rcases hr with hr | hr <;> cases hr
    · next hfault =>
        rw [if_neg hfault] at hr
        cases hget : t.get (storeFilePath file) with
        | none => exact ⟨hget, fun _ _ => rfl⟩
        | some node =>
            cases node with
            | file bytes => exact changed_remove _ t
            | directory =>
                rw [hget] at hr
                rcases hr with hr | hr <;> cases hr
  · split
    · exact fun _ _ => hr (.inl rfl)
    · exact fun _ _ => hr (.inr rfl)
    · exact Succeeds.throw

variable {restore : Store.Restore.Setup} {snapshot : DatabaseSnapshot}

theorem createParent_does :
    DoesStore (Store.Restore.createParent restore) (fun _ t' => t' = t) t := by
  unfold Store.Restore.createParent
  split
  · exact doesStore_plain (store_call fun _ => rfl)
  · exact fun _ _ => rfl

theorem writeRestoreMarker_does :
    DoesStore (Store.Restore.writeRestoreMarker restore snapshot)
      (fun _ t' => ∀ q, q ≠ restorePendingPath → t'.get q = t.get q) t := by
  refine Succeeds.bind createParent_does fun _ t₁ h₁ => ?_
  subst h₁
  have hread : ∀ (file : Store.Restore.DataFile) (fallback : List Char) (t : Tree),
      Safe StoreCalls Eq (fun _ _ _ => True)
        (Store.Restore.fingerprintOfFileOr restore file fallback)
        (fun _ t' => t' = t) t := by
    intro file fallback t
    refine Safe.bind.mpr (store_call fun o => ?_)
    dsimp only [performStore]
    split <;> rfl
  refine Succeeds.bind (Succeeds.lift (hread _ _ _)) fun preDatabase t₂ h₂ => ?_
  subst h₂
  refine Succeeds.bind (Succeeds.lift (hread _ _ _)) fun preWal t₃ h₃ => ?_
  subst h₃
  refine Succeeds.bind createMarker_does fun _ t₄ h₄ => ?_
  refine Succeeds.bind (writeMarker_does _) fun _ t₅ h₅ => ?_
  refine (doesStore_plain (store_call fun _ => rfl)).imp fun r t₆ h₆ u hu q hq => ?_
  rw [h₆ u hu, h₅, h₄, FileTree.get_set_other hq, FileTree.get_set_other hq]

theorem replaceFile_does (file : Store.Restore.DataFile) (bytes : Bytes) :
    DoesStore (Store.Restore.replaceFile restore file bytes)
      (fun _ t' => Changed (dataFilePath file) (some (.file bytes)) t t') t := by
  unfold Store.Restore.replaceFile
  split
  · refine Succeeds.bind (doesStore_plain (store_call fun _ => rfl)) fun _ t₁ h₁ => ?_
    subst h₁
    refine Succeeds.bind (doesStore_plain (store_call fun _ => rfl)) fun _ t₂ h₂ => ?_
    subst h₂
    refine Succeeds.bind (doesStore_plain (store_call fun _ => rfl)) fun _ t₃ h₃ => ?_
    subst h₃
    refine Succeeds.bind (persist_does file bytes) fun _ t₄ h₄ => ?_
    refine (doesStore_plain (store_call fun _ => rfl)).imp fun r t₅ h₅ u hu => ?_
    rw [h₅ u hu]
    exact h₄
  · exact Succeeds.throw

theorem replaceWal_does :
    DoesStore (Store.Restore.replaceWal restore snapshot)
      (fun _ t' => Changed walPath (snapshot.wal.map .file) t t') t := by
  unfold Store.Restore.replaceWal
  cases snapshot.wal with
  | some wal => exact replaceFile_does .wal wal
  | none => exact removeStaleSidecar_does (.data .wal)

/-- The four files, restored; everything else as before. -/
structure StoreRestored (snapshot : DatabaseSnapshot) (t t' : Tree) : Prop where
  database : t'.get databasePath = some (.file snapshot.database)
  wal : t'.get walPath = snapshot.wal.map .file
  shm : t'.get shmPath = none
  pending : t'.get restorePendingPath = none
  others : ∀ q, q ∉ [databasePath, walPath, shmPath, restorePendingPath] →
    t'.get q = t.get q

theorem restoreDatabaseFiles_does :
    DoesStore (Store.Restore.restoreDatabaseFiles restore snapshot)
      (fun _ t' => StoreRestored snapshot t t') t := by
  refine Succeeds.bind (Succeeds.lift (Q := fun _ t' => t' = t)
    (store_call fun _ => rfl)) fun found t₁ h₁ => ?_
  subst h₁
  split
  · exact Succeeds.throw
  · exact Succeeds.throw
  refine Succeeds.bind writeRestoreMarker_does fun _ t₂ h₂ => ?_
  refine Succeeds.bind (replaceFile_does .database snapshot.database) fun _ t₃ h₃ => ?_
  refine Succeeds.bind replaceWal_does fun _ t₄ h₄ => ?_
  refine Succeeds.bind (removeStaleSidecar_does (.data .shm)) fun _ t₅ h₅ => ?_
  refine Succeeds.orThrow ((removeStaleSidecar_does .marker).imp fun r t₆ hr u hu => ?_)
  have h₆ := hr u hu
  simp only [dataFilePath, storeFilePath] at h₃ h₅ h₆
  refine ⟨?_, ?_, ?_, h₆.here, fun q hq => ?_⟩
  · rw [h₆.elsewhere _ (by decide), h₅.elsewhere _ (by decide),
      h₄.elsewhere _ (by decide), h₃.here]
  · rw [h₆.elsewhere _ (by decide), h₅.elsewhere _ (by decide), h₄.here]
  · rw [h₆.elsewhere _ (by decide), h₅.here]
  · simp only [List.mem_cons, List.not_mem_nil, or_false, not_or] at hq
    rw [h₆.elsewhere q hq.2.2.2, h₅.elsewhere q hq.2.2.1, h₄.elsewhere q hq.2.1,
      h₃.elsewhere q hq.1, h₂ q hq.2.2.2]

/-- The same inside a restore: only the data directory is changed. -/
theorem lift_does {ε α : Type} {p : ExceptT ε (Prog Store.Restore.fileSig) α}
    {Q : α → Tree → Prop} {d : Disk} (h : DoesStore p Q d.data) :
    Safe (Calls setup) Eq (fun _ _ _ => True) (Prog.lift (T := backupSig) p.run)
      (fun r d' => d' = { d with data := d'.data } ∧ ∀ a, r = .ok a → Q a d'.data)
      d := by
  have hlift : ∀ (p : Prog Store.Restore.fileSig (Except ε α)) (d₁ : Disk),
      d₁ = { d with data := d₁.data } →
      Safe StoreCalls Eq (fun _ _ _ => True) p (fun r t => ∀ a, r = .ok a → Q a t)
        d₁.data →
      Safe (Calls setup) Eq (fun _ _ _ => True) (Prog.lift (T := backupSig) p)
        (fun r d' => d' = { d with data := d'.data } ∧ ∀ a, r = .ok a → Q a d'.data)
        d₁ := by
    intro p
    induction p with
    | ret r => exact fun d₁ hd hsafe => ⟨hd, hsafe⟩
    | call q k ih =>
        intro d₁ hd hsafe _ hsame r d₂ ho
        subst hsame
        obtain ⟨o, ho⟩ := ho
        cases ho
        refine ⟨trivial, ih _ _ ?_ (hsafe _ rfl _ _ ⟨o, rfl⟩).2⟩
        rw [hd]
  exact hlift p.run d rfl h

end StoreFiles

end Rutilus.Proofs.RestoreStages
