import Rutilus.Lib.Listing
import Rutilus.Proofs.BackupPackages
import Rutilus.Proofs.RestoreStages

/-!
# What a restore comes to

A restore that succeeds has put every file of the package over the data directory: the
database and its WAL are those of the package, and each other path has what the last
entry for it says or what it had before. Then every ready artifact has its file, and
every artifact file of the package its row.

Until then nothing is lost. In every state of every run, with whatever call failing and
wherever the run stops, the directory is as it was, or its copy is whole, or the restore
is through; and what is answered says which of these it is.
-/

namespace Rutilus.Proofs.BackupRestore

open Rutilus.Domain Rutilus.Lib Rutilus.App.Backup Rutilus.Security
open Rutilus.Proofs.RestoreStages
open Rutilus.Lib.FileTree (Overlaid lastWrite)
open Rutilus.Store.Restore (DatabaseSnapshot IoError)
open Rutilus.Security.BackupPackage (BackupManifest Cipher DecryptedBackup
  DecryptedEntry Failure Json Nonce openBackupPackage)

variable {κ : Type} {setup : Setup κ} {d : Disk}

/-! ## Writing a file -/

theorem makeDirectories_get {data data' : Tree} {above path : Path}
    (h : makeDirectories data above path = some data') (q : Path) :
    data'.get q = data.get q ∨
      data.get q = none ∧ data'.get q = some .directory ∧ q <+: above ++ path := by
  induction path generalizing data above with
  | nil =>
      cases h
      exact .inl rfl
  | cons name names ih =>
      have hbelow : above ++ [name] ++ names = above ++ name :: names := by simp
      unfold makeDirectories at h
      split at h
      · next hnone =>
          have hnew := ih h
          rw [hbelow] at hnew
          by_cases hq : q = above ++ [name]
          · subst hq
            have hset : (data.set (above ++ [name]) .directory).get (above ++ [name]) =
              some .directory := FileTree.get_set_self
            rcases hnew with hsame | ⟨hnone', -⟩
            · exact .inr ⟨hnone, hsame.trans hset, hbelow ▸ List.prefix_append _ _⟩
            · rw [hset] at hnone'
              cases hnone'
          · rw [FileTree.get_set_other hq] at hnew
            exact hnew
      · rw [← hbelow]
        exact ih h
      · cases h

/-- One call, whatever it is answered. -/
theorem call_does {q : BackupReq} {Q : q.Resp → Disk → Prop}
    (h : ∀ o, Q (perform setup o q d).1 (perform setup o q d).2) :
    Safe (Calls setup) Eq (fun _ _ _ => True) (call q) Q d := by
  intro d₁ hsame r d₂ ho
  subst hsame
  obtain ⟨o, ho⟩ := ho
  have := h o
  rw [ho] at this
  exact ⟨trivial, this⟩

theorem createDirAll_does (path : Path) {ε : Type} {wrap : IoError → ε} :
    Does setup (orThrow (call (.createDirAll path)) wrap)
      (fun _ d' => ∀ q, d'.data.get q = d.data.get q ∨
        d.data.get q = none ∧ d'.data.get q = some .directory ∧ q <+: path) d := by
  refine Succeeds.orThrow (call_does fun o u hok q => ?_)
  simp only [perform] at hok ⊢
  split
  · next hfault =>
      rw [if_pos hfault] at hok
      cases hok
  · next hfault =>
      rw [if_neg hfault] at hok
      cases hmade : makeDirectories d.data [] path with
      | none =>
          rw [hmade] at hok
          cases hok
      | some data => exact makeDirectories_get hmade q

theorem persist_does (path : Path) (bytes : Bytes) {ε : Type} {wrap : IoError → ε} :
    Does setup (orThrow (call (.persist path bytes)) wrap)
      (fun _ d' => Changed path (some (.file bytes)) d.data d'.data) d := by
  refine Succeeds.orThrow (call_does fun o u hok => ?_)
  simp only [perform] at hok ⊢
  split
  · next hfault =>
      rw [if_pos hfault] at hok
      cases hok
  · next hfault =>
      rw [if_neg hfault] at hok
      cases hrename : rename d.data path bytes with
      | ok data => exact rename_ok hrename
      | error e =>
          rw [hrename] at hok
          cases hok

theorem writeFileAtomic_does (path : Path) (bytes : Bytes) :
    Does setup (writeFileAtomic path bytes)
      (fun _ d' => Overlaid [(path, bytes)] d.data d'.data) d := by
  refine Succeeds.bind (createDirAll_does path.dropLast) fun _ d₁ h₁ => ?_
  refine Succeeds.bind (plain_does (safe_same (q := .createTemporary) trivial))
    fun _ d₂ h₂ => ?_
  refine Succeeds.bind (plain_does (safe_same (q := .writeTemporary bytes) trivial))
    fun _ d₃ h₃ => ?_
  refine Succeeds.bind (plain_does (safe_same (q := .synchronizeTemporary) trivial))
    fun _ d₄ h₄ => ?_
  refine Succeeds.bind (persist_does path bytes) fun _ d₅ h₅ => ?_
  refine (plain_does (safe_same (q := .synchronizePersisted) trivial)).imp
    fun r d₆ h₆ u hu => ?_
  rw [h₆ u hu]
  rw [h₄, h₃, h₂] at h₅
  constructor
  · intro q content hlast
    have hmem := FileTree.mem_of_lastWrite hlast
    rw [List.mem_singleton] at hmem
    cases hmem
    exact h₅.here
  · intro q hlast
    have hq : path ≠ q := FileTree.lastWrite_eq_none_iff.mp hlast _ List.mem_cons_self
    rw [h₅.elsewhere q hq.symm]
    refine (h₁ q).imp_right fun hnew => ⟨hnew.1, hnew.2.1, _, List.mem_cons_self, ?_⟩
    exact hnew.2.2.trans (List.dropLast_prefix path)

theorem writeRestoredFile_does (path : Path) (bytes : Bytes) :
    Does setup (writeRestoredFile (κ := κ) path bytes)
      (fun _ d' => Overlaid [(path, bytes)] d.data d'.data) d :=
  Succeeds.orThrow (writeFileAtomic_does path bytes)

/-! ## The files of a package -/

/-- The named files that a package has, under their paths. -/
def namedWrites (backup : DecryptedBackup) (files : List (String × Path)) :
    List (Path × Bytes) :=
  files.filterMap fun file =>
    (DecryptedBackup.entry backup file.1).map fun entry => (file.2, entry.content)

/-- The artifact files of a package, under their paths. -/
def artifactWrites (setup : Setup κ) (entries : List DecryptedEntry) :
    List (Path × Bytes) :=
  (entries.filter fun entry => entry.kind = .artifactFile).filterMap fun entry =>
    (artifactOfName setup entry.name).map fun id =>
      (artifactFilePath setup id, entry.content)

/-- The files of a package beside the database, in the order they are written in. -/
def restoredFiles (setup : Setup κ) (backup : DecryptedBackup) : List (Path × Bytes) :=
  namedWrites backup namedFiles ++ artifactWrites setup backup.entries

theorem restoreNamedFiles_does (backup : DecryptedBackup)
    (files : List (String × Path)) :
    Does setup (restoreNamedFiles (κ := κ) backup files)
      (fun restored d' => restored = (namedWrites backup files).length ∧
        Overlaid (namedWrites backup files) d.data d'.data) d := by
  induction files generalizing d with
  | nil =>
      intro restored hok
      cases hok
      exact ⟨rfl, .refl⟩
  | cons file files ih =>
      unfold restoreNamedFiles
      cases hentry : DecryptedBackup.entry backup file.1 with
      | none =>
          have hsame : namedWrites backup (file :: files) = namedWrites backup files :=
            List.filterMap_cons_none (by rw [hentry]; rfl)
          rw [hsame]
          exact ih
      | some entry =>
          have hcons : namedWrites backup (file :: files) =
              [(file.2, entry.content)] ++ namedWrites backup files :=
            List.filterMap_cons_some (by rw [hentry]; rfl)
          rw [hcons]
          refine Succeeds.bind (writeRestoredFile_does file.2 entry.content)
            fun _ d₁ h₁ => ?_
          refine Succeeds.bind ih fun restored d₂ h₂ => ?_
          intro count hok
          cases hok
          refine ⟨?_, h₁.append h₂.2⟩
          rw [h₂.1, List.length_append, List.length_singleton, Nat.add_comm]

theorem restoreArtifactFiles_does (entries : List DecryptedEntry) :
    Does setup (restoreArtifactFiles setup entries)
      (fun restored d' => restored = (artifactWrites setup entries).length ∧
        Overlaid (artifactWrites setup entries) d.data d'.data) d := by
  induction entries generalizing d with
  | nil =>
      intro restored hok
      cases hok
      exact ⟨rfl, .refl⟩
  | cons entry entries ih =>
      unfold restoreArtifactFiles
      split
      · next hkind =>
          have hsame : artifactWrites setup (entry :: entries) =
              artifactWrites setup entries := by
            unfold artifactWrites
            rw [List.filter_cons_of_neg (by simpa using hkind)]
          rw [hsame]
          exact ih
      · next hkind =>
          cases hid : artifactOfName setup entry.name with
          | none => exact Succeeds.throw
          | some id =>
              have hcons : artifactWrites setup (entry :: entries) =
                  [(artifactFilePath setup id, entry.content)] ++
                    artifactWrites setup entries := by
                unfold artifactWrites
                rw [List.filter_cons_of_pos (by simpa using hkind)]
                exact List.filterMap_cons_some (by rw [hid]; rfl)
              rw [hcons]
              refine Succeeds.bind (writeRestoredFile_does _ _) fun _ d₁ h₁ => ?_
              refine Succeeds.bind ih fun restored d₂ h₂ => ?_
              intro count hok
              cases hok
              refine ⟨?_, h₁.append h₂.2⟩
              rw [h₂.1, List.length_append, List.length_singleton, Nat.add_comm]

theorem restoreDataDirectoryFiles_does (backup : DecryptedBackup) :
    Does setup (restoreDataDirectoryFiles setup backup)
      (fun restored d' => restored = (restoredFiles setup backup).length ∧
        Overlaid (restoredFiles setup backup) d.data d'.data) d := by
  refine Succeeds.bind (restoreNamedFiles_does backup namedFiles) fun named d₁ h₁ => ?_
  refine Succeeds.bind (restoreArtifactFiles_does backup.entries)
    fun artifacts d₂ h₂ => ?_
  intro count hok
  cases hok
  refine ⟨?_, h₁.2.append h₂.2⟩
  rw [h₁.1, h₂.1, restoredFiles, List.length_append]

/-! ## The artifacts of a database -/

/-- Every row of a database, and no other, is among what its listings give. -/
structure Lists (found : Database) (states : List ArtifactState)
    (rows : List Artifact) : Prop where
  complete : ∀ row ∈ found.artifacts.rows, row.state ∈ states →
    ∃ artifact ∈ rows, artifact.id = row.id ∧ artifact.state = row.state
  sound : ∀ artifact ∈ rows, ∃ row ∈ found.artifacts.rows, row.id = artifact.id

theorem listArtifacts_ok {found : Option Database} {state : ArtifactState}
    {rows : List Artifact} (h : App.Backup.listArtifacts found state = .ok rows) :
    ∃ database, found = some database ∧ Lists database [state] rows := by
  cases found with
  | none => cases h
  | some database =>
      refine ⟨database, rfl, fun row hrow hstate => ?_, fun artifact hartifact => ?_⟩
      · have hmem : row ∈ (database.artifacts.rows.filter
            fun row => row.state = state).insertionSort Store.declaredBefore := by
          rw [List.mem_insertionSort, List.mem_filter]
          exact ⟨hrow, by simpa using hstate⟩
        obtain ⟨artifact, hmap, hartifact⟩ := exists_mapM_of_mem h hmem
        have heq := Store.mapStoredArtifact_ok hartifact
        refine ⟨artifact, hmap, ?_, ?_⟩
        · rw [heq]
          rfl
        · rw [heq]
          rfl
      · obtain ⟨row, hrow, hmap⟩ := exists_of_mem_mapM h hartifact
        rw [List.mem_insertionSort, List.mem_filter] at hrow
        refine ⟨row, hrow.1, ?_⟩
        rw [Store.mapStoredArtifact_ok hmap]
        rfl

theorem Lists.append {found : Database} {states states' : List ArtifactState}
    {rows rows' : List Artifact} (h : Lists found states rows)
    (h' : Lists found states' rows') :
    Lists found (states ++ states') (rows ++ rows') := by
  constructor
  · intro row hrow hstate
    rcases List.mem_append.mp hstate with hstate | hstate
    · obtain ⟨artifact, hmem, hsame⟩ := h.complete row hrow hstate
      exact ⟨artifact, List.mem_append_left _ hmem, hsame⟩
    · obtain ⟨artifact, hmem, hsame⟩ := h'.complete row hrow hstate
      exact ⟨artifact, List.mem_append_right _ hmem, hsame⟩
  · intro artifact hartifact
    rcases List.mem_append.mp hartifact with hmem | hmem
    · exact h.sound artifact hmem
    · exact h'.sound artifact hmem

section Verify

variable {database : Bytes} {wal : Option Bytes}

theorem stagedRows_does (states : List ArtifactState) :
    Does setup (stagedRows (κ := κ) database wal states)
      (fun rows d' => d' = d ∧
        (states ≠ [] → (setup.sqlite database wal).isSome = true) ∧
        ∀ found, setup.sqlite database wal = some found → Lists found states rows)
      d := by
  induction states with
  | nil =>
      intro rows hok
      cases hok
      exact ⟨rfl, fun h => absurd rfl h, fun found _ => ⟨by simp, by simp⟩⟩
  | cons state states ih =>
      refine Succeeds.bind (Q := fun rows d' => d' = d ∧ ∃ found,
        setup.sqlite database wal = some found ∧ Lists found [state] rows)
        (does_read (safe_read (q := .stagedArtifacts database wal state) trivial
          fun o rows hok => ?_)) fun rows d₁ h₁ => ?_
      · exact listArtifacts_ok (ok_of_faulty hok)
      · obtain ⟨rfl, found, hfound, hlists⟩ := h₁
        refine Succeeds.bind ih fun rest d₂ h₂ => ?_
        obtain ⟨rfl, -, hrest⟩ := h₂
        intro all hok
        cases hok
        refine ⟨rfl, fun _ => by rw [hfound]; rfl, fun found' hfound' => ?_⟩
        rw [hfound] at hfound'
        cases hfound'
        exact hlists.append (hrest found hfound)

theorem missingFiles_does (rows : List Artifact) :
    Does setup (missingFiles setup rows)
      (fun missing d' => d' = d ∧ (missing = [] → ∀ artifact ∈ rows,
        artifact.state = .ready →
          (d.data.file (artifactFilePath setup artifact.id)).isSome = true)) d := by
  induction rows with
  | nil =>
      intro missing hok
      cases hok
      exact ⟨rfl, by simp⟩
  | cons artifact rows ih =>
      unfold missingFiles
      split
      · next hready =>
          refine Succeeds.bind (Q := fun there d' => d' = d ∧ (there = true →
            (d.data.file (artifactFilePath setup artifact.id)).isSome = true))
            (Succeeds.lift (safe_read
              (q := .isFile (artifactFilePath setup artifact.id)) trivial
                fun o hthere => ?_)) fun there d₁ h₁ => ?_
          · exact (Bool.and_eq_true_iff.mp hthere).2
          · obtain ⟨rfl, hthere⟩ := h₁
            refine Succeeds.bind ih fun missing d₂ h₂ => ?_
            obtain ⟨rfl, hmissing⟩ := h₂
            intro all hok
            cases hok
            refine ⟨rfl, fun hnone => ?_⟩
            cases there with
            | false => simp at hnone
            | true =>
                intro other hother hstate
                rcases List.mem_cons.mp hother with rfl | hother
                · exact hthere rfl
                · exact hmissing hnone other hother hstate
      · next hready =>
          refine ih.imp fun r d₁ hr missing hok => ?_
          obtain ⟨hsame, hmissing⟩ := hr missing hok
          refine ⟨hsame, fun hnone other hother hstate => ?_⟩
          rcases List.mem_cons.mp hother with rfl | hother
          · exact absurd hstate hready
          · exact hmissing hnone other hother hstate

theorem orphanEntries_does (rows : List Artifact) (entries : List DecryptedEntry) :
    Does setup (orphanEntries setup rows entries)
      (fun orphans d' => d' = d ∧ (orphans = [] → ∀ entry ∈ entries,
        entry.kind = .artifactFile → ∃ artifact ∈ rows,
          artifactOfName setup entry.name = some artifact.id)) d := by
  induction entries with
  | nil =>
      intro orphans hok
      cases hok
      exact ⟨rfl, by simp⟩
  | cons entry entries ih =>
      unfold orphanEntries
      split
      · next hkind =>
          refine ih.imp fun r d₁ hr orphans hok => ?_
          obtain ⟨hsame, horphans⟩ := hr orphans hok
          refine ⟨hsame, fun hnone other hother hfile => ?_⟩
          rcases List.mem_cons.mp hother with rfl | hother
          · exact absurd hfile hkind
          · exact horphans hnone other hother hfile
      · cases hid : artifactOfName setup entry.name with
        | none => exact Succeeds.throw
        | some id =>
            refine Succeeds.bind ih fun orphans d₁ h₁ => ?_
            obtain ⟨rfl, horphans⟩ := h₁
            intro all hok
            cases hok
            refine ⟨rfl, fun hnone other hother hfile => ?_⟩
            split at hnone
            · next hmem =>
                rcases List.mem_cons.mp hother with rfl | hother
                · obtain ⟨artifact, hartifact, rfl⟩ := List.mem_map.mp hmem
                  exact ⟨artifact, hartifact, hid⟩
                · exact horphans hnone other hother hfile
            · cases hnone

/-- The files of the artifacts agree with the rows of a database: a ready one has its
file, and a file that was restored has its row. -/
structure Consistent (setup : Setup κ) (found : Database) (backup : DecryptedBackup)
    (data : Tree) : Prop where
  files : ∀ row ∈ found.artifacts.rows, row.state = .ready →
    (data.file (artifactFilePath setup row.id)).isSome = true
  rows : ∀ entry ∈ backup.entries, entry.kind = .artifactFile →
    ∃ row ∈ found.artifacts.rows, artifactOfName setup entry.name = some row.id

theorem mem_artifactStates (state : ArtifactState) : state ∈ artifactStates := by
  cases state <;> decide

theorem verify_does (backup : DecryptedBackup) :
    Does setup (verifyRestoredArtifactConsistency setup backup database wal)
      (fun _ d' => d' = d ∧ ∃ found, setup.sqlite database wal = some found ∧
        Consistent setup found backup d.data) d := by
  refine Succeeds.bind (plain_does (safe_same (q := .stage) trivial)) fun _ d₁ h₁ => ?_
  subst h₁
  refine Succeeds.bind (plain_does (safe_same (q := .openStaged database wal) trivial))
    fun _ d₂ h₂ => ?_
  subst h₂
  refine Succeeds.bind (stagedRows_does artifactStates) fun rows d₃ h₃ => ?_
  obtain ⟨rfl, hsome, hlists⟩ := h₃
  refine Succeeds.bind (missingFiles_does rows) fun missing d₄ h₄ => ?_
  obtain ⟨rfl, hmissing⟩ := h₄
  refine Succeeds.bind (orphanEntries_does rows backup.entries) fun orphans d₅ h₅ => ?_
  obtain ⟨rfl, horphans⟩ := h₅
  refine Succeeds.bind (plain_does (safe_same (q := .closeStaged) trivial))
    fun _ d₆ h₆ => ?_
  subst h₆
  split
  · next hempty =>
      rw [List.isEmpty_iff, List.isEmpty_iff] at hempty
      intro u hok
      cases hok
      obtain ⟨found, hfound⟩ := Option.isSome_iff_exists.mp (hsome (by decide))
      have hrows := hlists found hfound
      refine ⟨rfl, found, hfound, fun row hrow hready => ?_,
        fun entry hentry hkind => ?_⟩
      · obtain ⟨artifact, hartifact, hid, hstate⟩ :=
          hrows.complete row hrow (mem_artifactStates row.state)
        rw [← hid]
        exact hmissing hempty.1 artifact hartifact (hstate.trans hready)
      · obtain ⟨artifact, hartifact, hname⟩ := horphans hempty.2 entry hentry hkind
        obtain ⟨row, hrow, hid⟩ := hrows.sound artifact hartifact
        exact ⟨row, hrow, hid ▸ hname⟩
  · exact Succeeds.throw

end Verify

/-! ## The data phase -/

/-- A data directory onto which a package was restored. -/
structure Restored (setup : Setup κ) (backup : DecryptedBackup)
    (snapshot : DatabaseSnapshot) (data data' : Tree) : Prop where
  database : data'.get databasePath = some (.file snapshot.database)
  wal : data'.get walPath = snapshot.wal.map .file
  shm : data'.get shmPath = none
  pending : data'.get restorePendingPath = none
  written : ∀ q content, lastWrite (restoredFiles setup backup) q = some content →
    data'.get q = some (.file content)
  others : ∀ q, q ∉ [databasePath, walPath, shmPath, restorePendingPath] →
    lastWrite (restoredFiles setup backup) q = none →
    data'.get q = data.get q ∨ data.get q = none ∧ data'.get q = some .directory ∧
      ∃ write ∈ restoredFiles setup backup, q <+: write.1
  consistent : ∃ found, setup.sqlite snapshot.database snapshot.wal = some found ∧
    Consistent setup found backup data'

theorem mem_namedWrites {backup : DecryptedBackup} {files : List (String × Path)}
    {write : Path × Bytes} (h : write ∈ namedWrites backup files) :
    ∃ file ∈ files, file.2 = write.1 := by
  obtain ⟨file, hfile, hentry⟩ := List.mem_filterMap.mp h
  obtain ⟨entry, -, rfl⟩ := Option.map_eq_some_iff.mp hentry
  exact ⟨file, hfile, rfl⟩

theorem mem_artifactWrites {entries : List DecryptedEntry} {write : Path × Bytes} :
    write ∈ artifactWrites setup entries ↔ ∃ entry ∈ entries,
      entry.kind = .artifactFile ∧ ∃ id, artifactOfName setup entry.name = some id ∧
        (artifactFilePath setup id, entry.content) = write := by
  simp [artifactWrites, and_assoc]

/-- No file of the package goes where the database and its like are. -/
theorem lastWrite_store {backup : DecryptedBackup} {q : Path}
    (hq : q ∈ [databasePath, walPath, shmPath, restorePendingPath]) :
    ∀ write ∈ restoredFiles setup backup, ¬ q <+: write.1 := by
  intro write hwrite
  rcases List.mem_append.mp hwrite with hwrite | hwrite
  · obtain ⟨file, hfile, hpath⟩ := mem_namedWrites hwrite
    rw [← hpath]
    clear hwrite hpath
    revert file q
    decide
  · obtain ⟨entry, -, -, id, -, rfl⟩ := mem_artifactWrites.mp hwrite
    simp only [List.mem_cons, List.not_mem_nil, or_false] at hq
    rcases hq with rfl | rfl | rfl | rfl
    all_goals
      simp [artifactFilePath, databasePath, walPath, shmPath, restorePendingPath]

theorem spared {backup : DecryptedBackup} {t t' : Tree} {q : Path}
    (h : Overlaid (restoredFiles setup backup) t t')
    (hq : q ∈ [databasePath, walPath, shmPath, restorePendingPath]) :
    t'.get q = t.get q := by
  have hnone : lastWrite (restoredFiles setup backup) q = none :=
    FileTree.lastWrite_eq_none_iff.mpr fun write hwrite heq =>
      lastWrite_store hq write hwrite (heq ▸ List.prefix_refl _)
  rcases h.others q hnone with hsame | ⟨-, -, write, hwrite, hbelow⟩
  · exact hsame
  · exact absurd hbelow (lastWrite_store hq write hwrite)

theorem restored_of_stages {backup : DecryptedBackup} {snapshot : DatabaseSnapshot}
    {t t₁ t₂ : Tree} (hstore : StoreRestored snapshot t t₁)
    (hfiles : Overlaid (restoredFiles setup backup) t₁ t₂)
    (hconsistent : ∃ found, setup.sqlite snapshot.database snapshot.wal = some found ∧
      Consistent setup found backup t₂) :
    Restored setup backup snapshot t t₂ := by
  refine ⟨?_, ?_, ?_, ?_, hfiles.written, fun q hq hlast => ?_, hconsistent⟩
  · rw [spared hfiles (by simp), hstore.database]
  · rw [spared hfiles (by simp), hstore.wal]
  · rw [spared hfiles (by simp), hstore.shm]
  · rw [spared hfiles (by simp), hstore.pending]
  · rw [← hstore.others q hq]
    exact hfiles.others q hlast

theorem readRestored_does (path : Path) :
    Does setup (readRestored (κ := κ) path)
      (fun bytes d' => d' = d ∧ d.data.get path = some (.file bytes)) d := by
  refine does_read (safe_read (q := .read path) trivial fun o bytes hok => ?_)
  have hok : readFile d.data path = .ok bytes := ok_of_faulty hok
  unfold readFile at hok
  split at hok
  · next hfile =>
      cases hok
      exact hfile
  · cases hok
  · cases hok

theorem readRestoredWal_does (snapshot : DatabaseSnapshot) :
    Does setup (readRestoredWal (κ := κ) snapshot)
      (fun wal d' => d' = d ∧ (d.data.get walPath = snapshot.wal.map .file →
        wal = snapshot.wal)) d := by
  unfold readRestoredWal
  cases snapshot.wal with
  | none =>
      intro wal hok
      cases hok
      exact ⟨rfl, fun _ => rfl⟩
  | some expected =>
      refine Succeeds.bind (readRestored_does walPath) fun bytes d₁ h₁ => ?_
      obtain ⟨rfl, hbytes⟩ := h₁
      intro wal hok
      cases hok
      refine ⟨rfl, fun hexpected => ?_⟩
      rw [hbytes] at hexpected
      cases hexpected
      rfl

/-- The database that a staged copy opens to. -/
theorem restoreCompatibility_does (database : Bytes) (wal : Option Bytes) :
    Does setup (restoreCompatibility setup database wal)
      (fun compatibility d' => d' = d ∧ ∃ found,
        setup.sqlite database wal = some found ∧
          compatibility = compatibilityOf setup found.applied) d := by
  refine Succeeds.bind (plain_does (safe_same (q := .stage) trivial)) fun _ d₁ h₁ => ?_
  subst h₁
  refine Succeeds.bind (plain_does (safe_same (q := .openStaged database wal) trivial))
    fun _ d₂ h₂ => ?_
  subst h₂
  refine Succeeds.bind (Q := fun applied d' => d' = d₂ ∧ ∃ found,
    setup.sqlite database wal = some found ∧ applied = found.applied)
    (does_read (safe_read (q := .stagedMigrations database wal) trivial
      fun o applied hok => ?_)) fun applied d₃ h₃ => ?_
  · have hok : migrations (setup.sqlite database wal) = .ok applied := ok_of_faulty hok
    cases hfound : setup.sqlite database wal with
    | none =>
        rw [hfound] at hok
        cases hok
    | some found =>
        rw [hfound] at hok
        cases hok
        exact ⟨found, rfl, rfl⟩
  · obtain ⟨rfl, found, hfound, rfl⟩ := h₃
    refine Succeeds.bind (plain_does (safe_same (q := .closeStaged) trivial))
      fun _ d₄ h₄ => ?_
    subst h₄
    intro compatibility hok
    cases hok
    exact ⟨rfl, found, hfound, rfl⟩

theorem restoreDataPhase_does (backup : DecryptedBackup) (snapshot : DatabaseSnapshot)
    (pendingMigrations : Nat) :
    Does setup (restoreDataPhase setup backup snapshot pendingMigrations)
      (fun outcome d' =>
        outcome = ⟨(restoredFiles setup backup).length, pendingMigrations⟩ ∧
          Restored setup backup snapshot d.data d'.data) d := by
  refine Succeeds.bind (Q := fun _ d' => StoreRestored snapshot d.data d'.data)
    (Succeeds.orThrow ((lift_does restoreDatabaseFiles_does).imp
      fun r d' hr u hu => hr.2 u hu)) fun _ d₁ h₁ => ?_
  refine Succeeds.bind (restoreDataDirectoryFiles_does backup) fun restored d₂ h₂ => ?_
  obtain ⟨rfl, hfiles⟩ := h₂
  refine Succeeds.bind (readRestored_does databasePath) fun database d₃ h₃ => ?_
  obtain ⟨rfl, hdatabase⟩ := h₃
  split
  · exact Succeeds.throw
  next hsame =>
  obtain rfl := not_ne_iff.mp hsame
  refine Succeeds.bind (readRestoredWal_does snapshot) fun wal d₄ h₄ => ?_
  obtain ⟨rfl, hwal⟩ := h₄
  refine Succeeds.bind (Q := fun _ d' => d' = d₄) (Succeeds.orThrow
    ((restoreCompatibility_does snapshot.database wal).imp fun r d' hr found hok =>
      (hr found hok).1)) fun _ d₅ h₅ => ?_
  subst h₅
  refine Succeeds.bind (verify_does backup) fun _ d₆ h₆ => ?_
  obtain ⟨rfl, hconsistent⟩ := h₆
  intro outcome hok
  cases hok
  refine ⟨rfl, restored_of_stages h₁ hfiles ?_⟩
  have hlive : d₆.data.get walPath = snapshot.wal.map .file := by
    rw [spared hfiles (by simp), h₁.wal]
  rw [← hwal hlive]
  exact hconsistent

/-! ## The checks -/

/-- The directory as it was, but for the lock file. -/
def Untouched (data now : Tree) : Prop :=
  now = data ∨
    data.get runtimeLockPath = none ∧ now = data.set runtimeLockPath (.file [])

theorem Untouched.get {data now : Tree} (h : Untouched data now) {q : Path}
    (hq : q ≠ runtimeLockPath) : now.get q = data.get q := by
  rcases h with rfl | ⟨-, rfl⟩
  · rfl
  · exact FileTree.get_set_other hq

theorem Untouched.closed {data now : Tree} (h : Untouched data now)
    (hclosed : data.Closed) : now.Closed := by
  rcases h with rfl | ⟨hnone, rfl⟩
  · exact hclosed
  · intro p n hsome
    by_cases hp : p = []
    · exact .inl hp
    have hroot : p ++ [n] ≠ runtimeLockPath := by
      intro heq
      have hlength := congrArg List.length heq
      rw [List.length_append, List.length_singleton] at hlength
      exact hp (List.eq_nil_of_length_eq_zero
        (by simpa [runtimeLockPath] using hlength))
    rw [FileTree.get_set_other hroot] at hsome
    rcases hclosed p n hsome with hempty | hdir
    · exact absurd hempty hp
    · refine .inr ((FileTree.get_set_other fun heq => ?_).trans hdir)
      rw [heq, hnone] at hdir
      cases hdir

/-- The copy leaves the lock file out. -/
theorem Untouched.copyOf {data now copy : Tree} (h : Untouched data now)
    (hcopy : CopyOf now copy) : CopyOf data copy := by
  intro q
  refine ⟨fun hq => ?_, (hcopy q).2⟩
  rw [(hcopy q).1 hq, h.get fun heq => hq.2 (.inl (heq ▸ List.prefix_refl _))]

/-- A package that passed the checks: what came out of it, and how many migrations its
database lacks. -/
structure Accepted (setup : Setup κ)
    (package : Option Bytes) (backup : DecryptedBackup) (snapshot : DatabaseSnapshot)
    (pendingMigrations : Nat) : Prop where
  opened : ∃ masterKey bytes, package = some bytes ∧
    (openBackupPackage (setup.cipher masterKey) setup.json setup.hexSha256 bytes :
      Except (Failure κ Unit) DecryptedBackup) = .ok backup
  version : backup.productVersion = setup.productVersion
  database : ∃ entry, DecryptedBackup.entry backup entryDatabase = some entry ∧
    snapshot = .fromParts entry.content
      ((DecryptedBackup.entry backup entryDatabaseWal).map (·.content))
  schema : ∃ found, setup.sqlite snapshot.database snapshot.wal = some found ∧
    (∀ name ∈ found.applied, name ∈ setup.supported) ∧
    pendingMigrations = setup.supported.length - found.applied.length

/-- What the checks leave of the disk. -/
structure Checked (data : Tree) (package : Option Bytes) (d : Disk) : Prop where
  data : Untouched data d.data
  package : d.package = package

theorem Checked.step {data : Tree} {package : Option Bytes} {q : BackupReq}
    (h : Checked data package d) (hq : LocksOrReads q) (o : Oracle) :
    Checked data package (perform setup o q d).2 ∧
      Checked data package (torn o q d) := by
  rcases hq with rfl | hq
  · refine ⟨?_, h⟩
    simp only [perform]
    split
    · exact h
    · refine ⟨?_, h.package⟩
      dsimp only
      split
      · exact h.data
      · next hlock =>
          rw [Option.not_isSome_iff_eq_none] at hlock
          rcases h.data with hdata | ⟨hnone, hdata⟩
          · rw [hdata] at hlock ⊢
            exact .inr ⟨hlock, rfl⟩
          · rw [hdata, FileTree.get_set_self] at hlock
            cases hlock
  · have hsame : (perform setup o q d).2 = d ∧ torn o q d = d := hq.perform o d
    rw [hsame.1, hsame.2]
    exact ⟨h, h⟩

/-- What a call keeps, whether it is made, fails or is stopped. -/
def Keeps (J : Disk → Prop) (q : BackupReq) (d d' : Disk) : Prop :=
  J d' ∧ ∀ o, J (torn o q d)

theorem keeps_only {α : Type} {P : BackupReq → Prop} {I J : Disk → Prop}
    {p : Prog backupSig α} (hp : Only P p) (hd : I d)
    (hstep : ∀ q o d, P q → I d → I (perform setup o q d).2 ∧ I (torn o q d))
    (hJ : ∀ d, I d → J d) :
    Safe (Calls setup) Eq (Keeps J) p (fun _ => I) d := by
  refine hp.safe hd fun q d₁ r d₂ hq h₁ ho => ?_
  obtain ⟨o, ho⟩ := ho
  have hnext := (hstep q o d₁ hq h₁).1
  rw [ho] at hnext
  exact ⟨⟨hJ d₂ hnext, fun o => hJ _ (hstep q o d₁ hq h₁).2⟩, hnext⟩

/-- Two contracts of a program, one of them about its end. -/
theorem safe_and {α : Type} {G : BackupReq → Disk → Disk → Prop} {p : Prog backupSig α}
    {Q Q' : α → Disk → Prop} (h : Safe (Calls setup) Eq G p Q d)
    (h' : Safe (Calls setup) Eq (fun _ _ _ => True) p Q' d) :
    Safe (Calls setup) Eq G p (fun a d' => Q a d' ∧ Q' a d') d :=
  (h.and h').mono (fun _ _ => id) fun _ _ _ hg => hg.1

/-- The error that names a copy. -/
def Preserves (e : BackupError κ) : Prop :=
  ∃ source, e = .restoreFailedPreservingSnapshot source

/-- What a check ends with: the directory is left alone, an error names no copy, and a
success says `Q`. -/
def Ended {α : Type} (data : Tree) (package : Option Bytes) (Q : α → Prop)
    (r : Except (BackupError κ) α) (d : Disk) : Prop :=
  Checked data package d ∧ (∀ a, r = .ok a → Q a) ∧ ∀ e, r = .error e → ¬ Preserves e

abbrev Checks (setup : Setup κ) (data : Tree) (package : Option Bytes) {α : Type}
    (p : Backup κ α) (Q : α → Prop) (d : Disk) : Prop :=
  Safe (Calls setup) Eq (Keeps (Checked data package)) p (Ended data package Q) d

section Checks

variable {data : Tree} {package : Option Bytes} {α β ε : Type} {Q : α → Prop}
  {Q' : β → Prop}

theorem Ended.ok {a : α} (h : Checked data package d) (ha : Q a) :
    Ended (κ := κ) data package Q (.ok a) d := by
  refine ⟨h, fun a' ha' => ?_, fun e he => (by cases he)⟩
  cases ha'
  exact ha

theorem Ended.error {e : BackupError κ} (h : Checked data package d)
    (he : ¬ Preserves e) : Ended data package Q (.error e) d := by
  refine ⟨h, fun a ha => (by cases ha), fun e' he' => ?_⟩
  cases he'
  exact he

namespace Checks

theorem bind {p : Backup κ α} {f : α → Backup κ β}
    (h : Checks setup data package p Q d)
    (hf : ∀ a d', Checked data package d' → Q a →
      Checks setup data package (f a) Q' d') :
    Checks setup data package (p >>= f) Q' d := by
  refine Safe.bindE.mpr (h.imp fun r d' hr => ?_)
  cases r with
  | ok a => exact hf a d' hr.1 (hr.2.1 a rfl)
  | error e => exact Ended.error hr.1 (hr.2.2 e rfl)

theorem lift {p : Prog backupSig α} {f : α → Backup κ β} (hp : Only LocksOrReads p)
    (h : Checked data package d)
    (hf : ∀ a d', Checked data package d' → Checks setup data package (f a) Q' d') :
    Checks setup data package (liftM p >>= f : Backup κ β) Q' d :=
  Safe.bindE.mpr (Safe.liftE.mpr ((keeps_only hp h (fun _ o _ hq hd => hd.step hq o)
    fun _ => id).imp hf))

theorem reads {p : Prog backupSig (Except ε α)} {wrap : ε → BackupError κ}
    (hp : Only LocksOrReads p) (h : Checked data package d)
    (hQ : Safe (Calls setup) Eq (fun _ _ _ => True) p
      (fun r _ => ∀ a, r = .ok a → Q a) d)
    (hwrap : ∀ e, ¬ Preserves (wrap e)) :
    Checks setup data package (orThrow p wrap) Q d := by
  refine Safe.orThrow.mpr ((safe_and (keeps_only hp h (fun _ o _ hq hd => hd.step hq o)
    fun _ => id) hQ).imp fun r d' hr => ?_)
  cases r with
  | ok a => exact Ended.ok hr.1 (hr.2 a rfl)
  | error e => exact Ended.error hr.1 (hwrap e)

theorem any {p : Prog backupSig (Except ε α)} {wrap : ε → BackupError κ}
    (hp : Only LocksOrReads p) (h : Checked data package d)
    (hwrap : ∀ e, ¬ Preserves (wrap e)) :
    Checks setup data package (orThrow p wrap) (fun _ => True) d :=
  reads hp h ((hp.safe (J := fun _ => True) trivial fun _ _ _ _ _ _ _ =>
    ⟨trivial, trivial⟩).imp fun _ _ _ _ _ => trivial) hwrap

end Checks

theorem markerState_checks (h : Checked data package d) :
    Checks setup data package markerState (fun _ => True) d := by
  have hmarker : ¬ Preserves (.marker : BackupError κ) := by simp [Preserves]
  refine Checks.lift (.ofCall (.inr trivial)) h fun found d₁ h₁ => ?_
  split
  · exact Ended.ok h₁ trivial
  · exact Ended.error h₁ hmarker
  · exact Ended.error h₁ hmarker
  · split
    · exact Ended.error h₁ hmarker
    · refine Checks.bind (Checks.any (.ofCall (.inr trivial)) h₁ fun _ => hmarker)
        fun content d₂ h₂ _ => ?_
      split
      · exact Ended.error h₂ hmarker
      · exact Ended.ok h₂ trivial

theorem acquireStoppedInstance_checks (h : Checked data package d) :
    Checks setup data package acquireStoppedInstance (fun _ => True) d := by
  refine Checks.bind (Checks.any (.ofCall (.inl rfl)) h fun _ => by simp [Preserves])
    fun _ d₁ h₁ _ => ?_
  refine Checks.bind (markerState_checks h₁) fun complete d₂ h₂ _ => ?_
  split
  · exact Ended.ok h₂ trivial
  · exact Ended.error h₂ (by simp [Preserves])

theorem recoverInstanceMasterKey_checks (unlock : BackupKeyUnlock)
    (h : Checked data package d) :
    Checks setup data package (recoverInstanceMasterKey setup unlock) (fun _ => True)
      d := by
  cases unlock with
  | passphrase passphrase =>
      refine Checks.bind (Checks.any (.ofCall (.inr trivial)) h
        fun _ => by simp [Preserves]) fun envelope d₁ h₁ _ => ?_
      split
      · exact Ended.ok h₁ trivial
      · exact Ended.error h₁ (by simp [Preserves])
  | system =>
      refine Checks.bind (Checks.any (.ofCall (.inr trivial)) h
        fun _ => by simp [Preserves]) fun envelope d₁ h₁ _ => ?_
      exact Checks.any (.ofCall (.inr trivial)) h₁ fun _ => by simp [Preserves]

theorem unlockForRestore_checks (unlock : BackupKeyUnlock)
    (h : Checked data package d) :
    Checks setup data package (unlockForRestore setup unlock) (fun _ => True) d := by
  refine Safe.bindE.mpr (Safe.liftE.mpr
    ((recoverInstanceMasterKey_checks unlock h).imp fun recovered d₁ hr => ?_))
  obtain ⟨h₁, -, herror⟩ := hr
  cases recovered with
  | ok masterKey => exact Ended.ok h₁ trivial
  | error e =>
      have hplain := herror e rfl
      cases e with
      | masterKeyProtection => exact Ended.error h₁ (by simp [Preserves])
      | systemMasterKeyProtection => exact Ended.error h₁ (by simp [Preserves])
      | _ => exact Ended.error h₁ hplain

theorem readPackage_checks (h : Checked data package d) :
    Checks setup data package (orThrow (call .readPackage) fun (_ : IoError) =>
      .readPackage) (fun bytes => package = some bytes) d := by
  refine Checks.reads (.ofCall (.inr trivial)) h ((safe_read (q := .readPackage) trivial
    (P := fun r => ∀ bytes, r = .ok bytes → package = some bytes)
    fun o bytes hok => ?_).imp fun _ _ hr => hr.2) fun _ => by simp [Preserves]
  have hok := ok_of_faulty hok
  rw [h.package] at hok
  cases package with
  | none => cases hok
  | some stored =>
      cases hok
      rfl

theorem openForRestore_checks (masterKey bytes : Bytes) (h : Checked data package d) :
    Checks setup data package (openForRestore setup masterKey bytes) (fun backup =>
      (openBackupPackage (setup.cipher masterKey) setup.json setup.hexSha256 bytes :
        Except (Failure κ Unit) DecryptedBackup) = .ok backup) d := by
  unfold openForRestore
  split
  · next hopen => exact Ended.ok h hopen
  · exact Ended.error h (by simp [Preserves])
  · exact Ended.error h (by simp [Preserves])

theorem compatible_iff {applied : List String} {pendingMigrations : Nat}
    (h : compatibilityOf setup applied = .compatible pendingMigrations) :
    (∀ name ∈ applied, name ∈ setup.supported) ∧
      pendingMigrations = setup.supported.length - applied.length := by
  unfold compatibilityOf at h
  split at h
  · cases h
  · next hall =>
      cases h
      refine ⟨fun name hname => ?_, rfl⟩
      simp only [List.any_eq_true, Bool.not_eq_true', not_exists, not_and,
        Bool.not_eq_false, List.contains_iff_mem] at hall
      exact hall name hname

theorem validateRestore_checks (unlock : BackupKeyUnlock) (h : Checked data package d) :
    Checks setup data package (validateRestore setup unlock)
      (fun r => Accepted setup package r.1 r.2.1 r.2.2) d := by
  refine Checks.bind (acquireStoppedInstance_checks h) fun _ d₁ h₁ _ => ?_
  refine Checks.bind (unlockForRestore_checks unlock h₁) fun masterKey d₂ h₂ _ => ?_
  refine Checks.bind (readPackage_checks h₂) fun bytes d₃ h₃ hpackage => ?_
  refine Checks.bind (openForRestore_checks masterKey bytes h₃)
    fun backup d₄ h₄ hopen => ?_
  refine Checks.bind (Q := fun _ => backup.productVersion = setup.productVersion) ?_
    fun _ d₅ h₅ hversion => ?_
  · unfold checkProductVersion
    split
    · next hversion => exact Ended.ok h₄ hversion
    · exact Ended.error h₄ (by simp [Preserves])
  cases hentry : DecryptedBackup.entry backup entryDatabase with
  | none => exact Ended.error h₅ (by simp [Preserves])
  | some entry =>
      refine Checks.bind (Checks.reads
        ((restoreCompatibility_reads _ _).mono fun _ => .inr) h₅
        ((restoreCompatibility_does _ _).imp fun r d' hr a ha => (hr a ha).2)
        fun _ => by simp [Preserves]) fun compatibility d₆ h₆ hfound => ?_
      obtain ⟨found, hfound, hcompatibility⟩ := hfound
      cases compatibility with
      | newerSchema applied supported => exact Ended.error h₆ (by simp [Preserves])
      | compatible pendingMigrations =>
          exact Ended.ok h₆ ⟨⟨masterKey, bytes, hpackage, hopen⟩, hversion,
            ⟨entry, hentry, rfl⟩, found, hfound, compatible_iff hcompatibility.symm⟩

end Checks

/-! ## A whole run -/

/-- A copy of the directory is whole. -/
def Copied (data : Tree) (d : Disk) : Prop :=
  ∃ copy, d.copy = some copy ∧ CopyOf data copy

/-- A package that passed the checks was restored. -/
def Through (setup : Setup κ) (data : Tree)
    (package : Option Bytes) (outcome : RestoreOutcome) (now : Tree) : Prop :=
  ∃ backup snapshot start, Untouched data start ∧
    Accepted setup package backup snapshot outcome.pendingMigrations ∧
    Restored setup backup snapshot start now ∧
    outcome.restoredEntries = (restoredFiles setup backup).length

/-- Nothing is lost: the directory is as it was, or its copy is whole, or the restore is
through. -/
def Recoverable (setup : Setup κ) (data : Tree)
    (package : Option Bytes) (d : Disk) : Prop :=
  Untouched data d.data ∨ Copied data d ∨
    ∃ outcome, Through setup data package outcome d.data

/-- What an answer says. -/
def Answered (setup : Setup κ) (data : Tree)
    (package : Option Bytes) (r : Except (BackupError κ) RestoreOutcome) (d : Disk) :
    Prop :=
  (∀ outcome, r = .ok outcome → Through setup data package outcome d.data) ∧
    ∀ e, r = .error e →
      (Preserves e → Copied data d) ∧ (¬ Preserves e → Untouched data d.data)

section Whole

variable {unlock : BackupKeyUnlock} {data : Tree}
  {package : Option Bytes}

theorem Aside.untouched {q : BackupReq} (hq : Aside q) (o : Oracle)
    (h : Untouched data d.data) : Untouched data (perform setup o q d).2.data ∧
      Untouched data (torn o q d).data := by
  have hsame : (perform setup o q d).2.data = d.data ∧ (torn o q d).data = d.data :=
    hq.perform o d
  rw [hsame.1, hsame.2]
  exact ⟨h, h⟩

theorem Copied.spared {q : BackupReq} (hq : SparesCopy q) (o : Oracle)
    (h : Copied data d) :
    Copied data (perform setup o q d).2 ∧ Copied data (torn o q d) := by
  have hsame : (perform setup o q d).2.copy = d.copy ∧ (torn o q d).copy = d.copy :=
    hq.perform o d
  unfold Copied
  rw [hsame.1, hsame.2]
  exact ⟨h, h⟩

theorem copyEntries_aside {copyDirectory : Path → Copying Unit}
    (hrec : ∀ p, Only Aside (copyDirectory p)) (source : Path) (names : List String) :
    Only Aside (copyEntries copyDirectory source names) := by
  induction names with
  | nil => trivial
  | cons name names ih =>
      refine Only.bindE (.orThrow (.ofCall trivial)) fun _ => ?_
      dsimp only
      split
      · exact ih
      · refine Only.bindE (.orThrow (.ofCall trivial)) fun found => ?_
        cases found with
        | directory =>
            exact Only.bindE (.orThrow (.ofCall trivial)) fun _ =>
              Only.bindE (hrec _) fun _ => ih
        | regular =>
            refine Only.bindE (Only.bindE (.orThrow (.ofCall trivial)) fun expected =>
              Only.bindE (.orThrow (.ofCall trivial)) fun copied => ?_) fun _ => ih
            split
            · trivial
            · exact .orThrow (.ofCall trivial)

theorem copyDataDirectory_aside (depth : Nat) (source : Path) :
    Only Aside (copyDataDirectory depth source) := by
  induction depth generalizing source with
  | zero => trivial
  | succ depth ih =>
      exact Only.bindE (.orThrow (.ofCall trivial)) fun names =>
        copyEntries_aside ih source names

theorem createPreRestoreSnapshot_aside :
    Only Aside (createPreRestoreSnapshot setup) := by
  unfold createPreRestoreSnapshot
  split
  · refine Only.bindE (.orThrow (.ofCall trivial)) fun _ =>
      Only.bindE (.liftE (copyDataDirectory_aside _ _)) fun copied => ?_
    cases copied with
    | ok u => trivial
    | error e => exact Only.bindE (.liftE (.ofCall trivial)) fun _ => trivial
  · trivial

/-- The restore, from its start on. -/
theorem restoreBackup_safe (hclosed : data.Closed) (h : Checked data package d) :
    Safe (Calls setup) Eq (Keeps (Recoverable setup data package))
      (restoreBackup setup unlock) (Answered setup data package) d := by
  have hvalidate : Safe (Calls setup) Eq (Keeps (Recoverable setup data package)) _ _ d :=
    (@validateRestore_checks _ setup _ _ _ unlock h).mono (fun _ _ => id)
      fun q a b hk => ⟨.inl hk.1.data, fun o => .inl (hk.2 o).data⟩
  refine Safe.bindE.mpr (hvalidate.imp fun r d₁ hr => ?_)
  obtain ⟨h₁, hok, hfails⟩ := hr
  cases r with
  | error e =>
      refine ⟨fun _ hr => (by cases hr), fun e' he' => ?_⟩
      cases he'
      exact ⟨fun hp => absurd hp (hfails e rfl), fun _ => h₁.data⟩
  | ok r =>
  obtain ⟨backup, snapshot, pendingMigrations⟩ := r
  have haccepted := hok _ rfl
  -- the copy, which leaves the directory alone
  have hcopying := safe_and (keeps_only (J := Recoverable setup data package)
    (I := fun d => Untouched data d.data) createPreRestoreSnapshot_aside h₁.data
    (fun q o d hq hd => Aside.untouched hq o hd) (fun d hd => .inl hd))
    (@createPreRestoreSnapshot_does _ setup _ (h₁.data.closed hclosed))
  refine Safe.bindE.mpr (Safe.orThrow.mpr (hcopying.imp fun r d₂ hr => ?_))
  obtain ⟨h₂, hcopied⟩ := hr
  cases r with
  | error e =>
      refine ⟨fun _ hr => (by cases hr), fun e' he' => ?_⟩
      cases he'
      refine ⟨fun hp => ?_, fun _ => h₂⟩
      obtain ⟨source, hsource⟩ := hp
      cases hsource
  | ok u =>
  obtain ⟨hdata, copy, hcopy, hcopyOf⟩ := hcopied u rfl
  have hwhole : Copied data d₂ := ⟨copy, hcopy, h₁.data.copyOf hcopyOf⟩
  -- the data phase, which leaves the copy alone
  have hphase := safe_and (keeps_only (J := Recoverable setup data package)
    (restoreDataPhase_spares backup snapshot pendingMigrations) hwhole
    (fun q o d hq hd => Copied.spared hq o hd) (fun d hd => .inr (.inl hd)))
    (@restoreDataPhase_does _ setup _ backup snapshot pendingMigrations)
  refine Safe.bindE.mpr (Safe.liftE.mpr (hphase.imp fun r d₃ hr => ?_))
  obtain ⟨h₃, hrestored⟩ := hr
  cases r with
  | error e =>
      refine ⟨fun _ hr => (by cases hr), fun e' he' => ?_⟩
      cases he'
      exact ⟨fun _ => h₃, fun hp => absurd ⟨e, rfl⟩ hp⟩
  | ok outcome =>
      obtain ⟨rfl, hdone⟩ := hrestored outcome rfl
      have hthrough : Through setup data package
          ⟨(restoredFiles setup backup).length, pendingMigrations⟩ d₃.data :=
        ⟨backup, snapshot, d₁.data, h₁.data, haccepted, hdata ▸ hdone, rfl⟩
      refine Safe.bindE.mpr (Safe.liftE.mpr ?_)
      refine (keeps_only (P := fun q => q = .removeCopy) (I := fun d => Through setup
        data package ⟨(restoredFiles setup backup).length, pendingMigrations⟩
          d.data) (Only.ofCall rfl) hthrough ?_ fun d hd => .inr (.inr ⟨_, hd⟩)).imp
        fun u d₄ h₄ => ?_
      · intro q o d hq hd
        subst hq
        exact ⟨hd, hd⟩
      · refine ⟨fun outcome hok => ?_, fun e he => (by cases he)⟩
        cases hok
        exact h₄

/-- What holds of a run: of the disk at every moment, and of what is still to come. -/
def Inv (setup : Setup κ) (data : Tree)
    (package : Option Bytes) (s : Run (κ := κ) RestoreOutcome) : Prop :=
  Recoverable setup data package s.disk ∧
    ∀ task, s.task = some task →
      Safe (Calls setup) Eq (Keeps (Recoverable setup data package)) task
        (Answered setup data package) s.disk

theorem inv_next {s t : Run (κ := κ) RestoreOutcome} {label : Label}
    (h : Inv setup data package s) (ht : next setup s label = some t) :
    Inv setup data package t := by
  cases label with
  | step o =>
      simp only [next] at ht
      split at ht
      · next q k htask =>
          cases ht
          obtain ⟨hkeeps, hrest⟩ := h.2 _ htask s.disk rfl _ _ ⟨o, rfl⟩
          refine ⟨hkeeps.1, fun task hsome => ?_⟩
          cases hsome
          exact hrest
      · cases ht
  | stop o =>
      simp only [next] at ht
      split at ht
      · next q k htask =>
          cases ht
          obtain ⟨hkeeps, -⟩ := h.2 _ htask s.disk rfl _ _ ⟨o, rfl⟩
          exact ⟨hkeeps.2 o, fun task hsome => by cases hsome⟩
      · cases ht

theorem inv_of_reach (hclosed : data.Closed)
    {s : Run (κ := κ) RestoreOutcome}
    (h : Reach (RestoreStarts setup unlock data package) (Next (next setup)) s) :
    Inv setup data package s := by
  refine Reach.inv (fun s hs => ?_) (fun s t hs ht => ?_) h
  · obtain ⟨hdata, hpackage, -, htask⟩ := hs
    have hchecked : Checked data package s.disk := ⟨.inl hdata, hpackage⟩
    refine ⟨.inl hchecked.data, fun task hsome => ?_⟩
    rw [htask] at hsome
    cases hsome
    exact restoreBackup_safe hclosed hchecked
  · obtain ⟨label, hlabel⟩ := ht
    exact inv_next hs hlabel

end Whole

/-- A restore never loses the instance. In every state that a run can reach from a data
directory, for any package and any key, and whatever call fails or is stopped in the
middle, the directory is as it was (but for the lock file), or the copy beside it has
everything but the backups and the lock file, or an accepted package was restored over
it. A run that ends with an error that names the copy has a whole one, with any other
error it has not touched the directory, and with no error it has restored. -/
theorem restore_never_loses (setup : Setup κ) (unlock : BackupKeyUnlock) (data : Tree)
    (package : Option Bytes) (hclosed : data.Closed) (s : Run (κ := κ) RestoreOutcome)
    (h : Reach (RestoreStarts setup unlock data package) (Next (next setup)) s) :
    Recoverable setup data package s.disk ∧
      ∀ r : Except (BackupError κ) RestoreOutcome, s.task = some (.ret r) →
        Answered setup data package r s.disk := by
  have hinv := inv_of_reach hclosed h
  exact ⟨hinv.1, fun r hr => hinv.2 _ hr⟩

/-! An instance with another database than its package. -/

/-- 32 sevens under the passphrase `sesame`, with a zero salt and a zero nonce. -/
def atticEnvelope : Bytes :=
  [0x52, 0x55, 0x54, 0x4D, 0x4B, 0x30, 0x30, 0x32] ++ List.replicate 40 0 ++
  [26, 221, 190, 88, 209, 31, 142, 64, 163, 58, 108, 56, 215, 115, 110, 20, 126, 37,
   164, 92, 6, 252, 205, 82, 103, 73, 65, 38, 243, 218, 230, 117, 26, 159, 255, 64, 98,
   61, 31, 241, 89, 161, 62, 46, 35, 82, 204, 181]

def atticManifest : BackupManifest where
  productVersion := "0.9.0"
  schemaVersion := 1
  entries := [
    { name := "database", kind := .database, length := 1
      sha256 := "4bf5122f344554c53bde2ebb8cd2b7e3d1600ad631c385a5d7cce23c7785459a" }]

/-- How it is written. -/
def atticText : Bytes :=
  [123, 34, 112, 114, 111, 100, 117, 99, 116, 95, 118, 101, 114, 115, 105, 111, 110, 34,
   58, 34, 48, 46, 57, 46, 48, 34, 44, 34, 115, 99, 104, 101, 109, 97, 95, 118, 101,
   114, 115, 105, 111, 110, 34, 58, 49, 44, 34, 101, 110, 116, 114, 105, 101, 115, 34,
   58, 91, 123, 34, 110, 97, 109, 101, 34, 58, 34, 100, 97, 116, 97, 98, 97, 115, 101,
   34, 44, 34, 107, 105, 110, 100, 34, 58, 34, 100, 97, 116, 97, 98, 97, 115, 101, 34,
   44, 34, 108, 101, 110, 103, 116, 104, 34, 58, 49, 44, 34, 115, 104, 97, 50, 53, 54,
   34, 58, 34, 52, 98, 102, 53, 49, 50, 50, 102, 51, 52, 52, 53, 53, 52, 99, 53, 51, 98,
   100, 101, 50, 101, 98, 98, 56, 99, 100, 50, 98, 55, 101, 51, 100, 49, 54, 48, 48, 97,
   100, 54, 51, 49, 99, 51, 56, 53, 97, 53, 100, 55, 99, 99, 101, 50, 51, 99, 55, 55,
   56, 53, 52, 53, 57, 97, 34, 125, 93, 125]

/-- The database, encrypted under the key of sevens with the zero nonce. -/
def atticCiphertext : Bytes :=
  [49, 3, 6, 117, 114, 97, 55, 177, 10, 95, 181, 197, 94, 17, 107, 159, 195]

/-- What was written is read back, and nothing else. -/
def atticJson : Json Unit where
  toVec := fun manifest => if manifest = atticManifest then .ok atticText else .error ()
  fromSlice := fun text => if text = atticText then .ok atticManifest else .error ()

/-- The one encryption that was made. -/
def atticCipher : Cipher where
  encrypt := fun nonce associatedData message =>
    if nonce = List.replicate 24 0 ∧
        associatedData = BackupPackages.framedBytes atticText ∧ message = [1] then
      some atticCiphertext
    else none
  decrypt := fun nonce associatedData ciphertext =>
    if nonce = List.replicate 24 0 ∧
        associatedData = BackupPackages.framedBytes atticText ∧
        ciphertext = atticCiphertext then some [1]
    else none

def atticDigest (content : Bytes) : String :=
  if content = [1] then
    "4bf5122f344554c53bde2ebb8cd2b7e3d1600ad631c385a5d7cce23c7785459a"
  else ""

/-- The digests of the two databases. -/
def atticSha256 (bytes : Bytes) : Bytes :=
  if bytes = [1] then
    [75, 245, 18, 47, 52, 69, 84, 197, 59, 222, 46, 187, 140, 210, 183, 227, 209, 96,
     10, 214, 49, 195, 133, 165, 215, 204, 226, 60, 119, 133, 69, 154]
  else if bytes = [2] then
    [219, 193, 180, 201, 0, 255, 228, 141, 87, 91, 93, 165, 198, 56, 4, 1, 37, 246, 93,
   176, 254, 62, 36, 73, 75, 118, 234, 152, 100, 87, 217, 134]
  else List.replicate 32 0

theorem length_atticSha256 (bytes : Bytes) : (atticSha256 bytes).length = 32 := by
  unfold atticSha256
  split
  · rfl
  · split
    · rfl
    · rfl

theorem atticSha256_inj (a b : Bytes) (ha : (a == [1] || a == [2]) = true)
    (hb : (b == [1] || b == [2]) = true) (h : atticSha256 a = atticSha256 b) :
    a = b := by
  simp only [Bool.or_eq_true, beq_iff_eq] at ha hb
  have hne : atticSha256 [1] ≠ atticSha256 [2] := by decide
  rcases ha with rfl | rfl
  · rcases hb with rfl | rfl
    · rfl
    · exact absurd h hne
  · rcases hb with rfl | rfl
    · exact absurd h.symm hne
    · rfl

def atticFiles : Store.Restore.Setup where
  sha256 := atticSha256
  length_sha256 := length_atticSha256
  contents := fun bytes => bytes == [1] || bytes == [2]
  sha256_inj := atticSha256_inj
  hasParent := true

def atticSetup : Setup Unit where
  productVersion := "0.9.0"
  supported := ["m20260805_000001_initial_storage"]
  uuidText := fun id => String.ofList (List.replicate id.uuid 'f')
  parseUuid := fun text =>
    if text.toList.all fun c => c == 'f' then some ⟨text.length⟩ else none
  recoverMasterKey := fun envelope passphrase =>
    if envelope = atticEnvelope ∧ passphrase = "sesame" then some (List.replicate 32 7)
    else none
  unprotect := fun _ => none
  cipher := fun _ => atticCipher
  json := atticJson
  hexSha256 := atticDigest
  restore := atticFiles
  sqlite := fun database _ =>
    if database = [1] then some ⟨["m20260805_000001_initial_storage"], Table.empty⟩
    else none
  dataDirectoryHasParent := true
  maxDepth := 8

def atticPackage : Bytes :=
  BackupPackages.framedBytes atticText ++ List.replicate 24 0 ++ atticCiphertext

def atticTarget : Tree :=
  [(databasePath, .file [2]), (walPath, .file [5]),
    (masterKeyPath, .file atticEnvelope),
    (instanceMarkerPath, .file instanceMarker), (["logs"], .directory),
    (["logs", "a"], .file [3])].foldl (fun t item => t.set item.1 item.2) Table.empty

theorem closed_atticTarget : atticTarget.Closed :=
  FileTree.closed_of_rows (by decide +kernel)

def atticOracle : Oracle := ⟨false, false, 100⟩

def atticStart : Run (κ := Unit) RestoreOutcome where
  disk := ⟨atticTarget, none, some atticPackage⟩
  task := some (restoreBackup atticSetup (.passphrase "sesame"))

/-- The database is written, and then a call fails. -/
def isHalfway (s : Run (κ := Unit) RestoreOutcome) : Bool :=
  decide (s.disk.data.get databasePath = some (.file [1])) &&
    match s.task with
    | some (.ret (.error (.restoreFailedPreservingSnapshot _))) => true
    | _ => false

theorem attic_keeps_its_copy : ∃ s : Run (κ := Unit) RestoreOutcome,
    isHalfway s = true ∧
      Recoverable atticSetup atticTarget (some atticPackage) s.disk ∧
      ∀ r : Except (BackupError Unit) RestoreOutcome, s.task = some (.ret r) →
        Answered atticSetup atticTarget (some atticPackage) r s.disk := by
  obtain ⟨s, hs, hhalfway⟩ := exists_reach_of_follow
    (RestoreStarts atticSetup (.passphrase "sesame") atticTarget (some atticPackage))
    (next atticSetup)
    (List.replicate 60 (.step atticOracle) ++
      [.step { atticOracle with fault := true }])
    isHalfway (s := atticStart) ⟨rfl, rfl, rfl, rfl⟩ (by decide +kernel)
  exact ⟨s, hhalfway, restore_never_loses atticSetup (.passphrase "sesame") atticTarget
    (some atticPackage) closed_atticTarget s hs⟩

end Rutilus.Proofs.BackupRestore
