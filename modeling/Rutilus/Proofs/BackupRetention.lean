import Mathlib.Data.List.DropRight
import Rutilus.Lib.Listing
import Rutilus.Lib.Rely
import Rutilus.Lib.Sorted
import Rutilus.Store.MigrationBackup

/-!
# Which backups are kept

A call adds a directory, fills it and marks it, and only then removes others. It keeps
the complete directories with the greatest names, and these are the most recent ones
exactly if the names rise in the order in which the directories were created. A clock
that was set back gives the new directory a smaller name, and it may be removed at once.
-/

namespace Rutilus.Proofs.BackupRetention

open Rutilus.Domain Rutilus.Lib Rutilus.Store.MigrationBackup

variable {f g : Files} {b : Backup} {uuid : Nat} {file : SourceFile} {start : Files}

/-! ### What is kept -/

/-- The complete directories, in the order in which they were created. -/
def completeBackups (backups : List Backup) : List Backup := backups.filter (·.complete)

/-- The three most recent ones of them. -/
def latest (backups : List Backup) : List Backup :=
  (completeBackups backups).rtake preMigrationBackupRetention

/-- The most recent complete directories have greater names than the others. -/
def Ranked (backups : List Backup) : Prop :=
  ∀ x ∈ (completeBackups backups).rdrop preMigrationBackupRetention,
    ∀ y ∈ latest backups, x.uuid < y.uuid

def Source.bytes : Source → Option Bytes
  | .regular bytes => some bytes
  | .missing | .irregular => none

/-- The files are those of the sources. -/
structure IsCopy (source : SourceFile → Source) (backup : Backup) : Prop where
  database : backup.database = Source.bytes (source .database)
  present : backup.database.isSome = true
  wal : backup.wal = Source.bytes (source .wal)

/-- Marked in full, with a database. -/
def Sound (backup : Backup) : Prop :=
  backup.marker = some completeMarker ∧ backup.database.isSome = true

theorem Sound.complete (h : Sound b) : b.complete = true := by
  rw [Backup.complete, h.1]
  rfl

def HasSound (f : Files) : Prop := ∃ backup ∈ f.backups, Sound backup

/-- The directories whose names satisfy a condition. -/
def keep (g : Files) (p : Nat → Bool) : Files :=
  { g with backups := g.backups.filter fun b => p b.uuid }

theorem mem_keep {p : Nat → Bool} :
    b ∈ (keep g p).backups ↔ b ∈ g.backups ∧ p b.uuid = true := List.mem_filter

/-! ### Contracts -/

/-- While a call runs, names stay distinct, the sources stay as they were, and a sound
backup stays one. -/
structure Rest (start f : Files) : Prop where
  nodup : (f.backups.map (·.uuid)).Nodup
  source : f.source = start.source
  sound : HasSound start → HasSound f

/-- A call, and a stop in the middle of it. -/
def Kept (start : Files) (q : FileReq) (f f' : Files) : Prop :=
  Rest start f' ∧ ∀ o, Rest start (torn o q f)

/-- What a call may meet: where the directories are listed, the most recent ones have
the greatest names, and the disk does not fail while directories are removed. -/
structure Permitted (q : FileReq) (f : Files) (o : Oracle) : Prop where
  ranked : q = .readDirectory → Ranked f.backups ∧ o.fault = false
  removed : ∀ uuid, q = .remove uuid → o.fault = false

/-- What a call may do. -/
def Calls : Sem fileSig Files :=
  fun q f r f' => ∃ o, Permitted q f o ∧ perform o q f = (r, f')

/-- A stage of a call. -/
abbrev Stage {ε α : Type} (start : Files) (p : ExceptT ε (Prog fileSig) α)
    (Q : α → Files → Prop) (f : Files) : Prop :=
  Succeeds Calls Eq (Kept start) p Q f

/-- A call that leaves the files alone. -/
structure Quiet (q : FileReq) : Prop where
  perform : ∀ o f, (perform o q f).2 = f
  torn : ∀ o f, torn o q f = f

theorem Quiet.safe {q : FileReq} (hq : Quiet q) (h : Rest start f) :
    Safe Calls Eq (Kept start) (call q)
      (fun r f' => f' = f ∧ ∃ o, (Store.MigrationBackup.perform o q f).1 = r) f := by
  rintro _ rfl r f' ⟨o, -, ho⟩
  have hsame : f' = f := (congrArg Prod.snd ho).symm.trans (hq.perform o f)
  refine ⟨⟨hsame ▸ h, fun o => ?_⟩, hsame, o, congrArg Prod.fst ho⟩
  rw [hq.torn]
  exact h

theorem Quiet.leaves {q : FileReq} (hq : Quiet q) (h : Rest start f) :
    Safe Calls Eq (Kept start) (call q) (fun _ f' => f' = f) f :=
  (hq.safe h).imp fun _ _ hr => hr.1

theorem stage_quiet {ε : Type} {p : Prog fileSig (Except IoError Unit)}
    {wrap : IoError → ε}
    (h : Safe Calls Eq (Kept start) p (fun _ f' => f' = f) f) :
    Stage start (orThrow p wrap) (fun _ f' => f' = f) f :=
  Succeeds.orThrow (h.imp fun _ _ hr _ _ => hr)

theorem quiet_createRoot : Quiet .createRoot := ⟨fun _ _ => rfl, fun _ _ => rfl⟩

theorem quiet_inspect (file : SourceFile) : Quiet (.inspect file) :=
  ⟨fun _ _ => rfl, fun _ _ => rfl⟩

theorem quiet_length (file : SourceFile) : Quiet (.length file) :=
  ⟨fun _ _ => rfl, fun _ _ => rfl⟩

theorem quiet_syncCopy (file : SourceFile) (uuid : Nat) : Quiet (.syncCopy file uuid) :=
  ⟨fun _ _ => rfl, fun _ _ => rfl⟩

theorem quiet_syncMarker (uuid : Nat) : Quiet (.syncMarker uuid) :=
  ⟨fun _ _ => rfl, fun _ _ => rfl⟩

/-! ### The new directory -/

/-- The files with one more directory. -/
def grown (start : Files) (b : Backup) : Files :=
  { start with backups := start.backups ++ [b] }

/-- The directory's name is not taken. -/
structure Fresh (start : Files) (uuid : Nat) : Prop where
  nodup : (start.backups.map (·.uuid)).Nodup
  fresh : uuid ∉ start.backups.map (·.uuid)

theorem rest_grown (h : Fresh start b.uuid) : Rest start (grown start b) where
  nodup := by
    unfold grown
    rw [List.map_append, List.map_singleton]
    exact List.concat_eq_append ▸ List.Nodup.concat h.fresh h.nodup
  source := rfl
  sound := fun ⟨x, hx, hsound⟩ => ⟨x, List.mem_append_left _ hx, hsound⟩

theorem update_grown {g : Backup → Backup} (h : Fresh start b.uuid) :
    (grown start b).update b.uuid g = grown start (g b) := by
  have hold : (start.backups.map fun x => if x.uuid = b.uuid then g x else x) =
      start.backups := by
    refine (List.map_congr_left fun x hx => ?_).trans (List.map_id _)
    have hname : x.uuid ∈ start.backups.map (·.uuid) := List.mem_map_of_mem hx
    exact if_neg fun heq : x.uuid = b.uuid => h.fresh (heq ▸ hname)
  unfold Files.update grown
  rw [List.map_append, hold, List.map_singleton, if_pos rfl]

theorem put_uuid {bytes : Bytes} : (b.put file bytes).uuid = b.uuid := by
  cases file with
  | database => rfl
  | wal => rfl

section Growing

variable {ε : Type} (h : Fresh start b.uuid)

include h in
/-- A call on the new directory that may come out in several ways, none of which changes
its name. -/
theorem rest_update {g : Backup → Backup} (hg : (g b).uuid = b.uuid) :
    Rest start ((grown start b).update b.uuid g) := by
  rw [update_grown h]
  refine rest_grown ?_
  rw [hg]
  exact h

theorem inspected {o : Oracle} {r : Except IoError Bool}
    (hr : (perform o (.inspect file) f).1 = r) :
    (r = .ok true → ∃ bytes, f.source file = .regular bytes) ∧
      (r = .error .notFound → f.source file = .missing) := by
  simp only [perform] at hr
  cases hfault : o.fault with
  | true =>
      rw [hfault] at hr
      change Except.error IoError.other = r at hr
      subst hr
      simp
  | false =>
      rw [hfault] at hr
      cases hsource : f.source file with
      | missing =>
          rw [hsource] at hr
          change Except.error IoError.notFound = r at hr
          subst hr
          simp
      | irregular =>
          rw [hsource] at hr
          change Except.ok false = r at hr
          subst hr
          simp
      | regular bytes =>
          rw [hsource] at hr
          change Except.ok true = r at hr
          subst hr
          simp

theorem measured {o : Oracle} {bytes : Bytes} {n : Nat}
    (hsource : f.source file = .regular bytes)
    (hr : (perform o (.length file) f).1 = .ok n) : n = bytes.length := by
  simp only [perform, hsource] at hr
  cases hfault : o.fault with
  | true =>
      rw [hfault] at hr
      cases hr
  | false =>
      rw [hfault] at hr
      cases hr
      rfl

include h in
theorem sourceExists_stage :
    Stage start (sourceExists file) (fun found f' => f' = grown start b ∧
      (found = true → ∃ bytes, start.source file = .regular bytes) ∧
      (found = false → start.source file = .missing)) (grown start b) := by
  refine Succeeds.bind (Succeeds.lift ((quiet_inspect file).safe (rest_grown h))) ?_
  rintro r _ ⟨rfl, o, ho⟩
  obtain ⟨htrue, hmissing⟩ := inspected ho
  split
  · exact Succeeds.throw
  · intro a ha
    cases ha
    exact ⟨rfl, fun _ => htrue rfl, nofun⟩
  · intro a ha
    cases ha
    exact ⟨rfl, nofun, fun _ => hmissing rfl⟩
  · exact Succeeds.throw

include h in
theorem copy_stage {wrap : IoError → ε} {bytes : Bytes}
    (hsource : start.source file = .regular bytes) :
    Stage start (orThrow (call (.copy file b.uuid)) wrap)
      (fun (copied : Nat) f' => ∃ content, content <+: bytes ∧ copied = content.length ∧
        f' = grown start (b.put file content)) (grown start b) := by
  refine Succeeds.orThrow ?_
  rintro _ rfl r f' ⟨o, -, ho⟩
  have hsource : (grown start b).source file = .regular bytes := hsource
  have hrest : ∀ content,
      Rest start ((grown start b).update b.uuid (·.put file content)) :=
    fun content => rest_update h put_uuid
  have htorn : ∀ o, Rest start (torn o (.copy file b.uuid) (grown start b)) := by
    intro o
    simp only [torn, hsource]
    exact hrest _
  simp only [perform, hsource] at ho
  split at ho
  · cases ho
    exact ⟨⟨hrest _, htorn⟩, nofun⟩
  · cases ho
    refine ⟨⟨hrest _, htorn⟩, fun a ha => ?_⟩
    cases ha
    refine ⟨o.copied bytes, ?_, rfl, update_grown h⟩
    unfold Oracle.copied
    split
    · exact List.prefix_refl _
    · exact List.take_prefix _ _

include h in
/-- A source is copied as it is. -/
theorem copyRequiredFile_stage :
    Stage start (copyRequiredFile file b.uuid) (fun _ f' => ∃ bytes,
      start.source file = .regular bytes ∧ f' = grown start (b.put file bytes))
      (grown start b) := by
  refine Succeeds.bind (sourceExists_stage h) ?_
  rintro found _ ⟨rfl, hfound, -⟩
  cases found with
  | false => exact Succeeds.throw
  | true =>
      obtain ⟨bytes, hsource⟩ := hfound rfl
      have hlength : Stage start
          (orThrow (call (.length file)) fun (_ : IoError) =>
            MigrationBackupError.readSourceMetadata file)
          (fun (expected : Nat) f' => expected = bytes.length ∧ f' = grown start b)
          (grown start b) := by
        refine Succeeds.orThrow (((quiet_length file).safe (rest_grown h)).imp ?_)
        rintro r _ ⟨rfl, o, rfl⟩ a ha
        exact ⟨measured (o := o) hsource ha, rfl⟩
      refine Succeeds.bind hlength ?_
      rintro _ _ ⟨rfl, rfl⟩
      refine Succeeds.bind (copy_stage h hsource) ?_
      rintro _ _ ⟨content, hprefix, rfl, rfl⟩
      split
      · exact Succeeds.throw
      · next hsame =>
          have hcontent : content = bytes :=
            hprefix.eq_of_length (not_ne_iff.mp hsame)
          have hfresh : Fresh start (b.put file content).uuid := by
            rw [put_uuid]
            exact h
          refine (stage_quiet ((quiet_syncCopy file b.uuid).leaves
            (rest_grown hfresh))).imp fun _ _ hr a ha => ?_
          exact ⟨bytes, hsource, hcontent ▸ hr a ha⟩

include h in
theorem createMarker_stage {wrap : IoError → ε} :
    Stage start (orThrow (call (.createMarker b.uuid)) wrap)
      (fun _ f' => f' = grown start { b with marker := some [] }) (grown start b) := by
  refine Succeeds.orThrow ?_
  rintro _ rfl r f' ⟨o, -, ho⟩
  have hrest : Rest start (grown start b) := rest_grown h
  simp only [perform] at ho
  split at ho
  · cases ho
    exact ⟨⟨hrest, fun _ => hrest⟩, nofun⟩
  · cases ho
    exact ⟨⟨rest_update h rfl, fun _ => hrest⟩, fun _ _ => update_grown h⟩

include h in
theorem writeMarker_stage {wrap : IoError → ε} :
    Stage start (orThrow (call (.writeMarker b.uuid)) wrap)
      (fun _ f' => f' = grown start { b with marker := some completeMarker })
      (grown start b) := by
  refine Succeeds.orThrow ?_
  rintro _ rfl r f' ⟨o, -, ho⟩
  simp only [perform] at ho
  split at ho
  · cases ho
    exact ⟨⟨rest_update h rfl, fun _ => rest_update h rfl⟩, nofun⟩
  · cases ho
    exact ⟨⟨rest_update h rfl, fun _ => rest_update h rfl⟩, fun _ _ => update_grown h⟩

include h in
theorem commitBackup_stage :
    Stage start (commitBackup b.uuid)
      (fun _ f' => f' = grown start { b with marker := some completeMarker })
      (grown start b) := by
  refine Succeeds.bind (createMarker_stage h) ?_
  rintro _ _ rfl
  have hfresh : ∀ marker, Fresh start ({ b with marker } : Backup).uuid := fun _ => h
  refine Succeeds.bind (writeMarker_stage (hfresh (some []))) ?_
  rintro _ _ rfl
  exact stage_quiet ((quiet_syncMarker b.uuid).leaves (rest_grown (hfresh _)))

end Growing

/-! ### Pruning -/

/-- The directories that a list names. -/
def kept (g : Files) (names : List Nat) : Files := keep g fun u => u ∈ names

theorem kept_congr {names names' : List Nat} (h : ∀ u, u ∈ names ↔ u ∈ names') :
    kept g names = kept g names' :=
  congrArg (keep g) (funext fun u => by simp only [h u])

theorem kept_all : kept g (g.backups.map (·.uuid)) = g := by
  have hall : g.backups.filter (fun x => decide (x.uuid ∈ g.backups.map (·.uuid))) =
      g.backups :=
    List.filter_eq_self.mpr fun x hx =>
      decide_eq_true (List.mem_map_of_mem (f := (·.uuid)) hx)
  unfold kept keep
  rw [hall]

theorem mem_kept {names : List Nat} :
    b ∈ (kept g names).backups ↔ b ∈ g.backups ∧ b.uuid ∈ names := by
  rw [kept, mem_keep, decide_eq_true_eq]

theorem without_kept {names : List Nat} (h : uuid ∉ names) :
    (kept g (uuid :: names)).without uuid = kept g names := by
  unfold kept keep Files.without
  simp only [List.filter_filter]
  congr 1
  refine List.filter_congr fun x _ => ?_
  by_cases hx : x.uuid = uuid
  · simp [hx, h]
  · simp [hx]

/-- Whether the directory of a name is complete. -/
def isComplete (g : Files) (uuid : Nat) : Bool :=
  g.backups.any fun x => x.uuid = uuid && x.complete

theorem isComplete_kept {names : List Nat} (h : uuid ∈ names) :
    isComplete (kept g names) uuid = isComplete g uuid := by
  rw [Bool.eq_iff_iff]
  unfold isComplete
  simp only [List.any_eq_true, mem_kept, Bool.and_eq_true, decide_eq_true_eq]
  constructor
  · rintro ⟨x, ⟨hx, -⟩, hc⟩
    exact ⟨x, hx, hc⟩
  · rintro ⟨x, hx, rfl, hc⟩
    exact ⟨x, ⟨hx, h⟩, rfl, hc⟩

/-- The names of the complete directories that the loop keeps, with some seen before. -/
def retainedOf (g : Files) (seen : Nat) (names : List Nat) : List Nat :=
  (names.filter (isComplete g)).take (preMigrationBackupRetention - seen)

theorem retainedOf_subset {seen : Nat} {names : List Nat} :
    retainedOf g seen names ⊆ names :=
  fun _ hx => List.mem_of_mem_filter (List.mem_of_mem_take hx)

theorem retainedOf_removed {seen : Nat} {names : List Nat}
    (h : (!isComplete g uuid || decide (preMigrationBackupRetention ≤ seen)) = true) :
    retainedOf g seen (uuid :: names) = retainedOf g seen names := by
  unfold retainedOf
  cases hcomplete : isComplete g uuid with
  | false => rw [List.filter_cons_of_neg (by rw [hcomplete]; exact Bool.noConfusion)]
  | true =>
      rw [hcomplete, Bool.not_true, Bool.false_or, decide_eq_true_eq] at h
      rw [Nat.sub_eq_zero_of_le h, List.take_zero, List.take_zero]

theorem retainedOf_kept {seen : Nat} {names : List Nat}
    (h : ¬ (!isComplete g uuid || decide (preMigrationBackupRetention ≤ seen)) = true) :
    retainedOf g seen (uuid :: names) = uuid :: retainedOf g (seen + 1) names := by
  rw [Bool.or_eq_true, not_or, decide_eq_true_eq, not_le] at h
  have hcomplete : isComplete g uuid = true := by simpa using h.1
  unfold retainedOf
  have hleft : preMigrationBackupRetention - seen =
      preMigrationBackupRetention - (seen + 1) + 1 := by
    omega
  rw [List.filter_cons_of_pos hcomplete, hleft, List.take_succ_cons]

section Pruning

variable (hnodup : (g.backups.map (·.uuid)).Nodup) (hsource : g.source = start.source)
  (hmem : b ∈ g.backups) (hsound : Sound b)

include hnodup hsource hmem hsound

/-- While the new directory stands, the others may go, and their files before them. -/
theorem rest_kept {names : List Nat} (hb : b.uuid ∈ names) :
    Rest start (kept g names) where
  nodup := hnodup.sublist (List.filter_sublist.map _)
  source := hsource
  sound := fun _ => ⟨b, mem_kept.mpr ⟨hmem, hb⟩, hsound⟩

theorem rest_torn {names : List Nat} {o : Oracle} (hb : b.uuid ∈ names)
    (hne : b.uuid ≠ uuid) : Rest start ((kept g names).update uuid o.leaves) where
  nodup := by
    have hnames : ∀ l : List Backup,
        (l.map fun x => if x.uuid = uuid then o.leaves x else x).map (·.uuid) =
          l.map (·.uuid) := by
      intro l
      rw [List.map_map]
      refine List.map_congr_left fun x _ => ?_
      show (if x.uuid = uuid then o.leaves x else x).uuid = x.uuid
      split
      · rfl
      · rfl
    unfold Files.update
    rw [hnames]
    exact (rest_kept hnodup hsource hmem hsound hb).nodup
  source := hsource
  sound := fun _ =>
    ⟨b, List.mem_map.mpr ⟨b, mem_kept.mpr ⟨hmem, hb⟩, if_neg hne⟩, hsound⟩

theorem pruneLoop_safe {names : List Nat} {seen : Nat} {old : List Nat}
    (hnames : (names ++ old).Nodup) (hb : b.uuid ∈ retainedOf g seen names ++ old) :
    Safe Calls Eq (Kept start) (pruneLoop preMigrationBackupRetention seen names)
      (fun _ f' => f' = kept g (retainedOf g seen names ++ old))
      (kept g (names ++ old)) := by
  have hrest : ∀ {l : List Nat}, b.uuid ∈ l → Rest start (kept g l) :=
    rest_kept hnodup hsource hmem hsound
  induction names generalizing seen old with
  | nil =>
      have hnone : retainedOf g seen [] = [] := by
        rw [retainedOf, List.filter_nil, List.take_nil]
      rw [hnone]
      rfl
  | cons u names ih =>
      obtain ⟨hu, hnames⟩ := List.nodup_cons.mp hnames
      have hsub : b.uuid ∈ u :: names ++ old := by
        obtain hb | hb := List.mem_append.mp hb
        · exact List.mem_append_left _ (retainedOf_subset hb)
        · exact List.mem_append_right _ hb
      rintro _ rfl complete f' ⟨o, -, ho⟩
      have hcomplete : isComplete g u = complete :=
        (isComplete_kept (List.mem_cons_self ..)).symm.trans (congrArg Prod.fst ho)
      have hsame : f' = kept g (u :: names ++ old) := (congrArg Prod.snd ho).symm
      subst hsame hcomplete
      refine ⟨⟨hrest hsub, fun _ => hrest hsub⟩, ?_⟩
      show Safe Calls Eq (Kept start)
        (if !isComplete g u || decide (preMigrationBackupRetention ≤ seen) then
          call (.remove u) >>= fun _ => pruneLoop preMigrationBackupRetention seen names
        else pruneLoop preMigrationBackupRetention (seen + 1) names) _ _
      split
      · next hgone =>
          rw [retainedOf_removed hgone] at hb ⊢
          have hstays : b.uuid ∈ names ++ old := by
            obtain hb | hb := List.mem_append.mp hb
            · exact List.mem_append_left _ (retainedOf_subset hb)
            · exact List.mem_append_right _ hb
          have hne : b.uuid ≠ u := fun heq => hu (heq ▸ hstays)
          rintro _ rfl r f' ⟨o, hpermitted, ho⟩
          have hfault : o.fault = false := hpermitted.removed u rfl
          have hgone : f' = kept g (names ++ old) := by
            have ho : (if o.fault then (Except.error IoError.other, _)
              else (.ok (), (kept g (u :: (names ++ old))).without u)) = (r, f') := ho
            rw [hfault, if_neg Bool.noConfusion] at ho
            exact (congrArg Prod.snd ho).symm.trans (without_kept hu)
          subst hgone
          exact ⟨⟨hrest hstays, fun o => rest_torn hnodup hsource hmem hsound hsub hne⟩,
            ih hnames hb⟩
      · next hstays =>
          rw [retainedOf_kept hstays] at hb ⊢
          have hold : ∀ l : List Nat, kept g (l ++ u :: old) = kept g (u :: l ++ old) :=
            fun l => kept_congr fun x => List.perm_middle.mem_iff
          rw [← hold, ← hold]
          have hperm : (u :: names ++ old).Nodup := List.nodup_cons.mpr ⟨hu, hnames⟩
          exact ih (List.perm_middle.nodup_iff.mpr hperm)
            (List.perm_middle.mem_iff.mpr hb)

end Pruning

/-! ### The greatest names -/

section Greatest

variable (hnodup : (g.backups.map (·.uuid)).Nodup)

include hnodup in
theorem isComplete_uuid {x : Backup} (hx : x ∈ g.backups) :
    isComplete g x.uuid = x.complete := by
  rw [Bool.eq_iff_iff]
  unfold isComplete
  simp only [List.any_eq_true, Bool.and_eq_true, decide_eq_true_eq]
  constructor
  · rintro ⟨y, hy, heq, hc⟩
    exact List.inj_on_of_nodup_map hnodup hy hx heq ▸ hc
  · intro hc
    exact ⟨x, hx, rfl, hc⟩

include hnodup in
/-- The names of the complete directories, in the order in which they were created. -/
theorem filter_isComplete :
    (g.backups.map (·.uuid)).filter (isComplete g) =
      (completeBackups g.backups).map (·.uuid) := by
  rw [List.filter_map]
  exact congrArg _ (List.filter_congr fun x hx => isComplete_uuid hnodup hx)

theorem older_append_latest {backups : List Backup} :
    (completeBackups backups).rdrop preMigrationBackupRetention ++ latest backups =
      completeBackups backups := List.take_append_drop _ _

theorem length_latest {backups : List Backup} :
    (latest backups).length ≤ preMigrationBackupRetention := by
  rw [latest, List.rtake, List.length_drop]
  omega

/-- There are older ones only where there are as many recent ones as are kept. -/
theorem length_latest_eq {backups : List Backup} :
    (completeBackups backups).rdrop preMigrationBackupRetention = [] ∨
      (latest backups).length = preMigrationBackupRetention := by
  rw [latest, List.rdrop, List.rtake, List.length_drop, List.take_eq_nil_iff]
  omega

include hnodup in
/-- The greatest names are those of the most recent directories exactly if the
directories are ranked. -/
theorem mem_retainedOf_iff :
    (∀ u, u ∈ retainedOf g 0 (newestFirst (g.backups.map (·.uuid))) ↔
        u ∈ (latest g.backups).map (·.uuid)) ↔ Ranked g.backups := by
  have hsplit : (completeBackups g.backups).map (·.uuid) =
      ((completeBackups g.backups).rdrop preMigrationBackupRetention).map (·.uuid) ++
        (latest g.backups).map (·.uuid) := by
    rw [← List.map_append, older_append_latest]
  have hretained : retainedOf g 0 (newestFirst (g.backups.map (·.uuid))) =
      (((completeBackups g.backups).map (·.uuid)).insertionSort (· ≥ ·)).take
        preMigrationBackupRetention := by
    rw [← filter_isComplete hnodup]
    exact congrArg (List.take _) (filter_insertionSort fun a _ b _ => ge_antisymm)
  have hcomplete : ((completeBackups g.backups).map (·.uuid)).Nodup :=
    hnodup.sublist (List.filter_sublist.map _)
  rw [hsplit] at hcomplete
  rw [hretained, hsplit]
  refine (mem_greatest_iff hcomplete ?_ ?_).trans ?_
  · rw [List.length_map]
    exact length_latest
  · rw [List.map_eq_nil_iff, List.length_map]
    exact length_latest_eq
  · simp only [List.forall_mem_map]
    exact Iff.rfl

theorem filter_mem_right {A B : List Backup} (h : (A ++ B).Nodup) :
    (A ++ B).filter (fun x => decide (x ∈ B)) = B := by
  rw [List.filter_append, List.filter_eq_self.mpr fun x hx => decide_eq_true hx,
    List.filter_eq_nil_iff.mpr, List.nil_append]
  intro x hx hb
  exact (List.nodup_append.mp h).2.2 x hx x (of_decide_eq_true hb) rfl

include hnodup in
theorem kept_newest (hranked : Ranked g.backups) :
    (kept g (retainedOf g 0 (newestFirst (g.backups.map (·.uuid))))).backups =
      latest g.backups := by
  have hcomplete : ∀ x ∈ latest g.backups, x ∈ g.backups ∧ x.complete = true :=
    fun x hx => List.mem_filter.mp (List.mem_of_mem_drop hx)
  have hkept : ∀ x ∈ g.backups,
      decide (x.uuid ∈ retainedOf g 0 (newestFirst (g.backups.map (·.uuid)))) =
        (decide (x ∈ latest g.backups) && x.complete) := by
    intro x hx
    rw [Bool.eq_iff_iff, Bool.and_eq_true, decide_eq_true_eq, decide_eq_true_eq,
      (mem_retainedOf_iff hnodup).mpr hranked, List.mem_map]
    constructor
    · rintro ⟨y, hy, heq⟩
      have hsame : y = x := List.inj_on_of_nodup_map hnodup (hcomplete y hy).1 hx heq
      exact hsame ▸ ⟨hy, (hcomplete y hy).2⟩
    · intro h
      exact ⟨x, h.1, rfl⟩
  have hlist : (completeBackups g.backups).Nodup := (hnodup.of_map _).filter _
  rw [← older_append_latest] at hlist
  calc (kept g _).backups
      = g.backups.filter (fun x => decide (x ∈ latest g.backups) && x.complete) :=
        List.filter_congr hkept
    _ = (completeBackups g.backups).filter (fun x => decide (x ∈ latest g.backups)) :=
        List.filter_filter.symm
    _ = latest g.backups := by
        rw [← older_append_latest]
        exact filter_mem_right hlist

end Greatest

/-! ### A whole call -/

section Call

variable (hnodup : (g.backups.map (·.uuid)).Nodup) (hsource : g.source = start.source)
  (hmem : b ∈ g.backups) (hsound : Sound b)

theorem listed {o : Oracle} (hfault : o.fault = false) :
    perform o .readDirectory g = (.ok (g.backups.map (·.uuid)), g) := by
  show ((if o.fault then (Except.error IoError.other : Except IoError (List Nat))
    else .ok (g.backups.map (·.uuid))), g) = _
  rw [hfault]
  rfl

include hnodup hsource hmem hsound in
theorem pruneRetention_safe
    (hlast : b ∈ latest g.backups) :
    Safe Calls Eq (Kept start) (pruneRetention preMigrationBackupRetention)
      (fun _ f' => f'.source = start.source ∧
        f'.backups = latest g.backups) g := by
  have hrest : Rest start g := by
    rw [← kept_all (g := g)]
    exact rest_kept hnodup hsource hmem hsound (List.mem_map_of_mem hmem)
  intro g' hquiet r f' ⟨o, hpermitted, ho⟩
  subst hquiet
  obtain ⟨hranked, hfault⟩ := hpermitted.ranked rfl
  obtain ⟨hread, hsame⟩ := Prod.mk.inj ((listed hfault).symm.trans ho)
  subst hread hsame
  refine ⟨⟨hrest, fun _ => hrest⟩, ?_⟩
  have hnames : (newestFirst (g.backups.map Backup.uuid) ++ []).Nodup := by
    rw [List.append_nil]
    exact (List.perm_insertionSort _ _).nodup_iff.mpr hnodup
  have hb : b.uuid ∈ retainedOf g 0 (newestFirst (g.backups.map (·.uuid))) ++ [] := by
    rw [List.append_nil, (mem_retainedOf_iff hnodup).mpr hranked]
    exact List.mem_map_of_mem hlast
  have hloop := pruneLoop_safe hnodup hsource hmem hsound hnames hb
  have hall : kept g (newestFirst (g.backups.map (·.uuid)) ++ []) = g := by
    refine (kept_congr fun u => ?_).trans kept_all
    rw [List.append_nil]
    exact (List.perm_insertionSort _ _).mem_iff
  rw [hall] at hloop
  refine hloop.imp ?_
  rintro _ _ rfl
  rw [List.append_nil]
  exact ⟨hsource, kept_newest hnodup hranked⟩

/-- What a call that succeeds leaves. -/
structure Created (start : Files) (uuid : Nat) (backup : Backup) (f : Files) :
    Prop where
  name : backup.uuid = uuid
  copy : IsCopy start.source backup
  marker : backup.marker = some completeMarker
  source : f.source = start.source
  backups : f.backups =
    latest (start.backups ++ [backup])

theorem latest_concat (hcomplete : b.complete = true) :
    latest (start.backups ++ [b]) =
      (completeBackups start.backups).rtake 2 ++ [b] := by
  unfold latest completeBackups
  rw [List.filter_append, List.filter_cons_of_pos hcomplete, List.filter_nil]
  exact List.rtake_concat_succ ..

theorem createDirectory_stage {ε : Type} {wrap : IoError → ε}
    (hrest : Rest start start) :
    Stage start (orThrow (call (.createDirectory uuid)) wrap)
      (fun _ f' => Fresh start uuid ∧ f' = grown start (.empty uuid)) start := by
  refine Succeeds.orThrow ?_
  rintro f hquiet r f' ⟨o, -, ho⟩
  subst hquiet
  simp only [perform] at ho
  split at ho
  · cases ho
    exact ⟨⟨hrest, fun _ => hrest⟩, nofun⟩
  · split at ho
    · cases ho
      exact ⟨⟨hrest, fun _ => hrest⟩, nofun⟩
    · next hfresh =>
        cases ho
        have hgrown : Fresh start uuid := ⟨hrest.nodup, hfresh⟩
        exact ⟨⟨rest_grown (b := .empty uuid) hgrown, fun _ => hrest⟩,
          fun _ _ => ⟨hgrown, rfl⟩⟩

/-- The copy is marked, and the older directories are removed. -/
theorem finish_stage (h : Fresh start b.uuid) (hcopy : IsCopy start.source b) :
    Stage start
      (do
        commitBackup b.uuid
        pruneRetention preMigrationBackupRetention
        return b.uuid)
      (fun r f' => r = b.uuid ∧ ∃ backup, Created start b.uuid backup f')
      (grown start b) := by
  refine Succeeds.bind (commitBackup_stage h) ?_
  rintro _ _ rfl
  have hsound : Sound { b with marker := some completeMarker } := ⟨rfl, hcopy.present⟩
  have hfresh : Fresh start ({ b with marker := some completeMarker } : Backup).uuid :=
    h
  have hlast : latest (start.backups ++ [{ b with marker := some completeMarker }]) =
      _ := latest_concat hsound.complete
  refine Succeeds.bind (Succeeds.lift (pruneRetention_safe (rest_grown hfresh).nodup rfl
    (List.mem_append_right _ (List.mem_singleton_self _)) hsound
    (hlast ▸ List.mem_append_right _ (List.mem_singleton_self _)))) ?_
  intro _ f' hkept a ha
  cases ha
  exact ⟨rfl, { b with marker := some completeMarker }, rfl,
    ⟨hcopy.database, hcopy.present, hcopy.wal⟩, rfl, hkept.1, hkept.2⟩

theorem create_stage (hnodup : (start.backups.map (·.uuid)).Nodup) :
    Stage start (create uuid)
      (fun r f' => r = uuid ∧ ∃ backup, Created start uuid backup f') start := by
  have hrest : Rest start start := ⟨hnodup, rfl, id⟩
  refine Succeeds.bind (stage_quiet (quiet_createRoot.leaves hrest)) ?_
  intro _ f hf
  subst f
  refine Succeeds.bind (createDirectory_stage hrest) ?_
  rintro _ _ ⟨hfresh, rfl⟩
  refine Succeeds.bind (copyRequiredFile_stage (b := .empty uuid) hfresh) ?_
  rintro _ _ ⟨bytes, hdatabase, rfl⟩
  have hput : Fresh start ((Backup.empty uuid).put .database bytes).uuid := hfresh
  refine Succeeds.bind (sourceExists_stage hput) ?_
  rintro found _ ⟨rfl, -, hmissing⟩
  cases found with
  | false =>
      have hwal : none = Source.bytes (start.source .wal) := by
        rw [hmissing rfl]
        rfl
      exact finish_stage hput ⟨(congrArg Source.bytes hdatabase).symm, rfl, hwal⟩
  | true =>
      refine Succeeds.bind (copyRequiredFile_stage hput) ?_
      rintro _ _ ⟨walBytes, hwal, rfl⟩
      exact finish_stage
        (b := ((Backup.empty uuid).put .database bytes).put .wal walBytes) hfresh
        ⟨(congrArg Source.bytes hdatabase).symm, rfl,
          (congrArg Source.bytes hwal).symm⟩

end Call

/-! ### Runs -/

theorem Created.sound {backup : Backup} (h : Created start uuid backup f) :
    Sound backup ∧ backup ∈ f.backups := by
  have hsound : Sound backup := ⟨h.marker, h.copy.present⟩
  refine ⟨hsound, ?_⟩
  rw [h.backups, latest_concat hsound.complete]
  exact List.mem_append_right _ (List.mem_singleton_self _)

/-- What is known of a call under way. -/
structure Running (s : State) (task : Task) : Prop where
  rest : Rest task.start s.files
  sound : s.succeeded = true → HasSound task.start
  safe : Stage task.start task.run
    (fun r f' => r = task.uuid ∧ ∃ backup, Created task.start task.uuid backup f')
    s.files

structure Inv (s : State) : Prop where
  nodup : (s.files.backups.map (·.uuid)).Nodup
  sound : s.succeeded = true → HasSound s.files
  running : ∀ task, s.task = some task → Running s task

/-- A step of a call meets only what is permitted. -/
def Meets (s : State) : Label → Prop
  | .step o => ∀ start uuid q k, s.task = some ⟨start, uuid, .call q k⟩ →
      Permitted q s.files o
  | _ => True

def Step (s t : State) : Prop := ∃ label, Meets s label ∧ next s label = some t

theorem Inv.of_rest {s : State} {start : Files} (hrest : Rest start s.files)
    (hsound : s.succeeded = true → HasSound start) (htask : s.task = none) : Inv s where
  nodup := hrest.nodup
  sound := fun h => hrest.sound (hsound h)
  running := fun _ h => nomatch htask.symm.trans h

/-- Wherever a call stands it may be stopped. -/
theorem rest_stop {q : FileReq} {k : q.Resp → Creating Nat} {Q : Nat → Files → Prop}
    (hrest : Rest start f) (hsafe : Stage start (.call (S := fileSig) q k) Q f)
    (o : Oracle) : Rest start (torn o q f) := by
  by_cases hq : q = .readDirectory
  · subst hq
    exact hrest
  · have hpermitted : Permitted q f ⟨false, 0, none, fun _ => false, false⟩ :=
      ⟨fun h => absurd h hq, fun _ _ => rfl⟩
    exact (hsafe f rfl _ _ ⟨_, hpermitted, rfl⟩).1.2 o

theorem Inv.step {s t : State} (h : Inv s) (hst : Step s t) : Inv t := by
  obtain ⟨label, hmeets, hnext⟩ := hst
  cases label with
  | create uuid =>
      simp only [next] at hnext
      split at hnext
      · cases hnext
        refine ⟨h.nodup, h.sound, ?_⟩
        rintro _ ⟨⟩
        exact ⟨⟨h.nodup, rfl, id⟩, h.sound, create_stage h.nodup⟩
      · cases hnext
  | step o =>
      simp only [next] at hnext
      split at hnext
      · next start uuid q k htask =>
          cases hnext
          have hrun := h.running _ htask
          obtain ⟨⟨hrest, -⟩, hsafe⟩ := hrun.safe s.files rfl _ _
            ⟨o, hmeets start uuid q k htask, rfl⟩
          refine ⟨hrest.nodup, fun hok => hrest.sound (hrun.sound hok), ?_⟩
          rintro _ ⟨⟩
          exact ⟨hrest, hrun.sound, hsafe⟩
      · cases hnext
  | finish =>
      simp only [next] at hnext
      split at hnext
      · next start uuid r htask =>
          cases hnext
          have hrun := h.running _ htask
          obtain ⟨-, backup, hcreated⟩ := hrun.safe r rfl
          have hsound := hcreated.sound
          exact ⟨h.nodup, fun _ => ⟨backup, hsound.2, hsound.1⟩, nofun⟩
      · cases hnext
        exact ⟨h.nodup, h.sound, nofun⟩
      · cases hnext
  | stop o =>
      simp only [next] at hnext
      split at hnext
      · next start uuid q k htask =>
          cases hnext
          have hrun := h.running _ htask
          exact .of_rest (rest_stop hrun.rest hrun.safe o) hrun.sound rfl
      · cases hnext
  | work source =>
      simp only [next] at hnext
      split at hnext
      · next htask =>
          cases hnext
          exact ⟨h.nodup, h.sound, fun _ hsome => nomatch htask.symm.trans hsome⟩
      · cases hnext

theorem inv_of_reach {s : State} (h : Reach Initial Step s) : Inv s := by
  refine h.inv (fun s hs => ?_) fun s t hs hst => hs.step hst
  obtain ⟨hbackups, htask, hsucceeded⟩ := hs
  refine ⟨?_, fun h => ?_, fun _ h => nomatch htask.symm.trans h⟩
  · rw [hbackups]
    exact List.nodup_nil
  · rw [hsucceeded] at h
    cases h

/-! ### A clock that was set back -/

/-- A call that is not disturbed. -/
def undisturbed (uuid calls : Nat) : List Label :=
  .create uuid :: List.replicate calls (.step ⟨false, 0, none, fun _ => false, false⟩)

/-- Three backups, and one whose name is smaller. -/
def setBack : List Label :=
  undisturbed 10 12 ++ [.finish] ++ undisturbed 11 13 ++ [.finish] ++
    undisturbed 12 14 ++ [.finish] ++ undisturbed 5 16

def sourcesOf : SourceFile → Source
  | .database => .regular [1]
  | .wal => .missing

def returnedGone (s : State) : Bool :=
  match s.task with
  | some ⟨_, _, .ret (.ok created)⟩ => s.files.backups.all fun b => b.uuid ≠ created
  | _ => false

/-- A call succeeds, and the directory that it returns is gone. -/
theorem returned_backup_gone :
    ¬ ∀ s, Reach Initial (Next next) s → ∀ start uuid created,
      s.task = some ⟨start, uuid, .ret (.ok created)⟩ →
        ∃ backup ∈ s.files.backups, backup.uuid = created := by
  intro hall
  obtain ⟨s, hs, hbad⟩ := exists_reach_of_follow Initial next setBack returnedGone
    (s := ⟨⟨sourcesOf, []⟩, none, false⟩) ⟨rfl, rfl, rfl⟩ (by decide +kernel)
  unfold returnedGone at hbad
  split at hbad
  · next start uuid created htask =>
      obtain ⟨backup, hmem, hname⟩ := hall s hs start uuid created htask
      exact of_decide_eq_true (List.all_eq_true.mp hbad backup hmem) hname
  · cases hbad

/-- As long as directories are removed only where the most recent complete ones have
the greatest names and the disk does not fail, a call that succeeds returns a complete
copy of the sources and leaves the most recent complete directories, and from the first
success on there is a complete backup at any time. -/
theorem retained_where_ranked (s : State) :
    (Reach Initial Step s → ∀ start uuid created,
      s.task = some ⟨start, uuid, .ret (.ok created)⟩ →
        ∃ backup ∈ s.files.backups, backup.uuid = created ∧
          IsCopy s.files.source backup ∧ backup.marker = some completeMarker ∧
          s.files.backups = latest (start.backups ++ [backup])) ∧
    (Reach Initial Step s → s.succeeded = true → HasSound s.files) := by
  refine ⟨fun hs start uuid created htask => ?_, fun hs => (inv_of_reach hs).sound⟩
  have hrun := (inv_of_reach hs).running _ htask
  obtain ⟨hname, backup, hcreated⟩ := hrun.safe created rfl
  refine ⟨backup, hcreated.sound.2, hcreated.name.trans hname.symm, ?_, hcreated.marker,
    hcreated.backups⟩
  rw [hcreated.source]
  exact hcreated.copy

end Rutilus.Proofs.BackupRetention
