import Mathlib.Data.List.Induction
import Rutilus.Lib.Table

/-!
# File trees

What stands below a directory: a table from the paths to files and directories. A tree
is closed if what is above an entry is a directory, as in every file system; then a
listing of a directory and of those in it reaches everything below it.

A copy that is under way has the entries of some paths. It grows by one entry at a
time, and what is left out of it is left out with everything below it.

Files that are written over a tree one after the other leave each path what was written
to it last; beside them only the directories above them are new.
-/

namespace Rutilus.Lib

variable {ν β : Type}

inductive Node (β : Type) where
  | file (content : β)
  | directory
  deriving DecidableEq, Repr

/-- An entry under its path, the names from the root on. -/
structure Item (ν β : Type) where
  path : List ν
  node : Node β
  deriving DecidableEq, Repr

abbrev FileTree (ν β : Type) : Type := Table (List ν) (Item ν β) Item.path

namespace FileTree

variable [DecidableEq ν] {t : FileTree ν β} {p q : List ν} {node : Node β}

def get (t : FileTree ν β) (p : List ν) : Option (Node β) := (t.find p).map Item.node

def set (t : FileTree ν β) (p : List ν) (node : Node β) : FileTree ν β :=
  t.put ⟨p, node⟩

def remove (t : FileTree ν β) (p : List ν) : FileTree ν β :=
  t.filter fun item => item.path ≠ p

/-- The content of the file under a path. -/
def file (t : FileTree ν β) (p : List ν) : Option β :=
  match t.get p with
  | some (.file content) => some content
  | _ => none

/-- A listing of a directory. -/
def names (t : FileTree ν β) (p : List ν) : List ν :=
  t.rows.filterMap fun item =>
    if item.path.dropLast = p then item.path.getLast? else none

theorem get_set (q : List ν) :
    (t.set p node).get q = if p = q then some node else t.get q := by
  unfold get set
  rw [Table.find_put]
  split
  · rfl
  · rfl

theorem get_set_self : (t.set p node).get p = some node :=
  (get_set p).trans (if_pos rfl)

theorem get_set_other (h : q ≠ p) : (t.set p node).get q = t.get q :=
  (get_set q).trans (if_neg h.symm)

theorem get_remove_self : (t.remove p).get p = none := by
  unfold get remove
  rw [Table.find_filter]
  cases h : t.find p with
  | none => rfl
  | some item =>
      have hpath : item.path = p := Table.key_of_find h
      simp [Option.filter, hpath]

theorem get_remove_other (h : q ≠ p) : (t.remove p).get q = t.get q := by
  have hfind : (t.remove p).find q = t.find q :=
    Table.find_filter_of_key fun item hitem => by simpa [hitem] using h
  exact congrArg (Option.map Item.node) hfind

theorem file_eq_some_iff {content : β} :
    t.file p = some content ↔ t.get p = some (.file content) := by
  unfold file
  split
  · next h => rw [h, Option.some.injEq, Option.some.injEq, Node.file.injEq]
  · next h =>
      constructor
      · intro hnone
        cases hnone
      · intro hsome
        exact absurd hsome (h content)

theorem mem_names {n : ν} : n ∈ t.names p ↔ (t.get (p ++ [n])).isSome = true := by
  unfold names get
  rw [List.mem_filterMap, Option.isSome_map]
  constructor
  · rintro ⟨item, hmem, hitem⟩
    split at hitem
    · next hdrop =>
        have hpath : item.path = p ++ [n] := by
          rw [← hdrop, ← List.dropLast_append_getLast? n hitem]
          simp
        exact Option.isSome_iff_exists.mpr
          ⟨item, Table.find_eq_some_iff.mpr ⟨hmem, hpath⟩⟩
    · cases hitem
  · intro h
    obtain ⟨item, hitem⟩ := Option.isSome_iff_exists.mp h
    obtain ⟨hmem, hpath⟩ := Table.find_eq_some_iff.mp hitem
    exact ⟨item, hmem, by simp [hpath]⟩

/-! ## Closed trees -/

/-- What is above an entry is a directory. -/
def Closed (t : FileTree ν β) : Prop :=
  ∀ p n, (t.get (p ++ [n])).isSome = true → p = [] ∨ t.get p = some .directory

/-- It is enough to look at the rows. -/
theorem closed_of_rows (h : ∀ item ∈ t.rows,
    item.path.dropLast = [] ∨ t.get item.path.dropLast = some .directory) :
    Closed t := by
  intro p n hsome
  obtain ⟨node, hnode⟩ := Option.isSome_iff_exists.mp hsome
  obtain ⟨item, hfind, -⟩ := Option.map_eq_some_iff.mp hnode
  obtain ⟨hmem, hpath⟩ := Table.find_eq_some_iff.mp hfind
  have hparent : item.path.dropLast = p := by
    rw [hpath]
    simp
  rw [← hparent]
  exact h item hmem

theorem Closed.above (h : Closed t) (hq : (t.get q).isSome = true) (hp : p <+: q)
    (hne : p ≠ q) : p = [] ∨ t.get p = some .directory := by
  obtain ⟨rest, rfl⟩ := hp
  induction rest using List.reverseRecOn with
  | nil => exact absurd (List.append_nil p).symm hne
  | append_singleton rest n ih =>
      rw [← List.append_assoc] at hq
      rcases h _ _ hq with hempty | hdir
      · exact .inl (List.append_eq_nil_iff.mp hempty).1
      · by_cases hrest : rest = []
        · rw [hrest, List.append_nil] at hdir
          exact .inr hdir
        · refine ih (by rw [hdir]; rfl) fun hsame => hrest ?_
          exact List.append_right_eq_self.mp hsame.symm

/-- Nothing stands below a file. -/
theorem Closed.nothing_below {content : β} (h : Closed t)
    (hp : t.get p = some (.file content)) (hroot : p ≠ []) (hq : p <+: q)
    (hne : p ≠ q) :
    t.get q = none := by
  cases hsome : t.get q with
  | none => rfl
  | some node =>
      rcases h.above (by rw [hsome]; rfl) hq hne with hempty | hdir
      · exact absurd hempty hroot
      · rw [hp] at hdir
        cases hdir

/-- What stands below a directory stands below one of the names in its listing, or
under it. -/
theorem Closed.named (h : Closed t) (hq : (t.get q).isSome = true) (hp : p <+: q)
    (hne : p ≠ q) : ∃ n ∈ t.names p, p ++ [n] <+: q := by
  obtain ⟨rest, rfl⟩ := hp
  cases rest with
  | nil => exact absurd (List.append_nil p).symm hne
  | cons n rest =>
      have hbelow : p ++ [n] <+: p ++ n :: rest := ⟨rest, by simp⟩
      refine ⟨n, mem_names.mpr ?_, hbelow⟩
      by_cases hrest : p ++ [n] = p ++ n :: rest
      · rw [hrest]
        exact hq
      · rcases h.above hq hbelow hrest with hempty | hdir
        · simp at hempty
        · rw [hdir]
          rfl

/-! ## Copies -/

/-- A copy that has the entries of the paths `done`, but those of `skip`, and no
others. -/
def Copies (skip done : List ν → Prop) (source copy : FileTree ν β) : Prop :=
  ∀ q, (done q ∧ ¬ skip q → copy.get q = source.get q) ∧
    (¬ (done q ∧ ¬ skip q) → copy.get q = none)

section Copies

variable {skip done done' : List ν → Prop} {source copy : FileTree ν β}

theorem Copies.start : Copies skip (fun _ => False) source Table.empty :=
  fun _ => ⟨fun h => h.1.elim, fun _ => rfl⟩

/-- Only the paths with an entry matter. -/
theorem Copies.congr (h : Copies skip done source copy)
    (hdone : ∀ q, ¬ skip q → (source.get q).isSome = true → (done q ↔ done' q)) :
    Copies skip done' source copy := by
  intro q
  by_cases hskip : skip q
  · have hnone : copy.get q = none := (h q).2 fun hq => hq.2 hskip
    exact ⟨fun hq => absurd hskip hq.2, fun _ => hnone⟩
  · cases hsource : source.get q with
    | none =>
        have hnone : copy.get q = none := by
          by_cases hq : done q
          · rw [(h q).1 ⟨hq, hskip⟩, hsource]
          · exact (h q).2 fun hboth => hq hboth.1
        exact ⟨fun _ => hnone, fun _ => hnone⟩
    | some node =>
        have hiff := hdone q hskip (by rw [hsource]; rfl)
        rw [← hsource, ← hiff]
        exact h q

theorem Copies.set (h : Copies skip done source copy) (hskip : ¬ skip p)
    (hsource : source.get p = some node) :
    Copies skip (fun q => done q ∨ q = p) source (copy.set p node) := by
  intro q
  by_cases hq : q = p
  · subst hq
    rw [get_set_self]
    exact ⟨fun _ => hsource.symm, fun hnot => absurd ⟨.inr rfl, hskip⟩ hnot⟩
  · rw [get_set_other hq]
    have hiff : (done q ∨ q = p) ∧ ¬ skip q ↔ done q ∧ ¬ skip q := by simp [hq]
    rw [hiff]
    exact h q

end Copies

/-! ## Writing files -/

/-- What was written to a path last. -/
def lastWrite (writes : List (List ν × β)) (q : List ν) : Option β :=
  (writes.reverse.find? fun write => write.1 = q).map Prod.snd

/-- A tree onto which files were written. -/
structure Overlaid (writes : List (List ν × β)) (t t' : FileTree ν β) : Prop where
  written : ∀ q content, lastWrite writes q = some content →
    t'.get q = some (.file content)
  others : ∀ q, lastWrite writes q = none →
    t'.get q = t.get q ∨
      t.get q = none ∧ t'.get q = some .directory ∧ ∃ write ∈ writes, q <+: write.1

section Overlaid

variable {writes writes' : List (List ν × β)} {t₁ t' : FileTree ν β}

theorem lastWrite_append : lastWrite (writes ++ writes') q =
    (lastWrite writes' q).or (lastWrite writes q) := by
  unfold lastWrite
  rw [List.reverse_append, List.find?_append, Option.map_or]

theorem lastWrite_eq_none_iff :
    lastWrite writes q = none ↔ ∀ write ∈ writes, write.1 ≠ q := by
  simp [lastWrite]

theorem mem_of_lastWrite {content : β} (h : lastWrite writes q = some content) :
    (q, content) ∈ writes := by
  obtain ⟨⟨p, content'⟩, hfind, hcontent⟩ := Option.map_eq_some_iff.mp h
  have hpath : p = q := by simpa using List.find?_some hfind
  cases hcontent
  rw [← hpath]
  exact List.mem_reverse.mp (List.mem_of_find?_eq_some hfind)

theorem Overlaid.refl : Overlaid [] t t :=
  ⟨fun q content h => by simp [lastWrite] at h, fun _ _ => .inl rfl⟩

theorem Overlaid.append (h : Overlaid writes t t₁) (h' : Overlaid writes' t₁ t') :
    Overlaid (writes ++ writes') t t' := by
  constructor
  · intro q content hlast
    rw [lastWrite_append] at hlast
    cases hlast' : lastWrite writes' q with
    | some content' =>
        rw [hlast'] at hlast
        cases hlast
        exact h'.written q content hlast'
    | none =>
        rw [hlast', Option.none_or] at hlast
        have hfile := h.written q content hlast
        rcases h'.others q hlast' with hsame | ⟨hnone, -⟩
        · rw [hsame]
          exact hfile
        · rw [hnone] at hfile
          cases hfile
  · intro q hlast
    rw [lastWrite_append, Option.or_eq_none_iff] at hlast
    rcases h'.others q hlast.1 with hsame | ⟨hnone, hdir, write, hwrite, hbelow⟩
    · rw [hsame]
      rcases h.others q hlast.2 with hsame | ⟨hnone, hdir, write, hwrite, hbelow⟩
      · exact .inl hsame
      · exact .inr ⟨hnone, hdir, write, List.mem_append_left _ hwrite, hbelow⟩
    · rcases h.others q hlast.2 with hsame | ⟨-, hdir', -⟩
      · exact .inr ⟨hsame ▸ hnone, hdir, write, List.mem_append_right _ hwrite, hbelow⟩
      · rw [hnone] at hdir'
        cases hdir'

end Overlaid

end FileTree

end Rutilus.Lib
