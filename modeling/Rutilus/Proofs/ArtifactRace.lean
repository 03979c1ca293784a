import Rutilus.App.ArtifactStore
import Rutilus.Lib.Rely

/-!
# Uploads that race

The row is moved under the write gate, so its counter and its phase are safe
under every interleaving: `perform_advance` says that no call moves them back.
The file is not. A chunk that read the row long ago may still write, onto a
file another call has hashed meanwhile, or onto the file of a ready artifact.

A call of the second kind damages a ready artifact; one of the first kind
makes a finalize call vouch for a file that is no longer there. `Quiet` is the
absence of both, step by step. What a finalize call knows when it is about to
record `ready` is `Verified`: the file it read had the declared digest. So one
step out of a whole state leads to a whole state exactly if it is quiet.
-/

namespace Rutilus.Proofs.ArtifactRace

open Rutilus.Domain Rutilus.Lib Rutilus.Store Rutilus.App.ArtifactStore

variable {decode : String → Option Bytes} {sha : Bytes → Digest}

/-! ## The row -/

/-- What becomes of a row: the manifest stays, the count does not go back, and
a final row does not change. -/
structure Later (a b : ArtifactRow) : Prop where
  size : b.sizeBytes = a.sizeBytes
  digest : b.sha256 = a.sha256
  progress : a.uploadedBytes ≤ b.uploadedBytes
  final : a.state.isTerminal → b = a

theorem Later.refl (a : ArtifactRow) : Later a a :=
  ⟨rfl, rfl, Nat.le_refl _, fun _ => rfl⟩

theorem Later.trans {a b c : ArtifactRow} (h₁ : Later a b) (h₂ : Later b c) :
    Later a c := by
  refine ⟨h₂.size.trans h₁.size, h₂.digest.trans h₁.digest,
    Nat.le_trans h₁.progress h₂.progress, fun h => ?_⟩
  obtain rfl := h₁.final h
  exact h₂.final h

def Advance (t t' : ArtifactTable) : Prop :=
  ∀ id row, t.find id = some row → ∃ row', t'.find id = some row' ∧
    Later row row'

theorem Advance.refl (t : ArtifactTable) : Advance t t :=
  fun _ row h => ⟨row, h, .refl row⟩

theorem Advance.trans {a b c : ArtifactTable} (h₁ : Advance a b)
    (h₂ : Advance b c) : Advance a c := by
  intro id row hrow
  obtain ⟨row', hrow', hl⟩ := h₁ id row hrow
  obtain ⟨row'', hrow'', hl'⟩ := h₂ id row' hrow'
  exact ⟨row'', hrow'', hl.trans hl'⟩

/-- The counts stay within the declared sizes. -/
def Counted (t : ArtifactTable) : Prop :=
  ∀ id row, t.find id = some row → row.uploadedBytes ≤ row.sizeBytes

section Calls

variable {t t' : ArtifactTable} {artifactId : ArtifactId}

theorem declareArtifact_advance {artifact : Artifact}
    (h : declareArtifact t artifact none = .ok ((), t')) :
    Advance t t' ∧ (Counted t → Counted t') := by
  obtain rfl := declareArtifact_ok h
  constructor
  · intro id row hrow
    refine ⟨row, ?_, .refl row⟩
    rw [Table.find_insertNew, if_neg, hrow]
    rintro ⟨-, hnone⟩
    rw [hrow] at hnone
    cases hnone
  · intro hc id row hrow
    rw [Table.find_insertNew] at hrow
    split at hrow
    · cases hrow
      exact artifact.progress
    · exact hc id row hrow

theorem updateArtifact_find {uploaded : Nat} {state : ArtifactState}
    {now : Instant} {id : ArtifactId} {row : ArtifactRow}
    (h : updateArtifact t artifactId uploaded state now = .ok ((), t'))
    (hrow : t.find artifactId = some row) :
    t'.find id = if artifactId = id then
      some { row with uploadedBytes := uploaded, state, updatedAt := now }
    else t.find id := by
  obtain ⟨row', hrow', -, -, -, -, rfl⟩ := updateArtifact_ok h
  obtain rfl : row' = row := Option.some.inj (hrow'.symm.trans hrow)
  obtain rfl : row'.id = artifactId := Table.key_of_find hrow
  rw [Table.find_replace]
  by_cases hk : row'.id = id
  · subst hk
    rw [if_pos ⟨rfl, by rw [hrow]; rfl⟩, if_pos rfl]
  · rw [if_neg fun h => hk h.1, if_neg hk]

theorem updateArtifact_advance {uploaded : Nat} {state : ArtifactState}
    {now : Instant}
    (h : updateArtifact t artifactId uploaded state now = .ok ((), t')) :
    Advance t t' ∧ (Counted t → Counted t') := by
  obtain ⟨row, hrow, hopen, hprogress, hsize, -, -⟩ := updateArtifact_ok h
  constructor
  · intro id old hold
    rw [updateArtifact_find h hrow]
    split
    · next hid =>
        subst hid
        obtain rfl : row = old := Option.some.inj (hrow.symm.trans hold)
        refine ⟨_, rfl, rfl, rfl, hprogress, fun hfinal => ?_⟩
        rw [hopen] at hfinal
        cases hfinal
    · exact ⟨old, hold, .refl old⟩
  · intro hc id new hnew
    rw [updateArtifact_find h hrow] at hnew
    split at hnew
    · cases hnew
      exact hsize
    · exact hc id new hnew

/-- No call moves a row back. -/
theorem perform_advance (o : Oracle) (q : StoreReq) (s : Shared) :
    Advance s.artifacts (perform sha o q s).2.artifacts ∧
      (Counted s.artifacts → Counted (perform sha o q s).2.artifacts) := by
  have hsame : Advance s.artifacts s.artifacts ∧
      (Counted s.artifacts → Counted s.artifacts) := ⟨.refl _, id⟩
  obtain ⟨fault, io, landed⟩ := o
  cases q with
  | createArtifact artifact =>
      cases fault with
      | some f => exact hsame
      | none =>
          simp only [perform]
          split
          · next hok => exact declareArtifact_advance hok
          · exact hsame
  | findArtifact artifactId => cases fault <;> exact hsame
  | updateArtifact artifactId uploaded state now =>
      cases fault with
      | some f => exact hsame
      | none =>
          simp only [perform]
          split
          · next hok => exact updateArtifact_advance hok
          · exact hsame
  | writeChunk artifactId offset data => cases io <;> exact hsame
  | hashFile artifactId =>
      cases io with
      | some e => exact hsame
      | none =>
          simp only [perform]
          split <;> exact hsame

end Calls

/-! ## The file -/

def digestOf (sha : Bytes → Digest) (s : Shared) (id : ArtifactId) :
    Option Digest :=
  (s.files id).map sha

/-- The file of every ready artifact has the declared digest. -/
def Whole (sha : Bytes → Digest) (s : Shared) : Prop :=
  ∀ id row, s.artifacts.find id = some row → row.state = .ready →
    digestOf sha s id = some row.sha256

/-- The artifact is ready. -/
def IsReady (s : Shared) (id : ArtifactId) : Prop :=
  (s.artifacts.find id).map ArtifactRow.state = some .ready

/-- A write to the file of a ready artifact leaves its digest as it is, and a
finalize call that records `ready` finds the digest of the file it has read. -/
def QuietCall (sha : Bytes → Digest) (read : Option Bytes) (o : Oracle) :
    StoreReq → Shared → Prop
  | .writeChunk id offset data, s => IsReady s id →
      digestOf sha (perform sha o (.writeChunk id offset data) s).2 id =
        digestOf sha s id
  | .updateArtifact id uploaded .ready now, s =>
      (perform sha o (.updateArtifact id uploaded .ready now) s).1 = .ok () →
        digestOf sha s id = read.map sha
  | _, _ => True

def Quiet (sha : Bytes → Digest) (s : State) : Label → Prop
  | .step i o => match s.callers[i]? with
    | some ⟨read, .call q _⟩ => QuietCall sha read o q s.shared
    | _ => True
  | _ => True

/-- A declared artifact is still open, and a finalize call that is about to
record `ready` has read a file with the declared digest. -/
def Verified (sha : Bytes → Digest) (read : Option Bytes) :
    StoreReq → Shared → Prop
  | .createArtifact artifact, _ => artifact.state = .uploading
  | .updateArtifact id _ .ready _, s => ∃ row,
      s.artifacts.find id = some row ∧ read.map sha = some row.sha256
  | _, _ => True

/-! ## One caller -/

/-- What a caller sees: the shared state and the file it has hashed. -/
abbrev View : Type := Shared × Option Bytes

def Calls (sha : Bytes → Digest) : Sem artifactStore View := fun q a r b =>
  ∃ o, perform sha o q a.1 = (r, b.1) ∧ b.2 = readBy a.1 q r a.2

def Others (a b : View) : Prop :=
  b.2 = a.2 ∧ Advance a.1.artifacts b.1.artifacts

abbrev Caller.Safe (sha : Bytes → Digest) {α : Type}
    (p : Prog artifactStore α) (Q : α → View → Prop) (v : View) : Prop :=
  Lib.Safe (Calls sha) Others (fun q a _ => Verified sha a.2 q a.1) p Q v

theorem Others.trans {a b c : View} (h₁ : Others a b) (h₂ : Others b c) :
    Others a c :=
  ⟨h₂.1.trans h₁.1, h₁.2.trans h₂.2⟩

theorem others_call {q : StoreReq} {a b : View} {r : q.Resp}
    (h : Calls sha q a r b) : Advance a.1.artifacts b.1.artifacts := by
  obtain ⟨o, h, -⟩ := h
  have := (@perform_advance sha o q a.1).1
  rwa [h] at this

section Programs

variable {α : Type} {v : View} {artifactId : ArtifactId} {now : Instant}

def Any : α → View → Prop := fun _ _ => True

/-- A call that records nothing as ready, and after which anything may come. -/
theorem safe_call {q : StoreReq} {k : q.Resp → Prog artifactStore α}
    {Q : α → View → Prop} (hq : ∀ read s, Verified sha read q s)
    (h : ∀ r v, Caller.Safe sha (k r) Q v) :
    Caller.Safe sha (.call (S := artifactStore) q k) Q v := by
  intro v₁ _ r v₂ _
  exact ⟨hq v₁.2 v₁.1, h r v₂⟩

theorem create_safe {name : String} {sizeBytes : Nat} {sha256 : String} :
    Caller.Safe sha (create artifactId name sizeBytes sha256 now).run Any v := by
  unfold create
  split
  · trivial
  · split
    · trivial
    · split
      · trivial
      · split
        · trivial
        · refine Safe.bindE.mpr (Safe.orThrow.mpr ?_)
          refine safe_call (fun _ _ => rfl) fun r v => ?_
          cases r <;> trivial

theorem appendChunk_safe {offset : Nat} {dataBase64 : String} :
    Caller.Safe sha (appendChunk decode artifactId offset dataBase64 now).run
      Any v := by
  unfold appendChunk
  refine Safe.bindE.mpr (Safe.orThrow.mpr ?_)
  refine safe_call (fun _ _ => trivial) fun r v => ?_
  cases r with
  | error e => trivial
  | ok found =>
      cases found with
      | none => trivial
      | some artifact =>
          show Caller.Safe sha (if artifact.state.isTerminal then _ else _) Any v
          split
          · trivial
          · split
            · trivial
            · split
              · trivial
              · next decoded _ =>
                  split
                  · trivial
                  · split
                    · trivial
                    · split
                      · trivial
                      · split
                        · trivial
                        · refine Safe.bindE.mpr (Safe.orThrow.mpr ?_)
                          refine safe_call (fun _ _ => trivial) fun r v => ?_
                          cases r with
                          | error e => trivial
                          | ok u =>
                              dsimp only [Prog.bind, Except.mapError,
                                ExceptT.bindCont]
                              split
                              · trivial
                              · refine Safe.bindE.mpr (Safe.orThrow.mpr ?_)
                                refine safe_call (fun _ _ => trivial) fun r v => ?_
                                cases r <;> trivial

theorem fail_safe {artifact : Artifact} {reason : String} :
    Caller.Safe sha (fail artifact now reason).run Any v := by
  unfold fail
  split
  · trivial
  · refine Safe.bindE.mpr (Safe.orThrow.mpr ?_)
    refine safe_call (fun _ _ => trivial) fun r v => ?_
    cases r with
    | error e => trivial
    | ok u =>
        dsimp only [Prog.bind, Except.mapError, ExceptT.bindCont]
        split <;> trivial

theorem findArtifact_call {v w : View} {artifact : Artifact}
    (h : Calls sha (.findArtifact artifactId) v (.ok (some artifact)) w) :
    ∃ row, w.1.artifacts.find artifactId = some row ∧
      row.sha256 = artifact.sha256 := by
  obtain ⟨⟨fault, io, landed⟩, ho, -⟩ := h
  cases fault with
  | some f => cases ho
  | none =>
      obtain ⟨hfind, hs⟩ := Prod.mk.inj ho
      obtain ⟨row, hrow, heq⟩ := findArtifact_ok hfind
      exact ⟨row, hs ▸ hrow, by rw [heq]; rfl⟩

theorem hashFile_call {v w : View} {digest : Digest}
    (h : Calls sha (.hashFile artifactId) v (.ok digest) w) :
    w.2.map sha = some digest := by
  obtain ⟨⟨fault, io, landed⟩, ho, hr⟩ := h
  rw [hr]
  show (v.1.files artifactId).map sha = some digest
  cases io with
  | some e => cases ho
  | none =>
      simp only [perform] at ho
      split at ho
      · next file hfile =>
          cases (Prod.mk.inj ho).1
          rw [hfile]
          rfl
      · cases ho

/-- The contract that matters: `ready` is recorded by a call that has read a
file with the declared digest. -/
theorem finalize_safe :
    Caller.Safe sha (finalize artifactId now).run Any v := by
  unfold finalize
  refine Safe.bindE.mpr (Safe.orThrow.mpr ?_)
  intro v₁ _ r v₂ h₂
  refine ⟨trivial, ?_⟩
  cases r with
  | error e => trivial
  | ok found =>
      cases found with
      | none => trivial
      | some artifact =>
          obtain ⟨row, hrow, hsha⟩ := findArtifact_call h₂
          refine Safe.ret.mpr ?_
          dsimp only [Except.mapError]
          split
          · trivial
          · trivial
          · split
            · exact fail_safe
            · refine Safe.bindE.mpr (Safe.orThrow.mpr ?_)
              intro v₃ h₃ r v₄ h₄
              refine ⟨trivial, ?_⟩
              cases r with
              | error e => trivial
              | ok computed =>
                  show Caller.Safe sha (if computed ≠ artifact.sha256 then _ else
                    _) Any v₄
                  split
                  · exact fail_safe
                  · next hmatch =>
                      split
                      · trivial
                      · refine Safe.bindE.mpr (Safe.orThrow.mpr ?_)
                        intro v₅ h₅ r v₆ h₆
                        obtain ⟨row', hrow', hl⟩ := ((h₃.2.trans
                          (others_call h₄)).trans h₅.2) artifactId row hrow
                        refine ⟨⟨row', hrow', ?_⟩, ?_⟩
                        · rw [h₅.1, hashFile_call h₄, hl.digest, hsha,
                            Decidable.of_not_not hmatch]
                        · cases r with
                          | error e => trivial
                          | ok u =>
                              dsimp only [Prog.bind, Except.mapError,
                                ExceptT.bindCont]
                              split <;> trivial

theorem program_safe (c : Call) :
    Caller.Safe sha (c.program decode) Any v := by
  cases c with
  | create artifactId name sizeBytes sha256 now =>
      exact Safe.bind.mpr (create_safe.imp fun _ _ _ => trivial)
  | appendChunk artifactId offset dataBase64 now =>
      exact Safe.bind.mpr (appendChunk_safe.imp fun _ _ _ => trivial)
  | finalize artifactId now =>
      exact Safe.bind.mpr (finalize_safe.imp fun _ _ _ => trivial)

end Programs

/-! ## One call -/

section Effect

variable {o : Oracle} {s : Shared} {read : Option Bytes}
  {artifactId : ArtifactId}

/-- A call that keeps the files and makes nothing ready. -/
theorem whole_of_rows {t : Shared} (hW : Whole sha s)
    (hfiles : t.files = s.files)
    (hrows : ∀ id row, t.artifacts.find id = some row → row.state = .ready →
      s.artifacts.find id = some row) : Whole sha t := by
  intro id row hrow hready
  unfold digestOf
  rw [hfiles]
  exact hW id row (hrows id row hrow hready) hready

theorem whole_create {artifact : Artifact} (hW : Whole sha s)
    (hstate : artifact.state = .uploading) :
    Whole sha (perform sha o (.createArtifact artifact) s).2 := by
  obtain ⟨fault, io, landed⟩ := o
  cases fault with
  | some f => exact hW
  | none =>
      simp only [perform]
      split
      · next hok =>
          refine whole_of_rows hW rfl fun id row hrow hready => ?_
          dsimp only at hrow
          rw [declareArtifact_ok hok, Table.find_insertNew] at hrow
          split at hrow
          · cases hrow
            cases hstate.symm.trans hready
          · exact hrow
      · exact hW

/-- Moving a row without making it ready. -/
theorem whole_update {uploaded : Nat} {state : ArtifactState} {now : Instant}
    (hW : Whole sha s) (hstate : state ≠ .ready) :
    Whole sha (perform sha o (.updateArtifact artifactId uploaded state now)
      s).2 := by
  obtain ⟨fault, io, landed⟩ := o
  cases fault with
  | some f => exact hW
  | none =>
      simp only [perform]
      split
      · next hok =>
          refine whole_of_rows hW rfl fun id row hrow hready => ?_
          obtain ⟨old, hold, -⟩ := updateArtifact_ok hok
          dsimp only at hrow
          rw [updateArtifact_find hok hold] at hrow
          split at hrow
          · cases hrow
            exact absurd hready hstate
          · exact hrow
      · exact hW

/-- Recording `ready` vouches for the file as it is now. -/
theorem whole_ready {uploaded : Nat} {now : Instant} (hW : Whole sha s)
    (hv : Verified sha read (.updateArtifact artifactId uploaded .ready now) s) :
    Whole sha (perform sha o (.updateArtifact artifactId uploaded .ready now)
        s).2 ↔
      QuietCall sha read o (.updateArtifact artifactId uploaded .ready now)
        s := by
  obtain ⟨row, hrow, hread⟩ := hv
  obtain ⟨fault, io, landed⟩ := o
  unfold QuietCall
  cases fault with
  | some f => exact ⟨fun _ h => (by cases h), fun _ => hW⟩
  | none =>
      simp only [perform]
      split
      · next t hok =>
          have hfind := fun id => @updateArtifact_find _ _ _ _ _ _ id _ hok hrow
          constructor
          · intro hW' _
            rw [hread]
            exact hW' artifactId
              { row with uploadedBytes := uploaded, state := .ready
                         updatedAt := now }
              ((hfind artifactId).trans (if_pos rfl)) rfl
          · intro hquiet id new hnew hready
            dsimp only at hnew
            rw [hfind] at hnew
            split at hnew
            · next hid =>
                subst hid
                cases hnew
                exact (hquiet rfl).trans hread
            · exact hW id new hnew hready
      · exact ⟨fun _ h => (by cases h), fun _ => hW⟩

theorem files_writeChunk {offset : Nat} {data : Bytes} {id : ArtifactId}
    (h : id ≠ artifactId) :
    (perform sha o (.writeChunk artifactId offset data) s).2.files id =
      s.files id := by
  obtain ⟨fault, io, landed⟩ := o
  cases io with
  | none => exact if_neg h
  | some e =>
      show tornFile s.files artifactId offset data landed id = s.files id
      match landed with
      | none => rfl
      | some 0 => exact if_neg h
      | some (n + 1) => exact if_neg h

theorem artifacts_writeChunk {offset : Nat} {data : Bytes} :
    (perform sha o (.writeChunk artifactId offset data) s).2.artifacts =
      s.artifacts := by
  obtain ⟨fault, io, landed⟩ := o
  cases io <;> rfl

/-- A write is felt by the artifact whose file it is, if that is ready. -/
theorem whole_write {offset : Nat} {data : Bytes} (hW : Whole sha s) :
    Whole sha (perform sha o (.writeChunk artifactId offset data) s).2 ↔
      QuietCall sha read o (.writeChunk artifactId offset data) s := by
  unfold QuietCall Whole
  rw [artifacts_writeChunk]
  constructor
  · intro hW' hready
    obtain ⟨row, hrow, hstate⟩ := Option.map_eq_some_iff.mp hready
    rw [hW' artifactId row hrow hstate, hW artifactId row hrow hstate]
  · intro hquiet id row hrow hstate
    by_cases hid : id = artifactId
    · subst hid
      rw [hquiet (by rw [IsReady, hrow]; exact congrArg some hstate)]
      exact hW id row hrow hstate
    · unfold digestOf
      rw [files_writeChunk hid]
      exact hW id row hrow hstate

/-- One call out of a whole state keeps it whole exactly if it is quiet. -/
theorem whole_perform {q : StoreReq} (hW : Whole sha s)
    (hv : Verified sha read q s) :
    Whole sha (perform sha o q s).2 ↔ QuietCall sha read o q s := by
  cases q with
  | createArtifact artifact => exact iff_of_true (whole_create hW hv) trivial
  | findArtifact artifactId =>
      refine iff_of_true ?_ trivial
      simp only [perform]
      split <;> exact hW
  | updateArtifact artifactId uploaded state now =>
      cases state with
      | ready => exact whole_ready hW hv
      | uploading => exact iff_of_true (whole_update hW (by simp)) trivial
      | failed => exact iff_of_true (whole_update hW (by simp)) trivial
  | writeChunk artifactId offset data => exact whole_write hW
  | hashFile artifactId =>
      refine iff_of_true ?_ trivial
      simp only [perform]
      split
      · exact hW
      · split <;> exact hW

end Effect

/-! ## All callers -/

structure Inv (sha : Bytes → Digest) (s : State) : Prop where
  counted : Counted s.shared.artifacts
  callers : ∀ c ∈ s.callers, Caller.Safe sha c.rest Any (s.shared, c.read)

theorem Inv.step {s : State} (h : Inv sha s) {o : Oracle} {i : Nat}
    {read : Option Bytes} {q : StoreReq}
    {k : q.Resp → Prog artifactStore Unit}
    (hc : s.callers[i]? = some ⟨read, .call q k⟩) :
    Verified sha read q s.shared ∧ Inv sha
      ⟨(perform sha o q s.shared).2, s.callers.set i
        ⟨readBy s.shared q (perform sha o q s.shared).1 read,
          k (perform sha o q s.shared).1⟩⟩ := by
  have hadvance := @perform_advance sha o q s.shared
  obtain ⟨hv, hk⟩ := h.callers _ (List.mem_of_getElem? hc) (s.shared, read)
    ⟨rfl, .refl _⟩ _
    ((perform sha o q s.shared).2,
      readBy s.shared q (perform sha o q s.shared).1 read) ⟨o, rfl, rfl⟩
  refine ⟨hv, hadvance.2 h.counted, fun c hmem => ?_⟩
  rcases List.mem_or_eq_of_mem_set hmem with hmem | rfl
  · exact (h.callers c hmem).stable Others.trans (fun _ _ => trivial)
      ⟨rfl, hadvance.1⟩
  · exact hk

theorem Inv.next {s t : State} {l : Label} (h : Inv sha s)
    (hl : next decode sha s l = some t) :
    Inv sha t ∧ Advance s.shared.artifacts t.shared.artifacts ∧
      (Whole sha s.shared → (Whole sha t.shared ↔ Quiet sha s l)) := by
  cases l with
  | begin call =>
      cases hl
      refine ⟨⟨h.counted, fun c hc => ?_⟩, .refl _,
        fun hW => iff_of_true hW trivial⟩
      rcases List.mem_append.mp hc with hc | hc
      · exact h.callers c hc
      · rw [List.mem_singleton] at hc
        subst hc
        exact program_safe call
  | stop i =>
      cases hl
      exact ⟨⟨h.counted, fun c hc => h.callers c (List.mem_of_mem_eraseIdx hc)⟩,
        .refl _, fun hW => iff_of_true hW trivial⟩
  | step i o =>
      simp only [App.ArtifactStore.next] at hl
      split at hl
      · next read q k hc =>
          cases hl
          obtain ⟨hv, hinv⟩ := h.step (o := o) hc
          refine ⟨hinv, (perform_advance o q s.shared).1, fun hW => ?_⟩
          simp only [Quiet, hc]
          exact whole_perform hW hv
      · cases hl

theorem Inv.of_initial {s : State} (h : Initial s) : Inv sha s := by
  obtain ⟨hrows, hcallers⟩ := h
  refine ⟨fun id row hrow => ?_, fun c hc => ?_⟩
  · rw [hrows] at hrow
    cases hrow
  · rw [hcallers] at hc
    cases hc

theorem Inv.of_reach {s : State} (h : Reachable decode sha s) : Inv sha s := by
  refine h.inv (P := Inv sha) (fun _ => Inv.of_initial) ?_
  rintro s t hs ⟨l, hl⟩
  exact (hs.next hl).1

theorem advance_of_steps {s t : State} (h : Reachable decode sha s)
    (hst : Relation.ReflTransGen (Next (next decode sha)) s t) :
    Advance s.shared.artifacts t.shared.artifacts := by
  induction hst with
  | refl => exact .refl _
  | tail hsu hut ih =>
      obtain ⟨l, hl⟩ := hut
      exact ih.trans ((Inv.of_reach (h.steps hsu)).next hl).2.1

/-! ## Runs -/

def QuietStep (decode : String → Option Bytes) (sha : Bytes → Digest)
    (s t : State) : Prop :=
  ∃ l, Quiet sha s l ∧ next decode sha s l = some t

theorem whole_of_quiet {s : State}
    (h : Reach Initial (QuietStep decode sha) s) :
    Inv sha s ∧ Whole sha s.shared := by
  refine h.inv (P := fun s => Inv sha s ∧ Whole sha s.shared) ?_ ?_
  · intro s hs
    refine ⟨.of_initial hs, fun id row hrow => ?_⟩
    rw [hs.1] at hrow
    cases hrow
  · rintro s t ⟨hinv, hW⟩ ⟨l, hquiet, hl⟩
    obtain ⟨hinv', -, hiff⟩ := hinv.next hl
    exact ⟨hinv', (hiff hW).mpr hquiet⟩

/-- Whatever the interleaving, a row's count never goes back or past the
declared size and a final row never changes. In every run of quiet steps the
file of a ready artifact has the declared digest, and the first step that is
not quiet is the first after which some ready artifact's file has not. -/
theorem ready_files_whole_iff_quiet (decode : String → Option Bytes)
    (sha : Bytes → Digest) :
    (∀ s t, Reachable decode sha s →
      Relation.ReflTransGen (Next (next decode sha)) s t →
      ∀ id row, s.shared.artifacts.find id = some row →
        ∃ row', t.shared.artifacts.find id = some row' ∧ Later row row' ∧
          row'.uploadedBytes ≤ row'.sizeBytes) ∧
    (∀ s, Reach Initial (QuietStep decode sha) s → Whole sha s.shared) ∧
    ∀ s l t, Reachable decode sha s → Whole sha s.shared →
      next decode sha s l = some t →
      (Whole sha t.shared ↔ Quiet sha s l) := by
  refine ⟨fun s t hs hst id row hrow => ?_, fun s hs => (whole_of_quiet hs).2,
    fun s l t hs hW hl => ((Inv.of_reach hs).next hl).2.2 hW⟩
  obtain ⟨row', hrow', hlater⟩ := advance_of_steps hs hst id row hrow
  exact ⟨row', hrow', hlater,
    (Inv.of_reach (hs.steps hst)).counted id row' hrow'⟩

/-! ### A write that comes too late -/

/-- The decoder and the hash function on the two chunks of the run. -/
def decodeByte (text : String) : Option Bytes :=
  if text = "AQ==" then some [1] else if text = "Ag==" then some [2] else none

def hashByte (file : Bytes) : Digest :=
  if file = [2] then
    [219, 193, 180, 201, 0, 255, 228, 141, 87, 91, 93, 165, 198, 56, 4, 1, 37,
      246, 93, 176, 254, 62, 36, 73, 75, 118, 234, 152, 100, 87, 217, 134]
  else
    [75, 245, 18, 47, 52, 69, 84, 197, 59, 222, 46, 187, 140, 210, 183, 227,
      209, 96, 10, 214, 49, 195, 133, 165, 215, 204, 226, 60, 119, 133, 69, 154]

def working : Oracle := ⟨none, none, none⟩

/-- One byte is uploaded and the artifact becomes ready; a second caller has
read the row before any of it. -/
def uploaded : List Label :=
  [.begin (.create ⟨1⟩ "bios" 1
      "dbc1b4c900ffe48d575b5da5c638040125f65db0fe3e24494b76ea986457d986" 0),
    .step 0 working,
    .begin (.appendChunk ⟨1⟩ 0 "AQ==" 1), .step 1 working,
    .begin (.appendChunk ⟨1⟩ 0 "Ag==" 2), .step 2 working, .step 2 working,
    .step 2 working,
    .begin (.finalize ⟨1⟩ 3), .step 3 working, .step 3 working,
    .step 3 working]

def start : State := ⟨⟨.empty, fun _ => none⟩, []⟩

/-- The artifact is ready, and its file has the declared digest or not. -/
def readyWith (whole : Bool) (s : State) : Bool :=
  (s.shared.artifacts.find ⟨1⟩).any fun row =>
    row.state = .ready ∧
      (digestOf hashByte s.shared ⟨1⟩ = some row.sha256 ↔ whole)

/-- The late write damages the file and leaves the row alone. -/
theorem ready_row_kept_past_late_write : ∃ s t row,
    Reachable decodeByte hashByte s ∧ readyWith true s = true ∧
      readyWith false t = true ∧ s.shared.artifacts.find ⟨1⟩ = some row ∧
      t.shared.artifacts.find ⟨1⟩ = some row := by
  obtain ⟨s, t, hs, hst, hp⟩ := exists_steps_of_follow Initial
    (next decodeByte hashByte) (s := start) uploaded [.step 1 working]
    (fun s t => readyWith true s && readyWith false t) ⟨rfl, rfl⟩ (by decide)
  obtain ⟨hwhole, hbroken⟩ := Bool.and_eq_true_iff.mp hp
  obtain ⟨row, hrow, hready⟩ := (Option.any_eq_true _ _).mp hwhole
  obtain ⟨row', hrow', hlater, -⟩ :=
    (ready_files_whole_iff_quiet decodeByte hashByte).1 s t hs hst ⟨1⟩ row hrow
  obtain rfl := hlater.final (by rw [(of_decide_eq_true hready).1]; rfl)
  exact ⟨s, t, row', hs, hwhole, hbroken, hrow, hrow'⟩

theorem ready_file_overwritten :
    ¬ ∀ s, Reachable decodeByte hashByte s → Whole hashByte s.shared := by
  intro h
  obtain ⟨s, hs, hp⟩ := exists_reach_of_follow Initial
    (next decodeByte hashByte) (s := start) (uploaded ++ [.step 1 working])
    (readyWith false) ⟨rfl, rfl⟩ (by decide)
  obtain ⟨row, hrow, hp⟩ := (Option.any_eq_true _ _).mp hp
  obtain ⟨hready, hdigest⟩ := of_decide_eq_true hp
  exact Bool.false_ne_true (hdigest.mp (h s hs ⟨1⟩ row hrow hready))

end Rutilus.Proofs.ArtifactRace
