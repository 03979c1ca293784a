import Rutilus.Lib.Listing
import Rutilus.Lib.Outcome
import Rutilus.Proofs.OutboxRows
import Rutilus.Store.Artifacts
import Rutilus.Store.Bindings

/-!
# Rows with times out of order

Reading a row back checks that no later time of it precedes its creation. The
three updates that write such a time take it from the caller's clock and check
nothing: an upload's progress, the acknowledgement of a queued envelope and the
consumption of a binding code. So a clock set back behind a row's creation
leaves a row that no call reads any more, and every listing that meets it fails.

That is the only way. An update that is refused leaves the row as it was, and
one that lands at a time not before the creation leaves a row that is read back.
An acknowledged envelope is also harmless when a newer one of its operation was
acknowledged before it, because the acknowledgement then deletes it.
-/

namespace Rutilus.Proofs

open Rutilus.Domain Rutilus.Lib Rutilus.Store
open OutboxRows (queuedBefore_head)

section Readable

variable {κ ρ α β ε : Type} [DecidableEq κ] {key : ρ → κ}

/-- How a call leaves one row: it fails and the row is as it was, or the row
there is now is read back. -/
def LeavesReadable (read : ρ → Except ε β) (t : Table κ ρ key) (k : κ)
    (out : Except ε α × Table κ ρ key) : Prop :=
  match out.1 with
  | .error _ => out.2.find k = t.find k
  | .ok _ => ∀ row, out.2.find k = some row → ∃ x, read row = .ok x

/-- Every row is read back. -/
def AllReadable (read : ρ → Except ε β) (t : Table κ ρ key) : Prop :=
  ∀ row ∈ t.rows, ∃ x, read row = .ok x

variable {read : ρ → Except ε β} {t t' : Table κ ρ key} {k : κ}

theorem leavesReadable_error {e : ε} {r : Except ε (α × Table κ ρ key)}
    (h : r = .error e) : LeavesReadable read t k (answered t r) := by
  rw [h]
  rfl

theorem leavesReadable_ok {a : α} {r : Except ε (α × Table κ ρ key)}
    (h : r = .ok (a, t')) :
    LeavesReadable read t k (answered t r) ↔
      ∀ row, t'.find k = some row → ∃ x, read row = .ok x := by
  rw [h]
  rfl

/-- If the other rows are rows of before, one row decides about the table. -/
theorem AllReadable.answered {r : Except ε (α × Table κ ρ key)}
    (hall : AllReadable read t)
    (hothers : ∀ a t', r = .ok (a, t') →
      ∀ row ∈ t'.rows, key row ≠ k → row ∈ t.rows)
    (hrow : LeavesReadable read t k (Store.answered t r)) :
    AllReadable read (Store.answered t r).2 := by
  cases hr : r with
  | error e => exact hall
  | ok out =>
      obtain ⟨a, t'⟩ := out
      rw [leavesReadable_ok hr] at hrow
      intro row hmem
      by_cases hk : key row = k
      · exact hrow row (Table.find_eq_some_iff.mpr ⟨hmem, hk⟩)
      · exact hall row (hothers a t' hr row hmem hk)

end Readable

/-! ## Uploads -/

section Artifacts

variable {t : ArtifactTable} {artifactId : ArtifactId} {row : ArtifactRow}
  {uploaded : Nat} {state : ArtifactState} {now : Instant}

theorem mapStoredArtifact_ok_iff :
    (∃ artifact, mapStoredArtifact row = .ok artifact) ↔
      row.createdAt ≤ row.updatedAt ∧ row.uploadedBytes ≤ row.sizeBytes ∧
        (row.state = .ready → row.uploadedBytes = row.sizeBytes) := by
  constructor
  · rintro ⟨artifact, h⟩
    rw [mapStoredArtifact_ok h]
    exact ⟨artifact.timeline, artifact.progress, artifact.complete⟩
  · rintro ⟨htimeline, hprogress, hcomplete⟩
    unfold mapStoredArtifact Artifact.tryFromParts
    rw [dif_neg (Int.not_lt.mpr htimeline),
      dif_neg (Nat.not_lt.mpr hprogress),
      dif_neg fun h => h.2 (hcomplete h.1)]
    exact ⟨_, rfl⟩

/-- What an update asks of the row. -/
def Admits (row : ArtifactRow) (uploaded : Nat) (state : ArtifactState) :
    Prop :=
  row.state.isTerminal = false ∧ row.uploadedBytes ≤ uploaded ∧
    uploaded ≤ row.sizeBytes ∧ (state = .ready → uploaded = row.sizeBytes) ∧
    uploaded ≤ maxInteger

theorem updateArtifact_of_admits (hrow : t.find artifactId = some row)
    (h : Admits row uploaded state) :
    updateArtifact t artifactId uploaded state now =
      .ok ((), t.replace { row with
        uploadedBytes := uploaded, state, updatedAt := now }) := by
  obtain ⟨hopen, hback, hsize, hready, hinteger⟩ := h
  unfold updateArtifact
  rw [hrow]
  show (if row.state.isTerminal = true then _ else _) = _
  rw [if_neg (by rw [hopen]; exact Bool.false_ne_true),
    if_neg (Nat.not_lt.mpr hback), if_neg (Nat.not_lt.mpr hsize),
    if_neg fun h => h.2 (hready h.1), if_neg (Nat.not_lt.mpr hinteger)]

theorem admits_of_updateArtifact {out : Unit × ArtifactTable}
    (hrow : t.find artifactId = some row)
    (h : updateArtifact t artifactId uploaded state now = .ok out) :
    Admits row uploaded state := by
  unfold updateArtifact at h
  rw [hrow] at h
  dsimp only at h
  split at h
  · cases h
  · next hopen =>
      split at h
      · cases h
      · next hback =>
          split at h
          · cases h
          · next hsize =>
              split at h
              · cases h
              · next hready =>
                  split at h
                  · cases h
                  · next hinteger =>
                      exact ⟨Bool.eq_false_of_not_eq_true hopen,
                        Nat.not_lt.mp hback, Nat.not_lt.mp hsize,
                        fun hs => Decidable.of_not_not fun hne =>
                          hready ⟨hs, hne⟩,
                        Nat.not_lt.mp hinteger⟩

/-- An update leaves a readable row unless it lands before the creation. -/
theorem update_leaves_iff (hrow : t.find artifactId = some row) :
    LeavesReadable mapStoredArtifact t artifactId
        (answered t (updateArtifact t artifactId uploaded state now)) ↔
      (Admits row uploaded state → row.createdAt ≤ now) := by
  cases hupdate : updateArtifact t artifactId uploaded state now with
  | error e =>
      refine ⟨fun _ hadmits => ?_, fun _ => leavesReadable_error rfl⟩
      rw [updateArtifact_of_admits hrow hadmits] at hupdate
      cases hupdate
  | ok out =>
      have hadmits := admits_of_updateArtifact hrow hupdate
      rw [updateArtifact_of_admits hrow hadmits] at hupdate
      have hkey : row.id = artifactId := Table.key_of_find hrow
      subst hkey
      rw [leavesReadable_ok hupdate.symm, Table.find_replace,
        if_pos ⟨rfl, by rw [hrow]; rfl⟩]
      constructor
      · intro h _
        exact (mapStoredArtifact_ok_iff.mp (h _ rfl)).1
      · rintro h r ⟨⟩
        exact mapStoredArtifact_ok_iff.mpr
          ⟨h hadmits, hadmits.2.2.1, hadmits.2.2.2.1⟩

theorem update_others {out : Unit} {t' : ArtifactTable}
    (h : updateArtifact t artifactId uploaded state now = .ok (out, t')) :
    ∀ r ∈ t'.rows, r.id ≠ artifactId → r ∈ t.rows := by
  intro r hr hid
  obtain ⟨row, hrow, -, -, -, -, rfl⟩ := updateArtifact_ok h
  have hkey : row.id = artifactId := Table.key_of_find hrow
  subst hkey
  have hfind : t.find (ArtifactRow.id { row with
      uploadedBytes := uploaded, state, updatedAt := now }) = some row := hrow
  rcases (Table.mem_replace hfind).mp hr with rfl | ⟨hr, -⟩
  · exact absurd rfl hid
  · exact hr

theorem listArtifacts_readable (h : AllReadable mapStoredArtifact t) :
    ∃ found, listArtifactsByState t state = .ok found := by
  refine exists_mapM_ok fun row hrow => h row ?_
  rw [List.mem_insertionSort] at hrow
  exact (List.mem_filter.mp hrow).1

end Artifacts

/-! ## Acknowledgements -/

section Outbox

variable {t : OutboxTable} {entryId : OutboxEntryId} {row : OutboxRow}
  {now : Instant}

theorem mapStoredOutboxEntry_ok_iff :
    (∃ entry, mapStoredOutboxEntry row = .ok entry) ↔
      row.entry.isValid = true := by
  unfold mapStoredOutboxEntry
  constructor
  · rintro ⟨entry, h⟩
    split at h
    · next hvalid => exact hvalid
    · cases h
  · intro h
    exact ⟨_, if_pos h⟩

/-- An acknowledged row of the same operation and instance comes after the
row. -/
def Superseded (t : OutboxTable) (row : OutboxRow) : Prop :=
  ∃ operationId, row.operationId = some operationId ∧
    ∃ other ∈ t.rows, other.id ≠ row.id ∧
      isAckedOf row.entry.instanceId operationId other = true ∧
      queuedBefore row other

theorem id_of_queuedBefore_both {a b : OutboxRow} (h₁ : queuedBefore a b)
    (h₂ : queuedBefore b a) : a.id = b.id := by
  have huuid : a.id.uuid = b.id.uuid := by
    unfold queuedBefore at h₁ h₂
    omega
  cases ha : a.id with
  | mk x =>
      cases hb : b.id with
      | mk y => exact congrArg _ (by rwa [ha, hb] at huuid)

/-- The acknowledged row is still there after the prune unless it was
superseded. -/
theorem find_pruneOf_acked (hrow : t.find row.id = some row) (r : OutboxRow) :
    (pruneOf (t.replace (row.acked now)) row).find row.id = some r ↔
      r = row.acked now ∧ ¬ Superseded t row := by
  have hfind : (t.replace (row.acked now)).find row.id =
      some (row.acked now) := by
    rw [Table.find_replace, if_pos ⟨rfl, by rw [hrow]; rfl⟩]
  have hmem := fun x => Table.mem_replace (x := x)
    (show t.find (row.acked now).id = some row from hrow)
  unfold pruneOf
  split
  · next hnone =>
      rw [hfind]
      constructor
      · rintro ⟨⟩
        refine ⟨rfl, ?_⟩
        rintro ⟨operationId, hop, -⟩
        rw [hnone] at hop
        cases hop
      · rintro ⟨rfl, -⟩
        rfl
  · next operationId hop =>
      have hself : row.acked now ∈ (t.replace (row.acked now)).rows.filter
          (isAckedOf row.entry.instanceId operationId) :=
        List.mem_filter.mpr ⟨(hmem _).mpr (.inl rfl), by
          simp [isAckedOf, OutboxRow.acked, hop]⟩
      unfold pruneAckedOperationHistory
      split
      · next hhead =>
          rw [List.head?_eq_none_iff] at hhead
          rw [← List.mem_insertionSort fun a b => queuedBefore b a, hhead]
            at hself
          cases hself
      · next keeper hhead =>
          have hsorted := (List.mem_insertionSort _).mp
            (List.mem_of_head? hhead)
          obtain ⟨hkeeper, hof⟩ := List.mem_filter.mp hsorted
          have hkept : Superseded t row ↔ keeper.id ≠ row.id := by
            constructor
            · rintro ⟨op, hop', other, hother, hne, hacked, hafter⟩ hid
              obtain rfl : op = operationId :=
                Option.some.inj (hop'.symm.trans hop)
              have hin := List.mem_filter.mpr
                ⟨(hmem other).mpr (.inr ⟨hother, hne⟩), hacked⟩
              rcases queuedBefore_head hhead hin with rfl | hbefore
              · exact hne hid
              · have hkeep : keeper = row.acked now :=
                  List.inj_on_of_nodup_map (Table.nodup _) hkeeper
                    (List.mem_of_mem_filter hself) hid
                rw [hkeep] at hbefore
                exact hne (id_of_queuedBefore_both hbefore hafter)
            · intro hne
              have hstored : keeper ∈ t.rows := by
                rcases (hmem keeper).mp hkeeper with rfl | ⟨h, -⟩
                · exact absurd rfl hne
                · exact h
              refine ⟨operationId, hop, keeper, hstored, hne, hof, ?_⟩
              rcases queuedBefore_head hhead hself with heq | hbefore
              · exact absurd (heq ▸ rfl) hne
              · exact hbefore
          rw [Table.find_filter, hfind, hkept]
          have hof' := (List.mem_filter.mp hself).2
          by_cases hid : keeper.id = row.id
          · rw [Option.filter_some_pos (by simp [hid, OutboxRow.acked])]
            constructor
            · rintro ⟨⟩
              exact ⟨rfl, fun h => h hid⟩
            · rintro ⟨rfl, -⟩
              rfl
          · have hne : (row.acked now).id ≠ keeper.id := fun h => hid h.symm
            rw [Option.filter_some_neg (by simp [hof', hne])]
            constructor
            · intro h
              cases h
            · rintro ⟨-, h⟩
              exact absurd hid h

/-- An acknowledgement leaves a readable row unless it lands before the
creation and the row stays. -/
theorem ack_leaves_iff (hrow : t.find entryId = some row)
    (hread : ∃ entry, mapStoredOutboxEntry row = .ok entry) :
    LeavesReadable mapStoredOutboxEntry t entryId
        (answered t (ackOutboxEntry t entryId now)) ↔
      (row.entry.state = .pending →
        row.entry.createdAt ≤ now ∨ Superseded t row) := by
  have hkey : row.id = entryId := Table.key_of_find hrow
  subst hkey
  cases hstate : row.entry.state with
  | pending =>
      have hack : ackOutboxEntry t row.id now = .ok (.acknowledged,
          pruneOf (t.replace (row.acked now)) row) := by
        unfold ackOutboxEntry
        rw [hrow]
        dsimp only
        rw [hstate]
      have hvalid : (∃ entry, mapStoredOutboxEntry (row.acked now) =
          .ok entry) ↔ row.entry.createdAt ≤ now := by
        rw [mapStoredOutboxEntry_ok_iff]
        exact decide_eq_true_iff
      rw [leavesReadable_ok hack]
      constructor
      · intro h _
        by_cases hs : Superseded t row
        · exact .inr hs
        · have hfind :=
            (find_pruneOf_acked hrow (row.acked now)).mpr ⟨rfl, hs⟩
          exact .inl (hvalid.mp (h _ hfind))
      · intro h r hr
        obtain ⟨rfl, hs⟩ := (find_pruneOf_acked hrow r).mp hr
        exact hvalid.mpr ((h rfl).resolve_right hs)
  | acked =>
      obtain ⟨entry, hentry⟩ := hread
      have hack : ackOutboxEntry t row.id now =
          .ok (.alreadyAcknowledged, pruneOf t row) := by
        unfold ackOutboxEntry
        rw [hrow]
        dsimp only
        rw [hstate]
        dsimp only
        rw [hentry]
        rfl
      rw [leavesReadable_ok hack]
      constructor
      · intro _ h
        cases h
      intro _ r hr
      obtain ⟨hr, hid⟩ := Table.find_eq_some_iff.mp hr
      have : r = row := List.inj_on_of_nodup_map t.nodup
        ((sublist_pruneOf row).subset hr)
        (Table.find_eq_some_iff.mp hrow).1 hid
      exact ⟨entry, this ▸ hentry⟩

theorem ack_others {outcome : AckOutcome} {t' : OutboxTable}
    (h : ackOutboxEntry t entryId now = .ok (outcome, t')) :
    ∀ r ∈ t'.rows, r.id ≠ entryId → r ∈ t.rows := by
  intro r hr hid
  unfold ackOutboxEntry at h
  split at h
  · cases h
  · next row hrow =>
      have hkey : row.id = entryId := Table.key_of_find hrow
      split at h
      · cases h
        have hfind : t.find (row.acked now).id = some row := hkey ▸ hrow
        rcases (Table.mem_replace hfind).mp ((sublist_pruneOf row).subset hr)
          with rfl | ⟨hr, -⟩
        · exact absurd hkey hid
        · exact hr
      · unfold mapStoredOutboxEntry at h
        split at h
        · cases h
          exact (sublist_pruneOf row).subset hr
        · cases h

theorem listOutbox_readable (h : AllReadable mapStoredOutboxEntry t)
    (instanceId : InstanceId) :
    ∃ entries, listOutboxEntries t instanceId = .ok entries := by
  refine exists_mapM_ok fun row hrow => h row ?_
  rw [List.mem_insertionSort] at hrow
  exact (List.mem_filter.mp hrow).1

theorem listPending_readable (h : AllReadable mapStoredOutboxEntry t)
    (instanceId : InstanceId) (limit : Nat) :
    ∃ entries, listPendingOutbox t instanceId limit = .ok entries := by
  refine exists_mapM_ok fun row hrow => h row ?_
  have hrow := List.mem_of_mem_take hrow
  rw [List.mem_insertionSort] at hrow
  exact (List.mem_filter.mp hrow).1

end Outbox

/-! ## Bindings -/

section Bindings

variable {sha : Bytes → Digest} {t : BindingTable} {row : CenterBinding}
  {bindingId : CenterBindingId} {code : BindingCode}
  {fingerprint : Option CertificateFingerprint} {now : Instant}

/-- What a bind asks: the code of a pending row in time, and a fingerprint that
is free. -/
def AcceptsCode (sha : Bytes → Digest) (t : BindingTable) (row : CenterBinding)
    (code : BindingCode) (fingerprint : Option CertificateFingerprint)
    (now : Instant) : Prop :=
  row.verifyCode sha code now = .ok () ∧
    ∀ F, fingerprint = some F → t.rows.any (competes row.id F) = false

theorem bindWithCode_of_accepts (hrow : t.find row.id = some row)
    (hread : mapStoredBinding row = .ok row)
    (h : AcceptsCode sha t row code fingerprint now) :
    bindWithCode sha t row.id code fingerprint now =
      .ok (t.replace (boundRow row fingerprint now)) := by
  obtain ⟨hverify, hfree⟩ := h
  have hnone : (fingerprint.filter fun F =>
      t.rows.any (competes row.id F)) = none := by
    cases hF : fingerprint with
    | none => rfl
    | some F => exact Option.filter_some_neg (by simpa using hfree F hF)
  unfold bindWithCode
  rw [hrow]
  dsimp only
  rw [hread]
  dsimp only
  rw [hverify]
  dsimp only
  rw [hnone]
  exact if_pos (CenterBinding.verifyCode_ok hverify).1

theorem accepts_of_bindWithCode {t' : BindingTable}
    (hrow : t.find row.id = some row)
    (h : bindWithCode sha t row.id code fingerprint now = .ok t') :
    AcceptsCode sha t row code fingerprint now := by
  unfold bindWithCode at h
  rw [hrow] at h
  dsimp only at h
  split at h
  · cases h
  · next binding hmap =>
      obtain rfl := mapStoredBinding_ok hmap
      split at h
      · cases h
      · next hverify =>
          refine ⟨hverify, ?_⟩
          split at h
          · cases h
          · next hnone =>
              rintro F rfl
              by_contra hcompetes
              rw [Option.filter_some_pos (by simpa using hcompetes)] at hnone
              cases hnone

theorem mapStoredBinding_bound_iff :
    (∃ binding, mapStoredBinding (boundRow row fingerprint now) =
      .ok binding) ↔ row.createdAt ≤ now := by
  have hparts : (boundRow row fingerprint now).tryFromParts = .ok _ ↔ _ :=
    CenterBinding.tryFromParts_bound rfl rfl
  unfold mapStoredBinding
  constructor
  · rintro ⟨binding, h⟩
    cases hread : (boundRow row fingerprint now).tryFromParts with
    | error e =>
        rw [hread] at h
        cases h
    | ok b =>
        obtain rfl := CenterBinding.tryFromParts_ok hread
        exact hparts.mp hread now rfl
  · intro h
    rw [hparts.mpr fun boundAt hat => by cases hat; exact h]
    exact ⟨_, rfl⟩

/-- A bind leaves a readable row unless it lands before the registration. -/
theorem bind_leaves_iff (hrow : t.find bindingId = some row)
    (hread : ∃ binding, mapStoredBinding row = .ok binding) :
    LeavesReadable mapStoredBinding t bindingId
        (answered t ((bindWithCode sha t bindingId code fingerprint now).map
          fun t' => ((), t'))) ↔
      (AcceptsCode sha t row code fingerprint now → row.createdAt ≤ now) := by
  have hkey : row.id = bindingId := Table.key_of_find hrow
  subst hkey
  have hself : mapStoredBinding row = .ok row := by
    obtain ⟨binding, h⟩ := hread
    rw [h, mapStoredBinding_ok h]
  cases hbind : bindWithCode sha t row.id code fingerprint now with
  | error e =>
      refine ⟨fun _ haccepts => ?_, fun _ => leavesReadable_error rfl⟩
      rw [bindWithCode_of_accepts hrow hself haccepts] at hbind
      cases hbind
  | ok t' =>
      have haccepts := accepts_of_bindWithCode hrow hbind
      rw [bindWithCode_of_accepts hrow hself haccepts] at hbind
      have hfind : t'.find row.id = some (boundRow row fingerprint now) := by
        rw [← Except.ok.inj hbind, Table.find_replace,
          if_pos ⟨rfl, by rw [hrow]; rfl⟩]
      refine (leavesReadable_ok (a := ()) rfl).trans ?_
      rw [hfind]
      constructor
      · intro h _
        exact mapStoredBinding_bound_iff.mp (h _ rfl)
      · rintro h r ⟨⟩
        exact mapStoredBinding_bound_iff.mpr (h haccepts)

theorem bind_others {out : Unit} {t' : BindingTable}
    (h : (bindWithCode sha t bindingId code fingerprint now).map
      (fun t' => ((), t')) = .ok (out, t')) :
    ∀ r ∈ t'.rows, r.id ≠ bindingId → r ∈ t.rows := by
  intro r hr hid
  obtain ⟨t'', hbind, heq⟩ := map_ok h
  cases heq
  obtain ⟨row, hrow, -, -, -, -, rfl⟩ := bindWithCode_ok hbind
  have hkey : row.id = bindingId := Table.key_of_find hrow
  have hfind : t.find (boundRow row fingerprint now).id = some row :=
    hkey ▸ hrow
  rcases (Table.mem_replace hfind).mp hr with rfl | ⟨hr, -⟩
  · exact absurd hkey hid
  · exact hr

end Bindings

/-! ## The three tables -/

/-- For every readable row and every clock reading, each of the three updates
leaves the row readable if and only if it does not land before the row's
creation (or, for an acknowledgement, the row is deleted by it). A table whose
rows are all read back stays so under the same condition, and then every listing
of it answers. -/
theorem writes_leave_readable_iff (sha : Bytes → Digest) :
    (∀ (t : ArtifactTable) (artifactId : ArtifactId) (row : ArtifactRow)
        (uploaded : Nat) (state : ArtifactState) (now : Instant),
      t.find artifactId = some row →
      (∃ artifact, mapStoredArtifact row = .ok artifact) →
      let out := answered t (updateArtifact t artifactId uploaded state now)
      (LeavesReadable mapStoredArtifact t artifactId out ↔
        (Admits row uploaded state → row.createdAt ≤ now)) ∧
      (AllReadable mapStoredArtifact t →
        (Admits row uploaded state → row.createdAt ≤ now) →
        AllReadable mapStoredArtifact out.2 ∧
          ∀ s, ∃ found, listArtifactsByState out.2 s = .ok found)) ∧
    (∀ (t : OutboxTable) (entryId : OutboxEntryId) (row : OutboxRow)
        (now : Instant),
      t.find entryId = some row →
      (∃ entry, mapStoredOutboxEntry row = .ok entry) →
      let out := answered t (ackOutboxEntry t entryId now)
      (LeavesReadable mapStoredOutboxEntry t entryId out ↔
        (row.entry.state = .pending →
          row.entry.createdAt ≤ now ∨ Superseded t row)) ∧
      (AllReadable mapStoredOutboxEntry t →
        (row.entry.state = .pending →
          row.entry.createdAt ≤ now ∨ Superseded t row) →
        AllReadable mapStoredOutboxEntry out.2 ∧
          (∀ instanceId, ∃ entries,
            listOutboxEntries out.2 instanceId = .ok entries) ∧
          ∀ instanceId limit, ∃ entries,
            listPendingOutbox out.2 instanceId limit = .ok entries)) ∧
    (∀ (t : BindingTable) (bindingId : CenterBindingId) (row : CenterBinding)
        (code : BindingCode) (fingerprint : Option CertificateFingerprint)
        (now : Instant),
      t.find bindingId = some row →
      (∃ binding, mapStoredBinding row = .ok binding) →
      let out := answered t
        ((bindWithCode sha t bindingId code fingerprint now).map
          fun t' => ((), t'))
      (LeavesReadable mapStoredBinding t bindingId out ↔
        (AcceptsCode sha t row code fingerprint now → row.createdAt ≤ now)) ∧
      (AllReadable mapStoredBinding t →
        (AcceptsCode sha t row code fingerprint now → row.createdAt ≤ now) →
        AllReadable mapStoredBinding out.2)) := by
  refine ⟨fun t artifactId row uploaded state now hrow _ => ?_,
    fun t entryId row now hrow hread => ?_,
    fun t bindingId row code fingerprint now hrow hread => ?_⟩
  · refine ⟨update_leaves_iff hrow, fun hall hcond => ?_⟩
    have hafter := hall.answered (fun _ _ h => update_others h)
      ((update_leaves_iff hrow).mpr hcond)
    exact ⟨hafter, fun _ => listArtifacts_readable hafter⟩
  · refine ⟨ack_leaves_iff hrow hread, fun hall hcond => ?_⟩
    have hafter := hall.answered (fun _ _ h => ack_others h)
      ((ack_leaves_iff hrow hread).mpr hcond)
    exact ⟨hafter, listOutbox_readable hafter, listPending_readable hafter⟩
  · refine ⟨bind_leaves_iff hrow hread, fun hall hcond => ?_⟩
    exact hall.answered (fun _ _ h => bind_others h)
      ((bind_leaves_iff hrow hread).mpr hcond)

/-! ## A clock set back -/

namespace ClockSetBack

/-- Declared at 10, nothing received yet. -/
def declared : ArtifactRow :=
  { id := ⟨1⟩, name := "firmware", sizeBytes := 4, sha256 := []
    state := .uploading, uploadedBytes := 0, createdAt := 10, updatedAt := 10
    siteId := none }

def declarations : ArtifactTable := Table.empty.insertNew declared

/-- Queued at 10. -/
def queued : OutboxRow :=
  ⟨{ id := ⟨1⟩, instanceId := ⟨1⟩, sequence := 1, payload := none
     state := .pending, createdAt := 10, ackedAt := none }, none⟩

def queue : OutboxTable := Table.empty.insertNew queued

/-- Registered at 10, with a code that is its own hash. -/
def registered : CenterBinding :=
  { id := ⟨1⟩, centerUrl := "https://center", siteInstanceId := ⟨1⟩
    state := .pending, bindingCodeHash := some [7], siteCertFingerprint := none
    boundAt := none, expiresAt := some 20, createdAt := 10 }

def registrations : BindingTable := Table.empty.insertNew registered

/-- Each row is read back as it is, and a write at 9 lands and leaves a row
that is not read any more. -/
theorem rows_become_unreadable :
    (∃ found, listArtifactsByState declarations .uploading = .ok found) ∧
    (∃ t', updateArtifact declarations ⟨1⟩ 2 .uploading 9 = .ok ((), t') ∧
      listArtifactsByState t' .uploading =
        .error (.corrupt ⟨1⟩ .invalidTimeline)) ∧
    (∃ entries, listOutboxEntries queue ⟨1⟩ = .ok entries) ∧
    (∃ t', ackOutboxEntry queue ⟨1⟩ 9 = .ok (.acknowledged, t') ∧
      listOutboxEntries t' ⟨1⟩ = .error (.corrupt ⟨1⟩)) ∧
    mapStoredBinding registered = .ok registered ∧
    ∃ t', bindWithCode id registrations ⟨1⟩ ⟨[7]⟩ none 9 = .ok t' ∧
      (t'.find ⟨1⟩).map mapStoredBinding =
        some (.error (.corrupt ⟨1⟩ .boundBeforeCreation)) := by
  refine ⟨⟨_, rfl⟩, ⟨_, rfl, ?_⟩, ⟨_, rfl⟩, ⟨_, rfl, ?_⟩, rfl, _, rfl, ?_⟩
  · decide
  · decide
  · decide

end ClockSetBack

end Rutilus.Proofs
