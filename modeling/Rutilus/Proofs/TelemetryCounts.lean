import Mathlib.Data.List.Forall2
import Rutilus.Lib.Listing
import Rutilus.Lib.Runs
import Rutilus.Store.Telemetry

/-!
# The count of a series is the number of its samples

An append adds one row and one to one count. A prune gathers the series it takes
something from before it deletes, and counts these anew; every other series loses
nothing. So the counts are right after every call, and with them the number of the
next sample is above all that are stored.
-/

namespace Rutilus.Proofs.TelemetryCounts

open Rutilus.Domain Rutilus.Lib Rutilus.Store Rutilus.Store.Telemetry

variable {φ α β : Type} {isFinite : φ → Bool} {db : Db φ}

/-! ## Transactions -/

/-- What holds after a transaction, where none of its statements fails. -/
def Ensures (p : Txn φ α) (Q : α → Db φ → Prop) (db : Db φ) : Prop :=
  ∀ faults a s, p ⟨db, faults⟩ = .ok (a, s) → Q a s.db

namespace Ensures

variable {Q : α → Db φ → Prop}

theorem statement {f : Db φ → Except TelemetryRepositoryError (α × Db φ)}
    (h : ∀ a db', f db = .ok (a, db') → Q a db') :
    Ensures (Telemetry.statement f) Q db := by
  have hmap : ∀ faults a s,
      (f db).map (fun r => (r.1, (⟨r.2, faults⟩ : Session φ))) = .ok (a, s) →
        Q a s.db := by
    intro faults a s hrun
    cases hf : f db with
    | error e =>
        rw [hf] at hrun
        cases hrun
    | ok r =>
        rw [hf] at hrun
        cases hrun
        exact h _ _ hf
  intro faults a s hrun
  unfold Telemetry.statement at hrun
  dsimp only at hrun
  split at hrun
  · cases hrun
  · exact hmap _ a s hrun
  · exact hmap _ a s hrun

theorem select {f : Db φ → α} (h : Q (f db) db) :
    Ensures (Telemetry.select f) Q db :=
  statement fun _ _ hf => by
    cases hf
    exact h

theorem update {f : Db φ → Db φ} {Q : Unit → Db φ → Prop} (h : Q () (f db)) :
    Ensures (Telemetry.update f) Q db :=
  statement fun _ _ hf => by
    cases hf
    exact h

protected theorem pure {a : α} (h : Q a db) : Ensures (pure a : Txn φ α) Q db := by
  intro faults b s hrun
  cases hrun
  exact h

theorem throw {e : TelemetryRepositoryError} :
    Ensures (throw e : Txn φ α) Q db := nofun

protected theorem bind {p : Txn φ α} {f : α → Txn φ β} {Q : β → Db φ → Prop}
    (h : Ensures p (fun a db' => Ensures (f a) Q db') db) :
    Ensures (p >>= f) Q db := by
  intro faults b s hrun
  cases hp : p ⟨db, faults⟩ with
  | error e =>
      simp only [bind, StateT.bind, hp, Except.bind] at hrun
      cases hrun
  | ok r =>
      simp only [bind, StateT.bind, hp, Except.bind] at hrun
      exact h faults r.1 r.2 hp r.2.faults b s hrun

protected theorem map {p : Txn φ α} {f : α → β} {Q : β → Db φ → Prop}
    (h : Ensures p (fun a db' => Q (f a) db') db) :
    Ensures (f <$> p) Q db := by
  rw [map_eq_pure_bind]
  refine Ensures.bind fun faults a s hrun => ?_
  exact Ensures.pure (h faults a s hrun)

theorem imp {p : Txn φ α} {Q' : α → Db φ → Prop} (h : Ensures p Q db)
    (hQ : ∀ a db', Q a db' → Q' a db') : Ensures p Q' db :=
  fun faults a s hrun => hQ a s.db (h faults a s hrun)

/-- A call that is answered ends as its transaction does. -/
theorem transact_ok {p : Txn φ α} (h : Ensures p Q db) {o : Oracle} {a : α}
    {db' : Db φ} (hrun : transact o db p = (.ok a, db')) : Q a db' := by
  unfold transact at hrun
  split at hrun
  · cases hrun
  · split at hrun
    · next hp =>
        cases hrun
        exact h _ _ _ hp
    · cases hrun

theorem transact_error {p : Txn φ α} {o : Oracle}
    {e : TelemetryRepositoryError} {db' : Db φ}
    (hrun : transact o db p = (.error e, db')) : db' = db := by
  unfold transact at hrun
  split at hrun
  · cases hrun
    rfl
  · split at hrun
    · cases hrun
    · cases hrun
      rfl

/-- What a transaction keeps, the call keeps. -/
theorem transact_keeps {p : Txn φ α} {J : Db φ → Prop}
    (h : Ensures p (fun _ => J) db) (hdb : J db) (o : Oracle) :
    J (transact o db p).2 := by
  unfold transact
  split
  · exact hdb
  · split
    · next hp => exact h _ _ _ hp
    · exact hdb

end Ensures

/-! ## The calls -/

/-- What an upsert leaves: the series there, or one more without samples. -/
inductive Upserted (newId : TelemetrySeriesId) (endpointId : EndpointId)
    (seriesKey : SeriesKey) (db : Db φ) : TelemetrySeries → Db φ → Prop where
  | found {series : TelemetrySeries} {row : SeriesRow}
      (hrow : row ∈ db.series.rows) (hread : readSeries row = .ok series)
      (hidentity : row.identity = (endpointId, seriesKey.text)) :
      Upserted newId endpointId seriesKey db series db
  | created {t : SeriesTable} (hfree : db.series.find newId = none)
      (hrows : t.rows =
        db.series.rows ++ [⟨newId, endpointId, seriesKey.text, 0⟩]) :
      Upserted newId endpointId seriesKey db
        (.new newId endpointId seriesKey) { db with series := t }

theorem findIdentity_some {t : SeriesTable} {identity : EndpointId × String}
    {row : SeriesRow} (h : t.findIdentity identity = some row) :
    row ∈ t.rows ∧ row.identity = identity :=
  ⟨List.mem_of_find?_eq_some h, by simpa using List.find?_some h⟩

theorem readSeries_ensures {Q : TelemetrySeries → Db φ → Prop} {row : SeriesRow}
    (h : ∀ series, readSeries row = .ok series → Q series db) :
    Ensures (readSeries row : Txn φ TelemetrySeries) Q db := by
  intro faults series s hrun
  cases hread : readSeries row with
  | error e =>
      rw [hread] at hrun
      cases hrun
  | ok series' =>
      rw [hread] at hrun
      cases hrun
      exact h _ hread

theorem upsertSeries_ensures (newId : TelemetrySeriesId) (endpointId : EndpointId)
    (seriesKey : SeriesKey) :
    Ensures (upsertSeries newId endpointId seriesKey)
      (Upserted newId endpointId seriesKey db) db := by
  have hfound : ∀ row,
      db.series.findIdentity (endpointId, seriesKey.text) = some row →
        Ensures (readSeries row : Txn φ TelemetrySeries)
          (Upserted newId endpointId seriesKey db) db := fun row hrow =>
    readSeries_ensures fun series hread =>
      .found (findIdentity_some hrow).1 hread (findIdentity_some hrow).2
  refine Ensures.bind (Ensures.select ?_)
  split
  · next row hrow => exact hfound row hrow
  · refine Ensures.bind (Ensures.statement fun inserted db' h => ?_)
    unfold SeriesTable.insert at h
    split at h
    · split at h
      · next hidentity hid =>
          cases h
          exact Ensures.pure (.created hid (Table.rows_insertNew hid))
      · cases h
    · cases h
      refine Ensures.bind (Ensures.select ?_)
      split
      · next row hrow => exact hfound row hrow
      · exact Ensures.throw

theorem appendSample_ensures (sample : TelemetrySample isFinite) :
    Ensures (appendSample sample)
      (fun _ db' => (∃ row, db.series.find sample.seriesId = some row) ∧
        db' = { db.insertSample sample with
          series := db.series.setCount sample.seriesId (· + 1) }) db := by
  refine Ensures.bind (Ensures.select ?_)
  split
  · exact Ensures.throw
  · next row hrow =>
      refine Ensures.bind (Ensures.update (Ensures.bind (Ensures.update ?_)))
      exact Ensures.update ⟨⟨row, hrow⟩, rfl⟩

/-- What the recounts of some series leave. -/
structure Recounted (ids : List TelemetrySeriesId) (db db' : Db φ) : Prop where
  samples : db'.samples = db.samples
  nextId : db'.nextId = db.nextId
  rows : db'.series.rows = db.series.rows.map fun row =>
    if row.id ∈ ids then
      { row with sampleCount := (db.samplesOf row.id).length } else row

theorem recount_ensures (seriesId : TelemetrySeriesId) :
    Ensures (recount seriesId) (fun _ => Recounted [seriesId] db) db := by
  refine Ensures.bind (Ensures.select ?_)
  split
  · exact Ensures.throw
  · refine Ensures.update ⟨rfl, rfl, ?_⟩
    refine List.map_congr_left fun row _ => ?_
    unfold SeriesRow.counted
    by_cases hid : row.id = seriesId
    · rw [if_pos hid, if_pos (List.mem_singleton.mpr hid), hid]
    · rw [if_neg hid, if_neg fun h => hid (List.mem_singleton.mp h)]

theorem Recounted.cons {seriesId : TelemetrySeriesId}
    {ids : List TelemetrySeriesId} {db₁ db' : Db φ}
    (h₁ : Recounted [seriesId] db db₁) (h : Recounted ids db₁ db') :
    Recounted (seriesId :: ids) db db' where
  samples := h.samples.trans h₁.samples
  nextId := h.nextId.trans h₁.nextId
  rows := by
    have hcount : ∀ id, db₁.samplesOf id = db.samplesOf id := fun id => by
      unfold Db.samplesOf
      rw [h₁.samples]
    rw [h.rows, h₁.rows, List.map_map]
    refine List.map_congr_left fun row _ => ?_
    simp only [Function.comp, hcount, List.mem_cons, List.not_mem_nil, or_false]
    by_cases hid : row.id = seriesId
    · simp only [hid, if_true, true_or]
      split <;> rfl
    · simp only [hid, if_false, false_or]

theorem recounts_ensures (ids : List TelemetrySeriesId) :
    Ensures (ids.forM recount) (fun _ => Recounted ids db) db := by
  induction ids generalizing db with
  | nil =>
      refine Ensures.pure ⟨rfl, rfl, ?_⟩
      simp
  | cons id ids ih =>
      refine Ensures.bind ((recount_ensures id).imp fun _ db₁ h₁ => ?_)
      exact ih.imp fun _ db' h => h₁.cons h

/-- The tables without what is older. -/
def Db.kept (db : Db φ) (observedAt : Instant) : Db φ :=
  { db with samples := db.samples.filter fun row => !row.isBefore observedAt }

theorem pruneBefore_ensures (observedAt : Instant) :
    Ensures (pruneBefore observedAt)
      (fun _ db' => ∃ affected, (∀ id, id ∈ affected ↔
          ∃ row ∈ db.samples, row.isBefore observedAt = true ∧
            row.seriesId = id) ∧
        Recounted affected (Db.kept db observedAt) db') db := by
  refine Ensures.bind (Ensures.select ?_)
  refine Ensures.bind (Ensures.statement fun deleted db₁ h => ?_)
  cases h
  refine Ensures.bind ((recounts_ensures _).imp fun _ db' h => ?_)
  refine Ensures.bind (Ensures.update (Ensures.pure ⟨_, fun id => ?_, h⟩))
  rw [List.mem_dedup, (List.perm_insertionSort _ _).mem_iff, List.mem_map]
  constructor
  · rintro ⟨row, hrow, rfl⟩
    obtain ⟨hrow, hbefore⟩ := List.mem_filter.mp hrow
    exact ⟨row, hrow, hbefore, rfl⟩
  · rintro ⟨row, hrow, hbefore, rfl⟩
    exact ⟨row, List.mem_filter.mpr ⟨hrow, hbefore⟩, rfl⟩

/-! ## What every call keeps -/

variable (isFinite) in
structure Tallied (db : Db φ) : Prop where
  counts : ∀ row ∈ db.series.rows,
    row.sampleCount = (db.samplesOf row.id).length
  owned : ∀ sample ∈ db.samples, ∃ row ∈ db.series.rows, row.id = sample.seriesId
  numbered : db.samples.Pairwise fun a b => a.id < b.id
  fresh : ∀ sample ∈ db.samples, sample.id < db.nextId
  finite : ∀ sample ∈ db.samples, isFinite sample.value = true

theorem Tallied.empty : Tallied isFinite (Db.empty φ) :=
  ⟨nofun, nofun, .nil, nofun, nofun⟩

theorem Tallied.upserted {newId : TelemetrySeriesId} {endpointId : EndpointId}
    {seriesKey : SeriesKey} {series : TelemetrySeries} {db' : Db φ}
    (h : Tallied isFinite db)
    (hdone : Upserted newId endpointId seriesKey db series db') :
    Tallied isFinite db' := by
  cases hdone with
  | found hrow hread hidentity => exact h
  | @created t hfree hrows =>
      have hnone : db.samplesOf newId = [] := by
        refine List.filter_eq_nil_iff.mpr fun sample hsample hid => ?_
        obtain ⟨row, hrow, hrowid⟩ := h.owned sample hsample
        exact Table.find_eq_none_iff.mp hfree row hrow
          (hrowid.trans (of_decide_eq_true hid))
      refine { h with counts := ?_, owned := fun sample hsample => ?_ }
      · intro row hrow
        have hrow : row ∈ t.rows := hrow
        rw [hrows] at hrow
        rcases List.mem_append.mp hrow with hrow | hrow
        · exact h.counts row hrow
        · rw [List.mem_singleton.mp hrow]
          exact (congrArg List.length hnone).symm
      · obtain ⟨row, hrow, hid⟩ := h.owned sample hsample
        refine ⟨row, ?_, hid⟩
        show row ∈ t.rows
        rw [hrows]
        exact List.mem_append_left _ hrow

theorem Tallied.appended {sample : TelemetrySample isFinite} {found : SeriesRow}
    (h : Tallied isFinite db)
    (hfound : db.series.find sample.seriesId = some found) :
    Tallied isFinite { db.insertSample sample with
      series := db.series.setCount sample.seriesId (· + 1) } := by
  obtain ⟨hmem, hid⟩ := Table.find_eq_some_iff.mp hfound
  have hkept : ∀ row ∈ db.series.rows,
      row.counted sample.seriesId (· + 1) ∈
        db.series.rows.map (SeriesRow.counted sample.seriesId (· + 1)) :=
    fun row hrow => List.mem_map.mpr ⟨row, hrow, rfl⟩
  constructor
  · intro row hrow
    obtain ⟨old, hold, rfl⟩ := List.mem_map.mp hrow
    have hcount := h.counts old hold
    unfold Db.samplesOf Db.insertSample
    rw [SeriesRow.id_counted]
    dsimp only
    rw [List.filter_append, List.length_append]
    unfold SeriesRow.counted
    by_cases hsame : old.id = sample.seriesId
    · rw [if_pos hsame, hsame, List.filter_cons_of_pos (by simp)]
      rw [hsame] at hcount
      exact congrArg (· + 1) hcount
    · rw [if_neg hsame, List.filter_cons_of_neg (by simpa using Ne.symm hsame)]
      exact hcount
  · intro s hs
    rcases List.mem_append.mp hs with hs | hs
    · obtain ⟨row, hrow, hrowid⟩ := h.owned s hs
      exact ⟨_, hkept row hrow, (SeriesRow.id_counted ..).trans hrowid⟩
    · rw [List.mem_singleton.mp hs]
      exact ⟨_, hkept found hmem, (SeriesRow.id_counted ..).trans hid⟩
  · refine List.pairwise_append.mpr ⟨h.numbered, List.pairwise_singleton .., ?_⟩
    intro a ha b hb
    rw [List.mem_singleton.mp hb]
    exact h.fresh a ha
  · intro s hs
    rcases List.mem_append.mp hs with hs | hs
    · exact Nat.lt_succ_of_lt (h.fresh s hs)
    · rw [List.mem_singleton.mp hs]
      exact Nat.lt_succ_self _
  · intro s hs
    rcases List.mem_append.mp hs with hs | hs
    · exact h.finite s hs
    · rw [List.mem_singleton.mp hs]
      exact sample.finite

/-- A series that loses nothing keeps its samples. -/
theorem samplesOf_kept {observedAt : Instant} {id : TelemetrySeriesId}
    (h : ¬ ∃ row ∈ db.samples, row.isBefore observedAt = true ∧
      row.seriesId = id) :
    (Db.kept db observedAt).samplesOf id = db.samplesOf id := by
  unfold Db.samplesOf Db.kept
  dsimp only
  rw [List.filter_filter]
  refine List.filter_congr fun row hrow => ?_
  by_cases hid : row.seriesId = id
  · have hlate : row.isBefore observedAt = false :=
      Bool.eq_false_iff.mpr fun hbefore => h ⟨row, hrow, hbefore, hid⟩
    rw [hlate, Bool.not_false, Bool.and_true]
  · rw [decide_eq_false hid, Bool.false_and]

theorem Tallied.pruned {observedAt : Instant}
    {affected : List TelemetrySeriesId} {db' : Db φ} (h : Tallied isFinite db)
    (haffected : ∀ id, id ∈ affected ↔ ∃ row ∈ db.samples,
      row.isBefore observedAt = true ∧ row.seriesId = id)
    (hdone : Recounted affected (Db.kept db observedAt) db') :
    Tallied isFinite db' := by
  have hsamples : db'.samples =
      db.samples.filter fun row => !row.isBefore observedAt := hdone.samples
  have hof : ∀ id, db'.samplesOf id = (Db.kept db observedAt).samplesOf id :=
    fun id => by
      unfold Db.samplesOf
      rw [hdone.samples]
  have hsub : ∀ s ∈ db'.samples, s ∈ db.samples := fun s hs => by
    rw [hsamples] at hs
    exact List.mem_of_mem_filter hs
  constructor
  · intro row hrow
    rw [hdone.rows] at hrow
    obtain ⟨old, hold, rfl⟩ := List.mem_map.mp hrow
    rw [hof]
    by_cases hin : old.id ∈ affected
    · rw [if_pos hin]
    · rw [if_neg hin, samplesOf_kept fun hex => hin ((haffected _).mpr hex)]
      exact h.counts old hold
  · intro s hs
    obtain ⟨row, hrow, hid⟩ := h.owned s (hsub s hs)
    rw [hdone.rows]
    refine ⟨_, List.mem_map.mpr ⟨row, hrow, rfl⟩, ?_⟩
    rw [← hid]
    split <;> rfl
  · rw [hsamples]
    exact h.numbered.filter _
  · intro s hs
    rw [hdone.nextId]
    exact h.fresh s (hsub s hs)
  · exact fun s hs => h.finite s (hsub s hs)

/-- Every call, whether it is answered or fails. -/
theorem Tallied.called {db' : Db φ} (h : Tallied isFinite db)
    (hcall : Called isFinite db db') : Tallied isFinite db' := by
  obtain ⟨o, call, rfl⟩ := hcall
  cases call with
  | upsertSeries newId endpointId seriesKey =>
      refine Ensures.transact_keeps (Ensures.map ?_) h o
      exact (upsertSeries_ensures newId endpointId seriesKey).imp
        fun _ _ => h.upserted
  | appendSample sample =>
      refine Ensures.transact_keeps ((appendSample_ensures sample).imp ?_) h o
      rintro _ _ ⟨⟨row, hrow⟩, rfl⟩
      exact h.appended hrow
  | pruneBefore observedAt =>
      refine Ensures.transact_keeps (Ensures.map
        ((pruneBefore_ensures observedAt).imp ?_)) h o
      rintro _ _ ⟨affected, haffected, hdone⟩
      exact h.pruned haffected hdone

theorem reach_tallied (h : Reach (· = Db.empty φ) (Called isFinite) db) :
    Tallied isFinite db :=
  h.inv (fun _ h => h ▸ Tallied.empty) fun _ _ => Tallied.called

/-! ## Listings -/

theorem newer_total (a b : SampleRow φ) : newer a b ∨ newer b a := by
  rcases Int.lt_trichotomy a.observedAt b.observedAt with h | h | h
  · exact .inr (.inl h)
  · exact (Nat.le_total b.id a.id).imp (fun hid => .inr ⟨h.symm, hid⟩)
      fun hid => .inr ⟨h, hid⟩
  · exact .inl (.inl h)

theorem newer_trans {a b c : SampleRow φ} (hab : newer a b) (hbc : newer b c) :
    newer a c := by
  rcases hab with hab | ⟨hab, hidab⟩
  · rcases hbc with hbc | ⟨hbc, -⟩
    · exact .inl (Int.lt_trans hbc hab)
    · exact .inl (hbc ▸ hab)
  · rcases hbc with hbc | ⟨hbc, hidbc⟩
    · exact .inl (hab ▸ hbc)
    · exact .inr ⟨hbc.trans hab, Nat.le_trans hidbc hidab⟩

/-- Strictly newer, or later at the same instant. -/
def Newer (a b : SampleRow φ) : Prop :=
  b.observedAt < a.observedAt ∨ b.observedAt = a.observedAt ∧ b.id < a.id

/-- The samples of a series in the order of the listing. -/
theorem Tallied.sorted (h : Tallied isFinite db) (seriesId : TelemetrySeriesId) :
    ((db.samplesOf seriesId).insertionSort newer).Pairwise Newer := by
  have : Std.Total (newer (φ := φ)) := ⟨newer_total⟩
  have : IsTrans (SampleRow φ) newer := ⟨fun _ _ _ => newer_trans⟩
  have hsorted := List.pairwise_insertionSort newer (db.samplesOf seriesId)
  have hnumbered : (db.samplesOf seriesId).Pairwise fun a b => a.id ≠ b.id :=
    (h.numbered.filter _).imp Nat.ne_of_lt
  have hne : ((db.samplesOf seriesId).insertionSort newer).Pairwise
      fun a b => a.id ≠ b.id :=
    ((List.perm_insertionSort newer _).pairwise_iff Ne.symm).mpr hnumbered
  refine hsorted.imp₂ (fun a b hab hid => ?_) hne
  rcases hab with hab | ⟨hab, hle⟩
  · exact .inl hab
  · exact .inr ⟨hab, Nat.lt_of_le_of_ne hle (Ne.symm hid)⟩

/-- The sample of a row. -/
def Reads (row : SampleRow φ) (sample : TelemetrySample isFinite) : Prop :=
  sample.seriesId = row.seriesId ∧ sample.observedAt = row.observedAt ∧
    sample.bmcTimestamp = row.bmcTimestamp ∧ sample.value = row.value

theorem readSample_ok {row : SampleRow φ} (h : isFinite row.value = true) :
    ∃ sample, readSample isFinite row = .ok sample := by
  unfold readSample TelemetrySample.tryFromParts TelemetrySample.build
  rw [dif_pos h]
  exact ⟨_, rfl⟩

theorem reads_of_readSample {row : SampleRow φ}
    {sample : TelemetrySample isFinite}
    (h : readSample isFinite row = .ok sample) : Reads row sample := by
  unfold readSample TelemetrySample.tryFromParts TelemetrySample.build at h
  split at h
  · cases h
    exact ⟨rfl, rfl, rfl, rfl⟩
  · cases h

theorem Tallied.listSamples_ok (h : Tallied isFinite db)
    (seriesId : TelemetrySeriesId) (limit : Nat) :
    ∃ samples, listSamples isFinite db seriesId limit = .ok samples ∧
      List.Forall₂ Reads
        (((db.samplesOf seriesId).insertionSort newer).take limit) samples := by
  have hread : ∀ row ∈ ((db.samplesOf seriesId).insertionSort newer).take limit,
      ∃ sample, readSample isFinite row = .ok sample := by
    intro row hrow
    have hrow := (List.mem_insertionSort _).mp (List.mem_of_mem_take hrow)
    exact readSample_ok (h.finite row (List.mem_of_mem_filter hrow))
  obtain ⟨samples, hsamples⟩ := exists_mapM_ok hread
  exact ⟨samples, hsamples,
    (forall₂_of_mapM_ok hsamples).imp fun _ _ => reads_of_readSample⟩

/-! ## The result -/

end Rutilus.Proofs.TelemetryCounts
