import Rutilus.App.TelemetrySampler
import Rutilus.Lib.Rely
import Rutilus.Proofs.TelemetryCounts

/-!
# The order of the samples

The guard orders the accepted instants, not the appends: a call that is accepted
later may append earlier. Where calls append in turn, no sample of an endpoint is
above the instant of a call of it that is under way, and so every append extends its
series.
-/

namespace Rutilus.Proofs.SampleOrder

open Rutilus.Domain Rutilus.Lib Rutilus.Store Rutilus.Store.Telemetry
open Rutilus.App.TelemetrySampler Rutilus.Proofs.TelemetryCounts

variable {φ : Type} {isFinite : φ → Bool} {db db' : Db φ}

/-! ## Series belong to endpoints -/

/-- The series is one of the endpoint. -/
def Own (endpointId : EndpointId) (db : Db φ) (seriesId : TelemetrySeriesId) :
    Prop :=
  ∃ row ∈ db.series.rows, row.id = seriesId ∧ row.endpointId = endpointId

/-- Series stay, and stay with their endpoint. -/
def Grown (db db' : Db φ) : Prop :=
  ∀ row ∈ db.series.rows, ∃ row' ∈ db'.series.rows,
    row'.id = row.id ∧ row'.endpointId = row.endpointId

theorem Grown.refl (db : Db φ) : Grown db db :=
  fun row hrow => ⟨row, hrow, rfl, rfl⟩

theorem Grown.trans {a b c : Db φ} (hab : Grown a b) (hbc : Grown b c) :
    Grown a c := by
  intro row hrow
  obtain ⟨row₁, hrow₁, hid₁, hendpoint₁⟩ := hab row hrow
  obtain ⟨row₂, hrow₂, hid₂, hendpoint₂⟩ := hbc row₁ hrow₁
  exact ⟨row₂, hrow₂, hid₂.trans hid₁, hendpoint₂.trans hendpoint₁⟩

theorem Own.grown {endpointId : EndpointId} {seriesId : TelemetrySeriesId}
    (h : Own endpointId db seriesId) (hgrown : Grown db db') :
    Own endpointId db' seriesId := by
  obtain ⟨row, hrow, hid, hendpoint⟩ := h
  obtain ⟨row', hrow', hid', hendpoint'⟩ := hgrown row hrow
  exact ⟨row', hrow', hid'.trans hid, hendpoint'.trans hendpoint⟩

/-- A series has one endpoint. -/
theorem Own.unique {a b : EndpointId} {seriesId : TelemetrySeriesId}
    (ha : Own a db seriesId) (hb : Own b db seriesId) : a = b := by
  obtain ⟨row, hrow, hid, rfl⟩ := ha
  obtain ⟨row', hrow', hid', rfl⟩ := hb
  rw [List.inj_on_of_nodup_map db.series.nodup hrow hrow' (hid.trans hid'.symm)]

theorem grown_of_map {f : SeriesRow → SeriesRow}
    (hrows : db'.series.rows = db.series.rows.map f)
    (hf : ∀ row, (f row).id = row.id ∧ (f row).endpointId = row.endpointId) :
    Grown db db' := by
  intro row hrow
  rw [hrows]
  exact ⟨f row, List.mem_map.mpr ⟨row, hrow, rfl⟩, (hf row).1, (hf row).2⟩

/-! ## What a call does to the tables -/

theorem upserted_owns {newId : TelemetrySeriesId} {endpointId : EndpointId}
    {seriesKey : SeriesKey} {series : TelemetrySeries}
    (h : Upserted newId endpointId seriesKey db series db') :
    Grown db db' ∧ db'.samples = db.samples ∧ Own endpointId db' series.id := by
  cases h with
  | @found _ row hrow hread hidentity =>
      refine ⟨.refl db, rfl, row, hrow, ?_, congrArg Prod.fst hidentity⟩
      unfold readSeries mapStoredSeries at hread
      split at hread
      · cases hread
        rfl
      · cases hread
  | @created t hfree hrows =>
      refine ⟨fun row hrow => ⟨row, ?_, rfl, rfl⟩, rfl,
        ⟨newId, endpointId, seriesKey.text, 0⟩, ?_, rfl, rfl⟩
      · show row ∈ t.rows
        rw [hrows]
        exact List.mem_append_left _ hrow
      · show _ ∈ t.rows
        rw [hrows]
        exact List.mem_append_right _ (List.mem_singleton_self _)

/-- The row an append adds. -/
def Db.newRow (db : Db φ) (sample : TelemetrySample isFinite) : SampleRow φ :=
  ⟨db.nextId, sample.seriesId, sample.observedAt, sample.bmcTimestamp,
    sample.value⟩

/-- What a call of the store may do for a call with an instant. -/
structure Adds (endpointId : EndpointId) (now : Instant)
    (q : SamplerReq isFinite) (db db' : Db φ) : Prop where
  grown : Grown db db'
  samples : db'.samples = db.samples ∨ ∃ sample : TelemetrySample isFinite,
    q = .appendSample sample ∧ sample.observedAt = now ∧
      Own endpointId db sample.seriesId ∧
      db'.samples = db.samples ++ [Db.newRow db sample]

def Calls : Sem (samplerSig isFinite) (Db φ) :=
  fun q db r db' => ∃ o : Answers isFinite, perform o q db = (r, db')

abbrev CallSafe {α : Type} (endpointId : EndpointId) (now : Instant)
    (p : Sampling isFinite α) (Q : Except TelemetrySamplerError α → Db φ → Prop)
    (db : Db φ) : Prop :=
  Safe Calls Grown (Adds endpointId now) p Q db

theorem read_adds {endpointId e : EndpointId} {now : Instant}
    {r : Except ReadFault (List (MetricReportValues isFinite))}
    (h : Calls (.readMetricReports e) db r db') :
    Adds endpointId now (.readMetricReports e : SamplerReq isFinite) db db' := by
  obtain ⟨o, h⟩ := h
  cases h
  exact ⟨.refl db, .inl rfl⟩

theorem upsert_adds {endpointId : EndpointId} {now : Instant}
    {seriesKey : SeriesKey} {r : Except TelemetryRepositoryError TelemetrySeries}
    (h : Calls (.upsertSeries endpointId seriesKey : SamplerReq isFinite) db r
      db') :
    Adds endpointId now
        (.upsertSeries endpointId seriesKey : SamplerReq isFinite) db db' ∧
      ∀ series, r = .ok series → Own endpointId db' series.id := by
  obtain ⟨o, h⟩ := h
  have h : transact o.store db (upsertSeries o.newId endpointId seriesKey) =
      (r, db') := h
  cases r with
  | error e =>
      cases Ensures.transact_error h
      exact ⟨⟨.refl db, .inl rfl⟩, nofun⟩
  | ok series =>
      obtain ⟨hgrown, hsamples, hown⟩ := upserted_owns
        ((upsertSeries_ensures o.newId endpointId seriesKey).transact_ok h)
      refine ⟨⟨hgrown, .inl hsamples⟩, fun _ hsame => ?_⟩
      cases hsame
      exact hown

theorem append_adds {endpointId : EndpointId} {now : Instant}
    {sample : TelemetrySample isFinite} {r : Except TelemetryRepositoryError Unit}
    (h : Calls (.appendSample sample) db r db') (hnow : sample.observedAt = now)
    (hown : Own endpointId db sample.seriesId) :
    Adds endpointId now (.appendSample sample) db db' := by
  obtain ⟨o, h⟩ := h
  have h : transact o.store db (appendSample sample) = (r, db') := h
  cases r with
  | error e =>
      cases Ensures.transact_error h
      exact ⟨.refl db, .inl rfl⟩
  | ok u =>
      obtain ⟨-, rfl⟩ := (appendSample_ensures sample).transact_ok h
      refine ⟨grown_of_map (f := SeriesRow.counted sample.seriesId (· + 1)) rfl
        fun row => ⟨SeriesRow.id_counted .., ?_⟩, .inr ⟨sample, rfl, hnow, hown, rfl⟩⟩
      exact congrArg Prod.fst (SeriesRow.identity_counted ..)

/-! ## A call appends for its endpoint and with its instant -/

section Call

variable {endpointId : EndpointId} {now : Instant}

theorem appendReadings_safe {seriesKey : SeriesKey} {series : TelemetrySeries}
    {readings : List (MetricReportReading φ)} {appended : Nat}
    (hown : Own endpointId db series.id) :
    CallSafe endpointId now (appendReadings endpointId now seriesKey series
        readings appended : Sampling isFinite _)
      (fun _ _ => True) db := by
  induction readings generalizing appended db with
  | nil => exact trivial
  | cons reading readings ih =>
      unfold appendReadings
      split
      · exact trivial
      · next sample hsample =>
          have hparts : sample.observedAt = now ∧ sample.seriesId = series.id := by
            unfold TelemetrySample.new TelemetrySample.build at hsample
            split at hsample
            · cases hsample
              exact ⟨rfl, rfl⟩
            · cases hsample
          have hstamped : (stamped sample reading.bmcTimestamp).observedAt = now ∧
              (stamped sample reading.bmcTimestamp).seriesId = series.id := by
            cases reading.bmcTimestamp with
            | none => exact hparts
            | some t => exact hparts
          refine Safe.bindE.mpr (Safe.orThrow.mpr fun db₁ h₁ r db₂ hdid => ?_)
          have hown₁ := hown.grown h₁
          have hadds := append_adds hdid hstamped.1
            (hstamped.2.symm ▸ hown₁ : Own endpointId db₁ _)
          refine ⟨hadds, ?_⟩
          cases r with
          | error e => exact trivial
          | ok u => exact ih (hown₁.grown hadds.grown)

theorem sampleReports_safe {reports : List (MetricReportValues isFinite)}
    {done : EndpointSampling} :
    CallSafe endpointId now (sampleReports endpointId now reports done)
      (fun _ _ => True) db := by
  induction reports generalizing done db with
  | nil => exact trivial
  | cons report reports ih =>
      refine Safe.bindE.mpr (Safe.orThrow.mpr fun db₁ h₁ r db₂ hdid => ?_)
      obtain ⟨hadds, hown⟩ := upsert_adds hdid
      refine ⟨hadds, ?_⟩
      cases r with
      | error e => exact trivial
      | ok series =>
          refine Safe.bindE.mpr
            ((appendReadings_safe (hown series rfl)).imp fun r db₃ _ => ?_)
          cases r with
          | error e => exact trivial
          | ok appended => exact ih

theorem sampleAccepted_safe :
    CallSafe endpointId now (sampleAccepted isFinite endpointId now)
      (fun _ _ => True) db := by
  refine Safe.bindE.mpr (Safe.orThrow.mpr fun db₁ h₁ r db₂ hdid => ?_)
  refine ⟨read_adds hdid, ?_⟩
  cases r with
  | error e => exact trivial
  | ok reports => exact sampleReports_safe

end Call

/-! ## One process -/

/-- Samples this process has appended. -/
def Fresh (s : State isFinite) (sample : SampleRow φ) : Prop :=
  sample ∈ s.db.samples ∧ s.start ≤ sample.id

/-- The samples of each series are in the order of their stamps, as far as this
process has appended them. -/
def Ordered (s : State isFinite) : Prop :=
  s.db.samples.Pairwise fun a b =>
    s.start ≤ a.id → a.seriesId = b.seriesId → a.observedAt ≤ b.observedAt

structure Inv (s : State isFinite) : Prop where
  safe : ∀ c ∈ s.calls,
    CallSafe c.endpointId c.now c.run (fun _ _ => True) s.db
  accepted : ∀ c ∈ s.calls, ∃ last ∈ s.sampler.lastSampleInstant, c.now ≤ last
  stamped : ∀ sample, Fresh s sample →
    ∃ last ∈ s.sampler.lastSampleInstant, sample.observedAt ≤ last
  owned : ∀ sample, Fresh s sample →
    ∃ endpointId, Own endpointId s.db sample.seriesId
  behind : ∀ c ∈ s.calls, c.underWay = true → ∀ sample, Fresh s sample →
    Own c.endpointId s.db sample.seriesId → sample.observedAt ≤ c.now
  ordered : Ordered s

theorem Inv.initial {s : State isFinite} (h : Initial s) : Inv s := by
  obtain ⟨-, hcalls, -, hold⟩ := h
  have hnone : ∀ sample, ¬ Fresh s sample := fun sample hfresh =>
    Nat.lt_irrefl _ (Nat.lt_of_lt_of_le (hold sample hfresh.1) hfresh.2)
  refine ⟨?_, ?_, fun sample h => absurd h (hnone sample),
    fun sample h => absurd h (hnone sample), ?_, ?_⟩
  · rw [hcalls]
    exact nofun
  · rw [hcalls]
    exact nofun
  · rw [hcalls]
    exact nofun
  · refine List.pairwise_of_forall_mem_list fun a ha b _ hstart => ?_
    exact absurd ⟨ha, hstart⟩ (hnone a)

/-- An accepted instant is not before any that was accepted. -/
theorem acceptInstant_ok {g g' : SamplerState} {now : Instant}
    (h : g.acceptInstant now = (.ok (), g')) :
    g'.lastSampleInstant = some now ∧
      ∀ last ∈ g.lastSampleInstant, last ≤ now := by
  unfold SamplerState.acceptInstant at h
  split at h
  · next previous hprevious =>
      split at h
      · cases h
      · next hnot =>
          cases h
          refine ⟨rfl, fun last hlast => ?_⟩
          rw [hprevious] at hlast
          cases hlast
          exact Int.not_lt.mp hnot
  · next hnone =>
      cases h
      refine ⟨rfl, fun last hlast => ?_⟩
      rw [hnone] at hlast
      cases hlast

theorem acceptInstant_error {g g' : SamplerState} {now : Instant}
    {e : TelemetrySamplerError × Bool} (h : g.acceptInstant now = (.error e, g')) :
    g'.lastSampleInstant = g.lastSampleInstant := by
  unfold SamplerState.acceptInstant at h
  split at h
  · split at h
    · cases h
      rfl
    · cases h
  · cases h

theorem cutoff_last {g : SamplerState} {now : Instant} {retention : Int} :
    (g.cutoff now retention).2.lastSampleInstant = g.lastSampleInstant := by
  unfold SamplerState.cutoff
  split
  · rfl
  · rfl

/-- Another guard with the same last instant. -/
theorem Inv.withSampler {s : State isFinite} {g : SamplerState} (h : Inv s)
    (hlast : g.lastSampleInstant = s.sampler.lastSampleInstant) :
    Inv { s with sampler := g } where
  safe := h.safe
  accepted := hlast ▸ h.accepted
  stamped := hlast ▸ h.stamped
  owned := h.owned
  behind := h.behind
  ordered := h.ordered

theorem Inv.begin {s : State isFinite} {g : SamplerState} {now : Instant}
    (h : Inv s) (endpointId : EndpointId)
    (haccept : s.sampler.acceptInstant now = (.ok (), g)) :
    Inv { s with
      sampler := g
      calls := s.calls ++
        [⟨endpointId, now, sampleAccepted isFinite endpointId now⟩] } := by
  obtain ⟨hlast, hle⟩ := acceptInstant_ok haccept
  have hbound : ∀ t, (∃ last ∈ s.sampler.lastSampleInstant, t ≤ last) →
      t ≤ now := fun t ⟨last, hin, ht⟩ => Int.le_trans ht (hle last hin)
  refine ⟨?_, ?_, ?_, h.owned, ?_, h.ordered⟩
  · intro c hc
    rcases List.mem_append.mp hc with hc | hc
    · exact h.safe c hc
    · rw [List.mem_singleton.mp hc]
      exact sampleAccepted_safe
  · intro c hc
    refine ⟨now, hlast, ?_⟩
    rcases List.mem_append.mp hc with hc | hc
    · exact hbound _ (h.accepted c hc)
    · obtain rfl := List.mem_singleton.mp hc
      exact Int.le_refl _
  · exact fun sample hfresh => ⟨now, hlast, hbound _ (h.stamped sample hfresh)⟩
  · intro c hc hway sample hfresh hown
    rcases List.mem_append.mp hc with hc | hc
    · exact h.behind c hc hway sample hfresh hown
    · rw [List.mem_singleton.mp hc]
      exact hbound _ (h.stamped sample hfresh)

/-- A sample that was there keeps its owner. -/
theorem Inv.own_before {s : State isFinite} {sample : SampleRow φ}
    {endpointId : EndpointId} (h : Inv s) (hfresh : Fresh s sample)
    (hgrown : Grown s.db db') (hown : Own endpointId db' sample.seriesId) :
    Own endpointId s.db sample.seriesId := by
  obtain ⟨owner, howner⟩ := h.owned sample hfresh
  rw [Own.unique hown (howner.grown hgrown)]
  exact howner

/-- The calls do not notice that the tables grow. -/
theorem Inv.safe_grown {s : State isFinite} (h : Inv s)
    (hgrown : Grown s.db db') : ∀ c ∈ s.calls,
      CallSafe c.endpointId c.now c.run (fun _ _ => True) db' :=
  fun c hc => Safe.stable Grown.trans (fun _ => id) (h.safe c hc) hgrown

/-- A prune. -/
theorem Inv.shrunk {s : State isFinite} (h : Inv s) (hgrown : Grown s.db db')
    (hsub : db'.samples.Sublist s.db.samples) : Inv { s with db := db' } where
  safe := h.safe_grown hgrown
  accepted := h.accepted
  stamped := fun sample hfresh => h.stamped sample ⟨hsub.subset hfresh.1, hfresh.2⟩
  owned := fun sample hfresh =>
    (h.owned sample ⟨hsub.subset hfresh.1, hfresh.2⟩).imp
      fun _ hown => hown.grown hgrown
  behind := fun c hc hway sample hfresh hown => by
    have hfresh : Fresh s sample := ⟨hsub.subset hfresh.1, hfresh.2⟩
    exact h.behind c hc hway sample hfresh (h.own_before hfresh hgrown hown)
  ordered := h.ordered.sublist hsub

theorem pruned_shrunk (o : Telemetry.Oracle) (cutoff : Instant) :
    Grown db (transact o db (pruneBefore cutoff)).2 ∧
      (transact o db (pruneBefore cutoff)).2.samples.Sublist db.samples := by
  refine Ensures.transact_keeps (J := fun db' =>
    Grown db db' ∧ db'.samples.Sublist db.samples)
    ((pruneBefore_ensures cutoff).imp ?_) ⟨.refl db, List.Sublist.refl _⟩ o
  rintro _ db' ⟨affected, -, hdone⟩
  refine ⟨grown_of_map hdone.rows fun row => ?_, ?_⟩
  · split
    · exact ⟨rfl, rfl⟩
    · exact ⟨rfl, rfl⟩
  · rw [hdone.samples]
    exact List.filter_sublist

section Step

variable {s : State isFinite} {i : Nat} {endpointId : EndpointId}
  {now : Instant} {q : SamplerReq isFinite}
  {k : SamplerReq.Resp isFinite q → Sampling isFinite EndpointSampling}

/-- A step of a call that appends nothing. -/
theorem Inv.still {r : SamplerReq.Resp isFinite q} (h : Inv s)
    (hc : s.calls[i]? = some ⟨endpointId, now, .call q k⟩)
    (hgrown : Grown s.db db') (hsamples : db'.samples = s.db.samples)
    (hgo : CallSafe endpointId now (k r) (fun _ _ => True) db') :
    Inv { s with
      db := db'
      calls := s.calls.set i ⟨endpointId, now, k r⟩ } := by
  have hin := List.mem_of_getElem? hc
  have hfresh : ∀ sample, sample ∈ db'.samples ∧ s.start ≤ sample.id →
      Fresh s sample := fun sample h => ⟨hsamples ▸ h.1, h.2⟩
  refine ⟨?_, ?_, fun sample hs => h.stamped sample (hfresh sample hs), ?_, ?_, ?_⟩
  · intro c hmem
    rcases List.mem_or_eq_of_mem_set hmem with hmem | rfl
    · exact h.safe_grown hgrown c hmem
    · exact hgo
  · intro c hmem
    rcases List.mem_or_eq_of_mem_set hmem with hmem | rfl
    · exact h.accepted c hmem
    · exact h.accepted ⟨endpointId, now, .call q k⟩ hin
  · exact fun sample hs => (h.owned sample (hfresh sample hs)).imp
      fun _ hown => hown.grown hgrown
  · intro c hmem hway sample hs hown
    have hs := hfresh sample hs
    have hown := h.own_before hs hgrown hown
    rcases List.mem_or_eq_of_mem_set hmem with hmem | rfl
    · exact h.behind c hmem hway sample hs hown
    · exact h.behind ⟨endpointId, now, .call q k⟩ hin rfl sample hs hown
  · unfold Ordered
    dsimp only
    rw [hsamples]
    exact h.ordered

/-- A step of a call that appends, in turn. -/
theorem Inv.appended {r : SamplerReq.Resp isFinite q}
    {sample : TelemetrySample isFinite} (h : Inv s)
    (hc : s.calls[i]? = some ⟨endpointId, now, .call q k⟩)
    (hnow : sample.observedAt = now)
    (hown : Own endpointId s.db sample.seriesId) (hgrown : Grown s.db db')
    (hsamples : db'.samples = s.db.samples ++ [Db.newRow s.db sample])
    (hturn : ∀ d ∈ s.calls, d.underWay = true → d.endpointId = endpointId →
      now ≤ d.now)
    (hgo : CallSafe endpointId now (k r) (fun _ _ => True) db') :
    Inv { s with
      db := db'
      calls := s.calls.set i ⟨endpointId, now, k r⟩ } := by
  have hin := List.mem_of_getElem? hc
  have hat : (Db.newRow s.db sample).observedAt = now := hnow
  have hcases : ∀ row, row ∈ db'.samples ∧ s.start ≤ row.id →
      Fresh s row ∨ row = Db.newRow s.db sample := by
    rintro row ⟨hrow, hstart⟩
    rw [hsamples] at hrow
    rcases List.mem_append.mp hrow with hrow | hrow
    · exact .inl ⟨hrow, hstart⟩
    · exact .inr (List.mem_singleton.mp hrow)
  refine ⟨?_, ?_, ?_, ?_, ?_, ?_⟩
  · intro c hmem
    rcases List.mem_or_eq_of_mem_set hmem with hmem | rfl
    · exact h.safe_grown hgrown c hmem
    · exact hgo
  · intro c hmem
    rcases List.mem_or_eq_of_mem_set hmem with hmem | rfl
    · exact h.accepted c hmem
    · exact h.accepted ⟨endpointId, now, .call q k⟩ hin
  · intro row hrow
    rcases hcases row hrow with hrow | rfl
    · exact h.stamped row hrow
    · exact hat.symm ▸ h.accepted ⟨endpointId, now, .call q k⟩ hin
  · intro row hrow
    rcases hcases row hrow with hrow | rfl
    · exact (h.owned row hrow).imp fun _ hown => hown.grown hgrown
    · exact ⟨endpointId, hown.grown hgrown⟩
  · intro c hmem hway row hrow hrowown
    rcases hcases row hrow with hrow | rfl
    · have hrowown := h.own_before hrow hgrown hrowown
      rcases List.mem_or_eq_of_mem_set hmem with hmem | rfl
      · exact h.behind c hmem hway row hrow hrowown
      · exact h.behind ⟨endpointId, now, .call q k⟩ hin rfl row hrow hrowown
    · rcases List.mem_or_eq_of_mem_set hmem with hmem | rfl
      · have hsame := Own.unique hrowown (hown.grown hgrown)
        exact hat.symm ▸ hturn c hmem hway hsame
      · exact Int.le_of_eq hat
  · unfold Ordered
    dsimp only
    rw [hsamples]
    refine List.pairwise_append.mpr
      ⟨h.ordered, List.pairwise_singleton .., fun a ha b hb hstart hseries => ?_⟩
    obtain rfl := List.mem_singleton.mp hb
    have hbehind := h.behind ⟨endpointId, now, .call q k⟩ hin rfl a
      ⟨ha, hstart⟩ (hseries ▸ hown)
    exact hat.symm ▸ hbehind

theorem inTurn_step {o : Answers isFinite}
    (hc : s.calls[i]? = some ⟨endpointId, now, .call q k⟩)
    (hturn : inTurn s (.step i o) = true) {sample : TelemetrySample isFinite}
    (hq : q = .appendSample sample) : ∀ d ∈ s.calls, d.underWay = true →
      d.endpointId = endpointId → now ≤ d.now := by
  subst hq
  intro d hd hway hsame
  simp only [inTurn, hc, Running.appends, Bool.not_true, Bool.false_or,
    List.all_eq_true] at hturn
  have hnot := hturn d hd
  simp only [hway, hsame, decide_true, Bool.true_and, Bool.not_eq_true',
    decide_eq_false_iff_not] at hnot
  exact Int.not_lt.mp hnot

theorem Inv.stepped {o : Answers isFinite} (h : Inv s)
    (hc : s.calls[i]? = some ⟨endpointId, now, .call q k⟩)
    (hturn : inTurn s (.step i o) = true) :
    Inv { s with
      db := (perform o q s.db).2
      calls := s.calls.set i ⟨endpointId, now, k (perform o q s.db).1⟩ } := by
  obtain ⟨hadds, hgo⟩ := h.safe _ (List.mem_of_getElem? hc) s.db (.refl s.db) _ _
    ⟨o, rfl⟩
  rcases hadds.samples with hsamples | ⟨sample, hq, hnow, hown, hsamples⟩
  · exact h.still hc hadds.grown hsamples hgo
  · exact h.appended hc hnow hown hadds.grown hsamples (inTurn_step hc hturn hq)
      hgo

end Step

theorem Inv.step {s t : State isFinite} {l : Label isFinite} (h : Inv s)
    (hstep : nextInTurn s l = some t) : Inv t := by
  unfold nextInTurn at hstep
  split at hstep
  · next hturn =>
      cases l with
      | sampleEndpoint endpointId now =>
          simp only [next] at hstep
          split at hstep
          · next g haccept =>
              cases hstep
              exact h.begin endpointId haccept
          · next e g haccept =>
              cases hstep
              exact h.withSampler (acceptInstant_error haccept)
      | step i o =>
          simp only [next] at hstep
          split at hstep
          · next endpointId now q k hc =>
              cases hstep
              exact h.stepped hc hturn
          · cases hstep
      | drop i =>
          simp only [next] at hstep
          split at hstep
          · cases hstep
            have hsub : ∀ c ∈ s.calls.eraseIdx i, c ∈ s.calls :=
              fun c hc => List.mem_of_mem_eraseIdx hc
            exact {
              safe := fun c hc => h.safe c (hsub c hc)
              accepted := fun c hc => h.accepted c (hsub c hc)
              stamped := h.stamped
              owned := h.owned
              behind := fun c hc => h.behind c (hsub c hc)
              ordered := h.ordered }
          · cases hstep
      | pruneHistory now retention o =>
          simp only [next] at hstep
          have hlast : (s.sampler.cutoff now retention).2.lastSampleInstant =
              s.sampler.lastSampleInstant := cutoff_last
          split at hstep
          · next cutoff g hcutoff =>
              cases hstep
              rw [hcutoff] at hlast
              obtain ⟨hgrown, hsub⟩ : Grown s.db _ ∧ _ := pruned_shrunk o cutoff
              exact (h.shrunk hgrown hsub).withSampler hlast
          · next e g hcutoff =>
              cases hstep
              rw [hcutoff] at hlast
              exact h.withSampler hlast
  · cases hstep

/-- While no call appends next to one of the same endpoint with an earlier instant
that is still under way, the samples of every series stand in the order of their
stamps. -/
theorem ordered_in_turn {s : State isFinite}
    (h : Reach Initial (Next nextInTurn) s) : Ordered s :=
  (h.inv (fun _ => Inv.initial) fun _ _ hinv ⟨_, hstep⟩ => hinv.step hstep).ordered

/-! ### Two calls of one endpoint -/

def key : SeriesKey := ⟨"P", by decide +kernel, by decide +kernel,
  by decide +kernel, by decide +kernel⟩

/-- One report with one reading; nothing fails. -/
def answers : Answers (fun _ : Unit => true) where
  reports := .ok [⟨key, [⟨none, ()⟩], rfl, fun _ _ => rfl⟩]
  store := ⟨false, []⟩
  newId := ⟨7⟩

def process : State (fun _ : Unit => true) := ⟨.empty Unit, .new, [], 1⟩

theorem process_initial : Initial process := ⟨rfl, rfl, rfl, nofun⟩

instance (s : State isFinite) : Decidable (Ordered s) :=
  inferInstanceAs (Decidable (List.Pairwise _ _))

/-- The first call is done before the second begins. -/
def oneByOne : List (Label fun _ : Unit => true) :=
  .sampleEndpoint ⟨3⟩ 1 :: List.replicate 3 (.step 0 answers) ++
    .sampleEndpoint ⟨3⟩ 2 :: List.replicate 3 (.step 1 answers)

theorem oneByOne_ordered : ∃ s : State (fun _ : Unit => true),
    s.db.samples.length = 2 ∧ Ordered s := by
  obtain ⟨s, hs, htwo⟩ := exists_reach_of_follow Initial nextInTurn oneByOne
    (fun s => decide (s.db.samples.length = 2)) process_initial
    (by decide +kernel)
  exact ⟨s, of_decide_eq_true htwo, ordered_in_turn hs⟩

/-- The second call overtakes the first one after both were accepted. -/
def overtaking : List (Label fun _ : Unit => true) :=
  .sampleEndpoint ⟨3⟩ 1 :: .sampleEndpoint ⟨3⟩ 2 ::
    List.replicate 3 (.step 1 answers) ++ List.replicate 3 (.step 0 answers)

theorem overtaken_unordered :
    ¬ ∀ s : State (fun _ : Unit => true), Reachable s → Ordered s := by
  intro hall
  obtain ⟨s, hs, hnot⟩ := exists_reach_of_follow Initial next overtaking
    (fun s => decide (¬ Ordered s)) process_initial (by decide +kernel)
  exact of_decide_eq_true hnot (hall s hs)

end Rutilus.Proofs.SampleOrder
