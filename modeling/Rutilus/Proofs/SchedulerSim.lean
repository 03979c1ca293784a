import Rutilus.Proofs.FleetInv
import Rutilus.Proofs.SchedulerScan

/-!
# The scheduler is a fleet

Each step of the scheduling loop is a step of the fleet or changes nothing the
fleet sees. What makes it so is that no two drives in flight are of the same
operation: the scan lists none twice, and the next tick starts only after all
drives have landed.

`τ` is the hypothesis that the clock never runs backwards and that no poll
reads a waiting operation updated after its sweep began; it is `False` where
nothing is assumed.
-/

namespace Rutilus.Proofs.SchedulerSim

open Rutilus.Domain Rutilus.Lib Rutilus.Store Rutilus.Engine Rutilus.App
open Rutilus.App.Scheduler Rutilus.Proofs.Lane Rutilus.Proofs.Fleet
open Rutilus.Proofs.SchedulerScan

variable {τ : Prop} {posture : Executor.Posture}

/-! ## Submissions -/

/-- What a call does to the clock. -/
def ClockCall : Sem site Instant
  | .outside .now, _, r, c' => c' = r
  | _, c, _, c' => c' = c

/-- A submission reads the clock, and stores a fresh operation stamped with a
reading that is not later than now. -/
def SubmitReq (τ : Prop) (q : SiteReq) (c _ : Instant) : Prop :=
  q = .outside .now ∨ ∃ id source targets command t, (τ → t ≤ c) ∧
    q = .operations (.createOperation
      (Operation.new id source targets command t))

abbrev SubmitSafe (τ : Prop) (p : Prog site Unit) (c : Instant) : Prop :=
  Safe ClockCall (fun c c' => τ → c ≤ c') (SubmitReq τ) p (fun _ _ => True) c

theorem submission_safe {id : OperationId} {source : OperationSource}
    {targets : List OperationTarget} {command : RedfishCommand}
    {c : Instant} :
    SubmitSafe τ (submission id source targets command) c := by
  intro c₁ _ stamp c₂ hnow
  refine ⟨Or.inl rfl, Safe.bind.mpr ?_⟩
  have hc : c₂ = stamp := hnow
  unfold create
  split
  · trivial
  · intro c₃ h₃ r c₄ _
    refine ⟨Or.inr ⟨id, source, targets, command, stamp, ?_, rfl⟩, ?_⟩
    · exact fun hτ => hc ▸ h₃ hτ
    · cases r <;> trivial

/-! ## Drives in flight -/

/-- A drive of an operation is past its gate. -/
def Flying (flights : List Flight) (X : OperationId) (th : Thread) : Prop :=
  th.caller = .executor ∧ ∃ flight ∈ flights,
    flight.drive.operationId = X ∧ flight.rest = some th.rest

def flightId (flight : Flight) : OperationId := flight.drive.operationId

section Flights

variable {flights : List Flight} {i : Nat} {drive : Drive}
  {r : Option (Prog site Unit)} {p : Prog site Unit} {X : OperationId}
  {th : Thread}

theorem entry_caller (drive : Drive) : drive.entry.caller = .executor := by
  unfold Drive.entry
  split <;> rfl

theorem entry_role (drive : Drive) : drive.entry.role = .executor := by
  unfold Drive.entry
  split <;> rfl

theorem flying_set (hn : (flights.map flightId).Nodup)
    (hi : flights[i]? = some ⟨drive, r⟩) :
    Flying (flights.set i ⟨drive, some p⟩) X th ↔
      X = drive.operationId ∧ some ⟨drive.entry.caller, p⟩ = some th ∨
        X ≠ drive.operationId ∧ Flying flights X th := by
  constructor
  · rintro ⟨hc, flight, hf, rfl, hr⟩
    rcases (mem_set_of_nodup hn hi).mp hf with rfl | ⟨hf, hne⟩
    · refine Or.inl ⟨rfl, ?_⟩
      obtain ⟨c, q⟩ := th
      cases hr
      obtain rfl : c = .executor := hc
      rw [entry_caller]
    · exact Or.inr ⟨hne, hc, flight, hf, rfl, hr⟩
  · rintro (⟨rfl, hth⟩ | ⟨hne, hc, flight, hf, rfl, hr⟩)
    · cases hth
      exact ⟨entry_caller drive, _, (mem_set_of_nodup hn hi).mpr (Or.inl rfl),
        rfl, rfl⟩
    · exact ⟨hc, flight, (mem_set_of_nodup hn hi).mpr (Or.inr ⟨hf, hne⟩), rfl,
        hr⟩

theorem flying_erase (hn : (flights.map flightId).Nodup)
    (hi : flights[i]? = some ⟨drive, r⟩) :
    Flying (flights.eraseIdx i) X th ↔
      X ≠ drive.operationId ∧ Flying flights X th := by
  constructor
  · rintro ⟨hc, flight, hf, rfl, hr⟩
    obtain ⟨hf, hne⟩ := (mem_eraseIdx_of_nodup hn hi).mp hf
    exact ⟨hne, hc, flight, hf, rfl, hr⟩
  · rintro ⟨hne, hc, flight, hf, rfl, hr⟩
    exact ⟨hc, flight, (mem_eraseIdx_of_nodup hn hi).mpr ⟨hf, hne⟩, rfl, hr⟩

/-- The drive at a position is the only one of its operation. -/
theorem flying_at (hn : (flights.map flightId).Nodup)
    (hi : flights[i]? = some ⟨drive, r⟩)
    (h : Flying flights drive.operationId th) : r = some th.rest := by
  obtain ⟨-, flight, hf, hid, hr⟩ := h
  have := List.inj_on_of_nodup_map hn hf (List.mem_of_getElem? hi) hid
  rw [this] at hr
  exact hr

theorem flying_waiting :
    Flying (flights ++ [⟨drive, none⟩]) X th ↔ Flying flights X th := by
  constructor
  · rintro ⟨hc, flight, hf, hX, hr⟩
    rcases List.mem_append.mp hf with hf | hf
    · exact ⟨hc, flight, hf, hX, hr⟩
    · rw [List.mem_singleton] at hf
      subst hf
      cases hr
  · rintro ⟨hc, flight, hf, hX, hr⟩
    exact ⟨hc, flight, List.mem_append_left _ hf, hX, hr⟩

end Flights

/-! ## The simulation -/

/-- The drives in flight of a phase. -/
def flightsOf : Phase → List Flight
  | .passes tick => tick.flights
  | _ => []

/-- The poll under way. -/
def Polling (phase : Phase) (X : OperationId) (th : Thread) : Prop :=
  ∃ tick waiting, phase = .passes tick ∧
    tick.monitor = .polling (some (X, th.rest)) waiting ∧
    th.caller = .monitor tick.sweep

structure TickOk (τ : Prop) (w : World) (tick : Tick) : Prop where
  sweep : τ → tick.sweep ≤ w.clock
  nodup : (tick.drives.map Drive.operationId ++
    tick.flights.map flightId).Nodup
  listing : ∀ rest, tick.monitor = .listing rest →
    ListSafe (fun _ _ => True) rest (fun _ _ => True) w.operations

def PhaseOk (τ : Prop) (w : World) : Phase → Prop
  | .idle => True
  | .scanning sweep rest => (τ → sweep ≤ w.clock) ∧
      ListSafe Grows rest ScanPost w.operations
  | .passes tick => TickOk τ w tick

/-- A state of the loop and the fleet it stands for. -/
structure Sim (τ : Prop) (s : State) (f : Fleet) : Prop where
  world : f.world = s.world
  executor : ∀ X th, f.threads X .executor = some th ↔
    Flying (flightsOf s.phase) X th
  monitor : ∀ X th, f.threads X .monitor = some th ↔ Polling s.phase X th
  phase : PhaseOk τ s.world s.phase
  submissions : ∀ p ∈ s.submissions, SubmitSafe τ p s.world.clock

/-- The steps `τ` speaks about: the clock does not run backwards, and a poll
that reads its operation waiting finds no update later than its sweep. -/
def Timely (s : State) (l : Label) (s' : State) : Prop :=
  s.world.clock ≤ s'.world.clock ∧ ∀ tick o X q k waiting,
    l = .pass (.read o) → s.phase = .passes tick →
    tick.monitor = .polling (some (X, .call q k)) waiting →
    FreshRead (.monitor tick.sweep) q (view s.world X)

section Sim

variable {s s' : State} {f : Fleet} {tick : Tick} {w' : World} {i : Nat}
  {drive : Drive} {r : Option (Prog site Unit)} {X : OperationId}

theorem TickOk.later {w : World} (h : TickOk τ w tick)
    (hclock : τ → w.clock ≤ w'.clock) : TickOk τ w' tick where
  sweep := fun hτ => Int.le_trans (h.sweep hτ) (hclock hτ)
  nodup := h.nodup
  listing := fun rest hrest =>
    (h.listing rest hrest).stable (fun _ _ => trivial) (fun _ h => h) trivial

theorem PhaseOk.later {w : World} {phase : Phase} (h : PhaseOk τ w phase)
    (hclock : τ → w.clock ≤ w'.clock)
    (hgrows : Grows w.operations w'.operations) : PhaseOk τ w' phase := by
  cases phase with
  | idle => trivial
  | scanning sweep rest =>
      refine ⟨fun hτ => Int.le_trans (h.1 hτ) (hclock hτ), ?_⟩
      refine Safe.stable Grows.trans ?_ h.2 hgrows
      exact fun _ h => h
  | passes tick => exact TickOk.later h hclock

theorem submitSafe_later {p : Prog site Unit} {c c' : Instant}
    (h : SubmitSafe τ p c) (hc : τ → c ≤ c') : SubmitSafe τ p c' :=
  h.stable (fun h h' hτ => Int.le_trans (h hτ) (h' hτ)) (fun _ h => h) hc

/-- A step that only the bookkeeping of the loop sees. -/
theorem Sim.stutter (h : Sim τ s f) {phase : Phase}
    {submissions : List (Prog site Unit)}
    (hflights : ∀ X th, Flying (flightsOf phase) X th ↔
      Flying (flightsOf s.phase) X th)
    (hpolling : ∀ X th, Polling phase X th ↔ Polling s.phase X th)
    (hphase : PhaseOk τ s.world phase)
    (hsub : ∀ p ∈ submissions, SubmitSafe τ p s.world.clock) :
    Sim τ ⟨s.world, phase, submissions⟩ f where
  world := h.world
  executor := fun X th => (h.executor X th).trans (hflights X th).symm
  monitor := fun X th => (h.monitor X th).trans (hpolling X th).symm
  phase := hphase
  submissions := hsub

theorem Sim.tickOk (h : Sim τ s f) (hphase : s.phase = .passes tick) :
    TickOk τ s.world tick := by
  have hok := h.phase
  rw [hphase] at hok
  exact hok

theorem TickOk.flights_nodup {w : World} (h : TickOk τ w tick) :
    (tick.flights.map flightId).Nodup :=
  (List.nodup_append.mp h.nodup).2.1

theorem polling_iff {th : Thread} :
    Polling (.passes tick) X th ↔ ∃ waiting,
      tick.monitor = .polling (some (X, th.rest)) waiting ∧
      th.caller = .monitor tick.sweep := by
  constructor
  · rintro ⟨_, waiting, h, h', hc⟩
    cases h
    exact ⟨waiting, h', hc⟩
  · rintro ⟨waiting, h', hc⟩
    exact ⟨tick, waiting, rfl, h', hc⟩

/-- A drive takes a step of its own: it passes its gate or makes a call. -/
theorem Sim.fly (h : Sim τ s f) (hphase : s.phase = .passes tick)
    (hi : tick.flights[i]? = some ⟨drive, r⟩) (p : Prog site Unit)
    (hclock : τ → s.world.clock ≤ w'.clock) :
    Sim τ ⟨w', .passes (tick.fly i drive p), s.submissions⟩
      (Fleet.setThread ⟨w', f.threads⟩ drive.operationId .executor
        (some ⟨drive.entry.caller, p⟩)) := by
  have hok := h.tickOk hphase
  have hmap : (tick.fly i drive p).flights.map flightId =
      tick.flights.map flightId := map_set_of_key hi rfl
  refine ⟨rfl, fun Y th => ?_, fun Y th => ?_, ?_, ?_⟩
  · have hold := h.executor Y th
    rw [hphase] at hold
    refine Iff.trans ?_ (flying_set hok.flights_nodup hi).symm
    rw [setThread_threads]
    by_cases hY : Y = drive.operationId
    · simp [hY]
    · simp only [hY, false_and, if_false, ne_eq, not_false_iff, true_and,
        false_or]
      exact hold
  · rw [setThread_threads, if_neg (by simp), h.monitor, hphase, polling_iff,
      polling_iff]
    rfl
  · have hlater := hok.later hclock
    exact ⟨hlater.sweep, by rw [hmap]; exact hlater.nodup, hlater.listing⟩
  · exact fun p hp => submitSafe_later (h.submissions p hp) hclock

/-- A drive is over. -/
theorem Sim.land (h : Sim τ s f) (hphase : s.phase = .passes tick)
    (hi : tick.flights[i]? = some ⟨drive, r⟩) :
    Sim τ ⟨s.world, .passes (tick.land i), s.submissions⟩
      (f.setThread drive.operationId .executor none) := by
  have hok := h.tickOk hphase
  refine ⟨h.world, fun Y th => ?_, fun Y th => ?_, ?_, h.submissions⟩
  · have hold := h.executor Y th
    rw [hphase] at hold
    refine Iff.trans ?_ (flying_erase hok.flights_nodup hi).symm
    rw [setThread_threads]
    by_cases hY : Y = drive.operationId
    · simp [hY]
    · simp only [hY, false_and, if_false, ne_eq, not_false_iff, true_and]
      exact hold
  · rw [setThread_threads, if_neg (by simp), h.monitor, hphase, polling_iff,
      polling_iff]
    rfl
  · refine ⟨hok.sweep, ?_, hok.listing⟩
    refine hok.nodup.sublist ((List.Sublist.refl _).append ?_)
    exact (List.eraseIdx_sublist ..).map _

/-- The poll takes a step of its own: it begins or makes a call. -/
theorem Sim.read (h : Sim τ s f) (hphase : s.phase = .passes tick)
    (honly : ∀ Y th, Polling s.phase Y th → Y = X) (p : Prog site Unit)
    (waiting : List OperationId) (hclock : τ → s.world.clock ≤ w'.clock) :
    Sim τ ⟨w', .passes { tick with monitor := .polling (some (X, p)) waiting },
        s.submissions⟩
      (Fleet.setThread ⟨w', f.threads⟩ X .monitor
        (some ⟨.monitor tick.sweep, p⟩)) := by
  have hok := h.tickOk hphase
  refine ⟨rfl, fun Y th => ?_, fun Y th => ?_, ?_, ?_⟩
  · have hold := h.executor Y th
    rw [hphase] at hold
    rw [setThread_threads, if_neg (by simp)]
    exact hold
  · rw [setThread_threads, polling_iff]
    by_cases hY : Y = X
    · subst hY
      obtain ⟨c, q⟩ := th
      simp only [true_and, if_true]
      constructor
      · intro hth
        cases hth
        exact ⟨waiting, rfl, rfl⟩
      · rintro ⟨_, hm, hc⟩
        cases hm
        obtain rfl : c = .monitor tick.sweep := hc
        rfl
    · simp only [hY, false_and, if_false]
      constructor
      · intro hth
        exact absurd (honly Y th ((h.monitor Y th).mp hth)) hY
      · rintro ⟨_, hm, -⟩
        cases hm
        exact absurd rfl hY
  · have hlater := hok.later hclock
    exact ⟨hlater.sweep, hlater.nodup, nofun⟩
  · exact fun p hp => submitSafe_later (h.submissions p hp) hclock

/-- The poll is over. -/
theorem Sim.polled (h : Sim τ s f) (hphase : s.phase = .passes tick)
    {p : Prog site Unit} {waiting : List OperationId}
    (hm : tick.monitor = .polling (some (X, p)) waiting) :
    Sim τ ⟨s.world, .passes { tick with monitor := .polling none waiting },
        s.submissions⟩ (f.setThread X .monitor none) := by
  have hok := h.tickOk hphase
  refine ⟨h.world, fun Y th => ?_, fun Y th => ?_, ?_, h.submissions⟩
  · have hold := h.executor Y th
    rw [hphase] at hold
    rw [setThread_threads, if_neg (by simp)]
    exact hold
  · rw [setThread_threads, polling_iff]
    by_cases hY : Y = X
    · simp [hY]
    · simp only [hY, false_and, if_false]
      rw [h.monitor, hphase, polling_iff, hm]
      simp [Ne.symm hY]
  · exact ⟨hok.sweep, hok.nodup, nofun⟩

end Sim

/-! ## Every step of the loop is a step of the fleet -/

/-- The fleet takes the step, or sees nothing of it. -/
def Follows (τ : Prop) (posture : Executor.Posture) (f : Fleet)
    (s' : State) : Prop :=
  ∃ f', Sim τ s' f' ∧ (Step ⟨τ, False⟩ posture f f' ∨ f' = f)

section Steps

variable {s s' : State} {f : Fleet} {tick tick' : Tick} {w' : World}

theorem allowed_entry (drive : Drive) :
    Allowed ⟨τ, False⟩ f (.enter drive.operationId drive.entry) := by
  unfold Drive.entry
  split <;> trivial

/-- A drive passes its gate. -/
theorem Sim.gate (h : Sim τ s f) (hphase : s.phase = .passes tick) {i : Nat}
    {drive : Drive} (hi : tick.flights[i]? = some ⟨drive, none⟩) :
    Follows τ posture f
      ⟨s.world.note drive.operationId (.began drive.entry),
        .passes (tick.fly i drive
          (drive.entry.program posture drive.operationId)), s.submissions⟩ := by
  have hnone : f.threads drive.operationId .executor = none := by
    cases hth : f.threads drive.operationId .executor with
    | none => rfl
    | some th =>
        have hfly := (h.executor _ th).mp hth
        rw [hphase] at hfly
        cases flying_at (h.tickOk hphase).flights_nodup hi hfly
  refine ⟨_, h.fly hphase hi _ fun _ => Int.le_refl _, Or.inl ?_⟩
  refine ⟨.enter drive.operationId drive.entry, ?_, allowed_entry drive⟩
  simp only [Fleet.next, entry_role, hnone, h.world]

/-- A drive makes a call. -/
theorem Sim.drive (h : Sim τ s f) (hphase : s.phase = .passes tick) {i : Nat}
    {drive : Drive} {o : Oracle} {q : SiteReq} {k : q.Resp → Prog site Unit}
    (hi : tick.flights[i]? = some ⟨drive, some (.call q k)⟩)
    (hclock : τ → s.world.clock ≤
      (perform drive.operationId drive.entry.caller o q s.world).2.clock) :
    Follows τ posture f
      ⟨(perform drive.operationId drive.entry.caller o q s.world).2,
        .passes (tick.fly i drive
          (k (perform drive.operationId drive.entry.caller o q s.world).1)),
        s.submissions⟩ := by
  have hth : f.threads drive.operationId .executor =
      some ⟨drive.entry.caller, .call q k⟩ := by
    refine (h.executor _ _).mpr ⟨entry_caller drive,
      ⟨drive, some (.call q k)⟩, ?_, rfl, rfl⟩
    rw [hphase]
    exact List.mem_of_getElem? hi
  refine ⟨_, h.fly hphase hi _ hclock, Or.inl ⟨.call drive.operationId
    .executor o, ?_, ?_⟩⟩
  · simp only [Fleet.next, hth, h.world]
  · intro caller q' k' hth'
    rw [hth] at hth'
    cases hth'
    rw [h.world]
    refine ⟨fun hτ => ⟨hclock hτ, ?_⟩, False.elim⟩
    rw [entry_caller]
    trivial

/-- The monitor pass has its list. -/
theorem Sim.listed (h : Sim τ s f) (hphase : s.phase = .passes tick)
    {rest : Prog site (Except TickSweepError (List OperationId))}
    (hm : tick.monitor = .listing rest) {waiting : List OperationId} :
    Follows τ posture f
      ⟨s.world, .passes { tick with monitor := .polling none waiting },
        s.submissions⟩ := by
  have hok := h.tickOk hphase
  refine ⟨f, h.stutter (fun X th => ?_) (fun X th => ?_)
    ⟨hok.sweep, hok.nodup, nofun⟩ h.submissions, Or.inr rfl⟩
  · rw [hphase]
    rfl
  · rw [hphase, polling_iff, polling_iff, hm]
    simp

/-- A poll begins. -/
theorem Sim.poll (h : Sim τ s f) (hphase : s.phase = .passes tick)
    {X : OperationId} {waiting : List OperationId}
    (hm : tick.monitor = .polling none (X :: waiting)) :
    Follows τ posture f
      ⟨s.world.note X (.began (.poll tick.sweep)),
        .passes { tick with monitor := .polling (some (X,
          (Entry.poll tick.sweep).program posture X)) waiting },
        s.submissions⟩ := by
  have hidle : ∀ Y th, ¬ Polling s.phase Y th := by
    intro Y th hp
    rw [hphase, polling_iff, hm] at hp
    obtain ⟨_, hp, -⟩ := hp
    cases hp
  have hnone : f.threads X .monitor = none := by
    cases hth : f.threads X .monitor with
    | none => rfl
    | some th => exact absurd ((h.monitor X th).mp hth) (hidle X th)
  refine ⟨_, h.read hphase (fun Y th hp => absurd hp (hidle Y th)) _ waiting
    fun _ => Int.le_refl _, Or.inl ⟨.enter X (.poll tick.sweep), ?_, ?_⟩⟩
  · simp only [Fleet.next, Entry.role, hnone, h.world]
    rfl
  · show τ → _
    rw [h.world]
    exact (h.tickOk hphase).sweep

/-- A poll makes a call. -/
theorem Sim.readCall (h : Sim τ s f) (hphase : s.phase = .passes tick)
    {X : OperationId} {waiting : List OperationId} {o : Oracle} {q : SiteReq}
    {k : q.Resp → Prog site Unit}
    (hm : tick.monitor = .polling (some (X, .call q k)) waiting)
    (htime : τ → s.world.clock ≤
        (perform X (.monitor tick.sweep) o q s.world).2.clock ∧
      FreshRead (.monitor tick.sweep) q (view s.world X)) :
    Follows τ posture f
      ⟨(perform X (.monitor tick.sweep) o q s.world).2,
        .passes { tick with monitor := .polling (some (X,
          k (perform X (.monitor tick.sweep) o q s.world).1)) waiting },
        s.submissions⟩ := by
  have hth : f.threads X .monitor = some ⟨.monitor tick.sweep, .call q k⟩ :=
    (h.monitor _ _).mpr ⟨tick, waiting, hphase, hm, rfl⟩
  have honly : ∀ Y th, Polling s.phase Y th → Y = X := by
    intro Y th hp
    rw [hphase, polling_iff, hm] at hp
    obtain ⟨_, hp, -⟩ := hp
    simp only [MonitorPass.polling.injEq, Option.some.injEq,
      Prod.mk.injEq] at hp
    exact hp.1.1.symm
  refine ⟨_, h.read hphase honly _ waiting fun hτ => (htime hτ).1,
    Or.inl ⟨.call X .monitor o, ?_, ?_⟩⟩
  · simp only [Fleet.next, hth, h.world]
  · intro caller q' k' hth'
    rw [hth] at hth'
    cases hth'
    rw [h.world]
    exact ⟨htime, False.elim⟩

/-- One step of the passes. -/
theorem Sim.pass (h : Sim τ s f) (hphase : s.phase = .passes tick)
    {l : TickLabel} (hl : tick.next posture s.world l = some (w', tick'))
    (ht : τ → Timely s (.pass l) ⟨w', .passes tick', s.submissions⟩) :
    Follows τ posture f ⟨w', .passes tick', s.submissions⟩ := by
  have hok := h.tickOk hphase
  cases l with
  | take =>
      simp only [Tick.next] at hl
      split at hl
      · cases hl
      · next drive drives hdrives =>
          split at hl
          · cases hl
            refine ⟨f, ?_, Or.inr rfl⟩
            refine h.stutter (fun X th => ?_) (fun X th => ?_)
              ⟨hok.sweep, ?_, hok.listing⟩ h.submissions
            · rw [hphase]
              exact flying_waiting
            · rw [hphase, polling_iff, polling_iff]
            · have hn := hok.nodup
              rw [hdrives] at hn
              rw [List.map_append, ← List.append_assoc]
              refine List.Perm.nodup_iff ?_ |>.mp hn
              exact (List.perm_append_singleton _ _).symm
          · cases hl
  | ungated i =>
      simp only [Tick.next] at hl
      split at hl
      · next drive hi =>
          cases hl
          refine ⟨f, h.stutter (fun X th => ?_) (fun X th => ?_)
            ⟨hok.sweep, ?_, hok.listing⟩ h.submissions, Or.inr rfl⟩
          · rw [hphase]
            refine (flying_erase hok.flights_nodup hi).trans
              (and_iff_right_of_imp ?_)
            rintro hfly rfl
            cases flying_at hok.flights_nodup hi hfly
          · rw [hphase, polling_iff, polling_iff]
            rfl
          · refine hok.nodup.sublist ((List.Sublist.refl _).append ?_)
            exact (List.eraseIdx_sublist ..).map _
      · cases hl
  | gate i =>
      simp only [Tick.next] at hl
      split at hl
      · next drive hi =>
          split at hl
          · cases hl
            exact h.gate hphase hi
          · cases hl
      · cases hl
  | drive i o =>
      simp only [Tick.next] at hl
      split at hl
      · next drive q k hi =>
          cases hl
          exact h.drive hphase hi fun hτ => (ht hτ).1
      · cases hl
  | driven i =>
      simp only [Tick.next] at hl
      split at hl
      · next drive u hi =>
          cases hl
          refine ⟨_, h.land hphase hi, Or.inl ⟨.leave drive.operationId
            .executor, ?_, trivial⟩⟩
          have hth : f.threads drive.operationId .executor =
              some ⟨.executor, .ret u⟩ := by
            refine (h.executor _ _).mpr ⟨rfl, ⟨drive, some (.ret u)⟩, ?_,
              rfl, rfl⟩
            rw [hphase]
            exact List.mem_of_getElem? hi
          simp only [Fleet.next, hth]
      · cases hl
  | list o =>
      simp only [Tick.next] at hl
      split at hl
      · next q k hm =>
          cases hl
          obtain ⟨hq, hrest⟩ := hok.listing _ hm s.world.operations trivial _ _
            (listCall_answer q o s.world)
          rw [(answer_listing hq).1] at hrest ⊢
          refine ⟨f, h.stutter (fun X th => ?_) (fun X th => ?_)
            ⟨hok.sweep, hok.nodup, ?_⟩ h.submissions, Or.inr rfl⟩
          · rw [hphase]
            rfl
          · rw [hphase, polling_iff, polling_iff, hm]
            simp
          · intro rest hr
            cases hr
            exact hrest
      · cases hl
  | listed =>
      simp only [Tick.next] at hl
      split at hl
      · next waiting hm =>
          cases hl
          exact h.listed hphase hm
      · next e hm =>
          cases hl
          exact h.listed hphase hm
      · cases hl
  | poll =>
      simp only [Tick.next] at hl
      split at hl
      · next X waiting hm =>
          cases hl
          exact h.poll hphase hm
      · cases hl
  | read o =>
      simp only [Tick.next] at hl
      split at hl
      · next X q k waiting hm =>
          cases hl
          refine h.readCall hphase hm fun hτ => ?_
          exact ⟨(ht hτ).1, (ht hτ).2 tick o X q k waiting rfl hphase hm⟩
      · cases hl
  | polled =>
      simp only [Tick.next] at hl
      split at hl
      · next X u waiting hm =>
          cases hl
          refine ⟨_, h.polled hphase hm, Or.inl ⟨.leave X .monitor, ?_,
            trivial⟩⟩
          have hth : f.threads X .monitor =
              some ⟨.monitor tick.sweep, .ret u⟩ :=
            (h.monitor _ _).mpr ⟨tick, waiting, hphase, hm, rfl⟩
          simp only [Fleet.next, hth]
      · cases hl

end Steps

/-! ## Whole runs -/

section Runs

variable {s s' : State} {f : Fleet} {l : Label} {w' : World}

theorem clockCall_answer (q : SiteReq) (o : Oracle) (w : World) :
    ClockCall q w.clock (answer o q w).1 (answer o q w).2.clock := by
  cases q with
  | operations q => rfl
  | tasks q => rfl
  | outside q => cases q <;> rfl

/-- The world changes under the drivers' feet: the clock is read or an
operation is stored. -/
theorem Sim.world_later (h : Sim τ s f)
    {submissions : List (Prog site Unit)}
    (hclock : τ → s.world.clock ≤ w'.clock)
    (hgrows : Grows s.world.operations w'.operations)
    (hsub : ∀ p ∈ submissions, SubmitSafe τ p w'.clock) :
    Sim τ ⟨w', s.phase, submissions⟩ ⟨w', f.threads⟩ where
  world := rfl
  executor := h.executor
  monitor := h.monitor
  phase := h.phase.later hclock hgrows
  submissions := hsub

theorem Sim.clock (h : Sim τ s f) {t : Instant} {phase : Phase}
    {submissions : List (Prog site Unit)}
    (hsim : Sim τ ⟨{ s.world with clock := t }, phase, submissions⟩
      ⟨{ s.world with clock := t }, f.threads⟩)
    (hclock : τ → s.world.clock ≤ t) :
    Follows τ posture f ⟨{ s.world with clock := t }, phase, submissions⟩ := by
  refine ⟨_, hsim, Or.inl ⟨.clock t, ?_, ?_⟩⟩
  · simp only [Fleet.next, h.world]
  · show τ → _
    rw [h.world]
    exact hclock

theorem grows_createOperation {t t' : OperationTable} {operation : Operation}
    (h : createOperation t operation = .ok t') : Grows t t' := by
  intro k row hrow
  rw [createOperation_ok h k, if_neg, hrow]
  rintro ⟨-, hnone⟩
  rw [hrow] at hnone
  cases hnone

/-- A submission makes a call. -/
theorem Sim.submit (h : Sim τ s f) {i : Nat} {o : Oracle} {q : SiteReq}
    {k : q.Resp → Prog site Unit} (hi : s.submissions[i]? = some (.call q k))
    (hclock : τ → s.world.clock ≤ (answer o q s.world).2.clock) :
    Follows τ posture f ⟨(answer o q s.world).2, s.phase,
      s.submissions.set i (k (answer o q s.world).1)⟩ := by
  obtain ⟨hreq, hrest⟩ := h.submissions _ (List.mem_of_getElem? hi)
    s.world.clock (fun _ => Int.le_refl _) _ _ (clockCall_answer q o s.world)
  have hsub : ∀ p ∈ s.submissions.set i (k (answer o q s.world).1),
      SubmitSafe τ p (answer o q s.world).2.clock := by
    intro p hp
    rcases List.mem_or_eq_of_mem_set hp with hp | rfl
    · exact submitSafe_later (h.submissions p hp) hclock
    · exact hrest
  rcases hreq with rfl | ⟨id, source, targets, command, t, ht, rfl⟩
  · exact h.clock (h.world_later hclock (fun _ _ h => h) hsub) hclock
  · cases hf : o.fault with
    | some fault =>
        simp only [answer, runOperationStore, hf] at hsub ⊢
        exact ⟨f, h.stutter (fun _ _ => Iff.rfl) (fun _ _ => Iff.rfl) h.phase
          hsub, Or.inr rfl⟩
    | none =>
        simp only [answer, runOperationStore, hf] at hsub ⊢
        cases hc : createOperation s.world.operations
            (Operation.new id source targets command t) with
        | error e =>
            simp only [hc, written] at hsub ⊢
            exact ⟨f, h.stutter (fun _ _ => Iff.rfl) (fun _ _ => Iff.rfl)
              h.phase hsub, Or.inr rfl⟩
        | ok operations =>
            simp only [hc, written] at hsub ⊢
            refine ⟨_, h.world_later (fun _ => Int.le_refl _)
              (grows_createOperation hc) hsub, Or.inl
              ⟨.submit id source targets command t, ?_, ?_⟩⟩
            · simp only [Fleet.next, h.world, hc]
            · show τ → _
              rw [h.world]
              exact ht

/-- Every step of the loop, seen by the fleet. -/
theorem Sim.step (h : Sim τ s f) (hl : Scheduler.next posture s l = some s')
    (ht : τ → Timely s l s') : Follows τ posture f s' := by
  cases l with
  | accept id source targets command =>
      cases hl
      refine ⟨f, h.stutter (fun _ _ => Iff.rfl) (fun _ _ => Iff.rfl) h.phase ?_,
        Or.inr rfl⟩
      intro p hp
      rcases List.mem_cons.mp hp with rfl | hp
      · exact submission_safe
      · exact h.submissions p hp
  | submit i o =>
      simp only [Scheduler.next] at hl
      split at hl
      · next q k hi =>
          cases hl
          exact h.submit hi fun hτ => (ht hτ).1
      · cases hl
  | tick now =>
      simp only [Scheduler.next] at hl
      split at hl
      · next hphase =>
          cases hl
          have hclock : τ → s.world.clock ≤ now := fun hτ => (ht hτ).1
          refine h.clock ⟨rfl, fun X th => ?_, fun X th => ?_, ?_, ?_⟩ hclock
          · have hold := h.executor X th
            rw [hphase] at hold
            exact hold
          · have hold := h.monitor X th
            rw [hphase] at hold
            refine hold.trans ?_
            simp [Polling]
          · exact ⟨fun _ => Int.le_refl _, scan_safe⟩
          · exact fun p hp => submitSafe_later (h.submissions p hp) hclock
      · cases hl
  | scan o =>
      simp only [Scheduler.next] at hl
      split at hl
      · next sweep q k hphase =>
          cases hl
          have hok := h.phase
          rw [hphase] at hok
          obtain ⟨hq, hrest⟩ := hok.2 s.world.operations (fun _ _ h => h) _ _
            (listCall_answer q o s.world)
          rw [(answer_listing hq).1] at hrest ⊢
          refine ⟨f, h.stutter (fun X th => ?_) (fun X th => ?_)
            ⟨hok.1, hrest⟩ h.submissions, Or.inr rfl⟩
          · rw [hphase]
            rfl
          · rw [hphase]
            simp [Polling]
      · cases hl
  | scanned =>
      simp only [Scheduler.next] at hl
      have hok := h.phase
      split at hl
      · next sweep drives hphase =>
          cases hl
          rw [hphase] at hok
          refine ⟨f, h.stutter (fun X th => ?_) (fun X th => ?_)
            ⟨hok.1, ?_, ?_⟩ h.submissions, Or.inr rfl⟩
          · rw [hphase]
            rfl
          · rw [hphase, polling_iff]
            simp [Polling]
          · simpa using hok.2 drives rfl
          · intro rest hr
            cases hr
            exact scanWaiting_safe
      · next sweep e hphase =>
          cases hl
          refine ⟨f, h.stutter (fun X th => ?_) (fun X th => ?_)
            trivial h.submissions, Or.inr rfl⟩
          · rw [hphase]
            rfl
          · rw [hphase]
            simp [Polling]
      · cases hl
  | pass l =>
      simp only [Scheduler.next] at hl
      split at hl
      · next tick hphase =>
          obtain ⟨⟨w', tick'⟩, hn, rfl⟩ := Option.map_eq_some_iff.mp hl
          exact h.pass hphase hn ht
      · cases hl
  | tickDone =>
      simp only [Scheduler.next] at hl
      split at hl
      · next tick hphase =>
          split at hl
          · next hdone =>
              cases hl
              have hflights : tick.flights = [] ∧
                  tick.monitor = .polling none [] := by
                unfold Tick.isDone at hdone
                split at hdone
                · next hf hm => exact ⟨hf, hm⟩
                · cases hdone
              refine ⟨f, h.stutter (fun X th => ?_) (fun X th => ?_) trivial
                h.submissions, Or.inr rfl⟩
              · rw [hphase]
                simp [flightsOf, hflights.1]
              · rw [hphase, polling_iff, hflights.2]
                simp [Polling]
          · cases hl
      · cases hl
  | crash =>
      cases hl
      refine ⟨⟨f.world.crash, fun _ _ => none⟩, ⟨?_, fun X th => ?_,
        fun X th => ?_, trivial, by simp⟩, Or.inl ⟨.crash, rfl, trivial⟩⟩
      · rw [h.world]
      · simp [Flying, flightsOf]
      · simp [Polling]

theorem sim_init : Sim τ Scheduler.init Fleet.init where
  world := rfl
  executor := fun X th => by simp [Fleet.init, Flying, flightsOf, Scheduler.init]
  monitor := fun X th => by simp [Fleet.init, Polling, Scheduler.init]
  phase := trivial
  submissions := by simp [Scheduler.init]

/-- One step of the loop that `τ` allows. -/
def LoopStep (τ : Prop) (posture : Executor.Posture) (s s' : State) : Prop :=
  ∃ l, Scheduler.next posture s l = some s' ∧ (τ → Timely s l s')

/-- Every state of the loop stands for a state of the fleet. -/
theorem exists_fleet
    (h : Reach (· = Scheduler.init) (LoopStep τ posture) s) :
    ∃ f, Reach (· = Fleet.init) (Step ⟨τ, False⟩ posture) f ∧ Sim τ s f := by
  refine h.inv (P := fun s => ∃ f,
    Reach (· = Fleet.init) (Step ⟨τ, False⟩ posture) f ∧ Sim τ s f) ?_ ?_
  · rintro _ rfl
    exact ⟨Fleet.init, .init rfl, sim_init⟩
  · rintro s s' ⟨f, hf, hsim⟩ ⟨l, hl, ht⟩
    obtain ⟨f', hsim', hstep | rfl⟩ := hsim.step hl ht
    · exact ⟨f', hf.step hstep, hsim'⟩
    · exact ⟨f', hf, hsim'⟩

/-- Every operation satisfies its invariant in every state of the loop. -/
theorem lane_inv (h : Reach (· = Scheduler.init) (LoopStep τ posture) s)
    (X : OperationId) : Lane.Inv ⟨τ, False⟩ (view s.world X) := by
  obtain ⟨f, hf, hsim⟩ := exists_fleet h
  rw [← hsim.world]
  exact (Inv.of_reach hf).lane X

/-- Every step of the loop moves each operation along the matrix. -/
theorem lane_advance
    (h : Reach (· = Scheduler.init) (LoopStep τ posture) s)
    (hs : LoopStep τ posture s s') (X : OperationId) :
    Advance ⟨τ, False⟩ (view s.world X) (view s'.world X) := by
  obtain ⟨f, hf, hsim⟩ := exists_fleet h
  obtain ⟨l, hl, ht⟩ := hs
  obtain ⟨f', hsim', hstep | rfl⟩ := hsim.step hl ht
  · rw [← hsim.world, ← hsim'.world]
    exact ((Inv.of_reach hf).step hstep).2 X
  · rw [← hsim.world, ← hsim'.world]
    exact .same rfl

end Runs

end Rutilus.Proofs.SchedulerSim
