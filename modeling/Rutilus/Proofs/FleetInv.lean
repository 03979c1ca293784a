import Rutilus.App.World
import Rutilus.Lib.Runs
import Rutilus.Proofs.LaneExecutor
import Rutilus.Proofs.LaneMonitor

/-!
# The invariant of the fleet

Every operation satisfies its invariant and every driver under way still keeps
its contract, whatever the others do. One lemma for each kind of step; the
frame lemma of `Lane` takes care of all operations a step is not about.
-/

namespace Rutilus.Proofs.Fleet

open Rutilus.Domain Rutilus.Lib Rutilus.Store Rutilus.App
open Rutilus.Proofs.Lane

/-- The step is one the regime allows. -/
def Allowed (ρ : Regime) (s : Fleet) : Fleet.Label → Prop
  | .clock t => ρ.timed → s.world.clock ≤ t
  | .submit _ _ _ _ createdAt => ρ.timed → createdAt ≤ s.world.clock
  | .enter _ (.poll sweep) => ρ.timed → sweep ≤ s.world.clock
  | .enter _ _ => True
  | .call X role o => ∀ caller q k,
      s.threads X role = some ⟨caller, .call q k⟩ →
      (ρ.timed → s.world.clock ≤ (perform X caller o q s.world).2.clock ∧
        FreshRead caller q (view s.world X)) ∧
      (ρ.truthful → TruthfulAnswer caller (view s.world X) q
        (perform X caller o q s.world).1)
  | .leave _ _ => True
  | .crash => True

/-- One allowed step. -/
def Step (ρ : Regime) (posture : Executor.Posture) (s t : Fleet) : Prop :=
  ∃ l, Fleet.next posture s l = some t ∧ Allowed ρ s l

/-- A driver that still keeps its contract. -/
def Keeps (ρ : Regime) (X : OperationId) (v : View) (th : Thread) :
    Role → Prop
  | .executor => th.caller = .executor ∧ ExecSafe ρ X th.rest Any v
  | .monitor => ∃ sweep, th.caller = .monitor sweep ∧
      MonSafe ρ X sweep th.rest Any v

structure Inv (ρ : Regime) (s : Fleet) : Prop where
  lane : ∀ X, Lane.Inv ρ (view s.world X)
  thread : ∀ X role th, s.threads X role = some th →
    Keeps ρ X (view s.world X) th role

variable {ρ : Regime} {posture : Executor.Posture} {s t : Fleet}
  {X Y : OperationId} {v v' : View}

theorem execLater_refl (h : Lane.Inv ρ v) : ExecLater ρ v v where
  verifying := fun _ hrow _ => Or.inl hrow
  terminal := fun _ hrow _ => hrow
  log := ⟨[], rfl, by simp⟩
  held := fun _ hrow _ => ⟨hrow, rfl⟩
  clock := fun _ => Int.le_refl _
  inv := h

theorem monLater_refl (h : Lane.Inv ρ v) : MonLater ρ v v where
  verifying := fun _ hrow _ => Or.inl hrow
  terminal := fun _ hrow _ => hrow
  log := ⟨[], rfl, by simp⟩
  waiting := fun _ hrow _ => ⟨hrow, rfl⟩
  clock := fun _ => Int.le_refl _
  inv := h

/-- What every driver of an operation may find changed. -/
structure Later (ρ : Regime) (v v' : View) : Prop where
  exec : ExecLater ρ v v'
  mon : MonLater ρ v v'

theorem Keeps.later {th : Thread} {role : Role}
    (h : Keeps ρ X v th role) (hl : Later ρ v v') : Keeps ρ X v' th role := by
  cases role with
  | executor => exact ⟨h.1, h.2.stable ExecLater.trans (fun _ _ => trivial) hl.exec⟩
  | monitor =>
      obtain ⟨sweep, hc, hs⟩ := h
      exact ⟨sweep, hc, hs.stable MonLater.trans (fun _ _ => trivial) hl.mon⟩

theorem Later.of_still (h : Still ρ v v') (hv : Lane.Inv ρ v) :
    Later ρ v v' :=
  ⟨h.execLater hv, h.monLater hv⟩

/-- The clock moves on. -/
theorem Later.clock {c : Instant} (hv : Lane.Inv ρ v)
    (hc : ρ.timed → v.clock ≤ c) : Later ρ v { v with clock := c } := by
  have hinv : Lane.Inv ρ { v with clock := c } := {
    once := hv.once
    after := hv.after
    uri := hv.uri
    absent := fun h => by
      obtain ⟨h₁, h₂, h₃, h₄⟩ := hv.absent h
      exact ⟨h₁, h₂, h₃, h₄⟩
    present := fun row hrow => by
      have h := hv.present row hrow
      refine ⟨?_, ?_, h.kind⟩
      · have hs := h.state
        unfold StateInv at *
        split <;> simp_all <;> exact ⟨hs.1, hs.2, hs.3, hs.4⟩
      · exact fun hρ => ⟨(h.time hρ).1, Int.le_trans (h.time hρ).2 (hc hρ)⟩ }
  exact ⟨{ execLater_refl hv with inv := hinv, clock := hc },
    { monLater_refl hv with inv := hinv, clock := hc }⟩

/-! ## One lemma for each kind of step -/

@[simp]
theorem setThread_world (s : Fleet) (X : OperationId) (role : Role)
    (th : Option Thread) : (s.setThread X role th).world = s.world := rfl

theorem setThread_threads (s : Fleet) (X Y : OperationId) (role role' : Role)
    (th : Option Thread) :
    (s.setThread X role th).threads Y role' =
      if Y = X ∧ role' = role then th else s.threads Y role' := by
  by_cases hY : Y = X
  · subst hY
    by_cases hr : role' = role
    · subst hr
      simp [Fleet.setThread]
    · simp [Fleet.setThread, hr]
  · simp [Fleet.setThread, hY]

theorem program_keeps {entry : Entry}
    (hv : ∀ sweep, entry = .poll sweep → ρ.timed → sweep ≤ v.clock) :
    Keeps ρ X v ⟨entry.caller, entry.program posture X⟩ entry.role := by
  match entry with
  | .execute =>
      exact ⟨rfl, Safe.bind.mpr
        (executeOperation_safe.imp fun _ _ _ => trivial)⟩
  | .recover =>
      exact ⟨rfl, Safe.bind.mpr
        (recoverOperation_safe.imp fun _ _ _ => trivial)⟩
  | .poll sweep =>
      exact ⟨sweep, rfl, Safe.bind.mpr
        ((poll_safe (hv sweep rfl)).imp fun _ _ _ => trivial)⟩

/-- An entry in the log of its own operation moves nothing. -/
theorem still_note {e : App.Event} (hq : Quiet e) (ho : e.opensAttempt = false) :
    Still ρ (view s.world X) (view (s.world.note X e) X) where
  row := rfl
  task := rfl
  log := ⟨e, by simp [view, World.note], hq, ho⟩
  clock := fun _ => Int.le_refl _

theorem view_note_of_ne {e : App.Event} (h : Y ≠ X) :
    view (s.world.note X e) Y = view s.world Y := by
  simp [view, World.note, Function.update_of_ne h]

/-- A driver takes its next step: it keeps its contract, the other driver of
the operation and all other operations find what they rely on. -/
theorem Inv.call {role : Role} {o : Oracle} {caller : Caller} {q : SiteReq}
    {k : q.Resp → Prog site Unit} (h : Inv ρ s)
    (hth : s.threads X role = some ⟨caller, .call q k⟩)
    (ha : Allowed ρ s (.call X role o)) :
    About X q ∧ Advance ρ (view s.world X)
      (view (perform X caller o q s.world).2 X) ∧
    Inv ρ (Fleet.setThread
      { s with world := (perform X caller o q s.world).2 } X role
      (some ⟨caller, k (perform X caller o q s.world).1⟩)) := by
  obtain ⟨htimed, htruthful⟩ := ha caller q k hth
  have hcalled : LaneCall ρ X caller q (view s.world X)
      (perform X caller o q s.world).1
      (view (perform X caller o q s.world).2 X) := fun habout =>
    ⟨view_perform_log q, perform_effect habout, fun hρ => (htimed hρ).1,
      fun hρ => (htimed hρ).2, htruthful⟩
  -- the step is in the driver's guarantee
  have hstep : About X q ∧ Advance ρ (view s.world X)
        (view (perform X caller o q s.world).2 X) ∧
      Lane.Inv ρ (view (perform X caller o q s.world).2 X) ∧
      Keeps ρ X (view (perform X caller o q s.world).2 X)
        ⟨caller, k (perform X caller o q s.world).1⟩ role ∧
      ∀ role' th, role' ≠ role → Keeps ρ X (view s.world X) th role' →
        Keeps ρ X (view (perform X caller o q s.world).2 X) th role' := by
    have hkeeps := h.thread X role _ hth
    cases role with
    | executor =>
        obtain ⟨hc, hsafe⟩ := hkeeps
        obtain rfl : caller = .executor := hc
        obtain ⟨hG, hrest⟩ :=
          hsafe _ (execLater_refl (h.lane X)) _ _ hcalled
        refine ⟨hG.about, hG.advance, hG.later.inv, ⟨rfl, hrest⟩, ?_⟩
        intro role' th hne hk
        cases role' with
        | executor => exact absurd rfl hne
        | monitor =>
            obtain ⟨sweep, hc', hs'⟩ := hk
            exact ⟨sweep, hc', hs'.stable MonLater.trans (fun _ _ => trivial)
              hG.later⟩
    | monitor =>
        obtain ⟨sweep, hc, hsafe⟩ := hkeeps
        obtain rfl : caller = .monitor sweep := hc
        obtain ⟨hG, hrest⟩ :=
          hsafe _ (monLater_refl (h.lane X)) _ _ hcalled
        refine ⟨hG.about, hG.advance, hG.later.inv, ⟨sweep, rfl, hrest⟩, ?_⟩
        intro role' th hne hk
        cases role' with
        | monitor => exact absurd rfl hne
        | executor =>
            exact ⟨hk.1, hk.2.stable ExecLater.trans (fun _ _ => trivial)
              hG.later⟩
  obtain ⟨habout, hadvance, hinv, hself, hother⟩ := hstep
  have hframe : ∀ Y, Y ≠ X → Later ρ (view s.world Y)
      (view (perform X caller o q s.world).2 Y) := by
    intro Y hY
    rw [perform_frame habout hY]
    exact Later.clock (h.lane Y) fun hρ => (htimed hρ).1
  refine ⟨habout, hadvance, ?_, ?_⟩
  · intro Y
    by_cases hY : Y = X
    · subst hY
      exact hinv
    · exact (hframe Y hY).exec.inv
  · intro Y role' th hthY
    rw [setThread_threads] at hthY
    split at hthY
    · next hYr =>
        obtain ⟨rfl, rfl⟩ := hYr
        cases hthY
        exact hself
    · next hYr =>
        by_cases hY : Y = X
        · subst hY
          exact hother role' th (fun hr => hYr ⟨rfl, hr⟩)
            (h.thread Y role' th hthY)
        · exact (h.thread Y role' th hthY).later (hframe Y hY)

/-- All operations find what they rely on and no driver changed: the invariant
is kept. -/
theorem Inv.of_later {w : World} (h : Inv ρ s)
    (hl : ∀ X, Later ρ (view s.world X) (view w X)) :
    Inv ρ { s with world := w } where
  lane := fun X => (hl X).exec.inv
  thread := fun X role th hth => (h.thread X role th hth).later (hl X)

theorem Inv.submit {operations : OperationTable} {operation : Operation}
    (h : Inv ρ s)
    (hop : createOperation s.world.operations operation = .ok operations)
    (hnew : operation.state = .queued)
    (htime : operation.createdAt = operation.updatedAt)
    (hclock : ρ.timed → operation.updatedAt ≤ s.world.clock) :
    Inv ρ { s with world := { s.world with operations } } ∧
      ∀ X, Advance ρ (view s.world X)
        (view { s.world with operations } X) := by
  have hlane : ∀ X, Later ρ (view s.world X)
        (view { s.world with operations } X) ∧
      Advance ρ (view s.world X) (view { s.world with operations } X) := by
    intro X
    have hfind := createOperation_ok hop X
    by_cases hX : X = operation.id ∧ s.world.operations.find X = none
    · rw [if_pos hX] at hfind
      have hnone : (view s.world X).row = none := hX.2
      have hrow : (view { s.world with operations } X).row =
          some (rowOf operation none) := hfind
      have hun := (h.lane X).absent hnone
      have hinv : Lane.Inv ρ (view { s.world with operations } X) := {
        once := (h.lane X).once
        after := (h.lane X).after
        uri := (h.lane X).uri
        absent := fun hn => by cases hrow.symm.trans hn
        present := fun row hr => by
          cases hrow.symm.trans hr
          refine ⟨?_, ?_, fun _ hk => absurd rfl hk⟩
          · simp only [StateInv, rowOf, hnew]
            exact ⟨hun.1, hun.2, hun.3, hun.4⟩
          · exact fun hρ => ⟨Int.le_of_eq htime, hclock hρ⟩ }
      have hno : ∀ row, (view s.world X).row ≠ some row := by
        intro row hr
        rw [hnone] at hr
        cases hr
      refine ⟨⟨?_, ?_⟩, .create _ hnone hrow hnew⟩
      · exact {
          verifying := fun row hr => absurd hr (hno row)
          terminal := fun row hr => absurd hr (hno row)
          log := ⟨[], rfl, by simp⟩
          held := fun row hr => absurd hr (hno row)
          clock := fun _ => Int.le_refl _
          inv := hinv }
      · exact {
          verifying := fun row hr => absurd hr (hno row)
          terminal := fun row hr => absurd hr (hno row)
          log := ⟨[], rfl, by simp⟩
          waiting := fun row hr => absurd hr (hno row)
          clock := fun _ => Int.le_refl _
          inv := hinv }
    · rw [if_neg hX] at hfind
      have hsame : view { s.world with operations } X = view s.world X := by
        simp only [view]
        rw [hfind]
      rw [hsame]
      exact ⟨⟨execLater_refl (h.lane X), monLater_refl (h.lane X)⟩,
        .same rfl⟩
  exact ⟨h.of_later fun X => (hlane X).1, fun X => (hlane X).2⟩

theorem Inv.enter {entry : Entry} (h : Inv ρ s)
    (hnone : s.threads X entry.role = none)
    (ha : Allowed ρ s (.enter X entry)) :
    Inv ρ (Fleet.setThread { s with world := s.world.note X (.began entry) }
      X entry.role (some ⟨entry.caller, entry.program posture X⟩)) := by
  have hq : Quiet (.began entry) := ⟨rfl, rfl, rfl⟩
  have hinv : Lane.Inv ρ (view (s.world.note X (.began entry)) X) :=
    (h.lane X).quiet hq (by simp [view, World.note]) rfl rfl
      fun _ => Int.le_refl _
  refine ⟨fun Y => ?_, fun Y role th hth => ?_⟩
  · by_cases hY : Y = X
    · subst hY
      exact hinv
    · rw [setThread_world, view_note_of_ne hY]
      exact h.lane Y
  · rw [setThread_threads] at hth
    split at hth
    · next hYr =>
        obtain ⟨rfl, rfl⟩ := hYr
        cases hth
        refine program_keeps fun sweep hsweep hρ => ?_
        subst hsweep
        exact ha hρ
    · next hYr =>
        have hold := h.thread Y role th hth
        by_cases hY : Y = X
        · subst hY
          -- the other driver: an executor entry is quiet to the poll, a poll
          -- entry opens no attempt
          cases role with
          | executor =>
              cases entry with
              | execute => exact absurd ⟨rfl, rfl⟩ hYr
              | recover => exact absurd ⟨rfl, rfl⟩ hYr
              | poll sweep =>
                  exact hold.later (Later.of_still (still_note ⟨rfl, rfl, rfl⟩ rfl)
                    (h.lane Y))
          | monitor =>
              obtain ⟨sweep, hc, hs⟩ := hold
              refine ⟨sweep, hc, hs.stable MonLater.trans
                (fun _ _ => trivial) ?_⟩
              exact { monLater_refl (h.lane Y) with
                log := ⟨[.began entry], by simp [view, World.note], by
                  simp [Event.taskRead]⟩
                inv := hinv }
        · rw [setThread_world, view_note_of_ne hY]
          exact hold

theorem Inv.crash (h : Inv ρ s) :
    Inv ρ ⟨s.world.crash, fun _ _ => none⟩ where
  lane := fun X => (h.lane X).crash
  thread := fun X role th hth => by cases hth

/-- Every step of the fleet keeps the invariant and moves each operation along
the matrix. -/
theorem Inv.step (h : Inv ρ s) (hs : Step ρ posture s t) :
    Inv ρ t ∧ ∀ X, Advance ρ (view s.world X) (view t.world X) := by
  obtain ⟨l, hl, ha⟩ := hs
  cases l with
  | clock c =>
      cases hl
      exact ⟨h.of_later fun X => Later.clock (h.lane X) ha,
        fun X => .same rfl⟩
  | submit id source targets command createdAt =>
      simp only [Fleet.next] at hl
      split at hl
      · next operations hop =>
          cases hl
          exact h.submit hop rfl rfl ha
      · cases hl
  | enter X entry =>
      simp only [Fleet.next] at hl
      split at hl
      · cases hl
      · next hnone =>
          cases hl
          refine ⟨h.enter hnone ha, fun Y => .same ?_⟩
          by_cases hY : Y = X
          · subst hY
            rfl
          · rw [setThread_world, view_note_of_ne hY]
  | call X role o =>
      simp only [Fleet.next] at hl
      split at hl
      · next caller q k hth =>
          cases hl
          obtain ⟨habout, hadvance, hinv⟩ := h.call hth ha
          refine ⟨hinv, fun Y => ?_⟩
          by_cases hY : Y = X
          · subst hY
            exact hadvance
          · rw [setThread_world, perform_frame habout hY]
            exact .same rfl
      · cases hl
  | leave X role =>
      simp only [Fleet.next] at hl
      split at hl
      · cases hl
        refine ⟨⟨h.lane, fun Y role' th hth => ?_⟩, fun Y => .same rfl⟩
        rw [setThread_threads] at hth
        split at hth
        · cases hth
        · exact h.thread Y role' th hth
      · cases hl
  | crash =>
      cases hl
      exact ⟨h.crash, fun X => .same rfl⟩

theorem inv_init : Inv ρ Fleet.init where
  lane := fun X => {
    once := Nat.zero_le _
    after := trivial
    uri := fun _ hu => by cases hu
    absent := fun _ => ⟨rfl, rfl, rfl, by simp [Lost, view, Fleet.init]⟩
    present := fun _ hrow => by cases hrow }
  thread := fun _ _ _ hth => by cases hth

theorem Inv.of_reach (h : Reach (· = Fleet.init) (Step ρ posture) s) :
    Inv ρ s :=
  h.inv (by rintro _ rfl; exact inv_init) fun _ _ hs ht => (hs.step ht).1

/-! ## Runs found by evaluation -/

/-- Whether the step is one the regime allows. -/
def allows (timed truthful : Bool) (s : Fleet) : Fleet.Label → Bool
  | .clock t => timed → s.world.clock ≤ t
  | .submit _ _ _ _ createdAt => timed → createdAt ≤ s.world.clock
  | .enter _ (.poll sweep) => timed → sweep ≤ s.world.clock
  | .enter _ _ => true
  | .call X role o => match s.threads X role with
    | some ⟨caller, .call q _⟩ =>
        (timed → s.world.clock ≤ (perform X caller o q s.world).2.clock ∧
          FreshRead caller q (view s.world X)) ∧
        (truthful → TruthfulAnswer caller (view s.world X) q
          (perform X caller o q s.world).1)
    | _ => true
  | .leave _ _ => true
  | .crash => true

theorem allowed_of_allows {timed truthful : Bool} {l : Fleet.Label}
    (h : allows timed truthful s l = true) :
    Allowed ⟨timed, truthful⟩ s l := by
  cases l with
  | clock t =>
      intro (ht : timed = true)
      simpa [allows, ht] using h
  | submit id source targets command createdAt =>
      intro (ht : timed = true)
      simpa [allows, ht] using h
  | enter X entry =>
      cases entry with
      | poll sweep =>
          intro (ht : timed = true)
          simpa [allows, ht] using h
      | execute => trivial
      | recover => trivial
  | call X role o =>
      intro caller q k hth
      simp only [allows, hth] at h
      exact of_decide_eq_true h
  | leave X role => trivial
  | crash => trivial

/-- One step, refused where the regime does not allow it. -/
def nextAllowed (timed truthful : Bool) (posture : Executor.Posture)
    (s : Fleet) (l : Fleet.Label) : Option Fleet :=
  if allows timed truthful s l then Fleet.next posture s l else none

theorem step_of_nextAllowed {timed truthful : Bool}
    (h : Next (nextAllowed timed truthful posture) s t) :
    Step ⟨timed, truthful⟩ posture s t := by
  obtain ⟨l, hl⟩ := h
  simp only [nextAllowed] at hl
  split at hl
  · next ha => exact ⟨l, hl, allowed_of_allows ha⟩
  · cases hl

end Rutilus.Proofs.Fleet
