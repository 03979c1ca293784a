import Rutilus.App.EventListener
import Mathlib.Algebra.Order.Ring.Nat

/-!
# The reconnect budget of a listener

A cycle is an open that failed, or a stream from its open to its end. The budget is
meant for consecutive cycles without an event. The count starts over with every event,
but the end of a stream adds to it whether the stream delivered anything or not. So the
count is that of the cycles without an event as long as no such cycle follows the end of
a stream that delivered; after one it is one ahead, the waits are those of the next step
and the endpoint is given up one cycle early. Each event is recorded as soon as it is
delivered, and no stop comes between.
-/

namespace Rutilus.Proofs.ListenerBudget

open Rutilus.App.EventListener

variable {policy : ReconnectPolicy} {Handle Event : Type}

/-! ## The waits -/

theorem min_getD_checkedMul (duration : Nat) :
    min ((checkedMul duration policy.factor).getD policy.maxInterval)
        policy.maxInterval =
      min (duration * policy.factor) policy.maxInterval := by
  unfold checkedMul
  split
  · rfl
  · next hlong =>
      have hmax : policy.maxInterval ≤ duration * policy.factor :=
        le_trans policy.max_fits (le_of_not_ge hlong)
      rw [Option.getD_none, min_self, min_eq_right hmax]

theorem delayLoop_eq (hfactor : 1 ≤ policy.factor) {n duration : Nat}
    (hle : duration ≤ policy.maxInterval) :
    delayLoop policy n duration =
      min (duration * policy.factor ^ n) policy.maxInterval := by
  induction n generalizing duration with
  | zero => rw [delayLoop, pow_zero, mul_one, min_eq_left hle]
  | succ n ih =>
      have hpow : 1 ≤ policy.factor ^ n := Nat.one_le_pow _ _ hfactor
      rw [delayLoop]
      split
      · rw [min_getD_checkedMul, ih (min_le_right _ _), pow_succ', ← mul_assoc]
        rcases le_total (duration * policy.factor) policy.maxInterval with h | h
        · rw [min_eq_left h]
        · have hmul : policy.maxInterval ≤
              duration * policy.factor * policy.factor ^ n :=
            le_trans h (Nat.le_mul_of_pos_right _ hpow)
          rw [min_eq_right h, min_eq_right hmul,
            min_eq_right (Nat.le_mul_of_pos_right _ hpow)]
      · next hmax =>
          have heq : duration = policy.maxInterval := le_antisymm hle (not_lt.mp hmax)
          rw [heq, min_eq_right (Nat.le_mul_of_pos_right _
            (Nat.one_le_pow _ _ hfactor))]

/-- The waits grow by the factor up to the longest one. -/
theorem delay_eq (hbase : policy.baseInterval ≤ policy.maxInterval)
    (hfactor : 1 ≤ policy.factor) (failures : Nat) :
    delay policy failures =
      min (policy.baseInterval * policy.factor ^ (failures - 1)) policy.maxInterval :=
  delayLoop_eq hfactor hbase

/-! ## Steps -/

/-- What one answer does to a task. -/
inductive Moves (policy : ReconnectPolicy) :
    Task Handle Event → Outcome Handle Event → Task Handle Event → Prop where
  | stopOpen {n status} : Moves policy ⟨.openStream, n, status⟩ .stopped
      ⟨.returned, n, status⟩
  | opened {n status stream} : Moves policy ⟨.openStream, n, status⟩ (.opened stream)
      ⟨.pull stream, n, status⟩
  | openFailed {n status} : Moves policy ⟨.openStream, n, status⟩ .openFailed
      (reconnectWait policy ⟨.openStream, n, status⟩)
  | stopPull {n status stream} : Moves policy ⟨.pull stream, n, status⟩ .stopped
      ⟨.close stream, n, status⟩
  | delivered {n status stream event} : Moves policy ⟨.pull stream, n, status⟩
      (.delivered event) ⟨.ingest stream event, 0, status⟩
  | lost {n status stream outcome} (h : outcome = .ended ∨ outcome = .pullFailed) :
      Moves policy ⟨.pull stream, n, status⟩ outcome
        (reconnectWait policy ⟨.pull stream, n, status⟩)
  | recorded {n status stream event outcome}
      (h : outcome = .recorded ∨ outcome = .recordFailed) :
      Moves policy ⟨.ingest stream event, n, status⟩ outcome ⟨.pull stream, n, status⟩
  | closed {n status stream} : Moves policy ⟨.close stream, n, status⟩ .closed
      ⟨.returned, n, status⟩
  | stopSleep {n status delay} : Moves policy ⟨.sleep delay, n, status⟩ .stopped
      ⟨.returned, n, status⟩
  | elapsed {n status delay} : Moves policy ⟨.sleep delay, n, status⟩ .elapsed
      ⟨.openStream, n, status⟩

theorem step_moves {t t' : Task Handle Event} {outcome : Outcome Handle Event}
    (h : step policy t outcome = some t') : Moves policy t outcome t' := by
  obtain ⟨awaiting, n, status⟩ := t
  cases awaiting with
  | openStream =>
      cases outcome <;> cases h
      · exact .stopOpen
      · exact .opened
      · exact .openFailed
  | pull stream =>
      cases outcome <;> cases h
      · exact .stopPull
      · exact .delivered
      · exact .lost (.inl rfl)
      · exact .lost (.inr rfl)
  | ingest stream event =>
      cases outcome <;> cases h
      · exact .recorded (.inl rfl)
      · exact .recorded (.inr rfl)
  | close stream =>
      cases outcome <;> cases h
      exact .closed
  | sleep delay =>
      cases outcome <;> cases h
      · exact .stopSleep
      · exact .elapsed
  | returned => cases outcome <;> cases h

theorem reconnectWait_cases (policy : ReconnectPolicy) (t : Task Handle Event) :
    (policy.maxAttempts ≤ t.consecutiveFailures + 1 ∧
      reconnectWait policy t =
        ⟨.returned, t.consecutiveFailures + 1, .failed (giveUpReason policy)⟩) ∨
    (t.consecutiveFailures + 1 < policy.maxAttempts ∧
      reconnectWait policy t =
        ⟨.sleep (delay policy (t.consecutiveFailures + 1)), t.consecutiveFailures + 1,
          t.status⟩) := by
  unfold reconnectWait
  dsimp only
  split
  · next hspent => exact .inl ⟨hspent, rfl⟩
  · next hleft => exact .inr ⟨not_le.mp hleft, rfl⟩

/-! ## Events -/

/-- The events the pulls delivered, in order. -/
def deliveredEvents (history : History Handle Event) : List Event :=
  history.filterMap fun
    | (_, .delivered event) => some event
    | _ => none

/-- The events whose record was called and answered, in order. -/
def ingestedEvents (history : History Handle Event) : List Event :=
  history.filterMap fun
    | (.ingest _ event, _) => some event
    | _ => none

/-- The event that is being recorded. -/
def inFlight (t : Task Handle Event) : List Event :=
  match t.awaiting with
  | .ingest _ event => [event]
  | _ => []

theorem inFlight_reconnectWait (t : Task Handle Event) :
    inFlight (reconnectWait policy t) = [] := by
  rcases reconnectWait_cases policy t with ⟨-, h⟩ | ⟨-, h⟩ <;> rw [h] <;> rfl

theorem moves_events {t t' : Task Handle Event} {outcome : Outcome Handle Event}
    (h : Moves policy t outcome t') :
    inFlight t ++ deliveredEvents [(t.awaiting, outcome)] =
      ingestedEvents [(t.awaiting, outcome)] ++ inFlight t' := by
  cases h with
  | openFailed => rw [inFlight_reconnectWait]; rfl
  | lost hend =>
      rw [inFlight_reconnectWait]
      rcases hend with rfl | rfl <;> rfl
  | recorded hrecord => rcases hrecord with rfl | rfl <;> rfl
  | _ => rfl

/-- What is delivered is recorded in order, each event once, and no stop is the answer
of a record. -/
theorem events_recorded {history : History Handle Event} {t : Task Handle Event}
    (h : Run policy history t) :
    deliveredEvents history = ingestedEvents history ++ inFlight t ∧
      ∀ stream event, (Await.ingest stream event, Outcome.stopped) ∉ history := by
  induction h with
  | start => exact ⟨rfl, fun _ _ => List.not_mem_nil⟩
  | @step history t t' outcome _ hstep ih =>
      obtain ⟨hevents, hstop⟩ := ih
      have hmoves := step_moves hstep
      constructor
      · calc deliveredEvents (history ++ [(t.awaiting, outcome)])
            = deliveredEvents history ++ deliveredEvents [(t.awaiting, outcome)] :=
              List.filterMap_append
          _ = ingestedEvents history ++
                (inFlight t ++ deliveredEvents [(t.awaiting, outcome)]) := by
              rw [hevents, List.append_assoc]
          _ = (ingestedEvents history ++ ingestedEvents [(t.awaiting, outcome)]) ++
                inFlight t' := by
              rw [moves_events hmoves, List.append_assoc]
          _ = ingestedEvents (history ++ [(t.awaiting, outcome)]) ++ inFlight t' :=
              congrArg (· ++ inFlight t') List.filterMap_append.symm
      · intro stream event hmem
        rcases List.mem_append.mp hmem with hmem | hmem
        · exact hstop stream event hmem
        · obtain ⟨hawait, hout⟩ := Prod.mk.inj (List.mem_singleton.mp hmem)
          cases hmoves with
          | recorded hrecord => rcases hrecord with rfl | rfl <;> cases hout
          | _ => cases hawait

/-! ## Cycles without an event -/

/-- The cycles of a run so far: how many without an event came last, whether the present
stream delivered, and whether a stream that delivered has ended. -/
structure Tally where
  eventless : Nat
  delivering : Bool
  lost : Bool

def Tally.zero : Tally := ⟨0, false, false⟩

def Tally.advance (y : Tally) : Outcome Handle Event → Tally
  | .opened _ => { y with delivering := false }
  | .openFailed => { y with eventless := y.eventless + 1, delivering := false }
  | .delivered _ => { y with eventless := 0, delivering := true }
  | .ended | .pullFailed =>
      if y.delivering then { y with delivering := false, lost := true }
      else { y with eventless := y.eventless + 1, delivering := false }
  | _ => y

/-- The tally of a run. -/
def tally (history : History Handle Event) : Tally :=
  history.foldl (fun y answered => y.advance answered.2) .zero

/-- An answer that ends no cycle without an event after the end of a stream that
delivered, nor ends such a stream where the budget is one cycle. -/
def Tally.Steady (policy : ReconnectPolicy) (y : Tally) : Outcome Handle Event → Prop
  | .openFailed => y.lost = false
  | .ended | .pullFailed =>
      if y.delivering then 1 < policy.maxAttempts else y.lost = false
  | _ => True

/-- Answers that are steady one after the other. -/
def SteadyFrom (policy : ReconnectPolicy) : Tally → History Handle Event → Prop
  | _, [] => True
  | y, answered :: history =>
      y.Steady policy answered.2 ∧ SteadyFrom policy (y.advance answered.2) history

/-- A run of such answers. -/
def Steady (policy : ReconnectPolicy) (history : History Handle Event) : Prop :=
  SteadyFrom policy .zero history

theorem tally_append (history : History Handle Event)
    (answered : Await Handle Event × Outcome Handle Event) :
    tally (history ++ [answered]) = (tally history).advance answered.2 :=
  List.foldl_append

theorem steadyFrom_append {y : Tally} {history : History Handle Event}
    {answered : Await Handle Event × Outcome Handle Event} :
    SteadyFrom policy y (history ++ [answered]) ↔
      SteadyFrom policy y history ∧
        (history.foldl (fun y answered => y.advance answered.2) y).Steady policy
          answered.2 := by
  induction history generalizing y with
  | nil => exact ⟨fun h => ⟨trivial, h.1⟩, fun h => ⟨h.2, trivial⟩⟩
  | cons first history ih =>
      rw [List.cons_append, SteadyFrom, SteadyFrom, ih, List.foldl_cons, and_assoc]

/-- What the count of a task and the tally of its run say about one another. -/
inductive Agrees (policy : ReconnectPolicy) (y : Tally) (t : Task Handle Event) :
    Prop where
  | listening (hstatus : t.status = .listening)
      (hbudget : y.eventless < policy.maxAttempts)
      (hcount : y.lost = false → t.consecutiveFailures = y.eventless)
      (hlost : y.lost = true → y.eventless = 0)
      (hdelivering : y.delivering = true → t.consecutiveFailures = 0 ∧ y.eventless = 0)
      (hwait : ∀ d, t.awaiting = .sleep d → 0 < y.eventless →
        d = delay policy y.eventless)
  | failed (hstatus : ∃ reason, t.status = .failed reason)
      (hbudget : y.eventless = policy.maxAttempts) (hawait : t.awaiting = .returned)

/-- A cycle without an event that the task counts as the tally does. -/
theorem agrees_eventless {y : Tally} {t : Task Handle Event}
    (hstatus : t.status = .listening) (hbudget : y.eventless < policy.maxAttempts)
    (hcount : t.consecutiveFailures = y.eventless) (hlost : y.lost = false) :
    Agrees policy { y with eventless := y.eventless + 1, delivering := false }
      (reconnectWait policy t) := by
  rcases reconnectWait_cases policy t with ⟨hspent, h⟩ | ⟨hleft, h⟩
  · rw [h]
    rw [hcount] at hspent
    exact .failed ⟨_, rfl⟩ (le_antisymm hbudget hspent) rfl
  · rw [h, hcount]
    rw [hcount] at hleft
    refine .listening hstatus hleft (fun _ => rfl) ?_ nofun ?_
    · exact fun h => absurd (hlost.symm.trans h) Bool.false_ne_true
    · intro d hd _
      cases hd
      rfl

theorem moves_agrees {y : Tally} {t t' : Task Handle Event}
    {outcome : Outcome Handle Event} (hagrees : Agrees policy y t)
    (hsteady : y.Steady policy outcome) (h : Moves policy t outcome t') :
    Agrees policy (y.advance outcome) t' := by
  cases hagrees with
  | failed hstatus hbudget hawait => cases h <;> cases hawait
  | listening hstatus hbudget hcount hlost hdelivering hwait =>
      cases h with
      | opened =>
          exact .listening hstatus hbudget hcount hlost nofun nofun
      | openFailed => exact agrees_eventless hstatus hbudget (hcount hsteady) hsteady
      | delivered =>
          exact .listening hstatus (Nat.zero_lt_of_lt hbudget) (fun _ => rfl)
            (fun _ => rfl) (fun _ => ⟨rfl, rfl⟩) nofun
      | @lost n status stream outcome hend =>
          have hadvance : y.advance outcome =
              y.advance (.ended : Outcome Handle Event) := by
            rcases hend with rfl | rfl <;> rfl
          have hsteady : y.Steady policy (.ended : Outcome Handle Event) := by
            rcases hend with rfl | rfl <;> exact hsteady
          rw [hadvance]
          cases hdelivered : y.delivering with
          | false =>
              have hlost : y.lost = false := by
                simpa [Tally.Steady, hdelivered] using hsteady
              have hadvanced := agrees_eventless hstatus hbudget (hcount hlost) hlost
              simpa [Tally.advance, hdelivered] using hadvanced
          | true =>
              -- the end of a stream that delivered is counted as the first failure
              have hmany : 1 < policy.maxAttempts := by
                simpa [Tally.Steady, hdelivered] using hsteady
              obtain ⟨hzero, hnone⟩ := hdelivering hdelivered
              have hadvanced : y.advance (.ended : Outcome Handle Event) =
                  { y with delivering := false, lost := true } := by
                simp [Tally.advance, hdelivered]
              rw [hadvanced]
              rcases reconnectWait_cases policy ⟨.pull stream, n, status⟩ with
                ⟨hspent, -⟩ | ⟨-, h⟩
              · exact absurd (hzero ▸ hspent : policy.maxAttempts ≤ 0 + 1)
                  (Nat.not_le.mpr hmany)
              · rw [h]
                refine .listening hstatus hbudget nofun (fun _ => hnone) nofun ?_
                exact fun _ _ hpos => absurd hpos (hnone ▸ Nat.lt_irrefl 0)
      | recorded hrecord =>
          rcases hrecord with rfl | rfl
          · exact .listening hstatus hbudget hcount hlost hdelivering nofun
          · exact .listening hstatus hbudget hcount hlost hdelivering nofun
      | _ => exact .listening hstatus hbudget hcount hlost hdelivering nofun

theorem run_agrees (hattempts : 1 ≤ policy.maxAttempts)
    {history : History Handle Event} {t : Task Handle Event} (h : Run policy history t)
    (hsteady : Steady policy history) : Agrees policy (tally history) t := by
  induction h with
  | start => exact .listening rfl hattempts (fun _ => rfl) nofun nofun nofun
  | step _ hstep ih =>
      obtain ⟨hbefore, hlast⟩ := steadyFrom_append.mp hsteady
      rw [tally_append]
      exact moves_agrees (ih hbefore) hlast (step_moves hstep)

/-- In a run where no cycle without an event comes after the end of a stream that
delivered, nor such an end where the budget is one cycle: the endpoint is marked as
failed exactly when the cycles without an event have reached the budget, the wait after
each of them is the base multiplied so often by the factor, up to the longest wait, and
every delivered event is recorded once before a stop is obeyed. -/
theorem reconnect_budget (hbase : policy.baseInterval ≤ policy.maxInterval)
    (hfactor : 1 ≤ policy.factor) (hattempts : 1 ≤ policy.maxAttempts)
    {history : History Handle Event} {t : Task Handle Event} (h : Run policy history t)
    (hsteady : Steady policy history) :
    ((∃ reason, t.status = .failed reason) ↔
        (tally history).eventless = policy.maxAttempts) ∧
      (tally history).eventless ≤ policy.maxAttempts ∧
      (∀ failures, delay policy failures =
        min (policy.baseInterval * policy.factor ^ (failures - 1))
          policy.maxInterval) ∧
      (∀ wait, t.awaiting = .sleep wait → 0 < (tally history).eventless →
        wait = delay policy (tally history).eventless) ∧
      deliveredEvents history = ingestedEvents history ++ inFlight t ∧
      ∀ stream event, (Await.ingest stream event, Outcome.stopped) ∉ history := by
  obtain ⟨hevents, hstops⟩ := events_recorded h
  cases run_agrees hattempts h hsteady with
  | listening hstatus hbudget hcount hlost hdelivering hwait =>
      refine ⟨⟨?_, fun heq => absurd heq (Nat.ne_of_lt hbudget)⟩, le_of_lt hbudget,
        delay_eq hbase hfactor, hwait, hevents, hstops⟩
      rintro ⟨reason, hfailed⟩
      cases hstatus.symm.trans hfailed
  | failed hstatus hbudget hawait =>
      refine ⟨⟨fun _ => hbudget, fun _ => hstatus⟩, le_of_eq hbudget,
        delay_eq hbase hfactor, ?_, hevents, hstops⟩
      intro wait hsleep
      cases hawait.symm.trans hsleep

/-! A budget of three cycles that wait one, two and four, and an endpoint that is not
reached. -/

def threeAttempts : ReconnectPolicy := ⟨1, 2, 4, 3, by decide⟩

def unreachable : History Nat Nat :=
  [(.openStream, .openFailed), (.sleep 1, .elapsed), (.openStream, .opened 0),
    (.pull 0, .pullFailed), (.sleep 2, .elapsed), (.openStream, .openFailed)]

def givenUp : Task Nat Nat := ⟨.returned, 3, .failed (giveUpReason threeAttempts)⟩

theorem unreachable_given_up :
    (∃ reason, givenUp.status = .failed reason) ∧ delay threeAttempts 2 = 2 := by
  have hrun : Run threeAttempts unreachable givenUp :=
    run_of_follow [.openFailed, .elapsed, .opened 0, .pullFailed, .elapsed, .openFailed]
      rfl
  obtain ⟨hfailed, -, hdelay, -⟩ :=
    reconnect_budget (by decide) (by decide) (by decide) hrun
      ⟨rfl, trivial, trivial, rfl, trivial, rfl, trivial⟩
  exact ⟨hfailed.mpr rfl, hdelay 2⟩

/-- A stream delivers an event and ends, and the next open fails. -/
theorem given_up_one_cycle_early :
    ∃ (history : History Nat Nat) (t : Task Nat Nat),
      Run ⟨1, 2, 4, 2, by decide⟩ history t ∧
        (∃ reason, t.status = .failed reason) ∧ (tally history).eventless = 1 :=
  ⟨_, _, run_of_follow [.opened 0, .delivered 7, .recorded, .ended, .elapsed,
    .openFailed] rfl, ⟨_, rfl⟩, rfl⟩

end Rutilus.Proofs.ListenerBudget
