import Rutilus.Proofs.ListenerBudget

/-!
# The handles of the event streams

A handle that was opened is closed where a stop ends its pulls, once, and the task ends
there. A stream that has ended or failed is over without it: the pull that answers so is
the last call on its handle, and the next call is the backoff or none.
-/

namespace Rutilus.Proofs.StreamHandles

open Rutilus.App.EventListener Rutilus.Proofs.ListenerBudget

variable {policy : ReconnectPolicy} {Handle Event : Type} [DecidableEq Handle]

/-- Whether the call closes the stream. -/
def closes (stream : Handle) : Await Handle Event → Bool
  | .close other => other = stream
  | _ => false

/-- How often the stream is closed in these calls. -/
def closeCalls (stream : Handle) (calls : History Handle Event) : Nat :=
  calls.countP fun answered => closes stream answered.1

omit [DecidableEq Handle] in
/-- A stop ended the pulls. -/
def StoppedAt (stream : Handle) (calls : History Handle Event) : Prop :=
  (Await.pull stream, Outcome.stopped) ∈ calls

omit [DecidableEq Handle] in
/-- The stream ended or failed. -/
def EndedAt (stream : Handle) (calls : History Handle Event) : Prop :=
  (Await.pull stream, Outcome.ended) ∈ calls ∨
    (Await.pull stream, Outcome.pullFailed) ∈ calls

/-- What has become of a stream in the calls since it was opened. -/
structure Fate (stream : Handle) (calls : History Handle Event) (closed : Nat)
    (stopped ended : Prop) : Prop where
  closed_eq : closeCalls stream calls = closed
  stopped_iff : StoppedAt stream calls ↔ stopped
  ended_iff : EndedAt stream calls ↔ ended

/-- Where the task stands after the calls since a stream was opened. -/
inductive Since (stream : Handle) (calls : History Handle Event) :
    Await Handle Event → Prop where
  | pulling (h : Fate stream calls 0 False False) : Since stream calls (.pull stream)
  | recording {event} (h : Fate stream calls 0 False False) :
      Since stream calls (.ingest stream event)
  | closing (h : Fate stream calls 0 True False) : Since stream calls (.close stream)
  | closed (h : Fate stream calls 1 True False) : Since stream calls .returned
  | waiting {delay} (h : Fate stream calls 0 False True) :
      Since stream calls (.sleep delay)
  | reopening (h : Fate stream calls 0 False True) : Since stream calls .openStream
  | finished (h : Fate stream calls 0 False True) : Since stream calls .returned

variable {stream : Handle} {calls : History Handle Event} {closed : Nat}
  {stopped ended : Prop}

/-- One more call, with what it adds. -/
theorem Fate.append (h : Fate stream calls closed stopped ended)
    (awaiting : Await Handle Event) (outcome : Outcome Handle Event) :
    Fate stream (calls ++ [(awaiting, outcome)])
      (closed + if closes stream awaiting then 1 else 0)
      (stopped ∨ awaiting = .pull stream ∧ outcome = .stopped)
      (ended ∨ awaiting = .pull stream ∧
        (outcome = .ended ∨ outcome = .pullFailed)) := by
  refine ⟨?_, ?_, ?_⟩
  · unfold closeCalls
    rw [List.countP_append, List.countP_singleton]
    exact congrArg (· + _) h.closed_eq
  · rw [← h.stopped_iff]
    unfold StoppedAt
    simp [eq_comm]
  · rw [← h.ended_iff]
    unfold EndedAt
    simp [eq_comm]
    tauto

/-- One more answered call, other than an open. -/
theorem Since.moves {t t' : Task Handle Event} {outcome : Outcome Handle Event}
    (h : Since stream calls t.awaiting) (hmoves : Moves policy t outcome t')
    (hopen : t.awaiting ≠ .openStream) :
    Since stream (calls ++ [(t.awaiting, outcome)]) t'.awaiting := by
  cases hmoves with
  | stopOpen | opened | openFailed => exact absurd rfl hopen
  | stopPull =>
      cases h with
      | pulling h =>
          exact .closing (by simpa [closes] using h.append (.pull stream) .stopped)
  | @delivered _ _ _ event =>
      cases h with
      | pulling h =>
          exact .recording
            (by simpa [closes] using h.append (.pull stream) (.delivered event))
  | @lost n status _ outcome hend =>
      cases h with
      | pulling h =>
          have hover :
              Fate stream (calls ++ [(.pull stream, outcome)]) 0 False True := by
            rcases hend with rfl | rfl
            · simpa [closes] using h.append (.pull stream) .ended
            · simpa [closes] using h.append (.pull stream) .pullFailed
          rcases reconnectWait_cases policy ⟨.pull stream, n, status⟩ with
            ⟨-, h⟩ | ⟨-, h⟩
          · rw [h]
            exact .finished hover
          · rw [h]
            exact .waiting hover
  | @recorded _ _ _ event outcome _ =>
      cases h with
      | recording h =>
          exact .pulling
            (by simpa [closes] using h.append (.ingest stream event) outcome)
  | closed =>
      cases h with
      | closing h =>
          exact .closed (by simpa [closes] using h.append (.close stream) .closed)
  | @stopSleep _ _ wait =>
      cases h with
      | waiting h =>
          exact .finished (by simpa [closes] using h.append (.sleep wait) .stopped)
  | @elapsed _ _ wait =>
      cases h with
      | waiting h =>
          exact .reopening (by simpa [closes] using h.append (.sleep wait) .elapsed)

/-- What was called since a stream was opened, if no stream was opened after it. -/
theorem run_since {history : History Handle Event} {t : Task Handle Event}
    (h : Run policy history t) {before after : History Handle Event}
    (hopen : history = before ++ (.openStream, .opened stream) :: after)
    (hlast : ∀ answered ∈ after, answered.1 ≠ .openStream) :
    Since stream after t.awaiting := by
  induction h generalizing after with
  | start => cases before <;> cases hopen
  | @step history t t' outcome _ hstep ih =>
      rcases List.eq_nil_or_concat after with rfl | ⟨earlier, answered, rfl⟩
      · obtain ⟨-, hanswered⟩ := List.append_inj' hopen rfl
        obtain ⟨hawait, rfl⟩ := Prod.mk.inj (List.cons.inj hanswered).1
        cases step_moves hstep with
        | opened => exact .pulling ⟨rfl, by simp [StoppedAt], by simp [EndedAt]⟩
        | lost hend => rcases hend with heq | heq <;> cases heq
        | recorded hrecord => rcases hrecord with heq | heq <;> cases heq
      · have hsplit : history ++ [(t.awaiting, outcome)] =
            (before ++ (.openStream, .opened stream) :: earlier) ++ [answered] := by
          rw [hopen]
          simp
        obtain ⟨hhistory, hanswered⟩ := List.append_inj' hsplit rfl
        obtain rfl := (List.cons.inj hanswered).1
        have hsince := ih hhistory fun other hother =>
          hlast other (by simp [hother])
        have hmore : t.awaiting ≠ .openStream := hlast (t.awaiting, outcome) (by simp)
        have hnext := hsince.moves (step_moves hstep) hmore
        rwa [List.concat_eq_append]

/-- Between an open and the next one, or the end of the task, either a stop ended the
pulls of the stream and it was closed once, or it ended or failed and was not closed. -/
theorem stopped_streams_closed {history : History Handle Event} {t : Task Handle Event}
    (h : Run policy history t)
    (hdue : t.awaiting = .openStream ∨ t.awaiting = .returned)
    {before after : History Handle Event}
    (hopen : history = before ++ (.openStream, .opened stream) :: after)
    (hlast : ∀ answered ∈ after, answered.1 ≠ .openStream) :
    StoppedAt stream after ∧ ¬ EndedAt stream after ∧ closeCalls stream after = 1 ∨
      EndedAt stream after ∧ ¬ StoppedAt stream after ∧
        closeCalls stream after = 0 := by
  have hsince := run_since h hopen hlast
  revert hsince hdue
  generalize t.awaiting = awaiting
  intro hdue hsince
  cases hsince with
  | pulling | recording | closing | waiting => rcases hdue with heq | heq <;> cases heq
  | closed h =>
      exact .inl ⟨h.stopped_iff.mpr trivial, h.ended_iff.mp, h.closed_eq⟩
  | reopening h | finished h =>
      exact .inr ⟨h.ended_iff.mpr trivial, h.stopped_iff.mp, h.closed_eq⟩

/-! A stream is stopped, and one ends. -/

theorem four_fits : 4 ≤ durationMax := by
  decide

def patient : ReconnectPolicy := ⟨1, 2, 4, 3, four_fits⟩

def untilStop : History Nat Nat :=
  [(.pull 5, .delivered 7), (.ingest 5 7, .recorded), (.pull 5, .stopped),
    (.close 5, .closed)]

theorem stopped_stream_closed :
    StoppedAt 5 untilStop ∧ ¬ EndedAt 5 untilStop ∧ closeCalls 5 untilStop = 1 := by
  have hrun : Run patient ((.openStream, .opened 5) :: untilStop)
      (⟨.returned, 0, .listening⟩ : Task Nat Nat) :=
    run_of_follow [.opened 5, .delivered 7, .recorded, .stopped, .closed] rfl
  have hopen : (Await.openStream, Outcome.opened 5) :: untilStop =
      [] ++ (.openStream, .opened 5) :: untilStop := rfl
  rcases stopped_streams_closed hrun (.inr rfl) hopen (by simp [untilStop]) with
    hstopped | ⟨-, hnot, -⟩
  · exact hstopped
  · exact absurd (by simp [StoppedAt, untilStop]) hnot

/-- The stream ends, and the next one is opened while it was not closed. -/
theorem ended_stream_not_closed :
    Run patient [(.openStream, .opened 5), (.pull 5, .ended), (.sleep 1, .elapsed)]
        (⟨.openStream, 1, .listening⟩ : Task Nat Nat) ∧
      closeCalls 5 ([(.pull 5, .ended), (.sleep 1, .elapsed)] : History Nat Nat) = 0 :=
  ⟨run_of_follow [.opened 5, .ended, .elapsed] rfl, rfl⟩

end Rutilus.Proofs.StreamHandles
