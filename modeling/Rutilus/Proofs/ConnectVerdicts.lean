import Mathlib.Algebra.Group.Nat.Defs
import Rutilus.App.ConnectLoop

/-!
# Which refusals end the connect loop

The two counters follow the outcomes that have come: each is the number of refusals
with its verdict since the last success or refusal with the other one, and while the
loop goes on neither has reached its limit. So the loop ends exactly where a count
reaches its limit, with the verdict that was counted.
-/

namespace Rutilus.Proofs.ConnectVerdicts

open Rutilus.App.ConnectLoop

variable {ε δ : Type} {transport : CenterTransport ε} {options : CenterSyncOptions}
  {verdict : Verdict} {history : List ConnectOutcome} {counters : Counters}

/-! ### Counting the outcomes -/

theorem refusalsSince_nil : refusalsSince verdict [] = 0 := rfl

theorem refusalsSince_refused :
    refusalsSince verdict (history ++ [.refused verdict]) =
      refusalsSince verdict history + 1 := by
  simp [refusalsSince]

theorem refusalsSince_other :
    refusalsSince verdict (history ++ [.other]) = refusalsSince verdict history := by
  simp [refusalsSince]

theorem refusalsSince_success :
    refusalsSince verdict (history ++ [.success]) = 0 := by
  simp [refusalsSince]

theorem refusalsSince_different {verdict' : Verdict} (h : verdict' ≠ verdict) :
    refusalsSince verdict (history ++ [.refused verdict']) = 0 := by
  simp [refusalsSince, h]

theorem atLimit_concat {outcome : ConnectOutcome} :
    AtLimit options verdict (history ++ [outcome]) ↔ outcome = .refused verdict ∧
      ∃ limit, options.limit verdict = some limit ∧
        refusalsSince verdict history + 1 = limit.toNat := by
  unfold AtLimit
  rw [List.getLast?_concat, Option.some.injEq]
  constructor
  · rintro ⟨rfl, limit, hlimit, hcount⟩
    exact ⟨rfl, limit, hlimit, by rw [← refusalsSince_refused, hcount]⟩
  · rintro ⟨rfl, limit, hlimit, hcount⟩
    exact ⟨rfl, limit, hlimit, by rw [refusalsSince_refused, hcount]⟩

/-! ### One counter -/

/-- A counter that stands for a count below its limit. Without a limit the counter may
have wrapped around. -/
structure Tally (limit : Option UInt64) (counter : UInt64) (n : Nat) : Prop where
  counts : counter.toNat = n % 2 ^ 64
  below : ∀ l, limit = some l → n < l.toNat

theorem Tally.zero {limit : Option UInt64} (h : ∀ l, limit = some l → 1 ≤ l) :
    Tally limit 0 0 := by
  refine ⟨rfl, fun l hl => ?_⟩
  exact UInt64.le_iff_toNat_le.mp (h l hl)

section

variable {limit : Option UInt64} {counter : UInt64} {n : Nat}

theorem Tally.succ_counts (h : Tally limit counter n) :
    (counter + 1).toNat = (n + 1) % 2 ^ 64 := by
  rw [UInt64.toNat_add, h.counts]
  simp

theorem Tally.reaches_iff (h : Tally limit counter n) :
    reaches limit (counter + 1) = true ↔ ∃ l, limit = some l ∧ n + 1 = l.toNat := by
  cases limit with
  | none => simp [reaches]
  | some l =>
      have hn := h.below l rfl
      have hl : l.toNat < 2 ^ 64 := l.toNat_lt
      have hsucc : (counter + 1).toNat = n + 1 := by
        rw [h.succ_counts]
        exact Nat.mod_eq_of_lt (Nat.lt_of_le_of_lt hn hl)
      simp only [reaches, decide_eq_true_eq, Option.some.injEq, exists_eq_left',
        UInt64.le_iff_toNat_le, hsucc]
      omega

theorem Tally.succ (h : Tally limit counter n)
    (hlimit : ¬reaches limit (counter + 1) = true) :
    Tally limit (counter + 1) (n + 1) := by
  refine ⟨h.succ_counts, fun l hl => ?_⟩
  have hn := h.below l hl
  have hne : n + 1 ≠ l.toNat := fun heq => hlimit (h.reaches_iff.mpr ⟨l, hl, heq⟩)
  omega

end

/-! ### The invariant of the loop -/

/-- The counters stand for what was counted, below the limits. -/
structure Tracks (options : CenterSyncOptions) (history : List ConnectOutcome)
    (counters : Counters) : Prop where
  notBound : Tally options.notBoundAbortAfter counters.consecutiveNotBound
    (refusalsSince .notBound history)
  identityMismatch : Tally options.identityMismatchAbortAfter
    counters.consecutiveIdentityMismatch (refusalsSince .identityMismatch history)

/-- What the loop has come to after the outcomes so far: it goes on and no outcome was
at a limit, or the last one ended it. -/
inductive Standing (options : CenterSyncOptions) (history : List ConnectOutcome) :
    Flow → Prop where
  | running {counters : Counters} (tracks : Tracks options history counters)
      (calm : ∀ verdict, ¬AtLimit options verdict history) :
      Standing options history (.running counters)
  | finished {verdict : Verdict} (limit : AtLimit options verdict history) :
      Standing options history (.finished (.error verdict))

/-- Every limit there is counts at least one refusal. -/
def Positive (options : CenterSyncOptions) : Prop :=
  ∀ verdict limit, options.limit verdict = some limit → 1 ≤ limit

variable (hpos : Positive options)

include hpos in
theorem Tracks.zero (hzero : ∀ verdict, refusalsSince verdict history = 0) :
    Tracks options history .zero := by
  refine ⟨?_, ?_⟩
  · rw [hzero]
    exact Tally.zero (hpos .notBound)
  · rw [hzero]
    exact Tally.zero (hpos .identityMismatch)

include hpos in
theorem standing_success :
    Standing options (history ++ [.success]) (.running .zero) := by
  refine .running (.zero hpos fun verdict => refusalsSince_success) ?_
  intro verdict h
  cases (atLimit_concat.mp h).1

include hpos in
/-- A refusal with a verdict counts for it and resets the other count. -/
theorem standing_failed (htracks : Tracks options history counters) (error : ε) :
    Standing options (history ++ [transport.outcome error])
      (connectFailed transport options counters error false) := by
  unfold connectFailed CenterTransport.outcome
  split
  · dsimp only
    split
    · next hreaches =>
        exact .finished (atLimit_concat.mpr
          ⟨rfl, htracks.notBound.reaches_iff.mp hreaches⟩)
    · next hreaches =>
        refine .running ⟨?_, ?_⟩ ?_
        · rw [refusalsSince_refused]
          exact htracks.notBound.succ hreaches
        · rw [refusalsSince_different (by decide)]
          exact Tally.zero (hpos .identityMismatch)
        · intro verdict h
          obtain ⟨hverdict, hlimit⟩ := atLimit_concat.mp h
          cases hverdict
          exact hreaches (htracks.notBound.reaches_iff.mpr hlimit)
  · split
    · dsimp only
      split
      · next hreaches =>
          exact .finished (atLimit_concat.mpr
            ⟨rfl, htracks.identityMismatch.reaches_iff.mp hreaches⟩)
      · next hreaches =>
          refine .running ⟨?_, ?_⟩ ?_
          · rw [refusalsSince_different (by decide)]
            exact Tally.zero (hpos .notBound)
          · rw [refusalsSince_refused]
            exact htracks.identityMismatch.succ hreaches
          · intro verdict h
            obtain ⟨hverdict, hlimit⟩ := atLimit_concat.mp h
            cases hverdict
            exact hreaches (htracks.identityMismatch.reaches_iff.mpr hlimit)
    · refine .running ⟨?_, ?_⟩ ?_
      · rw [refusalsSince_other]
        exact htracks.notBound
      · rw [refusalsSince_other]
        exact htracks.identityMismatch
      · intro verdict h
        cases (atLimit_concat.mp h).1

include hpos in
/-- What one turn without a stop request does. -/
theorem standing_turn (htracks : Tracks options history counters) {turn : Turn ε δ}
    {outcome : ConnectOutcome} (houtcome : turn.outcome transport = some outcome) :
    Standing options (history ++ [outcome])
      (connectTurn transport options counters turn) := by
  cases turn with
  | stopped => cases houtcome
  | connected ended stopped =>
      cases ended with
      | ok u => cases houtcome
      | error e =>
          cases stopped with
          | true => cases houtcome
          | false =>
              cases houtcome
              exact standing_success hpos
  | failed error stopped =>
      cases stopped with
      | true => cases houtcome
      | false =>
          cases houtcome
          exact standing_failed hpos htracks error

/-! ### Runs of the loop -/

/-- The loop takes one more turn when it still goes on. -/
theorem connectLoop_concat (turns : List (Turn ε δ)) (turn : Turn ε δ) :
    ∀ counters, connectLoop transport options counters (turns ++ [turn]) =
      match connectLoop transport options counters turns with
      | .running counters => connectTurn transport options counters turn
      | .finished result => .finished result := by
  induction turns with
  | nil =>
      intro counters
      simp only [List.nil_append, connectLoop]
      cases connectTurn transport options counters turn <;> rfl
  | cons first turns ih =>
      intro counters
      simp only [List.cons_append, connectLoop]
      cases connectTurn transport options counters first with
      | running counters => exact ih counters
      | finished result => rfl

/-- No outcome before this position was at a limit. -/
def Calm (options : CenterSyncOptions) (history : List ConnectOutcome) (i : Nat) :
    Prop :=
  ∀ j < i, ∀ verdict, ¬AtLimit options verdict (history.take (j + 1))

theorem calm_succ {i : Nat} : Calm options history (i + 1) ↔
    Calm options history i ∧
      ∀ verdict, ¬AtLimit options verdict (history.take (i + 1)) := by
  unfold Calm
  rw [Nat.forall_lt_succ_right]

theorem calm_take {i k : Nat} (h : i ≤ k) :
    Calm options (history.take k) i ↔ Calm options history i := by
  refine forall_congr' fun j => forall_congr' fun hj => ?_
  rw [List.take_take, Nat.min_eq_left (by omega)]

theorem outcomes_concat {turns : List (Turn ε δ)} {turn : Turn ε δ}
    (h : (turns ++ [turn]).map (Turn.outcome transport) = history.map some) :
    ∃ before outcome, history = before ++ [outcome] ∧
      turns.map (Turn.outcome transport) = before.map some ∧
      turn.outcome transport = some outcome := by
  rw [List.map_append] at h
  obtain ⟨before, last, rfl, hbefore, hlast⟩ := List.map_eq_append_iff.mp h.symm
  obtain ⟨outcome, rfl, houtcome⟩ := List.map_eq_singleton_iff.mp hlast
  exact ⟨before, outcome, rfl, hbefore.symm, houtcome.symm⟩

theorem outcomes_take {turns : List (Turn ε δ)}
    (h : turns.map (Turn.outcome transport) = history.map some) (i : Nat) :
    (turns.take i).map (Turn.outcome transport) = (history.take i).map some := by
  rw [List.map_take, h, List.map_take]

include hpos in
/-- The loop goes on, and its counters stand for the outcomes, as long as no outcome was
at a limit. -/
theorem tracks_run {turns : List (Turn ε δ)} :
    ∀ {history}, turns.map (Turn.outcome transport) = history.map some →
      ((∃ counters, connectLoop transport options .zero turns = .running counters) ↔
        Calm options history history.length) ∧
      ∀ counters, connectLoop transport options .zero turns = .running counters →
        Tracks options history counters := by
  induction turns using List.reverseRecOn with
  | nil =>
      intro history h
      obtain rfl : history = [] := List.map_eq_nil_iff.mp h.symm
      refine ⟨⟨fun _ j hj => absurd hj (Nat.not_lt_zero j), fun _ => ⟨_, rfl⟩⟩, ?_⟩
      intro counters hrun
      cases hrun
      exact Tracks.zero hpos fun verdict => refusalsSince_nil
  | append_singleton turns turn ih =>
      intro history h
      obtain ⟨before, outcome, rfl, hbefore, houtcome⟩ := outcomes_concat h
      obtain ⟨hrunning, htracks⟩ := ih hbefore
      have hlength : (before ++ [outcome]).length = before.length + 1 :=
        List.length_append
      have hprefix : (before ++ [outcome]).take before.length = before :=
        List.take_left' rfl
      have hcalm : Calm options (before ++ [outcome]) before.length ↔
          Calm options before before.length := by
        rw [← calm_take (Nat.le_refl before.length), hprefix]
      rw [connectLoop_concat, hlength, calm_succ, hcalm, ← hlength, List.take_length]
      cases hloop : connectLoop transport options .zero turns with
      | finished result =>
          refine ⟨⟨?_, ?_⟩, ?_⟩
          · rintro ⟨counters, hrun⟩
            cases hrun
          · rintro ⟨hbefore, -⟩
            obtain ⟨counters, hrun⟩ := hrunning.mpr hbefore
            rw [hloop] at hrun
            cases hrun
          · intro counters hrun
            cases hrun
      | running counters =>
          have hstanding := standing_turn hpos (htracks counters hloop) houtcome
          have hbefore := hrunning.mp ⟨counters, hloop⟩
          dsimp only
          generalize connectTurn transport options counters turn = flow at hstanding ⊢
          cases hstanding with
          | running tracks calm =>
              refine ⟨⟨fun _ => ⟨hbefore, calm⟩, fun _ => ⟨_, rfl⟩⟩, ?_⟩
              intro counters' hrun
              cases hrun
              exact tracks
          | finished limit =>
              refine ⟨⟨?_, fun hcalm => absurd limit (hcalm.2 _)⟩, ?_⟩
              · rintro ⟨counters', hrun⟩
                cases hrun
              · intro counters' hrun
                cases hrun

/-- A generic failure leaves the loop as it is. -/
theorem connectTurn_other {turn : Turn ε δ} (h : turn.outcome transport = some .other) :
    connectTurn transport options counters turn = .running counters := by
  match turn, h with
  | .connected (.error _) false, h => cases h
  | .failed error false, h =>
      simp only [Turn.outcome, CenterTransport.outcome, Option.some.injEq] at h
      split at h
      · cases h
      · next hbound =>
          split at h
          · cases h
          · next hmismatch =>
              simp only [connectTurn, connectFailed]
              rw [if_neg hbound, if_neg hmismatch]
              rfl

theorem connectLoop_filter_other (turns : List (Turn ε δ)) :
    ∀ counters, connectLoop transport options counters
        (turns.filter fun turn => turn.outcome transport ≠ some .other) =
      connectLoop transport options counters turns := by
  induction turns with
  | nil => exact fun counters => rfl
  | cons turn turns ih =>
      intro counters
      by_cases hother : turn.outcome transport = some .other
      · rw [List.filter_cons_of_neg (by simpa using hother), ih]
        simp only [connectLoop, connectTurn_other hother]
      · rw [List.filter_cons_of_pos (by simpa using hother)]
        simp only [connectLoop]
        cases connectTurn transport options counters turn with
        | running counters => exact ih counters
        | finished result => rfl

/-- Where the loop ends, and with which verdict. It ends in the turn whose outcome is at
a limit, with the verdict of the refusals that were counted, unless it has ended before;
it ends in no other way, and goes on as long as no outcome was at a limit. Other
failures neither count nor reset: without them the loop comes to the same. -/
theorem connectLoop_verdicts (transport : CenterTransport ε)
    (options : CenterSyncOptions)
    (hpos : ∀ verdict limit, options.limit verdict = some limit → 1 ≤ limit)
    (turns : List (Turn ε δ)) (history : List ConnectOutcome)
    (houtcomes : turns.map (Turn.outcome transport) = history.map some) :
    (∀ i verdict, EndsAt transport options turns i (.error verdict) ↔
      i < history.length ∧ AtLimit options verdict (history.take (i + 1)) ∧
        ∀ j < i, ∀ verdict', ¬AtLimit options verdict' (history.take (j + 1))) ∧
    (∀ i result, EndsAt transport options turns i result →
      ∃ verdict, result = .error verdict) ∧
    ((∃ counters, connectLoop transport options .zero turns = .running counters) ↔
      ∀ j < history.length, ∀ verdict,
        ¬AtLimit options verdict (history.take (j + 1))) ∧
    connectLoop transport options .zero
        (turns.filter fun turn => turn.outcome transport ≠ some .other) =
      connectLoop transport options .zero turns := by
  have hlength : turns.length = history.length := by
    simpa using congrArg List.length houtcomes
  -- the turn at a position, where the loop still goes on before it
  have hturn : ∀ i, i < turns.length → ∀ counters,
      connectLoop transport options .zero (turns.take i) = .running counters →
      Calm options history i ∧ Standing options (history.take (i + 1))
        (connectLoop transport options .zero (turns.take (i + 1))) := by
    intro i hi counters hrun
    have houtcome : turns[i].outcome transport = some history[i] := by
      have h := congrArg (·[i]?) houtcomes
      simpa [hi, hlength ▸ hi] using h
    obtain ⟨hrunning, htracks⟩ := tracks_run hpos (outcomes_take houtcomes i)
    refine ⟨?_, ?_⟩
    · have hcalm := hrunning.mp ⟨counters, hrun⟩
      rw [List.length_take, Nat.min_eq_left (by omega)] at hcalm
      exact (calm_take (Nat.le_refl i)).mp hcalm
    · rw [List.take_succ_eq_append_getElem hi, connectLoop_concat, hrun,
        List.take_succ_eq_append_getElem (hlength ▸ hi)]
      exact standing_turn hpos (htracks counters hrun) houtcome
  refine ⟨?_, ?_, (tracks_run hpos houtcomes).1, connectLoop_filter_other turns _⟩
  · intro i verdict
    constructor
    · rintro ⟨hi, ⟨counters, hrun⟩, hend⟩
      obtain ⟨hcalm, hstanding⟩ := hturn i hi counters hrun
      rw [hend] at hstanding
      cases hstanding with
      | finished limit => exact ⟨hlength ▸ hi, limit, hcalm⟩
    · rintro ⟨hi, hlimit, hcalm⟩
      rw [← hlength] at hi
      obtain ⟨counters, hrun⟩ := (tracks_run hpos (outcomes_take houtcomes i)).1.mpr (by
        rw [List.length_take, Nat.min_eq_left (by omega)]
        exact (calm_take (Nat.le_refl i)).mpr hcalm)
      refine ⟨hi, ⟨counters, hrun⟩, ?_⟩
      have hstanding := (hturn i hi counters hrun).2
      generalize connectLoop transport options .zero (turns.take (i + 1)) = flow
        at hstanding ⊢
      cases hstanding with
      | running tracks calm => exact absurd hlimit (calm verdict)
      | finished limit =>
          have hlast := Option.some.inj (limit.1.symm.trans hlimit.1)
          cases hlast
          rfl
  · rintro i result ⟨hi, ⟨counters, hrun⟩, hend⟩
    have hstanding := (hturn i hi counters hrun).2
    rw [hend] at hstanding
    cases hstanding with
    | finished limit => exact ⟨_, rfl⟩

/-- Three refusals as not bound end the loop in the last of them, a lost connect among
them notwithstanding. -/
theorem three_refusals_end_the_loop :
    EndsAt { isNotBound := (· = 1), isIdentityMismatch := (· = 2) }
      (default : CenterSyncOptions)
      ([.failed 2 false, .failed 1 false, .failed 1 false, .failed 0 false,
        .failed 1 false] : List (Turn Nat Unit))
      4 (.error .notBound) :=
  ((connectLoop_verdicts { isNotBound := (· = 1), isIdentityMismatch := (· = 2) }
    (default : CenterSyncOptions)
    (by
      intro verdict limit h
      cases verdict with
      | notBound =>
          cases h
          decide
      | identityMismatch =>
          cases h
          decide)
    ([.failed 2 false, .failed 1 false, .failed 1 false, .failed 0 false,
      .failed 1 false] : List (Turn Nat Unit))
    [.refused .identityMismatch, .refused .notBound, .refused .notBound, .other,
      .refused .notBound]
    rfl).1 4 .notBound).mpr
    ⟨by decide, ⟨rfl, 3, rfl, by decide⟩, by
      intro j hj verdict h
      obtain ⟨-, limit, hlimit, hcount⟩ := h
      cases verdict with
      | notBound =>
          cases hlimit
          revert j
          decide
      | identityMismatch =>
          cases hlimit
          revert j
          decide⟩

end Rutilus.Proofs.ConnectVerdicts
