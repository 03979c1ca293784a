import Rutilus.Engine.OperationEngine
import Rutilus.Lib.Rely
import Rutilus.Lib.Runs

/-!
# Racing compare-and-set drivers

Any number of drivers call `applyIfCurrent` on any operations; each call is a
read, a domain check and a conditional write, with one more read to name the
conflict, and the calls interleave in every way. `landed` remembers which
driver's write went through, and from which state to which.

The proof needs nothing of the stored row between the read and the write: the
target state was computed from the expected state alone, and the store only
lets the write land on exactly that state.
-/

namespace Rutilus.Proofs.EngineRace

open Rutilus.Domain Rutilus.Lib Rutilus.Store Rutilus.Engine

/-- A conditional write that went through: whose it was, on which operation,
between which states. -/
structure Landing where
  driver : Nat
  operationId : OperationId
  source : OperationState
  target : OperationState
  deriving DecidableEq, Repr

/-- What all drivers see. -/
structure Shared where
  table : OperationTable
  landed : List Landing

/-- One call of `applyIfCurrent`: its arguments and what is left of it. -/
structure Driver where
  operationId : OperationId
  expectedState : OperationState
  event : OperationEvent
  now : Instant
  rest : Prog operationStore (Except EngineError Operation)

/-- The store and the calls made so far; a driver that crashed is one that
never moves again. -/
structure Race where
  shared : Shared
  drivers : List Driver

/-- The landing a call amounts to, if it is a write that went through. -/
def landing (i : Nat) : (q : operationStore.Req) → operationStore.Resp q →
    List Landing
  | .applyTransitionIfCurrent id expected new _, .ok () =>
      [⟨i, id, expected, new⟩]
  | _, _ => []

/-- One store call of driver `i`. -/
def perform (i : Nat) (fault : Option Fault) (q : operationStore.Req)
    (s : Shared) : operationStore.Resp q × Shared :=
  ((runOperationStore fault q s.table).1,
    { table := (runOperationStore fault q s.table).2
      landed := landing i q (runOperationStore fault q s.table).1 ++
        s.landed })

inductive Label where
  | create (id : OperationId) (source : OperationSource)
      (targets : List OperationTarget) (command : RedfishCommand)
      (now : Instant)
  | call (id : OperationId) (expected : OperationState)
      (event : OperationEvent) (now : Instant)
  | step (driver : Nat) (fault : Option Fault)

def next (s : Race) : Label → Option Race
  | .create id source targets command now =>
      match createOperation s.shared.table
          (Operation.new id source targets command now) with
      | .ok table => some { s with shared := { s.shared with table } }
      | .error _ => none
  | .call operationId expectedState event now =>
      some { s with drivers := s.drivers ++ [
        { operationId, expectedState, event, now
          rest := applyIfCurrent operationId expectedState event now }] }
  | .step i fault =>
      match s.drivers[i]? with
      | none => none
      | some d => match d.rest with
        | .ret _ => none
        | .call q k => some {
            shared := (perform i fault q s.shared).2
            drivers := s.drivers.set i
              { d with rest := k (perform i fault q s.shared).1 } }

def init : Race := ⟨⟨.empty, []⟩, []⟩

/-- The persisted state of an operation. -/
def persisted (X : OperationId) (s : Race) : Option OperationState :=
  (s.shared.table.find X).map OperationRow.state

/-- The landings on one operation, newest first. -/
def landingsOn (X : OperationId) (s : Race) : List Landing :=
  s.shared.landed.filter fun l => l.operationId = X

/-- The landings of one driver. -/
def landingsBy (i : Nat) (s : Shared) : List Landing :=
  s.landed.filter fun l => l.driver = i

/-- What one step of the race can do to operation `X`: nothing, create it
queued, or let exactly one driver's legal step land on the state it is in. -/
def StepOn (X : OperationId) (a b : Race) : Prop :=
  (persisted X b = persisted X a ∧ landingsOn X b = landingsOn X a) ∨
  (persisted X a = none ∧ persisted X b = some .queued ∧
    landingsOn X b = landingsOn X a) ∨
  ∃ i source target, persisted X a = some source ∧
    persisted X b = some target ∧ Legal source target ∧
    landingsOn X b = ⟨i, X, source, target⟩ :: landingsOn X a

/-! ## One driver -/

/-- What driver `i` may do to the shared state, see `StepOn`. -/
def Guarantee (i : Nat) (s s' : Shared) : Prop :=
  s' = s ∨ ∃ X source target row, Legal source target ∧
    s.table.find X = some row ∧ row.state = source ∧
    (∀ k, (s'.table.find k).map OperationRow.state =
      if k = X then some target
      else (s.table.find k).map OperationRow.state) ∧
    s'.landed = ⟨i, X, source, target⟩ :: s.landed

/-- What driver `i` relies on: nobody else lands in its name. -/
def Rely (i : Nat) (s s' : Shared) : Prop := landingsBy i s' = landingsBy i s

/-- Every store call, faulty or not. -/
def Calls (i : Nat) : Sem operationStore Shared := fun q s r s' =>
  ∃ fault, perform i fault q s = (r, s')

/-- A call that returns an operation landed exactly the step it returns; a
call that returns an error landed nothing. -/
def Result (i : Nat) (X : OperationId) (expected : OperationState)
    (r : Except EngineError Operation) (s : Shared) : Prop :=
  match r with
  | .ok operation => landingsBy i s = [⟨i, X, expected, operation.state⟩]
  | .error _ => landingsBy i s = []

theorem Rely.trans {i : Nat} {a b c : Shared} (h : Rely i a b)
    (h' : Rely i b c) : Rely i a c := Eq.trans h' h

theorem Result.stable {i : Nat} {X : OperationId} {expected : OperationState}
    {r : Except EngineError Operation} {s s' : Shared}
    (h : Result i X expected r s) (hR : Rely i s s') :
    Result i X expected r s' := by
  unfold Result Rely at *
  rw [hR]
  exact h

theorem perform_find {i : Nat} {X : OperationId} {s s' : Shared}
    {r : Except OperationRepositoryError (Option Operation)}
    (h : Calls i (.findOperation X) s r s') : s' = s := by
  obtain ⟨fault, h⟩ := h
  cases fault <;> cases h <;> rfl

/-- The read that names a conflict changes nothing and ends in an error. -/
theorem classifyConflict_safe {i : Nat} {X : OperationId}
    {expected : OperationState} {source : OperationRepositoryError}
    {s : Shared} (h : landingsBy i s = []) :
    Safe (Calls i) (Rely i) (fun _ => Guarantee i)
      (classifyConflict X expected source) (Result i X expected) s := by
  intro s₁ h₁ r s₂ h₂
  obtain rfl := perform_find h₂
  have hnone : landingsBy i s₂ = [] := Eq.trans h₁ h
  refine ⟨Or.inl rfl, ?_⟩
  match r with
  | .error e => exact hnone
  | .ok none => exact hnone
  | .ok (some row) =>
      show Safe _ _ _ (if row.state ≠ expected then _ else _) _ _
      split
      · exact hnone
      · exact hnone

/-- The conditional write: it lands where the row is in the expected state and
changes nothing otherwise. -/
theorem perform_applyTransitionIfCurrent {i : Nat} {X : OperationId}
    {expected new : OperationState} {now : Instant} {s s' : Shared}
    {r : Except OperationRepositoryError Unit} (hlegal : Legal expected new)
    (h : Calls i (.applyTransitionIfCurrent X expected new now) s r s') :
    Guarantee i s s' ∧ match r with
      | .ok () => landingsBy i s' = ⟨i, X, expected, new⟩ :: landingsBy i s
      | .error _ => landingsBy i s' = landingsBy i s := by
  obtain ⟨fault, h⟩ := h
  match fault with
  | some f =>
      cases h
      exact ⟨Or.inl rfl, rfl⟩
  | none =>
      match hw : applyTransitionIfCurrent s.table X expected new now with
      | .error e =>
          have hr : r = .error e ∧ s' = s := by
            simp only [perform, runOperationStore, hw, written] at h
            cases h
            exact ⟨rfl, rfl⟩
          obtain ⟨rfl, rfl⟩ := hr
          exact ⟨Or.inl rfl, rfl⟩
      | .ok table =>
          have hr : r = .ok () ∧
              s' = ⟨table, ⟨i, X, expected, new⟩ :: s.landed⟩ := by
            simp only [perform, runOperationStore, hw, written] at h
            cases h
            exact ⟨rfl, rfl⟩
          obtain ⟨rfl, rfl⟩ := hr
          obtain ⟨row, hrow, hstate, -, hfind⟩ :=
            applyTransitionIfCurrent_ok hw
          refine ⟨Or.inr ⟨X, expected, new, row, hlegal, hrow, hstate,
            fun k => ?_, rfl⟩, ?_⟩
          · show (table.find k).map _ = _
            rw [hfind k]
            split <;> rfl
          · simp [landingsBy]

/-- The contract of one call: all it ever does to the store is the one step it
reports. -/
theorem applyIfCurrent_safe {i : Nat} {X : OperationId}
    {expected : OperationState} {event : OperationEvent} {now : Instant}
    {s : Shared} (h : landingsBy i s = []) :
    Safe (Calls i) (Rely i) (fun _ => Guarantee i)
      (applyIfCurrent X expected event now) (Result i X expected) s := by
  intro s₁ h₁ r s₂ h₂
  obtain rfl := perform_find h₂
  have hnone : landingsBy i s₂ = [] := Eq.trans h₁ h
  refine ⟨Or.inl rfl, ?_⟩
  match r with
  | .error e => exact hnone
  | .ok none => exact hnone
  | .ok (some current) =>
      show Safe _ _ _ (if current.state ≠ expected then _ else _) _ _
      split
      · exact hnone
      · next hstate =>
          have hstate : current.state = expected := by simpa using hstate
          match happly : current.apply event now with
          | .error source =>
              exact hnone
          | .ok advanced =>
              intro s₃ h₃ r' s₄ h₄
              have hlegal : Legal expected advanced.state :=
                hstate ▸ ⟨event, (Operation.apply_ok happly).1⟩
              obtain ⟨hG, hres⟩ := perform_applyTransitionIfCurrent hlegal h₄
              have hnone' : landingsBy i s₃ = [] := Eq.trans h₃ hnone
              refine ⟨hG, ?_⟩
              match r' with
              | .ok () =>
                  show landingsBy i s₄ = _
                  rw [hres, hnone']
              | .error source =>
                  exact classifyConflict_safe (hres.trans hnone')

/-! ## All drivers -/

/-- The states an operation has been in, oldest first, as the landings tell
it. -/
def history (X : OperationId) (s : Race) : List OperationState :=
  ((landingsOn X s).map Landing.target ++ [OperationState.queued]).reverse

/-- The landings on an operation are a path of the matrix from `queued` to its
persisted state; an operation that does not exist has none. -/
def Path (X : OperationId) (s : Race) : Prop :=
  match persisted X s with
  | none => landingsOn X s = []
  | some state =>
      (history X s).IsChain Legal ∧ (history X s).getLast? = some state

structure Inv (s : Race) : Prop where
  drivers : ∀ i d, s.drivers[i]? = some d →
    Safe (Calls i) (Rely i) (fun _ => Guarantee i) d.rest
      (Result i d.operationId d.expectedState) s.shared
  started : ∀ l ∈ s.shared.landed, l.driver < s.drivers.length
  path : ∀ X, Path X s

theorem Guarantee.rely {i j : Nat} {s s' : Shared} (h : Guarantee i s s')
    (hij : j ≠ i) : Rely j s s' := by
  rcases h with rfl | ⟨X, source, target, row, -, -, -, -, hl⟩
  · rfl
  · simp [Rely, landingsBy, hl, Ne.symm hij]

theorem Guarantee.stepOn {i : Nat} {a b : Race}
    (h : Guarantee i a.shared b.shared) (X : OperationId) :
    StepOn X a b := by
  rcases h with h | ⟨Y, source, target, row, hlegal, hrow, hstate, hfind, hl⟩
  · exact Or.inl ⟨by rw [persisted, h]; rfl, by rw [landingsOn, h]; rfl⟩
  · by_cases hX : X = Y
    · subst hX
      refine Or.inr (Or.inr ⟨i, source, target, ?_, ?_, hlegal, ?_⟩)
      · simp [persisted, hrow, hstate]
      · rw [persisted, hfind X, if_pos rfl]
      · simp [landingsOn, hl]
    · refine Or.inl ⟨?_, ?_⟩
      · rw [persisted, hfind X, if_neg hX]
        rfl
      · simp [landingsOn, hl, Ne.symm hX]

theorem create_stepOn {s : Race} {table : OperationTable} {id : OperationId}
    {source : OperationSource} {targets : List OperationTarget}
    {command : RedfishCommand} {now : Instant}
    (h : createOperation s.shared.table
      (Operation.new id source targets command now) = .ok table)
    (X : OperationId) :
    StepOn X s { s with shared := { s.shared with table } } := by
  have hfind : table.find X = if X = id ∧ s.shared.table.find X = none
      then _ else _ := createOperation_ok h X
  by_cases hX : X = id ∧ s.shared.table.find X = none
  · refine Or.inr (Or.inl ⟨?_, ?_, rfl⟩)
    · simp [persisted, hX.2]
    · show (table.find X).map _ = _
      rw [hfind, if_pos hX]
      rfl
  · refine Or.inl ⟨?_, rfl⟩
    show (table.find X).map _ = _
    rw [hfind, if_neg hX]
    rfl

/-- A step keeps the landings a path. -/
theorem StepOn.path {X : OperationId} {a b : Race} (h : StepOn X a b)
    (hp : Path X a) : Path X b := by
  rcases h with ⟨hs, hl⟩ | ⟨hs, hs', hl⟩ | ⟨i, source, target, hs, hs', hlegal, hl⟩
  · unfold Path history at *
    rw [hs, hl]
    exact hp
  · have hnone : landingsOn X a = [] := by simpa [Path, hs] using hp
    simp [Path, history, hs', hl, hnone]
  · simp only [Path, hs] at hp
    simp only [Path, hs', history, hl, List.map_cons, List.cons_append,
      List.reverse_cons]
    obtain ⟨hchain, hlast⟩ := hp
    constructor
    · rw [List.isChain_append]
      refine ⟨hchain, List.isChain_singleton _, ?_⟩
      intro x hx y hy
      have hxs : x = source := Option.some_inj.mp (hx.symm.trans hlast)
      have hyt : y = target := by simpa using hy.symm
      rw [hxs, hyt]
      exact hlegal
    · exact List.getLast?_concat

theorem next_step {s s' : Race} {i : Nat} {fault : Option Fault}
    (h : next s (.step i fault) = some s') :
    ∃ d q k, s.drivers[i]? = some d ∧ d.rest = .call q k ∧
      s'.shared = (perform i fault q s.shared).2 ∧
      s'.drivers = s.drivers.set i
        { d with rest := k (perform i fault q s.shared).1 } := by
  simp only [next] at h
  split at h
  · cases h
  · next d hd =>
      split at h
      · cases h
      · next q k hrest =>
          cases h
          exact ⟨d, q, k, hd, hrest, rfl, rfl⟩

/-- The step of one driver keeps its contract and everybody else's. -/
theorem Inv.step {s : Race} (h : Inv s) {i : Nat} (fault : Option Fault)
    {d : Driver} {q : operationStore.Req}
    {k : operationStore.Resp q → Prog operationStore _}
    (hd : s.drivers[i]? = some d) (hq : d.rest = .call q k) :
    Guarantee i s.shared (perform i fault q s.shared).2 ∧
      ∀ j e, (s.drivers.set i
          { d with rest := k (perform i fault q s.shared).1 })[j]? = some e →
        Safe (Calls j) (Rely j) (fun _ => Guarantee j) e.rest
          (Result j e.operationId e.expectedState)
          (perform i fault q s.shared).2 := by
  have hsafe := h.drivers i d hd
  rw [hq, Safe.call] at hsafe
  obtain ⟨hG, hrest⟩ := hsafe s.shared rfl _ _ ⟨fault, rfl⟩
  refine ⟨hG, fun j e he => ?_⟩
  by_cases hij : j = i
  · subst hij
    have hlt : j < s.drivers.length := (List.getElem?_eq_some_iff.mp hd).1
    rw [List.getElem?_set_self hlt] at he
    cases he
    exact hrest
  · rw [List.getElem?_set_ne (Ne.symm hij)] at he
    refine (h.drivers j e he).stable Rely.trans ?_ (hG.rely hij)
    intro r hr
    exact hr.stable (hG.rely hij)

theorem inv_init : Inv init where
  drivers := by
    intro i d hd
    simp [init] at hd
  started := by
    intro l hl
    simp [init] at hl
  path := fun X => rfl

theorem next_cases {s s' : Race} {a : Label} (h : Inv s)
    (hn : next s a = some s') : Inv s' ∧ ∀ X, StepOn X s s' := by
  cases a with
  | create id source targets command now =>
      simp only [next] at hn
      split at hn
      · next table ht =>
          cases hn
          have hstep := create_stepOn ht
          refine ⟨⟨fun i d hd => ?_, h.started,
            fun X => (hstep X).path (h.path X)⟩, hstep⟩
          have hR : Rely i s.shared { s.shared with table } := rfl
          exact (h.drivers i d hd).stable Rely.trans
            (fun r hr => hr.stable hR) hR
      · cases hn
  | call X expected event now =>
      cases hn
      have hfree : landingsBy s.drivers.length s.shared = [] := by
        rw [landingsBy, List.filter_eq_nil_iff]
        intro l hl
        have := h.started l hl
        simp only [decide_eq_true_eq]
        omega
      refine ⟨⟨fun i d hd => ?_, fun l hl => ?_, fun X => h.path X⟩,
        fun X => Or.inl ⟨rfl, rfl⟩⟩
      · rw [List.getElem?_append] at hd
        split at hd
        · exact h.drivers i d hd
        · next hi =>
            rw [List.getElem?_singleton] at hd
            split at hd
            · next hi' =>
                cases hd
                have : i = s.drivers.length := by omega
                rw [this]
                exact applyIfCurrent_safe hfree
            · cases hd
      · have := h.started l hl
        simp only [List.length_append, List.length_singleton]
        omega
  | step i fault =>
      obtain ⟨d, q, k, hd, hq, hshared, hdrivers⟩ := next_step hn
      obtain ⟨hG, hsafe⟩ := h.step fault hd hq
      rw [← hshared] at hG hsafe
      rw [← hdrivers] at hsafe
      have hstep : ∀ X, StepOn X s s' := fun X => hG.stepOn X
      refine ⟨⟨hsafe, fun l hl => ?_, fun X => (hstep X).path (h.path X)⟩,
        hstep⟩
      rw [hdrivers, List.length_set]
      rcases hG with hG | ⟨X, source, target, row, -, -, -, -, hG⟩
      · rw [hG] at hl
        exact h.started l hl
      · rw [hG] at hl
        rcases List.mem_cons.mp hl with rfl | hl
        · exact (List.getElem?_eq_some_iff.mp hd).1
        · exact h.started l hl

theorem Inv.of_reach {s : Race}
    (h : Reach (· = init) (Next next) s) : Inv s :=
  h.inv (by rintro _ rfl; exact inv_init)
    (fun _ _ hs ⟨_, ha⟩ => (next_cases hs ha).1)

/-- In every run of every number of racing drivers: each change of an
operation's persisted state is one legal step of exactly one driver, taken
from the state persisted just before; a terminal state stays; the persisted
states form a path of the matrix from `queued`; and a call that returned an
error, whichever, changed nothing, while one that returned an operation landed
exactly the step it returned. -/
theorem applyIfCurrent_race {s : Race} {ss : List Race}
    (h : IsRun (· = init) (Next next) s ss) :
    (∀ X, (s :: ss).IsChain (StepOn X)) ∧
    (∀ X, (s :: ss).IsChain fun a b => ∀ state, persisted X a = some state →
      state.isTerminal = true → persisted X b = some state) ∧
    (∀ t ∈ s :: ss, ∀ X, Path X t) ∧
    (∀ t ∈ s :: ss, ∀ i d r, t.drivers[i]? = some d → d.rest = .ret r →
      Result i d.operationId d.expectedState r t.shared) := by
  have hstep : ∀ X a b, Reach (· = init) (Next next) a → Next next a b →
      StepOn X a b := by
    rintro X a b ha ⟨l, hl⟩
    exact (next_cases (Inv.of_reach ha) hl).2 X
  refine ⟨fun X => h.chain (hstep X), fun X => h.chain ?_, ?_, ?_⟩
  · intro a b ha hb state hstate hterm
    rcases hstep X a b ha hb with ⟨hs, -⟩ | ⟨hs, -⟩ |
      ⟨i, source, target, hs, -, hlegal, -⟩
    · rw [hs, hstate]
    · rw [hs] at hstate
      cases hstate
    · rw [hs] at hstate
      cases hstate
      rw [hlegal.not_isTerminal] at hterm
      cases hterm
  · intro t ht X
    exact (Inv.of_reach (h.reach t ht)).path X
  · intro t ht i d r hd hr
    have hsafe := (Inv.of_reach (h.reach t ht)).drivers i d hd
    rw [hr] at hsafe
    exact hsafe

/-- Two drivers read the queued operation, the first one's step lands and the
second one is told that the state has changed. -/
def lostRace : List Label :=
  [ .create ⟨1⟩ .standalone [⟨⟨7⟩, ⟨9⟩⟩] (.system (.reset "On")) 100
  , .call ⟨1⟩ .queued .validationStarted 101
  , .call ⟨1⟩ .queued .failed 102
  , .step 0 none, .step 1 none, .step 0 none, .step 1 none, .step 1 none ]

theorem applyIfCurrent_race_lostRace :
    (visit next init lostRace).length = 8 ∧
    (init :: visit next init lostRace).IsChain (StepOn ⟨1⟩) :=
  ⟨by decide +kernel, (applyIfCurrent_race (isRun_visit rfl _)).1 ⟨1⟩⟩

end Rutilus.Proofs.EngineRace
