import Mathlib.Data.List.Chain
import Mathlib.Logic.Relation

/-!
# Runs of a transition system

A system is a set of first states and a step relation. A run is the list of
states it visits. Two rules carry every safety proof: an invariant that holds
first and is kept by each step holds in every state reached, and a property of
single steps out of invariant states holds between any two consecutive states
of a run.
-/

namespace Rutilus.Lib

variable {σ τ : Type}

/-- The states a system can reach. -/
inductive Reach (init : σ → Prop) (step : σ → σ → Prop) : σ → Prop where
  | init {s : σ} (h : init s) : Reach init step s
  | step {s t : σ} (hs : Reach init step s) (ht : step s t) :
      Reach init step t

/-- `s :: ss` is a run: it starts in a first state and every state follows
from the one before it. -/
def IsRun (init : σ → Prop) (step : σ → σ → Prop) (s : σ) (ss : List σ) :
    Prop :=
  init s ∧ (s :: ss).IsChain step

namespace Reach

variable {init init' : σ → Prop} {step step' : σ → σ → Prop}

/-- The invariant rule. -/
theorem inv {P : σ → Prop} (hi : ∀ s, init s → P s)
    (hs : ∀ s t, P s → step s t → P t) {s : σ} (h : Reach init step s) :
    P s := by
  induction h with
  | init h => exact hi _ h
  | step _ ht ih => exact hs _ _ ih ht

theorem mono (hi : ∀ s, init s → init' s)
    (hs : ∀ s t, step s t → step' s t) {s : σ} (h : Reach init step s) :
    Reach init' step' s := by
  induction h with
  | init h => exact .init (hi _ h)
  | step _ ht ih => exact .step ih (hs _ _ ht)

theorem steps {s t : σ} (hs : Reach init step s)
    (h : Relation.ReflTransGen step s t) : Reach init step t := by
  induction h with
  | refl => exact hs
  | tail _ ht ih => exact ih.step ht

end Reach

namespace IsRun

variable {init : σ → Prop} {step : σ → σ → Prop} {s : σ} {ss : List σ}

theorem reach_of_chain (hs : Reach init step s)
    (h : (s :: ss).IsChain step) : ∀ t ∈ s :: ss, Reach init step t := by
  induction ss generalizing s with
  | nil =>
      intro t ht
      rw [List.mem_singleton] at ht
      exact ht ▸ hs
  | cons u us ih =>
      rw [List.isChain_cons_cons] at h
      intro t ht
      rcases List.mem_cons.mp ht with rfl | ht
      · exact hs
      · exact ih (hs.step h.1) h.2 t ht

/-- Every state of a run is reachable. -/
theorem reach (h : IsRun init step s ss) : ∀ t ∈ s :: ss, Reach init step t :=
  reach_of_chain (.init h.1) h.2

theorem chain_of_chain {R : σ → σ → Prop} (hs : Reach init step s)
    (hR : ∀ a b, Reach init step a → step a b → R a b)
    (h : (s :: ss).IsChain step) : (s :: ss).IsChain R := by
  induction ss generalizing s with
  | nil => exact List.isChain_singleton _
  | cons u us ih =>
      rw [List.isChain_cons_cons] at h ⊢
      exact ⟨hR _ _ hs h.1, ih (hs.step h.1) h.2⟩

/-- The step rule: what every step out of a reachable state does holds
between any two consecutive states of a run. -/
theorem chain {R : σ → σ → Prop} (h : IsRun init step s ss)
    (hR : ∀ a b, Reach init step a → step a b → R a b) :
    (s :: ss).IsChain R :=
  chain_of_chain (.init h.1) hR h.2

end IsRun

/-! ## Executable systems

A system given by a step function on labels: the states a list of labels leads
through are a run. -/

section Executable

variable {l : Type} {next : σ → l → Option σ}

/-- One step under some label. -/
def Next (next : σ → l → Option σ) (s t : σ) : Prop := ∃ a, next s a = some t

/-- The states after `s` that a list of labels leads through; it stops at the
first label that does not apply. -/
def visit (next : σ → l → Option σ) : σ → List l → List σ
  | _, [] => []
  | s, a :: as => match next s a with
    | some t => t :: visit next t as
    | none => []

theorem isChain_visit (s : σ) (as : List l) :
    (s :: visit next s as).IsChain (Next next) := by
  induction as generalizing s with
  | nil => exact List.isChain_singleton _
  | cons a as ih =>
      simp only [visit]
      split
      · next t ht =>
          rw [List.isChain_cons_cons]
          exact ⟨⟨a, ht⟩, ih t⟩
      · exact List.isChain_singleton _

/-- The state a list of labels leads to, if all of them apply. -/
def follow (next : σ → l → Option σ) : σ → List l → Option σ
  | s, [] => some s
  | s, a :: as => (next s a).bind fun t => follow next t as

theorem reach_follow {init : σ → Prop} {s t : σ} {as : List l}
    (hs : Reach init (Next next) s) (h : follow next s as = some t) :
    Reach init (Next next) t := by
  induction as generalizing s with
  | nil =>
      cases h
      exact hs
  | cons a as ih =>
      obtain ⟨u, hu, h⟩ := Option.bind_eq_some_iff.mp h
      exact ih (hs.step ⟨a, hu⟩) h

/-- A run found by evaluation. -/
theorem exists_reach_of_follow (init : σ → Prop) (next : σ → l → Option σ)
    {s : σ} (as : List l) (p : σ → Bool) (hs : init s)
    (h : (follow next s as).any p = true) :
    ∃ t, Reach init (Next next) t ∧ p t = true := by
  cases ht : follow next s as with
  | none =>
      rw [ht] at h
      cases h
  | some t =>
      rw [ht] at h
      exact ⟨t, reach_follow (.init hs) ht, h⟩

theorem steps_of_follow {s t : σ} {as : List l}
    (h : follow next s as = some t) :
    Relation.ReflTransGen (Next next) s t := by
  induction as generalizing s with
  | nil =>
      cases h
      exact .refl
  | cons a as ih =>
      obtain ⟨u, hu, h⟩ := Option.bind_eq_some_iff.mp h
      exact .head ⟨a, hu⟩ (ih h)

/-- Two states of one run, the later one found from the earlier one. -/
theorem exists_steps_of_follow (init : σ → Prop) (next : σ → l → Option σ)
    {s : σ} (as bs : List l) (p : σ → σ → Bool) (hs : init s)
    (h : ((follow next s as).any fun t =>
      (follow next t bs).any fun u => p t u) = true) :
    ∃ t u, Reach init (Next next) t ∧
      Relation.ReflTransGen (Next next) t u ∧ p t u = true := by
  obtain ⟨t, ht, h⟩ := (Option.any_eq_true _ _).mp h
  obtain ⟨u, hu, h⟩ := (Option.any_eq_true _ _).mp h
  exact ⟨t, u, reach_follow (.init hs) ht, steps_of_follow hu, h⟩

theorem isRun_visit {init : σ → Prop} {s : σ} (hs : init s) (as : List l) :
    IsRun init (Next next) s (visit next s as) :=
  ⟨hs, isChain_visit s as⟩

end Executable

end Rutilus.Lib
