import Mathlib.Data.List.Basic

/-!
# Results of fallible steps

How a result that is known to be a success comes apart: a sequence of steps
succeeded because each of them did.
-/

namespace Rutilus.Lib

variable {ε ε' α β : Type}

/-- Both steps of a sequence succeeded. -/
theorem bind_ok {x : Except ε α} {f : α → Except ε β} {b : β}
    (h : (x >>= f) = .ok b) : ∃ a, x = .ok a ∧ f a = .ok b := by
  cases x with
  | error e => cases h
  | ok a => exact ⟨a, rfl, h⟩

/-- Another name for the error is no success. -/
theorem mapError_ok {f : ε → ε'} {x : Except ε α} {a : α}
    (h : x.mapError f = .ok a) : x = .ok a := by
  cases x with
  | error e => cases h
  | ok b =>
      cases h
      rfl

theorem map_ok {f : α → β} {x : Except ε α} {b : β} (h : x.map f = .ok b) :
    ∃ a, x = .ok a ∧ f a = b := by
  cases x with
  | error e => cases h
  | ok a =>
      cases h
      exact ⟨a, rfl, rfl⟩

end Rutilus.Lib

/-!
## Computations that append to a log

A computation that may fail and that only ever appends to its log. `Logs P` says
that what it appends satisfies `P`; there is one lemma for each way of putting
such computations together.
-/

namespace Rutilus.Lib

abbrev Collect (ε ω α : Type) : Type := StateT (List ω) (Except ε) α

namespace Collect

variable {ε ω α β : Type}

/-- Fails, whatever the log. -/
def fail (e : ε) : Collect ε ω α := fun _ => .error e

def append (entries : List ω) : Collect ε ω Unit :=
  fun log => .ok ((), log ++ entries)

/-- One after the other, with their results in a row. -/
def forEach (body : α → Collect ε ω (List β)) : List α → Collect ε ω (List β)
  | [] => pure []
  | x :: rest => do
    let first ← body x
    let others ← forEach body rest
    pure (first ++ others)

def inTurn (parts : List (Collect ε ω (List β))) : Collect ε ω (List β) :=
  forEach id parts

/-- What is appended satisfies `P`. -/
def Logs (P : ω → Prop) (r : Collect ε ω α) : Prop :=
  ∀ log a log', r log = .ok (a, log') →
    ∃ more, log' = log ++ more ∧ ∀ w ∈ more, P w

variable {P : ω → Prop}

theorem Logs.pure (a : α) : Logs P (pure a : Collect ε ω α) := by
  intro log b log' h
  cases h
  exact ⟨[], (List.append_nil _).symm, fun w hw => absurd hw List.not_mem_nil⟩

theorem Logs.fail (e : ε) : Logs P (fail e : Collect ε ω α) := by
  intro log b log' h
  cases h

theorem Logs.append {entries : List ω} (h : ∀ w ∈ entries, P w) :
    Logs P (append entries : Collect ε ω Unit) := by
  intro log b log' hrun
  cases hrun
  exact ⟨entries, rfl, h⟩

theorem Logs.bind {r : Collect ε ω α} {k : α → Collect ε ω β} (hr : Logs P r)
    (hk : ∀ a, Logs P (k a)) : Logs P (r >>= k) := by
  intro log b log'' h
  obtain ⟨⟨a, log'⟩, hfirst, hnext⟩ := bind_ok h
  obtain ⟨more, rfl, hmore⟩ := hr log a log' hfirst
  obtain ⟨rest, rfl, hrest⟩ := hk a _ b log'' hnext
  refine ⟨more ++ rest, List.append_assoc _ _ _, fun w hw => ?_⟩
  rcases List.mem_append.mp hw with hw | hw
  · exact hmore w hw
  · exact hrest w hw

theorem Logs.forEach {body : α → Collect ε ω (List β)}
    (h : ∀ x, Logs P (body x)) (xs : List α) : Logs P (forEach body xs) := by
  induction xs with
  | nil => exact .pure []
  | cons x rest ih => exact (h x).bind fun first => ih.bind fun others => .pure _

theorem Logs.inTurn {parts : List (Collect ε ω (List β))}
    (h : ∀ r ∈ parts, Logs P r) : Logs P (inTurn parts) := by
  unfold Collect.inTurn
  induction parts with
  | nil => exact .pure []
  | cons r rest ih =>
      have hrest := ih fun r' hr' => h r' (List.mem_cons_of_mem _ hr')
      exact (h r List.mem_cons_self).bind fun first =>
        hrest.bind fun others => .pure _

end Collect

end Rutilus.Lib

/-!
## Transactions

A call that reads and writes as one. Either a fault from outside or the call's own
error ends it, and then nothing it wrote stays; or all of it happened.
-/

namespace Rutilus.Lib

variable {φ ε α τ : Type}

/-- Run a body on a state, unless a fault ends it first. -/
def transaction (wrap : φ → ε) (fault : Option φ) (t : τ)
    (body : τ → Except ε (α × τ)) : Except ε α × τ :=
  match fault with
  | some f => (.error (wrap f), t)
  | none => match body t with
    | .error e => (.error e, t)
    | .ok (a, t') => (.ok a, t')

/-- It failed and left nothing, or all of it happened. -/
theorem transaction_cases (wrap : φ → ε) (fault : Option φ) (t : τ)
    (body : τ → Except ε (α × τ)) :
    (∃ e, transaction wrap fault t body = (.error e, t)) ∨
      ∃ a t', fault = none ∧ body t = .ok (a, t') ∧
        transaction wrap fault t body = (.ok a, t') := by
  unfold transaction
  split
  · exact .inl ⟨_, rfl⟩
  · cases hbody : body t with
    | error e => exact .inl ⟨e, rfl⟩
    | ok r => exact .inr ⟨r.1, r.2, rfl, rfl, rfl⟩

end Rutilus.Lib
