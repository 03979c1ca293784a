import Rutilus.Lib.Prog

/-!
# Rely and guarantee for programs that call out

`Safe A R G p Q s` says that a program at the start of `p` in state `s` keeps
to its contract whatever happens: before each of its calls the others may move
the state by `R`, the call itself moves it by `A`, each of its own moves is in
`G` of the call it makes, and if it ends with value `a` the state then
satisfies `Q a`. A crash is no special case: a program that never takes its
next step has kept its contract so far.

The rules are those of a weakest precondition: one for each program former,
the consequence rule, and stability under the moves of the others.
-/

namespace Rutilus.Lib

variable {S T : Sig} {σ α β ε ε' : Type}

/-- What each call may do: the state before, the answer, the state after. -/
abbrev Sem (S : Sig) (σ : Type) : Type := (q : S.Req) → σ → S.Resp q → σ → Prop

/-- The contract of a program, see the module text. -/
def Safe (A : Sem S σ) (R : σ → σ → Prop) (G : S.Req → σ → σ → Prop) :
    Prog S α → (α → σ → Prop) → σ → Prop
  | .ret a, Q, s => Q a s
  | .call q k, Q, s =>
      ∀ s₁, R s s₁ → ∀ r s₂, A q s₁ r s₂ →
        G q s₁ s₂ ∧ Safe A R G (k r) Q s₂

namespace Safe

variable {A : Sem S σ} {R : σ → σ → Prop} {G : S.Req → σ → σ → Prop}

@[simp]
protected theorem ret {a : α} {Q : α → σ → Prop} {s : σ} :
    Safe A R G (.ret a) Q s ↔ Q a s := Iff.rfl

protected theorem call {q : S.Req} {k : S.Resp q → Prog S α} {Q : α → σ → Prop}
    {s : σ} :
    Safe A R G (.call q k) Q s ↔
      ∀ s₁, R s s₁ → ∀ r s₂, A q s₁ r s₂ →
        G q s₁ s₂ ∧ Safe A R G (k r) Q s₂ := Iff.rfl

/-- Sequencing: the second program starts where the first one ends. -/
protected theorem bind {p : Prog S α} {f : α → Prog S β} {Q : β → σ → Prop} {s : σ} :
    Safe A R G (p >>= f) Q s ↔
      Safe A R G p (fun a => Safe A R G (f a) Q) s := by
  induction p generalizing s with
  | ret a => exact Iff.rfl
  | call q k ih =>
      simp only [Prog.call_bind, Safe.call]
      constructor
      · intro h s₁ h₁ r s₂ h₂
        obtain ⟨hg, h⟩ := h s₁ h₁ r s₂ h₂
        exact ⟨hg, (ih r).mp h⟩
      · intro h s₁ h₁ r s₂ h₂
        obtain ⟨hg, h⟩ := h s₁ h₁ r s₂ h₂
        exact ⟨hg, (ih r).mpr h⟩

/-- Consequence. -/
theorem imp {p : Prog S α} {Q Q' : α → σ → Prop} {s : σ}
    (h : Safe A R G p Q s) (hQ : ∀ a s, Q a s → Q' a s) :
    Safe A R G p Q' s := by
  induction p generalizing s with
  | ret a => exact hQ _ _ h
  | call q k ih =>
      intro s₁ h₁ r s₂ h₂
      obtain ⟨hg, h⟩ := h s₁ h₁ r s₂ h₂
      exact ⟨hg, ih r h⟩

/-- A program that has not yet made its next call does not notice the moves
of the others. -/
theorem stable {p : Prog S α} {Q : α → σ → Prop} {s s' : σ}
    (ht : ∀ {a b c}, R a b → R b c → R a c)
    (hQ : ∀ a, Q a s → Q a s') (h : Safe A R G p Q s) (hR : R s s') :
    Safe A R G p Q s' := by
  cases p with
  | ret a => exact hQ a h
  | call q k =>
      intro s₁ h₁ r s₂ h₂
      exact h s₁ (ht hR h₁) r s₂ h₂

/-- A contract under a wider rely and a narrower guarantee. -/
theorem mono {R' : σ → σ → Prop} {G' : S.Req → σ → σ → Prop} {p : Prog S α}
    {Q : α → σ → Prop} {s : σ} (h : Safe A R G p Q s)
    (hR : ∀ a b, R' a b → R a b) (hG : ∀ q a b, G q a b → G' q a b) :
    Safe A R' G' p Q s := by
  induction p generalizing s with
  | ret a => exact h
  | call q k ih =>
      intro s₁ h₁ r s₂ h₂
      obtain ⟨hg, h⟩ := h s₁ (hR s s₁ h₁) r s₂ h₂
      exact ⟨hG q s₁ s₂ hg, ih r h⟩

/-- A contract under calls that may do less. -/
theorem narrow {A' : Sem S σ} {p : Prog S α} {Q : α → σ → Prop} {s : σ}
    (h : Safe A R G p Q s) (hA : ∀ q a r b, A' q a r b → A q a r b) :
    Safe A' R G p Q s := by
  induction p generalizing s with
  | ret a => exact h
  | call q k ih =>
      intro s₁ h₁ r s₂ h₂
      obtain ⟨hg, h⟩ := h s₁ h₁ r s₂ (hA q s₁ r s₂ h₂)
      exact ⟨hg, ih r h⟩

/-- Two contracts of one program. -/
protected theorem and {G' : S.Req → σ → σ → Prop} {p : Prog S α} {Q Q' : α → σ → Prop}
    {s : σ} (h : Safe A R G p Q s) (h' : Safe A R G' p Q' s) :
    Safe A R (fun q a b => G q a b ∧ G' q a b) p (fun a s => Q a s ∧ Q' a s) s := by
  induction p generalizing s with
  | ret a => exact ⟨h, h'⟩
  | call q k ih =>
      intro s₁ h₁ r s₂ h₂
      obtain ⟨hg, h⟩ := h s₁ h₁ r s₂ h₂
      obtain ⟨hg', h'⟩ := h' s₁ h₁ r s₂ h₂
      exact ⟨⟨hg, hg'⟩, ih r h h'⟩

/-- What the others and every own move keep, the program keeps. -/
theorem keeps {p : Prog S α} {Q : α → σ → Prop} {J : σ → Prop} {s : σ}
    (h : Safe A R G p Q s) (hR : ∀ a b, R a b → J a → J b)
    (hG : ∀ q a b, G q a b → J a → J b) (hs : J s) :
    Safe A R G p (fun a s => Q a s ∧ J s) s := by
  induction p generalizing s with
  | ret a => exact ⟨h, hs⟩
  | call q k ih =>
      intro s₁ h₁ r s₂ h₂
      obtain ⟨hg, h⟩ := h s₁ h₁ r s₂ h₂
      exact ⟨hg, ih r h (hG q s₁ s₂ hg (hR s s₁ h₁ hs))⟩

/-! ## Programs that may fail -/

@[simp]
theorem pureE {a : α} {Q : Except ε α → σ → Prop} {s : σ} :
    Safe A R G (pure a : ExceptT ε (Prog S) α) Q s ↔ Q (.ok a) s := Iff.rfl

@[simp]
theorem throwE {e : ε} {Q : Except ε α → σ → Prop} {s : σ} :
    Safe A R G (throw e : ExceptT ε (Prog S) α) Q s ↔ Q (.error e) s :=
  Iff.rfl

/-- Sequencing of fallible programs: an error ends the whole. -/
theorem bindE {p : ExceptT ε (Prog S) α} {f : α → ExceptT ε (Prog S) β}
    {Q : Except ε β → σ → Prop} {s : σ} :
    Safe A R G (p >>= f : ExceptT ε (Prog S) β) Q s ↔
      Safe A R G p (fun r s => match r with
        | .ok a => Safe A R G (f a) Q s
        | .error e => Q (.error e) s) s := by
  refine (Safe.bind (f := ExceptT.bindCont f)).trans ?_
  constructor
  · intro h
    refine h.imp ?_
    intro r s hr
    cases r with
    | ok a => exact hr
    | error e => exact hr
  · intro h
    refine h.imp ?_
    intro r s hr
    cases r with
    | ok a => exact hr
    | error e => exact hr

/-- A program that cannot fail, inside one that can. -/
theorem liftE {p : Prog S α} {Q : Except ε α → σ → Prop} {s : σ} :
    Safe A R G (liftM p : ExceptT ε (Prog S) α) Q s ↔
      Safe A R G p (fun a s => Q (.ok a) s) s :=
  Safe.bind

protected theorem orThrow {p : Prog S (Except ε α)} {wrap : ε → ε'}
    {Q : Except ε' α → σ → Prop} {s : σ} :
    Safe A R G (orThrow p wrap) Q s ↔
      Safe A R G p (fun r s => Q (r.mapError wrap) s) s :=
  Safe.bind

/-- A program that runs alone under a handler keeps every contract that holds
of it when nobody else moves. -/
theorem run {h : (q : S.Req) → σ → S.Resp q × σ} {p : Prog S α}
    {Q : α → σ → Prop} {s : σ}
    (hp : Safe (fun q s r s' => h q s = (r, s')) Eq G p Q s) :
    Q (p.run h s).1 (p.run h s).2 := by
  induction p generalizing s with
  | ret a => exact hp
  | call q k ih => exact ih _ (hp s rfl _ _ rfl).2

end Safe

/-! ## What holds on success -/

/-- The contract of a program that may fail: where it succeeds, `Q` holds. -/
abbrev Succeeds (A : Sem S σ) (R : σ → σ → Prop) (G : S.Req → σ → σ → Prop)
    (p : ExceptT ε (Prog S) α) (Q : α → σ → Prop) (s : σ) : Prop :=
  Safe A R G p (fun r s => ∀ a, r = .ok a → Q a s) s

namespace Succeeds

variable {A : Sem S σ} {R : σ → σ → Prop} {G : S.Req → σ → σ → Prop}
  {Q : α → σ → Prop} {s : σ}

theorem bind {p : ExceptT ε (Prog S) α} {g : α → ExceptT ε (Prog S) β}
    {Q' : β → σ → Prop} (h : Succeeds A R G p Q s)
    (hg : ∀ a s', Q a s' → Succeeds A R G (g a) Q' s') :
    Succeeds A R G (p >>= g) Q' s := by
  refine Safe.bindE.mpr (h.imp fun r s' hr => ?_)
  cases r with
  | ok a => exact hg a s' (hr a rfl)
  | error x => exact nofun

theorem throw {x : ε} :
    Succeeds A R G (throw x : ExceptT ε (Prog S) α) Q s := nofun

theorem lift {p : Prog S α} (h : Safe A R G p Q s) :
    Succeeds A R G (liftM p : ExceptT ε (Prog S) α) Q s := by
  refine Safe.liftE.mpr (h.imp fun a s' ha b hb => ?_)
  cases hb
  exact ha

theorem orThrow {p : Prog S (Except ε α)} {wrap : ε → ε'}
    (h : Safe A R G p (fun r s' => ∀ a, r = .ok a → Q a s') s) :
    Succeeds A R G (orThrow p wrap) Q s := by
  refine Safe.orThrow.mpr (h.imp fun r s' hr => ?_)
  cases r with
  | ok a =>
      intro b hb
      cases hb
      exact hr a rfl
  | error x => exact nofun

end Succeeds

/-! ## What a program calls -/

/-- A program that makes only calls of one kind. -/
def Only (P : S.Req → Prop) : Prog S α → Prop
  | .ret _ => True
  | .call q k => P q ∧ ∀ r, Only P (k r)

namespace Only

variable {P : S.Req → Prop}

theorem bind {p : Prog S α} {f : α → Prog S β} (hp : Only P p)
    (hf : ∀ a, Only P (f a)) : Only P (p >>= f) := by
  induction p with
  | ret a => exact hf a
  | call q k ih => exact ⟨hp.1, fun r => ih r (hp.2 r)⟩

theorem bindE {p : ExceptT ε (Prog S) α} {f : α → ExceptT ε (Prog S) β}
    (hp : Only P p) (hf : ∀ a, Only P (f a)) :
    Only P (p >>= f : ExceptT ε (Prog S) β) := by
  refine Only.bind (f := ExceptT.bindCont f) hp fun r => ?_
  cases r with
  | ok a => exact hf a
  | error e => trivial

theorem liftE {p : Prog S α} (hp : Only P p) :
    Only P (liftM p : ExceptT ε (Prog S) α) :=
  hp.bind fun _ => trivial

protected theorem orThrow {p : Prog S (Except ε α)} {wrap : ε → ε'} (hp : Only P p) :
    Only P (orThrow p wrap) :=
  hp.bind fun _ => trivial

theorem ofCall {q : S.Req} (h : P q) : Only P (.call q .ret : Prog S (S.Resp q)) :=
  ⟨h, fun _ => trivial⟩

theorem lift [Sub S T] {Q : T.Req → Prop} {p : Prog S α}
    (h : ∀ q : S.Req, Q (Sub.inj q)) : Only Q (p.lift : Prog T α) := by
  induction p with
  | ret a => trivial
  | call q k ih => exact ⟨h q, fun r => ih _⟩

theorem mono {Q : S.Req → Prop} {p : Prog S α} (hp : Only P p) (h : ∀ q, P q → Q q) :
    Only Q p := by
  induction p with
  | ret a => trivial
  | call q k ih => exact ⟨h q hp.1, fun r => ih r (hp.2 r)⟩

/-- What the calls of its kind keep, a program keeps. -/
theorem safe {A : Sem S σ} {G : S.Req → σ → σ → Prop} {J : σ → Prop} {p : Prog S α}
    {s : σ} (hp : Only P p) (hs : J s)
    (hA : ∀ q s r s', P q → J s → A q s r s' → G q s s' ∧ J s') :
    Safe A Eq G p (fun _ => J) s := by
  induction p generalizing s with
  | ret a => exact hs
  | call q k ih =>
      rintro _ rfl r s' hcall
      obtain ⟨hg, hs'⟩ := hA q s r s' hp.1 hs hcall
      exact ⟨hg, ih r (hp.2 r) hs'⟩

end Only

end Rutilus.Lib

/-!
## Traces

What a program asked and was answered, in order. `Runs p log a` says that `p` can
come to its end with `a` while the calls and answers of `log` happen, whatever the
boundary is made of. A monitor follows a trace by a function; what holds of a program
under the monitor's steps holds of every run of it.
-/

namespace Rutilus.Lib

variable {S : Sig} {σ α : Type}

/-- A call with its answer. -/
abbrev Entry (S : Sig) : Type := (q : S.Req) × S.Resp q

inductive Runs : Prog S α → List (Entry S) → α → Prop where
  | ret (a : α) : Runs (.ret a) [] a
  | call {q : S.Req} {k : S.Resp q → Prog S α} {r : S.Resp q} {log : List (Entry S)}
      {a : α} (h : Runs (k r) log a) : Runs (.call q k) (⟨q, r⟩ :: log) a

/-- The calls of a monitor: its step is a function of the call and its answer. -/
abbrev follows (step : σ → (q : S.Req) → S.Resp q → σ) : Sem S σ :=
  fun q s r s' => s' = step s q r

/-- A contract of a program that is only watched. -/
abbrev Watched (step : σ → (q : S.Req) → S.Resp q → σ) (p : Prog S α)
    (Q : α → σ → Prop) (s : σ) : Prop :=
  Safe (follows step) Eq (fun _ _ _ => True) p Q s

variable {step : σ → (q : S.Req) → S.Resp q → σ} {p : Prog S α}

/-- What a contract under a monitor says of a run: its end, and every call of it. -/
theorem Runs.of_safe {log : List (Entry S)} {a : α} (hrun : Runs p log a)
    {G : S.Req → σ → σ → Prop} {Q : α → σ → Prop} {s : σ}
    (h : Safe (follows step) Eq G p Q s) :
    Q a (log.foldl (fun s e => step s e.1 e.2) s) ∧
      ∀ pre e post, log = pre ++ e :: post →
        G e.1 (pre.foldl (fun s e => step s e.1 e.2) s)
          ((pre ++ [e]).foldl (fun s e => step s e.1 e.2) s) := by
  induction hrun generalizing s with
  | ret a => exact ⟨h, fun pre e post heq => absurd heq (by simp)⟩
  | call _ ih =>
      obtain ⟨hcall, hrest⟩ := h s rfl _ _ rfl
      obtain ⟨hend, hcalls⟩ := ih hrest
      refine ⟨hend, fun pre e post heq => ?_⟩
      cases pre with
      | nil =>
          cases heq
          exact hcall
      | cons first pre =>
          cases heq
          exact hcalls pre e post rfl

theorem Runs.of_watched {log : List (Entry S)} {a : α} (hrun : Runs p log a)
    {Q : α → σ → Prop} {s : σ} (h : Watched step p Q s) :
    Q a (log.foldl (fun s e => step s e.1 e.2) s) :=
  (hrun.of_safe h).1

/-- The run under a boundary that answers each call always the same. -/
def record (answer : (q : S.Req) → S.Resp q) : Prog S α → List (Entry S) × α
  | .ret a => ([], a)
  | .call q k =>
      let (log, a) := record answer (k (answer q))
      (⟨q, answer q⟩ :: log, a)

theorem runs_record (answer : (q : S.Req) → S.Resp q) (p : Prog S α) :
    Runs p (record answer p).1 (record answer p).2 := by
  induction p with
  | ret a => exact .ret a
  | call q k ih => exact .call (ih (answer q))

/-- One call alone. -/
theorem Safe.ask {G : S.Req → σ → σ → Prop} {q : S.Req} {Q : S.Resp q → σ → Prop}
    {s : σ} :
    Safe (follows step) Eq G (.call q .ret) Q s ↔
      ∀ r, G q s (step s q r) ∧ Q r (step s q r) := by
  constructor
  · exact fun h r => h s rfl r _ rfl
  · rintro h _ rfl r _ rfl
    exact h r

theorem Watched.ask {q : S.Req} {Q : S.Resp q → σ → Prop} {s : σ} :
    Watched step (.call q .ret) Q s ↔ ∀ r, Q r (step s q r) :=
  Safe.ask.trans (forall_congr' fun _ => iff_of_eq (true_and _))

/-! ## Watching everything -/

/-- The monitor that remembers the trace. -/
abbrev remember (s : List (Entry S)) (q : S.Req) (r : S.Resp q) : List (Entry S) :=
  s ++ [⟨q, r⟩]

theorem foldl_remember (log s : List (Entry S)) :
    log.foldl (fun s e => remember s e.1 e.2) s = s ++ log := by
  induction log generalizing s with
  | nil => exact (List.append_nil s).symm
  | cons e rest ih =>
      rw [List.foldl_cons, ih, List.append_assoc]
      rfl

/-- A contract about the whole past: `G` of each call and what came before it, `Q`
of the result and the trace. -/
abbrev Remembered (G : S.Req → List (Entry S) → Prop) (p : Prog S α)
    (Q : α → List (Entry S) → Prop) (s : List (Entry S)) : Prop :=
  Safe (follows remember) Eq (fun q s _ => G q s) p Q s

theorem Runs.of_remembered {log : List (Entry S)} {a : α} (hrun : Runs p log a)
    {G : S.Req → List (Entry S) → Prop} {Q : α → List (Entry S) → Prop}
    (h : Remembered G p Q []) :
    Q a log ∧ ∀ pre e post, log = pre ++ e :: post → G e.1 pre := by
  obtain ⟨hend, hcalls⟩ := hrun.of_safe h
  rw [foldl_remember] at hend
  refine ⟨hend, fun pre e post heq => ?_⟩
  have hcall := hcalls pre e post heq
  rw [foldl_remember] at hcall
  exact hcall

end Rutilus.Lib
