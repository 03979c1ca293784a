import Mathlib.Control.Lawful

/-!
# Programs that call out

A component that talks to a database, a device or a clock is a program whose
only effects are calls on a boundary. `Sig` names the calls of a boundary and
the type of each answer; `Prog S α` is a finite tree of such calls ending in a
value. Nothing here says what a call does: `Prog.run` takes a handler, and the
logic of `Rely` takes a relation, so one program text serves both the
sequential reading and every interleaving.

A component that needs only part of a boundary is written over any signature
`T` with `Sub S T`; that is how a caller with a wide boundary uses a callee
with a narrow one.
-/

namespace Rutilus.Lib

/-- The calls a boundary offers, with the type of each answer. -/
structure Sig where
  Req : Type
  Resp : Req → Type

/-- A program over the boundary `S`: either it is done, or it makes one call
and goes on with the answer. -/
inductive Prog (S : Sig) (α : Type) : Type where
  | ret (a : α) : Prog S α
  | call (q : S.Req) (k : S.Resp q → Prog S α) : Prog S α

namespace Prog

variable {S T : Sig} {α β γ σ : Type}

/-- Sequencing: graft the continuation at every leaf. -/
def bind : Prog S α → (α → Prog S β) → Prog S β
  | .ret a, f => f a
  | .call q k, f => .call q fun r => (k r).bind f

instance : Monad (Prog S) where
  pure := .ret
  bind := Prog.bind

@[simp]
theorem pure_eq (a : α) : (pure a : Prog S α) = .ret a := rfl

@[simp]
theorem ret_bind (a : α) (f : α → Prog S β) :
    (Prog.ret a >>= f) = f a := rfl

@[simp]
theorem call_bind (q : S.Req) (k : S.Resp q → Prog S α) (f : α → Prog S β) :
    (Prog.call q k >>= f) = .call q fun r => k r >>= f := rfl

theorem bind_ret (p : Prog S α) : (p >>= Prog.ret) = p := by
  induction p with
  | ret a => rfl
  | call q k ih =>
      rw [call_bind]
      congr 1
      funext r
      exact ih r

theorem bind_bind (p : Prog S α) (f : α → Prog S β) (g : β → Prog S γ) :
    (p >>= f >>= g) = p >>= fun a => f a >>= g := by
  induction p with
  | ret a => rfl
  | call q k ih =>
      simp only [call_bind]
      congr 1
      funext r
      exact ih r

instance : LawfulMonad (Prog S) :=
  LawfulMonad.mk' (Prog S) bind_ret (fun _ _ => rfl) bind_bind

/-- Run a program against a state with a handler for each call. -/
def run (h : (q : S.Req) → σ → S.Resp q × σ) : Prog S α → σ → α × σ
  | .ret a, s => (a, s)
  | .call q k, s => (k (h q s).1).run h (h q s).2

@[simp]
theorem run_ret (h : (q : S.Req) → σ → S.Resp q × σ) (a : α) (s : σ) :
    (Prog.ret a).run h s = (a, s) := rfl

theorem run_bind (h : (q : S.Req) → σ → S.Resp q × σ) (p : Prog S α)
    (f : α → Prog S β) (s : σ) :
    (p >>= f).run h s = (f (p.run h s).1).run h (p.run h s).2 := by
  induction p generalizing s with
  | ret a => rfl
  | call q k ih => exact ih (h q s).1 (h q s).2

/-- Sequencing of fallible programs: an error ends the whole. -/
theorem run_bindE {ε : Type} (h : (q : S.Req) → σ → S.Resp q × σ)
    (p : ExceptT ε (Prog S) α) (f : α → ExceptT ε (Prog S) β) (s : σ) :
    Prog.run h (p >>= f : ExceptT ε (Prog S) β) s =
      match Prog.run h p s with
      | (.ok a, s') => Prog.run h (f a) s'
      | (.error e, s') => (.error e, s') := by
  refine (run_bind h p (ExceptT.bindCont f) s).trans ?_
  obtain ⟨r, s'⟩ := Prog.run h p s
  cases r <;> rfl

/-- A program that cannot fail, inside one that can. -/
theorem run_liftE {ε : Type} (h : (q : S.Req) → σ → S.Resp q × σ)
    (p : Prog S α) (s : σ) :
    Prog.run h (liftM p : ExceptT ε (Prog S) α) s =
      (.ok (p.run h s).1, (p.run h s).2) :=
  run_bind h p _ s

end Prog

/-- The boundary `T` offers at least the calls of `S`. -/
class Sub (S T : Sig) where
  inj : S.Req → T.Req
  back : (q : S.Req) → T.Resp (inj q) → S.Resp q

instance (S : Sig) : Sub S S where
  inj := id
  back := fun _ r => r

/-- Make one call of a boundary the current one includes. -/
def ask {S T : Sig} [Sub S T] (q : S.Req) : Prog T (S.Resp q) :=
  .call (Sub.inj q) fun r => .ret (Sub.back q r)

/-- Use a program over a narrower boundary. -/
def Prog.lift {S T : Sig} [Sub S T] {α : Type} : Prog S α → Prog T α
  | .ret a => .ret a
  | .call q k => .call (Sub.inj q) fun r => (k (Sub.back q r)).lift

/-- Use a program that may fail inside one with another error type. -/
def orThrow {T : Sig} {ε ε' α : Type} (p : Prog T (Except ε α))
    (wrap : ε → ε') : ExceptT ε' (Prog T) α :=
  ExceptT.mk (p >>= fun r => .ret (r.mapError wrap))

theorem run_orThrow {S : Sig} {ε ε' α σ : Type}
    (h : (q : S.Req) → σ → S.Resp q × σ) (p : Prog S (Except ε α))
    (wrap : ε → ε') (s : σ) :
    Prog.run h (orThrow p wrap) s =
      ((p.run h s).1.mapError wrap, (p.run h s).2) :=
  Prog.run_bind h p _ s

end Rutilus.Lib
