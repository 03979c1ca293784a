import Mathlib.Data.List.Basic
import Mathlib.Order.Basic

/-!
# A sliding window over a log

A log is a list of things with a time, in the order of their times. `recent`
keeps what is younger than the width of the window. Dropping old things from the
front of a log is the same, and doing it early changes nothing of what is recent
later.

A log never has more than `limit` things in one window if each was appended when
fewer than `limit` were recent.
-/

namespace Rutilus.Lib.Window

variable {α : Type} (time : α → Int) (width : Int)

def isRecent (now : Int) (x : α) : Bool := now - time x < width

def recent (now : Int) (log : List α) : List α :=
  log.filter (isRecent time width now)

/-- Drop what is old from the front. -/
def dropOld (now : Int) (log : List α) : List α :=
  log.dropWhile fun x => width ≤ now - time x

abbrev InOrder (log : List α) : Prop :=
  log.Pairwise fun a b => time a ≤ time b

/-- In the window that starts at `start`. -/
def inWindow (start : Int) (x : α) : Bool :=
  start ≤ time x ∧ time x < start + width

variable {time width} {log : List α} {now later : Int}

theorem dropOld_eq_recent (h : InOrder time log) :
    dropOld time width now log = recent time width now log := by
  induction log with
  | nil => rfl
  | cons x log ih =>
      obtain ⟨hx, hlog⟩ := List.pairwise_cons.mp h
      unfold dropOld recent
      by_cases hold : width ≤ now - time x
      · have hrecent : isRecent time width now x = false :=
          decide_eq_false (Int.not_lt.mpr hold)
        rw [List.dropWhile_cons, if_pos (decide_eq_true hold),
          List.filter_cons_of_neg (by rw [hrecent]; exact nofun)]
        exact ih hlog
      · rw [List.dropWhile_cons, if_neg (by rwa [decide_eq_true_eq])]
        refine (List.filter_eq_self.mpr fun y hy => ?_).symm
        refine decide_eq_true ?_
        rcases List.mem_cons.mp hy with rfl | hy
        · exact Int.not_le.mp hold
        · have := hx y hy
          omega

theorem recent_recent (h : now ≤ later) :
    recent time width later (recent time width now log) =
      recent time width later log := by
  unfold recent
  rw [List.filter_filter]
  refine List.filter_congr fun x _ => ?_
  unfold isRecent
  by_cases hx : later - time x < width
  · have : now - time x < width := by omega
    rw [decide_eq_true hx, decide_eq_true this]
    rfl
  · rw [decide_eq_false hx]
    rfl

/-- Pruned at any time, a log shows the same later. -/
theorem recent_max_recent :
    recent time width (max later now) (recent time width now log) =
      recent time width (max later now) log :=
  recent_recent (Int.le_max_right ..)

theorem recent_append {log' : List α} :
    recent time width now (log ++ log') =
      recent time width now log ++ recent time width now log' :=
  List.filter_append ..

theorem InOrder.concat {x : α} (h : InOrder time log)
    (hx : ∀ y ∈ log, time y ≤ time x) : InOrder time (log ++ [x]) := by
  refine List.pairwise_append.mpr ⟨h, List.pairwise_singleton .., ?_⟩
  intro y hy z hz
  rw [List.mem_singleton.mp hz]
  exact hx y hy

/-- The things of one window after another was appended: there were fewer than
`limit` recent ones, so there are at most `limit` in any window. -/
theorem length_window_concat {x : α} {start : Int} {limit : Nat}
    (hlog : (log.filter (inWindow time width start)).length ≤ limit)
    (hfew : (recent time width (time x) log).length < limit) :
    ((log ++ [x]).filter (inWindow time width start)).length ≤ limit := by
  rw [List.filter_append, List.length_append]
  by_cases hx : inWindow time width start x = true
  · obtain ⟨hlow, -⟩ := of_decide_eq_true hx
    have hsub : (log.filter (inWindow time width start)).Sublist
        (recent time width (time x) log) := by
      refine List.monotone_filter_right log fun y hy => ?_
      obtain ⟨hylow, hyhigh⟩ := of_decide_eq_true hy
      obtain ⟨-, hxhigh⟩ := of_decide_eq_true hx
      refine decide_eq_true ?_
      omega
    have := hsub.length_le
    have hone : ([x].filter (inWindow time width start)).length ≤ 1 :=
      List.length_filter_le ..
    omega
  · rw [List.filter_cons_of_neg hx]
    exact hlog

end Rutilus.Lib.Window
