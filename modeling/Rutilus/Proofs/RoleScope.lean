import Rutilus.Store.Principals
import Rutilus.Web.Routes

/-!
# What is read back of a role assignment

Whatever the sequence of assignments, a principal's row carries the last one
with the site of the first. So the site, and with it what the principal may see
and dispatch, is that of the last assignment exactly if the two sites agree. A
limited principal that is to be made unlimited, or moved to another site, stays
limited to the old one.
-/

namespace Rutilus.Proofs.RoleScope

open Rutilus.Domain Rutilus.Domain.User Rutilus.Lib Rutilus.Store
open Rutilus.Web.Access

/-- One call of `assignRole`; a failed one changes nothing. -/
structure Call where
  fault : Option Fault
  refs : References
  assignment : RoleAssignment

/-- The table and the assignments that succeeded, in order. -/
structure State where
  table : RoleTable
  assigned : List RoleAssignment

def Call.run (s : State) (call : Call) : State :=
  match call.fault with
  | some _ => s
  | none => match assignRole call.refs s.table call.assignment with
    | .ok t => ⟨t, s.assigned ++ [call.assignment]⟩
    | .error _ => s

/-- The state after a sequence of calls, from an empty table. -/
def runAll (calls : List Call) : State :=
  calls.foldl Call.run ⟨.empty, []⟩

/-- The assignments of a principal that succeeded. -/
def State.history (s : State) (principalId : PrincipalId) :
    List RoleAssignment :=
  s.assigned.filter fun assignment => assignment.principalId = principalId

/-- What is read back is the last assignment, its role and its site, and the
principal may see and dispatch exactly what that one allows. -/
def ReadsLast (s : State) (principalId : PrincipalId) : Prop :=
  let found := findRoleAssignment s.table principalId
  let last := (s.history principalId).getLast?
  found.map (fun a => (a.role, a.siteId)) =
      last.map (fun a => (a.role, a.siteId)) ∧
    ∀ site, mayView found site = mayView last site ∧
      mayDispatch found site = mayDispatch last site

/-- The row of a principal with a history. -/
def rowOf (history : List RoleAssignment) : Option RoleAssignment :=
  history.getLast?.map fun last =>
    { last with siteId := history.head?.bind RoleAssignment.siteId }

theorem rowOf_append (history : List RoleAssignment)
    (assignment : RoleAssignment) :
    rowOf (history ++ [assignment]) =
      some { assignment with siteId := match rowOf history with
        | none => assignment.siteId
        | some row => row.siteId } := by
  cases history with
  | nil => rfl
  | cons first rest =>
      rw [rowOf, List.getLast?_concat]
      cases hlast : (first :: rest).getLast? with
      | none =>
          rw [List.getLast?_eq_none_iff] at hlast
          cases hlast
      | some last =>
          rw [rowOf, hlast]
          rfl

/-- Every row is that of its principal's history. -/
def Rows (s : State) : Prop :=
  ∀ principalId, s.table.find principalId = rowOf (s.history principalId)

theorem Rows.run {s : State} (h : Rows s) (call : Call) :
    Rows (call.run s) := by
  intro principalId
  unfold Call.run
  split
  · exact h principalId
  · split
    · next t ht =>
        have hfind := assignRole_find ht principalId
        simp only [State.history, List.filter_append]
        rw [hfind]
        by_cases hp : call.assignment.principalId = principalId
        · have hkeep : [call.assignment].filter (fun assignment =>
              assignment.principalId = principalId) = [call.assignment] := by
            simp [hp]
          rw [if_pos hp, hkeep, rowOf_append, h principalId]
          rfl
        · have hdrop : [call.assignment].filter (fun assignment =>
              assignment.principalId = principalId) = [] := by
            simp [hp]
          rw [if_neg hp, hdrop, List.append_nil, h principalId]
          rfl
    · exact h principalId

theorem rows_runAll (calls : List Call) : Rows (runAll calls) := by
  have hrun : ∀ s, Rows s → Rows (calls.foldl Call.run s) := by
    induction calls with
    | nil => exact fun s h => h
    | cons call calls ih => exact fun s h => ih _ (h.run call)
  exact hrun _ fun _ => rfl

/-- What is read back is the last assignment exactly if it names the site of
the first. -/
theorem last_assignment_read_iff (calls : List Call)
    (principalId : PrincipalId) :
    ReadsLast (runAll calls) principalId ↔
      ((runAll calls).history principalId).getLast?.map RoleAssignment.siteId =
        ((runAll calls).history principalId).head?.map
          RoleAssignment.siteId := by
  have hrow : findRoleAssignment (runAll calls).table principalId = _ :=
    rows_runAll calls principalId
  unfold ReadsLast
  dsimp only
  rw [hrow]
  generalize (runAll calls).history principalId = history
  cases history with
  | nil => simp [rowOf]
  | cons first rest =>
      obtain ⟨last, hlast⟩ : ∃ last, (first :: rest).getLast? = some last :=
        ⟨_, List.getLast?_eq_some_getLast (List.cons_ne_nil first rest)⟩
      rw [rowOf, hlast]
      simp only [Option.map_some, List.head?_cons, Option.bind_some,
        Option.some.injEq, Prod.mk.injEq, true_and]
      constructor
      · rintro ⟨hsite, -⟩
        exact hsite.symm
      · intro hsite
        refine ⟨hsite.symm, fun site => ?_⟩
        rw [← hsite]
        exact ⟨rfl, rfl⟩

/-- An operator of the site 1 that is assigned again, for all sites. -/
theorem unlimited_operator_stays_limited :
    ¬ ReadsLast (runAll [
      ⟨none, ⟨fun _ => true, fun _ => true⟩,
        ⟨⟨7⟩, .operator, none, 0, some ⟨1⟩⟩⟩,
      ⟨none, ⟨fun _ => true, fun _ => true⟩,
        ⟨⟨7⟩, .operator, none, 1, none⟩⟩]) ⟨7⟩ := by
  intro h
  have hview := (h.2 ⟨2⟩).1
  revert hview
  decide

end Rutilus.Proofs.RoleScope
