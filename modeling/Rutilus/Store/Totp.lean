import Rutilus.Domain.Totp
import Rutilus.Store.Artifacts
import Rutilus.Store.Principals

/-!
# The authenticator store

The `totp_authenticators` table. A step is stored by one conditional update,
which only moves it forward: one for a sign-in, and one that also activates the
authenticator. Secrets are stored encrypted; here a row holds the secret itself.
-/

namespace Rutilus.Store

open Rutilus.Domain Rutilus.Domain.User Rutilus.Lib

abbrev TotpTable : Type :=
  Table TotpAuthenticatorId TotpAuthenticator TotpAuthenticator.id

inductive TotpRepositoryError where
  | fault (source : Fault)
  | notFound (authenticatorId : TotpAuthenticatorId)
  | staleStep (authenticatorId : TotpAuthenticatorId)
  | stepOutOfRange (authenticatorId : TotpAuthenticatorId)
  | corrupt (authenticatorId : TotpAuthenticatorId)
  deriving DecidableEq, Repr

/-- What `try_from_parts` accepts. -/
def mapStoredAuthenticator (row : TotpAuthenticator) :
    Except TotpRepositoryError TotpAuthenticator :=
  if row.secret.length ≠ totpSecretLength then .error (.corrupt row.id)
  else if decide (row.state = .active) ≠ row.activatedAt.isSome then
    .error (.corrupt row.id)
  else if row.state = .provisioning ∧ row.lastUsedStep.isSome then
    .error (.corrupt row.id)
  else .ok row

def createTotpAuthenticator (principals : PrincipalTable) (t : TotpTable)
    (authenticator : TotpAuthenticator) :
    Except TotpRepositoryError TotpTable :=
  if t.has authenticator.id then .error (.fault .database)
  else if principals.has authenticator.principalId then
    .ok (t.insertNew authenticator)
  else .error (.fault .database)

def findTotpAuthenticator (t : TotpTable)
    (authenticatorId : TotpAuthenticatorId) :
    Except TotpRepositoryError (Option TotpAuthenticator) :=
  match t.find authenticatorId with
  | none => .ok none
  | some row => (mapStoredAuthenticator row).map some

/-- In the order of creation. -/
def listTotpAuthenticators (t : TotpTable) (principalId : PrincipalId) :
    Except TotpRepositoryError (List TotpAuthenticator) :=
  ((t.rows.filter fun row => row.principalId = principalId).mergeSort
    fun a b => a.createdAt ≤ b.createdAt).mapM mapStoredAuthenticator

/-- The condition of both updates. -/
def stepMovesForward (row : TotpAuthenticator) (step : Nat) : Bool :=
  row.lastUsedStep.all fun last => last < step

def activateTotpAuthenticator (t : TotpTable)
    (authenticatorId : TotpAuthenticatorId) (activatedAt : Instant)
    (step : Nat) : Except TotpRepositoryError TotpTable :=
  if maxInteger < step then .error (.stepOutOfRange authenticatorId)
  else match t.find authenticatorId with
    | none => .error (.notFound authenticatorId)
    | some row =>
      if stepMovesForward row step then
        .ok (t.replace { row with
          state := .active
          activatedAt := some activatedAt
          lastUsedStep := some step })
      else .error (.staleStep authenticatorId)

/-- Whether the step was recorded, and the table after it. -/
def recordTotpStep (t : TotpTable) (authenticatorId : TotpAuthenticatorId)
    (step : Nat) : Except TotpRepositoryError (Bool × TotpTable) :=
  if maxInteger < step then .error (.stepOutOfRange authenticatorId)
  else match t.find authenticatorId with
    | none => .ok (false, t)
    | some row =>
      if stepMovesForward row step then
        .ok (true, t.replace { row with lastUsedStep := some step })
      else .ok (false, t)

/-! ## What becomes of a step -/

/-- A later row of an authenticator: its step is not before the other's. -/
def StepLater (a b : TotpAuthenticator) : Prop :=
  ∀ last, a.lastUsedStep = some last →
    ∃ last', b.lastUsedStep = some last' ∧ last ≤ last'

theorem StepLater.refl (a : TotpAuthenticator) : StepLater a a :=
  fun last h => ⟨last, h, Nat.le_refl _⟩

/-- Every authenticator is still there, and no step went back. -/
def StepsLater (t t' : TotpTable) : Prop :=
  ∀ id a, t.find id = some a → ∃ b, t'.find id = some b ∧ StepLater a b

theorem StepsLater.refl (t : TotpTable) : StepsLater t t :=
  fun _ a h => ⟨a, h, .refl a⟩

/-- No step up to `last` will be taken of the authenticator again. -/
def Used (t : TotpTable) (x : TotpAuthenticatorId × Nat) : Prop :=
  ∃ row last, t.find x.1 = some row ∧ row.lastUsedStep = some last ∧
    x.2 ≤ last

theorem Used.later {t t' : TotpTable} {x : TotpAuthenticatorId × Nat}
    (h : Used t x) (hlater : StepsLater t t') : Used t' x := by
  obtain ⟨row, last, hrow, hlast, hle⟩ := h
  obtain ⟨row', hrow', hstep⟩ := hlater _ _ hrow
  obtain ⟨last', hlast', hle'⟩ := hstep _ hlast
  exact ⟨row', last', hrow', hlast', Nat.le_trans hle hle'⟩

section Rows

variable {t t' : TotpTable} {id : TotpAuthenticatorId} {step : Nat}

/-- A row whose step moves forward to `step`: the step was not used, is used,
and nothing went back. -/
theorem replace_step {row : TotpAuthenticator} (new : TotpAuthenticator)
    (hrow : t.find id = some row) (hforward : stepMovesForward row step = true)
    (hid : new.id = row.id) (hstep : new.lastUsedStep = some step) :
    ¬ Used t (id, step) ∧ Used (t.replace new) (id, step) ∧
      StepsLater t (t.replace new) := by
  obtain rfl : row.id = id := Table.key_of_find hrow
  have hnew : (t.replace new).find row.id = some new := by
    rw [Table.find_replace, hid, if_pos ⟨rfl, by rw [hrow]; rfl⟩]
  have hlast : ∀ last, row.lastUsedStep = some last → last < step := by
    intro last hl
    rw [stepMovesForward, hl, Option.all_some, decide_eq_true_eq] at hforward
    exact hforward
  refine ⟨?_, ⟨new, step, hnew, hstep, Nat.le_refl _⟩, ?_⟩
  · rintro ⟨row', last, hrow', hl, hle⟩
    rw [hrow, Option.some.injEq] at hrow'
    subst hrow'
    exact absurd hle (Nat.not_le.mpr (hlast last hl))
  · intro id a ha
    by_cases heq : row.id = id
    · subst heq
      rw [hrow, Option.some.injEq] at ha
      subst ha
      exact ⟨new, hnew, fun last hl => ⟨step, hstep, Nat.le_of_lt (hlast last hl)⟩⟩
    · refine ⟨a, ?_, .refl a⟩
      rw [Table.find_replace, hid, if_neg fun h => heq h.1, ha]

theorem activateTotpAuthenticator_ok {at' : Instant}
    (h : activateTotpAuthenticator t id at' step = .ok t') :
    ¬ Used t (id, step) ∧ Used t' (id, step) ∧ StepsLater t t' := by
  unfold activateTotpAuthenticator at h
  split at h
  · cases h
  · split at h
    · cases h
    · next row hrow =>
        split at h
        · next hforward =>
            cases h
            exact replace_step _ hrow hforward rfl rfl
        · cases h

theorem recordTotpStep_true
    (h : recordTotpStep t id step = .ok (true, t')) :
    ¬ Used t (id, step) ∧ Used t' (id, step) ∧ StepsLater t t' := by
  unfold recordTotpStep at h
  split at h
  · cases h
  · split at h
    · cases h
    · next row hrow =>
        split at h
        · next hforward =>
            cases h
            exact replace_step _ hrow hforward rfl rfl
        · cases h

theorem recordTotpStep_false
    (h : recordTotpStep t id step = .ok (false, t')) : t' = t := by
  unfold recordTotpStep at h
  split at h
  · cases h
  · split at h
    · cases h
      rfl
    · split at h
      · cases h
      · cases h
        rfl

theorem createTotpAuthenticator_ok {principals : PrincipalTable}
    {authenticator : TotpAuthenticator}
    (h : createTotpAuthenticator principals t authenticator = .ok t') :
    StepsLater t t' := by
  unfold createTotpAuthenticator at h
  split at h
  · cases h
  · next hfree =>
      split at h
      · cases h
        intro id a ha
        refine ⟨a, ?_, .refl a⟩
        rw [Table.find_insertNew, if_neg, ha]
        rintro ⟨rfl, hnone⟩
        rw [hnone] at ha
        cases ha
      · cases h

end Rows

end Rutilus.Store
