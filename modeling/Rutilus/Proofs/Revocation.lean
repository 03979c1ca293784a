import Rutilus.Lib.Rely
import Rutilus.Web.Auth

/-!
# A revocation that is not lost

Four requests end the sessions of a principal: its own password change, an
administrator's password set, a new role and a disabled account. Each is one
store write followed by the revocation. A request runs over any starting store,
with any pattern of failing calls; `failed` remembers that a write it needs was
refused.

The two password requests answer success only if the revocation was stored.
The other two drop its outcome: they answer success also when it failed, and
`Swallowed` says for which inputs and failures that is.
-/

namespace Rutilus.Proofs.Revocation

open Rutilus.Domain Rutilus.Domain.User Rutilus.Lib Rutilus.Store
open Rutilus.Web.Auth

/-! ## Requests that end sessions -/

inductive Request where
  | changePassword (context : AuthContext)
      (ip currentPassword newPassword : String)
  | setUserPassword (context : AuthContext) (path : Option PrincipalId)
      (ip newPassword : String)
  | assignUserRole (context : AuthContext) (path : Option PrincipalId)
      (ip : String) (role : Role)
  | disableUser (context : AuthContext) (path : Option PrincipalId)
      (ip : String)

def Request.program : Request → Prog auth Response
  | .changePassword context ip currentPassword newPassword =>
      Web.Auth.changePassword context ip currentPassword newPassword
  | .setUserPassword context path ip newPassword =>
      Web.Auth.setUserPassword context path ip newPassword
  | .assignUserRole context path ip role =>
      Web.Auth.assignUserRole context path ip role
  | .disableUser context path ip =>
      Web.Auth.setUserState context path ip .disabled

/-- Whose sessions the request has to end. -/
def Request.subject : Request → Option PrincipalId
  | .changePassword context .. => context.actorPrincipalId
  | .setUserPassword _ path .. | .assignUserRole _ path .. =>
      path
  | .disableUser _ path _ => path

/-- A request on its own: the store, what the environment decides at the calls
to come, and whether a write the request needs was refused. -/
structure Run where
  store : AuthStore
  oracles : Nat → AuthOracle
  failed : Bool

/-- A refused write of one of the requests. -/
def refused : (q : AuthReq) → q.Resp → Bool
  | .setPrincipalState .., .error _ => true
  | .assignRole _, .error _ => true
  | .savePasswordCredential _, .error _ => true
  | .revokeSessionsForPrincipal .., .error _ => true
  | _, _ => false

variable (derive : Bytes → String → Bytes)

def serve (q : AuthReq) (s : Run) : q.Resp × Run :=
  let r := performAuth derive (s.oracles 0) q s.store
  (r.1, ⟨r.2, fun n => s.oracles (n + 1), s.failed || refused q r.1⟩)

def answer (request : Request) (w : AuthStore) (os : Nat → AuthOracle) :
    Response × Run :=
  Prog.run (serve derive) request.program ⟨w, os, false⟩

/-- The answer is a success only if every session the principal had is revoked
and no write was refused. -/
structure Kept (request : Request) (w : AuthStore) (os : Nat → AuthOracle) :
    Prop where
  revoked : (answer derive request w os).1.isSuccess →
    ∀ P, request.subject = some P → ∀ id a, w.sessions.find id = some a →
      a.principalId = P → a.revokedAt = none →
      ∃ b, (answer derive request w os).2.store.sessions.find id = some b ∧
        b.revokedAt.isSome
  surfaced : (answer derive request w os).2.failed →
    (answer derive request w os).1.isSuccess = false

/-- The presenting session, the id and the budget are there, and the lookup at
the third call finds the principal. -/
def Admitted (context : AuthContext) (path : Option PrincipalId)
    (w : AuthStore) (os : Nat → AuthOracle) (P : PrincipalId) : Prop :=
  context.actorPrincipalId.isSome ∧ path = some P ∧
    (os 1).reservation.isSome ∧ (os 2).fault = none ∧
    ∃ p, findPrincipal w.principals P = .ok (some p)

/-- The write of the role, the fourth call, goes through. -/
def RoleStored (context : AuthContext) (role : Role) (w : AuthStore)
    (os : Nat → AuthOracle) (P : PrincipalId) : Prop :=
  (os 3).fault = none ∧ ∃ roles,
    Store.assignRole ⟨w.principals.has, (os 3).instances⟩ w.roles
      ⟨P, role, context.actorPrincipalId, (os 0).clock, none⟩ = .ok roles

def StateStored (w : AuthStore) (os : Nat → AuthOracle) (P : PrincipalId) :
    Prop :=
  (os 3).fault = none ∧ ∃ principals,
    Store.setPrincipalState w.principals P .disabled (os 0).clock =
      .ok principals

/-- Everything up to the write of the role or the state goes through, and the
revocation, the fifth call, fails. -/
def Swallowed (w : AuthStore) (os : Nat → AuthOracle) : Request → Prop
  | .changePassword .. | .setUserPassword .. => False
  | .assignUserRole context path _ role => ∃ P,
      Admitted context path w os P ∧ RoleStored context role w os P ∧
        (os 4).fault ≠ none
  | .disableUser context path _ => ∃ P,
      Admitted context path w os P ∧ StateStored w os P ∧
        (os 4).fault ≠ none

variable {derive}

/-! ## Password changes -/

/-- What a request may answer when it is alone. -/
abbrev Alone {α : Type} (derive : Bytes → String → Bytes) (p : Prog auth α)
    (Q : α → Run → Prop) (s : Run) : Prop :=
  Safe (fun q s r s' => serve derive q s = (r, s')) Eq (fun _ _ _ => True) p Q s

/-- The sessions of the store, and whether a write was refused. -/
def Calm (sessions : SessionTable) (failed : Bool) (s : Run) : Prop :=
  s.store.sessions = sessions ∧ s.failed = failed

/-- A success leaves no session of the principal without a revocation. -/
def Ended (sessions : SessionTable) (P : PrincipalId) (response : Response)
    (s : Run) : Prop :=
  response.isSuccess → s.failed = false ∧ ∃ at',
    s.store.sessions = (revokeSessionsForPrincipal sessions P at').2

section Contracts

variable {α : Type} {s : Run} {sessions : SessionTable} {failed : Bool}
  {P : PrincipalId}

/-- A call that touches no session and is no write of a request. -/
def benign : AuthReq → Bool
  | .setPrincipalState .. | .assignRole _ | .savePasswordCredential _ => false
  | .createSession _ | .revokeSession .. | .revokeSessionsForPrincipal .. =>
      false
  | _ => true

theorem serve_calm {q : AuthReq} (hs : Calm sessions failed s)
    (hq : benign q = true) : Calm sessions failed (serve derive q s).2 := by
  obtain ⟨rfl, rfl⟩ := hs
  have hor : ∀ b, (b || false) = b := Bool.or_false
  cases q with
  | setPrincipalState | assignRole | savePasswordCredential | createSession
  | revokeSession | revokeSessionsForPrincipal => cases hq
  | now | reserve | refund | generateSessionId | issueTokens
  | listTotpAuthenticators | verifyTotp | recordTotpStep =>
      exact ⟨rfl, hor _⟩
  | findPrincipal | findPrincipalByName | findPasswordCredential
  | verifyPassword | hashPassword | appendAuditEvent =>
      refine ⟨?_, hor _⟩
      simp only [serve, performAuth]
      split <;> rfl

theorem alone_call {q : AuthReq} {f : q.Resp → Prog auth α}
    {Q : α → Run → Prop}
    (h : Alone derive (f (serve derive q s).1) Q (serve derive q s).2) :
    Alone derive (call q >>= f) Q s := by
  rintro s₁ rfl r s₂ h₂
  obtain ⟨rfl, rfl⟩ := Prod.mk.inj h₂
  exact ⟨trivial, h⟩

theorem calm_call {q : AuthReq} {f : q.Resp → Prog auth α}
    {Q : α → Run → Prop} (hs : Calm sessions failed s) (hq : benign q = true)
    (h : ∀ r s', Calm sessions failed s' → Alone derive (f r) Q s') :
    Alone derive (call q >>= f) Q s :=
  alone_call (h _ _ (serve_calm hs hq))

theorem recordOutcome_calm {actor : App.AuditActor}
    {actorPrincipalId target : Option PrincipalId}
    {permission : ProductPermission} {action : AuditAction}
    {outcome : AuditOutcome} {now : Instant} {Q : Unit → Run → Prop}
    (hs : Calm sessions failed s)
    (h : ∀ s', Calm sessions failed s' → Q () s') :
    Alone derive (recordOutcome actor actorPrincipalId permission action
      outcome target now) Q s := by
  unfold recordOutcome
  split
  · exact h s hs
  · exact calm_call hs rfl fun _ s₁ h₁ =>
      calm_call h₁ rfl fun _ s₂ h₂ => h s₂ h₂

theorem recordOutcome_any {actor : App.AuditActor}
    {actorPrincipalId target : Option PrincipalId}
    {permission : ProductPermission} {action : AuditAction}
    {outcome : AuditOutcome} {now : Instant} {Q : Unit → Run → Prop}
    (h : ∀ s', Q () s') :
    Alone derive (recordOutcome actor actorPrincipalId permission action
      outcome target now) Q s := by
  unfold recordOutcome
  split
  · exact h s
  · exact alone_call (alone_call (h _))

theorem endSessions_ended {actor : App.AuditActor}
    {actorPrincipalId target : Option PrincipalId} {cookie : Option Cookie}
    {now : Instant} (hs : Calm sessions false s) :
    Alone derive (endSessions actor actorPrincipalId P target cookie now)
      (Ended sessions P) s := by
  refine alone_call ?_
  obtain ⟨rfl, hfailed⟩ := hs
  cases hfault : (s.oracles 0).fault with
  | some f =>
      simp only [serve, performAuth, hfault]
      exact Safe.bind.mpr (recordOutcome_any fun _ h => (by cases h))
  | none =>
      simp only [serve, performAuth, hfault]
      refine Safe.bind.mpr (recordOutcome_calm ⟨rfl,
        show (s.failed || _) = false by rw [hfailed]; rfl⟩ fun s₁ h₁ _ => ?_)
      exact ⟨h₁.2, now, h₁.1⟩

theorem replacePassword_ended {newPassword : String} {now : Instant}
    {next : Prog auth Response} (hs : Calm sessions false s)
    (h : ∀ s', Calm sessions false s' → Alone derive next (Ended sessions P) s') :
    Alone derive (replacePassword P newPassword now next) (Ended sessions P)
      s := by
  refine calm_call hs rfl fun r s₁ h₁ => ?_
  cases r with
  | error e => cases e <;> exact fun h => (by cases h)
  | ok hash =>
      refine alone_call ?_
      obtain ⟨rfl, hfailed⟩ := h₁
      cases hfault : (s₁.oracles 0).fault with
      | some f =>
          simp only [serve, performAuth, hfault]
          exact fun h => (by cases h)
      | none =>
          cases hsave : savePasswordCredential s₁.store.principals
              s₁.store.credentials ⟨P, hash, now⟩ with
          | error e =>
              simp only [serve, performAuth, hfault, hsave, stored]
              exact fun h => (by cases h)
          | ok credentials =>
              simp only [serve, performAuth, hfault, hsave, stored]
              exact h _ ⟨rfl, by rw [hfailed]; rfl⟩

theorem changePassword_ended {context : AuthContext}
    {ip currentPassword newPassword : String}
    (hs : Calm sessions false s) (hP : ∀ P', context.actorPrincipalId = some P' → P' = P) :
    Alone derive (changePassword context ip currentPassword newPassword)
      (Ended sessions P) s := by
  refine calm_call hs rfl fun now s₁ h₁ => ?_
  split
  · exact fun h => (by cases h)
  · split
    · exact fun h => (by cases h)
    · next P' hP' =>
        obtain rfl := hP P' hP'
        refine calm_call h₁ rfl fun r s₂ h₂ => ?_
        cases r with
        | none => exact fun h => (by cases h)
        | some reservation =>
            refine calm_call h₂ rfl fun r s₃ h₃ => ?_
            match r with
            | .error e =>
                exact Safe.bind.mpr (recordOutcome_any fun _ h => (by cases h))
            | .ok none =>
                exact Safe.bind.mpr (recordOutcome_any fun _ h => (by cases h))
            | .ok (some credential) =>
                refine calm_call h₃ rfl fun r s₄ h₄ => ?_
                cases r with
                | false =>
                    exact Safe.bind.mpr (recordOutcome_any fun _ h => (by cases h))
                | true =>
                    exact replacePassword_ended h₄ fun _ h₅ => endSessions_ended h₅

/-- An administration handler does as its action does, or refuses. -/
theorem administer_ended {context : AuthContext} {path : Option PrincipalId}
    {ip attempts dummyInput : String} {act : PrincipalId → Prog auth Response}
    (hs : Calm sessions false s) (hP : ∀ P', path = some P' → P' = P)
    (h : ∀ s', Calm sessions false s' → Alone derive (act P) (Ended sessions P) s') :
    Alone derive (administer context path ip attempts dummyInput act)
      (Ended sessions P) s := by
  unfold administer
  split
  · exact fun h => (by cases h)
  · split
    · exact fun h => (by cases h)
    · next P' =>
        obtain rfl := hP P' rfl
        refine calm_call hs rfl fun r s₁ h₁ => ?_
        cases r with
        | none => exact fun h => (by cases h)
        | some reservation =>
            refine calm_call h₁ rfl fun r s₂ h₂ => ?_
            match r with
            | .error e => exact calm_call h₂ rfl fun _ _ _ h => (by cases h)
            | .ok none => exact calm_call h₂ rfl fun _ _ _ h => (by cases h)
            | .ok (some principal) => exact h s₂ h₂

theorem setUserPassword_ended {context : AuthContext}
    {path : Option PrincipalId} {ip newPassword : String}
    (hs : Calm sessions false s) (hP : ∀ P', path = some P' → P' = P) :
    Alone derive (setUserPassword context path ip newPassword)
      (Ended sessions P) s := by
  refine calm_call hs rfl fun now s₁ h₁ => ?_
  split
  · exact fun h => (by cases h)
  · exact administer_ended h₁ hP fun _ h₂ => replacePassword_ended h₂ fun _ h₃ =>
      endSessions_ended h₃

/-! ## Administration -/

/-- The second half of the two administration handlers: a success, whatever
becomes of the revocation. -/
theorem run_dropSessions (derive : Bytes → String → Bytes) (P : PrincipalId)
    (context : AuthContext) (now : Instant) (s : Run) :
    let r := Prog.run (serve derive) (dropSessions context P now) s
    r.1.isSuccess = true ∧
      ((s.oracles 0).fault = none → Calm
        (revokeSessionsForPrincipal s.store.sessions P now).2 s.failed r.2) ∧
      ((s.oracles 0).fault ≠ none → r.2.failed = true) := by
  have hafter : ∀ sessions failed,
      Calm sessions failed
        (serve derive (.revokeSessionsForPrincipal P now) s).2 →
      Alone derive (dropSessions context P now)
        (fun r s => r.isSuccess = true ∧ Calm sessions failed s) s :=
    fun _ _ hs => alone_call (Safe.bind.mpr
      (recordOutcome_calm hs fun _ h => ⟨rfl, h⟩))
  cases hfault : (s.oracles 0).fault with
  | some f =>
      have h := (hafter s.store.sessions true (by
        simp only [serve, performAuth, hfault]
        exact ⟨rfl, Bool.or_true _⟩)).run
      exact ⟨h.1, nofun, fun _ => h.2.2⟩
  | none =>
      have h := (hafter (revokeSessionsForPrincipal s.store.sessions P now).2
        s.failed (by
          simp only [serve, performAuth, hfault]
          exact ⟨rfl, Bool.or_false _⟩)).run
      exact ⟨h.1, fun _ => h.2, fun h => absurd rfl h⟩

theorem run_call {α : Type} {q : AuthReq} {f : q.Resp → Prog auth α}
    {s : Run} : Prog.run (serve derive) (call q >>= f) s =
      Prog.run (serve derive) (f (serve derive q s).1)
        (serve derive q s).2 := rfl

/-- The first half: the action runs two calls later, or the answer is a
refusal. -/
theorem run_administer (derive : Bytes → String → Bytes)
    (context : AuthContext) (path : Option PrincipalId)
    (ip attempts dummyInput : String) (act : PrincipalId → Prog auth Response)
    (w : AuthStore) (os : Nat → AuthOracle) :
    let r := Prog.run (serve derive)
      (administer context path ip attempts dummyInput act)
      ⟨w, fun n => os (n + 1), false⟩
    (∃ P, Admitted context path w os P ∧ r = Prog.run (serve derive) (act P)
      ⟨w, fun n => os (n + 3), false⟩) ∨
    (∀ P, ¬ Admitted context path w os P) ∧ r.1.isSuccess = false := by
  unfold Admitted administer
  cases context.actorPrincipalId with
  | none => exact .inr ⟨fun P h => (by cases h.1), rfl⟩
  | some actor =>
      cases path with
      | none => exact .inr ⟨fun P h => (by cases h.2.1), rfl⟩
      | some P =>
          cases hbudget : (os 1).reservation with
          | none =>
              refine .inr ⟨fun P h => (by cases h.2.2.1), ?_⟩
              simp only [run_call, serve, performAuth, hbudget]
              rfl
          | some reservation =>
              cases hfault : (os 2).fault with
              | some f =>
                  refine .inr ⟨fun P h => (by cases h.2.2.2.1), ?_⟩
                  simp only [run_call, serve, performAuth, hbudget, hfault]
                  rfl
              | none =>
                  cases hfind : findPrincipal w.principals P with
                  | error e =>
                      refine .inr ⟨?_, ?_⟩
                      · rintro P' ⟨-, hP, -, -, p, hp⟩
                        cases hP
                        rw [hfind] at hp
                        cases hp
                      · simp only [run_call, serve, performAuth, hbudget,
                          hfault, hfind]
                        rfl
                  | ok found =>
                      cases found with
                      | none =>
                          refine .inr ⟨?_, ?_⟩
                          · rintro P' ⟨-, hP, -, -, p, hp⟩
                            cases hP
                            rw [hfind] at hp
                            cases hp
                          · simp only [run_call, serve, performAuth, hbudget,
                              hfault, hfind]
                            rfl
                      | some p =>
                          refine .inl ⟨P, ⟨rfl, rfl, rfl, rfl, p, hfind⟩, ?_⟩
                          simp only [run_call, serve, performAuth, hbudget,
                            hfault, hfind]
                          rfl

end Contracts

/-! ## Requests -/

section Requests

variable {request : Request} {w : AuthStore} {os : Nat → AuthOracle}

theorem kept_of_ended {P : PrincipalId}
    (hP : ∀ P', request.subject = some P' → P' = P)
    (h : Ended w.sessions P (answer derive request w os).1
      (answer derive request w os).2) : Kept derive request w os := by
  refine ⟨fun hsuccess P' hP' id a ha haP _ => ?_, fun hfailed => ?_⟩
  · obtain rfl := hP P' hP'
    obtain ⟨-, at', hsessions⟩ := h hsuccess
    refine ⟨revokedSession P' at' a, ?_, revokedSession_revoked haP⟩
    rw [hsessions, find_revokeSessionsForPrincipal, ha]
    rfl
  · refine Bool.eq_false_iff.mpr fun hsuccess => ?_
    rw [(h hsuccess).1] at hfailed
    cases hfailed

theorem kept_of_refused (h : (answer derive request w os).1.isSuccess = false) :
    Kept derive request w os :=
  ⟨fun hsuccess => (by rw [h] at hsuccess; cases hsuccess), fun _ => h⟩

/-- An administration request once its write went through: the answer is a
success, and it is right exactly if the revocation did not fail. -/
theorem kept_iff_of_dropped {P : PrincipalId} {context : AuthContext}
    {now : Instant} {s : Run} (hP : request.subject = some P)
    (hs : Calm w.sessions false s) (hos : s.oracles 0 = os 4)
    (hrun : answer derive request w os =
      Prog.run (serve derive) (dropSessions context P now) s) :
    Kept derive request w os ↔ (os 4).fault = none := by
  obtain ⟨hsuccess, hkept, hlost⟩ :=
    run_dropSessions derive P context now s
  rw [← hrun] at hsuccess hkept hlost
  rw [hos] at hkept hlost
  constructor
  · intro h
    refine Decidable.byContradiction fun hfault => ?_
    have := h.surfaced (hlost hfault)
    rw [hsuccess] at this
    cases this
  · intro hfault
    refine kept_of_ended (P := P) (fun P' hP' => ?_) fun _ => ?_
    · exact Option.some.inj (hP'.symm.trans hP)
    · obtain ⟨hsessions, hfailed⟩ := hkept hfault
      exact ⟨hfailed.trans hs.2, now, by rw [hsessions, hs.1]⟩

/-- An administration request whose action is a write and, if that goes
through, the revocation. -/
theorem administration_kept_iff {context : AuthContext}
    {path : Option PrincipalId} {ip attempts dummyInput : String}
    {act : PrincipalId → Prog auth Response} (now : Instant)
    (writes : PrincipalId → Prop) (hpath : request.subject = path)
    (hstart : answer derive request w os = Prog.run (serve derive)
      (administer context path ip attempts dummyInput act)
      ⟨w, fun n => os (n + 1), false⟩)
    (hrefused : ∀ P, ¬ writes P → (Prog.run (serve derive) (act P)
      ⟨w, fun n => os (n + 3), false⟩).1.isSuccess = false)
    (hwritten : ∀ P, writes P → ∃ s, Calm w.sessions false s ∧
      s.oracles 0 = os 4 ∧ Prog.run (serve derive) (act P)
        ⟨w, fun n => os (n + 3), false⟩ =
          Prog.run (serve derive) (dropSessions context P now) s) :
    Kept derive request w os ↔ ¬ ∃ P, Admitted context path w os P ∧
      writes P ∧ (os 4).fault ≠ none := by
  rcases run_administer derive context path ip attempts dummyInput
      act w os with ⟨P, hP, hrun⟩ | ⟨hno, hrun⟩
  · have hone : ∀ P', Admitted context path w os P' → P' = P := fun P' h =>
      Option.some.inj (h.2.1.symm.trans hP.2.1)
    by_cases hw : writes P
    · obtain ⟨s, hs, hos, hact⟩ := hwritten P hw
      refine (kept_iff_of_dropped (hpath.trans hP.2.1) hs hos
        (hstart.trans (hrun.trans hact))).trans ?_
      constructor
      · rintro hnone ⟨P', -, -, hsome⟩
        exact hsome hnone
      · intro h
        exact Decidable.byContradiction fun hsome => h ⟨P, hP, hw, hsome⟩
    · refine iff_of_true (kept_of_refused ?_) ?_
      · rw [hstart, hrun]
        exact hrefused P hw
      · rintro ⟨P', hP', hw', -⟩
        exact hw (hone P' hP' ▸ hw')
  · refine iff_of_true (kept_of_refused (hstart ▸ hrun)) ?_
    rintro ⟨P, hP, -⟩
    exact hno P hP

theorem assignUserRole_kept_iff {context : AuthContext}
    {path : Option PrincipalId} {ip : String} {role : Role} :
    Kept derive (.assignUserRole context path ip role) w os ↔
      ¬ Swallowed w os (.assignUserRole context path ip role) := by
  refine administration_kept_iff (os 0).clock (RoleStored context role w os)
    rfl (by rfl) ?_ ?_
  · intro P hno
    unfold applyUserRole
    rw [run_call]
    cases hfault : (os 3).fault with
    | some f =>
        simp only [serve, performAuth, hfault]
        rfl
    | none =>
        cases hassign : Store.assignRole ⟨w.principals.has, (os 3).instances⟩
            w.roles ⟨P, role, context.actorPrincipalId, (os 0).clock, none⟩ with
        | error e =>
            simp only [serve, performAuth, hfault, hassign, stored]
            rfl
        | ok roles => exact absurd ⟨hfault, roles, hassign⟩ hno
  · rintro P ⟨hfault, roles, hassign⟩
    refine ⟨⟨{ w with roles }, fun n => os (n + 4), false⟩, ⟨rfl, rfl⟩, rfl, ?_⟩
    unfold applyUserRole
    rw [run_call]
    simp only [serve, performAuth, hfault, hassign, stored]
    rfl

theorem disableUser_kept_iff {context : AuthContext}
    {path : Option PrincipalId} {ip : String} :
    Kept derive (.disableUser context path ip) w os ↔
      ¬ Swallowed w os (.disableUser context path ip) := by
  refine administration_kept_iff (os 0).clock (StateStored w os) rfl (by rfl)
    ?_ ?_
  · intro P hno
    unfold applyUserState
    rw [run_call]
    cases hfault : (os 3).fault with
    | some f =>
        simp only [serve, performAuth, hfault]
        rfl
    | none =>
        cases hset : Store.setPrincipalState w.principals P .disabled
            (os 0).clock with
        | error e =>
            simp only [serve, performAuth, hfault, hset, stored]
            rfl
        | ok principals => exact absurd ⟨hfault, principals, hset⟩ hno
  · rintro P ⟨hfault, principals, hset⟩
    refine ⟨⟨{ w with principals }, fun n => os (n + 4), false⟩, ⟨rfl, rfl⟩,
      rfl, ?_⟩
    unfold applyUserState
    rw [run_call]
    simp only [serve, performAuth, hfault, hset, stored]
    rfl

end Requests

/-- For every starting store and every pattern of failures: an answer is right
exactly if it is not that of a role change or a disabling whose own write went
through and whose revocation failed. -/
theorem revocation_kept_iff (derive : Bytes → String → Bytes)
    (request : Request) (w : AuthStore) (os : Nat → AuthOracle) :
    Kept derive request w os ↔ ¬ Swallowed w os request := by
  cases request with
  | changePassword context ip currentPassword newPassword =>
      refine iff_of_true ?_ id
      refine kept_of_ended (P := context.actorPrincipalId.getD ⟨0⟩) ?_
        (changePassword_ended ⟨rfl, rfl⟩ ?_).run
      · intro P hP
        exact (congrArg (Option.getD · ⟨0⟩) hP).symm
      · intro P hP
        exact (congrArg (Option.getD · ⟨0⟩) hP).symm
  | setUserPassword context path ip newPassword =>
      refine iff_of_true ?_ id
      refine kept_of_ended (P := path.getD ⟨0⟩) ?_
        (setUserPassword_ended ⟨rfl, rfl⟩ ?_).run
      · intro P hP
        exact (congrArg (Option.getD · ⟨0⟩) hP).symm
      · intro P hP
        exact (congrArg (Option.getD · ⟨0⟩) hP).symm
  | assignUserRole context path ip role => exact assignUserRole_kept_iff
  | disableUser context path ip => exact disableUser_kept_iff

/-! ### A role change whose revocation fails -/

/-- An administrator, a viewer and the viewer's session. -/
def viewerSignedIn : AuthStore where
  principals := (Table.empty.insertNew ⟨⟨1⟩, ⟨"admin"⟩, .enabled, 0, 0⟩).insertNew
    ⟨⟨2⟩, ⟨"eve"⟩, .enabled, 0, 0⟩
  credentials := .empty
  roles := .empty
  sessions := Table.empty.insertNew ⟨⟨7⟩, ⟨2⟩, [1], [2], 0, 0, 100, none⟩

/-- A working service at every call but the fifth. -/
def fifthFails (n : Nat) : AuthOracle where
  fault := if n = 4 then some .database else none
  clock := 10
  reservation := some 0
  sessionId := ⟨8⟩
  tokens := .error .failed
  gate := none
  salt := []
  authenticators := .ok []
  totpStep := none
  totpRecorded := .ok false
  instances := fun _ => false

def demoteViewer : Request :=
  .assignUserRole ⟨.user, some ⟨1⟩, some ⟨6⟩⟩ (some ⟨2⟩) "192.0.2.1" .viewer

theorem revocation_lost_behind_success :
    ¬ ∀ derive request w os, Kept derive request w os := by
  intro h
  have hkept := h (fun _ _ => []) demoteViewer viewerSignedIn fifthFails
  exact absurd (hkept.surfaced (by decide)) (by decide)

/-- The session is left as it was. -/
example : ((answer (fun _ _ => []) demoteViewer viewerSignedIn
    fifthFails).2.store.sessions.find ⟨7⟩).map Session.revokedAt =
      some none := by
  decide

end Rutilus.Proofs.Revocation
