import Rutilus.Lib.Rely
import Rutilus.Web.Logins

/-!
# Sign-ins that race with a password change

A change stores the password and then revokes what sessions there are. A
sign-in that had looked the password up before may open its session after
that, and nothing looks at the password again. So a session of an old password
outlives the change exactly if its sign-in opens it behind the revocation:
`Quiet` is the absence of such a step.

`Fenced` says it of the tables: no open session was issued for a password older
than the newest one whose change has revoked. A change that answers success has
revoked, so its password is not newer than the fence (`Done`).
-/

namespace Rutilus.Proofs.LoginRace

open Rutilus.Domain Rutilus.Domain.User Rutilus.Lib Rutilus.Store
open Rutilus.Web.Auth Rutilus.Web.Logins

variable {derive : Bytes → String → Bytes}

/-! ## The fence -/

def Fenced (s : Shared) : Prop :=
  ∀ id row, s.store.sessions.find id = some row → row.revokedAt = none →
    s.fence row.principalId ≤ s.issued id

/-- A session is opened only if no change of the principal's password that was
stored after the sign-in looked it up has revoked already. -/
def QuietCall (derive : Bytes → String → Bytes) (n : Notes)
    (o : AuthOracle) : AuthReq → Shared → Prop
  | .createSession session, s =>
      (performAuth derive o (.createSession session) s.store).1 = .ok () →
        s.fence session.principalId ≤ n.version
  | _, _ => True

def Quiet (derive : Bytes → String → Bytes) (s : State) : Label → Prop
  | .step i o => match s.flights[i]? with
    | some ⟨_, n, .call q _⟩ => QuietCall derive n o q s.shared
    | _ => True
  | _ => True

section Fence

variable {n : Notes} {o : AuthOracle} {s t : Shared}

/-- The rows only move on. -/
theorem fenced_of_later (hf : t.fence = s.fence) (hi : t.issued = s.issued)
    (hrows : ∀ id b, t.store.sessions.find id = some b →
      ∃ a, s.store.sessions.find id = some a ∧ SessionLater a b)
    (h : Fenced s) : Fenced t := by
  intro id b hb hopen
  obtain ⟨a, ha, hP, hrevoked⟩ := hrows id b hb
  rw [hf, hi, hP]
  refine h id a ha (Option.not_isSome_iff_eq_none.mp fun hsome => ?_)
  have := hrevoked hsome
  rw [hopen] at this
  cases this

theorem fenced_of_eq (hf : t.fence = s.fence) (hi : t.issued = s.issued)
    (hrows : t.store.sessions = s.store.sessions) (h : Fenced s) : Fenced t :=
  fenced_of_later hf hi (fun _ b hb => ⟨b, hrows ▸ hb, .refl b⟩) h

theorem setAt_same {α β : Type} [DecidableEq α] (f : α → β) (a : α) (b : β) :
    setAt f a b a = b := if_pos rfl

theorem setAt_of_ne {α β : Type} [DecidableEq α] {f : α → β} {a x : α} {b : β}
    (h : x ≠ a) : setAt f a b x = f x := if_neg h

theorem fenced_create {session : Session} (h : Fenced s)
    (hopen : session.revokedAt = none) :
    Fenced (perform derive n o (.createSession session) s).2.2 ↔
      QuietCall derive n o (.createSession session) s := by
  unfold QuietCall perform
  cases hfault : o.fault with
  | some f =>
      simp only [performAuth, hfault]
      exact iff_of_true h nofun
  | none =>
      cases hcreate : createSession s.store.principals s.store.sessions
          session with
      | error e =>
          simp only [performAuth, hfault, hcreate, stored]
          exact iff_of_true h nofun
      | ok sessions =>
          simp only [performAuth, hfault, hcreate, stored, note]
          have hfind := createSession_find hcreate
          constructor
          · intro hfenced _
            have := hfenced session.id session
              ((hfind session.id).2.trans (if_pos rfl)) hopen
            dsimp only at this
            rwa [setAt_same] at this
          · intro hquiet id row hrow hrowopen
            dsimp only at hrow ⊢
            rw [(hfind id).2] at hrow
            split at hrow
            · next hid =>
                subst hid
                cases hrow
                rw [setAt_same]
                exact hquiet rfl
            · next hid =>
                rw [setAt_of_ne (Ne.symm hid)]
                exact h id row hrow hrowopen

theorem fenced_revokeAll {P : PrincipalId} {at' : Instant} (h : Fenced s) :
    Fenced (perform derive n o (.revokeSessionsForPrincipal P at') s).2.2 := by
  unfold perform
  cases hfault : o.fault with
  | some f =>
      simp only [performAuth, hfault]
      exact h
  | none =>
      simp only [performAuth, hfault]
      have hrevoked : ∀ f : PrincipalId → Nat,
          (∀ P', P' ≠ P → f P' = s.fence P') →
          Fenced { s with
            fence := f
            store := { s.store with sessions :=
              (revokeSessionsForPrincipal s.store.sessions P at').2 } } := by
        intro f hf id b hb hbopen
        dsimp only at hb ⊢
        rw [find_revokeSessionsForPrincipal] at hb
        obtain ⟨a, ha, rfl⟩ := Option.map_eq_some_iff.mp hb
        obtain ⟨hP, hlater⟩ := revokedSession_later P at' a
        have haopen : a.revokedAt = none := by
          refine Option.not_isSome_iff_eq_none.mp fun hsome => ?_
          have := hlater hsome
          rw [hbopen] at this
          cases this
        rw [hP]
        by_cases heq : a.principalId = P
        · have := @revokedSession_revoked at' P a heq
          rw [hbopen] at this
          cases this
        · rw [hf _ heq]
          exact h id a ha haopen
      obtain ⟨read, saved⟩ := n
      cases saved with
      | none => exact hrevoked s.fence fun _ _ => rfl
      | some saved =>
          simp only [note]
          split
          · exact hrevoked _ fun _ hne => setAt_of_ne hne
          · exact hrevoked s.fence fun _ _ => rfl

theorem fenced_revoke {id : SessionId} {at' : Instant} (h : Fenced s) :
    Fenced (perform derive n o (.revokeSession id at') s).2.2 := by
  unfold perform
  cases hfault : o.fault with
  | some f =>
      simp only [performAuth, hfault]
      exact h
  | none =>
      simp only [performAuth, hfault]
      cases hrevoke : revokeSession s.store.sessions id at' with
      | error e => cases e <;> exact h
      | ok sessions =>
          obtain ⟨row, hrow, hsessions⟩ := revokeSession_ok hrevoke
          have hlater := replace_later { row with revokedAt := some at' } hrow
            rfl ⟨rfl, fun _ => rfl⟩
          rw [← hsessions] at hlater
          exact fenced_of_later (s := s) (t := { s with store := { s.store with
            sessions } }) rfl rfl (fun id' => (hlater id').2) h

/-- The three calls on sessions. -/
def onSessions : AuthReq → Bool
  | .createSession _ | .revokeSession .. | .revokeSessionsForPrincipal .. =>
      true
  | _ => false

theorem perform_other {q : AuthReq} (hq : onSessions q = false) :
    (perform derive n o q s).2.2.fence = s.fence ∧
      (perform derive n o q s).2.2.issued = s.issued ∧
      (perform derive n o q s).2.2.store.sessions = s.store.sessions := by
  unfold perform
  cases q with
  | createSession | revokeSession | revokeSessionsForPrincipal => cases hq
  | now | reserve | refund | generateSessionId | issueTokens
  | listTotpAuthenticators | verifyTotp | recordTotpStep => exact ⟨rfl, rfl, rfl⟩
  | findPrincipal | findPrincipalByName | verifyPassword | hashPassword
  | appendAuditEvent =>
      simp only [performAuth]
      split <;> exact ⟨rfl, rfl, rfl⟩
  | findPasswordCredential P =>
      simp only [performAuth]
      split
      · exact ⟨rfl, rfl, rfl⟩
      · cases s.store.credentials.find P <;> exact ⟨rfl, rfl, rfl⟩
  | setPrincipalState P state at' =>
      simp only [performAuth]
      split
      · exact ⟨rfl, rfl, rfl⟩
      · cases setPrincipalState s.store.principals P state at' <;>
          exact ⟨rfl, rfl, rfl⟩
  | assignRole assignment =>
      simp only [performAuth]
      split
      · exact ⟨rfl, rfl, rfl⟩
      · cases Store.assignRole ⟨s.store.principals.has, o.instances⟩
          s.store.roles assignment <;> exact ⟨rfl, rfl, rfl⟩
  | savePasswordCredential credential =>
      simp only [performAuth]
      split
      · exact ⟨rfl, rfl, rfl⟩
      · cases savePasswordCredential s.store.principals s.store.credentials
          credential <;> exact ⟨rfl, rfl, rfl⟩

theorem fenced_other {q : AuthReq} (hq : onSessions q = false)
    (h : Fenced s) : Fenced (perform derive n o q s).2.2 := by
  obtain ⟨hf, hi, hrows⟩ := perform_other (n := n) (o := o)
    (s := s) hq
  exact fenced_of_eq hf hi hrows h

theorem fence_le_note (n : Notes) (q : AuthReq) (r : q.Resp) (s : Shared)
    (P : PrincipalId) : s.fence P ≤ (note n q r s).2.fence P := by
  cases q with
  | createSession session => cases r <;> exact Nat.le_refl _
  | savePasswordCredential credential => cases r <;> exact Nat.le_refl _
  | findPasswordCredential P' =>
      match r with
      | .error e => exact Nat.le_refl _
      | .ok none => exact Nat.le_refl _
      | .ok (some credential) => exact Nat.le_refl _
  | revokeSessionsForPrincipal P' at' =>
      obtain ⟨read, saved⟩ := n
      cases r with
      | error e => exact Nat.le_refl _
      | ok hits =>
          cases saved with
          | none => exact Nat.le_refl _
          | some saved =>
              simp only [note]
              split
              · by_cases heq : P = P'
                · subst heq
                  dsimp only
                  rw [setAt_same]
                  exact Nat.le_max_left _ _
                · dsimp only
                  rw [setAt_of_ne heq]
              · exact Nat.le_refl _
  | _ => exact Nat.le_refl _

theorem fence_le (derive : Bytes → String → Bytes) (n : Notes)
    (o : AuthOracle) (q : AuthReq) (s : Shared) (P : PrincipalId) :
    s.fence P ≤ (perform derive n o q s).2.2.fence P :=
  fence_le_note n q _ { s with store := (performAuth derive o q s.store).2 } P

end Fence

/-! ## One request -/

/-- What a request sees: the shared state and what is remembered of it. -/
abbrev View : Type := Shared × Notes

def Calls (derive : Bytes → String → Bytes) : Sem auth View :=
  fun q a r b => ∃ o, perform derive a.2 o q a.1 = (r, b.2, b.1)

def Others (a b : View) : Prop :=
  b.2 = a.2 ∧ ∀ P, a.1.fence P ≤ b.1.fence P

theorem Others.trans {a b c : View} (h₁ : Others a b) (h₂ : Others b c) :
    Others a c :=
  ⟨h₂.1.trans h₁.1, fun P => Nat.le_trans (h₁.2 P) (h₂.2 P)⟩

/-- A session is opened for the principal whose password was looked up. -/
def Entitled : AuthReq → View → Prop
  | .createSession session, v =>
      (∃ u, v.2.read = some (session.principalId, u)) ∧
        session.revokedAt = none
  | _, _ => True

abbrev FlightSafe (derive : Bytes → String → Bytes) {α : Type}
    (p : Prog auth α) (Q : α → View → Prop) (v : View) : Prop :=
  Safe (Calls derive) Others (fun q a _ => Entitled q a) p Q v

/-- A call that leaves the notes of the request alone. -/
def plain : AuthReq → Bool
  | .findPasswordCredential _ | .savePasswordCredential _ => false
  | _ => true

theorem note_plain {n : Notes} {q : AuthReq} {r : q.Resp} {s : Shared}
    (hq : plain q = true) : (note n q r s).1 = n := by
  cases q with
  | findPasswordCredential | savePasswordCredential => cases hq
  | createSession session => cases r <;> rfl
  | revokeSessionsForPrincipal P at' =>
      obtain ⟨read, saved⟩ := n
      cases r with
      | error e => rfl
      | ok hits =>
          cases saved with
          | none => rfl
          | some saved =>
              simp only [note]
              split <;> rfl
  | _ => rfl

theorem others_call {q : AuthReq} {r : q.Resp} {a b : View}
    (h : Calls derive q a r b) (hq : plain q = true) : Others a b := by
  obtain ⟨o, h⟩ := h
  have hnotes : (perform derive a.2 o q a.1).2.1 = a.2 := note_plain hq
  have hfence := fence_le derive a.2 o q a.1
  rw [h] at hnotes hfence
  exact ⟨hnotes, hfence⟩

section Programs

variable {α : Type} {J : View → Prop} {v : View}

theorem plain_call {q : AuthReq} {f : q.Resp → Prog auth α}
    {Q : α → View → Prop} (hJ : ∀ a b, Others a b → J a → J b)
    (hv : J v) (hq : plain q = true) (hE : ∀ a, J a → Entitled q a)
    (h : ∀ r v', J v' → FlightSafe derive (f r) Q v') :
    FlightSafe derive (call q >>= f) Q v := by
  intro v₁ h₁ r v₂ h₂
  have hJ₁ := hJ v v₁ h₁ hv
  exact ⟨hE v₁ hJ₁, h r v₂ (hJ v₁ v₂ (others_call h₂ hq) hJ₁)⟩

theorem recordOutcome_keeps {actor : App.AuditActor}
    {actorPrincipalId target : Option PrincipalId}
    {permission : ProductPermission} {action : AuditAction}
    {outcome : AuditOutcome} {now : Instant} {Q : Unit → View → Prop}
    (hJ : ∀ a b, Others a b → J a → J b) (hv : J v)
    (h : ∀ v', J v' → Q () v') :
    FlightSafe derive (recordOutcome actor actorPrincipalId permission action
      outcome target now) Q v := by
  unfold recordOutcome
  split
  · exact h v hv
  · exact plain_call hJ hv rfl (fun _ _ => trivial) fun _ v₁ h₁ =>
      plain_call hJ h₁ rfl (fun _ _ => trivial) fun _ v₂ h₂ => h v₂ h₂

/-- Audit and answer. -/
theorem recorded {actor : App.AuditActor}
    {actorPrincipalId target : Option PrincipalId}
    {permission : ProductPermission} {action : AuditAction}
    {outcome : AuditOutcome} {now : Instant} {a : α} {Q : α → View → Prop}
    (hJ : ∀ a b, Others a b → J a → J b) (hv : J v)
    (h : ∀ v', J v' → Q a v') :
    FlightSafe derive (do
      recordOutcome actor actorPrincipalId permission action outcome target now
      return a) Q v :=
  Safe.bind.mpr (recordOutcome_keeps hJ hv h)

theorem secondFactor_keeps {P : PrincipalId} {totpCode : Option String}
    {now : Instant} {Q : Option Response → View → Prop}
    (hJ : ∀ a b, Others a b → J a → J b) (hv : J v)
    (h : ∀ r v', J v' → Q r v') :
    FlightSafe derive (secondFactor P totpCode now) Q v := by
  unfold secondFactor
  refine plain_call hJ hv rfl (fun _ _ => trivial) fun r v₁ h₁ => ?_
  match r with
  | .error .derivationGateBusy => exact h _ _ h₁
  | .error .failed => exact recorded hJ h₁ (h _)
  | .ok authenticators =>
      dsimp only
      split
      · exact h _ _ h₁
      · split
        · exact recorded hJ h₁ (h _)
        · refine plain_call hJ h₁ rfl (fun _ _ => trivial) fun r v₂ h₂ => ?_
          cases r with
          | none => exact recorded hJ h₂ (h _)
          | some step =>
              refine plain_call hJ h₂ rfl (fun _ _ => trivial) fun r v₃ h₃ => ?_
              match r with
              | .ok true => exact h _ _ h₃
              | .ok false => exact recorded hJ h₃ (h _)
              | .error e => exact recorded hJ h₃ (h _)

def Any : Response → View → Prop := fun _ _ => True

/-- The password of the principal was looked up. -/
def Known (P : PrincipalId) (v : View) : Prop := ∃ u, v.2.read = some (P, u)

theorem Known.others {P : PrincipalId} (a b : View) (h : Others a b)
    (ha : Known P a) : Known P b := by
  obtain ⟨u, hu⟩ := ha
  exact ⟨u, h.1 ▸ hu⟩

theorem openSession_safe {request : LoginRequest} {P : PrincipalId}
    {ip : String} {secure : Bool} {reservation : Nat} {now : Instant}
    (hv : Known P v) :
    FlightSafe derive (openSession request P ip secure reservation now) Any
      v := by
  refine plain_call Known.others hv rfl (fun _ _ => trivial) fun _ v₁ h₁ => ?_
  refine plain_call Known.others h₁ rfl (fun _ _ => trivial) fun r v₂ h₂ => ?_
  cases r with
  | error e => trivial
  | ok tokens =>
      refine plain_call Known.others h₂ rfl (fun _ _ => trivial)
        fun id v₃ h₃ => ?_
      refine plain_call Known.others h₃ rfl (fun a ha => ⟨ha, rfl⟩)
        fun r v₄ h₄ => ?_
      cases r with
      | error e => trivial
      | ok u => exact recorded Known.others h₄ fun _ _ => trivial

theorem anywhere (a b : View) (_ : Others a b) (_ : True) : True := trivial

theorem dummyPasswordVerification_keeps {password : String}
    {f : Unit → Prog auth α} {Q : α → View → Prop}
    (h : ∀ v', FlightSafe derive (f ()) Q v') :
    FlightSafe derive (dummyPasswordVerification password >>= f) Q v :=
  Safe.bind.mpr (plain_call anywhere trivial rfl (fun _ _ => trivial)
    fun _ v₁ _ => h v₁)

theorem login_safe {request : LoginRequest} {ip : String} {secure : Bool} :
    FlightSafe derive (login request ip secure) Any v := by
  have hfail : ∀ {P now v'}, FlightSafe derive (do
      recordLoginFailure P now
      return signInFailed) Any v' :=
    fun {_ _ _} => recorded anywhere trivial fun _ _ => trivial
  unfold login
  refine plain_call anywhere trivial rfl (fun _ _ => trivial) fun now v₁ _ => ?_
  split
  · trivial
  · refine plain_call anywhere trivial rfl (fun _ _ => trivial)
      fun r v₂ _ => ?_
    cases r with
    | none => trivial
    | some reservation =>
        dsimp only
        split
        · exact hfail
        · refine plain_call anywhere trivial rfl (fun _ _ => trivial)
            fun r v₃ _ => ?_
          match r with
          | .error e => exact dummyPasswordVerification_keeps fun _ => hfail
          | .ok none => exact dummyPasswordVerification_keeps fun _ => hfail
          | .ok (some principal) =>
              dsimp only
              split
              · exact dummyPasswordVerification_keeps fun _ => hfail
              · intro v₄ _ r v₅ h₅
                refine ⟨trivial, ?_⟩
                match r with
                | .error e => exact dummyPasswordVerification_keeps fun _ => hfail
                | .ok none => exact dummyPasswordVerification_keeps fun _ => hfail
                | .ok (some credential) =>
                    have hknown : Known principal.id v₅ := by
                      obtain ⟨o, h⟩ := h₅
                      obtain ⟨hr, h⟩ := Prod.mk.inj h
                      obtain ⟨hn, -⟩ := Prod.mk.inj h
                      rw [hr] at hn
                      exact ⟨v₄.1.saves principal.id,
                        congrArg Notes.read hn.symm⟩
                    refine plain_call Known.others hknown rfl
                      (fun _ _ => trivial) fun r v₆ h₆ => ?_
                    cases r with
                    | false => exact hfail
                    | true =>
                        refine Safe.bind.mpr (secondFactor_keeps Known.others
                          h₆ fun r v₇ h₇ => ?_)
                        cases r with
                        | some response => trivial
                        | none => exact openSession_safe h₇

/-! ### Changes -/

/-- The request has stored the principal's password. -/
def Saved (P : PrincipalId) (v : View) : Prop := ∃ u, v.2.saved = some (P, u)

/-- It has, and the fence is not behind it. -/
def Done (P : PrincipalId) (v : View) : Prop :=
  ∃ u, v.2.saved = some (P, u) ∧ u ≤ v.1.fence P

theorem Done.others {P : PrincipalId} (a b : View) (h : Others a b)
    (ha : Done P a) : Done P b := by
  obtain ⟨u, hu, hle⟩ := ha
  exact ⟨u, h.1 ▸ hu, Nat.le_trans hle (h.2 P)⟩

/-- A success means that the change is done. -/
def DoneIfSuccess (P : PrincipalId) (response : Response) (v : View) : Prop :=
  response.isSuccess → Done P v

theorem revokeAll_call {P : PrincipalId} {at' : Instant} {hits : Nat}
    {a b : View} (ha : Saved P a)
    (h : Calls derive (.revokeSessionsForPrincipal P at') a (.ok hits) b) :
    Done P b := by
  obtain ⟨o, h⟩ := h
  obtain ⟨⟨store, saves, fence, issued⟩, ⟨read, saved⟩⟩ := a
  obtain ⟨u, hu⟩ := ha
  obtain rfl : saved = some (P, u) := hu
  obtain ⟨hr, h⟩ := Prod.mk.inj h
  obtain ⟨hn, hs⟩ := Prod.mk.inj h
  simp only [hr, if_pos] at hn hs
  refine ⟨u, by rw [← hn], ?_⟩
  rw [← hs]
  dsimp only
  rw [setAt_same]
  exact Nat.le_max_right _ _

theorem endSessions_done {P : PrincipalId} {actor : App.AuditActor}
    {actorPrincipalId target : Option PrincipalId} {cookie : Option Cookie}
    {now : Instant} (hv : Saved P v) :
    FlightSafe derive (endSessions actor actorPrincipalId P target cookie now)
      (DoneIfSuccess P) v := by
  intro v₁ h₁ r v₂ h₂
  refine ⟨trivial, ?_⟩
  cases r with
  | error e => exact recorded anywhere trivial fun _ _ h => (by cases h)
  | ok hits =>
      obtain ⟨u, hu⟩ := hv
      have hdone : Done P v₂ := revokeAll_call ⟨u, h₁.1 ▸ hu⟩ h₂
      exact recorded Done.others hdone fun _ h _ => h

theorem replacePassword_done {P : PrincipalId} {newPassword : String}
    {now : Instant} {next : Prog auth Response}
    (h : ∀ v', Saved P v' → FlightSafe derive next (DoneIfSuccess P) v') :
    FlightSafe derive (replacePassword P newPassword now next)
      (DoneIfSuccess P) v := by
  refine plain_call anywhere trivial rfl (fun _ _ => trivial) fun r v₁ _ => ?_
  cases r with
  | error e => cases e <;> exact fun h => (by cases h)
  | ok hash =>
      intro v₂ _ r v₃ h₃
      refine ⟨trivial, ?_⟩
      cases r with
      | error e => exact fun h => (by cases h)
      | ok u =>
          obtain ⟨o, h₃⟩ := h₃
          obtain ⟨hr, h₃⟩ := Prod.mk.inj h₃
          obtain ⟨hn, -⟩ := Prod.mk.inj h₃
          rw [hr] at hn
          exact h v₃ ⟨v₂.1.saves P + 1, congrArg Notes.saved hn.symm⟩

theorem changePassword_done {P : PrincipalId} {context : AuthContext}
    {ip currentPassword newPassword : String}
    (hP : ∀ P', context.actorPrincipalId = some P' → P' = P) :
    FlightSafe derive (changePassword context ip currentPassword newPassword)
      (DoneIfSuccess P) v := by
  refine plain_call anywhere trivial rfl (fun _ _ => trivial) fun now v₁ _ => ?_
  split
  · exact fun h => (by cases h)
  · split
    · exact fun h => (by cases h)
    · next P' hP' =>
        obtain rfl := hP P' hP'
        refine plain_call anywhere trivial rfl (fun _ _ => trivial)
          fun r v₂ _ => ?_
        cases r with
        | none => exact fun h => (by cases h)
        | some reservation =>
            intro v₃ _ r v₄ _
            refine ⟨trivial, ?_⟩
            match r with
            | .error e =>
                exact recorded anywhere trivial fun _ _ h => (by cases h)
            | .ok none =>
                exact recorded anywhere trivial fun _ _ h => (by cases h)
            | .ok (some credential) =>
                refine plain_call anywhere trivial rfl (fun _ _ => trivial)
                  fun r v₅ _ => ?_
                cases r with
                | false =>
                    exact recorded anywhere trivial fun _ _ h => (by cases h)
                | true =>
                    exact replacePassword_done fun _ h => endSessions_done h

/-- An administration handler keeps what a refusal and its action keep. -/
theorem administer_keeps {context : AuthContext} {path : Option PrincipalId}
    {ip attempts dummyInput : String} {act : PrincipalId → Prog auth Response}
    {Q : Response → View → Prop}
    (hrefused : ∀ r v', r.isSuccess = false → Q r v')
    (h : ∀ P, path = some P → ∀ v', FlightSafe derive (act P) Q v') :
    FlightSafe derive (administer context path ip attempts dummyInput act) Q
      v := by
  unfold administer
  split
  · exact hrefused _ _ rfl
  · split
    · exact hrefused _ _ rfl
    · next P =>
        refine plain_call anywhere trivial rfl (fun _ _ => trivial)
          fun r v₁ _ => ?_
        cases r with
        | none => exact hrefused _ _ rfl
        | some reservation =>
            refine plain_call anywhere trivial rfl (fun _ _ => trivial)
              fun r v₂ _ => ?_
            have hdummy : FlightSafe derive (do
                dummyAdminDerivation dummyInput
                return .jsonError .notFound "the principal does not exist")
                Q v₂ :=
              plain_call anywhere trivial rfl (fun _ _ => trivial)
                fun _ _ _ => hrefused _ _ rfl
            match r with
            | .error e => exact hdummy
            | .ok none => exact hdummy
            | .ok (some principal) => exact h P rfl v₂

theorem setUserPassword_done {P : PrincipalId} {context : AuthContext}
    {path : Option PrincipalId} {ip newPassword : String}
    (hP : ∀ P', path = some P' → P' = P) :
    FlightSafe derive (setUserPassword context path ip newPassword)
      (DoneIfSuccess P) v := by
  refine plain_call anywhere trivial rfl (fun _ _ => trivial) fun now v₁ _ => ?_
  split
  · exact fun h => (by cases h)
  · refine administer_keeps (fun r v' hr h => ?_) fun P' hP' v' => ?_
    · rw [hr] at h
      cases h
    · obtain rfl := hP P' hP'
      exact replacePassword_done fun _ h => endSessions_done h

theorem dropSessions_safe {context : AuthContext} {P : PrincipalId}
    {now : Instant} : FlightSafe derive (dropSessions context P now) Any v :=
  plain_call anywhere trivial rfl (fun _ _ => trivial) fun _ _ _ =>
    recorded anywhere trivial fun _ _ => trivial

theorem setUserState_safe {context : AuthContext} {path : Option PrincipalId}
    {ip : String} {state : PrincipalState} :
    FlightSafe derive (setUserState context path ip state) Any v := by
  refine plain_call anywhere trivial rfl (fun _ _ => trivial) fun now v₁ _ => ?_
  refine administer_keeps (fun _ _ _ => trivial) fun P _ v₂ => ?_
  refine plain_call anywhere trivial rfl (fun _ _ => trivial) fun r v₃ _ => ?_
  cases r with
  | error e => trivial
  | ok u =>
      cases state with
      | disabled => exact dropSessions_safe
      | enabled => exact recorded anywhere trivial fun _ _ => trivial

theorem assignUserRole_safe {context : AuthContext} {path : Option PrincipalId}
    {ip : String} {role : Role} :
    FlightSafe derive (assignUserRole context path ip role) Any v := by
  refine plain_call anywhere trivial rfl (fun _ _ => trivial) fun now v₁ _ => ?_
  refine administer_keeps (fun _ _ _ => trivial) fun P _ v₂ => ?_
  refine plain_call anywhere trivial rfl (fun _ _ => trivial) fun r v₃ _ => ?_
  cases r with
  | error e => trivial
  | ok u => exact dropSessions_safe

theorem logout_safe {context : AuthContext} :
    FlightSafe derive (logout context) Any v := by
  refine plain_call anywhere trivial rfl (fun _ _ => trivial) fun now v₁ _ => ?_
  split
  · trivial
  · refine plain_call anywhere trivial rfl (fun _ _ => trivial)
      fun r v₂ _ => ?_
    cases r with
    | error e => trivial
    | ok u => exact recorded anywhere trivial fun _ _ => trivial

/-- What an answer says: a change that succeeded is done. -/
def Answered (request : Request) (response : Response) (v : View) : Prop :=
  ∀ P, request.changes = some P → DoneIfSuccess P response v

theorem answered_of_none {request : Request} (h : request.changes = none)
    (response : Response) (v' : View) : Answered request response v' :=
  fun _ hP => absurd (h.symm.trans hP) nofun

/-- A change is done for the only principal it may be about. -/
theorem FlightSafe.answered {request : Request} {p : Prog auth Response}
    (h : ∀ P, (∀ P', request.changes = some P' → P' = P) →
      FlightSafe derive p (DoneIfSuccess P) v) :
    FlightSafe derive p (Answered request) v := by
  cases hchanges : request.changes with
  | none =>
      refine (h ⟨0⟩ fun P' hP' => ?_).imp fun r v' _ =>
        answered_of_none hchanges r v'
      rw [hchanges] at hP'
      cases hP'
  | some P =>
      refine (h P fun P' hP' => ?_).imp fun r v' hr P' hP' => ?_
      · exact Option.some.inj (hP'.symm.trans hchanges)
      · obtain rfl := Option.some.inj (hP'.symm.trans hchanges)
        exact hr

theorem program_safe (request : Request) :
    FlightSafe derive request.program (Answered request) v := by
  cases request with
  | login request ip secure =>
      exact login_safe.imp fun r v' _ => answered_of_none rfl r v'
  | logout context =>
      exact logout_safe.imp fun r v' _ => answered_of_none rfl r v'
  | setUserState context path ip state =>
      exact setUserState_safe.imp fun r v' _ => answered_of_none rfl r v'
  | assignUserRole context path ip role =>
      exact assignUserRole_safe.imp fun r v' _ => answered_of_none rfl r v'
  | changePassword context ip currentPassword newPassword =>
      exact FlightSafe.answered fun _ hP => changePassword_done hP
  | setUserPassword context path ip newPassword =>
      exact FlightSafe.answered fun _ hP => setUserPassword_done hP

end Programs

/-! ## Any number of requests -/

theorem fenced_perform {n : Notes} {o : AuthOracle} {q : AuthReq} {s : Shared}
    (hs : Fenced s) (hE : Entitled q (s, n)) :
    Fenced (perform derive n o q s).2.2 ↔ QuietCall derive n o q s := by
  cases q with
  | createSession session => exact fenced_create hs hE.2
  | revokeSession id at' => exact iff_of_true (fenced_revoke hs) trivial
  | revokeSessionsForPrincipal P at' =>
      exact iff_of_true (fenced_revokeAll hs) trivial
  | _ => exact iff_of_true (fenced_other rfl hs) trivial

/-- Every request keeps to its contract from where it is. -/
def Inv (derive : Bytes → String → Bytes) (s : State) : Prop :=
  ∀ f ∈ s.flights,
    FlightSafe derive f.rest (Answered f.request) (s.shared, f.notes)

theorem Answered.others {request : Request} {response : Response} {a b : View}
    (h : Others a b) (ha : Answered request response a) :
    Answered request response b :=
  fun P hP hsuccess => Done.others a b h (ha P hP hsuccess)

theorem flight_stable {f : Flight} {s t : Shared}
    (hf : FlightSafe derive f.rest (Answered f.request) (s, f.notes))
    (h : ∀ P, s.fence P ≤ t.fence P) :
    FlightSafe derive f.rest (Answered f.request) (t, f.notes) := by
  have hothers : Others (s, f.notes) (t, f.notes) := ⟨rfl, h⟩
  exact hf.stable Others.trans (fun _ => Answered.others hothers) hothers

section Steps

variable {s t : State}

theorem Inv.step {i : Nat} {o : AuthOracle} {request : Request} {n : Notes}
    {q : AuthReq} {k : q.Resp → Prog auth Response} (h : Inv derive s)
    (hi : s.flights[i]? = some ⟨request, n, .call q k⟩) :
    Entitled q (s.shared, n) ∧
      Inv derive
        ⟨(perform derive n o q s.shared).2.2,
          s.flights.set i ⟨request, (perform derive n o q s.shared).2.1,
            k (perform derive n o q s.shared).1⟩⟩ := by
  have hcall := h _ (List.mem_of_getElem? hi)
  have hrefl : Others (s.shared, n) (s.shared, n) :=
    ⟨rfl, fun _ => Nat.le_refl _⟩
  obtain ⟨hE, hrest⟩ := hcall (s.shared, n) hrefl
    (perform derive n o q s.shared).1
    ((perform derive n o q s.shared).2.2, (perform derive n o q s.shared).2.1)
    ⟨o, rfl⟩
  refine ⟨hE, fun f hf => ?_⟩
  rcases List.mem_or_eq_of_mem_set hf with hf | rfl
  · exact flight_stable (h f hf) (fence_le derive n o q s.shared)
  · exact hrest

theorem Inv.next {l : Label} (h : Inv derive s)
    (hl : next derive s l = some t) :
    Inv derive t ∧
      (Fenced s.shared → (Fenced t.shared ↔ Quiet derive s l)) := by
  cases l with
  | begin request =>
      cases hl
      refine ⟨fun f hf => ?_, fun hs => iff_of_true hs trivial⟩
      rcases List.mem_append.mp hf with hf | hf
      · exact h f hf
      · rw [List.mem_singleton] at hf
        subst hf
        exact program_safe request
  | stop i =>
      cases hl
      exact ⟨fun f hf => h f (List.mem_of_mem_eraseIdx hf),
        fun hs => iff_of_true hs trivial⟩
  | step i o =>
      simp only [Web.Logins.next] at hl
      split at hl
      · next request n q k hi =>
          cases hl
          obtain ⟨hE, hinv⟩ := h.step (o := o) hi
          refine ⟨hinv, fun hs => ?_⟩
          simp only [Quiet, hi]
          exact fenced_perform hs hE
      · cases hl
  | touch sessionId at' =>
      simp only [Web.Logins.next] at hl
      split at hl
      · cases hl
      · next sessions htouch =>
          cases hl
          obtain ⟨row, hrow, rfl⟩ := touchSession_ok htouch
          have hlater := replace_later { row with lastUsedAt := at' } hrow rfl
            ⟨rfl, id⟩
          exact ⟨fun f hf => flight_stable (h f hf) fun _ => Nat.le_refl _,
            fun hs => iff_of_true (fenced_of_later (s := s.shared) rfl rfl
              (fun id' => (hlater id').2) hs) trivial⟩

theorem Inv.of_initial (h : Initial s) : Inv derive s := by
  intro f hf
  rw [h.2.2.2] at hf
  cases hf

theorem Inv.of_reach (h : Reachable derive s) : Inv derive s := by
  refine h.inv (P := Inv derive) (fun _ => Inv.of_initial) ?_
  rintro s t hs ⟨l, hl⟩
  exact (hs.next hl).1

end Steps

/-! ## Runs -/

def QuietStep (derive : Bytes → String → Bytes) (s t : State) : Prop :=
  ∃ l, Quiet derive s l ∧ next derive s l = some t

theorem fenced_of_quiet {s : State}
    (h : Reach Initial (QuietStep derive) s) :
    Inv derive s ∧ Fenced s.shared := by
  refine h.inv (P := fun s => Inv derive s ∧ Fenced s.shared) ?_ ?_
  · intro s hs
    refine ⟨.of_initial hs, fun id row _ _ => ?_⟩
    rw [hs.2.1]
    exact Nat.zero_le _
  · rintro s t ⟨hinv, hfenced⟩ ⟨l, hquiet, hl⟩
    obtain ⟨hinv', hiff⟩ := hinv.next hl
    exact ⟨hinv', (hiff hfenced).mpr hquiet⟩

/-- No open session of the principal was issued for a password older than the
one the request stored. -/
def Ended (s : State) (f : Flight) (P : PrincipalId) : Prop :=
  ∃ u, f.notes.saved = some (P, u) ∧
    ∀ id row, s.shared.store.sessions.find id = some row →
      row.principalId = P → row.revokedAt = none → u ≤ s.shared.issued id

/-- In every run of quiet steps a change that answered success has ended the
sessions of the older passwords for good, and the first step that is not quiet
is the first that leaves an open session behind the newest revocation. -/
theorem old_access_ended_iff_quiet (derive : Bytes → String → Bytes) :
    (∀ s, Reach Initial (QuietStep derive) s →
      ∀ f ∈ s.flights, ∀ P response, f.request.changes = some P →
        f.rest = .ret response → response.isSuccess → Ended s f P) ∧
    ∀ s l t, Reachable derive s → Fenced s.shared →
      next derive s l = some t →
      (Fenced t.shared ↔ Quiet derive s l) := by
  refine ⟨fun s hs f hf P response hP hrest hsuccess => ?_,
    fun s l t hs hfenced hl => ((Inv.of_reach hs).next hl).2 hfenced⟩
  obtain ⟨hinv, hfenced⟩ := fenced_of_quiet hs
  have hsafe := hinv f hf
  rw [hrest] at hsafe
  obtain ⟨u, hu, hle⟩ := hsafe P hP hsuccess
  refine ⟨u, hu, fun id row hrow hrowP hopen => ?_⟩
  have hfence := hfenced id row hrow hopen
  rw [hrowP] at hfence
  exact Nat.le_trans hle hfence

/-! ### A sign-in that comes too late -/

/-- The derivation on the two passwords of the run. -/
def derivePassword (_ : Bytes) (password : String) : Bytes :=
  if password = "first password" then [1] else [2]

def operatorKnown : State where
  shared :=
    { store :=
        { principals := Table.empty.insertNew ⟨⟨1⟩, ⟨"operator"⟩, .enabled, 0, 0⟩
          credentials := Table.empty.insertNew ⟨⟨1⟩, ⟨[], [1]⟩, 0⟩
          roles := .empty
          sessions := .empty }
      saves := fun _ => 0
      fence := fun _ => 0
      issued := fun _ => 0 }
  flights := []

def serving : AuthOracle where
  fault := none
  clock := 10
  reservation := some 0
  sessionId := ⟨7⟩
  tokens := .ok ⟨"token", "csrf", [1], [2]⟩
  gate := none
  salt := []
  authenticators := .ok []
  totpStep := none
  totpRecorded := .ok false
  instances := fun _ => false

/-- The sign-in verifies the first password, the operator changes it, and the
sign-in goes on. -/
def lateSignIn : List Label :=
  [.begin (.login ⟨"operator", "first password", none⟩ "192.0.2.1" true)] ++
    List.replicate 5 (.step 0 serving) ++
    [.begin (.changePassword ⟨.user, some ⟨1⟩, some ⟨6⟩⟩ "192.0.2.2"
      "first password" "second password")] ++
    List.replicate 9 (.step 1 serving) ++
    List.replicate 5 (.step 0 serving)

/-- The change has answered, and an open session is older than its password. -/
def outlived (s : State) : Bool :=
  s.flights.any fun f => match f.rest, f.notes.saved with
    | .ret response, some (P, u) =>
      response.isSuccess ∧ f.request.changes = some P ∧
        s.shared.store.sessions.rows.any fun row =>
          row.principalId = P ∧ row.revokedAt = none ∧
            s.shared.issued row.id < u
    | _, _ => false

theorem old_session_outlives_change :
    ¬ ∀ s, Reachable derivePassword s →
      ∀ f ∈ s.flights, ∀ P response, f.request.changes = some P →
        f.rest = .ret response → response.isSuccess → Ended s f P := by
  intro h
  obtain ⟨s, hs, hp⟩ := exists_reach_of_follow Initial (next derivePassword)
    (s := operatorKnown) lateSignIn outlived ⟨rfl, rfl, rfl, rfl⟩ (by decide)
  obtain ⟨f, hf, hp⟩ := List.any_eq_true.mp hp
  split at hp
  · next response P u hrest hsaved =>
      obtain ⟨hsuccess, hchanges, hold⟩ := of_decide_eq_true hp
      obtain ⟨row, hrow, hold⟩ := List.any_eq_true.mp hold
      obtain ⟨hP, hopen, hlt⟩ := of_decide_eq_true hold
      obtain ⟨u', hu', hended⟩ := h s hs f hf P response hchanges hrest hsuccess
      rw [hsaved] at hu'
      cases hu'
      have hfind := s.shared.store.sessions.find_eq_some_iff.mpr ⟨hrow, rfl⟩
      exact Nat.not_lt.mpr (hended row.id row hfind hP hopen) hlt
  · cases hp

end Rutilus.Proofs.LoginRace
