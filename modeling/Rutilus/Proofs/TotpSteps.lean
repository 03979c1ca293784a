import Rutilus.Lib.Rely
import Rutilus.Web.SecondFactor

/-!
# A code opens one session

A sign-in checks its code against a row that may be stale. What keeps a step from
being taken twice is the condition of the two updates alone: every step taken so
far is used (`Used`), and no update takes a used step.

From there to the sessions it is a matter of bookkeeping. A sign-in that has
recorded a step holds it until it opens its session; `held` lists the steps that
are held or have opened a session. It has no duplicates.
-/

namespace Rutilus.Proofs.TotpSteps

open Rutilus.Domain Rutilus.Domain.User Rutilus.Lib Rutilus.Store
open Rutilus.Web.Auth Rutilus.Web.SecondFactor

variable {hmacSha1 : Bytes → Bytes → Bytes} {derive : Bytes → String → Bytes}

/-! ## One sign-in -/

def NoteCalls : Sem auth Notes := fun q n r n' => n' = noteOf n q r

/-- A session is opened without a code, or on the step that is held. -/
def Entitled : AuthReq → Notes → Prop
  | .createSession _, n => n.verified = none ∨ n.verified = n.token
  | _, _ => True

abbrev LoginSafe {α : Type} (p : Prog auth α) (Q : α → Notes → Prop)
    (n : Notes) : Prop :=
  Safe NoteCalls Eq (fun q n _ => Entitled q n) p Q n

/-- A call that leaves the notes alone. -/
def plain : AuthReq → Bool
  | .listTotpAuthenticators _ | .verifyTotp .. | .recordTotpStep ..
  | .createSession _ => false
  | _ => true

section Programs

variable {α : Type} {n : Notes} {Q : α → Notes → Prop}

theorem noteOf_plain {q : AuthReq} {r : q.Resp} (hq : plain q = true) :
    noteOf n q r = n := by
  cases q with
  | listTotpAuthenticators | verifyTotp | recordTotpStep | createSession =>
      cases hq
  | _ => rfl

theorem entitled_plain {q : AuthReq} (hq : plain q = true) : Entitled q n := by
  cases q with
  | createSession => cases hq
  | _ => trivial

theorem noted_call {q : AuthReq} {f : q.Resp → Prog auth α}
    (hq : Entitled q n) (h : ∀ r, LoginSafe (f r) Q (noteOf n q r)) :
    LoginSafe (call q >>= f) Q n := by
  rintro n₁ rfl r n₂ rfl
  exact ⟨hq, h r⟩

theorem plain_call {q : AuthReq} {f : q.Resp → Prog auth α}
    (hq : plain q = true) (h : ∀ r, LoginSafe (f r) Q n) :
    LoginSafe (call q >>= f) Q n :=
  noted_call (entitled_plain hq) fun r => by
    rw [noteOf_plain hq]
    exact h r

theorem recordOutcome_keeps {actor : App.AuditActor}
    {actorPrincipalId target : Option PrincipalId}
    {permission : ProductPermission} {action : AuditAction}
    {outcome : AuditOutcome} {now : Instant} {Q : Unit → Notes → Prop}
    (h : Q () n) :
    LoginSafe (recordOutcome actor actorPrincipalId permission action outcome
      target now) Q n := by
  unfold recordOutcome
  split
  · exact h
  · exact plain_call rfl fun _ => plain_call rfl fun _ => h

/-- Audit and answer. -/
theorem recorded {actor : App.AuditActor}
    {actorPrincipalId target : Option PrincipalId}
    {permission : ProductPermission} {action : AuditAction}
    {outcome : AuditOutcome} {now : Instant} {a : α} (h : Q a n) :
    LoginSafe (do
      recordOutcome actor actorPrincipalId permission action outcome target now
      return a) Q n :=
  Safe.bind.mpr (recordOutcome_keeps h)

/-- A sign-in goes on without a code, or holds the step of its code. -/
def Passed (r : Option Response) (n : Notes) : Prop :=
  r = none → n.verified = none ∨ n.verified = n.token

theorem secondFactor_passed {P : PrincipalId} {totpCode : Option String}
    {now : Instant} (hn : n.verified = none) :
    LoginSafe (secondFactor P totpCode now) Passed n := by
  have hfail : ∀ {n'}, LoginSafe (do
      recordLoginFailure (some P) now
      return some signInFailed) Passed n' :=
    fun {_} => recorded nofun
  unfold secondFactor
  refine noted_call trivial fun r => ?_
  match r with
  | .error .derivationGateBusy => exact nofun
  | .error .failed => exact hfail
  | .ok authenticators =>
      dsimp only
      split
      · exact fun _ => .inl hn
      · next authenticator hfactor =>
          split
          · exact hfail
          · refine noted_call trivial fun r => ?_
            cases r with
            | none => exact hfail
            | some step =>
                refine noted_call trivial fun r => ?_
                match r with
                | .ok true =>
                    refine fun _ => .inr ?_
                    simp only [noteOf, hfactor, Option.map_some]
                | .ok false => exact hfail
                | .error e => exact hfail

def Any : Response → Notes → Prop := fun _ _ => True

theorem openSession_safe {request : LoginRequest} {P : PrincipalId}
    {ip : String} {secure : Bool} {reservation : Nat} {now : Instant}
    (hn : n.verified = none ∨ n.verified = n.token) :
    LoginSafe (openSession request P ip secure reservation now) Any n := by
  refine plain_call rfl fun _ => plain_call rfl fun r => ?_
  cases r with
  | error e => trivial
  | ok tokens =>
      refine plain_call rfl fun id => noted_call hn fun r => ?_
      cases r with
      | error e => trivial
      | ok u => exact recorded trivial

theorem dummyPasswordVerification_keeps {password : String}
    {f : Unit → Prog auth α} (h : LoginSafe (f ()) Q n) :
    LoginSafe (dummyPasswordVerification password >>= f) Q n :=
  Safe.bind.mpr (plain_call rfl fun _ => h)

theorem login_safe {request : LoginRequest} {ip : String} {secure : Bool}
    (hn : n.verified = none) :
    LoginSafe (login request ip secure) Any n := by
  have hfail : ∀ {P now}, LoginSafe (do
      recordLoginFailure P now
      return signInFailed) Any n :=
    fun {_ _} => recorded trivial
  unfold login
  refine plain_call rfl fun now => ?_
  split
  · trivial
  · refine plain_call rfl fun r => ?_
    cases r with
    | none => trivial
    | some reservation =>
        dsimp only
        split
        · exact hfail
        · refine plain_call rfl fun r => ?_
          match r with
          | .error e => exact dummyPasswordVerification_keeps hfail
          | .ok none => exact dummyPasswordVerification_keeps hfail
          | .ok (some principal) =>
              dsimp only
              split
              · exact dummyPasswordVerification_keeps hfail
              · refine plain_call rfl fun r => ?_
                match r with
                | .error e => exact dummyPasswordVerification_keeps hfail
                | .ok none => exact dummyPasswordVerification_keeps hfail
                | .ok (some credential) =>
                    refine plain_call rfl fun r => ?_
                    cases r with
                    | false => exact hfail
                    | true =>
                        refine Safe.bind.mpr
                          ((secondFactor_passed hn).imp fun r n' hr => ?_)
                        cases r with
                        | some response => trivial
                        | none => exact openSession_safe (hr rfl)

end Programs

/-! ## What a call does to the steps -/

/-- The tables and books of the steps after a call, and what the caller holds;
`x` is what it held. -/
inductive Moved (n : Notes) (s s' : Shared) :
    Option (TotpAuthenticatorId × Nat) → Prop where
  | quiet (totp : s'.totp = s.totp) (accepted : s'.accepted = s.accepted)
      (activated : s'.activated = s.activated)
      (opened : s'.opened = s.opened) : Moved n s s' n.token
  | accept (x : TotpAuthenticatorId × Nat) (fresh : ¬ Used s.totp x)
      (used : Used s'.totp x) (later : StepsLater s.totp s'.totp)
      (accepted : s'.accepted = x :: s.accepted)
      (activated : s'.activated = s.activated)
      (opened : s'.opened = s.opened) : Moved n s s' (some x)
  | opened (totp : s'.totp = s.totp) (accepted : s'.accepted = s.accepted)
      (activated : s'.activated = s.activated)
      (entitled : n.verified = none ∨ n.verified = n.token)
      (opened : s'.opened = n.verified.toList ++ s.opened) :
      Moved n s s' none

section Calls

variable {o : AuthOracle} {n : Notes} {s : Shared}

theorem performLogin_moved {q : AuthReq} (hq : Entitled q n) :
    Moved n s (performLogin hmacSha1 derive o n q s).2
      (noteOf n q (performLogin hmacSha1 derive o n q s).1).token := by
  cases q with
  | listTotpAuthenticators P =>
      simp only [performLogin]
      split
      · exact .quiet rfl rfl rfl rfl
      · cases listTotpAuthenticators s.totp P <;>
          exact .quiet rfl rfl rfl rfl
  | verifyTotp secret code now lastUsedStep =>
      simp only [performLogin]
      cases verifyTotpCode hmacSha1 secret code now lastUsedStep <;>
        exact .quiet rfl rfl rfl rfl
  | recordTotpStep id step =>
      simp only [performLogin]
      split
      · exact .quiet rfl rfl rfl rfl
      · match hrecord : recordTotpStep s.totp id step with
        | .error e => exact .quiet rfl rfl rfl rfl
        | .ok (false, totp) =>
            exact .quiet (recordTotpStep_false hrecord) rfl rfl rfl
        | .ok (true, totp) =>
            obtain ⟨hfresh, hused, hlater⟩ := recordTotpStep_true hrecord
            exact .accept (id, step) hfresh hused hlater rfl rfl rfl
  | createSession session =>
      simp only [performLogin]
      match performAuth derive o (.createSession session) s.store with
      | (.ok (), store) => exact .opened rfl rfl rfl hq rfl
      | (.error e, store) => exact .quiet rfl rfl rfl rfl
  | _ => exact .quiet rfl rfl rfl rfl

/-- What an activation's call does. -/
theorem performActivation_moved {q : ActivationReq} :
    (performActivation o q s).2 = s ∨ ∃ x totp, ¬ Used s.totp x ∧
      Used totp x ∧ StepsLater s.totp totp ∧
      (performActivation o q s).2 =
        { s with totp, activated := x :: s.activated } := by
  cases q with
  | now => exact .inl rfl
  | find id =>
      simp only [performActivation]
      split <;> exact .inl rfl
  | activate id activatedAt step =>
      simp only [performActivation]
      split
      · exact .inl rfl
      · cases hactivate : activateTotpAuthenticator s.totp id activatedAt
            step with
        | error e => exact .inl rfl
        | ok totp =>
            obtain ⟨hfresh, hused, hlater⟩ :=
              activateTotpAuthenticator_ok hactivate
            exact .inr ⟨(id, step), totp, hfresh, hused, hlater, rfl⟩

end Calls

/-! ## The books -/

/-- The steps that a sign-in holds or that have opened a session. -/
def held (flights : List Flight) (opened : List (TotpAuthenticatorId × Nat)) :
    List (TotpAuthenticatorId × Nat) :=
  flights.filterMap Flight.token ++ opened

/-- The part of the books that a flight's own step leaves alone. -/
theorem held_set {flights : List Flight} {i : Nat} {f : Flight}
    (hi : flights[i]? = some f)
    (opened : List (TotpAuthenticatorId × Nat)) : ∃ rest,
    (held flights opened).Perm (f.token.toList ++ rest) ∧
    ∀ g more, (held (flights.set i g) (more ++ opened)).Perm
      (g.token.toList ++ (more ++ rest)) := by
  obtain ⟨hlt, rfl⟩ := List.getElem?_eq_some_iff.mp hi
  have hcons : ∀ g : Flight, ((flights.take i ++ g :: flights.drop (i + 1)
      ).filterMap Flight.token).Perm (g.token.toList ++
        ((flights.take i).filterMap Flight.token ++
          (flights.drop (i + 1)).filterMap Flight.token)) := by
    intro g
    have hone : (g :: flights.drop (i + 1)).filterMap Flight.token =
        g.token.toList ++ (flights.drop (i + 1)).filterMap Flight.token := by
      rw [List.filterMap_cons]
      cases g.token <;> rfl
    rw [List.filterMap_append, hone, ← List.append_assoc, ← List.append_assoc]
    exact List.perm_append_comm.append_right _
  refine ⟨(flights.take i).filterMap Flight.token ++
    (flights.drop (i + 1)).filterMap Flight.token ++ opened, ?_, ?_⟩
  · have hself := hcons flights[i]
    rw [List.getElem_cons_drop, List.take_append_drop] at hself
    rw [← List.append_assoc]
    exact hself.append_right opened
  · intro g more
    unfold held
    rw [List.set_eq_take_append_cons_drop, if_pos hlt]
    refine ((hcons g).append_right _).trans ?_
    rw [List.append_assoc]
    refine List.Perm.append_left _ ?_
    rw [← List.append_assoc, ← List.append_assoc]
    exact List.perm_append_comm.append_right _

/-- The invariant of the runs. -/
structure Inv (s : State) : Prop where
  spent : (s.shared.accepted ++ s.shared.activated).Nodup
  used : ∀ x ∈ s.shared.accepted ++ s.shared.activated, Used s.shared.totp x
  held : (held s.flights s.shared.opened).Nodup
  accepted : ∀ x ∈ TotpSteps.held s.flights s.shared.opened,
    x ∈ s.shared.accepted
  safe : ∀ n p, .login n p ∈ s.flights → LoginSafe p Any n

section Steps

variable {s s' : State}

theorem inv_initial (h : Initial s) : Inv s := by
  obtain ⟨haccepted, hactivated, hopened, hflights⟩ := h
  have hheld : TotpSteps.held s.flights s.shared.opened = [] := by
    rw [hflights, hopened]
    rfl
  refine ⟨?_, ?_, ?_, ?_, ?_⟩
  · rw [haccepted, hactivated]
    exact List.nodup_nil
  · rw [haccepted, hactivated]
    exact nofun
  · rw [hheld]
    exact List.nodup_nil
  · rw [hheld]
    exact nofun
  · rw [hflights]
    exact nofun

/-- A request that begins holds nothing. -/
theorem Inv.begin {f : Flight} (h : Inv s) (htoken : f.token = none)
    (hsafe : ∀ n p, f = .login n p → LoginSafe p Any n) :
    Inv { s with flights := s.flights ++ [f] } := by
  have hheld : TotpSteps.held (s.flights ++ [f]) s.shared.opened =
      TotpSteps.held s.flights s.shared.opened := by
    unfold TotpSteps.held
    rw [List.filterMap_append, List.filterMap_cons, htoken]
    simp
  refine ⟨h.spent, h.used, ?_, ?_, ?_⟩
  · exact hheld ▸ h.held
  · exact hheld ▸ h.accepted
  · intro n p hmem
    rcases List.mem_append.mp hmem with hmem | hmem
    · exact h.safe n p hmem
    · exact hsafe n p (List.mem_singleton.mp hmem).symm

/-- The tables move on around the books. -/
theorem Inv.later {t : Shared} (h : Inv s)
    (hlater : StepsLater s.shared.totp t.totp)
    (haccepted : t.accepted = s.shared.accepted)
    (hactivated : t.activated = s.shared.activated)
    (hopened : t.opened = s.shared.opened) : Inv { s with shared := t } := by
  refine ⟨?_, ?_, ?_, ?_, h.safe⟩
  · rw [haccepted, hactivated]
    exact h.spent
  · rw [haccepted, hactivated]
    exact fun x hx => (h.used x hx).later hlater
  · rw [hopened]
    exact h.held
  · rw [hopened, haccepted]
    exact h.accepted

/-- A sign-in's call. -/
theorem Inv.login {i : Nat} {n n' : Notes} {p p' : Prog auth Response}
    {t : Shared} (h : Inv s) (hi : s.flights[i]? = some (.login n p))
    (hmoved : Moved n s.shared t n'.token) (hsafe : LoginSafe p' Any n') :
    Inv ⟨t, s.flights.set i (.login n' p')⟩ ∧
      StepsLater s.shared.totp t.totp := by
  have hflights : ∀ m q, .login m q ∈ s.flights.set i (.login n' p') →
      LoginSafe q Any m := by
    intro m q hmem
    rcases List.mem_or_eq_of_mem_set hmem with hmem | heq
    · exact h.safe m q hmem
    · cases heq
      exact hsafe
  obtain ⟨rest, hbefore, hafter⟩ := held_set hi s.shared.opened
  have hnodup := hbefore.nodup_iff.mp h.held
  have hin : ∀ x ∈ n.token.toList ++ rest, x ∈ s.shared.accepted :=
    fun x hx => h.accepted x (hbefore.mem_iff.mpr hx)
  generalize hk : n'.token = k at hmoved
  cases hmoved with
  | quiet htotp haccepted hactivated hopened =>
      have hheld := hafter (.login n' p') []
      rw [List.nil_append, List.nil_append, Flight.token, hk] at hheld
      refine ⟨⟨?_, ?_, ?_, ?_, hflights⟩, htotp ▸ .refl _⟩
      · rw [haccepted, hactivated]
        exact h.spent
      · rw [haccepted, hactivated, htotp]
        exact h.used
      · rw [hopened]
        exact hheld.nodup_iff.mpr hnodup
      · rw [hopened, haccepted]
        exact fun x hx => hin x (hheld.mem_iff.mp hx)
  | accept x hfresh hused hlater haccepted hactivated hopened =>
      have hheld := hafter (.login n' p') []
      rw [List.nil_append, List.nil_append, Flight.token, hk] at hheld
      have hnew : x ∉ s.shared.accepted ++ s.shared.activated :=
        fun hx => hfresh (h.used x hx)
      have hrest : ∀ y ∈ rest, y ∈ s.shared.accepted :=
        fun y hy => hin y (List.mem_append_right _ hy)
      refine ⟨⟨?_, ?_, ?_, ?_, hflights⟩, hlater⟩
      · rw [haccepted, hactivated]
        exact List.nodup_cons.mpr ⟨hnew, h.spent⟩
      · rw [haccepted, hactivated]
        intro y hy
        rcases List.mem_cons.mp hy with rfl | hy
        · exact hused
        · exact (h.used y hy).later hlater
      · rw [hopened]
        refine hheld.nodup_iff.mpr (List.nodup_cons.mpr ⟨fun hx => ?_, ?_⟩)
        · exact hnew (List.mem_append_left _ (hrest x hx))
        · exact (List.nodup_append.mp hnodup).2.1
      · rw [hopened, haccepted]
        intro y hy
        rcases List.mem_cons.mp (hheld.mem_iff.mp hy) with rfl | hy
        · exact List.mem_cons_self ..
        · exact List.mem_cons_of_mem _ (hrest y hy)
  | opened htotp haccepted hactivated hentitled hopened =>
      have hheld := hafter (.login n' p') n.verified.toList
      rw [Flight.token, hk, Option.toList_none, List.nil_append] at hheld
      have hsub : (n.verified.toList ++ rest).Sublist
          (n.token.toList ++ rest) := by
        rcases hentitled with hnone | heq
        · rw [hnone]
          exact List.sublist_append_right _ _
        · rw [heq]
      refine ⟨⟨?_, ?_, ?_, ?_, hflights⟩, htotp ▸ .refl _⟩
      · rw [haccepted, hactivated]
        exact h.spent
      · rw [haccepted, hactivated, htotp]
        exact h.used
      · rw [hopened]
        exact hheld.nodup_iff.mpr (hnodup.sublist hsub)
      · rw [hopened, haccepted]
        exact fun x hx => hin x (hsub.mem (hheld.mem_iff.mp hx))

/-- An activation's call. -/
theorem Inv.activation {i : Nat} {p p' : Prog activationSig Bool}
    {t : Shared} (h : Inv s) (hi : s.flights[i]? = some (.activation p))
    (hmoved : t = s.shared ∨ ∃ x totp, ¬ Used s.shared.totp x ∧ Used totp x ∧
      StepsLater s.shared.totp totp ∧
      t = { s.shared with totp, activated := x :: s.shared.activated }) :
    Inv ⟨t, s.flights.set i (.activation p')⟩ ∧
      StepsLater s.shared.totp t.totp := by
  have hflights : ∀ m q, .login m q ∈ s.flights.set i (.activation p') →
      LoginSafe q Any m := by
    intro m q hmem
    rcases List.mem_or_eq_of_mem_set hmem with hmem | heq
    · exact h.safe m q hmem
    · cases heq
  obtain ⟨rest, hbefore, hafter⟩ := held_set hi s.shared.opened
  have hheld : (TotpSteps.held (s.flights.set i (.activation p'))
      s.shared.opened).Perm (TotpSteps.held s.flights s.shared.opened) :=
    (hafter (.activation p') []).trans hbefore.symm
  have hnodup := hheld.nodup_iff.mpr h.held
  have hin : ∀ x ∈ TotpSteps.held (s.flights.set i (.activation p'))
      s.shared.opened, x ∈ s.shared.accepted :=
    fun x hx => h.accepted x (hheld.mem_iff.mp hx)
  rcases hmoved with rfl | ⟨x, totp, hfresh, hused, hlater, rfl⟩
  · exact ⟨⟨h.spent, h.used, hnodup, hin, hflights⟩, .refl _⟩
  · have hnew : x ∉ s.shared.accepted ++ s.shared.activated :=
      fun hx => hfresh (h.used x hx)
    refine ⟨⟨?_, ?_, hnodup, hin, hflights⟩, hlater⟩
    · exact (List.perm_middle (a := x)).nodup_iff.mpr
        (List.nodup_cons.mpr ⟨hnew, h.spent⟩)
    · intro y hy
      rcases List.mem_cons.mp ((List.perm_middle (a := x)).mem_iff.mp hy) with
        rfl | hy
      · exact hused
      · exact (h.used y hy).later hlater

theorem inv_next (h : Inv s) (hstep : Next (next hmacSha1 derive) s s') :
    Inv s' ∧ StepsLater s.shared.totp s'.shared.totp := by
  obtain ⟨a, hstep⟩ := hstep
  cases a with
  | login request ip secure =>
      cases hstep
      refine ⟨h.begin rfl ?_, .refl _⟩
      rintro n p ⟨⟩
      exact login_safe rfl
  | activate id code =>
      cases hstep
      exact ⟨h.begin rfl nofun, .refl _⟩
  | step i o =>
      simp only [next] at hstep
      split at hstep
      · next n q k hi =>
          cases hstep
          have hsafe := h.safe n _ (List.mem_of_getElem? hi)
          obtain ⟨hentitled, hrest⟩ := hsafe n rfl _ _ rfl
          exact h.login hi (performLogin_moved hentitled) hrest
      · next q k hi =>
          cases hstep
          exact h.activation hi performActivation_moved
      · cases hstep
  | elsewhere store =>
      cases hstep
      exact ⟨h.later (.refl _) rfl rfl rfl, .refl _⟩
  | enroll authenticator =>
      simp only [next] at hstep
      split at hstep
      · cases hstep
      · next totp henroll =>
          cases hstep
          have hlater := createTotpAuthenticator_ok henroll
          exact ⟨h.later hlater rfl rfl rfl, hlater⟩

theorem inv_reachable (h : Reachable hmacSha1 derive s) : Inv s :=
  h.inv (P := Inv) (fun _ => inv_initial) fun _ _ hs ht => (inv_next hs ht).1

end Steps

/-- In every run of sign-ins and activations, whatever the codes hash to: each
step of an authenticator is recorded at most once, and not after it activated
the authenticator; the code of a step opens at most one session, and only once
its step was recorded; and no authenticator's last step goes back. -/
theorem codes_single_use (hmacSha1 : Bytes → Bytes → Bytes)
    (derive : Bytes → String → Bytes) :
    (∀ s, Reachable hmacSha1 derive s →
      (s.shared.accepted ++ s.shared.activated).Nodup ∧
        s.shared.opened.Nodup ∧
        ∀ x ∈ s.shared.opened, x ∈ s.shared.accepted) ∧
    ∀ s s', Reachable hmacSha1 derive s →
      Next (next hmacSha1 derive) s s' →
        StepsLater s.shared.totp s'.shared.totp := by
  refine ⟨fun s hs => ?_, fun s s' hs hstep =>
    (inv_next (inv_reachable hs) hstep).2⟩
  have h := inv_reachable hs
  have hsub : s.shared.opened.Sublist (held s.flights s.shared.opened) :=
    List.sublist_append_right _ _
  exact ⟨h.spent, h.held.sublist hsub, fun x hx => h.accepted x (hsub.mem hx)⟩

end Rutilus.Proofs.TotpSteps
