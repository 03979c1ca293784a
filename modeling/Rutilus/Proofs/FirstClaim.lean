import Rutilus.Lib.Outcome
import Rutilus.Lib.Rely
import Rutilus.Web.Bootstrap

/-!
# The first-run claim happens once

A claim inserts the administrator's password with a plain insert. Nothing takes
a password away, so after one claim no other transaction commits, with whatever
code: that is all the uniqueness rests on, not the look at the code, which is
long past when the transaction runs.

What a request may ask for is its contract (`Lawful`); the four tables change
only with the transaction of a request that then answers success.
-/

namespace Rutilus.Proofs.FirstClaim

open Rutilus.Domain Rutilus.Domain.User Rutilus.Lib Rutilus.Store
open Rutilus.Web.Auth Rutilus.Web.Bootstrap

variable {derive : Bytes → String → Bytes} {crypto : Crypto}

/-! ## The transaction -/

/-- What a committed claim found and what it left. -/
structure Consumed (t : ClaimTables) (c : Consumption) (t' : ClaimTables) :
    Prop where
  fresh : t.credentials.find c.password.principalId = none
  account : t.principals.has c.usedBy = true
  unused : ∃ model, t.codes.find c.codeId = some model ∧ model.usedAt = none ∧
    t'.codes = t.codes.replace { model with
      usedAt := some c.consumedAt
      usedBy := some c.usedBy }
  password : t'.credentials = t.credentials.insertNew c.password
  authenticator : t'.totp = t.totp ∧ c.authenticator = none ∨
    ∃ a, c.authenticator = some a ∧ t.totp.find a.id = none ∧
      t'.totp = t.totp.insertNew a
  session : ∀ id, t'.sessions.find id =
    if c.session.id = id then some c.session else t.sessions.find id

theorem insertPasswordCredential_ok {principals : PrincipalTable}
    {t t' : CredentialTable} {credential : PasswordCredential}
    (h : insertPasswordCredential principals t credential = .ok t') :
    t.find credential.principalId = none ∧ t' = t.insertNew credential := by
  unfold insertPasswordCredential at h
  split at h
  · cases h
  · next hnew =>
      split at h
      · cases h
        exact ⟨Option.not_isSome_iff_eq_none.mp hnew, rfl⟩
      · cases h

theorem insertAuthenticator_ok {principals : PrincipalTable} {protects : Bool}
    {t t' : TotpTable} {a : TotpAuthenticator}
    (h : insertAuthenticator principals protects t a = .ok t') :
    t.find a.id = none ∧ t' = t.insertNew a := by
  unfold insertAuthenticator createTotpAuthenticator at h
  split at h
  · cases h
  · split at h
    · cases h
    · next hnew =>
        split at h
        · cases h
          exact ⟨Option.not_isSome_iff_eq_none.mp hnew, rfl⟩
        · cases h

theorem insertSession_ok {principals : PrincipalTable} {t t' : SessionTable}
    {session : Session} (h : insertSession principals t session = .ok t') :
    ∀ id, t'.find id =
      if session.id = id then some session else t.find id := by
  unfold insertSession at h
  cases hcreate : createSession principals t session with
  | error e =>
      rw [hcreate] at h
      cases h
  | ok sessions =>
      rw [hcreate] at h
      cases h
      exact fun id => (createSession_find hcreate id).2

theorem consume_ok {protects : Bool} {t t' : ClaimTables} {c : Consumption}
    (h : consumeBootstrapCode protects t c = .ok t') : Consumed t c t' := by
  unfold consumeBootstrapCode at h
  split at h
  · cases h
  · next model hmodel =>
      split at h
      · cases h
      · next hunused =>
          split at h
          · cases h
          · next haccount =>
              obtain ⟨credentials, hpassword, h⟩ := bind_ok h
              obtain ⟨totp, htotp, h⟩ := bind_ok h
              obtain ⟨sessions, hsession, h⟩ := bind_ok h
              cases h
              obtain ⟨hfresh, rfl⟩ := insertPasswordCredential_ok hpassword
              refine ⟨hfresh, ?_, ⟨model, hmodel, ?_, rfl⟩, rfl, ?_,
                insertSession_ok hsession⟩
              · exact (Bool.not_eq_false _).mp fun hno =>
                  haccount (by rw [hno]; rfl)
              · exact Option.not_isSome_iff_eq_none.mp hunused
              · cases hc : c.authenticator with
                | none =>
                    rw [hc] at htotp
                    cases htotp
                    exact .inl ⟨rfl, rfl⟩
                | some a =>
                    rw [hc] at htotp
                    obtain ⟨hnew, rfl⟩ := insertAuthenticator_ok htotp
                    exact .inr ⟨a, rfl, hnew, rfl⟩

/-! ## What a request may ask for -/

/-- The authenticator of a consumption is the one the request brought. -/
def Requested (crypto : Crypto) (request : BootstrapCompleteRequest)
    (c : Consumption) : Prop :=
  c.authenticator.map TotpAuthenticator.secret =
      request.totpSecret.bind crypto.base32Decode ∧
    (∀ a, c.authenticator = some a →
      a.principalId = c.usedBy ∧ a.state = .active) ∧
    c.password.principalId = c.usedBy ∧ c.session.principalId = c.usedBy

/-- The calls on the services of a sign-in: none of them writes. -/
def reads : AuthReq → Bool
  | .now | .reserve .. | .refund .. | .generateSessionId | .issueTokens
  | .findPrincipalByName _ | .hashPassword _ | .appendAuditEvent _ => true
  | _ => false

def Lawful (crypto : Crypto) (request : BootstrapCompleteRequest) :
    BootReq → Notes → Prop
  | .auth (.findPrincipalByName name), _ =>
      PrincipalName.parse bootstrapPrincipalName = some name
  | .auth q, _ => reads q = true
  | .findBootstrapCodeByHash codeHash, _ =>
      codeHash = crypto.hashBootstrapCode request.code
  | .consumeBootstrapCode c, n => n.claimed = false ∧
      n.admin = some c.usedBy ∧ n.code = some c.codeId ∧
      Requested crypto request c
  | _, _ => True

def NoteCalls : Sem boot Notes := fun q n r n' => n' = noteOf n q r

abbrev ClaimSafe {α : Type} (crypto : Crypto)
    (request : BootstrapCompleteRequest) (p : Prog boot α)
    (Q : α → Notes → Prop) (n : Notes) : Prop :=
  Safe NoteCalls Eq (fun q n _ => Lawful crypto request q n) p Q n

section Programs

variable {request : BootstrapCompleteRequest} {α : Type} {n : Notes}
  {Q : α → Notes → Prop}

theorem noted_call {q : BootReq} {f : q.Resp → Prog boot α}
    (hq : Lawful crypto request q n)
    (h : ∀ r, ClaimSafe crypto request (f r) Q (noteOf n q r)) :
    ClaimSafe crypto request (call q >>= f) Q n := by
  rintro n₁ rfl r n₂ rfl
  exact ⟨hq, h r⟩

theorem recordOutcome_keeps {actor : App.AuditActor}
    {actorPrincipalId target : Option PrincipalId}
    {permission : ProductPermission} {action : AuditAction}
    {outcome : AuditOutcome} {now : Instant} {f : Unit → Prog boot α}
    (h : ClaimSafe crypto request (f ()) Q n) :
    ClaimSafe crypto request ((recordOutcome actor actorPrincipalId permission
      action outcome target now).lift >>= f) Q n := by
  unfold recordOutcome
  split
  · exact h
  · rintro n₁ rfl r n₂ rfl
    refine ⟨rfl, ?_⟩
    rintro n₃ rfl r n₄ rfl
    exact ⟨rfl, h⟩

/-- Audit and answer. -/
theorem recorded {principalId : Option PrincipalId} {now : Instant} {a : α}
    (h : Q a n) :
    ClaimSafe crypto request (do
      (recordLoginFailure principalId now).lift
      return a) Q n :=
  recordOutcome_keeps h

/-- Success and a committed claim go together. -/
def Truthful (r : Response) (n : Notes) : Prop :=
  r.isSuccess = true ↔ n.claimed = true

theorem truthful_refusal {r : Response} (hr : r.isSuccess = false)
    (hn : n.claimed = false) : Truthful r n := by
  unfold Truthful
  rw [hr, hn]

theorem claim_truthful {ip : String} {secure : Bool} {reservation : Nat}
    {principalId : PrincipalId} {codeId : BootstrapCodeId}
    {authenticator : Option TotpAuthenticator} {now : Instant}
    (hn : n.claimed = false) (hadmin : n.admin = some principalId)
    (hcode : n.code = some codeId)
    (hsecret : authenticator.map TotpAuthenticator.secret =
      request.totpSecret.bind crypto.base32Decode)
    (howner : ∀ a, authenticator = some a →
      a.principalId = principalId ∧ a.state = .active) :
    ClaimSafe crypto request (claim request ip secure reservation principalId
      codeId authenticator now) Truthful n := by
  unfold claim
  refine noted_call rfl fun r => ?_
  cases r with
  | error e => exact truthful_refusal (by cases e <;> rfl) hn
  | ok hash =>
      refine noted_call rfl fun r => ?_
      cases r with
      | error e => exact truthful_refusal rfl hn
      | ok tokens =>
          refine noted_call rfl fun id => ?_
          refine noted_call ⟨hn, hadmin, hcode, hsecret, howner, rfl, rfl⟩
            fun r => ?_
          cases r with
          | error e => exact truthful_refusal rfl hn
          | ok u =>
              refine noted_call rfl fun _ => ?_
              refine recordOutcome_keeps ?_
              have hdone : ∀ {response : Response},
                  response.isSuccess = true →
                  ClaimSafe crypto request
                    (call .armGate >>= fun _ => pure response) Truthful
                    { n with claimed := true } :=
                fun {_} hsuccess => noted_call trivial fun _ =>
                  iff_of_true hsuccess rfl
              dsimp only
              split
              · exact recordOutcome_keeps (hdone rfl)
              · exact hdone rfl

theorem activate_ok {a activated : TotpAuthenticator} {code : String}
    {now : Instant} {step : Nat}
    (h : a.activate crypto.hmacSha1 code now = .ok (activated, step)) :
    activated.principalId = a.principalId ∧ activated.state = .active ∧
      activated.secret = a.secret := by
  unfold TotpAuthenticator.activate at h
  split at h
  · cases h
  · obtain ⟨_, -, h⟩ := bind_ok h
    cases h
    exact ⟨rfl, rfl, rfl⟩

theorem enrollment_safe {principalId : PrincipalId} {now : Instant}
    {Q : Except Response (Option TotpAuthenticator) → Notes → Prop}
    (hrefused : ∀ status message, Q (.error (.jsonError status message)) n)
    (hnone : request.totpSecret = none → Q (.ok none) n)
    (hsome : ∀ a, a.principalId = principalId → a.state = .active →
      some a.secret = request.totpSecret.bind crypto.base32Decode →
      Q (.ok (some a)) n) :
    ClaimSafe crypto request (enrollment crypto request principalId now) Q n := by
  unfold enrollment
  split
  · next hsecret => exact hnone hsecret
  · next encoded hencoded =>
      split
      · exact hrefused _ _
      · next secret hsecret =>
          split
          · exact hrefused _ _
          · split
            · exact hrefused _ _
            · refine noted_call trivial fun id => ?_
              dsimp only
              split
              · exact hrefused _ _
              · next activated step hactivate =>
                  obtain ⟨howner, hactive, hsame⟩ := activate_ok hactivate
                  refine hsome activated howner hactive ?_
                  rw [hsame, hencoded]
                  exact hsecret.symm

theorem bootstrapComplete_safe {ip : String} {secure : Bool} :
    ClaimSafe crypto request (bootstrapComplete crypto request ip secure)
      Truthful ⟨none, none, false⟩ := by
  refine noted_call rfl fun now => ?_
  dsimp only
  split
  · exact truthful_refusal rfl rfl
  · split
    · exact truthful_refusal rfl rfl
    · refine noted_call rfl fun r => ?_
      cases r with
      | none => exact truthful_refusal rfl rfl
      | some reservation =>
          dsimp only
          split
          · exact truthful_refusal rfl rfl
          · next adminName hname =>
              refine noted_call hname fun r => ?_
              match r with
              | .error e => exact recorded (truthful_refusal rfl rfl)
              | .ok none => exact recorded (truthful_refusal rfl rfl)
              | .ok (some principal) =>
                  refine noted_call rfl fun r => ?_
                  match r with
                  | .error e => exact recorded (truthful_refusal rfl rfl)
                  | .ok none => exact recorded (truthful_refusal rfl rfl)
                  | .ok (some code) =>
                      dsimp only
                      split
                      · exact recorded (truthful_refusal rfl rfl)
                      · refine Safe.bind.mpr (enrollment_safe ?_ ?_ ?_)
                        · exact fun _ _ => truthful_refusal rfl rfl
                        · intro hnone
                          refine claim_truthful rfl rfl rfl ?_ nofun
                          rw [hnone]
                          rfl
                        · intro a howner hactive hsecret
                          refine claim_truthful rfl rfl rfl hsecret ?_
                          rintro _ ⟨⟩
                          exact ⟨howner, hactive⟩

end Programs

/-! ## One step -/

/-- What a lawful call does to the tables: nothing, or the whole claim. -/
inductive Effect (o : Oracle) (t : Tables) :
    (q : BootReq) → q.Resp → Tables → Prop where
  | quiet {q : BootReq} {r : q.Resp} (claims : ∀ i, claimsOf i q r = [])
      (notes : ∀ n, (noteOf n q r).claimed = n.claimed) : Effect o t q r t
  | claim {c : Consumption} {tables : ClaimTables}
      (consumed : consumeBootstrapCode o.protects t.claimTables c = .ok tables) :
      Effect o t (.consumeBootstrapCode c) (.ok ()) (t.claimed tables)

section Step

variable {request : BootstrapCompleteRequest} {n : Notes} {o : Oracle}
  {t : Tables}

theorem performAuth_reads {o : AuthOracle} {q : AuthReq} {s : AuthStore}
    (hq : reads q = true) : (performAuth derive o q s).2 = s := by
  cases q with
  | now | reserve | refund | generateSessionId | issueTokens => rfl
  | findPrincipalByName name =>
      simp only [performAuth]
      split <;> rfl
  | hashPassword password =>
      simp only [performAuth]
      split <;> rfl
  | appendAuditEvent event =>
      simp only [performAuth]
      split <;> rfl
  | _ => cases hq

theorem lawful_reads {q : AuthReq} (h : Lawful crypto request (.auth q) n) :
    reads q = true := by
  cases q with
  | findPrincipalByName name => rfl
  | _ => exact h

theorem noteOf_auth {q : AuthReq} {r : q.Resp} :
    (noteOf n (.auth q) r).claimed = n.claimed := by
  cases q with
  | findPrincipalByName name =>
      match r with
      | .error e => rfl
      | .ok none => rfl
      | .ok (some principal) => rfl
  | _ => rfl

theorem noteOf_find {codeHash : Bytes}
    {r : (BootReq.findBootstrapCodeByHash codeHash).Resp} :
    (noteOf n (.findBootstrapCodeByHash codeHash) r).claimed = n.claimed := by
  match r with
  | .error e => rfl
  | .ok none => rfl
  | .ok (some code) => rfl

theorem perform_effect {q : BootReq} (hq : Lawful crypto request q n) :
    Effect o t q (perform derive o q t).1 (perform derive o q t).2 := by
  cases q with
  | auth q =>
      have hstore : (perform derive o (.auth q) t).2 = t := by
        simp only [perform]
        rw [performAuth_reads (lawful_reads hq)]
      rw [hstore]
      exact .quiet (fun _ => rfl) fun _ => noteOf_auth
  | findBootstrapCodeByHash codeHash =>
      have hstore :
          (perform derive o (.findBootstrapCodeByHash codeHash) t).2 = t := by
        simp only [perform]
        split <;> rfl
      rw [hstore]
      exact .quiet (fun _ => rfl) fun _ => noteOf_find
  | generateTotpAuthenticatorId => exact .quiet (fun _ => rfl) fun _ => rfl
  | consumeBootstrapCode c =>
      simp only [perform]
      split
      · exact .quiet (fun _ => rfl) fun _ => rfl
      · split
        · next tables hconsume => exact .claim hconsume
        · exact .quiet (fun _ => rfl) fun _ => rfl
  | armGate => exact .quiet (fun _ => rfl) fun _ => rfl

theorem findPrincipalByName_ok {principals : PrincipalTable}
    {name : PrincipalName} {p : Principal}
    (h : findPrincipalByName principals name = .ok (some p)) :
    p ∈ principals.rows ∧ p.name = name := by
  unfold findPrincipalByName at h
  split at h
  · cases h
  · next row hrow =>
      unfold mapStoredPrincipal at h
      split at h
      · cases h
      · cases h
        have hname := List.find?_some hrow
        exact ⟨List.mem_of_find?_eq_some hrow, of_decide_eq_true hname⟩

theorem findBootstrapCodeByHash_ok {codes : CodeTable} {codeHash : Bytes}
    {code : BootstrapCode}
    (h : findBootstrapCodeByHash codes codeHash = .ok (some code)) :
    codes.find code.id = some code ∧ code.codeHash = codeHash := by
  unfold findBootstrapCodeByHash at h
  split at h
  · cases h
  · next row hrow =>
      unfold mapStoredCode at h
      split at h
      · cases h
      · split at h
        · cases h
        · cases h
          have hhash := List.find?_some hrow
          exact ⟨Table.find_eq_some_iff.mpr
            ⟨List.mem_of_find?_eq_some hrow, rfl⟩, of_decide_eq_true hhash⟩

/-- An account that is noted has the administrator's name. -/
theorem noted_admin {q : BootReq} {P : PrincipalId}
    (hq : Lawful crypto request q n)
    (h : (noteOf n q (perform derive o q t).1).admin = some P) :
    n.admin = some P ∨
      ∃ p ∈ t.store.principals.rows, isAdmin p = true ∧ p.id = P := by
  cases q with
  | auth q => cases q with
    | findPrincipalByName name =>
        generalize hr : (perform derive o (.auth (.findPrincipalByName name))
          t).1 = r at h
        match r with
        | .error e => exact .inl h
        | .ok none => exact .inl h
        | .ok (some p) =>
            obtain rfl : p.id = P := Option.some.inj h
            simp only [perform, performAuth] at hr
            split at hr
            · cases hr
            · obtain ⟨hmem, rfl⟩ := findPrincipalByName_ok (mapError_ok hr)
              exact .inr ⟨p, hmem, decide_eq_true hq.symm, rfl⟩
    | _ => exact .inl h
  | findBootstrapCodeByHash codeHash =>
      generalize (perform derive o (.findBootstrapCodeByHash codeHash) t).1 = r
        at h
      match r with
      | .error e => exact .inl h
      | .ok none => exact .inl h
      | .ok (some code) => exact .inl h
  | consumeBootstrapCode c =>
      generalize (perform derive o (.consumeBootstrapCode c) t).1 = r at h
      cases r <;> exact .inl h
  | _ => exact .inl h

/-- A code that is noted is stored under the hash of the request's. -/
theorem noted_code {q : BootReq} {id : BootstrapCodeId}
    (hq : Lawful crypto request q n)
    (h : (noteOf n q (perform derive o q t).1).code = some id) :
    n.code = some id ∨ ∃ row, t.codes.find id = some row ∧
      row.codeHash = crypto.hashBootstrapCode request.code := by
  cases q with
  | auth q => cases q with
    | findPrincipalByName name =>
        generalize (perform derive o (.auth (.findPrincipalByName name)) t).1 =
          r at h
        cases r with
        | error e => exact .inl h
        | ok found => cases found <;> exact .inl h
    | _ => exact .inl h
  | findBootstrapCodeByHash codeHash =>
      generalize hr : (perform derive o (.findBootstrapCodeByHash codeHash)
        t).1 = r at h
      cases r with
      | error e => exact .inl h
      | ok found =>
          cases found with
          | none => exact .inl h
          | some code =>
              obtain rfl : code.id = id := Option.some.inj h
              simp only [perform] at hr
              split at hr
              · cases hr
              · obtain ⟨hfind, hhash⟩ :=
                  findBootstrapCodeByHash_ok (mapError_ok hr)
                exact .inr ⟨code, hfind, hhash.trans hq⟩
  | consumeBootstrapCode c =>
      generalize (perform derive o (.consumeBootstrapCode c) t).1 = r at h
      cases r <;> exact .inl h
  | _ => exact .inl h

end Step

end Rutilus.Proofs.FirstClaim
