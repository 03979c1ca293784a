import Rutilus.Web.Guard

/-!
# The two lists of routes agree

A template and an entry of the authorization table are compared by their
patterns: the entry covers all paths of the template or none. That is checked
for each pair once, so the entry a request finds is the same for every path of
a route (`Pattern.find?_of_settled`).

`Purpose` says what a route is for, independently of the table. The second half
reads off the middleware what a handler run behind a session went through.
-/

namespace Rutilus.Proofs.RouteGuard

open Rutilus.Domain Rutilus.Domain.User Rutilus.Lib Rutilus.Store
open Rutilus.App (AuditActor)
open Rutilus.Web.Auth (AuthServiceError)
open Rutilus.Web.Routes Rutilus.Web.Guard

/-! ## What a route is for -/

inductive Purpose where
  | signIn
  | ownSession
  | view
  | audit
  | operate
  | administer
  deriving DecidableEq, Repr

def edgePurpose : EdgeRouteKind → Purpose
  | .health | .about | .login | .bootstrapComplete | .me => .signIn
  | .logout | .changePassword => .ownSession
  | .endpointInventory | .overview | .endpointResources | .resourceDiagnostics
  | .endpointCapabilities | .eventQuery | .telemetrySeries | .telemetrySamples
  | .listOperations | .operationDetail | .listBatches | .batchDetail
  | .listArtifacts | .artifactDetail | .groupInventory | .groupDetail
  | .tagInventory => .view
  | .auditQuery => .audit
  | .createOperation | .createArtifact | .appendArtifactChunk
  | .finalizeArtifact => .operate
  | .credentialInventory | .createCredential | .beginEndpointTrust
  | .confirmEndpointTrust | .enrollEndpoint | .importEndpointsCsv
  | .refreshEndpoints | .createGroup | .deleteGroup | .addGroupMember
  | .removeGroupMember | .assignTag | .removeTag | .listSessions
  | .revokeSession | .listUsers | .createUser | .setUserState | .assignUserRole
  | .setUserPassword => .administer

def centerPurpose : CenterRouteKind → Purpose
  | .health | .about | .login | .bootstrapComplete | .me => .signIn
  | .logout | .changePassword => .ownSession
  | .centerSites | .centerEndpoints | .centerOperations => .view
  | .auditQuery => .audit
  | .submitCenterOperation => .operate
  | .registerCenterSite | .revokeCenterBinding | .listSessions | .revokeSession
  | .listUsers | .createUser | .setUserState | .assignUserRole
  | .setUserPassword => .administer

def purpose : RouteKind → Purpose
  | .edge kind => edgePurpose kind
  | .center kind => centerPurpose kind

/-- Who may use a route behind a session. -/
def Purpose.roles : Purpose → RoleMask
  | .signIn | .ownSession | .view => .any
  | .audit | .operate => .administratorOrOperator
  | .administer => .administratorOnly

/-- Every method but the two that read. -/
def mutates (method : Method) : Bool := method ≠ .get ∧ method ≠ .head

/-- The role mask of an entry and whether it asks for the CSRF token. -/
def guardOf : RouteAccess → Option (RoleMask × Bool)
  | .public' => none
  | .always roles mutation | .guardedOnly roles mutation =>
      some (roles, mutation)

/-! ## Pairs of a route and an entry -/

def applies (scope : ConsoleScope) (route : Registered) (row : TableRow) :
    Bool :=
  row.method = tableMethod route.kind.method && row.inScope scope

def outline (route : Registered) : Pattern UInt8 :=
  (template route.path).outline slash

/-- The entry of a route, whatever the path. -/
def rowFor (scope : ConsoleScope) (route : Registered) : Option TableRow :=
  routeTable.find? fun row =>
    applies scope route row && (outline route).within (asPattern row.pattern)

/-- No entry depends on the parameters of a route. -/
def Settles (scope : ConsoleScope) (route : Registered) : Prop :=
  ∀ row ∈ routeTable, applies scope route row = true →
    (outline route).settled (asPattern row.pattern) = true

/-- The entry is meant for the route, and no entry that covers it is
narrower. -/
def Fits (scope : ConsoleScope) (route : Registered) : Prop :=
  (rowFor scope route).bind (fun row => guardOf row.access) =
      some ((purpose route.kind).roles, mutates route.kind.method) ∧
    ∀ row ∈ routeTable, applies scope route row = true →
      (outline route).within (asPattern row.pattern) = true →
        (guardOf row.access).all fun g =>
          (purpose route.kind).roles.bits &&& g.1.bits =
            (purpose route.kind).roles.bits

instance (scope : ConsoleScope) (route : Registered) :
    Decidable (Settles scope route) :=
  inferInstanceAs (Decidable (∀ _ ∈ _, _ → _))

instance (scope : ConsoleScope) (route : Registered) :
    Decidable (Fits scope route) :=
  inferInstanceAs (Decidable (_ ∧ ∀ _ ∈ _, _ → _ → _))

theorem settles_all (scope : ConsoleScope) :
    ∀ route ∈ registered scope, Settles scope route := by
  cases scope with
  | edge => decide +kernel
  | center => decide +kernel

theorem fits_all (scope : ConsoleScope) :
    ∀ route ∈ registered scope, purpose route.kind ≠ .signIn →
      Fits scope route := by
  cases scope with
  | edge => decide +kernel
  | center => decide +kernel

/-- The registries name the methods the handlers are wired to. -/
theorem registries_wired :
    (∀ route ∈ edgeRoutes, route.method = edgeRoute route.kind) ∧
      ∀ route ∈ centerRoutes, route.method = centerRoute route.kind := by
  decide

section Route

variable {scope : ConsoleScope} {route : Registered} {method : Method}
  {path : String}

theorem tableMethod_of_matches (h : route.matches' method path = true) :
    tableMethod method = tableMethod route.kind.method := by
  obtain ⟨hserves, -⟩ := Bool.and_eq_true_iff.mp h
  rcases of_decide_eq_true hserves with rfl | ⟨hget, rfl⟩
  · rfl
  · rw [hget]
    rfl

theorem mutates_of_matches (h : route.matches' method path = true) :
    mutates method = mutates route.kind.method := by
  obtain ⟨hserves, -⟩ := Bool.and_eq_true_iff.mp h
  rcases of_decide_eq_true hserves with rfl | ⟨hget, rfl⟩
  · rfl
  · rw [hget]
    rfl

theorem outline_of_matches (h : route.matches' method path = true) :
    (outline route).covers (utf8 path) = true :=
  Template.outline_covers (Bool.and_eq_true_iff.mp h).2

/-- The entry that is found depends on the route alone. -/
theorem tableRow_eq (hroute : route ∈ registered scope)
    (h : route.matches' method path = true) :
    tableRow (tableMethod method) path scope = rowFor scope route := by
  unfold tableRow rowFor
  rw [tableMethod_of_matches h]
  exact Pattern.find?_of_settled (outline_of_matches h)
    (settles_all scope route hroute)

theorem rowFor_some (hroute : route ∈ registered scope)
    (hpurpose : purpose route.kind ≠ .signIn) :
    ∃ row, rowFor scope route = some row ∧ row ∈ routeTable ∧
      guardOf row.access =
        some ((purpose route.kind).roles, mutates route.kind.method) := by
  obtain ⟨row, hrow, hguard⟩ :=
    Option.bind_eq_some_iff.mp (fits_all scope route hroute hpurpose).1
  exact ⟨row, hrow, List.mem_of_find?_eq_some hrow, hguard⟩

theorem guardOf_routeAccess (hroute : route ∈ registered scope)
    (hpurpose : purpose route.kind ≠ .signIn)
    (h : route.matches' method path = true) :
    guardOf (routeAccess method path scope) =
      some ((purpose route.kind).roles, mutates method) := by
  obtain ⟨row, hrow, -, hguard⟩ := rowFor_some hroute hpurpose
  unfold routeAccess tableEntry
  rw [tableRow_eq hroute h, hrow, mutates_of_matches h]
  exact hguard

theorem allows_of_le {a b : RoleMask} (h : a.bits &&& b.bits = a.bits)
    {role : Role} (ha : a.allows role = true) : b.allows role = true := by
  refine decide_eq_true fun hzero => of_decide_eq_true ha ?_
  rw [← h, UInt8.and_assoc, hzero, UInt8.and_zero]

/-- No other entry of the path is narrower. -/
theorem narrowest (hroute : route ∈ registered scope)
    (hpurpose : purpose route.kind ≠ .signIn)
    (h : route.matches' method path = true) {other : TableRow}
    (hother : other ∈ routeTable)
    (hmethod : other.method = tableMethod method)
    (hscope : other.inScope scope = true)
    (hcovers : patternCovers other.pattern path = true) {roles : RoleMask}
    {mutation : Bool} (hguard : guardOf other.access = some (roles, mutation))
    {role : Role} (hrole : (purpose route.kind).roles.allows role = true) :
    roles.allows role = true := by
  have happlies : applies scope route other = true := by
    unfold applies
    rw [hmethod, tableMethod_of_matches h, hscope, decide_eq_true rfl]
    rfl
  have hwithin : (outline route).within (asPattern other.pattern) = true := by
    have hsettled := settles_all scope route hroute other hother happlies
    refine (Bool.or_eq_true_iff.mp hsettled).resolve_right fun hapart => ?_
    have := Pattern.not_covers_of_apart hapart (outline_of_matches h)
    rw [show (asPattern other.pattern).covers (utf8 path) = true from hcovers]
      at this
    cases this
  have hle := (fits_all scope route hroute hpurpose).2 other hother happlies
    hwithin
  rw [hguard] at hle
  exact allows_of_le (of_decide_eq_true hle) hrole

end Route

/-! ## What a handler run has gone through -/

/-- The session that a request presented, as the tables had it when they were
asked: its row, open at the instant read next, its principal and its role. -/
structure Admitted (tokenHash : String → TokenHash) (request : Request)
    (roles : RoleMask) (moments : Nat → Moment) (context : AuthContext)
    (cookie : String) (session : Session) (principal : Principal)
    (assignment : Option RoleAssignment) : Prop where
  presented : cookieValue request.headers sessionCookieName = some cookie
  stored : session ∈ (moments 0).sessions.rows
  named : session.tokenHash = (tokenHash cookie).val
  unrevoked : session.revokedAt = none
  unexpired : (moments 1).clock < session.expiresAt
  principalStored : (moments 2).principals.find session.principalId =
    some principal
  enabled : principal.state = .enabled
  role : (moments 3).roles.find session.principalId = assignment
  allowed : roles.allows
    ((assignment.map RoleAssignment.role).getD .viewer) = true
  csrf : mutates request.method = true → ∃ token,
    request.headers.csrfToken = some token ∧
      (tokenHash token).val = session.csrfHash
  context_eq : context = .ofSession session assignment

theorem foldl_difference {left right : Bytes} (difference : UInt8)
    (hlength : left.length = right.length) :
    (left.zip right).foldl
        (fun difference pair => difference ||| (pair.1 ^^^ pair.2))
        difference = 0 ↔ difference = 0 ∧ left = right := by
  induction left generalizing right difference with
  | nil =>
      obtain rfl : right = [] := List.length_eq_zero_iff.mp hlength.symm
      exact ⟨fun h => ⟨h, rfl⟩, And.left⟩
  | cons a left ih =>
      cases right with
      | nil => cases hlength
      | cons b right =>
          rw [List.zip_cons_cons, List.foldl_cons,
            ih _ (Nat.succ.inj hlength), UInt8.or_eq_zero_iff,
            UInt8.xor_eq_zero_iff, List.cons.injEq, and_assoc]

theorem constantTimeEq_iff {left right : Bytes}
    (hlength : left.length = right.length) :
    constantTimeEq left right = true ↔ left = right := by
  unfold constantTimeEq
  rw [decide_eq_true_iff, foldl_difference 0 hlength]
  exact ⟨And.right, fun h => ⟨rfl, h⟩⟩

theorem csrfMatches_ok {tokenHash : String → TokenHash} {headers : Headers}
    {expectedHash : Bytes} (hlength : expectedHash.length = 32)
    (h : csrfMatches tokenHash headers expectedHash = true) :
    ∃ token, headers.csrfToken = some token ∧
      (tokenHash token).val = expectedHash := by
  unfold csrfMatches at h
  split at h
  · cases h
  · next token htoken =>
      have hsame := (tokenHash token).property.trans hlength.symm
      exact ⟨token, htoken, (constantTimeEq_iff hsame).mp h⟩

theorem mapStoredSession_ok {row session : Session}
    (h : mapStoredSession row = .ok session) :
    session = row ∧ row.csrfHash.length = 32 := by
  unfold mapStoredSession at h
  split at h
  · cases h
  · split at h
    · cases h
    · next hcsrf =>
        split at h
        · cases h
        · cases h
          exact ⟨rfl, Decidable.not_not.mp hcsrf⟩

theorem answered_ok {ε α : Type} {m : Moment} {r : Except ε α} {a : α}
    (h : m.answered r = .ok a) : r = .ok a := by
  unfold Moment.answered at h
  split at h
  · cases h
  · cases r with
    | error e => cases h
    | ok a' =>
        cases h
        rfl

theorem findSession_ok {m : Moment} {tokenHash : TokenHash} {session : Session}
    (h : m.answer (.findSessionByTokenHash tokenHash) = .ok (some session)) :
    session ∈ m.sessions.rows ∧ session.tokenHash = tokenHash.val ∧
      session.csrfHash.length = 32 := by
  have h : findSessionByTokenHash m.sessions tokenHash.val =
    .ok (some session) := answered_ok h
  unfold findSessionByTokenHash at h
  split at h
  · cases h
  · next row hrow =>
      cases hmap : mapStoredSession row with
      | error e =>
          rw [hmap] at h
          cases h
      | ok session' =>
          rw [hmap] at h
          cases h
          obtain ⟨rfl, hcsrf⟩ := mapStoredSession_ok hmap
          have hname := List.find?_some hrow
          exact ⟨List.mem_of_find?_eq_some hrow, of_decide_eq_true hname, hcsrf⟩

theorem findPrincipal_ok {m : Moment} {principalId : PrincipalId}
    {principal : Principal}
    (h : m.answer (.findPrincipal principalId) = .ok (some principal)) :
    m.principals.find principalId = some principal := by
  have h : Store.findPrincipal m.principals principalId =
    .ok (some principal) := answered_ok h
  unfold Store.findPrincipal at h
  split at h
  · cases h
  · next row hrow =>
      unfold mapStoredPrincipal at h
      split at h
      · cases h
      · cases h
        exact hrow

theorem findRoleAssignment_ok {m : Moment} {principalId : PrincipalId}
    {assignment : Option RoleAssignment}
    (h : m.answer (.findRoleAssignment principalId) = .ok assignment) :
    m.roles.find principalId = assignment := by
  have h : Except.ok (ε := Unit) (findRoleAssignment m.roles principalId) =
    .ok assignment := answered_ok h
  cases h
  rfl

/-! ## The middleware, call by call -/

section Middleware

variable {tokenHash : String → TokenHash} {request : Request}
  {mutation : Bool} {moments : Nat → Moment}

theorem run_call {α : Type} (q : GuardReq) (f : q.Resp → Prog guard α)
    (w : World) :
    runGuard (call q >>= f) w =
      runGuard (f (w.perform q).1) (w.perform q).2 := rfl

theorem run_bind {α β : Type} (p : Prog guard α) (f : α → Prog guard β)
    (w : World) :
    runGuard (p >>= f) w = runGuard (f (runGuard p w).1) (runGuard p w).2 :=
  Prog.run_bind ..

/-- What a resolved session went through. -/
structure Checked (tokenHash : String → TokenHash) (headers : Headers)
    (mutation : Bool) (moments : Nat → Moment) (resolved : Resolved)
    (principal : Principal) (assignment : Option RoleAssignment) : Prop where
  presented : cookieValue headers sessionCookieName = some resolved.cookie
  stored : (moments 0).answer
      (.findSessionByTokenHash (tokenHash resolved.cookie)) =
    .ok (some resolved.session)
  active : Session.isActive resolved.session (moments 1).clock = true
  csrf : mutation = true →
    csrfMatches tokenHash headers resolved.session.csrfHash = true
  principalStored : (moments 2).answer
    (.findPrincipal resolved.session.principalId) = .ok (some principal)
  enabled : principal.state = .enabled
  role : (moments 3).answer
    (.findRoleAssignment resolved.session.principalId) = .ok assignment
  context_eq : resolved.context = .ofSession resolved.session assignment

def Vouched (tokenHash : String → TokenHash) (headers : Headers)
    (mutation : Bool) (moments : Nat → Moment) (resolved : Resolved) : Prop :=
  ∃ principal assignment, Checked tokenHash headers mutation moments resolved
    principal assignment

/-- The program runs no handler, and what it resolves has the property. -/
def Resolves (P : Resolved → Prop) (p : Prog guard (Option Resolved))
    (w : World) : Prop :=
  (runGuard p w).2.ran = w.ran ∧
    ∀ resolved, (runGuard p w).1 = some resolved → P resolved

def silent : GuardReq → Prop
  | .runHandler _ => False
  | _ => True

section Resolve

variable {P : Resolved → Prop} {w : World}

theorem resolves_none : Resolves P (.ret none) w :=
  ⟨rfl, fun _ h => by cases h⟩

theorem resolves_some {resolved : Resolved} (h : P resolved) :
    Resolves P (.ret (some resolved)) w :=
  ⟨rfl, fun _ h' => by cases h'; exact h⟩

theorem resolves_call {q : GuardReq}
    {f : q.Resp → Prog guard (Option Resolved)}
    (h : ∀ r, (w.moments 0).answer q = r →
      Resolves P (f r) ⟨fun i => w.moments (i + 1), w.ran⟩)
    (hq : silent q := by exact trivial) : Resolves P (call q >>= f) w := by
  have hrun := h _ rfl
  cases q with
  | runHandler context => exact hq.elim
  | _ => exact hrun

end Resolve

theorem csrf_of_not {b : Bool} (h : ¬ (mutation && !b) = true) :
    mutation = true → b = true := by
  cases b with
  | true => exact fun _ => rfl
  | false =>
      rintro rfl
      exact absurd rfl h

theorem resolveSession_checked {headers : Headers} {ran : List AuthContext} :
    Resolves (Vouched tokenHash headers mutation moments)
      (resolveSession tokenHash headers mutation) ⟨moments, ran⟩ := by
  unfold resolveSession
  split
  · exact resolves_none
  · next cookie hcookie =>
      refine resolves_call fun found hfound => ?_
      cases found with
      | error e => exact resolves_none
      | ok found => cases found with
        | none => exact resolves_none
        | some session =>
            refine resolves_call fun now hnow => ?_
            dsimp only
            split
            · exact resolves_none
            · next hactive =>
                subst hnow
                have hactive := Bool.eq_false_of_not_eq_true hactive
                split
                · exact resolves_none
                · next hcsrf =>
                    have hcsrf := csrf_of_not hcsrf
                    refine resolves_call fun found hprincipal => ?_
                    cases found with
                    | error e => exact resolves_none
                    | ok found => cases found with
                      | none => exact resolves_none
                      | some principal =>
                          dsimp only
                          split
                          · exact resolves_none
                          · next henabled =>
                              have henabled := Decidable.not_not.mp henabled
                              refine resolves_call fun found hrole => ?_
                              cases found with
                              | error e => exact resolves_none
                              | ok assignment =>
                                  have hvouched : Vouched tokenHash headers
                                      mutation moments
                                      ⟨.ofSession session assignment, session,
                                        cookie⟩ :=
                                    ⟨principal, assignment, hcookie, hfound,
                                      Bool.not_eq_eq_eq_not.mp hactive, hcsrf,
                                      hprincipal, henabled, hrole, rfl⟩
                                  dsimp only
                                  split
                                  · refine resolves_call fun _ _ => ?_
                                    exact resolves_some hvouched
                                  · exact resolves_some hvouched

/-- A session route runs its handler with a resolved context or not at all. -/
theorem runWithSession_ran {roles : RoleMask} {context : AuthContext}
    (h : context ∈ (runGuard (runWithSession tokenHash request roles mutation)
      ⟨moments, []⟩).2.ran) :
    ∃ resolved principal assignment,
      Checked tokenHash request.headers mutation moments resolved principal
        assignment ∧
      context = resolved.context ∧
      roles.allows (resolved.context.role.getD .viewer) = true := by
  obtain ⟨hran, hresolved⟩ := resolveSession_checked
  unfold runWithSession at h
  rw [run_bind] at h
  generalize runGuard (resolveSession tokenHash request.headers mutation)
    ⟨moments, []⟩ = out at h hran hresolved
  obtain ⟨r, moments', ran⟩ := out
  obtain rfl : ran = [] := hran
  cases r with
  | none => cases h
  | some resolved =>
      obtain ⟨principal, assignment, hchecked⟩ := hresolved resolved rfl
      dsimp only at h
      split at h
      · cases h
      · next hallowed =>
          have hallowed := Bool.eq_false_of_not_eq_true hallowed
          refine ⟨resolved, principal, assignment, hchecked, ?_,
            Bool.not_eq_eq_eq_not.mp hallowed⟩
          rw [run_call] at h
          split at h <;> exact List.mem_singleton.mp h

end Middleware

theorem Checked.admitted {tokenHash : String → TokenHash} {request : Request}
    {mutation : Bool} {moments : Nat → Moment} {resolved : Resolved}
    {principal : Principal} {assignment : Option RoleAssignment}
    {roles : RoleMask}
    (h : Checked tokenHash request.headers mutation moments resolved principal
      assignment)
    (hallowed : roles.allows (resolved.context.role.getD .viewer) = true)
    (hmutation : mutates request.method = mutation) :
    Admitted tokenHash request roles moments resolved.context resolved.cookie
      resolved.session principal assignment := by
  obtain ⟨hstored, hnamed, hlength⟩ := findSession_ok h.stored
  obtain ⟨hunrevoked, hunexpired⟩ := of_decide_eq_true h.active
  refine ⟨h.presented, hstored, hnamed, hunrevoked, hunexpired,
    findPrincipal_ok h.principalStored, h.enabled, findRoleAssignment_ok h.role,
    ?_, fun hmutates => ?_, h.context_eq⟩
  · rw [h.context_eq] at hallowed
    exact hallowed
  · exact csrfMatches_ok hlength (h.csrf (hmutation.symm.trans hmutates))

/-- Behind a policy that asks for sessions, an entry that is not public runs
the handler through `runWithSession`. -/
theorem authMiddleware_eq {tokenHash : String → TokenHash}
    {scope : ConsoleScope} {policy : AuthPolicy} {actor : AuditActor}
    {request : Request} {roles : RoleMask} {mutation : Bool}
    (hpolicy : policy ≠ .open')
    (h : guardOf (routeAccess request.method request.path scope) =
      some (roles, mutation)) :
    authMiddleware tokenHash scope policy actor request =
      runWithSession tokenHash request roles mutation := by
  unfold authMiddleware
  split
  · next hpublic =>
      rw [hpublic] at h
      cases h
  · next hrow =>
      rw [hrow] at h
      cases h
      rfl
  · next hrow =>
      rw [hrow] at h
      cases h
      cases policy with
      | open' => exact absurd rfl hpolicy
      | guarded => rfl
      | pendingBootstrap armed => rw [Bool.or_comm]; rfl

/-- For every route behind the sign-in surface there is an entry, the same for
all its paths, and it asks for exactly the roles the route is for; no entry
that covers such a path is narrower. And a handler of such a route runs only
with the context of a session that was admitted. -/
theorem routes_guarded (tokenHash : String → TokenHash) (actor : AuditActor) :
    (∀ scope, ∀ route ∈ registered scope, purpose route.kind ≠ .signIn →
      ∃ row ∈ routeTable, ∀ method path, route.matches' method path = true →
        tableRow (tableMethod method) path scope = some row ∧
          guardOf row.access =
            some ((purpose route.kind).roles, mutates method) ∧
          ∀ other ∈ routeTable, other.method = tableMethod method →
            other.inScope scope = true →
            patternCovers other.pattern path = true →
            ∀ roles mutation, guardOf other.access = some (roles, mutation) →
              ∀ role, (purpose route.kind).roles.allows role = true →
                roles.allows role = true) ∧
    ∀ scope policy request kind moments context, policy ≠ .open' →
      kind ∈ dispatched scope request.method request.path →
      purpose kind ≠ .signIn →
      context ∈ handlerRuns tokenHash scope policy actor request moments →
        ∃ cookie session principal assignment,
          Admitted tokenHash request (purpose kind).roles moments context cookie
            session principal assignment := by
  constructor
  · intro scope route hroute hpurpose
    obtain ⟨row, hrow, hmem, hguard⟩ := rowFor_some hroute hpurpose
    refine ⟨row, hmem, fun method path h => ⟨?_, ?_, ?_⟩⟩
    · rw [tableRow_eq hroute h, hrow]
    · rw [hguard, mutates_of_matches h]
    · intro other hother hmethod hscope hcovers roles mutation hg role hrole
      exact narrowest hroute hpurpose h hother hmethod hscope hcovers hg hrole
  · intro scope policy request kind moments context hpolicy hkind hpurpose hmem
    obtain ⟨route, hroute, rfl⟩ := List.mem_map.mp hkind
    obtain ⟨hroute, hmatches⟩ := List.mem_filter.mp hroute
    have hguard := guardOf_routeAccess hroute hpurpose hmatches
    unfold handlerRuns at hmem
    rw [authMiddleware_eq hpolicy hguard] at hmem
    obtain ⟨resolved, principal, assignment, hchecked, rfl, hallowed⟩ :=
      runWithSession_ran hmem
    exact ⟨_, _, _, _, hchecked.admitted hallowed rfl⟩

end Rutilus.Proofs.RouteGuard
