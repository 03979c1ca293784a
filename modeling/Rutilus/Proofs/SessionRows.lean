import Rutilus.Web.Auth

/-!
# Which revocations keep the session rows readable

A row is readable as long as its expiry, its last use and its revocation do not
precede its creation. A sign-in writes such a row, a use only moves the last use
forward, and the revocation of one session compares its instant with the row.
The revocation of all sessions of a principal does not: it keeps the rows
readable exactly when none of those it ends is younger than its instant.
-/

namespace Rutilus.Proofs.SessionRows

open Rutilus.Domain Rutilus.Domain.User Rutilus.Lib Rutilus.Store
open Rutilus.Web.Auth Rutilus.Web.SessionRows

variable {t t' : SessionTable} {row : Session} {sessionId : SessionId}
  {principalId : PrincipalId} {at' : Instant} {s s' : State} {a : Label}

/-! ## Readable rows -/

/-- What a row needs to read back. -/
structure Sound (row : Session) : Prop where
  tokenHash : row.tokenHash.length = 32
  csrfHash : row.csrfHash.length = 32
  expires : row.createdAt < row.expiresAt
  used : row.createdAt ≤ row.lastUsedAt
  revoked : ∀ r, row.revokedAt = some r → row.createdAt ≤ r

theorem timelineHolds_iff :
    row.timelineHolds = true ↔ row.createdAt < row.expiresAt ∧
      row.createdAt ≤ row.lastUsedAt ∧
      ∀ r, row.revokedAt = some r → row.createdAt ≤ r := by
  unfold Session.timelineHolds
  rw [decide_eq_true_eq]
  refine and_congr_right fun _ => and_congr_right fun _ => ?_
  cases row.revokedAt with
  | none => exact iff_of_true rfl nofun
  | some r =>
      rw [Option.all_some, decide_eq_true_eq]
      exact ⟨fun h _ hr => Option.some.inj hr ▸ h, fun h => h r rfl⟩

theorem mapStoredSession_iff :
    mapStoredSession row = .ok row ↔ Sound row := by
  unfold mapStoredSession
  constructor
  · intro h
    split at h
    · cases h
    · next htoken =>
        split at h
        · cases h
        · next hcsrf =>
            split at h
            · cases h
            · next htimes =>
                rw [Bool.not_eq_true, Bool.not_eq_false', timelineHolds_iff]
                  at htimes
                exact ⟨Decidable.not_not.mp htoken, Decidable.not_not.mp hcsrf,
                  htimes.1, htimes.2.1, htimes.2.2⟩
  · intro h
    rw [if_neg (not_not.mpr h.tokenHash), if_neg (not_not.mpr h.csrfHash),
      if_neg]
    rw [Bool.not_eq_true, Bool.not_eq_false', timelineHolds_iff]
    exact ⟨h.expires, h.used, h.revoked⟩

theorem find_ok (h : Readable t) (tokenHash : Bytes) :
    ∃ r, findSessionByTokenHash t tokenHash = .ok r := by
  unfold findSessionByTokenHash
  split
  · exact ⟨none, rfl⟩
  · next row hrow =>
      rw [h row (List.mem_of_find?_eq_some hrow)]
      exact ⟨some row, rfl⟩

theorem mapM_ok {rows : List Session}
    (h : ∀ row ∈ rows, mapStoredSession row = .ok row) :
    rows.mapM mapStoredSession = .ok rows := by
  induction rows with
  | nil => rfl
  | cons row rows ih =>
      rw [List.mapM_cons, h row (List.mem_cons_self ..),
        ih fun x hx => h x (List.mem_cons_of_mem _ hx)]
      rfl

theorem list_ok (h : Readable t) (principalId : PrincipalId) :
    ∃ r, listSessions t principalId = .ok r := by
  refine ⟨_, mapM_ok fun row hrow => h row ?_⟩
  rw [List.mem_mergeSort] at hrow
  exact List.mem_of_mem_filter hrow

/-! ## Writes -/

theorem new_sound {tokenHash csrfHash : Bytes} {now : Instant}
    (htoken : tokenHash.length = 32) (hcsrf : csrfHash.length = 32) :
    Sound (.new sessionId principalId tokenHash csrfHash now
      (now + sessionLifetime)) where
  tokenHash := htoken
  csrfHash := hcsrf
  expires := by
    have hlife : (0 : Int) < sessionLifetime := by decide
    exact Int.lt_add_of_pos_right now hlife
  used := Int.le_refl _
  revoked := nofun

theorem createSession_readable {principals : PrincipalTable}
    (h : Readable t) (hrow : Sound row)
    (hcreate : createSession principals t row = .ok t') : Readable t' := by
  unfold createSession at hcreate
  split at hcreate
  · cases hcreate
  · next hfree =>
      split at hcreate
      · cases hcreate
        have hnone : t.find row.id = none :=
          Option.not_isSome_iff_eq_none.mp fun hsome => hfree (.inl hsome)
        intro x hx
        rw [Table.rows_insertNew hnone, List.mem_append] at hx
        rcases hx with hx | hx
        · exact h x hx
        · rw [List.mem_singleton.mp hx]
          exact mapStoredSession_iff.mpr hrow
      · cases hcreate

theorem replace_readable {new : Session} (h : Readable t)
    (hrow : t.find sessionId = some row) (hid : new.id = row.id)
    (hnew : Sound row → Sound new) : Readable (t.replace new) := by
  obtain ⟨hmem, hkey⟩ := Table.find_eq_some_iff.mp hrow
  have hold : t.find new.id = some row := by rw [hid, hkey, hrow]
  intro x hx
  rcases (Table.mem_replace hold).mp hx with rfl | ⟨hx, -⟩
  · exact mapStoredSession_iff.mpr
      (hnew (mapStoredSession_iff.mp (h row hmem)))
  · exact h x hx

theorem touchSession_readable (h : Readable t)
    (htouch : touchSession t sessionId at' = .ok t') : Readable t' := by
  unfold touchSession at htouch
  split at htouch
  · cases htouch
  · next row hrow =>
      split at htouch
      · cases htouch
      · split at htouch
        · cases htouch
        · next hlater =>
            cases htouch
            refine replace_readable h hrow rfl fun hsound => ?_
            exact { hsound with
              used := Int.le_trans hsound.used (Int.not_lt.mp hlater) }

theorem revokeSession_readable (h : Readable t)
    (hrevoke : revokeSession t sessionId at' = .ok t') : Readable t' := by
  unfold revokeSession at hrevoke
  split at hrevoke
  · cases hrevoke
  · next row hrow =>
      split at hrevoke
      · cases hrevoke
      · split at hrevoke
        · cases hrevoke
        · split at hrevoke
          · cases hrevoke
          · next hafter =>
              cases hrevoke
              refine replace_readable h hrow rfl fun hsound => ?_
              refine { hsound with revoked := ?_ }
              rintro r ⟨⟩
              exact Int.not_lt.mp hafter

/-- The rows an update of all sessions of a principal leaves readable. -/
theorem revokedSession_sound (h : Sound row) :
    Sound (revokedSession principalId at' row) ↔
      (row.principalId = principalId → row.revokedAt = none →
        row.createdAt ≤ at') := by
  unfold revokedSession
  split
  · next hopen =>
      constructor
      · exact fun hsound _ _ => hsound.revoked at' rfl
      · intro hafter
        refine { h with revoked := ?_ }
        rintro r ⟨⟩
        exact hafter hopen.1 hopen.2
  · next hother =>
      exact iff_of_true h fun hP hnone => absurd ⟨hP, hnone⟩ hother

theorem revokeForPrincipal_readable (h : Readable t) :
    Readable (revokeSessionsForPrincipal t principalId at').2 ↔
      ∀ row ∈ t.rows, row.principalId = principalId → row.revokedAt = none →
        row.createdAt ≤ at' := by
  have hrows : (revokeSessionsForPrincipal t principalId at').2.rows =
      t.rows.map (revokedSession principalId at') := rfl
  unfold Readable
  rw [hrows]
  constructor
  · intro hall row hrow
    have hread := hall _ (List.mem_map_of_mem hrow)
    exact (revokedSession_sound (mapStoredSession_iff.mp (h row hrow))).mp
      (mapStoredSession_iff.mp hread)
  · intro hafter x hx
    obtain ⟨row, hrow, rfl⟩ := List.mem_map.mp hx
    exact mapStoredSession_iff.mpr
      ((revokedSession_sound (mapStoredSession_iff.mp (h row hrow))).mpr
        (hafter row hrow))

/-! ## A row later -/

/-- The row of a session later: the last use is not earlier, and a revocation
stays what it is. -/
def Kept (a b : Session) : Prop :=
  a.lastUsedAt ≤ b.lastUsedAt ∧ (a.revokedAt ≠ none → b.revokedAt = a.revokedAt)

theorem Kept.refl (a : Session) : Kept a a := ⟨Int.le_refl _, fun _ => rfl⟩

/-- Every row of the first table is still there in the second. -/
def AllKept (t t' : SessionTable) : Prop :=
  ∀ id a, t.find id = some a → ∃ b, t'.find id = some b ∧ Kept a b

theorem AllKept.refl (t : SessionTable) : AllKept t t :=
  fun _ a ha => ⟨a, ha, .refl a⟩

theorem replace_kept {new : Session} (hrow : t.find sessionId = some row)
    (hid : new.id = row.id) (hkept : Kept row new) :
    AllKept t (t.replace new) := by
  obtain rfl : row.id = sessionId := Table.key_of_find hrow
  intro id a ha
  rw [Table.find_replace, hid]
  by_cases heq : row.id = id
  · subst heq
    rw [hrow, Option.some.injEq] at ha
    subst ha
    exact ⟨new, if_pos ⟨rfl, by rw [hrow]; rfl⟩, hkept⟩
  · exact ⟨a, by rw [if_neg fun h => heq h.1, ha], .refl a⟩

theorem createSession_kept {principals : PrincipalTable}
    (h : createSession principals t row = .ok t') : AllKept t t' := by
  intro id a ha
  obtain ⟨hnone, hfind⟩ := createSession_find h id
  refine ⟨a, ?_, .refl a⟩
  rw [hfind, if_neg, ha]
  rintro rfl
  rw [hnone] at ha
  cases ha

theorem touchSession_kept (h : touchSession t sessionId at' = .ok t') :
    AllKept t t' := by
  unfold touchSession at h
  split at h
  · cases h
  · next row hrow =>
      split at h
      · cases h
      · split at h
        · cases h
        · next hlater =>
            cases h
            exact replace_kept hrow rfl ⟨Int.not_lt.mp hlater, fun _ => rfl⟩

theorem revokeSession_kept (h : revokeSession t sessionId at' = .ok t') :
    AllKept t t' := by
  unfold revokeSession at h
  split at h
  · cases h
  · next row hrow =>
      split at h
      · cases h
      · split at h
        · cases h
        · next hopen =>
            split at h
            · cases h
            · cases h
              refine replace_kept hrow rfl ⟨Int.le_refl _, fun hset => ?_⟩
              exact absurd (Option.isSome_iff_ne_none.mpr hset) hopen

theorem revokeForPrincipal_kept :
    AllKept t (revokeSessionsForPrincipal t principalId at').2 := by
  intro id a ha
  refine ⟨revokedSession principalId at' a, ?_, ?_⟩
  · rw [find_revokeSessionsForPrincipal, ha]
    rfl
  · unfold revokedSession
    split
    · next hopen =>
        exact ⟨Int.le_refl _, fun hset => absurd hopen.2 hset⟩
    · exact .refl a

/-! ## Steps -/

theorem perform_kept (h : perform s a = some s') :
    AllKept s.sessions s'.sessions := by
  have hwrite : ∀ r : Except SessionRepositoryError SessionTable,
      (∀ t', r = .ok t' → AllKept s.sessions t') →
      AllKept s.sessions (s.write r).sessions := by
    intro r hr
    cases r with
    | ok t' => exact hr t' rfl
    | error e => exact .refl _
  cases a with
  | tick clock =>
      simp only [perform] at h
      split at h
      · cases h
      · cases h
        exact .refl _
  | create sessionId principalId tokenHash csrfHash now =>
      simp only [perform] at h
      split at h
      · cases h
      · cases h
        exact hwrite _ fun t' => createSession_kept
  | touch sessionId at' =>
      cases h
      exact hwrite _ fun t' => touchSession_kept
  | revoke sessionId at' =>
      cases h
      exact hwrite _ fun t' => revokeSession_kept
  | revokeForPrincipal principalId at' =>
      cases h
      exact revokeForPrincipal_kept

theorem perform_readable (h : perform s a = some s') (hs : Readable s.sessions) :
    Readable s'.sessions ↔ quiet s a = true := by
  have hwrite : ∀ r : Except SessionRepositoryError SessionTable,
      (∀ t', r = .ok t' → Readable t') → Readable (s.write r).sessions := by
    intro r hr
    cases r with
    | ok t' => exact hr t' rfl
    | error e => exact hs
  cases a with
  | tick clock =>
      simp only [perform] at h
      split at h
      · cases h
      · cases h
        exact iff_of_true hs rfl
  | create sessionId principalId tokenHash csrfHash now =>
      simp only [perform] at h
      split at h
      · cases h
      · next hlength =>
          cases h
          rw [not_or, not_not, not_not] at hlength
          exact iff_of_true (hwrite _ fun t' =>
            createSession_readable hs (new_sound hlength.1 hlength.2)) rfl
  | touch sessionId at' =>
      cases h
      exact iff_of_true (hwrite _ fun t' => touchSession_readable hs) rfl
  | revoke sessionId at' =>
      cases h
      exact iff_of_true (hwrite _ fun t' => revokeSession_readable hs) rfl
  | revokeForPrincipal principalId at' =>
      cases h
      rw [revokeForPrincipal_readable hs, quiet, List.all_eq_true]
      simp only [decide_eq_true_eq]

theorem perform_of_next (h : next s a = some s') : perform s a = some s' := by
  unfold next at h
  split at h
  · exact h
  · cases h

/-! ## Runs -/

theorem readable_of_quiet (h : Reach Initial (Next nextQuiet) s) :
    Readable s.sessions := by
  refine h.inv (P := fun s => Readable s.sessions) (fun _ h => h.2) ?_
  rintro s s' hs ⟨a, hstep⟩
  unfold nextQuiet at hstep
  split at hstep
  · next hquiet =>
      exact (perform_readable (perform_of_next hstep) hs).mpr hquiet
  · cases hstep

/-- While no revocation of a principal's sessions carries an instant before the
creation of one it ends, every row reads back, and so does every lookup and
listing. One that does leaves an unreadable row. In every run the last use does
not go back and a revocation stays. -/
theorem rows_readable_iff_quiet (s : State) :
    (Reach Initial (Next nextQuiet) s →
      Readable s.sessions ∧
        (∀ tokenHash, ∃ r,
          findSessionByTokenHash s.sessions tokenHash = .ok r) ∧
        ∀ principalId, ∃ r, listSessions s.sessions principalId = .ok r) ∧
    (∀ a s', Reachable s → Readable s.sessions → next s a = some s' →
      (Readable s'.sessions ↔ quiet s a = true)) ∧
    ∀ s', Reachable s → Next next s s' →
      AllKept s.sessions s'.sessions := by
  refine ⟨fun hs => ?_, fun a s' _ hs h => ?_, ?_⟩
  · have hread := readable_of_quiet hs
    exact ⟨hread, find_ok hread, list_ok hread⟩
  · exact perform_readable (perform_of_next h) hs
  · rintro s' _ ⟨a, h⟩
    exact perform_kept (perform_of_next h)

/-! ### A revocation that was waiting -/

def hash (n : UInt8) : Bytes := List.replicate 32 n

/-- A password change reads the clock at 0; before its revocation lands, a
sign-in at 5 stores its session. -/
def crossing : List Label :=
  [.tick 5, .create ⟨1⟩ ⟨7⟩ (hash 1) (hash 2) 5, .revokeForPrincipal ⟨7⟩ 0]

def user : Principal := ⟨⟨7⟩, ⟨"admin"⟩, .enabled, 0, 0⟩

def oneUser : State := ⟨0, [0], Table.empty.insertNew user, .empty⟩

/-- The row it leaves: created at 5, revoked at 0. -/
def crossed : Session :=
  { Session.new ⟨1⟩ ⟨7⟩ (hash 1) (hash 2) 5 (5 + sessionLifetime) with
    revokedAt := some 0 }

theorem crossed_row_unreadable :
    ∃ s, Reachable s ∧
      findSessionByTokenHash s.sessions (hash 1) = .error (.corrupt ⟨1⟩) ∧
      listSessions s.sessions ⟨7⟩ = .error (.corrupt ⟨1⟩) := by
  obtain ⟨s, hs, hrows⟩ := exists_reach_of_follow Initial next (s := oneUser)
    crossing (fun s => decide (s.sessions.rows = [crossed]))
    ⟨rfl, nofun⟩ (by decide)
  rw [decide_eq_true_eq] at hrows
  refine ⟨s, hs, ?_, ?_⟩
  · unfold findSessionByTokenHash
    rw [hrows]
    rfl
  · unfold listSessions
    rw [hrows]
    have hone : [crossed].filter (fun row => row.principalId = ⟨7⟩) =
      [crossed] := rfl
    rw [hone, List.mergeSort_singleton]
    rfl

end Rutilus.Proofs.SessionRows
