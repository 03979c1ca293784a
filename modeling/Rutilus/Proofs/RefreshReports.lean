import Rutilus.Endpoints.Refresh

/-!
# What a failed refresh says about its Generation

A refresh that fails after its commit fails in the capability part. The audited
refresh takes such a failure for one like any other, so its error denies the
Generation that was committed. A monitor watches the runs for the two facts that
matter: whether a commit succeeded, and whether the capability part failed.
-/

namespace Rutilus.Proofs.RefreshReports

open Rutilus.Domain hiding AuditRedfishOperation ResourceFeature
open Rutilus.Domain.Audit Rutilus.Domain.Endpoint Rutilus.Domain.Resource Rutilus.Lib
open Rutilus.Endpoints

variable {B : Outside}

/-! ## The monitor -/

/-- The call committed a Generation. -/
def commits : (q : Req B) → q.Resp → Bool
  | .commitResourceGeneration .., .ok _ => true
  | _, _ => false

/-- The call was to probe the capabilities or replace their snapshot, and failed. -/
def capabilityFails : (q : Req B) → q.Resp → Bool
  | .probeCoreCapabilities .., .error _ => true
  | .replaceEndpointCapabilities .., .error _ => true
  | _, _ => false

def Committed (log : List (Entry (endpoints B))) : Prop :=
  ∃ e ∈ log, commits e.1 e.2 = true

/-- The Generation is committed, and then the capability part fails. -/
def FailedLate (log : List (Entry (endpoints B))) : Prop :=
  Committed log ∧ ∃ e ∈ log, capabilityFails e.1 e.2 = true

structure Seen where
  committed : Bool
  failed : Bool
  deriving DecidableEq

def Seen.none : Seen := ⟨false, false⟩

def see (s : Seen) (q : (endpoints B).Req) (r : (endpoints B).Resp q) : Seen :=
  ⟨s.committed || commits q r, s.failed || capabilityFails q r⟩

theorem foldl_see (log : List (Entry (endpoints B))) (s : Seen) :
    log.foldl (fun s e => see s e.1 e.2) s =
      ⟨s.committed || log.any fun e => commits e.1 e.2,
        s.failed || log.any fun e => capabilityFails e.1 e.2⟩ := by
  induction log generalizing s with
  | nil => simp
  | cons e rest ih => rw [List.foldl_cons, ih, see, List.any_cons, List.any_cons,
      Bool.or_assoc, Bool.or_assoc]

/-- What the monitor has seen at the end of a run. -/
theorem seen_iff {log : List (Entry (endpoints B))} {s : Seen}
    (h : s = log.foldl (fun s e => see s e.1 e.2) .none) :
    (Committed log ↔ s.committed = true) ∧
      (FailedLate log ↔ s.committed = true ∧ s.failed = true) := by
  subst h
  rw [foldl_see]
  simp [Seen.none, Committed, FailedLate, List.any_eq_true]

/-! ## Runs of the refresh -/

/-- The failure comes after the commit. -/
def afterCommit : EndpointRefreshError B → Bool
  | .capabilityProbe _ | .capabilityCommit _ => true
  | _ => false

/-- What is seen of a refresh, by its result. -/
def seenRefresh {α : Type} : Except (EndpointRefreshError B) α → Seen
  | .ok _ => ⟨true, false⟩
  | .error e => ⟨afterCommit e, afterCommit e⟩

theorem watch_refresh (endpointId : EndpointId) :
    Watched (see (B := B)) (EndpointRefresh.execute endpointId)
      (fun r s => s = seenRefresh r) .none := by
  unfold EndpointRefresh.execute
  refine safe_orThrow.mpr (Watched.ask.mpr fun r => ?_)
  rcases r with e | endpoint
  · rfl
  rcases endpoint with - | endpoint
  · rfl
  refine safe_orThrow.mpr (Watched.ask.mpr fun r => ?_)
  rcases r with e | credential
  · rfl
  rcases credential with - | credential
  · rfl
  refine safe_orThrow.mpr (Watched.ask.mpr fun r => ?_)
  rcases r with e | outcome
  · rfl
  refine safe_perform.mpr (Watched.ask.mpr fun now => ?_)
  refine safe_orThrow.mpr (Watched.ask.mpr fun r => ?_)
  rcases r with e | snapshots
  · rfl
  refine safe_orThrow.mpr (Watched.ask.mpr fun r => ?_)
  rcases r with e | capabilities
  · rfl
  refine safe_perform.mpr (Watched.ask.mpr fun now => ?_)
  refine safe_orThrow.mpr (Watched.ask.mpr fun r => ?_)
  rcases r with e | done
  · rfl
  · rfl

/-- What is seen of an audited refresh that fails, by its error. -/
def seenFailed : AuditedEndpointRefreshError B → Seen
  | .audit _ _ resourcesCommitted _ => ⟨resourcesCommitted, false⟩
  | .refresh _ e | .refreshAndAudit _ e _ => ⟨afterCommit e, afterCommit e⟩

def seenAudited {α : Type} : Except (AuditedEndpointRefreshError B) α → Seen
  | .ok _ => ⟨true, false⟩
  | .error e => seenFailed e

section Audited

variable {context : AuditOperationContext B.parseUrl} {sequence : AuditSequence}
  {startedAt : Instant} {endpointId : EndpointId} {s : Seen}

/-- The terminal fact of a failure adds nothing to what is seen. -/
theorem watch_recordFailure (refresh : EndpointRefreshError B) :
    Watched see (AuditedEndpointRefresh.recordRefreshFailure context sequence startedAt
      endpointId refresh)
      (fun e s' => s' = s ∧ ((∃ id, e = .refresh id refresh) ∨
        ∃ id audit, e = .refreshAndAudit id refresh audit)) s := by
  unfold AuditedEndpointRefresh.recordRefreshFailure
  refine Safe.bind.mpr (Watched.ask.mpr fun now => ?_)
  refine Safe.bind.mpr (Watched.ask.mpr fun eventId => ?_)
  split
  · exact ⟨by simp [see, commits, capabilityFails], .inr ⟨_, _, rfl⟩⟩
  · refine Safe.bind.mpr (Watched.ask.mpr fun r => ?_)
    rcases r with audit | done
    · exact ⟨by simp [see, commits, capabilityFails], .inr ⟨_, _, rfl⟩⟩
    · exact ⟨by simp [see, commits, capabilityFails], .inl ⟨_, rfl⟩⟩

/-- The terminal fact of a success: its failure says that the Generation is there. -/
theorem watch_recordSuccess :
    Watched see (AuditedEndpointRefresh.recordRefreshSuccess context sequence startedAt
      endpointId : UseCase B _ Unit)
      (fun r s' => s' = s ∧ ∀ e, r = .error e →
        ∃ stage id source, e = .audit stage id true source) s := by
  unfold AuditedEndpointRefresh.recordRefreshSuccess
  refine safe_perform.mpr (Watched.ask.mpr fun now => ?_)
  refine safe_perform.mpr (Watched.ask.mpr fun eventId => ?_)
  split
  · refine ⟨by simp [see, commits, capabilityFails], fun e he => ?_⟩
    cases he
    exact ⟨_, _, _, rfl⟩
  · refine Safe.orThrow.mpr (Watched.ask.mpr fun r => ?_)
    refine ⟨by simp [see, commits, capabilityFails], fun e he => ?_⟩
    rcases r with audit | done
    · cases he
      exact ⟨_, _, _, rfl⟩
    · cases he

end Audited

theorem watch_audited (who : Accountable) (endpointId : EndpointId) :
    Watched (see (B := B)) (AuditedEndpointRefresh.execute who endpointId)
      (fun r s => s = seenAudited r) .none := by
  unfold AuditedEndpointRefresh.execute
  refine safe_perform.mpr (Watched.ask.mpr fun operationId => ?_)
  split
  · rfl
  split
  · rfl
  refine safe_perform.mpr (Watched.ask.mpr fun startedAt => ?_)
  refine safe_perform.mpr (Watched.ask.mpr fun eventId => ?_)
  refine safe_orThrow.mpr (Watched.ask.mpr fun r => ?_)
  rcases r with audit | started
  · rfl
  refine safe_perform.mpr ((watch_refresh endpointId).imp ?_)
  rintro (e | snapshots) s rfl
  · refine safe_perform.mpr ((watch_recordFailure e).imp ?_)
    rintro _ _ ⟨rfl, ⟨id, rfl⟩ | ⟨id, audit, rfl⟩⟩
    · rfl
    · rfl
  · refine Safe.bindE.mpr (watch_recordSuccess.imp ?_)
    rintro (e | done) _ ⟨rfl, he⟩
    · obtain ⟨stage, id, source, rfl⟩ := he e rfl
      rfl
    · rfl

/-! ## Runs of the enrollment -/

/-- No Generation is committed, and a success has not failed to probe. -/
structure Quiet {ε α : Type} (r : Except ε α) (s : Seen) : Prop where
  committed : s.committed = false
  failed : ∀ a, r = .ok a → s.failed = false

theorem Quiet.error {ε α : Type} {e : ε} {s : Seen} (h : s.committed = false) :
    Quiet (.error e : Except ε α) s :=
  ⟨h, fun _ he => nomatch he⟩

theorem watch_onboarding (request : OnboardEndpointRequest B.parseUrl) :
    Watched (see (B := B)) (EndpointOnboarding.execute request)
      Quiet .none := by
  unfold EndpointOnboarding.execute
  refine safe_orThrow.mpr (Watched.ask.mpr fun r => ?_)
  rcases r with e | credential
  · exact .error rfl
  rcases credential with - | credential
  · exact .error rfl
  refine safe_orThrow.mpr (Watched.ask.mpr fun r => ?_)
  rcases r with e | capabilities
  · exact .error rfl
  refine safe_perform.mpr (Watched.ask.mpr fun endpointId => ?_)
  refine safe_perform.mpr (Watched.ask.mpr fun now => ?_)
  split
  · exact .error rfl
  refine safe_orThrow.mpr (Watched.ask.mpr fun r => ?_)
  rcases r with e | endpoint
  · exact .error rfl
  · exact Quiet.mk rfl fun _ _ => rfl

section Onboarding

variable {context : AuditOperationContext B.parseUrl}
  {sequence progressSequence completionSequence : AuditSequence}
  {startedAt : Instant} {endpointId : EndpointId} {s : Seen}

theorem watch_onboardingFailure (onboarding : OnboardEndpointError B) :
    Watched see (AuditedEndpointOnboarding.recordOnboardingFailure context sequence
      startedAt onboarding) (fun _ s' => s' = s) s := by
  unfold AuditedEndpointOnboarding.recordOnboardingFailure
  refine Safe.bind.mpr (Watched.ask.mpr fun now => ?_)
  refine Safe.bind.mpr (Watched.ask.mpr fun eventId => ?_)
  split
  · show _ = s
    simp [see, commits, capabilityFails]
  · refine Safe.bind.mpr (Watched.ask.mpr fun r => ?_)
    rcases r with audit | done
    · show _ = s
      simp [see, commits, capabilityFails]
    · show _ = s
      simp [see, commits, capabilityFails]

theorem watch_onboardingSuccess :
    Watched see (AuditedEndpointOnboarding.recordOnboardingSuccess context
      progressSequence completionSequence startedAt endpointId : UseCase B _ Unit)
      (fun _ s' => s' = s) s := by
  unfold AuditedEndpointOnboarding.recordOnboardingSuccess
  refine safe_perform.mpr (Watched.ask.mpr fun now => ?_)
  refine safe_perform.mpr (Watched.ask.mpr fun eventId => ?_)
  split
  · show _ = s
    simp [see, commits, capabilityFails]
  refine safe_orThrow.mpr (Watched.ask.mpr fun r => ?_)
  rcases r with audit | done
  · show _ = s
    simp [see, commits, capabilityFails]
  refine safe_perform.mpr (Watched.ask.mpr fun now => ?_)
  refine safe_perform.mpr (Watched.ask.mpr fun eventId => ?_)
  split
  · show _ = s
    simp [see, commits, capabilityFails]
  refine Safe.orThrow.mpr (Watched.ask.mpr fun r => ?_)
  show _ = s
  simp [see, commits, capabilityFails]

end Onboarding

theorem watch_auditedOnboarding (who : Accountable)
    (request : OnboardEndpointRequest B.parseUrl) :
    Watched (see (B := B)) (AuditedEndpointOnboarding.execute who request)
      Quiet .none := by
  unfold AuditedEndpointOnboarding.execute
  refine safe_perform.mpr (Watched.ask.mpr fun operationId => ?_)
  split
  · exact .error rfl
  split
  · exact .error rfl
  split
  · exact .error rfl
  refine safe_perform.mpr (Watched.ask.mpr fun startedAt => ?_)
  refine safe_perform.mpr (Watched.ask.mpr fun eventId => ?_)
  refine safe_orThrow.mpr (Watched.ask.mpr fun r => ?_)
  rcases r with audit | started
  · exact .error rfl
  refine safe_perform.mpr ((watch_onboarding request).imp ?_)
  rintro (e | onboarded) s ⟨hcommitted, hfailed⟩
  · refine safe_perform.mpr ((watch_onboardingFailure e).imp ?_)
    rintro _ _ rfl
    exact .error hcommitted
  · refine Safe.bindE.mpr (watch_onboardingSuccess.imp ?_)
    rintro (e | done) _ rfl
    · exact .error hcommitted
    · exact Quiet.mk hcommitted fun _ _ => hfailed _ rfl

/-- The error of an enrollment says that a Generation is there. -/
def reportsCommitted : EndpointEnrollmentError B → Bool
  | .initialRefreshAuditAfterCommit .. => true
  | _ => false

/-- An enrollment that fails either never commits, or its first refresh fails and it
says of the Generation what the refresh says. -/
theorem watch_enrollment (who : Accountable)
    (request : OnboardEndpointRequest B.parseUrl) :
    Watched (see (B := B)) (EndpointEnrollment.execute who request)
      (fun r s => ∀ e, r = .error e →
        (s.committed = false ∧ reportsCommitted e = false ∧
          ∀ id source, e ≠ .initialRefresh id source) ∨
        ∃ id source, e = initialRefreshError id source ∧
          s = seenFailed source)
      .none := by
  unfold EndpointEnrollment.execute
  refine safe_orThrow.mpr ((watch_auditedOnboarding who request).imp ?_)
  rintro (e | onboarded) s ⟨hcommitted, hfailed⟩
  · intro e' he
    cases he
    refine .inl ⟨hcommitted, ?_, ?_⟩
    · unfold onboardingError
      split
      · rfl
      · rfl
    · unfold onboardingError
      split
      · exact nofun
      · exact nofun
  obtain rfl : s = .none := by
    obtain ⟨committed, failed⟩ := s
    obtain rfl : committed = false := hcommitted
    obtain rfl : failed = false := hfailed onboarded rfl
    rfl
  refine safe_perform.mpr (Watched.ask.mpr fun gate => ?_)
  rcases gate with - | gate
  · intro e he
    cases he
    exact .inl ⟨rfl, rfl, nofun⟩
  refine safe_perform.mpr (Watched.ask.mpr fun r => ?_)
  rcases r with closed | acquired
  · intro e he
    cases he
    exact .inl ⟨rfl, rfl, nofun⟩
  refine safe_orThrow.mpr ((watch_audited who _).imp ?_)
  rintro (source | snapshots) s rfl
  · intro e he
    cases he
    exact .inr ⟨_, source, rfl, rfl⟩
  · intro e he
    cases he

/-! ## The reports -/

/-- The report of an audited refresh's error is right unless the capability part
failed. -/
theorem report_iff {source : AuditedEndpointRefreshError B} {s : Seen}
    (h : s = seenFailed source) :
    (source.resourcesCommitted = true ↔ s.committed = true) ↔
      ¬(s.committed = true ∧ s.failed = true) := by
  subst h
  cases source with
  | audit stage id resourcesCommitted source =>
      simp [seenFailed, AuditedEndpointRefreshError.resourcesCommitted]
  | refresh id e =>
      simp [seenFailed, AuditedEndpointRefreshError.resourcesCommitted]
  | refreshAndAudit id e audit =>
      simp [seenFailed, AuditedEndpointRefreshError.resourcesCommitted]

theorem reportsCommitted_initialRefreshError (id : EndpointId)
    (source : AuditedEndpointRefreshError B) :
    reportsCommitted (initialRefreshError id source) = source.resourcesCommitted := by
  unfold initialRefreshError
  split
  · next h => exact h.symm
  · next h => exact (eq_false_of_ne_true h).symm

/-! One endpoint whose capabilities cannot be probed again. -/

def noLibrary : Outside where
  parseUrl := fun text =>
    some ⟨text, "https", some "bmc.example.test", "", none, none, none⟩
  canonicalize := .ok
  repository := Unit
  capability := Unit
  onboarding := Unit
  credential := Unit
  reader := Unit
  discovery := Unit
  audit := Unit

theorem bmc_named : parseLabel "a" = .ok "a" := by
  decide

theorem bmc_digest : (List.replicate 32 0).length = fingerprintLength := rfl

def bmc : Endpoint noLibrary.parseUrl where
  id := ⟨7⟩
  displayName := ⟨"a", bmc_named⟩
  address := ⟨⟨"https://bmc.example.test/", "https", some "bmc.example.test", "", none,
    none, none⟩, ⟨"https://bmc.example.test/", rfl⟩, rfl⟩
  trust := .systemCa ⟨⟨List.replicate 32 0, bmc_digest⟩, []⟩ 5
  credentialId := ⟨4⟩
  createdAt := 5
  updatedAt := 5
  ordered := by decide

def unprobed : (q : Req noLibrary) → q.Resp
  | .findEndpoint _ => .ok (some bmc)
  | .createDiscoveredEndpoint .. => .ok bmc
  | .resolve _ => .ok (some ⟨"root", "secret"⟩)
  | .readCoreResources .. => .ok ⟨[], []⟩
  | .commitResourceGeneration .. => .ok []
  | .probeCoreCapabilities .. => .error ()
  | .replaceEndpointCapabilities .. => .ok ()
  | .appendAuditEvent _ => .ok ()
  | .now => 5
  | .generate => 1
  | .endpointReadGate _ => some 0
  | .acquire _ => .ok ()

def operator : Accountable := ⟨.localOperator, none, .standalone⟩

/-- The Generation is committed, the probe fails, and the error denies it. -/
theorem late_failure_denied :
    ¬ ∀ (B : Outside) (who : Accountable) (endpointId : EndpointId)
      (log : List (Entry (endpoints B))) (e : AuditedEndpointRefreshError B),
      Runs (AuditedEndpointRefresh.execute who endpointId) log (.error e) →
      (e.resourcesCommitted = true ↔ Committed log) := by
  intro hall
  have hrun := runs_record unprobed
    (AuditedEndpointRefresh.execute operator ⟨7⟩ : UseCase noLibrary _ _)
  have hresult : (record unprobed (AuditedEndpointRefresh.execute operator ⟨7⟩ :
      UseCase noLibrary _ _)).2 = .error (.refresh ⟨7⟩ (.capabilityProbe ())) := rfl
  rw [hresult] at hrun
  have hcommitted : Committed (record unprobed (AuditedEndpointRefresh.execute operator
      ⟨7⟩ : UseCase noLibrary _ _)).1 :=
    List.any_eq_true.mp (by decide)
  exact absurd ((hall noLibrary operator ⟨7⟩ _ _ hrun).mpr hcommitted) (by decide)

/-- Whatever its collaborators answer, a refresh or an enrollment that fails says
rightly whether its Generation was committed, exactly unless the capability part
failed after the commit. -/
theorem refresh_error_reports_commit (B : Outside) (who : Accountable) :
    (∀ (endpointId : EndpointId) (log : List (Entry (endpoints B)))
      (e : AuditedEndpointRefreshError B),
      Runs (AuditedEndpointRefresh.execute who endpointId) log (.error e) →
      ((e.resourcesCommitted = true ↔ Committed log) ↔ ¬FailedLate log)) ∧
    (∀ (request : OnboardEndpointRequest B.parseUrl)
      (log : List (Entry (endpoints B))) (e : EndpointEnrollmentError B),
      Runs (EndpointEnrollment.execute who request) log (.error e) →
      ((reportsCommitted e = true ↔ Committed log) ↔ ¬FailedLate log) ∧
      ∀ id source, e = .initialRefresh id source ∨
        e = .initialRefreshAuditAfterCommit id source →
        source.resourcesCommitted = reportsCommitted e) := by
  refine ⟨fun endpointId log e hrun => ?_, fun request log e hrun => ?_⟩
  · have hseen := hrun.of_watched (watch_audited who endpointId)
    obtain ⟨hcommitted, hlate⟩ := seen_iff
      (rfl : _ = log.foldl (fun s e => see s e.1 e.2) .none)
    rw [hcommitted, hlate]
    exact report_iff hseen
  · obtain ⟨hcommitted, hlate⟩ := seen_iff
      (rfl : _ = log.foldl (fun s e => see s e.1 e.2) .none)
    rw [hcommitted, hlate]
    rcases hrun.of_watched (watch_enrollment who request) e rfl with
      ⟨hnone, hdenied, hother⟩ | ⟨id, source, rfl, hseen⟩
    · refine ⟨by simp [hnone, hdenied], ?_⟩
      rintro id source (rfl | rfl)
      · exact absurd rfl (hother id source)
      · cases hdenied
    · rw [reportsCommitted_initialRefreshError]
      refine ⟨report_iff hseen, ?_⟩
      intro id' source' heq
      unfold initialRefreshError at heq
      split at heq
      · rcases heq with heq | heq
        · cases heq
        · cases heq
          rfl
      · rcases heq with heq | heq
        · cases heq
          rfl
        · cases heq

end Rutilus.Proofs.RefreshReports
