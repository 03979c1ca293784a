import Rutilus.Endpoints.BatchRefresh
import Rutilus.Proofs.ResourceGenerations

/-!
# Refreshes of one endpoint do not overlap

Every refresh, of a batch or of an enrollment, holds the one permit of its endpoint's
read gate before it reads, until it ends. So between the start of a read and the
commit of what was read, nobody else commits a Generation of that endpoint, and the
Generations of an endpoint are in the order of their reads.

That a program reads and commits only under the gate is a contract of the program
alone (`Guarded`); the system keeps it for each of its processes.
-/

namespace Rutilus.Proofs.RefreshGates

open Rutilus.Domain hiding AuditRedfishOperation ResourceFeature
open Rutilus.Domain.Audit Rutilus.Domain.Endpoint Rutilus.Domain.Resource Rutilus.Lib
open Rutilus.Endpoints Rutilus.Endpoints.Refreshes

variable {B : Outside}

/-! ## Under the gate -/

/-- The process holds a permit of the gate that it was given for the endpoint. -/
def Holds (t : Progress B) (endpointId : EndpointId) : Prop :=
  ∃ gate, (endpointId, gate) ∈ t.gates ∧ gate ∈ t.held

/-- A read is of an endpoint whose gate is held, and a commit is of what was read. -/
def Allowed (q : Req B) (t : Progress B) : Prop :=
  match q with
  | .readCoreResources .. => ∃ endpointId, t.stage = .found endpointId ∧
      Holds t endpointId
  | .commitResourceGeneration endpointId observations _ _ =>
      t.stage = .read endpointId observations ∧ Holds t endpointId
  | _ => True

abbrev Guarded {α : Type} (p : Prog (endpoints B) α) (Q : α → Progress B → Prop)
    (t : Progress B) : Prop :=
  Safe (follows (S := endpoints B) Progress.see) Eq (fun q t _ => Allowed q t) p Q t

/-- The contract of a whole program. -/
abbrev Always {α : Type} (p : Prog (endpoints B) α) (t : Progress B) : Prop :=
  Guarded p (fun _ _ => True) t

theorem Guarded.ask {q : Req B} {Q : q.Resp → Progress B → Prop} {t : Progress B}
    (hq : Allowed q t) (h : ∀ r, Q r (t.see q r)) : Guarded (call q) Q t :=
  Safe.ask.mpr fun r => ⟨hq, h r⟩

section Programs

variable {t : Progress B} {endpointId : EndpointId} {who : Accountable}

theorem refresh_guarded (h : Holds t endpointId) :
    Always (EndpointRefresh.execute endpointId : UseCase B _ _) t := by
  unfold EndpointRefresh.execute
  refine safe_orThrow.mpr (Guarded.ask trivial fun r => ?_)
  rcases r with e | endpoint
  · trivial
  rcases endpoint with - | endpoint
  · trivial
  refine safe_orThrow.mpr (Guarded.ask trivial fun r => ?_)
  rcases r with e | credential
  · trivial
  rcases credential with - | credential
  · trivial
  refine safe_orThrow.mpr (Guarded.ask ⟨endpointId, rfl, h⟩ fun r => ?_)
  rcases r with e | outcome
  · trivial
  refine safe_perform.mpr (Guarded.ask trivial fun now => ?_)
  refine safe_orThrow.mpr (Guarded.ask ⟨rfl, h⟩ fun r => ?_)
  rcases r with e | snapshots
  · trivial
  refine safe_orThrow.mpr (Guarded.ask trivial fun r => ?_)
  rcases r with e | capabilities
  · trivial
  refine safe_perform.mpr (Guarded.ask trivial fun now => ?_)
  refine safe_orThrow.mpr (Guarded.ask trivial fun r => ?_)
  rcases r with e | done
  · trivial
  · trivial

theorem recordFailure_guarded {context : AuditOperationContext B.parseUrl}
    {sequence : AuditSequence} {startedAt : Instant} {refresh : EndpointRefreshError B} :
    Always (AuditedEndpointRefresh.recordRefreshFailure context sequence startedAt
      endpointId refresh) t := by
  unfold AuditedEndpointRefresh.recordRefreshFailure
  refine Safe.bind.mpr (Guarded.ask trivial fun now => ?_)
  refine Safe.bind.mpr (Guarded.ask trivial fun eventId => ?_)
  split
  · trivial
  refine Safe.bind.mpr (Guarded.ask trivial fun r => ?_)
  rcases r with e | done
  · trivial
  · trivial

theorem recordSuccess_guarded {context : AuditOperationContext B.parseUrl}
    {sequence : AuditSequence} {startedAt : Instant} :
    Always (AuditedEndpointRefresh.recordRefreshSuccess context sequence startedAt
      endpointId : UseCase B _ _) t := by
  unfold AuditedEndpointRefresh.recordRefreshSuccess
  refine safe_perform.mpr (Guarded.ask trivial fun now => ?_)
  refine safe_perform.mpr (Guarded.ask trivial fun eventId => ?_)
  split
  · trivial
  · exact Safe.orThrow.mpr (Guarded.ask trivial fun r => trivial)

theorem audited_guarded (h : Holds t endpointId) :
    Always (AuditedEndpointRefresh.execute who endpointId : UseCase B _ _) t := by
  unfold AuditedEndpointRefresh.execute
  refine safe_perform.mpr (Guarded.ask trivial fun operationId => ?_)
  split
  · trivial
  split
  · trivial
  refine safe_perform.mpr (Guarded.ask trivial fun startedAt => ?_)
  refine safe_perform.mpr (Guarded.ask trivial fun eventId => ?_)
  refine safe_orThrow.mpr (Guarded.ask trivial fun r => ?_)
  rcases r with e | started
  · trivial
  refine safe_perform.mpr ((refresh_guarded h).imp ?_)
  rintro (e | snapshots) t -
  · exact safe_perform.mpr (recordFailure_guarded.imp fun _ _ _ => trivial)
  · refine Safe.bindE.mpr (recordSuccess_guarded.imp ?_)
    rintro (e | done) t -
    · trivial
    · trivial

/-- The gate is taken before the refresh. -/
theorem refreshOne_guarded {semaphore : Semaphore} :
    Always (BatchEndpointRefresh.refreshOne (B := B) who semaphore endpointId) t := by
  unfold BatchEndpointRefresh.refreshOne
  refine Safe.bind.mpr (Guarded.ask trivial fun r => ?_)
  rcases r with e | acquired
  · trivial
  refine Safe.bind.mpr (Guarded.ask trivial fun r => ?_)
  rcases r with - | gate
  · trivial
  refine Safe.bind.mpr (Guarded.ask trivial fun r => ?_)
  rcases r with e | entered
  · trivial
  have hholds : Holds (((t.see (.acquire semaphore) (.ok acquired)).see
      (.endpointReadGate endpointId) (some gate)).see (.acquire gate) (.ok entered))
      endpointId :=
    ⟨gate, List.mem_cons_self, List.mem_cons_self⟩
  refine Safe.bind.mpr ((audited_guarded hholds).imp ?_)
  rintro (failure | snapshots) t -
  · trivial
  · trivial

theorem onboarding_guarded {request : OnboardEndpointRequest B.parseUrl} :
    Always (EndpointOnboarding.execute request : UseCase B _ _) t := by
  unfold EndpointOnboarding.execute
  refine safe_orThrow.mpr (Guarded.ask trivial fun r => ?_)
  rcases r with e | credential
  · trivial
  rcases credential with - | credential
  · trivial
  refine safe_orThrow.mpr (Guarded.ask trivial fun r => ?_)
  rcases r with e | capabilities
  · trivial
  refine safe_perform.mpr (Guarded.ask trivial fun endpointId => ?_)
  refine safe_perform.mpr (Guarded.ask trivial fun now => ?_)
  split
  · trivial
  refine safe_orThrow.mpr (Guarded.ask trivial fun r => ?_)
  rcases r with e | endpoint
  · trivial
  · trivial

theorem recordOnboardingFailure_guarded {context : AuditOperationContext B.parseUrl}
    {sequence : AuditSequence} {startedAt : Instant}
    {onboarding : OnboardEndpointError B} :
    Always (AuditedEndpointOnboarding.recordOnboardingFailure context sequence startedAt
      onboarding) t := by
  unfold AuditedEndpointOnboarding.recordOnboardingFailure
  refine Safe.bind.mpr (Guarded.ask trivial fun now => ?_)
  refine Safe.bind.mpr (Guarded.ask trivial fun eventId => ?_)
  split
  · trivial
  refine Safe.bind.mpr (Guarded.ask trivial fun r => ?_)
  rcases r with e | done
  · trivial
  · trivial

theorem recordOnboardingSuccess_guarded {context : AuditOperationContext B.parseUrl}
    {progressSequence completionSequence : AuditSequence} {startedAt : Instant} :
    Always (AuditedEndpointOnboarding.recordOnboardingSuccess context progressSequence
      completionSequence startedAt endpointId : UseCase B _ _) t := by
  unfold AuditedEndpointOnboarding.recordOnboardingSuccess
  refine safe_perform.mpr (Guarded.ask trivial fun now => ?_)
  refine safe_perform.mpr (Guarded.ask trivial fun eventId => ?_)
  split
  · trivial
  refine safe_orThrow.mpr (Guarded.ask trivial fun r => ?_)
  rcases r with e | done
  · trivial
  refine safe_perform.mpr (Guarded.ask trivial fun now => ?_)
  refine safe_perform.mpr (Guarded.ask trivial fun eventId => ?_)
  split
  · trivial
  · exact Safe.orThrow.mpr (Guarded.ask trivial fun r => trivial)

theorem auditedOnboarding_guarded {request : OnboardEndpointRequest B.parseUrl} :
    Always (AuditedEndpointOnboarding.execute who request : UseCase B _ _) t := by
  unfold AuditedEndpointOnboarding.execute
  refine safe_perform.mpr (Guarded.ask trivial fun operationId => ?_)
  split
  · trivial
  split
  · trivial
  split
  · trivial
  refine safe_perform.mpr (Guarded.ask trivial fun startedAt => ?_)
  refine safe_perform.mpr (Guarded.ask trivial fun eventId => ?_)
  refine safe_orThrow.mpr (Guarded.ask trivial fun r => ?_)
  rcases r with e | started
  · trivial
  refine safe_perform.mpr (onboarding_guarded.imp ?_)
  rintro (e | onboarded) t -
  · refine safe_perform.mpr (recordOnboardingFailure_guarded.imp fun _ _ _ => ?_)
    trivial
  · refine Safe.bindE.mpr (recordOnboardingSuccess_guarded.imp ?_)
    rintro (e | done) t -
    · trivial
    · trivial

/-- The first refresh of an enrollment takes the gate as well. -/
theorem enrollment_guarded {request : OnboardEndpointRequest B.parseUrl} :
    Always (EndpointEnrollment.execute who request : UseCase B _ _) t := by
  unfold EndpointEnrollment.execute
  refine safe_orThrow.mpr (auditedOnboarding_guarded.imp ?_)
  rintro (e | onboarded) t -
  · trivial
  refine safe_perform.mpr (Guarded.ask trivial fun r => ?_)
  rcases r with - | gate
  · trivial
  refine safe_perform.mpr (Guarded.ask trivial fun r => ?_)
  rcases r with e | entered
  · trivial
  have hholds : Holds ((t.see (.endpointReadGate onboarded.endpoint.id)
      (some gate)).see (.acquire gate) (.ok entered)) onboarded.endpoint.id :=
    ⟨gate, List.mem_cons_self, List.mem_cons_self⟩
  refine safe_orThrow.mpr ((audited_guarded hholds).imp ?_)
  rintro (e | snapshots) t -
  · trivial
  · trivial

theorem precheck_guarded {targets : List EndpointId} :
    Always (BatchEndpointRefresh.precheck targets : UseCase B _ _) t := by
  induction targets generalizing t with
  | nil => trivial
  | cons endpointId rest ih =>
      unfold BatchEndpointRefresh.precheck
      refine safe_orThrow.mpr (Guarded.ask trivial fun r => ?_)
      rcases r with e | endpoint
      · trivial
      rcases endpoint with - | endpoint
      · trivial
      · exact ih

theorem batchWork_guarded {targets : List EndpointId} :
    Always (batchWork (B := B) targets) t := by
  refine Safe.bind.mpr ?_
  have hvalidate : Always (BatchEndpointRefresh.validateEndpointIds targets :
      UseCase B _ _) t := by
    unfold BatchEndpointRefresh.validateEndpointIds
    split
    · trivial
    split
    · trivial
    split
    · trivial
    · exact precheck_guarded
  refine hvalidate.imp ?_
  rintro (e | valid) t -
  · trivial
  · trivial

theorem refreshWork_guarded {semaphore : Semaphore} :
    Always (refreshWork (B := B) who semaphore endpointId) t :=
  Safe.bind.mpr (refreshOne_guarded.imp fun _ _ _ => trivial)

theorem enrollmentWork_guarded {request : OnboardEndpointRequest B.parseUrl} :
    Always (enrollmentWork who request) t :=
  Safe.bind.mpr (enrollment_guarded.imp fun _ _ _ => trivial)

end Programs

/-! ## The log -/

section Log

variable {log events : List (Event B)} {pid : Nat} {endpointId : EndpointId}
  {observations : List (ResourceObservation B.canonicalize)}

def commitOf : Event B → Option (Store.Resources.Commit B.canonicalize)
  | .committed _ commit => some commit
  | _ => none

/-- No Generation of the endpoint is committed here. -/
def Quiet (endpointId : EndpointId) (events : List (Event B)) : Prop :=
  ∀ commit ∈ events.filterMap commitOf, commit.endpointId ≠ endpointId

/-- The process reads the endpoint, and no Generation of it was committed since. -/
def Reading (log : List (Event B)) (pid : Nat) (endpointId : EndpointId) : Prop :=
  ∃ l₁ l₂, log = l₁ ++ .readStarted pid endpointId :: l₂ ∧ Quiet endpointId l₂

/-- The process has read the endpoint, and no Generation of it was committed since
the read started. -/
def Fresh (log : List (Event B)) (pid : Nat) (endpointId : EndpointId)
    (observations : List (ResourceObservation B.canonicalize)) : Prop :=
  ∃ l₁ l₂ l₃, log = l₁ ++ .readStarted pid endpointId :: l₂ ++
      .readAnswered pid endpointId observations :: l₃ ∧
    Quiet endpointId l₂ ∧ Quiet endpointId l₃

/-- Every commit is of what its process has read since the last one. -/
def Ordered (log : List (Event B)) : Prop :=
  ∀ l₁ l₂ pid commit, log = l₁ ++ .committed pid commit :: l₂ →
    Fresh l₁ pid commit.endpointId commit.observations

theorem Quiet.of_none (h : events.filterMap commitOf = []) :
    Quiet endpointId events := by
  intro commit hcommit
  rw [h] at hcommit
  cases hcommit

theorem Quiet.append {more : List (Event B)} (h : Quiet endpointId events)
    (hmore : Quiet endpointId more) : Quiet endpointId (events ++ more) := by
  intro commit hcommit
  rw [List.filterMap_append] at hcommit
  exact (List.mem_append.mp hcommit).elim (h commit) (hmore commit)

theorem Reading.append (h : Reading log pid endpointId)
    (hevents : Quiet endpointId events) : Reading (log ++ events) pid endpointId := by
  obtain ⟨l₁, l₂, rfl, hquiet⟩ := h
  exact ⟨l₁, l₂ ++ events, by simp, hquiet.append hevents⟩

theorem Fresh.append (h : Fresh log pid endpointId observations)
    (hevents : Quiet endpointId events) :
    Fresh (log ++ events) pid endpointId observations := by
  obtain ⟨l₁, l₂, l₃, rfl, hquiet, hsince⟩ := h
  exact ⟨l₁, l₂, l₃ ++ events, by simp, hquiet, hsince.append hevents⟩

theorem Reading.answer (h : Reading log pid endpointId) :
    Fresh (log ++ [.readAnswered pid endpointId observations]) pid endpointId
      observations := by
  obtain ⟨l₁, l₂, rfl, hquiet⟩ := h
  exact ⟨l₁, l₂, [], by simp, hquiet, .of_none rfl⟩

theorem Ordered.append (h : Ordered log) (hevents : events.filterMap commitOf = []) :
    Ordered (log ++ events) := by
  intro l₁ l₂ pid commit heq
  rcases append_eq_append_cons heq with ⟨m, hlog, -⟩ | ⟨m, -, hmore⟩
  · exact h l₁ m pid commit hlog
  · rw [hmore, List.filterMap_append] at hevents
    simp [commitOf] at hevents

theorem Ordered.commit {commit : Store.Resources.Commit B.canonicalize}
    (h : Ordered log) (hfresh : Fresh log pid commit.endpointId commit.observations) :
    Ordered (log ++ [.committed pid commit]) := by
  intro l₁ l₂ pid' commit' heq
  rcases append_eq_append_cons heq with ⟨m, hlog, -⟩ | ⟨m, rfl, hlast⟩
  · exact h l₁ m pid' commit' hlog
  · cases m with
    | nil =>
        cases hlast
        rwa [List.append_nil]
    | cons event m =>
        obtain ⟨-, hnil⟩ := List.cons_eq_cons.mp hlast
        simp at hnil

/-- The read of a commit starts after every earlier commit of its endpoint. -/
theorem Ordered.read_after {l₁ l₂ l₃ : List (Event B)} {pid' : Nat}
    {first second : Store.Resources.Commit B.canonicalize}
    (h : Ordered (l₁ ++ .committed pid first :: l₂ ++ .committed pid' second :: l₃))
    (hsame : first.endpointId = second.endpointId) :
    ∃ m₁ m₂ m₃, l₂ = m₁ ++ .readStarted pid' second.endpointId :: m₂ ++
      .readAnswered pid' second.endpointId second.observations :: m₃ := by
  obtain ⟨n₁, n₂, n₃, heq, hquiet, hsince⟩ := h _ l₃ pid' second rfl
  rw [List.append_assoc, List.cons_append] at heq
  rcases append_eq_append_cons heq.symm with ⟨m, -, hl₂⟩ | ⟨m, -, hlater⟩
  · exact ⟨m, n₂, n₃, by simpa using hl₂⟩
  · exfalso
    have hlist := congrArg (List.filterMap commitOf) hlater
    have hmem : first ∈ n₂.filterMap commitOf ++ n₃.filterMap commitOf := by
      simp only [List.filterMap_cons, List.filterMap_append, commitOf] at hlist
      rw [hlist]
      simp
    exact hquiet.append hsince first (by rwa [List.filterMap_append]) hsame

end Log

/-! ## The invariant -/

/-- The call reads the core resources. -/
def reads : Req B → Bool
  | .readCoreResources .. => true
  | _ => false

/-- The read of the endpoint is under way. -/
def IsReading (p : Process B) (endpointId : EndpointId) : Prop :=
  p.issued = true ∧ p.progress.stage = .found endpointId ∧
    ∃ q k, p.rest = .call q k ∧ reads q = true

/-- Between the start of its read and the end of its commit. -/
def InPhase (p : Process B) (endpointId : EndpointId) : Prop :=
  IsReading p endpointId ∨
    ∃ observations, p.progress.stage = .read endpointId observations

structure Kept (s : State B) (pid : Nat) (p : Process B) : Prop where
  guarded : Always p.rest p.progress
  gates : ∀ e gate, (e, gate) ∈ p.progress.gates → s.gates e = some gate
  held : ∀ gate ∈ p.progress.held, pid ∈ s.holders gate
  holds : ∀ e, InPhase p e → Holds p.progress e
  reading : ∀ e, IsReading p e → Reading s.log pid e
  fresh : ∀ e observations, p.progress.stage = .read e observations →
    Fresh s.log pid e observations

structure Inv (s : State B) : Prop where
  permits : ∀ semaphore, (s.holders semaphore).length ≤ s.capacity semaphore
  unborn : ∀ semaphore, s.semaphores ≤ semaphore →
    s.holders semaphore = [] ∧ s.capacity semaphore = 0
  gates : ∀ e gate, s.gates e = some gate →
    s.capacity gate = 1 ∧ gate < s.semaphores
  kept : ∀ pid p, s.processes pid = some p → Kept s pid p
  store : ResourceGenerations.Inv s.store
  commits : s.log.filterMap commitOf = s.store.commits
  ordered : Ordered s.log

section Invariant

variable {s s' : State B} {pid pid' : Nat} {p p' : Process B} {e : EndpointId}

theorem Inv.initial (h : Initial s) : Inv s where
  permits semaphore := by
    rw [h.holders]
    exact Nat.zero_le _
  unborn semaphore _ := ⟨h.holders semaphore, h.capacity semaphore⟩
  gates e gate hgate := by
    rw [h.gates] at hgate
    cases hgate
  kept pid p hp := by
    rw [h.processes] at hp
    cases hp
  store := .initial h.store
  commits := by
    rw [h.log, h.store.2.2.2]
    rfl
  ordered l₁ l₂ pid commit heq := by
    rw [h.log] at heq
    simp at heq

/-- A gate has one permit, so one process holds it. -/
theorem Inv.holder_unique (h : Inv s) (hp : s.processes pid = some p)
    (hp' : s.processes pid' = some p') (hholds : Holds p.progress e)
    (hholds' : Holds p'.progress e) : pid = pid' := by
  obtain ⟨gate, hgate, hheld⟩ := hholds
  obtain ⟨gate', hgate', hheld'⟩ := hholds'
  have hsame : s.gates e = some gate := (h.kept pid p hp).gates e gate hgate
  have hsame' : s.gates e = some gate' := (h.kept pid' p' hp').gates e gate' hgate'
  obtain rfl : gate = gate' := Option.some.inj (hsame.symm.trans hsame')
  have hin := (h.kept pid p hp).held gate hheld
  have hin' := (h.kept pid' p' hp').held gate hheld'
  have hone : (s.holders gate).length ≤ 1 :=
    (h.permits gate).trans (h.gates e gate hsame).1.le
  match hlist : s.holders gate with
  | [] => rw [hlist] at hin; cases hin
  | [only] =>
      rw [hlist] at hin hin'
      exact (List.mem_singleton.mp hin).trans (List.mem_singleton.mp hin').symm
  | _ :: _ :: _ =>
      rw [hlist] at hone
      simp at hone

/-- What the steps of others leave of a process. -/
theorem Kept.frame {events : List (Event B)} (h : Kept s pid p)
    (hgates : ∀ e gate, s.gates e = some gate → s'.gates e = some gate)
    (hholders : ∀ gate, pid ∈ s.holders gate → pid ∈ s'.holders gate)
    (hlog : s'.log = s.log ++ events)
    (hquiet : ∀ e, InPhase p e → Quiet e events) : Kept s' pid p where
  guarded := h.guarded
  gates e gate hgate := hgates e gate (h.gates e gate hgate)
  held gate hheld := hholders gate (h.held gate hheld)
  holds := h.holds
  reading e hreading := by
    rw [hlog]
    exact (h.reading e hreading).append (hquiet e (.inl hreading))
  fresh e observations hstage := by
    rw [hlog]
    exact (h.fresh e observations hstage).append (hquiet e (.inr ⟨_, hstage⟩))

theorem Kept.start {who : Accountable} {rest : Work B}
    (h : Always rest Progress.start) : Kept s pid ⟨who, rest, false, .start⟩ where
  guarded := h
  gates _ _ hgate := nomatch hgate
  held _ hheld := nomatch hheld
  holds e hphase := by
    rcases hphase with ⟨hissued, -⟩ | ⟨observations, hstage⟩
    · cases hissued
    · cases hstage
  reading _ hreading := nomatch hreading.1
  fresh _ _ hstage := nomatch hstage

/-- A process that starts. -/
theorem Inv.spawn {who : Accountable} {rest : Work B} (h : Inv s)
    (hrest : Always rest Progress.start) : Inv (s.spawn who rest) where
  permits := h.permits
  unborn := h.unborn
  gates := h.gates
  kept pid p hp := by
    unfold State.spawn at hp
    dsimp only at hp
    by_cases hpid : pid = s.spawned
    · rw [hpid, Function.update_self] at hp
      cases hp
      exact .start hrest
    · rw [Function.update_of_ne hpid] at hp
      refine (h.kept pid p hp).frame (fun _ _ hg => hg) (fun _ hg => hg)
        (?_ : _ = _ ++ []) fun _ _ => .of_none rfl
      exact (List.append_nil _).symm
  store := h.store
  commits := h.commits
  ordered := h.ordered

theorem Inv.newSemaphore (permits : Nat) (h : Inv s) :
    Inv (s.newSemaphore permits) where
  permits semaphore := by
    unfold State.newSemaphore
    dsimp only
    by_cases hnew : semaphore = s.semaphores
    · rw [hnew, (h.unborn _ (Nat.le_refl _)).1]
      exact Nat.zero_le _
    · rw [Function.update_of_ne hnew]
      exact h.permits semaphore
  unborn semaphore hle := by
    unfold State.newSemaphore
    dsimp only
    rw [Function.update_of_ne (Nat.ne_of_gt hle)]
    exact h.unborn semaphore (Nat.le_of_succ_le hle)
  gates e gate hgate := by
    obtain ⟨hone, hlt⟩ := h.gates e gate hgate
    refine ⟨?_, Nat.lt_succ_of_lt hlt⟩
    unfold State.newSemaphore
    dsimp only
    rw [Function.update_of_ne (Nat.ne_of_lt hlt)]
    exact hone
  kept pid p hp := (h.kept pid p hp).frame (fun _ _ hg => hg) (fun _ hg => hg)
    (show _ = _ ++ [] from (List.append_nil _).symm) fun _ _ => .of_none rfl
  store := h.store
  commits := h.commits
  ordered := h.ordered

theorem Inv.leave (h : Inv s) : Inv (s.leave pid) where
  permits semaphore := (List.length_filter_le _ _).trans (h.permits semaphore)
  unborn semaphore hle := by
    unfold State.leave
    dsimp only
    obtain ⟨hnone, hclosed⟩ := h.unborn semaphore hle
    rw [hnone]
    exact ⟨rfl, hclosed⟩
  gates := h.gates
  kept pid' p' hp' := by
    unfold State.leave at hp'
    dsimp only at hp'
    by_cases hpid : pid' = pid
    · rw [hpid, Function.update_self] at hp'
      cases hp'
    · rw [Function.update_of_ne hpid] at hp'
      refine (h.kept pid' p' hp').frame (fun _ _ hg => hg) ?_
        (show _ = _ ++ [] from (List.append_nil _).symm) fun _ _ => .of_none rfl
      exact fun gate hin => List.mem_filter.mpr ⟨hin, by simpa using hpid⟩
  store := h.store
  commits := h.commits
  ordered := h.ordered

theorem Inv.spawnAll {who : Accountable} {semaphore : Semaphore}
    {targets : List EndpointId} (h : Inv s) :
    Inv (targets.foldl (fun s' endpointId =>
      s'.spawn who (refreshWork who semaphore endpointId)) s) := by
  induction targets generalizing s with
  | nil => exact h
  | cons endpointId rest ih => exact ih (h.spawn refreshWork_guarded)

theorem Inv.spawnRefreshes {who : Accountable} {targets : List EndpointId}
    (h : Inv s) : Inv (s.spawnRefreshes who targets) := by
  unfold State.spawnRefreshes
  split
  · exact h
  · exact (h.newSemaphore _).spawnAll

/-! ## A call is issued -/

theorem started_quiet {t : Progress B} {q : Req B} :
    (started pid t q).filterMap commitOf = [] := by
  unfold started
  split
  · split
    · rfl
    · rfl
  · rfl

/-- What an issued read starts. -/
theorem started_of_reads {t : Progress B} {q : Req B} (hq : reads q = true)
    (hstage : t.stage = .found e) : started pid t q = [.readStarted pid e] := by
  cases q with
  | readCoreResources => simp [started, hstage]
  | _ => cases hq

/-- A call may only be made when its contract allows it. -/
theorem allowed_of_guarded {q : Req B} {k : q.Resp → Work B} {t : Progress B}
    (h : Always (.call q k : Work B) t) (r : q.Resp) :
    Allowed q t ∧ Always (k r) (t.see q r) := h t rfl r _ rfl

theorem holds_of_reads {q : Req B} {k : q.Resp → Work B} {t : Progress B}
    (h : Always (.call q k : Work B) t) (hq : reads q = true)
    (hstage : t.stage = .found e) : Holds t e := by
  cases q with
  | readCoreResources =>
      obtain ⟨e', hfound, hholds⟩ := (allowed_of_guarded h (.ok ⟨[], []⟩)).1
      rw [hstage] at hfound
      cases hfound
      exact hholds
  | _ => cases hq

theorem Inv.issue {who : Accountable} {q : Req B} {k : q.Resp → Work B}
    {t : Progress B} (h : Inv s)
    (hp : s.processes pid = some ⟨who, .call q k, false, t⟩) :
    Inv { s with
      processes := Function.update s.processes pid (some ⟨who, .call q k, true, t⟩)
      log := s.log ++ started pid t q } where
  permits := h.permits
  unborn := h.unborn
  gates := h.gates
  kept pid' p' hp' := by
    dsimp only at hp'
    by_cases hpid : pid' = pid
    · rw [hpid, Function.update_self] at hp'
      cases hp'
      subst hpid
      have hold := h.kept pid' _ hp
      refine ⟨hold.guarded, hold.gates, hold.held, ?_, ?_, ?_⟩
      · rintro e (⟨-, hstage, q', k', hrest, hq⟩ | ⟨observations, hstage⟩)
        · cases hrest
          exact holds_of_reads hold.guarded hq hstage
        · exact hold.holds e (.inr ⟨observations, hstage⟩)
      · rintro e ⟨-, hstage, q', k', hrest, hq⟩
        cases hrest
        rw [started_of_reads hq hstage]
        exact ⟨s.log, [], rfl, .of_none rfl⟩
      · intro e observations hstage
        exact (hold.fresh e observations hstage).append (.of_none started_quiet)
    · rw [Function.update_of_ne hpid] at hp'
      exact (h.kept pid' p' hp').frame (fun _ _ hg => hg) (fun _ hg => hg) rfl
        fun _ _ => .of_none started_quiet
  store := h.store
  commits := by
    rw [List.filterMap_append, started_quiet, List.append_nil]
    exact h.commits
  ordered := h.ordered.append started_quiet

/-! ## A call is answered -/

theorem answered_quiet {t : Progress B} {q : Req B} {r : q.Resp} :
    (answered pid t q r).filterMap commitOf = [] := by
  unfold answered
  split
  · split
    · rfl
    · rfl
  · rfl

section See

variable {t : Progress B} {q : Req B} {r : q.Resp}

theorem see_own (hgate : ∀ e, q ≠ .endpointReadGate e)
    (hacquire : ∀ semaphore, q ≠ .acquire semaphore) :
    (t.see q r).gates = t.gates ∧ (t.see q r).held = t.held := by
  unfold Progress.see
  split
  · exact absurd rfl (hgate _)
  · exact absurd rfl (hacquire _)
  · exact ⟨rfl, rfl⟩
  · split
    · exact ⟨rfl, rfl⟩
    · exact ⟨rfl, rfl⟩
  · exact ⟨rfl, rfl⟩
  · exact ⟨rfl, rfl⟩
  · exact ⟨rfl, rfl⟩

/-- Gates that were given and permits that are held stay. -/
theorem see_grows : (∀ x ∈ t.gates, x ∈ (t.see q r).gates) ∧
    ∀ x ∈ t.held, x ∈ (t.see q r).held := by
  cases q with
  | endpointReadGate e =>
      cases r with
      | none => exact ⟨fun _ h => h, fun _ h => h⟩
      | some gate => exact ⟨fun _ h => List.mem_cons_of_mem _ h, fun _ h => h⟩
  | acquire semaphore =>
      rcases r with e | acquired
      · exact ⟨fun _ h => h, fun _ h => h⟩
      · exact ⟨fun _ h => h, fun _ h => List.mem_cons_of_mem _ h⟩
  | _ =>
      obtain ⟨hgates, hheld⟩ := see_own (t := t) (r := r) nofun nofun
      rw [hgates, hheld]
      exact ⟨fun _ h => h, fun _ h => h⟩

theorem Holds.see (h : Holds t e) : Holds (t.see q r) e := by
  obtain ⟨gate, hgate, hheld⟩ := h
  exact ⟨gate, see_grows.1 _ hgate, see_grows.2 _ hheld⟩

/-- What was read was read before, or is read now. -/
theorem stage_see (pid : Nat) {observations : List (ResourceObservation B.canonicalize)}
    (h : (t.see q r).stage = .read e observations) :
    (t.stage = .read e observations ∧
        ∀ e' o d a, q ≠ .commitResourceGeneration e' o d a) ∨
      reads q = true ∧ t.stage = .found e ∧
        answered pid t q r = [.readAnswered pid e observations] := by
  unfold Progress.see at h
  split at h
  · exact .inl ⟨h, nofun⟩
  · exact .inl ⟨h, nofun⟩
  · cases h
  · next outcome =>
      split at h
      · next hfound =>
          cases h
          exact .inr ⟨rfl, hfound, by simp [answered, hfound]⟩
      · cases h
  · cases h
  · cases h
  · next hother =>
      refine .inl ⟨h, fun e' o d a heq => ?_⟩
      subst heq
      exact hother e' o d a r rfl HEq.rfl

end See

/-- What an answer leaves of the shared state, for the others and for the process
itself. -/
structure Settled (s : State B) (pid : Nat) (t : Progress B) (q : Req B) (r : q.Resp)
    (s' : State B) (events : List (Event B)) : Prop where
  processes : s'.processes = s.processes
  permits : ∀ semaphore, (s'.holders semaphore).length ≤ s'.capacity semaphore
  unborn : ∀ semaphore, s'.semaphores ≤ semaphore →
    s'.holders semaphore = [] ∧ s'.capacity semaphore = 0
  gates : ∀ e gate, s'.gates e = some gate →
    s'.capacity gate = 1 ∧ gate < s'.semaphores
  kept : ∀ e gate, s.gates e = some gate → s'.gates e = some gate
  holders : ∀ pid' semaphore, pid' ∈ s.holders semaphore →
    pid' ∈ s'.holders semaphore
  ownGates : ∀ e gate, (e, gate) ∈ (t.see q r).gates →
    (e, gate) ∈ t.gates ∨ s'.gates e = some gate
  ownHeld : ∀ gate ∈ (t.see q r).held, gate ∈ t.held ∨ pid ∈ s'.holders gate
  store : ResourceGenerations.Inv s'.store
  log : s'.log = s.log ++ events
  commits : s'.store.commits = s.store.commits ++ events.filterMap commitOf

/-- What may be committed: nothing, or what the call is to commit. -/
def Commits (pid : Nat) (q : Req B) (events : List (Event B)) : Prop :=
  events = [] ∨ ∃ commit decodeFailures observedAt,
    q = .commitResourceGeneration commit.endpointId commit.observations decodeFailures
      observedAt ∧ events = [.committed pid commit]

variable {wrap : Store.Resources.ResourceSnapshotRepositoryError → B.repository}

/-- An answer that leaves the shared state alone. -/
theorem Settled.same {t : Progress B} {q : Req B} {r : q.Resp} (h : Inv s)
    (hsee : (t.see q r).gates = t.gates ∧ (t.see q r).held = t.held) :
    Settled s pid t q r s [] where
  processes := rfl
  permits := h.permits
  unborn := h.unborn
  gates := h.gates
  kept _ _ hgate := hgate
  holders _ _ hin := hin
  ownGates _ _ hgate := .inl (hsee.1 ▸ hgate)
  ownHeld _ hheld := .inl (hsee.2 ▸ hheld)
  store := h.store
  log := (List.append_nil _).symm
  commits := (List.append_nil _).symm

theorem settled_gate {t : Progress B} (h : Inv s) :
    Settled s pid t (.endpointReadGate e) (some (endpointReadGate s e).1)
      (endpointReadGate s e).2 [] := by
  unfold endpointReadGate
  split
  · next gate hgate =>
      refine ⟨rfl, h.permits, h.unborn, h.gates, fun _ _ hg => hg, fun _ _ hin => hin,
        fun e' gate' hin => ?_, fun _ hheld => .inl hheld, h.store,
        (List.append_nil _).symm, (List.append_nil _).symm⟩
      rcases List.mem_cons.mp hin with heq | hin
      · cases heq
        exact .inr hgate
      · exact .inl hin
  · next hnone =>
      have hnew := h.newSemaphore 1
      have hkept : ∀ e' gate, s.gates e' = some gate →
          Function.update s.gates e (some s.semaphores) e' = some gate := by
        intro e' gate hgate
        have hne : e' ≠ e := by
          rintro rfl
          rw [hnone] at hgate
          cases hgate
        rw [Function.update_of_ne hne]
        exact hgate
      refine ⟨rfl, hnew.permits, hnew.unborn, fun e' gate hgate => ?_, hkept,
        fun _ _ hin => hin, fun e' gate hin => ?_, fun _ hheld => .inl hheld,
        h.store, (List.append_nil _).symm, (List.append_nil _).symm⟩
      · dsimp only at hgate
        by_cases he : e' = e
        · rw [he, Function.update_self] at hgate
          cases hgate
          exact ⟨Function.update_self .., Nat.lt_succ_self _⟩
        · rw [Function.update_of_ne he] at hgate
          exact hnew.gates e' gate hgate
      · rcases List.mem_cons.mp hin with heq | hin
        · cases heq
          exact .inr (Function.update_self ..)
        · exact .inl hin

theorem settled_permit {t : Progress B} {semaphore : Semaphore} {acquired : Unit}
    (h : Inv s) (hacquire : acquire s pid semaphore = some s') :
    Settled s pid t (.acquire semaphore) (.ok acquired) s' [] := by
  unfold acquire at hacquire
  split at hacquire
  · next hfree =>
      cases hacquire
      have hheld : ∀ other, other ≠ semaphore →
          Function.update s.holders semaphore (pid :: s.holders semaphore) other =
            s.holders other := fun other hne => Function.update_of_ne hne ..
      refine ⟨rfl, fun other => ?_, fun other hle => ?_, h.gates, fun _ _ hg => hg,
        fun pid' other hin => ?_, fun _ _ hg => .inl hg, fun gate hin => ?_, h.store,
        (List.append_nil _).symm, (List.append_nil _).symm⟩
      · dsimp only
        by_cases hother : other = semaphore
        · rw [hother, Function.update_self]
          exact hfree
        · rw [hheld other hother]
          exact h.permits other
      · dsimp only
        by_cases hother : other = semaphore
        · subst hother
          rw [(h.unborn other hle).2] at hfree
          exact absurd hfree (Nat.not_lt_zero _)
        · rw [hheld other hother]
          exact h.unborn other hle
      · dsimp only
        by_cases hother : other = semaphore
        · rw [hother, Function.update_self]
          exact List.mem_cons_of_mem _ (hother ▸ hin)
        · rw [hheld other hother]
          exact hin
      · rcases List.mem_cons.mp hin with rfl | hin
        · refine .inr ?_
          dsimp only
          rw [Function.update_self]
          exact List.mem_cons_self
        · exact .inl hin
  · cases hacquire

theorem settled_commit {t : Progress B} {l : Store.Resources.Label B.canonicalize}
    {snapshots : List (ResourceSnapshot B.canonicalize)} (h : Inv s)
    (hcommit : commit wrap s pid l = (.ok snapshots, s')) :
    ∃ events, Settled s pid t
        (.commitResourceGeneration l.endpointId l.observations l.decodeFailures
          l.observedAt) (.ok snapshots) s' events ∧
      Commits pid (.commitResourceGeneration l.endpointId l.observations
        l.decodeFailures l.observedAt) events := by
  have hnext : ∃ r, Store.Resources.next s.store l = some r := by
    unfold Store.Resources.next
    split
    · exact ⟨_, rfl⟩
    · exact ⟨_, rfl⟩
  obtain ⟨store, hstep⟩ := hnext
  have hstore := h.store.step hstep
  unfold commit at hcommit
  unfold Store.Resources.next at hstep
  split at hcommit
  · cases hcommit
  · next answer t' hcall =>
      rw [hcall] at hstep
      cases hstep
      cases hcommit
      refine ⟨_, ⟨rfl, h.permits, h.unborn, h.gates, fun _ _ hg => hg,
        fun _ _ hin => hin, fun _ _ hg => .inl hg, fun _ hin => .inl hin, hstore, rfl,
        rfl⟩, .inr ⟨_, _, _, rfl, rfl⟩⟩

theorem settled_of_respond {env : Environment B} {t : Progress B} {q : Req B}
    {r : q.Resp} (h : Inv s) (hrespond : respond wrap s pid env q = some (r, s')) :
    ∃ events, Settled s pid t q r s' events ∧ Commits pid q events := by
  cases q with
  | endpointReadGate e =>
      dsimp only [respond] at hrespond
      split at hrespond
      · cases hrespond
        exact ⟨[], .same h ⟨rfl, rfl⟩, .inl rfl⟩
      · cases hrespond
        exact ⟨[], settled_gate h, .inl rfl⟩
  | acquire semaphore =>
      dsimp only [respond] at hrespond
      split at hrespond
      · cases hrespond
        exact ⟨[], .same h ⟨rfl, rfl⟩, .inl rfl⟩
      · obtain ⟨s₁, hacquire, heq⟩ := Option.map_eq_some_iff.mp hrespond
        cases heq
        exact ⟨[], settled_permit h hacquire, .inl rfl⟩
  | commitResourceGeneration e observations decodeFailures observedAt =>
      dsimp only [respond] at hrespond
      have hcommit := Option.some.inj hrespond
      cases r with
      | error source =>
          have hsame : s' = s := by
            unfold commit at hcommit
            split at hcommit
            · cases hcommit
              rfl
            · cases hcommit
          subst hsame
          exact ⟨[], .same h ⟨rfl, rfl⟩, .inl rfl⟩
      | ok snapshots => exact settled_commit h hcommit
  | createDiscoveredEndpoint endpoint observations =>
      dsimp only [respond] at hrespond
      split at hrespond
      · cases hrespond
        exact ⟨[], .same h ⟨rfl, rfl⟩, .inl rfl⟩
      · cases hrespond
        refine ⟨[], ⟨rfl, h.permits, h.unborn, h.gates, fun _ _ hg => hg,
          fun _ _ hin => hin, fun _ _ hg => .inl hg, fun _ hin => .inl hin,
          h.store.enroll _, (List.append_nil _).symm, (List.append_nil _).symm⟩,
          .inl rfl⟩
  | _ =>
      cases hrespond
      exact ⟨[], .same h (see_own nofun nofun), .inl rfl⟩

theorem Inv.answer {who : Accountable} {q : Req B} {k : q.Resp → Work B}
    {t : Progress B} {r : q.Resp} {events : List (Event B)} (h : Inv s)
    (hp : s.processes pid = some ⟨who, .call q k, true, t⟩)
    (hsettled : Settled s pid t q r s' events) (hcommits : Commits pid q events) :
    Inv { s' with
      processes := Function.update s'.processes pid
        (some ⟨who, k r, false, t.see q r⟩)
      log := s'.log ++ answered pid t q r } := by
  have hold := h.kept pid _ hp
  obtain ⟨hallowed, hrest⟩ := allowed_of_guarded hold.guarded r
  have hlog : s'.log ++ answered pid t q r = s.log ++ (events ++ answered pid t q r) := by
    rw [hsettled.log, List.append_assoc]
  refine ⟨hsettled.permits, hsettled.unborn, hsettled.gates, fun pid' p' hp' => ?_,
    hsettled.store, ?_, ?_⟩
  · dsimp only at hp'
    by_cases hpid : pid' = pid
    · rw [hpid, Function.update_self] at hp'
      cases hp'
      subst hpid
      refine ⟨hrest, fun e gate hin => ?_, fun gate hin => ?_, fun e hphase => ?_,
        fun e hreading => (nomatch hreading.1), fun e observations hstage => ?_⟩
      · rcases hsettled.ownGates e gate hin with hin | hgate
        · exact hsettled.kept e gate (hold.gates e gate hin)
        · exact hgate
      · rcases hsettled.ownHeld gate hin with hin | hheld
        · exact hsettled.holders pid' gate (hold.held gate hin)
        · exact hheld
      · rcases hphase with ⟨hissued, -⟩ | ⟨observations, hstage⟩
        · cases hissued
        · rcases stage_see pid' hstage with ⟨hread, -⟩ | ⟨hq, hfound, -⟩
          · exact (hold.holds e (.inr ⟨_, hread⟩)).see
          · exact (hold.holds e (.inl ⟨rfl, hfound, q, k, rfl, hq⟩)).see
      · show Fresh (s'.log ++ answered pid' t q r) pid' e observations
        rw [hlog]
        rcases stage_see pid' hstage with ⟨hread, hnot⟩ | ⟨hq, hfound, hanswer⟩
        · obtain rfl : events = [] := by
            rcases hcommits with hnone | ⟨commit, d, a, hq, -⟩
            · exact hnone
            · exact absurd hq (hnot _ _ d a)
          exact (hold.fresh e observations hread).append (.of_none answered_quiet)
        · obtain rfl : events = [] := by
            rcases hcommits with hnone | ⟨commit, d, a, rfl, -⟩
            · exact hnone
            · cases hq
          rw [List.nil_append, hanswer]
          exact (hold.reading e ⟨rfl, hfound, q, k, rfl, hq⟩).answer
    · rw [Function.update_of_ne hpid, hsettled.processes] at hp'
      refine (h.kept pid' p' hp').frame hsettled.kept (fun gate => hsettled.holders _ _)
        hlog fun e hphase => ?_
      refine Quiet.append ?_ (.of_none answered_quiet)
      rcases hcommits with rfl | ⟨commit, d, a, rfl, rfl⟩
      · exact .of_none rfl
      · intro other hother hsame
        obtain rfl : other = commit := by simpa [commitOf] using hother
        subst hsame
        exact hpid (h.holder_unique hp hp' hallowed.2
          ((h.kept pid' p' hp').holds _ hphase)).symm
  · dsimp only
    rw [hlog, List.filterMap_append, List.filterMap_append, answered_quiet,
      List.append_nil, h.commits, hsettled.commits]
  · dsimp only
    rw [hlog, ← List.append_assoc]
    refine Ordered.append ?_ answered_quiet
    rcases hcommits with rfl | ⟨commit, d, a, rfl, rfl⟩
    · rw [List.append_nil]
      exact h.ordered
    · exact h.ordered.commit (hold.fresh _ _ hallowed.1)

theorem Inv.next {l : Label B} (h : Inv s) (hstep : next wrap s l = some s') :
    Inv s' := by
  cases l with
  | spawnBatch who targets =>
      cases hstep
      exact h.spawn batchWork_guarded
  | spawnEnrollment who request =>
      cases hstep
      exact h.spawn enrollmentWork_guarded
  | issue pid =>
      dsimp only [Refreshes.next] at hstep
      split at hstep
      · next hp =>
          cases hstep
          exact h.issue hp
      · cases hstep
  | answer pid env =>
      dsimp only [Refreshes.next] at hstep
      split at hstep
      · next hp =>
          obtain ⟨⟨r, s₁⟩, hrespond, heq⟩ := Option.map_eq_some_iff.mp hstep
          cases heq
          obtain ⟨events, hsettled, hcommits⟩ := settled_of_respond h hrespond
          exact h.answer hp hsettled hcommits
      · cases hstep
  | finish pid =>
      dsimp only [Refreshes.next] at hstep
      split at hstep
      · cases hstep
        exact h.leave.spawnRefreshes
      · cases hstep
  | drop pid =>
      dsimp only [Refreshes.next] at hstep
      split at hstep
      · cases hstep
        exact h.leave
      · cases hstep

theorem inv_of_reach (h : Reach Initial (Next (next wrap)) s) : Inv s :=
  h.inv (fun _ => Inv.initial) fun _ _ hinv hstep => hinv.next hstep.choose_spec

/-! ## Generations in order -/

/-- A later commit of an endpoint has the greater Generation. -/
theorem Inv.generations {l₁ l₂ l₃ : List (Event B)}
    {first second : Store.Resources.Commit B.canonicalize} (h : Inv s)
    (hlog : s.log = l₁ ++ .committed pid first :: l₂ ++ .committed pid' second :: l₃)
    (hsame : first.endpointId = second.endpointId) :
    ∀ x ∈ first.snapshots, ∀ y ∈ second.snapshots,
      x.generation.get < y.generation.get := by
  have hcommits := h.commits
  rw [hlog] at hcommits
  simp only [List.filterMap_append, List.filterMap_cons, commitOf] at hcommits
  let mine : List (Event B) → List (Store.Resources.Commit B.canonicalize) :=
    fun l => (l.filterMap commitOf).filter fun c => c.endpointId = second.endpointId
  have hof : s.store.commitsOf second.endpointId =
      mine l₁ ++ first :: mine l₂ ++ second :: mine l₃ := by
    unfold Store.Resources.State.commitsOf
    rw [← hcommits]
    simp [mine, hsame]
  have hfirst : (s.store.commitsOf second.endpointId)[(mine l₁).length]? =
      some first := by
    rw [hof]
    simp
  have hsecond : (s.store.commitsOf second.endpointId)[
      (mine l₁).length + (mine l₂).length + 1]? = some second := by
    have hlength : (mine l₁ ++ first :: mine l₂).length =
        (mine l₁).length + (mine l₂).length + 1 := by
      rw [List.length_append, List.length_cons, Nat.add_assoc]
    rw [hof, ← hlength, List.getElem?_append_right (Nat.le_refl _), Nat.sub_self]
    rfl
  intro x hx y hy
  have hx := h.store.numbered _ _ _ hfirst x hx
  have hy := h.store.numbered _ _ _ hsecond y hy
  omega

end Invariant

/-- In every run of any number of batches and enrollments, one process at a time is
between the start of its read of an endpoint and the end of its commit. So the read
of a later commit of the endpoint starts, and is answered, after the earlier commit,
the read of the earlier one before it, and the Generations ascend. -/
theorem refreshes_never_overlap
    (wrap : Store.Resources.ResourceSnapshotRepositoryError → B.repository)
    {s : State B} (h : Reach Initial (Next (next wrap)) s) :
    (∀ e pid pid' p p', s.processes pid = some p → s.processes pid' = some p' →
      InPhase p e → InPhase p' e → pid = pid') ∧
    (∀ pid commit, .committed pid commit ∈ s.log →
      ResourceGenerations.Faithful commit) ∧
    (∀ l₁ l₂ l₃ pid pid' first second,
      s.log = l₁ ++ .committed pid first :: l₂ ++ .committed pid' second :: l₃ →
      first.endpointId = second.endpointId →
      (∃ m₁ m₂ m₃, l₁ = m₁ ++ .readStarted pid first.endpointId :: m₂ ++
        .readAnswered pid first.endpointId first.observations :: m₃) ∧
      (∃ m₁ m₂ m₃, l₂ = m₁ ++ .readStarted pid' second.endpointId :: m₂ ++
        .readAnswered pid' second.endpointId second.observations :: m₃) ∧
      ∀ x ∈ first.snapshots, ∀ y ∈ second.snapshots,
        x.generation.get < y.generation.get) := by
  have hinv := inv_of_reach h
  refine ⟨fun e pid pid' p p' hp hp' hphase hphase' => ?_,
    fun pid commit hcommit => ?_,
    fun l₁ l₂ l₃ pid pid' first second hlog hsame => ⟨?_, ?_, ?_⟩⟩
  · exact hinv.holder_unique hp hp' ((hinv.kept pid p hp).holds e hphase)
      ((hinv.kept pid' p' hp').holds e hphase')
  · refine hinv.store.faithful commit ?_
    rw [← hinv.commits]
    exact List.mem_filterMap.mpr ⟨_, hcommit, rfl⟩
  · have hordered := hinv.ordered
    obtain ⟨m₁, m₂, m₃, hl₁, -⟩ := hordered l₁ (l₂ ++ .committed pid' second :: l₃) pid
      first (by rw [hlog]; simp)
    exact ⟨m₁, m₂, m₃, hl₁⟩
  · have hordered := hinv.ordered
    rw [hlog] at hordered
    exact hordered.read_after hsame
  · exact hinv.generations hlog hsame

/-! Two batches that refresh the same endpoint, one after the other. -/

def quietServer : Outside where
  parseUrl := fun text =>
    some ⟨text, "https", some "bmc.example.test", "", none, none, none⟩
  canonicalize := ResourceGenerations.emptyObject
  repository := Store.Resources.ResourceSnapshotRepositoryError
  capability := Unit
  onboarding := Unit
  credential := Unit
  reader := Unit
  discovery := Unit
  audit := Unit

theorem managed_named : parseLabel "a" = .ok "a" := by
  decide

theorem managed_digest : (List.replicate 32 0).length = fingerprintLength := rfl

theorem managed_sound : addressFlaw ⟨"https://bmc.example.test/", "https",
    some "bmc.example.test", "", none, none, none⟩ = none := rfl

def managed : Endpoint quietServer.parseUrl where
  id := ResourceGenerations.someEndpoint
  displayName := ⟨"a", managed_named⟩
  address := ⟨⟨"https://bmc.example.test/", "https", some "bmc.example.test", "", none,
    none, none⟩, ⟨"https://bmc.example.test/", rfl⟩, managed_sound⟩
  trust := .systemCa ⟨⟨List.replicate 32 0, managed_digest⟩, []⟩ 0
  credentialId := ⟨4⟩
  createdAt := 0
  updatedAt := 0
  ordered := by decide

def replies : (q : Req quietServer) → q.Resp
  | .findEndpoint _ => .ok (some managed)
  | .createDiscoveredEndpoint .. => .ok managed
  | .resolve _ => .ok (some ⟨"root", "secret"⟩)
  | .readCoreResources .. => .ok ⟨[ResourceGenerations.serviceRoot], []⟩
  | .commitResourceGeneration .. => .ok []
  | .probeCoreCapabilities .. => .ok []
  | .replaceEndpointCapabilities .. => .ok ()
  | .appendAuditEvent _ => .ok ()
  | .now => 5
  | .generate => 1
  | .endpointReadGate _ => some 0
  | .acquire _ => .ok ()

def idle : State quietServer where
  gates _ := none
  capacity _ := 0
  holders _ := []
  semaphores := 0
  processes _ := none
  spawned := 0
  store := ResourceGenerations.enrolled
  log := []

def site : Accountable := ⟨.localOperator, none, .site⟩

/-- The next calls of a process. -/
def calls (pid count : Nat) : List (Label quietServer) :=
  (List.replicate count [.issue pid, .answer pid ⟨replies, fun n => ⟨n⟩, none⟩]).flatten

/-- The second refresh waits for the gate until the first one ends. -/
def twoBatches : List (Label quietServer) :=
  [.spawnBatch site [managed.id], .spawnBatch site [managed.id]] ++
    calls 0 1 ++ [.finish 0] ++ calls 1 1 ++ [.finish 1] ++ calls 2 11 ++ calls 3 2 ++
    [.issue 3] ++ calls 2 7 ++ [.finish 2] ++
    [.answer 3 ⟨replies, fun n => ⟨n⟩, none⟩] ++ calls 3 15

theorem two_batches_ascend :
    ∃ s : State quietServer, Reach Initial (Next (next id)) s ∧
      (s.log.filterMap commitOf).length = 2 ∧
      ∀ l₁ l₂ l₃ pid pid' first second,
        s.log = l₁ ++ .committed pid first :: l₂ ++ .committed pid' second :: l₃ →
        first.endpointId = second.endpointId →
        ∀ x ∈ first.snapshots, ∀ y ∈ second.snapshots,
          x.generation.get < y.generation.get := by
  obtain ⟨s, hs, hp⟩ := exists_reach_of_follow Initial (next id) (s := idle) twoBatches
    (fun s => (s.log.filterMap commitOf).length = 2)
    ⟨fun _ => rfl, fun _ => rfl, fun _ => rfl, fun _ => rfl, ⟨rfl, rfl, rfl, rfl⟩, rfl⟩
    (by decide +kernel)
  refine ⟨s, hs, of_decide_eq_true hp, fun l₁ l₂ l₃ pid pid' first second hlog hsame => ?_⟩
  exact ((refreshes_never_overlap id hs).2.2 l₁ l₂ l₃ pid pid' first second hlog
    hsame).2.2

end Rutilus.Proofs.RefreshGates
