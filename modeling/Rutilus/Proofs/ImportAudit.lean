import Rutilus.Endpoints.CsvImport
import Rutilus.Proofs.AuditTrails

/-!
# The audit trail of an import and its report

Whatever the probes, the enrollments, the audit writer and the clock answer, the
events of an import are one trail, and the trail and the report agree at every point
at which the import may end. The loop keeps two things about the rows it is done
with: the trail has one validation for each of them (`Tracked`), and so has the
report one result (`Worked`).
-/

namespace Rutilus.Proofs.ImportAudit

open Rutilus.Domain hiding AuditRedfishOperation ResourceFeature
open Rutilus.Domain.Audit Rutilus.Domain.Endpoint Rutilus.Lib
open Rutilus.Endpoints Rutilus.Endpoints.EndpointCsvImportExecutor
open Rutilus.Endpoints.EndpointTrustEstablishment
open Rutilus.Proofs.AuditTrails

variable {I : ImportOutside} {β : Type}

/-! ## What a trace tells -/

abbrev Log (I : ImportOutside) : Type := List (Entry (importing I))

/-- What the calls of a trace tell, in their order. -/
def tell (f : (q : ImportReq I) → q.Resp → Option β) (log : Log I) : List β :=
  log.filterMap fun e => f e.1 e.2

@[simp]
theorem tell_nil (f : (q : ImportReq I) → q.Resp → Option β) : tell f [] = [] := rfl

@[simp]
theorem tell_cons (f : (q : ImportReq I) → q.Resp → Option β) (q : ImportReq I)
    (r : q.Resp) (log : Log I) :
    tell f (⟨q, r⟩ :: log) = (f q r).toList ++ tell f log := by
  unfold tell
  cases h : f q r <;> simp [h]

@[simp]
theorem tell_append (f : (q : ImportReq I) → q.Resp → Option β) (log log' : Log I) :
    tell f (log ++ log') = tell f log ++ tell f log' :=
  List.filterMap_append

/-- The event that was to be appended. -/
@[simp]
def appended : (q : ImportReq I) → q.Resp → Option (AuditEvent I.parseUrl)
  | .appendAuditEvent event, _ => some event
  | _, _ => none

/-- The event whose append succeeded. -/
@[simp]
def durable : (q : ImportReq I) → q.Resp → Option (AuditEvent I.parseUrl)
  | .appendAuditEvent event, .ok () => some event
  | _, _ => none

/-- The address that was probed. -/
@[simp]
def probed : (q : ImportReq I) → q.Resp → Option (EndpointAddress I.parseUrl)
  | .observe address, _ => some address
  | _, _ => none

/-- What the others answer about a row. -/
inductive Told (I : ImportOutside) where
  | probeFailed (address : EndpointAddress I.parseUrl) (source : I.probe)
  | enrollmentFailed (address : EndpointAddress I.parseUrl) (source : I.enrollment)
  | enrolled (address : EndpointAddress I.parseUrl) (endpointId : EndpointId)

@[simp]
def told : (q : ImportReq I) → q.Resp → Option (Told I)
  | .observe address, .error source => some (.probeFailed address source)
  | .enroll request, .error source =>
      some (.enrollmentFailed request.target.address source)
  | .enroll request, .ok endpointId =>
      some (.enrolled request.target.address endpointId)
  | _, _ => none

/-- A rejected trust is decided here, and nobody tells it. -/
def rowTold (result : EndpointCsvRowResult I) : Option (Told I) :=
  match result.outcome with
  | .enrolled endpointId => some (.enrolled result.address endpointId)
  | .tlsProbeFailed source => some (.probeFailed result.address source)
  | .trustRejected _ => none
  | .enrollmentFailed source => some (.enrollmentFailed result.address source)

def Told.enrolledAt : Told I → Option (EndpointAddress I.parseUrl)
  | .enrolled address _ => some address
  | _ => none

/-- The addresses that were enrolled. -/
def enrolledAddresses (log : Log I) : List (EndpointAddress I.parseUrl) :=
  (tell told log).filterMap Told.enrolledAt

/-- Which row a result is of. -/
abbrev resultKey (result : EndpointCsvRowResult I) :
    Nat × EndpointAddress I.parseUrl :=
  (result.recordNumber, result.address)

abbrev rowKey (row : EndpointCsvRow I.parseUrl) : Nat × EndpointAddress I.parseUrl :=
  (row.recordNumber, row.address)

def isValidation (event : AuditEvent I.parseUrl) : Bool :=
  event.outcome = .progress .rowValidated

/-- The outcomes of a trail with `n` rows validated. -/
def validated (n : Nat) : List AuditOutcome :=
  .started :: List.replicate n (.progress .rowValidated)

/-! ## The protocol -/

/-- The trace of an import and its report. -/
structure Kept (rows : List (EndpointCsvRow I.parseUrl)) (log : Log I)
    (report : EndpointCsvImportReport I) : Prop where
  trail : Trail (tell appended log)
  outcomes : tell appended log = [] ∨
    ∃ n ending, n ≤ rows.length ∧
      (tell appended log).map (·.outcome) = validated n ++ ending ∧
      (ending = [] ∨ n = rows.length ∧
        ∃ outcome : AuditOutcome, outcome.isTerminal = true ∧ ending = [outcome])
  stored : tell durable log = tell appended log ∨
    ∃ event, tell appended log = tell durable log ++ [event]
  verdict : ∀ event ∈ tell appended log, event.outcome.isTerminal = true →
    (event.outcome = .succeeded ↔ enrolledAddresses log = rows.map (·.address))
  covers : report.rows.map resultKey =
    (rows.take ((tell durable log).countP isValidation)).map rowKey
  results : report.rows.filterMap rowTold = tell told log
  total : report.totalRows = rows.length

/-- A probe comes after the durable validation of its row, which is the next row that
has not been probed. -/
def ProbesValidated (rows : List (EndpointCsvRow I.parseUrl)) (q : ImportReq I)
    (log : Log I) : Prop :=
  ∀ address, q = .observe address →
    ∃ row, rows[(tell probed log).length]? = some row ∧ row.address = address ∧
      (tell durable log).map (·.outcome) = validated ((tell probed log).length + 1)

section Invariant

variable {rows done : List (EndpointCsvRow I.parseUrl)} {n : Nat} {log log' : Log I}
  {audit : CsvImportAuditState I.parseUrl} {report : EndpointCsvImportReport I}
  {event : AuditEvent I.parseUrl}

/-- The trail is open, durable, and its last event is the audit state's. -/
structure Tracked (n : Nat) (log : Log I) (audit : CsvImportAuditState I.parseUrl) :
    Prop where
  trail : Trail (tell appended log)
  outcomes : (tell appended log).map (·.outcome) = validated n
  stored : tell durable log = tell appended log
  last : ∃ event, (tell appended log).getLast? = some event ∧
    event.context = audit.context ∧ event.sequence = audit.sequence ∧
    event.occurredAt = audit.previousAt

structure Worked (total : Nat) (done : List (EndpointCsvRow I.parseUrl)) (log : Log I)
    (report : EndpointCsvImportReport I) : Prop where
  total : report.totalRows = total
  covers : report.rows.map resultKey = done.map rowKey
  probes : tell probed log = done.map (·.address)
  results : report.rows.filterMap rowTold = tell told log

theorem Tracked.of_same (h : Tracked n log audit)
    (hevents : tell appended log' = tell appended log)
    (hstored : tell durable log' = tell durable log) : Tracked n log' audit := by
  refine ⟨?_, ?_, ?_, ?_⟩
  · rw [hevents]
    exact h.trail
  · rw [hevents]
    exact h.outcomes
  · rw [hevents, hstored]
    exact h.stored
  · rw [hevents]
    exact h.last

theorem Worked.of_same {total : Nat} (h : Worked total done log report)
    (hprobes : tell probed log' = tell probed log)
    (htold : tell told log' = tell told log) : Worked total done log' report :=
  ⟨h.total, h.covers, hprobes.trans h.probes, h.results.trans htold.symm⟩

theorem not_terminal_of_validated {outcome : AuditOutcome}
    (h : outcome ∈ validated n) : outcome.isTerminal = false := by
  unfold validated at h
  rcases List.mem_cons.mp h with rfl | h
  · rfl
  · obtain rfl := (List.mem_replicate.mp h).2
    rfl

theorem Tracked.open (h : Tracked n log audit)
    (hevent : event ∈ tell appended log) : event.outcome.isTerminal = false := by
  refine not_terminal_of_validated (n := n) ?_
  rw [← h.outcomes]
  exact List.mem_map_of_mem hevent

/-- The next event of the trail. -/
theorem Tracked.append (h : Tracked n log audit)
    (hcontext : event.context = audit.context)
    (hsequence : event.sequence.get = audit.sequence.get + 1)
    (htime : audit.previousAt ≤ event.occurredAt) :
    Trail (tell appended log ++ [event]) := by
  obtain ⟨last, hlast, hlastContext, hlastSequence, hlastTime⟩ := h.last
  refine h.trail.append hlast ⟨?_, ?_, ?_, ?_⟩
  · exact h.open (List.mem_of_getLast? hlast)
  · rw [hsequence, hlastSequence]
  · rw [hcontext, hlastContext]
  · rw [hlastTime]
    exact htime

theorem countP_of_outcomes {events : List (AuditEvent I.parseUrl)}
    (h : events.map (·.outcome) = validated n) :
    events.countP isValidation = n := by
  have hcount : events.countP isValidation =
      (events.map (·.outcome)).countP fun outcome =>
        outcome = .progress .rowValidated := by
    rw [List.countP_map]
    rfl
  rw [hcount, h]
  simp [validated, List.countP_replicate]

/-- The import may end before its trail starts. -/
theorem Kept.of_none (hevents : tell appended log = [])
    (hstored : tell durable log = []) (htold : tell told log = []) :
    Kept rows log ⟨rows.length, []⟩ where
  trail := by
    rw [hevents]
    exact .nil
  outcomes := .inl hevents
  stored := .inl (hstored.trans hevents.symm)
  verdict event hevent := by
    rw [hevents] at hevent
    cases hevent
  covers := by
    rw [hstored]
    rfl
  results := htold.symm
  total := rfl

/-- The start of the trail could not be written. -/
theorem Kept.of_unstarted (houtcome : event.outcome = .started)
    (hevents : tell appended log = [event]) (hstored : tell durable log = [])
    (htold : tell told log = []) : Kept rows log ⟨rows.length, []⟩ where
  trail := by
    rw [hevents]
    exact .single houtcome
  outcomes := by
    refine .inr ⟨0, [], Nat.zero_le _, ?_, .inl rfl⟩
    rw [hevents, List.map_singleton, houtcome]
    rfl
  stored := .inr ⟨event, by rw [hevents, hstored, List.nil_append]⟩
  verdict other hother hterminal := by
    rw [hevents] at hother
    rw [List.mem_singleton.mp hother, houtcome] at hterminal
    cases hterminal
  covers := by
    rw [hstored]
    rfl
  results := htold.symm
  total := rfl

/-- The import may end wherever its trail is open. -/
theorem Kept.of_open (rest : List (EndpointCsvRow I.parseUrl))
    (htracked : Tracked done.length log audit)
    (hworked : Worked (done ++ rest).length done log report) :
    Kept (done ++ rest) log report where
  trail := htracked.trail
  outcomes := by
    refine .inr ⟨done.length, [], ?_, ?_, .inl rfl⟩
    · simp
    · rw [htracked.outcomes, List.append_nil]
  stored := .inl htracked.stored
  verdict event hevent hterminal := by
    rw [htracked.open hevent] at hterminal
    cases hterminal
  covers := by
    rw [htracked.stored, countP_of_outcomes htracked.outcomes, List.take_left,
      hworked.covers]
  results := hworked.results
  total := hworked.total

/-- The validation of the next row could not be written. -/
theorem Kept.of_failed {row : EndpointCsvRow I.parseUrl}
    {rest : List (EndpointCsvRow I.parseUrl)}
    (htracked : Tracked done.length log audit)
    (hworked : Worked (done ++ row :: rest).length done log report)
    (htrail : Trail (tell appended log ++ [event]))
    (houtcome : event.outcome = .progress .rowValidated)
    (hevents : tell appended log' = tell appended log ++ [event])
    (hstored : tell durable log' = tell durable log)
    (htold : tell told log' = tell told log) :
    Kept (done ++ row :: rest) log' report where
  trail := by rwa [hevents]
  outcomes := by
    refine .inr ⟨done.length + 1, [], ?_, ?_, .inl rfl⟩
    · simp
    · rw [hevents, List.map_append, htracked.outcomes, validated, validated,
        List.replicate_succ', List.append_nil, List.map_singleton, houtcome,
        List.cons_append]
  stored := .inr ⟨event, by rw [hevents, hstored, htracked.stored]⟩
  verdict other hother hterminal := by
    rw [hevents] at hother
    rcases List.mem_append.mp hother with hother | hother
    · rw [htracked.open hother] at hterminal
      cases hterminal
    · obtain rfl := List.mem_singleton.mp hother
      rw [houtcome] at hterminal
      cases hterminal
  covers := by
    rw [hstored, htracked.stored, countP_of_outcomes htracked.outcomes,
      List.take_left, hworked.covers]
  results := hworked.results.trans htold.symm
  total := hworked.total

/-! ## The verdict -/

theorem enrolledAt_rowTold (result : EndpointCsvRowResult I) :
    (rowTold result).bind Told.enrolledAt =
      if result.outcome.isSuccess then some result.address else none := by
  unfold rowTold
  cases result.outcome <;> rfl

theorem enrolled_results (results : List (EndpointCsvRowResult I)) :
    (results.filterMap rowTold).filterMap Told.enrolledAt =
      (results.filter fun result => result.outcome.isSuccess).map (·.address) := by
  rw [List.filterMap_filterMap]
  induction results with
  | nil => rfl
  | cons result rest ih =>
      rw [List.filterMap_cons, enrolledAt_rowTold]
      cases h : result.outcome.isSuccess <;> simp [h, ih]

/-- Every row was enrolled exactly if no result is a failure. -/
theorem Worked.success_iff (h : Worked rows.length rows log report) :
    report.failedCount = 0 ↔ enrolledAddresses log = rows.map (·.address) := by
  have haddresses : report.rows.map (·.address) = rows.map (·.address) := by
    have hkeys := congrArg (List.map (·.2)) h.covers
    rwa [List.map_map, List.map_map] at hkeys
  rw [EndpointCsvImportReport.failedCount_eq_zero_iff, enrolledAddresses, ← h.results,
    ← haddresses, enrolled_results]
  constructor
  · intro hall
    rw [List.filter_eq_self.mpr hall]
  · intro heq
    have hlength := congrArg List.length heq
    rw [List.length_map, List.length_map] at hlength
    exact List.length_filter_eq_length_iff.mp hlength

/-- The import ends with the terminal event of its trail, written or not. -/
theorem Kept.of_terminal (htracked : Tracked rows.length log audit)
    (hworked : Worked rows.length rows log report)
    (htrail : Trail (tell appended log ++ [event]))
    (hterminal : event.outcome.isTerminal = true)
    (hverdict : event.outcome = .succeeded ↔ report.failedCount = 0)
    (hevents : tell appended log' = tell appended log ++ [event])
    (hstored : tell durable log' = tell durable log ∨
      tell durable log' = tell durable log ++ [event])
    (htold : tell told log' = tell told log) : Kept rows log' report where
  trail := by rwa [hevents]
  outcomes := by
    refine .inr ⟨rows.length, [event.outcome], Nat.le_refl _, ?_,
      .inr ⟨rfl, event.outcome, hterminal, rfl⟩⟩
    rw [hevents, List.map_append, htracked.outcomes, List.map_singleton]
  stored := by
    rcases hstored with hstored | hstored
    · exact .inr ⟨event, by rw [hevents, hstored, htracked.stored]⟩
    · exact .inl (by rw [hevents, hstored, htracked.stored])
  verdict other hother hend := by
    rw [hevents] at hother
    rcases List.mem_append.mp hother with hother | hother
    · rw [htracked.open hother] at hend
      cases hend
    · obtain rfl := List.mem_singleton.mp hother
      rw [hverdict, hworked.success_iff, enrolledAddresses, enrolledAddresses, htold]
  covers := by
    have hcount : (tell durable log').countP isValidation = rows.length := by
      have hnot : isValidation event = false := by
        unfold isValidation
        cases houtcome : event.outcome with
        | progress => rw [houtcome] at hterminal; cases hterminal
        | _ => rfl
      rcases hstored with hstored | hstored
      · rw [hstored, htracked.stored, countP_of_outcomes htracked.outcomes]
      · rw [hstored, List.countP_append, htracked.stored,
          countP_of_outcomes htracked.outcomes, List.countP_singleton, hnot]
        rfl
    rw [hcount, List.take_length, hworked.covers]
  results := hworked.results.trans htold.symm
  total := hworked.total

end Invariant

/-! ## The execution -/

section Execution

variable {rows done rest : List (EndpointCsvRow I.parseUrl)} {log : Log I}
  {audit : CsvImportAuditState I.parseUrl} {report : EndpointCsvImportReport I}
  {row : EndpointCsvRow I.parseUrl}

abbrev Contract {α : Type} (rows : List (EndpointCsvRow I.parseUrl))
    (p : Prog (importing I) α) (Q : α → Log I → Prop) (log : Log I) : Prop :=
  Remembered (ProbesValidated rows) p Q log

/-- One call that is no probe. -/
theorem Contract.ask {q : ImportReq I} {Q : q.Resp → Log I → Prop}
    (hq : ∀ address, q ≠ .observe address)
    (h : ∀ r, Q r (remember (S := importing I) log q r)) :
    Contract rows (ask q) Q log :=
  Safe.ask.mpr fun r => ⟨fun address heq => absurd heq (hq address), h r⟩

/-- An import that fails keeps its trail, and tells the report so far. -/
abbrev Failing {α : Type} (rows : List (EndpointCsvRow I.parseUrl))
    (Q : α → Log I → Prop) :
    Except (EndpointCsvImportExecutionError I) α → Log I → Prop
  | .ok a, log => Q a log
  | .error e, log => Kept rows log e.report

theorem startAudit_contract (who : Accountable) (rowCount : UInt32)
    (rows : List (EndpointCsvRow I.parseUrl)) :
    Contract rows (startAudit who rowCount ⟨rows.length, []⟩)
      (Failing rows fun audit log =>
        Tracked 0 log audit ∧ Worked rows.length [] log ⟨rows.length, []⟩) [] := by
  unfold startAudit
  split
  · exact Kept.of_none rfl rfl rfl
  refine safe_perform.mpr (Contract.ask nofun fun operationId => ?_)
  split
  · exact Kept.of_none rfl rfl rfl
  refine safe_perform.mpr (Contract.ask nofun fun startedAt => ?_)
  refine safe_perform.mpr (Contract.ask nofun fun eventId => ?_)
  refine safe_orThrow.mpr (Contract.ask nofun fun r => ?_)
  rcases r with source | done
  · exact Kept.of_unstarted rfl rfl rfl rfl
  · exact ⟨⟨.single rfl, rfl, rfl, _, rfl, rfl, rfl, rfl⟩, rfl, rfl, rfl, rfl⟩

theorem recordRowValidated_contract
    (htracked : Tracked done.length log audit)
    (hworked : Worked (done ++ row :: rest).length done log report) :
    Contract (done ++ row :: rest) (recordRowValidated audit row.recordNumber report)
      (Failing (done ++ row :: rest) fun audit log =>
        Tracked (done.length + 1) log audit ∧
          Worked (done ++ row :: rest).length done log report) log := by
  unfold recordRowValidated
  dsimp only
  split
  · exact Kept.of_open _ htracked hworked
  next sequence hnext =>
  refine safe_perform.mpr (Contract.ask nofun fun now => ?_)
  refine safe_perform.mpr (Contract.ask nofun fun eventId => ?_)
  split
  · refine Kept.of_open _ (htracked.of_same ?_ ?_) (hworked.of_same ?_ ?_) <;> simp
  next progress hprogress =>
  obtain ⟨hcontext, hsequence, houtcome, htime⟩ :=
    AuditEvent.tryFromParts_ok hprogress
  have htrail := htracked.append hcontext
    (hsequence ▸ AuditSequence.next_ok hnext) (htime ▸ le_max_left _ _)
  refine safe_orThrow.mpr (Contract.ask nofun fun r => ?_)
  rcases r with source | stored
  · refine Kept.of_failed htracked hworked htrail houtcome ?_ ?_ ?_ <;> simp
  · refine ⟨⟨?_, ?_, ?_, progress, ?_, hcontext, hsequence, htime⟩,
      hworked.of_same ?_ ?_⟩
    · simpa using htrail
    · simp [htracked.outcomes, houtcome, validated, List.replicate_succ']
    · simp [htracked.stored]
    · simp
    · simp
    · simp

/-- The address that a challenge is about. -/
def challengeAddress {parseUrl : ParseUrl} :
    EndpointTrustChallenge parseUrl → EndpointAddress parseUrl
  | .systemCaTrusted trusted => trusted.address
  | .explicitPinRequired pending => pending.address

theorem completeWithExpectation_address {parseUrl : ParseUrl}
    {challenge : EndpointTrustChallenge parseUrl}
    {expectation : EndpointTrustExpectation} {target : TrustedEndpoint parseUrl}
    (h : completeWithExpectation challenge expectation = .ok target) :
    target.address = challengeAddress challenge := by
  unfold completeWithExpectation at h
  split at h
  · cases h
    rfl
  · cases h
  · obtain ⟨verified, -, htarget⟩ := bind_ok h
    cases htarget
    rfl
  · obtain ⟨verified, -, htarget⟩ := bind_ok h
    cases htarget
    rfl

/-- What a row adds to the trace, with what is told of it. -/
structure Attempted (row : EndpointCsvRow I.parseUrl) (answers : List (Told I))
    (log log' : Log I) : Prop where
  events : tell appended log' = tell appended log
  stored : tell durable log' = tell durable log
  probes : tell probed log' = tell probed log ++ [row.address]
  told : tell told log' = tell told log ++ answers

theorem enrollChallenged_contract {challenge : EndpointTrustChallenge I.parseUrl}
    {base : Log I} (haddress : challengeAddress challenge = row.address)
    (hprobed : Attempted row [] base log) :
    Contract rows (enrollChallenged row challenge)
      (fun outcome log => Attempted row
        (rowTold ⟨row.recordNumber, row.address, outcome⟩).toList base log) log := by
  unfold enrollChallenged
  split
  · exact hprobed
  next target htarget =>
  have htargetAddress : target.address = row.address :=
    (completeWithExpectation_address htarget).trans haddress
  refine Safe.bind.mpr (Contract.ask nofun fun r => ?_)
  rcases r with source | endpointId
  · constructor <;>
      simp [rowTold, htargetAddress, hprobed.events, hprobed.stored, hprobed.probes,
        hprobed.told]
  · constructor <;>
      simp [rowTold, htargetAddress, hprobed.events, hprobed.stored, hprobed.probes,
        hprobed.told]

/-- One row whose probe is allowed. -/
theorem executeRow_contract (hprobe : ProbesValidated rows (.observe row.address) log) :
    Contract rows (executeRow row)
      (fun result log' => resultKey result = rowKey row ∧
        Attempted row (rowTold result).toList log log') log := by
  unfold executeRow beginTrust
  refine Safe.bind.mpr (Safe.bind.mpr (Safe.ask.mpr fun r => ⟨hprobe, ?_⟩))
  rcases r with source | observation
  · refine ⟨rfl, ?_⟩
    constructor <;> simp [rowTold]
  refine Safe.bind.mpr (Contract.ask nofun fun observedAt => ?_)
  have hended : ∀ challenge : EndpointTrustChallenge I.parseUrl,
      challengeAddress challenge = row.address →
      Contract rows
        (do let outcome ← enrollChallenged row challenge
            return ⟨row.recordNumber, row.address, outcome⟩)
        (fun result log' => resultKey result = rowKey row ∧
          Attempted row (rowTold result).toList log log')
        (remember (S := importing I) (remember (S := importing I) log
          (.observe row.address) (.ok observation)) .now observedAt) := by
    intro challenge haddress
    refine Safe.bind.mpr ((enrollChallenged_contract haddress ?_).imp
      fun outcome log' h => ⟨rfl, h⟩)
    constructor <;> simp
  cases observation.systemCa with
  | verified => exact hended _ rfl
  | rejected => exact hended _ rfl

theorem Worked.attempt {result : EndpointCsvRowResult I} {log' : Log I} {total : Nat}
    (h : Worked total done log report) (hkey : resultKey result = rowKey row)
    (hrow : Attempted row (rowTold result).toList log log') :
    Worked total (done ++ [row]) log' (report.push result) where
  total := h.total
  covers := by
    rw [EndpointCsvImportReport.push, List.map_append, List.map_append, h.covers]
    simp [hkey]
  probes := by
    rw [hrow.probes, h.probes, List.map_append]
    rfl
  results := by
    rw [hrow.told, ← h.results, EndpointCsvImportReport.push, List.filterMap_append]
    cases htold : rowTold result <;> simp [htold]

/-- The loop keeps the trail and the report at the rows that are done. -/
theorem executeRows_contract (htracked : Tracked done.length log audit)
    (hworked : Worked (done ++ rest).length done log report) :
    Contract (done ++ rest) (executeRows rest audit report)
      (Failing (done ++ rest) fun ended log =>
        Tracked (done ++ rest).length log ended.1 ∧
          Worked (done ++ rest).length (done ++ rest) log ended.2) log := by
  induction rest generalizing done log audit report with
  | nil =>
      rw [List.append_nil] at hworked ⊢
      exact ⟨htracked, hworked⟩
  | cons row rest ih =>
      unfold executeRows
      refine Safe.bindE.mpr
        ((recordRowValidated_contract htracked hworked).imp ?_)
      rintro (e | audit) log hrecorded
      · exact hrecorded
      obtain ⟨htracked, hworked⟩ := hrecorded
      have hlength : (tell probed log).length = done.length := by
        rw [hworked.probes, List.length_map]
      have hprobe : ProbesValidated (done ++ row :: rest) (.observe row.address)
          log := by
        rintro _ ⟨⟩
        refine ⟨row, ?_, rfl, ?_⟩
        · simp [hlength]
        · rw [hlength, htracked.stored, htracked.outcomes]
      refine safe_perform.mpr ((executeRow_contract hprobe).imp ?_)
      rintro result log' ⟨hkey, hrow⟩
      have hsplit : done ++ row :: rest = done ++ [row] ++ rest := by simp
      rw [hsplit] at hworked ⊢
      refine ih ?_ (hworked.attempt hkey hrow)
      rw [List.length_append]
      exact htracked.of_same hrow.events hrow.stored

/-- The report that an import ends with. -/
def reportOf :
    Except (EndpointCsvImportExecutionError I) (EndpointCsvImportReport I) →
      EndpointCsvImportReport I
  | .ok report => report
  | .error e => e.report

/-- The whole trail is durable, and it has its terminal event. -/
def Finished (log : Log I) : Prop :=
  tell durable log = tell appended log ∧
    ∃ event ∈ tell durable log, event.outcome.isTerminal = true

theorem completeAudit_contract (htracked : Tracked rows.length log audit)
    (hworked : Worked rows.length rows log report) :
    Contract rows (completeAudit audit report)
      (fun r log => Kept rows log (reportOf r) ∧
        ((∃ report, r = .ok report) → Finished log)) log := by
  have hopen : ∀ log', tell appended log' = tell appended log →
      tell durable log' = tell durable log → tell probed log' = tell probed log →
      tell told log' = tell told log → Kept rows log' report := by
    intro log' hevents hstored hprobes htold
    have htracked := htracked.of_same hevents hstored
    have hworked := hworked.of_same hprobes htold
    simpa using Kept.of_open [] htracked (by simpa using hworked)
  unfold completeAudit
  split
  · exact ⟨hopen log rfl rfl rfl rfl, nofun⟩
  next sequence hnext =>
  refine safe_perform.mpr (Contract.ask nofun fun now => ?_)
  refine safe_perform.mpr (Contract.ask nofun fun eventId => ?_)
  dsimp only
  split
  · refine ⟨hopen _ ?_ ?_ ?_ ?_, nofun⟩ <;> simp
  next terminal hterminal =>
  obtain ⟨hcontext, hsequence, htime, hend, hverdict⟩ :
      terminal.context = audit.context ∧ terminal.sequence = sequence ∧
        terminal.occurredAt = atOrAfter audit.previousAt now ∧
        terminal.outcome.isTerminal = true ∧
        (terminal.outcome = .succeeded ↔ report.failedCount = 0) := by
    split at hterminal
    · next hall =>
        obtain ⟨hcontext, hsequence, houtcome, htime⟩ :=
          AuditEvent.tryFromParts_ok hterminal
        exact ⟨hcontext, hsequence, htime, by rw [houtcome]; rfl, by simp [houtcome, hall]⟩
    · next hall =>
        obtain ⟨hcontext, hsequence, houtcome, htime⟩ :=
          AuditEvent.tryFromParts_ok hterminal
        exact ⟨hcontext, hsequence, htime, by rw [houtcome]; rfl, by simp [houtcome, hall]⟩
  have htrail := htracked.append hcontext
    (hsequence ▸ AuditSequence.next_ok hnext) (htime ▸ le_max_left _ _)
  refine safe_orThrow.mpr (Contract.ask nofun fun r => ?_)
  rcases r with source | done
  · refine ⟨?_, nofun⟩
    refine Kept.of_terminal htracked hworked htrail hend hverdict ?_ (.inl ?_) ?_ <;>
      simp
  · refine ⟨?_, fun _ => ⟨?_, terminal, ?_, hend⟩⟩
    · refine Kept.of_terminal htracked hworked htrail hend hverdict ?_ (.inr ?_) ?_ <;>
        simp
    · simp [htracked.stored]
    · simp

theorem execute_contract (who : Accountable) (endpoints : EndpointCsvImport I.parseUrl) :
    Contract endpoints.rows (execute who endpoints)
      (fun r log => Kept endpoints.rows log (reportOf r) ∧
        ((∃ report, r = .ok report) → Finished log)) [] := by
  unfold execute
  refine Safe.bindE.mpr
    ((startAudit_contract who endpoints.rowCount endpoints.rows).imp ?_)
  rintro (e | audit) log hstarted
  · exact ⟨hstarted, nofun⟩
  obtain ⟨htracked, hworked⟩ := hstarted
  have hrows : Contract ([] ++ endpoints.rows) _ _ _ :=
    executeRows_contract htracked hworked
  refine Safe.bindE.mpr (hrows.imp ?_)
  rintro (e | ⟨audit, report⟩) log hended
  · exact ⟨hended, nofun⟩
  · exact completeAudit_contract hended.1 hended.2

end Execution

/-! ## Every run of an import -/

/-- Whatever an import is answered, its events are one trail with one validation for
each row it took up, every probe comes after the durable validation of its row, and
wherever the import ends its report holds the rows that were done. -/
theorem import_audit_protocol {who : Accountable}
    {endpoints : EndpointCsvImport I.parseUrl} {log : Log I}
    {result : Except (EndpointCsvImportExecutionError I) (EndpointCsvImportReport I)}
    (h : Runs (execute who endpoints) log result) :
    Kept endpoints.rows log (reportOf result) ∧
      (tell appended log).map (fun event => event.sequence.get) =
        List.range' 1 (tell appended log).length ∧
      ((tell appended log).Pairwise fun a b => a.occurredAt ≤ b.occurredAt) ∧
      (∀ pre q r post, log = pre ++ ⟨q, r⟩ :: post →
        ProbesValidated endpoints.rows q pre) ∧
      ((∃ report, result = .ok report) → Finished log) := by
  obtain ⟨⟨hkept, hfinished⟩, hprobes⟩ :=
    h.of_remembered (execute_contract who endpoints)
  refine ⟨hkept, hkept.trail.sequences, hkept.trail.times, ?_, hfinished⟩
  exact fun pre q r post heq => hprobes pre ⟨q, r⟩ post heq

/-! An import of two rows, of which the second cannot be probed. -/

def plainImport : ImportOutside where
  parseUrl := fun text =>
    some ⟨text, "https", some "bmc.example.test", "", none, none, none⟩
  probe := Unit
  enrollment := Unit
  audit := Unit

def addressOf (text : String) : EndpointAddress plainImport.parseUrl :=
  ⟨⟨text, "https", some "bmc.example.test", "", none, none, none⟩, ⟨text, rfl⟩, rfl⟩

def rowOf (recordNumber : Nat) (text : String) :
    EndpointCsvRow plainImport.parseUrl where
  recordNumber := recordNumber
  displayName := ⟨"a", by decide⟩
  address := addressOf text
  credentialId := ⟨4⟩
  trust := .systemCaOnly

theorem zeros_length : (List.replicate 32 0).length = fingerprintLength := rfl

def answers : (q : ImportReq plainImport) → q.Resp
  | .observe address =>
      if address.url.text = "https://one/" then
        .ok ⟨⟨⟨List.replicate 32 0, zeros_length⟩, []⟩, .verified⟩
      else .error ()
  | .enroll _ => .ok ⟨7⟩
  | .appendAuditEvent _ => .ok ()
  | .now => 5
  | .generate => 1

def twoRows : EndpointCsvImport plainImport.parseUrl :=
  ⟨2, [rowOf 2 "https://one/", rowOf 3 "https://two/"]⟩

def importer : Accountable := ⟨.localOperator, none, .standalone⟩

def twoRowsRun : Log plainImport ×
    Except (EndpointCsvImportExecutionError plainImport)
      (EndpointCsvImportReport plainImport) :=
  record (S := importing plainImport) answers (execute importer twoRows)

theorem two_rows_import_kept :
    Kept twoRows.rows twoRowsRun.1 (reportOf twoRowsRun.2) ∧
      (tell appended twoRowsRun.1).map (·.outcome) =
        validated 2 ++ [.failed .endpointImportRowFailed .rejected] := by
  refine ⟨?_, by decide⟩
  exact (import_audit_protocol
    (runs_record (S := importing plainImport) answers (execute importer twoRows))).1

end Rutilus.Proofs.ImportAudit
