import Rutilus.App.DispatchGates
import Rutilus.Proofs.CenterBooks
import Rutilus.Proofs.ReplyProvenance

/-!
# What the offers of an operation aim at

All offers of one operation carry one target, up to its spelling, whatever
queues they stand in. The outbox is looked at through one relation: an
operation is aimed at a key when a row of it carries a target with that key.
Retiring, pruning and filling in columns leave the relation as it is; an
enqueue adds one pair to it.
-/

namespace Rutilus.Proofs.OfferAims

open Rutilus.Domain Rutilus.Lib Rutilus.Store Rutilus.App.CenterBoundary
  Rutilus.App.CenterDispatch Rutilus.App.CenterSystem
  Rutilus.App.DispatchGates Rutilus.Proofs.CenterBooks
  Rutilus.Proofs.OutboxRows

/-- Some row of the outbox is an offer of the operation for the key. -/
def Aimed (w : World) (X : OperationId) (key : List Char) : Prop :=
  ∃ row ∈ w.outbox.rows, ∃ fact, offerFacts row.entry = some fact ∧
    fact.operationId = X ∧ canonicalTargetKey fact.target = key

theorem aimsAt_iff {w : World} {X : OperationId} {key : List Char} :
    aimsAt w X key = true ↔ Aimed w X key := by
  simp only [aimsAt, Aimed, List.any_eq_true, Option.any_eq_true,
    Bool.and_eq_true, decide_eq_true_eq]

/-- The operation is on record as one on the endpoint. -/
def On (endpointId : EndpointId) (X : OperationId) (w : World) : Prop :=
  ∃ row targetId, w.operations.find X = some row ∧
    row.targets = [⟨targetId, endpointId⟩]

theorem On.unique {e e' : EndpointId} {X : OperationId} {w : World}
    (h : On e X w) (h' : On e' X w) : e = e' := by
  obtain ⟨row, targetId, hrow, htargets⟩ := h
  obtain ⟨row', targetId', hrow', htargets'⟩ := h'
  cases hrow.symm.trans hrow'
  rw [htargets] at htargets'
  cases htargets'
  rfl

/-! ## Moves of the tables -/

/-- No record and no aim is lost, and an unknown outcome stays one. -/
structure Moves (a b : World) : Prop where
  records : ∀ X row, a.operations.find X = some row →
    ∃ row', b.operations.find X = some row' ∧ row'.source = row.source ∧
      row'.targets = row.targets ∧ row'.command = row.command ∧
      (row.state = .unknown → row'.state = .unknown)
  aims : ∀ X key, Aimed a X key → Aimed b X key

/-- The operations on an endpoint get no new aim. -/
def Leaves (endpointId : EndpointId) (a b : World) : Prop :=
  ∀ X key, On endpointId X a → Aimed b X key → Aimed a X key

/-- A move that queues and creates nothing. -/
structure Quiet (a b : World) : Prop extends Moves a b where
  leaves : ∀ X key, Aimed b X key → Aimed a X key
  absent : ∀ X, a.operations.find X = none → b.operations.find X = none

section Relations

variable {a b c : World} {X : OperationId} {key : List Char}
  {endpointId : EndpointId}

theorem Moves.refl (a : World) : Moves a a :=
  ⟨fun _ row hrow => ⟨row, hrow, rfl, rfl, rfl, id⟩, fun _ _ h => h⟩

theorem Moves.trans (h₁ : Moves a b) (h₂ : Moves b c) : Moves a c := by
  refine ⟨fun X row hrow => ?_, fun X key h => h₂.aims X key (h₁.aims X key h)⟩
  obtain ⟨row₁, hrow₁, hsource₁, htargets₁, hcommand₁, hstate₁⟩ :=
    h₁.records X row hrow
  obtain ⟨row₂, hrow₂, hsource₂, htargets₂, hcommand₂, hstate₂⟩ :=
    h₂.records X row₁ hrow₁
  exact ⟨row₂, hrow₂, hsource₂.trans hsource₁, htargets₂.trans htargets₁,
    hcommand₂.trans hcommand₁, hstate₂ ∘ hstate₁⟩

theorem Moves.on (h : Moves a b) (hX : On endpointId X a) :
    On endpointId X b := by
  obtain ⟨row, targetId, hrow, htargets⟩ := hX
  obtain ⟨row', hrow', -, htargets', -⟩ := h.records X row hrow
  exact ⟨row', targetId, hrow', htargets'.trans htargets⟩

theorem Leaves.refl (a : World) : Leaves endpointId a a := fun _ _ _ h => h

theorem Leaves.trans (h : Moves a b) (h₁ : Leaves endpointId a b)
    (h₂ : Leaves endpointId b c) : Leaves endpointId a c :=
  fun X key hX hkey => h₁ X key hX (h₂ X key (h.on hX) hkey)

theorem Quiet.refl (a : World) : Quiet a a :=
  ⟨.refl a, fun _ _ h => h, fun _ h => h⟩

end Relations

/-! ## The invariant of the tables -/

/-- Records are the center's, each for one target; whatever was offered is on
record; all offers of an operation aim at one key. -/
structure AimInv (w : World) : Prop where
  books : Books w.outbox w.offered
  records : ∀ X row, w.operations.find X = some row →
    row.source = .center ∧ ∃ endpointId, On endpointId X w
  recorded : ∀ X key, Aimed w X key → ∃ endpointId, On endpointId X w
  single : ∀ X key key', Aimed w X key → Aimed w X key' → key = key'

theorem AimInv.empty : AimInv ⟨.empty, .empty, .empty, [], []⟩ := by
  refine ⟨.empty, ?_, ?_, ?_⟩
  · intro X row hrow
    cases hrow
  · intro X key h
    obtain ⟨row, hrow, -⟩ := h
    cases hrow
  · intro X key key' h
    obtain ⟨row, hrow, -⟩ := h
    cases hrow

/-- A quiet move keeps it. -/
theorem AimInv.quiet {a b : World} (h : AimInv a) (hab : Quiet a b)
    (hbooks : Books b.outbox b.offered) : AimInv b := by
  refine ⟨hbooks, fun X row' hrow' => ?_, fun X key hkey => ?_,
    fun X key key' hkey hkey' => ?_⟩
  · cases hrow : a.operations.find X with
    | none =>
        rw [hab.absent X hrow] at hrow'
        cases hrow'
    | some row =>
        obtain ⟨hsource, endpointId, hX⟩ := h.records X row hrow
        obtain ⟨row₁, hrow₁, hsource₁, -⟩ := hab.records X row hrow
        cases hrow'.symm.trans hrow₁
        exact ⟨hsource₁.trans hsource, endpointId, hab.on hX⟩
  · obtain ⟨endpointId, hX⟩ := h.recorded X key (hab.leaves X key hkey)
    exact ⟨endpointId, hab.on hX⟩
  · exact h.single X key key' (hab.leaves X key hkey)
      (hab.leaves X key' hkey')

section Aims

variable {w : World} {X : OperationId} {key : List Char}

theorem AimInv.offered_of_aimed (h : AimInv w) (hX : Aimed w X key) :
    ∃ S, (X, S) ∈ w.offered := by
  obtain ⟨row, hrow, fact, hfact, rfl, -⟩ := hX
  exact ⟨_, h.books.listed row hrow _
    ((h.books.column row hrow).trans (offerFacts_operationId hfact))⟩

/-- What a lookup over all queues tells of the aims: no facts, no aim; and the
facts it finds carry the one key the operation is aimed at. -/
theorem AimInv.findAcross (h : AimInv w) {found : Option OutboxEntry}
    {t' : OutboxTable}
    (hf : findOfferByOperationAcrossInstances w.outbox X = .ok (found, t')) :
    (found.bind offerFacts = none → ∀ key, ¬ Aimed w X key) ∧
      ∀ fact, found.bind offerFacts = some fact →
        Aimed w X (canonicalTargetKey fact.target) := by
  obtain ⟨hnever, hknown⟩ := h.books.findAcross hf
  refine ⟨fun hnone key hX => ?_, fun fact hfact => ?_⟩
  · obtain ⟨S, hS⟩ := h.offered_of_aimed hX
    exact hnever hnone S hS
  · obtain ⟨row, hrow, -, hfacts, -, hid⟩ := hknown fact hfact
    exact ⟨row, hrow, fact, hfacts, hid, rfl⟩

end Aims

/-! ## What the calls do -/

section Outbox

variable {w : World} {outbox : OutboxTable} {acked : OutboxRow → Prop}
  {history : Option (InstanceId × OperationId)} {X : OperationId}
  {key : List Char}

/-- Rows that change in place or disappear add no aim. -/
theorem aimed_of_shrinks (hs : Shrinks acked history w.outbox outbox)
    (h : Aimed { w with outbox } X key) : Aimed w X key := by
  obtain ⟨row', hrow', fact, hfact, hid, hkey⟩ := h
  obtain ⟨row, hrow, hv⟩ := hs.stored row' hrow'
  obtain ⟨fact', hfact', hid', htarget⟩ := offerFacts_of_payload hv.payload hfact
  refine ⟨row, hrow, fact', hfact', hid'.trans hid, ?_⟩
  rw [htarget]
  exact hkey

/-- A row that is pruned leaves one of its operation, which has the same
aim. -/
theorem AimInv.aimed_shrinks (h : AimInv w)
    (hs : Shrinks acked history w.outbox outbox) (hX : Aimed w X key) :
    Aimed { w with outbox } X key := by
  have hbooks : Books outbox w.offered := h.books.shrinks hs
  obtain ⟨S, hS⟩ := h.offered_of_aimed hX
  obtain ⟨row, hrow, -, hop⟩ := hbooks.kept X S hS
  obtain ⟨fact, hfact, hid⟩ := offerFacts_of_operationId
    ((hbooks.column row hrow).symm.trans hop)
  have hleft : Aimed { w with outbox } X (canonicalTargetKey fact.target) :=
    ⟨row, hrow, fact, hfact, hid, rfl⟩
  rwa [h.single X _ _ (aimed_of_shrinks hs hleft) hX] at hleft

theorem AimInv.quiet_shrinks (h : AimInv w)
    (hs : Shrinks acked history w.outbox outbox) :
    Quiet w { w with outbox } where
  records X row hrow := ⟨row, hrow, rfl, rfl, rfl, id⟩
  aims X key := h.aimed_shrinks hs
  leaves X key := aimed_of_shrinks hs
  absent X hX := hX

end Outbox

/-- A landed write moves one record on; an unknown outcome is final. -/
theorem quiet_runOperationStore {w : World} (fault : Option Fault)
    (q : OperationStoreReq) (hq : isCreate (.operations q) = false) :
    Quiet w { w with
      operations := (runOperationStore fault q w.operations).2 } := by
  -- one record written over, the key kept
  have hwrite : ∀ {t' : OperationTable} {Y : OperationId}
      {row new : OperationRow}, w.operations.find Y = some row →
      (∀ k, t'.find k = if k = Y then some new else w.operations.find k) →
      new.source = row.source → new.targets = row.targets →
      new.command = row.command →
      (row.state = .unknown → new.state = .unknown) →
      Quiet w { w with operations := t' } := by
    intro t' Y row new hrow hfind hsource htargets hcommand hstate
    refine ⟨⟨fun X x hx => ?_, fun _ _ h => h⟩, fun _ _ h => h, fun X hX => ?_⟩
    · show ∃ row', t'.find X = _ ∧ _
      rw [hfind X]
      by_cases hXY : X = Y
      · subst hXY
        cases hrow.symm.trans hx
        exact ⟨new, if_pos rfl, hsource, htargets, hcommand, hstate⟩
      · exact ⟨x, by rw [if_neg hXY, hx], rfl, rfl, rfl, id⟩
    · show t'.find X = none
      rw [hfind X, if_neg, hX]
      rintro rfl
      rw [hX] at hrow
      cases hrow
  have hsame : Quiet w { w with operations := w.operations } := .refl w
  have hopen : ∀ {state : OperationState}, state.isTerminal = false →
      state ≠ .unknown := by
    rintro state hterm rfl
    cases hterm
  cases fault with
  | some f =>
      rw [runOperationStore_fault]
      exact hsame
  | none =>
      cases q with
      | createOperation operation => cases hq
      | findOperation X => exact hsame
      | listOperations state => exact hsame
      | applyTransition X state now =>
          cases ha : applyTransition w.operations X state now with
          | error e =>
              simp only [runOperationStore, ha, written]
              exact hsame
          | ok t' =>
              simp only [runOperationStore, ha, written]
              obtain ⟨row, hrow, hterm, hfind⟩ := applyTransition_ok ha
              exact hwrite hrow hfind rfl rfl rfl
                fun hstate => absurd hstate (hopen hterm)
      | applyTransitionIfCurrent X expected state now =>
          cases ha : applyTransitionIfCurrent w.operations X expected state
              now with
          | error e =>
              simp only [runOperationStore, ha, written]
              exact hsame
          | ok t' =>
              simp only [runOperationStore, ha, written]
              obtain ⟨row, hrow, -, hterm, hfind⟩ :=
                applyTransitionIfCurrent_ok ha
              exact hwrite hrow hfind rfl rfl rfl
                fun hstate => absurd hstate (hopen hterm)
      | recordFailureKind X kind =>
          cases hr : recordFailureKind w.operations X kind with
          | error e =>
              simp only [runOperationStore, hr, written]
              exact hsame
          | ok t' =>
              simp only [runOperationStore, hr, written]
              obtain ⟨row, hrow, hfind⟩ := recordFailureKind_ok hr
              exact hwrite hrow hfind rfl rfl rfl id

section Perform

variable {w : World} {o : Oracle} {made : Option CenterOperationRequest}

/-- The tables the aims depend on. -/
theorem Quiet.of_tables {a b b' : World} (h : Quiet a b)
    (hoperations : b'.operations = b.operations)
    (houtbox : b'.outbox = b.outbox) : Quiet a b' := by
  have haimed : ∀ X key, Aimed b' X key ↔ Aimed b X key := by
    intro X key
    unfold Aimed
    rw [houtbox]
  refine ⟨⟨?_, fun X key hX => ?_⟩, fun X key hX => ?_, ?_⟩
  · rw [hoperations]
    exact h.records
  · exact (haimed X key).mpr (h.aims X key hX)
  · exact h.leaves X key ((haimed X key).mp hX)
  · rw [hoperations]
    exact h.absent

variable (o made) in
/-- A call that neither queues nor creates. -/
theorem AimInv.quiet_perform (h : AimInv w) {q : CenterReq}
    (hqueue : isEnqueue q = false) (hcreate : isCreate q = false) :
    Quiet w (perform made o q w).2 := by
  cases q with
  | operations q =>
      exact (quiet_runOperationStore o.fault q hcreate).of_tables rfl rfl
  | outbox q =>
      refine (h.quiet_shrinks (runOutbox_shrinks o.fault o.entryId ?_
        w.outbox)).of_tables rfl rfl
      rintro siteId message now rfl
      cases hqueue
  | listOperationsForEndpoint state endpointId =>
      refine (Quiet.refl w).of_tables ?_ ?_
      · simp only [perform, answer]
        cases o.fault <;> rfl
      · simp only [perform, answer]
        cases o.fault <;> rfl
  | _ => exact (Quiet.refl w).of_tables rfl rfl

variable (o made) in
/-- An enqueue keeps the records and adds at most the aim of its offer. -/
theorem aimed_enqueue {S : InstanceId} {offer : OperationOffer} (now : Instant)
    {X : OperationId} (hX : offer.operationId = some X) :
    (perform made o (.outbox (.enqueue S (.operationOffer offer) now))
      w).2.operations = w.operations ∧
    (∀ Y key, Aimed w Y key → Aimed (perform made o
      (.outbox (.enqueue S (.operationOffer offer) now)) w).2 Y key) ∧
    ∀ Y key, Aimed (perform made o
      (.outbox (.enqueue S (.operationOffer offer) now)) w).2 Y key →
        Aimed w Y key ∨ Y = X ∧ key = canonicalTargetKey offer.target := by
  refine ⟨rfl, ?_⟩
  rcases runOutbox_enqueue o.fault o.entryId S (.operationOffer offer) now
    w.outbox with ⟨sequence, t', hrun, -, hrows⟩ | ⟨e, hrun⟩
  · have hmem : ∀ row, row ∈ (perform made o (.outbox
        (.enqueue S (.operationOffer offer) now)) w).2.outbox.rows ↔
        row ∈ w.outbox.rows ∨ row = outboxRowOf o.entryId S sequence
          (.operationOffer offer) now := by
      intro row
      simp only [perform, answer, hrun]
      rw [hrows, List.mem_append, List.mem_singleton]
    refine ⟨fun Y key hY => ?_, fun Y key hY => ?_⟩
    · obtain ⟨row, hrow, hfacts⟩ := hY
      exact ⟨row, (hmem row).mpr (.inl hrow), hfacts⟩
    · obtain ⟨row, hrow, fact, hfact, hid, hkey⟩ := hY
      rcases (hmem row).mp hrow with hrow | rfl
      · exact .inl ⟨row, hrow, fact, hfact, hid, hkey⟩
      · simp only [offerFacts, outboxRowOf, OutboxEntry.new, hX,
          Option.map_some, Option.some.injEq] at hfact
        subst hfact
        exact .inr ⟨hid.symm, hkey.symm⟩
  · have hrows : (perform made o (.outbox
        (.enqueue S (.operationOffer offer) now)) w).2.outbox =
        w.outbox := by
      simp only [perform, answer, hrun]
    have haimed : ∀ Y key, Aimed (perform made o (.outbox
        (.enqueue S (.operationOffer offer) now)) w).2 Y key ↔
        Aimed w Y key := by
      intro Y key
      unfold Aimed
      rw [hrows]
    exact ⟨fun Y key => (haimed Y key).mpr,
      fun Y key hY => .inl ((haimed Y key).mp hY)⟩

/-- The offers of an operation, if there are any, are for a key. -/
def Free (w : World) (X : OperationId) (key : List Char) : Prop :=
  Aimed w X key ∨ ∀ key', ¬ Aimed w X key'

variable (o made) in
/-- An offer for the key the others of its operation are for. -/
theorem AimInv.enqueue (h : AimInv w) {S : InstanceId} {offer : OperationOffer}
    (now : Instant) {X : OperationId} {endpointId : EndpointId}
    (hX : offer.operationId = some X) (hon : On endpointId X w)
    (hfree : Free w X (canonicalTargetKey offer.target)) :
    AimInv (perform made o
      (.outbox (.enqueue S (.operationOffer offer) now)) w).2 := by
  obtain ⟨hsame, -, hnew⟩ := aimed_enqueue o made now (w := w) (S := S) hX
  refine ⟨h.books.of_perform made o _, ?_, ?_, ?_⟩
  · unfold On
    rw [hsame]
    exact h.records
  · intro Y key hY
    unfold On
    rw [hsame]
    rcases hnew Y key hY with hY | ⟨rfl, -⟩
    · exact h.recorded Y key hY
    · exact ⟨endpointId, hon⟩
  · have hone : ∀ key, Aimed w X key →
        key = canonicalTargetKey offer.target := by
      intro key hkey
      rcases hfree with haimed | hnone
      · exact h.single X _ _ hkey haimed
      · exact absurd hkey (hnone key)
    intro Y key key' hY hY'
    rcases hnew Y key hY with hY | ⟨rfl, hkey⟩
    · rcases hnew Y key' hY' with hY' | ⟨rfl, hkey'⟩
      · exact h.single Y key key' hY hY'
      · exact (hone key hY).trans hkey'.symm
    · rcases hnew Y key' hY' with hY' | ⟨-, hkey'⟩
      · exact hkey.trans (hone key' hY').symm
      · exact hkey.trans hkey'.symm

/-- A creation under a new identity that lands adds its record; one that fails
changes nothing. -/
theorem find_create {X : OperationId} {targetId : TargetId}
    {endpointId : EndpointId} {command : RedfishCommand} {now : Instant}
    {r : Except OperationRepositoryError Unit} {w' : World}
    (hX : w.operations.find X = none)
    (h : perform made o (.operations (.createOperation (.new X .center
      [⟨targetId, endpointId⟩] command now))) w = (r, w')) :
    w'.outbox = w.outbox ∧
    ((∃ e, r = .error e) ∧
        (∀ Y, w'.operations.find Y = w.operations.find Y) ∨
      r = .ok () ∧ ∀ Y, w'.operations.find Y =
        if Y = X then some (rowOf (.new X .center [⟨targetId, endpointId⟩]
          command now) none) else w.operations.find Y) := by
  cases hfault : o.fault with
  | some f =>
      simp only [perform, answer, hfault, runOperationStore] at h
      cases h
      exact ⟨rfl, .inl ⟨⟨_, rfl⟩, fun _ => rfl⟩⟩
  | none =>
      cases ht : createOperation w.operations (.new X .center
          [⟨targetId, endpointId⟩] command now) with
      | error e =>
          simp only [perform, answer, hfault, runOperationStore, ht,
            written] at h
          cases h
          exact ⟨rfl, .inl ⟨⟨e, rfl⟩, fun _ => rfl⟩⟩
      | ok t' =>
          simp only [perform, answer, hfault, runOperationStore, ht,
            written] at h
          cases h
          refine ⟨rfl, .inr ⟨rfl, fun Y => ?_⟩⟩
          show t'.find Y = _
          rw [createOperation_ok ht Y]
          by_cases hYX : Y = X
          · subst hYX
            rw [if_pos ⟨rfl, hX⟩, if_pos rfl]
          · rw [if_neg fun h => hYX h.1, if_neg hYX]

theorem AimInv.create (h : AimInv w) {X : OperationId} {targetId : TargetId}
    {endpointId : EndpointId} {command : RedfishCommand} {now : Instant}
    {r : Except OperationRepositoryError Unit} {w' : World}
    (hX : w.operations.find X = none)
    (hcall : perform made o (.operations (.createOperation (.new X .center
      [⟨targetId, endpointId⟩] command now))) w = (r, w')) :
    AimInv w' ∧ Moves w w' ∧ (∀ Y, Y ≠ X → w.operations.find Y = none →
      w'.operations.find Y = none) ∧
      ∀ Y key, Aimed w' Y key → Aimed w Y key := by
  obtain ⟨hsame, hfind⟩ := find_create hX hcall
  have hbooks := h.books.of_perform made o (.operations (.createOperation
    (.new X .center [⟨targetId, endpointId⟩] command now)))
  rw [hcall] at hbooks
  have haimed : ∀ Y key, Aimed w' Y key ↔ Aimed w Y key := by
    intro Y key
    unfold Aimed
    rw [hsame]
  have hkept : ∀ Y row, w.operations.find Y = some row →
      w'.operations.find Y = some row := by
    intro Y row hrow
    rcases hfind with ⟨-, hfind⟩ | ⟨-, hfind⟩
    · rw [hfind Y, hrow]
    · rw [hfind Y, if_neg, hrow]
      rintro rfl
      rw [hX] at hrow
      cases hrow
  have hon : ∀ {Y e}, On e Y w → On e Y w' := by
    rintro Y e ⟨row, target, hrow, htargets⟩
    exact ⟨row, target, hkept Y row hrow, htargets⟩
  refine ⟨⟨hbooks, fun Y row hrow => ?_, fun Y key hY => ?_,
    fun Y key key' hY hY' => ?_⟩, ⟨fun Y row hrow =>
      ⟨row, hkept Y row hrow, rfl, rfl, rfl, id⟩,
      fun Y key => (haimed Y key).mpr⟩, fun Y hYX hY => ?_,
    fun Y key => (haimed Y key).mp⟩
  · have hold : w.operations.find Y = some row →
        row.source = .center ∧ ∃ e, On e Y w' := by
      intro hrow
      obtain ⟨hsource, e, hY⟩ := h.records Y row hrow
      exact ⟨hsource, e, hon hY⟩
    rcases hfind with ⟨-, hfind⟩ | ⟨-, hfind⟩
    · exact hold (by rw [← hfind Y, hrow])
    · by_cases hYX : Y = X
      · have hrow' := hfind Y
        rw [if_pos hYX, hrow] at hrow'
        cases hrow'
        exact ⟨rfl, endpointId, _, targetId, hrow, rfl⟩
      · exact hold (by rw [← hrow, hfind Y, if_neg hYX])
  · obtain ⟨e, he⟩ := h.recorded Y key ((haimed Y key).mp hY)
    exact ⟨e, hon he⟩
  · exact h.single Y key key' ((haimed Y key).mp hY) ((haimed Y key').mp hY')
  · rcases hfind with ⟨-, hfind⟩ | ⟨-, hfind⟩
    · rw [hfind Y, hY]
    · rw [hfind Y, if_neg hYX, hY]

end Perform

end Rutilus.Proofs.OfferAims
