import Mathlib.Data.Prod.Lex
import Rutilus.Engine.OperationEngine
import Rutilus.Lib.Listing
import Rutilus.Lib.Rely
import Rutilus.Lib.Runs

/-!
# The restart scan while operations move

`recoverPending` asks for one recoverable state after the other. Between two of
its queries the drivers go on: an operation may move on to a state that is still
to be asked for, and an unconditional step computed from an old read may move
one back to a state that was asked for before. The first is listed twice, the
second not at all.

Each step that stays on one side of the scan keeps two facts, from which the
result follows: an operation that was listed is not in a state still to come, and
one that was recoverable all the time was listed or is in such a state.

`seen` and `since` are not part of the product: they are the tables the queries
saw and all tables from the first query on.
-/

namespace Rutilus.Proofs.RecoveryScan

open Rutilus.Domain Rutilus.Lib Rutilus.Store Rutilus.Engine

/-! ## The system -/

structure Recovery where
  table : OperationTable
  drivers : List (Prog operationStore (Except EngineError Operation))
  scan : Option (Prog operationStore (Except EngineError (List Operation)))
  seen : List OperationTable
  since : List OperationTable

def init : Recovery := ⟨.empty, [], none, [], []⟩

inductive Label where
  | create (id : OperationId) (source : OperationSource)
      (targets : List OperationTarget) (command : RedfishCommand)
      (now : Instant)
  | apply (id : OperationId) (event : OperationEvent) (now : Instant)
  | applyIfCurrent (id : OperationId) (expected : OperationState)
      (event : OperationEvent) (now : Instant)
  | step (driver : Nat) (fault : Option Fault)
  | recover
  | query (fault : Option Fault)

/-- A scan that made its first query and not its last. -/
def Recovery.scanning (s : Recovery) : Bool :=
  match s.scan with
  | some (.call _ _) => !s.seen.isEmpty
  | _ => false

/-- The others leave another table. -/
def Recovery.moved (s : Recovery) (table : OperationTable) : Recovery :=
  { s with table, since := if s.scanning then s.since ++ [table] else s.since }

def Recovery.start (s : Recovery)
    (driver : Prog operationStore (Except EngineError Operation)) : Recovery :=
  { s with drivers := s.drivers ++ [driver] }

def next (s : Recovery) : Label → Option Recovery
  | .create id source targets command now =>
      match createOperation s.table
          (Operation.new id source targets command now) with
      | .ok table => some (s.moved table)
      | .error _ => none
  | .apply id event now => some (s.start (apply id event now))
  | .applyIfCurrent id expected event now =>
      some (s.start (applyIfCurrent id expected event now))
  | .step i fault =>
      match s.drivers[i]? with
      | some (.call q k) =>
          let (r, table) := runOperationStore fault q s.table
          some { s.moved table with drivers := s.drivers.set i (k r) }
      | _ => none
  | .recover =>
      some { s with scan := some recoverPending, seen := [], since := [] }
  | .query fault =>
      match s.scan with
      | some (.call q k) =>
          let (r, table) := runOperationStore fault q s.table
          some { s with
            table, scan := some (k r), seen := s.seen ++ [s.table]
            since := s.since ++ [s.table] }
      | _ => none

/-! ## What a scan saw of an operation -/

def stateIn (t : OperationTable) (X : OperationId) : Option OperationState :=
  (t.find X).map OperationRow.state

def Recoverable (t : OperationTable) (X : OperationId) : Prop :=
  ∃ state ∈ recoverableStates, stateIn t X = some state

instance (t : OperationTable) (X : OperationId) : Decidable (Recoverable t X) :=
  inferInstanceAs (Decidable (∃ state ∈ recoverableStates, _))

/-- The query for the state an operation was in met it. -/
def Listed (seen : List OperationTable) (X : OperationId) : Prop :=
  ∃ (i : Nat) (t : OperationTable) (state : OperationState),
    seen[i]? = some t ∧ recoverableStates[i]? = some state ∧
    stateIn t X = some state

/-- The operation is in a state the scan still asks for. -/
def ToCome (seen : List OperationTable) (t : OperationTable)
    (X : OperationId) : Prop :=
  ∃ state ∈ recoverableStates.drop seen.length, stateIn t X = some state

/-- No operation crosses the position of the scan: one that was listed does not
enter a state still to come, and one that was not listed does not go from such a
state to a recoverable one that was asked for before. -/
def StaysAside (seen : List OperationTable) (t t' : OperationTable) : Prop :=
  ∀ X, stateIn t' X = stateIn t X ∨
    (Listed seen X → ¬ToCome seen t' X) ∧
    (¬Listed seen X → ToCome seen t X → Recoverable t' X → ToCome seen t' X)

/-- The steps of the drivers stay aside of a scan that is under way. -/
def Aside (s : Recovery) (a : Label) (t : Recovery) : Prop :=
  match a with
  | .step _ _ => s.scanning = true → StaysAside s.seen s.table t.table
  | _ => True

/-! ## One scan -/

/-- What a scan and the moves of the others act on. -/
structure View where
  table : OperationTable
  seen : List OperationTable
  since : List OperationTable

variable {v v' : View} {found ops : List Operation} {X : OperationId}

/-- A move of the others. -/
def Move (v v' : View) : Prop :=
  v'.seen = v.seen ∧
    v'.since = (if v.seen.isEmpty then v.since else v.since ++ [v'.table]) ∧
    (v.seen ≠ [] → StaysAside v.seen v.table v'.table)

def Moves : View → View → Prop := Relation.ReflTransGen Move

/-- A query. -/
def Queried : Sem operationStore View := fun q v r v' =>
  ∃ fault, runOperationStore fault q v.table = (r, v'.table) ∧
    v'.seen = v.seen ++ [v.table] ∧ v'.since = v.since ++ [v.table]

structure Scanned (v : View) (found : List Operation) : Prop where
  nodup : (found.map Operation.id).Nodup
  listed : ∀ X, X ∈ found.map Operation.id ↔ Listed v.seen X
  once : ∀ X, v.seen ≠ [] → Listed v.seen X → ¬ToCome v.seen v.table X
  none_missed : ∀ X, v.seen ≠ [] → (∀ t ∈ v.since, Recoverable t X) →
    Listed v.seen X ∨ ToCome v.seen v.table X

theorem Scanned.move (h : Scanned v found) (hm : Move v v') :
    Scanned v' found := by
  obtain ⟨hseen, hsince, haside⟩ := hm
  refine ⟨h.nodup, fun X => hseen ▸ h.listed X, ?_, ?_⟩
  · intro X hne hlisted
    rw [hseen] at hne hlisted ⊢
    rcases haside hne X with hsame | ⟨hkeep, -⟩
    · have := h.once X hne hlisted
      rwa [ToCome, ← hsame] at this
    · exact hkeep hlisted
  · intro X hne hall
    rw [hseen] at hne ⊢
    rw [if_neg (by simpa using hne)] at hsince
    rw [hsince] at hall
    have hbefore := h.none_missed X hne fun t ht =>
      hall t (List.mem_append_left _ ht)
    have hnow : Recoverable v'.table X := hall _ (by simp)
    rcases haside hne X with hsame | ⟨-, hkeep⟩
    · rwa [ToCome, ← hsame] at hbefore
    · by_cases hlisted : Listed v.seen X
      · exact .inl hlisted
      · exact .inr (hkeep hlisted (hbefore.resolve_left hlisted) hnow)

theorem Scanned.moves (h : Scanned v found) (hm : Moves v v') :
    Scanned v' found := by
  induction hm with
  | refl => exact h
  | tail _ hm ih => exact ih.move hm

theorem moves_seen (hm : Moves v v') : v'.seen = v.seen := by
  induction hm with
  | refl => rfl
  | tail _ hm ih => exact hm.1.trans ih

/-- One query lists the operations in its state, each once. -/
theorem list_ids {t : OperationTable} {state : OperationState}
    (h : listOperations t (some state) = .ok ops) :
    (ops.map Operation.id).Nodup ∧
      ∀ X, X ∈ ops.map Operation.id ↔ stateIn t X = some state := by
  have hids := map_of_mapM_ok (g := Operation.id) (k := OperationRow.id)
    (fun row operation hmap => (mapStoredOperation_ok hmap).1) h
  have hperm := (List.perm_insertionSort acceptedBefore
    (t.rows.filter fun row => (some state).all (row.state = ·))).map
      OperationRow.id
  refine ⟨?_, fun X => ?_⟩
  · rw [hids, hperm.nodup_iff]
    exact t.nodup.sublist (List.filter_sublist.map _)
  · rw [hids, hperm.mem_iff, List.mem_map]
    simp only [List.mem_filter, Option.all_some, decide_eq_true_eq, stateIn,
      Option.map_eq_some_iff, Table.find_eq_some_iff]
    constructor
    · rintro ⟨row, ⟨hrow, hstate⟩, hid⟩
      exact ⟨row, ⟨hrow, hid⟩, hstate⟩
    · rintro ⟨row, ⟨hrow, hid⟩, hstate⟩
      exact ⟨row, ⟨hrow, hstate⟩, hid⟩

theorem listed_append {seen : List OperationTable} {t : OperationTable}
    {state : OperationState} {states : List OperationState}
    (hdrop : recoverableStates.drop seen.length = state :: states) :
    Listed (seen ++ [t]) X ↔ Listed seen X ∨ stateIn t X = some state := by
  have hstate : recoverableStates[seen.length]? = some state := by
    rw [← List.head?_drop, hdrop]
    rfl
  constructor
  · rintro ⟨i, t', state', hi, hs, hin⟩
    rw [List.getElem?_append] at hi
    split at hi
    · exact .inl ⟨i, t', state', hi, hs, hin⟩
    · next hlen =>
        rw [List.getElem?_singleton] at hi
        split at hi
        · next hz =>
            cases hi
            obtain rfl : i = seen.length := by omega
            rw [hstate] at hs
            cases hs
            exact .inr hin
        · cases hi
  · rintro (⟨i, t', state', hi, hs, hin⟩ | hin)
    · refine ⟨i, t', state', ?_, hs, hin⟩
      rw [List.getElem?_append_left (List.getElem?_eq_some_iff.mp hi).1, hi]
    · exact ⟨seen.length, t, state, List.getElem?_concat_length, hstate, hin⟩

theorem recoverableStates_nodup : recoverableStates.Nodup := by decide

/-- A query that was answered. -/
theorem Scanned.query (h : Scanned v found) {state : OperationState}
    {states : List OperationState}
    (hdrop : recoverableStates.drop v.seen.length = state :: states)
    (hok : listOperations v.table (some state) = .ok ops)
    (htable : v'.table = v.table) (hseen : v'.seen = v.seen ++ [v.table])
    (hsince : v'.since = v.since ++ [v.table]) :
    Scanned v' (found ++ ops) ∧
      recoverableStates.drop v'.seen.length = states := by
  obtain ⟨hnodup, hids⟩ := list_ids hok
  have hrest : recoverableStates.drop v'.seen.length = states := by
    rw [hseen, List.length_append, List.length_singleton, ← List.drop_drop,
      hdrop]
    rfl
  have hfresh : state ∉ states := by
    have := (List.drop_sublist v.seen.length _).nodup recoverableStates_nodup
    rw [hdrop, List.nodup_cons] at this
    exact this.1
  have hcome : ∀ X, ToCome v'.seen v'.table X ↔
      ToCome v.seen v.table X ∧ stateIn v.table X ≠ some state := by
    intro X
    rw [ToCome, hrest, htable, ToCome, hdrop]
    constructor
    · rintro ⟨state', hmem, hin⟩
      refine ⟨⟨state', List.mem_cons_of_mem _ hmem, hin⟩, ?_⟩
      rw [hin]
      rintro ⟨⟩
      exact hfresh hmem
    · rintro ⟨⟨state', hmem, hin⟩, hne⟩
      rcases List.mem_cons.mp hmem with rfl | hmem
      · exact absurd hin hne
      · exact ⟨state', hmem, hin⟩
  have hfirst : v.seen = [] → ∀ X, ¬Listed v.seen X := by
    rintro hnil X ⟨i, t, state, hi, -⟩
    rw [hnil] at hi
    cases hi
  refine ⟨⟨?_, fun X => ?_, fun X _ hlisted hto => ?_, fun X _ hall => ?_⟩,
    hrest⟩
  · rw [List.map_append, List.nodup_append]
    refine ⟨h.nodup, hnodup, ?_⟩
    intro id hid id' hid' heq
    subst heq
    have hlisted := (h.listed id).mp hid
    have hin := (hids id).mp hid'
    by_cases hnil : v.seen = []
    · exact hfirst hnil id hlisted
    · exact h.once id hnil hlisted
        ⟨state, by rw [hdrop]; exact List.mem_cons_self, hin⟩
  · rw [List.map_append, List.mem_append, h.listed, hids, hseen,
      listed_append hdrop]
  · rw [hseen, listed_append hdrop] at hlisted
    obtain ⟨hto, hne⟩ := (hcome X).mp hto
    rcases hlisted with hlisted | hin
    · by_cases hnil : v.seen = []
      · exact hfirst hnil X hlisted
      · exact h.once X hnil hlisted hto
    · exact hne hin
  · rw [hseen, listed_append hdrop, ← hseen, hcome]
    have hbefore : Listed v.seen X ∨ ToCome v.seen v.table X := by
      rw [hsince] at hall
      by_cases hnil : v.seen = []
      · obtain ⟨state', hmem, hin⟩ := hall v.table (by simp)
        exact .inr ⟨state', by simpa [hnil] using hmem, hin⟩
      · exact h.none_missed X hnil fun t ht =>
          hall t (List.mem_append_left _ ht)
    by_cases hin : stateIn v.table X = some state
    · exact .inl (.inr hin)
    · rcases hbefore with hlisted | hto
      · exact .inl (.inl hlisted)
      · exact .inr ⟨hto, hin⟩

def IsListing (q : OperationStoreReq) : Prop :=
  ∃ state, q = .listOperations state

/-- The contract of a scan. -/
abbrev ScanSafe {α : Type} (p : Prog operationStore α)
    (Q : α → View → Prop) (v : View) : Prop :=
  Safe Queried Moves (fun q _ _ => IsListing q) p Q v

theorem queried_listing {state : Option OperationState}
    {r : Except OperationRepositoryError (List Operation)}
    (h : Queried (.listOperations state) v r v') :
    v'.table = v.table ∧ v'.seen = v.seen ++ [v.table] ∧
      v'.since = v.since ++ [v.table] ∧
      ∀ found, r = .ok found → listOperations v.table state = .ok found := by
  obtain ⟨fault, hrun, hseen, hsince⟩ := h
  cases fault with
  | some f =>
      obtain ⟨rfl, htable⟩ := Prod.mk.inj hrun
      exact ⟨htable.symm, hseen, hsince, nofun⟩
  | none =>
      obtain ⟨rfl, htable⟩ := Prod.mk.inj hrun
      exact ⟨htable.symm, hseen, hsince, fun _ h => h⟩

theorem listEach_safe {states : List OperationState} (h : Scanned v found)
    (hdrop : recoverableStates.drop v.seen.length = states)
    {Q : Except EngineError (List Operation) → View → Prop}
    (herr : ∀ e v', Q (.error e) v')
    (hok : ∀ rest v', Scanned v' (found ++ rest) →
      recoverableStates.drop v'.seen.length = [] → Q (.ok rest) v') :
    ScanSafe (listEach states : ExceptT EngineError (Prog operationStore) _) Q
      v := by
  induction states generalizing v found Q with
  | nil => exact hok [] v (by rwa [List.append_nil]) hdrop
  | cons state states ih =>
      refine Safe.bindE.mpr (Safe.orThrow.mpr fun v₁ hmoves r v₂ hquery => ?_)
      obtain ⟨htable, hseen, hsince, hlist⟩ := queried_listing hquery
      refine ⟨⟨_, rfl⟩, ?_⟩
      cases r with
      | error e => exact herr _ _
      | ok ops =>
          rw [← moves_seen hmoves] at hdrop
          obtain ⟨h₂, hdrop₂⟩ := (h.moves hmoves).query hdrop (hlist ops rfl)
            htable hseen hsince
          refine Safe.bindE.mpr (ih h₂ hdrop₂ herr fun rest v' h' hend => ?_)
          exact hok (ops ++ rest) v' (by rwa [← List.append_assoc]) hend

/-- What a finished scan answers, if it answers. -/
structure Exact (since : List OperationTable) (found : List Operation) :
    Prop where
  complete : ∀ X, (∀ t ∈ since, Recoverable t X) →
    X ∈ found.map Operation.id
  once : (found.map Operation.id).Nodup
  sorted : found.Pairwise recoveredBefore

theorem recoveredBefore_iff {a b : Operation} : recoveredBefore a b ↔
    toLex (a.createdAt, a.id.uuid) ≤ toLex (b.createdAt, b.id.uuid) := by
  rw [Prod.Lex.toLex_le_toLex]
  exact Iff.rfl

instance : Std.Total recoveredBefore :=
  ⟨fun _ _ => by simpa only [recoveredBefore_iff] using le_total _ _⟩

instance : IsTrans Operation recoveredBefore :=
  ⟨fun _ _ _ => by simpa only [recoveredBefore_iff] using le_trans⟩

theorem recoverPending_safe {t : OperationTable} :
    ScanSafe (recoverPending : ExceptT EngineError (Prog operationStore) _)
      (fun r v => ∀ found, r = .ok found → Exact v.since found)
      ⟨t, [], []⟩ := by
  have hnone : ∀ X, ¬Listed [] X := by
    rintro X ⟨i, t, state, hi, -⟩
    cases hi
  have hstart : Scanned ⟨t, [], []⟩ [] :=
    ⟨List.nodup_nil, fun X => iff_of_false nofun (hnone X),
      fun X hne => absurd rfl hne, fun X hne => absurd rfl hne⟩
  refine Safe.bindE.mpr (listEach_safe hstart rfl (fun _ _ _ h => by cases h)
    fun found v' h hend => ?_)
  rintro _ ⟨⟩
  have hperm := List.perm_insertionSort recoveredBefore found
  refine ⟨fun X hall => ?_, ?_, List.pairwise_insertionSort recoveredBefore _⟩
  · rw [(hperm.map _).mem_iff, ← List.nil_append found, h.listed]
    have hne : v'.seen ≠ [] := by
      intro hnil
      rw [hnil] at hend
      cases hend
    refine (h.none_missed X hne hall).resolve_right ?_
    rintro ⟨state, hmem, -⟩
    rw [hend] at hmem
    cases hmem
  · rw [(hperm.map _).nodup_iff, ← List.nil_append found]
    exact h.nodup

/-! ## All runs -/

def ScanPost (r : Except EngineError (List Operation)) (v : View) : Prop :=
  ∀ found, r = .ok found → Exact v.since found

def Recovery.view (s : Recovery) : View := ⟨s.table, s.seen, s.since⟩

def Inv (s : Recovery) : Prop :=
  ∀ p, s.scan = some p → ScanSafe p ScanPost s.view

variable {s s' : Recovery}

theorem Inv.moved (h : Inv s) {table : OperationTable}
    (haside : s.scanning = true → StaysAside s.seen s.table table) :
    Inv (s.moved table) := by
  intro p hp
  have hscan : s.scan = some p := hp
  cases p with
  | ret r =>
      have hsince : (s.moved table).since = s.since := by
        simp [Recovery.moved, Recovery.scanning, hscan]
      rintro found rfl
      rw [Recovery.view, hsince]
      exact h _ hscan found rfl
  | call q k =>
      have hmove : Move s.view (s.moved table).view := by
        refine ⟨rfl, ?_, fun hne => haside ?_⟩
        · simp only [Recovery.view, Recovery.moved, Recovery.scanning, hscan]
          cases hempty : s.seen.isEmpty <;> simp
        · have hne : s.seen ≠ [] := hne
          simpa [Recovery.scanning, hscan] using hne
      intro v₁ hmoves
      exact h _ hscan v₁ (.head hmove hmoves)

/-- A fresh operation is queued, which no scan asks for. -/
theorem create_staysAside {operation : Operation} {table : OperationTable}
    (hqueued : operation.state = .queued)
    (h : createOperation s.table operation = .ok table) :
    StaysAside s.seen s.table table := by
  intro X
  have hfind := createOperation_ok h X
  by_cases hnew : X = operation.id ∧ s.table.find X = none
  · rw [if_pos hnew] at hfind
    have hin : stateIn table X = some .queued := by
      rw [stateIn, hfind, ← hqueued]
      rfl
    refine .inr ⟨fun _ hto => ?_, fun _ hto _ => ?_⟩
    · obtain ⟨state, hmem, heq⟩ := hto
      rw [hin] at heq
      cases heq
      exact absurd (List.mem_of_mem_drop hmem) (by decide)
    · obtain ⟨state, -, heq⟩ := hto
      rw [stateIn, hnew.2] at heq
      cases heq
  · rw [if_neg hnew] at hfind
    exact .inl (by rw [stateIn, hfind]; rfl)

theorem Inv.next (h : Inv s) {a : Label}
    (hnext : RecoveryScan.next s a = some s') (haside : Aside s a s') :
    Inv s' := by
  cases a with
  | create id source targets command now =>
      simp only [RecoveryScan.next] at hnext
      split at hnext
      · next table htable =>
          cases hnext
          exact h.moved fun _ => create_staysAside rfl htable
      · cases hnext
  | apply id event now =>
      cases hnext
      exact h
  | applyIfCurrent id expected event now =>
      cases hnext
      exact h
  | step i fault =>
      simp only [RecoveryScan.next] at hnext
      split at hnext
      · cases hnext
        exact h.moved haside
      · cases hnext
  | recover =>
      cases hnext
      rintro p ⟨⟩
      exact recoverPending_safe
  | query fault =>
      simp only [RecoveryScan.next] at hnext
      split at hnext
      · next q k hscan =>
          cases hnext
          rintro p ⟨⟩
          exact (h _ hscan s.view .refl _ _ ⟨fault, rfl, rfl, rfl⟩).2
      · cases hnext

/-- Where every step of the drivers stays on its side of the scan, a scan that
answers lists every operation that was recoverable from its first query to its
last, each once and in the order of acceptance. -/
theorem recovery_exact_of_aside (s : Recovery)
    (hs : Reach (· = init)
      (fun s t => ∃ a, next s a = some t ∧ Aside s a t) s)
    (found : List Operation) (hscan : s.scan = some (.ret (.ok found))) :
    Exact s.since found := by
  have h : Inv s := by
    refine hs.inv (P := Inv) ?_ ?_
    · rintro s rfl p hp
      cases hp
    · rintro s t h ⟨a, hnext, haside⟩
      exact h.next hnext haside
  exact h _ hscan found rfl

/-! ### Operations that cross the scan -/

/-- An operation is advanced to `validating` and begins to run after the first
query. -/
def runsMeanwhile : List Label :=
  [.create ⟨1⟩ .standalone [] (.system (.reset "On")) 0,
    .applyIfCurrent ⟨1⟩ .queued .validationStarted 0, .step 0 none,
    .step 0 none, .recover, .query none,
    .applyIfCurrent ⟨1⟩ .validating .validationPassed 0, .step 1 none,
    .step 1 none, .query none, .query none, .query none]

/-- Two drivers read the operation before it ran; the slow one stores its step
when the operation is verified already and three states were asked for. -/
def goesBack : List Label :=
  [.create ⟨1⟩ .standalone [] (.system (.reset "On")) 0,
    .apply ⟨1⟩ .validationStarted 0, .step 0 none, .step 0 none,
    .apply ⟨1⟩ .validationPassed 0, .apply ⟨1⟩ .validationPassed 0,
    .step 1 none, .step 2 none, .step 1 none,
    .apply ⟨1⟩ .executionAccepted 0, .step 3 none, .step 3 none,
    .recover, .query none, .query none, .query none, .step 2 none,
    .query none]

def answered (s : Recovery) : Option (List OperationId) :=
  match s.scan with
  | some (.ret (.ok found)) => some (found.map Operation.id)
  | _ => none

theorem answered_eq {s : Recovery} {ids : List OperationId}
    (h : answered s = some ids) :
    ∃ found, s.scan = some (.ret (.ok found)) ∧
      found.map Operation.id = ids := by
  unfold answered at h
  split at h
  · next found hscan => exact ⟨found, hscan, Option.some.inj h⟩
  · cases h

/-- An operation that only moves forward is listed twice, and one that was in a
recoverable state all the time is not listed. -/
theorem scan_not_exact :
    (∃ s found, Reach (· = init) (Next next) s ∧
      s.scan = some (.ret (.ok found)) ∧
      ¬(found.map Operation.id).Nodup) ∧
    ∃ s found, Reach (· = init) (Next next) s ∧
      s.scan = some (.ret (.ok found)) ∧ ∃ X,
        (∀ t ∈ s.since, Recoverable t X) ∧ X ∉ found.map Operation.id := by
  constructor
  · obtain ⟨s, hs, h⟩ := exists_reach_of_follow (· = init) next runsMeanwhile
      (fun s => answered s = some [⟨1⟩, ⟨1⟩]) rfl (by decide +kernel)
    obtain ⟨found, hscan, hids⟩ := answered_eq (of_decide_eq_true h)
    refine ⟨s, found, hs, hscan, ?_⟩
    rw [hids]
    decide
  · obtain ⟨s, hs, h⟩ := exists_reach_of_follow (· = init) next goesBack
      (fun s => answered s = some [] ∧ ∀ t ∈ s.since, Recoverable t ⟨1⟩) rfl
      (by decide +kernel)
    obtain ⟨hanswered, hall⟩ := of_decide_eq_true h
    obtain ⟨found, hscan, hids⟩ := answered_eq hanswered
    refine ⟨s, found, hs, hscan, ⟨1⟩, hall, ?_⟩
    rw [hids]
    nofun

/-- No driver moves while a scan is under way. -/
def undisturbed : Recovery → List Label → Bool
  | _, [] => true
  | s, a :: as =>
    (match a with
      | .step _ _ => !s.scanning
      | _ => true) && match next s a with
      | some t => undisturbed t as
      | none => true

theorem reach_undisturbed {as : List Label}
    (hs : Reach (· = init)
      (fun s t => ∃ a, next s a = some t ∧ Aside s a t) s)
    (h : follow next s as = some s') (hrun : undisturbed s as = true) :
    Reach (· = init) (fun s t => ∃ a, next s a = some t ∧ Aside s a t) s' := by
  induction as generalizing s with
  | nil =>
      cases h
      exact hs
  | cons a as ih =>
      obtain ⟨t, ht, h⟩ := Option.bind_eq_some_iff.mp h
      simp only [undisturbed, ht, Bool.and_eq_true] at hrun
      refine ih (hs.step ⟨a, ht, ?_⟩) h hrun.2
      cases a with
      | step i fault =>
          intro hscanning
          rw [hscanning] at hrun
          cases hrun.1
      | _ => trivial

/-- An operation under validation is listed, once. -/
theorem recovery_exact_undisturbed : ∃ (s : Recovery)
    (found : List Operation),
    s.scan = some (.ret (.ok found)) ∧ found.map Operation.id = [⟨1⟩] ∧
      Exact s.since found := by
  let labels : List Label :=
    [.create ⟨1⟩ .standalone [] (.system (.reset "On")) 0,
      .applyIfCurrent ⟨1⟩ .queued .validationStarted 0, .step 0 none,
      .step 0 none, .recover, .query none, .query none, .query none,
      .query none]
  have hanswered : (follow next init labels).bind answered = some [⟨1⟩] := by
    decide +kernel
  obtain ⟨s, hs, hanswered⟩ := Option.bind_eq_some_iff.mp hanswered
  obtain ⟨found, hscan, hids⟩ := answered_eq hanswered
  exact ⟨s, found, hscan, hids, recovery_exact_of_aside s
    (reach_undisturbed (.init rfl) hs (by decide +kernel)) found hscan⟩

end Rutilus.Proofs.RecoveryScan
