import Rutilus.Lib.Listing
import Rutilus.Proofs.FirstClaim

/-!
# Runs of the first-run claim

The invariant says of every committed claim which request it belongs to and
that the administrator has a password since. So the next transaction fails on
its insert, and there is one claim at most (`Inv.few`).

With nothing but claims going on, the rows of the one claim stay as they were
inserted (`Kept`).
-/

namespace Rutilus.Proofs.ClaimRuns

open Rutilus.Domain Rutilus.Domain.User Rutilus.Lib Rutilus.Store
open Rutilus.Web.Auth Rutilus.Web.Bootstrap Rutilus.Proofs.FirstClaim

variable {derive : Bytes → String → Bytes} {crypto : Crypto}

/-! ## Codes keep their hashes -/

/-- The code is stored under the hash of the request's. -/
def Hashed (crypto : Crypto) (t : Tables) (request : BootstrapCompleteRequest)
    (id : BootstrapCodeId) : Prop :=
  ∃ row, t.codes.find id = some row ∧
    row.codeHash = crypto.hashBootstrapCode request.code

def CodesLater (t t' : Tables) : Prop :=
  ∀ id row, t.codes.find id = some row →
    ∃ row', t'.codes.find id = some row' ∧ row'.codeHash = row.codeHash

theorem Hashed.later {t t' : Tables} {request : BootstrapCompleteRequest}
    {id : BootstrapCodeId} (hlater : CodesLater t t')
    (h : Hashed crypto t request id) : Hashed crypto t' request id := by
  obtain ⟨row, hrow, hhash⟩ := h
  obtain ⟨row', hrow', hsame⟩ := hlater id row hrow
  exact ⟨row', hrow', hsame.trans hhash⟩

theorem codesLater_consumed {t : Tables} {c : Consumption}
    {tables : ClaimTables} (h : Consumed t.claimTables c tables) :
    CodesLater t (t.claimed tables) := by
  intro id row hrow
  obtain ⟨model, hmodel, -, hcodes⟩ := h.unused
  have hcodes : (t.claimed tables).codes = t.codes.replace { model with
      usedAt := some c.consumedAt
      usedBy := some c.usedBy } := hcodes
  have hmodel : t.codes.find c.codeId = some model := hmodel
  have hkey : model.id = c.codeId := Table.key_of_find hmodel
  rw [← hkey] at hmodel
  rw [hcodes, Table.find_replace]
  by_cases hid : model.id = id
  · subst hid
    rw [hmodel] at hrow
    cases hrow
    rw [if_pos ⟨rfl, by rw [hmodel]; rfl⟩]
    exact ⟨_, rfl, rfl⟩
  · rw [if_neg fun h => hid h.1]
    exact ⟨row, hrow, rfl⟩

theorem codesLater_create {t : Tables} {codes : CodeTable} {code : BootstrapCode}
    (h : createBootstrapCode t.codes code = .ok codes) :
    CodesLater t { t with codes } := by
  unfold createBootstrapCode at h
  split at h
  · cases h
  · cases h
    intro id row hrow
    refine ⟨row, ?_, rfl⟩
    dsimp only
    rw [Table.find_insertNew]
    split
    · next hnew =>
        rw [hnew.1] at hnew
        rw [hnew.2] at hrow
        cases hrow
    · exact hrow

/-! ## The invariant -/

structure FlightInv (crypto : Crypto) (A : PrincipalId) (t : Tables)
    (f : Flight) : Prop where
  admin : ∀ P, f.notes.admin = some P → P = A
  code : ∀ id, f.notes.code = some id → Hashed crypto t f.request id
  safe : ClaimSafe crypto f.request f.rest Truthful f.notes

/-- `A` is the administrator's account. -/
structure Inv (crypto : Crypto) (A : PrincipalId) (s : State) : Prop where
  names : ∀ p ∈ s.tables.store.principals.rows, isAdmin p = true → p.id = A
  flights : ∀ (i : Nat) f, s.flights[i]? = some f → FlightInv crypto A s.tables f
  flags : ∀ (i : Nat) f, s.flights[i]? = some f →
    (f.notes.claimed = true ↔ ∃ c ∈ s.claims, c.flight = i)
  made : ∀ c ∈ s.claims, ∃ f, s.flights[c.flight]? = some f ∧
    Requested crypto f.request c.consumption ∧
    Hashed crypto s.tables f.request c.consumption.codeId
  taken : ∀ c ∈ s.claims, c.consumption.usedBy = A ∧
    s.tables.store.credentials.has A = true
  few : s.claims.length ≤ 1

theorem FlightInv.later {A : PrincipalId} {t t' : Tables} {f : Flight}
    (hlater : CodesLater t t') (h : FlightInv crypto A t f) :
    FlightInv crypto A t' f :=
  ⟨h.admin, fun id hid => (h.code id hid).later hlater, h.safe⟩

/-- A step that leaves the requests alone. -/
theorem Inv.tables {A : PrincipalId} {s : State} {t : Tables}
    (h : Inv crypto A s) (hlater : CodesLater s.tables t)
    (hnames : ∀ p ∈ t.store.principals.rows, isAdmin p = true → p.id = A)
    (hcredentials : s.tables.store.credentials.has A = true →
      t.store.credentials.has A = true) :
    Inv crypto A { s with tables := t } where
  names := hnames
  flights := fun i f hf => (h.flights i f hf).later hlater
  flags := h.flags
  made := fun c hc => by
    obtain ⟨f, hf, hrequested, hhashed⟩ := h.made c hc
    exact ⟨f, hf, hrequested, hhashed.later hlater⟩
  taken := fun c hc => ⟨(h.taken c hc).1, hcredentials (h.taken c hc).2⟩
  few := h.few

theorem Inv.begin {A : PrincipalId} {s : State}
    {request : BootstrapCompleteRequest} {ip : String} {secure : Bool}
    (h : Inv crypto A s) :
    Inv crypto A { s with
      flights := s.flights ++ [⟨request, ⟨none, none, false⟩,
        bootstrapComplete crypto request ip secure⟩] } where
  names := h.names
  flights := fun i f hf => by
    rcases getElem?_concat_cases hf with ⟨-, rfl⟩ | hf
    · exact ⟨nofun, nofun, bootstrapComplete_safe⟩
    · exact h.flights i f hf
  flags := fun i f hf => by
    rcases getElem?_concat_cases hf with ⟨rfl, rfl⟩ | hf
    · refine iff_of_false Bool.false_ne_true ?_
      rintro ⟨c, hc, hflight⟩
      obtain ⟨f, hf, -⟩ := h.made c hc
      rw [hflight, List.getElem?_eq_none (Nat.le_refl _)] at hf
      cases hf
    · exact h.flags i f hf
  made := fun c hc => by
    obtain ⟨f, hf, hmade⟩ := h.made c hc
    exact ⟨f, getElem?_concat_old hf, hmade⟩
  taken := h.taken
  few := h.few

section Step

variable {A : PrincipalId} {s : State} {i : Nat}
  {request : BootstrapCompleteRequest} {n n' : Notes} {p p' : Prog boot Response}

/-- A call that changes nothing but what the request knows. -/
theorem Inv.quiet (h : Inv crypto A s)
    (hi : s.flights[i]? = some ⟨request, n, p⟩)
    (hflight : FlightInv crypto A s.tables ⟨request, n', p'⟩)
    (hclaimed : n'.claimed = n.claimed) :
    Inv crypto A { s with flights := s.flights.set i ⟨request, n', p'⟩ } where
  names := h.names
  flights := fun j f hf => by
    rcases getElem?_set_cases hf with ⟨-, rfl⟩ | ⟨-, hf⟩
    · exact hflight
    · exact h.flights j f hf
  flags := fun j f hf => by
    rcases getElem?_set_cases hf with ⟨rfl, rfl⟩ | ⟨-, hf⟩
    · rw [hclaimed]
      exact h.flags j _ hi
    · exact h.flags j f hf
  made := fun c hc => by
    obtain ⟨f, hf, hmade⟩ := h.made c hc
    by_cases heq : c.flight = i
    · subst heq
      rw [hi] at hf
      cases hf
      exact ⟨⟨request, n', p'⟩, getElem?_set_here hi, hmade⟩
    · exact ⟨f, (getElem?_set_other heq).trans hf, hmade⟩
  taken := h.taken
  few := h.few

/-- Behind a claim no transaction commits. -/
theorem Inv.unclaimed (h : Inv crypto A s) {c : Consumption}
    {tables : ClaimTables} (hc : Consumed s.tables.claimTables c tables)
    (howner : c.password.principalId = A) : s.claims = [] := by
  refine List.eq_nil_iff_forall_not_mem.mpr fun claim hclaim => ?_
  have hhas := (h.taken claim hclaim).2
  have hfresh : s.tables.store.credentials.find A = none := howner ▸ hc.fresh
  unfold Table.has at hhas
  rw [hfresh] at hhas
  cases hhas

theorem Inv.claim (h : Inv crypto A s)
    (hi : s.flights[i]? = some ⟨request, n, p⟩) {c : Consumption}
    {tables : ClaimTables} (hc : Consumed s.tables.claimTables c tables)
    (hlawful : Lawful crypto request (.consumeBootstrapCode c) n)
    (hflight : FlightInv crypto A (s.tables.claimed tables) ⟨request, n', p'⟩)
    (hclaimed : n'.claimed = true) :
    Inv crypto A ⟨s.tables.claimed tables,
      s.flights.set i ⟨request, n', p'⟩, [⟨i, c⟩]⟩ := by
  obtain ⟨hnot, hadmin, hcode, hrequested⟩ := hlawful
  have hA : c.usedBy = A := (h.flights i _ hi).admin _ hadmin
  have hlater := codesLater_consumed hc
  have hhashed := ((h.flights i _ hi).code _ hcode).later hlater
  have hempty := h.unclaimed hc (hrequested.2.2.1.trans hA)
  refine ⟨h.names, fun j f hf => ?_, fun j f hf => ?_, fun c' hc' => ?_,
    fun c' hc' => ?_, Nat.le_refl 1⟩
  · rcases getElem?_set_cases hf with ⟨-, rfl⟩ | ⟨-, hf⟩
    · exact hflight
    · exact (h.flights j f hf).later hlater
  · rcases getElem?_set_cases hf with ⟨rfl, rfl⟩ | ⟨hne, hf⟩
    · exact iff_of_true hclaimed ⟨_, List.mem_singleton_self _, rfl⟩
    · rw [h.flags j f hf, hempty]
      refine iff_of_false (fun ⟨_, hc', _⟩ => List.not_mem_nil hc') ?_
      rintro ⟨c', hc', rfl⟩
      rw [List.mem_singleton.mp hc'] at hne
      exact hne rfl
  · obtain rfl := List.mem_singleton.mp hc'
    exact ⟨_, getElem?_set_here hi, hrequested, hhashed⟩
  · obtain rfl := List.mem_singleton.mp hc'
    refine ⟨hA, ?_⟩
    have hcredentials : (s.tables.claimed tables).store.credentials =
      s.tables.store.credentials.insertNew c.password := hc.password
    have howner : c.password.principalId = A := hrequested.2.2.1.trans hA
    unfold Table.has
    rw [hcredentials, Table.find_insertNew,
      if_pos ⟨howner, howner ▸ hc.fresh⟩]
    rfl

theorem Inv.step (h : Inv crypto A s) {o : Oracle} {s' : State}
    (hstep : next derive crypto s (.step i o) = some s') : Inv crypto A s' := by
  simp only [Web.Bootstrap.next] at hstep
  split at hstep
  · next request n q k hi =>
      cases hstep
      have hf := h.flights i _ hi
      obtain ⟨hlawful, hsafe⟩ := hf.safe n rfl
        (perform derive o q s.tables).1 _ rfl
      have hadmin : ∀ P, (noteOf n q (perform derive o q s.tables).1).admin =
          some P → P = A := by
        intro P hP
        rcases noted_admin hlawful hP with hP | ⟨p, hp, hname, rfl⟩
        · exact hf.admin P hP
        · exact h.names p hp hname
      have hcode : ∀ id, (noteOf n q (perform derive o q s.tables).1).code =
          some id → Hashed crypto s.tables request id := by
        intro id hid
        rcases noted_code hlawful hid with hid | hhashed
        · exact hf.code id hid
        · exact hhashed
      have heffect := @perform_effect derive _ _ _ o s.tables _ hlawful
      generalize perform derive o q s.tables = out at *
      obtain ⟨r, t⟩ := out
      cases heffect with
      | quiet claims notes =>
          dsimp only
          rw [claims i]
          exact h.quiet hi ⟨hadmin, hcode, hsafe⟩ (notes n)
      | claim consumed =>
          have hc := consume_ok consumed
          have hempty := h.unclaimed hc
            (hlawful.2.2.2.2.2.1.trans (hf.admin _ hlawful.2.1))
          dsimp only [claimsOf]
          rw [hempty]
          exact h.claim hi hc hlawful ⟨hadmin, fun id hid =>
            (hcode id hid).later (codesLater_consumed hc), hsafe⟩ rfl
  · cases hstep

end Step

theorem inv_next {A : PrincipalId} {s s' : State} {a : Label}
    (h : Inv crypto A s) (hstep : next derive crypto s a = some s') :
    Inv crypto A s' := by
  cases a with
  | begin request ip secure =>
      cases hstep
      exact h.begin
  | step i o => exact h.step hstep
  | createCode id codeHash createdAt =>
      simp only [next] at hstep
      split at hstep
      · cases hstep
      · next codes hcreate =>
          cases hstep
          exact h.tables (codesLater_create hcreate) h.names fun hhas => hhas
  | elsewhere tables =>
      simp only [next] at hstep
      split at hstep
      · next htolerates =>
          cases hstep
          obtain ⟨hcodes, hcredentials, hprincipals⟩ :=
            of_decide_eq_true htolerates
          refine h.tables (fun id row hrow => ⟨row, ?_, rfl⟩) ?_ ?_
          · rw [← hrow]
            exact congrArg (Table.find · id) (Table.ext_rows hcodes)
          · intro p hp hname
            have := of_decide_eq_true (List.all_eq_true.mp hprincipals p hp)
              hname
            obtain ⟨old, hold, hsame⟩ := List.any_eq_true.mp this
            obtain ⟨holdname, hid⟩ := of_decide_eq_true hsame
            exact hid ▸ h.names old hold holdname
          · intro hhas
            obtain ⟨credential, hfind⟩ := Option.isSome_iff_exists.mp hhas
            obtain ⟨hmem, rfl⟩ := Table.find_eq_some_iff.mp hfind
            exact List.all_eq_true.mp hcredentials credential hmem
      · cases hstep

theorem inv_initial {s : State} (h : Initial s) : ∃ A, Inv crypto A s := by
  obtain ⟨-, hunique, hflights, hclaims⟩ := h
  have hnames : ∃ A, ∀ p ∈ s.tables.store.principals.rows,
      isAdmin p = true → p.id = A := by
    cases hfind : s.tables.store.principals.rows.find? isAdmin with
    | none =>
        refine ⟨⟨0⟩, fun p hp hname => ?_⟩
        exact absurd hname (List.find?_eq_none.mp hfind p hp)
    | some admin =>
        refine ⟨admin.id, fun p hp hname => ?_⟩
        exact hunique p hp admin (List.mem_of_find?_eq_some hfind) hname
          (List.find?_some hfind)
  obtain ⟨A, hnames⟩ := hnames
  refine ⟨A, hnames, ?_, ?_, ?_, ?_, ?_⟩
  · rw [hflights]
    exact nofun
  · rw [hflights]
    exact nofun
  · rw [hclaims]
    exact fun _ hc => absurd hc List.not_mem_nil
  · rw [hclaims]
    exact fun _ hc => absurd hc List.not_mem_nil
  · rw [hclaims]
    exact Nat.zero_le 1

theorem inv_reachable {s : State} (h : Reachable derive crypto s) :
    ∃ A, Inv crypto A s := by
  refine h.inv (fun _ => inv_initial) fun s s' hs hstep => ?_
  obtain ⟨A, hinv⟩ := hs
  obtain ⟨a, ha⟩ := hstep
  exact ⟨A, inv_next hinv ha⟩

/-! ## The rows of the claim -/

/-- The request's own transaction committed, as the first and only one. -/
structure Claims (s s' : State) (i : Nat) (c : Consumption)
    (tables : ClaimTables) : Prop where
  consumed : Consumed s.tables.claimTables c tables
  owner : c.password.principalId = c.usedBy
  tables_eq : s'.tables = s.tables.claimed tables
  before : s.claims = []
  after : s'.claims = [⟨i, c⟩]

/-- What a step of a request does to the tables. -/
theorem step_cases {A : PrincipalId} {s s' : State} {i : Nat} {o : Oracle}
    (h : Inv crypto A s) (hstep : next derive crypto s (.step i o) = some s') :
    s'.tables = s.tables ∧ s'.claims = s.claims ∨
      ∃ c tables, Claims s s' i c tables := by
  simp only [next] at hstep
  split at hstep
  · next request n q k hi =>
      cases hstep
      have hf := h.flights i _ hi
      obtain ⟨hlawful, -⟩ := hf.safe n rfl
        (perform derive o q s.tables).1 _ rfl
      have heffect := @perform_effect derive _ _ _ o s.tables _ hlawful
      generalize perform derive o q s.tables = out at *
      obtain ⟨r, t⟩ := out
      cases heffect with
      | quiet claims notes =>
          refine .inl ⟨rfl, ?_⟩
          dsimp only
          rw [claims i]
          rfl
      | claim consumed =>
          have hc := consume_ok consumed
          obtain ⟨-, hadmin, -, -, -, howner, -⟩ := hlawful
          have hempty := h.unclaimed hc (howner.trans (hf.admin _ hadmin))
          refine .inr ⟨_, _, hc, howner, rfl, hempty, ?_⟩
          dsimp only [claimsOf]
          rw [hempty]
          rfl
  · cases hstep

/-- The code is marked, and what was inserted with it is as it was. -/
structure Kept (t : Tables) (c : Consumption) : Prop where
  code : ∃ row, t.codes.find c.codeId = some row ∧
    row.usedAt = some c.consumedAt ∧ row.usedBy = some c.usedBy
  password : t.store.credentials.find c.usedBy = some c.password
  authenticator : ∀ a, c.authenticator = some a → t.totp.find a.id = some a
  session : t.store.sessions.find c.session.id = some c.session

theorem Claims.kept {s s' : State} {i : Nat} {c : Consumption}
    {tables : ClaimTables} (h : Claims s s' i c tables) :
    Kept s'.tables c := by
  obtain ⟨hc, howner, htables, -, -⟩ := h
  rw [htables]
  obtain ⟨model, hmodel, hunused, hcodes⟩ := hc.unused
  have hkey : model.id = c.codeId := Table.key_of_find hmodel
  refine ⟨?_, ?_, fun a ha => ?_, ?_⟩
  · refine ⟨{ model with
      usedAt := some c.consumedAt
      usedBy := some c.usedBy }, ?_, rfl, rfl⟩
    show tables.codes.find c.codeId = _
    rw [hcodes, Table.find_replace, if_pos ⟨hkey, by rw [hmodel]; rfl⟩]
  · show tables.credentials.find c.usedBy = _
    rw [hc.password, Table.find_insertNew, if_pos ⟨howner, howner ▸ hc.fresh⟩]
  · show tables.totp.find a.id = _
    rcases hc.authenticator with ⟨-, hnone⟩ | ⟨b, hb, hnew, htotp⟩
    · rw [hnone] at ha
      cases ha
    · rw [hb] at ha
      cases ha
      rw [htotp, Table.find_insertNew, if_pos ⟨rfl, hnew⟩]
  · show tables.sessions.find c.session.id = _
    rw [hc.session, if_pos rfl]

/-- The used codes are those of the claims. -/
structure Exact (s : State) : Prop where
  used : ∀ code ∈ s.tables.codes.rows, code.usedAt.isSome = true →
    ∃ c ∈ s.claims, c.consumption.codeId = code.id
  kept : ∀ c ∈ s.claims, Kept s.tables c.consumption

theorem Exact.claim {s s' : State} {i : Nat} {c : Consumption}
    {tables : ClaimTables} (h : Exact s) (hc : Claims s s' i c tables) :
    Exact s' where
  used := fun code hcode hused => by
    obtain ⟨model, hmodel, -, hcodes⟩ := hc.consumed.unused
    have hkey : model.id = c.codeId := Table.key_of_find hmodel
    have hrows : s'.tables.codes = s.tables.codes.replace { model with
        usedAt := some c.consumedAt
        usedBy := some c.usedBy } := by
      rw [hc.tables_eq]
      exact hcodes
    rw [hrows] at hcode
    rw [hc.after]
    rcases (Table.mem_replace (hkey ▸ hmodel)).mp hcode with rfl | ⟨hold, -⟩
    · exact ⟨_, List.mem_singleton_self _, hkey.symm⟩
    · obtain ⟨c', hc', -⟩ := h.used code hold hused
      rw [hc.before] at hc'
      cases hc'
  kept := fun c' hc' => by
    rw [hc.after] at hc'
    rw [List.mem_singleton.mp hc']
    exact hc.kept

theorem Exact.create {s : State} {code : BootstrapCodeId} {codeHash : Bytes}
    {createdAt : Instant} (h : Exact s)
    (hnew : s.tables.codes.find code = none) :
    Exact { s with tables := { s.tables with
      codes := s.tables.codes.insertNew (.new code codeHash createdAt) } } where
  used := fun row hrow hused => by
    dsimp only at hrow
    rw [Table.rows_insertNew hnew] at hrow
    rcases List.mem_append.mp hrow with hrow | hrow
    · exact h.used row hrow hused
    · rw [List.mem_singleton.mp hrow] at hused
      cases hused
  kept := fun c hc => by
    obtain ⟨row, hrow, hused⟩ := (h.kept c hc).code
    refine ⟨⟨row, ?_, hused⟩, (h.kept c hc).password,
      (h.kept c hc).authenticator, (h.kept c hc).session⟩
    dsimp only
    rw [Table.find_insertNew, if_neg, hrow]
    rintro ⟨-, hnone⟩
    rw [hrow] at hnone
    cases hnone

theorem exact_next {A : PrincipalId} {s s' : State} {a : Label}
    (h : Inv crypto A s) (he : Exact s)
    (hstep : nextAlone derive crypto s a = some s') : Exact s' := by
  unfold nextAlone at hstep
  cases a with
  | begin request ip secure =>
      cases hstep
      exact ⟨he.used, he.kept⟩
  | step i o =>
      rcases step_cases h hstep with ⟨htables, hclaims⟩ | ⟨c, tables, hc⟩
      · exact ⟨by rw [htables, hclaims]; exact he.used,
          by rw [htables, hclaims]; exact he.kept⟩
      · exact he.claim hc
  | createCode id codeHash createdAt =>
      have hstep : next derive crypto s (.createCode id codeHash createdAt) =
        some s' := hstep
      simp only [next, createBootstrapCode] at hstep
      split at hstep
      · cases hstep
      · next codes hcreate =>
          split at hcreate
          · cases hcreate
          · next hnew =>
              cases hcreate
              cases hstep
              exact he.create (Option.not_isSome_iff_eq_none.mp hnew)
  | elsewhere tables => cases hstep

theorem exact_reachable {s : State} (h : ReachableAlone derive crypto s) :
    Exact s := by
  have hall : (∃ A, Inv crypto A s) ∧ Exact s := by
    refine h.inv (P := fun s => (∃ A, Inv crypto A s) ∧ Exact s)
      (fun s hs => ⟨inv_initial hs, ?_, ?_⟩) fun s s' hs hstep => ?_
    · intro code hcode hused
      rw [hs.1 code hcode] at hused
      cases hused
    · rw [hs.2.2.2]
      exact fun _ hc => absurd hc List.not_mem_nil
    · obtain ⟨⟨A, hinv⟩, he⟩ := hs
      obtain ⟨a, ha⟩ := hstep
      refine ⟨⟨A, ?_⟩, exact_next hinv he ha⟩
      unfold nextAlone at ha
      split at ha
      · exact inv_next hinv ha
      · cases ha
  exact hall.2

/-- At most one claim commits, and it is the answer of the one request that
answers success. A step of a request changes no table unless it is that
transaction. With nothing but claims going on, a code is marked if and only if
the password, the authenticator and the session of its request are stored. -/
theorem claimed_once (derive : Bytes → String → Bytes) (crypto : Crypto) :
    (∀ s, Reachable derive crypto s → s.claims.length ≤ 1 ∧
      ∀ c ∈ s.claims, ∃ f, s.flights[c.flight]? = some f ∧
        Requested crypto f.request c.consumption ∧
        Hashed crypto s.tables f.request c.consumption.codeId) ∧
    (∀ s, Reachable derive crypto s → ∀ (i : Nat) f r,
      s.flights[i]? = some f → f.rest = .ret r →
        (r.isSuccess = true ↔ ∃ c ∈ s.claims, c.flight = i)) ∧
    (∀ s, Reachable derive crypto s → ∀ i o s',
      next derive crypto s (.step i o) = some s' →
        s'.tables = s.tables ∧ s'.claims = s.claims ∨
          ∃ c, s.claims = [] ∧ s'.claims = [c] ∧ c.flight = i) ∧
    ∀ s, ReachableAlone derive crypto s → ∀ code ∈ s.tables.codes.rows,
      (code.usedAt.isSome = true ↔ ∃ c ∈ s.claims,
        c.consumption.codeId = code.id ∧ Kept s.tables c.consumption) := by
  refine ⟨fun s hs => ?_, fun s hs i f r hf hr => ?_, fun s hs i o s' hstep => ?_,
    fun s hs code hcode => ⟨fun hused => ?_, ?_⟩⟩
  · obtain ⟨A, h⟩ := inv_reachable hs
    exact ⟨h.few, h.made⟩
  · obtain ⟨A, h⟩ := inv_reachable hs
    have hsafe := (h.flights i f hf).safe
    rw [hr] at hsafe
    exact hsafe.trans (h.flags i f hf)
  · obtain ⟨A, h⟩ := inv_reachable hs
    rcases step_cases h hstep with hsame | ⟨c, tables, hc⟩
    · exact .inl hsame
    · exact .inr ⟨_, hc.before, hc.after, rfl⟩
  · have he := exact_reachable hs
    obtain ⟨c, hc, hid⟩ := he.used code hcode hused
    exact ⟨c, hc, hid, he.kept c hc⟩
  · rintro ⟨c, -, hid, hkept⟩
    obtain ⟨row, hrow, hused, -⟩ := hkept.code
    obtain ⟨hmem, hkey⟩ := Table.find_eq_some_iff.mp hrow
    have hcode' := Table.find_eq_some_iff.mpr ⟨hcode, hid.symm⟩
    rw [hrow] at hcode'
    cases hcode'
    rw [hused]
    rfl

end Rutilus.Proofs.ClaimRuns
