import Rutilus.Lib.Runs
import Rutilus.Proofs.RunPhases

/-!
# The parts of a run

Every part is a contract over one call or a few: opening or making the key keeps
the account as it is (`Same`), and setting up the account ends with a code that
was shown, or found, or fails (`Done`).
-/

namespace Rutilus.Proofs.RunSeeding

open Rutilus.Domain Rutilus.Domain.User Rutilus.Lib Rutilus.Store
open Rutilus.App.Initialization Rutilus.Proofs.RunPhases

variable {protection : Protection} {passphrase : String}
  {hashBootstrapCode : String → Bytes}

/-! ## Runs -/

variable (protection passphrase hashBootstrapCode) in
/-- Between two calls of a run. -/
structure Whole (w : World) : Prop where
  keyed : Keyed protection passphrase (keysOf w)
  sound : Sound hashBootstrapCode (seedOf w)

variable (protection passphrase hashBootstrapCode) in
/-- Where a run may end. -/
structure Calm (w : World) : Prop where
  keyed : Keyed protection passphrase (keysOf w)
  rest : Rest hashBootstrapCode (seedOf w)

theorem Calm.whole {w : World}
    (h : Calm protection passphrase hashBootstrapCode w) :
    Whole protection passphrase hashBootstrapCode w :=
  ⟨h.keyed, .inl h.rest⟩

variable (protection passphrase hashBootstrapCode) in
abbrev RunSafe {α : Type} (p : Prog initSig α) (Q : α → World → Prop)
    (w : World) : Prop :=
  Safe (Did protection passphrase) Eq
    (fun _ _ w' => Whole protection passphrase hashBootstrapCode w') p Q w

section Calls

variable {α β : Type} {w : World} {wrap : Failed → InitializationError}

theorem call_safe {q : InitReq} {Q : q.Resp → World → Prop}
    (h : ∀ r w', Did protection passphrase q w r w' →
      Whole protection passphrase hashBootstrapCode w' ∧ Q r w') :
    RunSafe protection passphrase hashBootstrapCode (call q) Q w := by
  rintro w₁ rfl r w' hdid
  exact h r w' hdid

theorem look_safe {q : InitReq} (hq : looks q = true)
    (hw : Whole protection passphrase hashBootstrapCode w) :
    RunSafe protection passphrase hashBootstrapCode (call q)
      (fun _ w' => w' = w) w :=
  call_safe fun r w' hdid => by
    rw [did_looks hq hdid]
    exact ⟨hw, rfl⟩

/-- An answer that is made up. -/
theorem look {q : InitReq} {f : q.Resp → Init α}
    {Q : Except InitializationError α → World → Prop} (hq : looks q = true)
    (hw : Whole protection passphrase hashBootstrapCode w)
    (h : ∀ r, RunSafe protection passphrase hashBootstrapCode (f r) Q w) :
    RunSafe protection passphrase hashBootstrapCode
      (liftM (call q) >>= f : Init α) Q w :=
  Safe.bindE.mpr (Safe.liftE.mpr ((look_safe hq hw).imp fun r w' heq => by
    rw [heq]
    exact h r))

/-- A call that may fail: a failed one ends the run. -/
theorem tried {p : Prog initSig (Except Failed β)} {f : β → Init α}
    {Q : Except InitializationError α → World → Prop}
    {J : Except Failed β → World → Prop}
    (hp : RunSafe protection passphrase hashBootstrapCode p J w)
    (hfail : ∀ e w', J (.error .failed) w' → Q (.error e) w')
    (h : ∀ b w', J (.ok b) w' →
      RunSafe protection passphrase hashBootstrapCode (f b) Q w') :
    RunSafe protection passphrase hashBootstrapCode
      (orThrow p wrap >>= f : Init α) Q w :=
  Safe.bindE.mpr (Safe.orThrow.mpr (hp.imp fun r w' hr => by
    cases r with
    | error e => exact hfail _ w' hr
    | ok b => exact h b w' hr))

/-- What every program here leaves when it fails. -/
def Fails (protection : Protection) (passphrase : String)
    (hashBootstrapCode : String → Bytes)
    (Q : Except InitializationError α → World → Prop) : Prop :=
  ∀ e w, Calm protection passphrase hashBootstrapCode w → Q (.error e) w

theorem looked {p : Prog initSig (Except Failed β)} {f : β → Init α}
    {Q : Except InitializationError α → World → Prop}
    (hp : RunSafe protection passphrase hashBootstrapCode p
      (fun _ w' => w' = w) w)
    (hw : Calm protection passphrase hashBootstrapCode w)
    (hQ : Fails protection passphrase hashBootstrapCode Q)
    (h : ∀ b, RunSafe protection passphrase hashBootstrapCode (f b) Q w) :
    RunSafe protection passphrase hashBootstrapCode
      (orThrow p wrap >>= f : Init α) Q w :=
  tried hp (fun e w' heq => hQ e w' (heq ▸ hw)) fun b w' heq => by
    rw [heq]
    exact h b

end Calls

/-! ### The key -/

section MasterKey

variable {w : World}

/-- The same account and code. -/
def Same (protection : Protection) (passphrase : String) (w : World)
    {α : Type} : α → World → Prop :=
  fun _ w' => Keyed protection passphrase (keysOf w') ∧ seedOf w' = seedOf w

theorem migrateLegacy_safe {envelope : App.Initialization.Envelope}
    (hw : Whole protection passphrase hashBootstrapCode w)
    (hkey : w.disk.key = some envelope) :
    RunSafe protection passphrase hashBootstrapCode
      (migrateLegacy protection passphrase envelope)
      (Same protection passphrase w) w := by
  refine look rfl hw fun nonce => ?_
  split
  · exact ⟨hw.keyed, rfl⟩
  · next current hwrap =>
      refine Safe.bindE.mpr (Safe.liftE.mpr (call_safe fun r w' hdid => ?_))
      obtain ⟨o, hdid⟩ := hdid
      simp only [perform] at hdid
      split at hdid
      · cases hdid
        exact ⟨hw, hw.keyed, rfl⟩
      · cases hdid
        have hkeyed := hw.keyed.rewrapped hkey hwrap
        exact ⟨⟨hkeyed, hw.sound⟩, hkeyed, rfl⟩

theorem resumeKey_safe (hw : Whole protection passphrase hashBootstrapCode w) :
    RunSafe protection passphrase hashBootstrapCode
      (resumeKey protection passphrase) (Same protection passphrase w) w := by
  have hload : RunSafe protection passphrase hashBootstrapCode (call .loadKey)
      (fun r w' => Same protection passphrase w r w' ∧
        ∀ envelope, r = .ok envelope → w'.disk.key = some envelope) w := by
    refine call_safe fun r w' hdid => ?_
    obtain ⟨o, hdid⟩ := hdid
    simp only [perform] at hdid
    split at hdid
    · next envelope hkey =>
        split at hdid
        · cases hdid
          exact ⟨hw, ⟨hw.keyed, rfl⟩, nofun⟩
        · cases hdid
          have hkeyed := hw.keyed.opened hkey
          refine ⟨⟨hkeyed, hw.sound⟩, ⟨hkeyed, rfl⟩, fun envelope' h => ?_⟩
          cases h
          exact hkey
    · cases hdid
      exact ⟨hw, ⟨hw.keyed, rfl⟩, nofun⟩
  refine tried hload (fun e w' h => h.1) fun envelope w' h => ?_
  obtain ⟨hsame, hkey⟩ := h
  have hw' : Whole protection passphrase hashBootstrapCode w' :=
    ⟨hsame.1, hsame.2 ▸ hw.sound⟩
  split
  · exact hsame
  · split
    · refine Safe.bindE.mpr
        ((migrateLegacy_safe hw' (hkey envelope rfl)).imp fun r w'' h => ?_)
      have hthere : Same protection passphrase w r w'' :=
        ⟨h.1, h.2.trans hsame.2⟩
      cases r with
      | error e => exact hthere
      | ok u => exact hthere
    · exact hsame

theorem createKey_safe {databaseExists : Bool}
    (hw : Whole protection passphrase hashBootstrapCode w) :
    RunSafe protection passphrase hashBootstrapCode
      (createKey protection passphrase databaseExists)
      (Same protection passphrase w) w := by
  have hsame : ∀ {α : Type} {r : α}, Same protection passphrase w r w :=
    ⟨hw.keyed, rfl⟩
  unfold createKey
  split
  · exact hsame
  · refine tried (look_safe rfl hw) (fun e w' heq => heq ▸ hsame)
      fun key w' heq => ?_
    subst heq
    refine look rfl hw fun nonce => ?_
    refine tried (J := Same protection passphrase w')
      (call_safe fun r w'' hdid => ?_) (fun e w'' h => h) fun u w'' h => h
    obtain ⟨o, hdid⟩ := hdid
    simp only [perform] at hdid
    split at hdid
    · cases hdid
      exact ⟨hw, hsame⟩
    · next hnone =>
        cases hdid
        have hkeyed := hw.keyed.first (protection.protect nonce key passphrase)
          (Option.not_isSome_iff_eq_none.mp fun h => hnone (.inr h))
        exact ⟨⟨hkeyed, hw.sound⟩, hkeyed, rfl⟩

theorem masterKey_safe {keyExists databaseExists : Bool}
    (hw : Whole protection passphrase hashBootstrapCode w) :
    RunSafe protection passphrase hashBootstrapCode
      (masterKey protection passphrase keyExists databaseExists)
      (Same protection passphrase w) w := by
  unfold masterKey
  split
  · exact resumeKey_safe hw
  · exact createKey_safe hw

end MasterKey

/-! ### The account -/

section Account

variable {w : World} {Q : Except InitializationError Unit → World → Prop}

theorem createPrincipal_safe {principal : Principal}
    (hkeyed : Keyed protection passphrase (keysOf w))
    (hfresh : Fresh (seedOf w)) :
    RunSafe protection passphrase hashBootstrapCode
      (call (.createPrincipal principal))
      (fun r w' => Keyed protection passphrase (keysOf w') ∧
        Fresh (seedOf w') ∧ (r = .ok () → ∃ d, w'.disk.database = some d ∧
          principal ∈ d.principals.rows)) w := by
  refine call_safe fun r w' hdid => ?_
  obtain ⟨o, hdid⟩ := hdid
  rcases onDatabase_cases hdid with ⟨⟨e, rfl⟩, rfl⟩ | ⟨d, a, d', hd, hf, -, rfl⟩
  · exact ⟨⟨hkeyed, .inl (.inl hfresh)⟩, hkeyed, hfresh, nofun⟩
  · cases hcreate : App.Initialization.createPrincipal d.principals principal with
    | error e =>
        rw [hcreate] at hf
        cases hf
    | ok principals =>
        rw [hcreate] at hf
        cases hf
        have hfresh' : Fresh (seedOf { w with disk := { w.disk with
            database := some { d with principals } } }) :=
          { hfresh with
            codes := fun d' h => by
              cases h
              exact hfresh.codes d hd }
        refine ⟨⟨hkeyed, .inl (.inl hfresh')⟩, hkeyed, hfresh', fun _ =>
          ⟨_, rfl, ?_⟩⟩
        unfold App.Initialization.createPrincipal at hcreate
        split at hcreate
        · cases hcreate
        · next hnew =>
            cases hcreate
            dsimp only
            rw [Table.rows_insertNew
              (Option.not_isSome_iff_eq_none.mp fun h => hnew (.inl h))]
            exact List.mem_append_right _ (List.mem_singleton_self _)

theorem assignRole_safe {assignment : RoleAssignment} {principal : Principal}
    (hkeyed : Keyed protection passphrase (keysOf w))
    (hfresh : Fresh (seedOf w))
    (hin : ∃ d, w.disk.database = some d ∧ principal ∈ d.principals.rows)
    (hname : PrincipalName.parse bootstrapPrincipalName = some principal.name)
    (hid : assignment.principalId = principal.id)
    (hrole : assignment.role = .administrator) :
    RunSafe protection passphrase hashBootstrapCode
      (call (.assignRole assignment))
      (fun r w' => Keyed protection passphrase (keysOf w') ∧
        Fresh (seedOf w') ∧ (r = .ok () → ∃ d, w'.disk.database = some d ∧
          Administered d)) w := by
  refine call_safe fun r w' hdid => ?_
  obtain ⟨o, hdid⟩ := hdid
  rcases onDatabase_cases hdid with ⟨⟨e, rfl⟩, rfl⟩ | ⟨d, a, d', hd, hf, -, rfl⟩
  · exact ⟨⟨hkeyed, .inl (.inl hfresh)⟩, hkeyed, hfresh, nofun⟩
  · cases hassign : Store.assignRole ⟨d.principals.has, fun _ => false⟩ d.roles
        assignment with
    | error e =>
        rw [hassign] at hf
        cases hf
    | ok roles =>
        rw [hassign] at hf
        cases hf
        have hfresh' : Fresh (seedOf { w with disk := { w.disk with
            database := some { d with roles } } }) :=
          { hfresh with
            codes := fun d' h => by
              cases h
              exact hfresh.codes d hd }
        refine ⟨⟨hkeyed, .inl (.inl hfresh')⟩, hkeyed, hfresh', fun _ =>
          ⟨_, rfl, principal, ?_, hname, ?_⟩⟩
        · obtain ⟨d', hd', hin⟩ := hin
          rw [hd] at hd'
          cases hd'
          exact hin
        · have hfind := assignRole_find hassign assignment.principalId
          rw [if_pos rfl] at hfind
          obtain ⟨hmem, -⟩ := Table.find_eq_some_iff.mp hfind
          exact ⟨_, hmem, hid, hrole⟩

theorem createBootstrapCode_safe {code : BootstrapCode}
    (hkeyed : Keyed protection passphrase (keysOf w))
    (hfresh : Fresh (seedOf w))
    (hadmin : ∃ d, w.disk.database = some d ∧ Administered d)
    (hunused : code.usedAt = none) :
    RunSafe protection passphrase hashBootstrapCode
      (call (.createBootstrapCode code))
      (fun r w' => Keyed protection passphrase (keysOf w') ∧ match r with
        | .ok _ => Held (seedOf w') code
        | .error _ => Fresh (seedOf w')) w := by
  refine call_safe fun r w' hdid => ?_
  obtain ⟨o, hdid⟩ := hdid
  simp only [perform] at hdid
  split at hdid
  · next u w'' hstore =>
      cases hdid
      rcases onDatabase_cases hstore with
        ⟨⟨e, h⟩, -⟩ | ⟨d, a, d', hd, hf, -, rfl⟩
      · cases h
      · have hnone := hfresh.codes d hd
        have hfind : d.codes.find code.id = none := by
          rw [Table.find_eq_none_iff, hnone]
          exact nofun
        unfold Store.createBootstrapCode at hf
        rw [if_neg fun h => by
          rw [Table.has, hfind] at h
          cases h] at hf
        cases hf
        obtain ⟨d', hd', hadmin⟩ := hadmin
        rw [hd] at hd'
        cases hd'
        have hheld : Held (seedOf { w with
            disk := { w.disk with database := some { d with
              codes := d.codes.insertNew code } }
            codesMade := code :: w.codesMade
            unprinted := true }) code :=
          { stored := ⟨_, rfl, hadmin, by
              rw [Table.rows_insertNew hfind, hnone]
              rfl⟩
            unused := hunused
            made := congrArg (code :: ·) hfresh.made
            unprinted := rfl
            printed := hfresh.printed
            cut := hfresh.cut }
        exact ⟨⟨hkeyed, .inr ⟨code, hheld⟩⟩, hkeyed, hheld⟩
  · next e w'' hstore =>
      cases hdid
      rcases onDatabase_cases hstore with ⟨-, rfl⟩ | ⟨d, a, d', hd, hf, h, -⟩
      · exact ⟨⟨hkeyed, .inl (.inl hfresh)⟩, hkeyed, hfresh⟩
      · cases h

variable (protection passphrase hashBootstrapCode) in
/-- How setting the account up ends. -/
def Done (r : Except InitializationError Unit) (w : World) : Prop :=
  Calm protection passphrase hashBootstrapCode w ∧
    (r = .ok () → ∃ code, Pending hashBootstrapCode (seedOf w) code)

theorem println_safe {code : BootstrapCode} {raw : String}
    (hkeyed : Keyed protection passphrase (keysOf w))
    (hheld : Held (seedOf w) code)
    (hhash : code.codeHash = hashBootstrapCode raw) :
    RunSafe protection passphrase hashBootstrapCode (do
      let _ ← call (.println (bootstrapLine raw))
      let _ ← call (.println instructionLine) : Init Unit)
      (Done protection passphrase hashBootstrapCode) w := by
  refine Safe.bindE.mpr (Safe.liftE.mpr (call_safe fun r w' hdid => ?_))
  obtain ⟨o, hdid⟩ := hdid
  cases hdid
  have hpending := hheld.println hhash
  refine ⟨⟨hkeyed, .inl (.inr ⟨code, hpending⟩)⟩, ?_⟩
  refine Safe.bindE.mpr (Safe.liftE.mpr (call_safe fun r w' hdid => ?_))
  obtain ⟨o, hdid⟩ := hdid
  cases hdid
  have hpending' := hpending.println instructionLine hheld.cut
  have hcalm : Rest hashBootstrapCode _ := .inr ⟨code, hpending'⟩
  exact ⟨⟨hkeyed, .inl hcalm⟩, ⟨hkeyed, hcalm⟩, fun _ => ⟨code, hpending'⟩⟩

theorem seedAdministrator_safe {adminName : PrincipalName}
    (hkeyed : Keyed protection passphrase (keysOf w))
    (hfresh : Fresh (seedOf w))
    (hname : PrincipalName.parse bootstrapPrincipalName = some adminName) :
    RunSafe protection passphrase hashBootstrapCode
      (seedAdministrator hashBootstrapCode adminName)
      (Done protection passphrase hashBootstrapCode) w := by
  have hdone : ∀ {w} e, Keyed protection passphrase (keysOf w) →
      Fresh (seedOf w) →
      Done protection passphrase hashBootstrapCode (.error e) w :=
    fun _ hkeyed hfresh => ⟨⟨hkeyed, .inl hfresh⟩, nofun⟩
  have hw : Whole protection passphrase hashBootstrapCode w :=
    ⟨hkeyed, .inl (.inl hfresh)⟩
  refine look rfl hw fun now => look rfl hw fun id => ?_
  refine tried (createPrincipal_safe hkeyed hfresh)
    (fun e w' h => hdone e h.1 h.2.1) fun u w' h => ?_
  obtain ⟨hkeyed, hfresh, hin⟩ := h
  refine tried (assignRole_safe hkeyed hfresh (hin rfl) hname rfl rfl)
    (fun e w' h => hdone e h.1 h.2.1) fun u w' h => ?_
  obtain ⟨hkeyed, hfresh, hadmin⟩ := h
  have hw : Whole protection passphrase hashBootstrapCode w' :=
    ⟨hkeyed, .inl (.inl hfresh)⟩
  refine tried (look_safe rfl hw) (fun e w' heq => ?_) fun raw w'' heq => ?_
  · rw [heq]
    exact hdone e hkeyed hfresh
  · subst heq
    refine look rfl hw fun codeId => ?_
    refine tried (createBootstrapCode_safe hkeyed hfresh (hadmin rfl) rfl)
      (fun e w' h => hdone e h.1 h.2) fun u w' h => ?_
    exact println_safe h.1 h.2 rfl

/-- The account is there exactly when its code is. -/
theorem findPrincipalByName_safe {name : PrincipalName}
    (hname : PrincipalName.parse bootstrapPrincipalName = some name)
    (hw : Calm protection passphrase hashBootstrapCode w) :
    RunSafe protection passphrase hashBootstrapCode
      (call (.findPrincipalByName name))
      (fun r w' => w' = w ∧ (r = .ok none → Fresh (seedOf w))) w := by
  refine call_safe fun r w' hdid => ?_
  have heq := did_looks rfl hdid
  subst heq
  refine ⟨hw.whole, rfl, ?_⟩
  rintro rfl
  rcases hw.rest with hfresh | ⟨code, hpending⟩
  · exact hfresh
  · obtain ⟨o, hdid⟩ := hdid
    rcases onDatabase_cases hdid with ⟨⟨e, h⟩, -⟩ | ⟨d, a, d', hd, hf, ha, -⟩
    · cases h
    · cases ha
      obtain ⟨d₂, hd₂, ⟨principal, hin, hparse, -⟩, -⟩ := hpending.stored
      have hd₂ : w'.disk.database = some d₂ := hd₂
      rw [hd] at hd₂
      cases hd₂
      rw [hname] at hparse
      have hsome : (d.principals.rows.find? fun row => row.name = name).isSome :=
        List.find?_isSome.mpr ⟨principal, hin,
          decide_eq_true (Option.some.inj hparse).symm⟩
      unfold Store.findPrincipalByName at hf
      split at hf
      · next hnone =>
          rw [hnone] at hsome
          cases hsome
      · next row hrow =>
          cases hstored : mapStoredPrincipal row with
          | error e =>
              rw [hstored] at hf
              cases hf
          | ok principal =>
              rw [hstored] at hf
              cases hf

theorem hasUnconsumedBootstrapCode_safe
    (hw : Calm protection passphrase hashBootstrapCode w) :
    RunSafe protection passphrase hashBootstrapCode
      (call .hasUnconsumedBootstrapCode)
      (fun r w' => w' = w ∧ (r = .ok true →
        ∃ code, Pending hashBootstrapCode (seedOf w) code)) w := by
  refine call_safe fun r w' hdid => ?_
  have heq := did_looks rfl hdid
  subst heq
  refine ⟨hw.whole, rfl, ?_⟩
  rintro rfl
  rcases hw.rest with hfresh | hpending
  · obtain ⟨o, hdid⟩ := hdid
    have hdid : onDatabase (ε := Unit) o w' (fun d =>
      .ok (Store.hasUnconsumedBootstrapCode d.codes, d)) = (.ok true, w') := hdid
    rcases onDatabase_cases hdid with ⟨⟨e, h⟩, -⟩ | ⟨d, a, d', hd, hf, ha, -⟩
    · cases h
    · cases ha
      have hany : Store.hasUnconsumedBootstrapCode d.codes = true :=
        congrArg Prod.fst (Except.ok.inj hf)
      rw [Store.hasUnconsumedBootstrapCode, hfresh.codes d hd] at hany
      cases hany
  · exact hpending

theorem seedBootstrapAdministrator_safe
    (hw : Calm protection passphrase hashBootstrapCode w) :
    RunSafe protection passphrase hashBootstrapCode
      (seedBootstrapAdministrator hashBootstrapCode)
      (Done protection passphrase hashBootstrapCode) w := by
  have hfail : ∀ {w'} e, w' = w →
      Done protection passphrase hashBootstrapCode (.error e) w' :=
    fun _ heq => heq ▸ ⟨hw, nofun⟩
  unfold seedBootstrapAdministrator
  split
  · exact hfail _ rfl
  · next adminName hname =>
      refine tried (findPrincipalByName_safe hname hw) (fun e w' h => hfail e h.1)
        fun found w' h => ?_
      obtain ⟨rfl, hfound⟩ := h
      cases found with
      | none => exact seedAdministrator_safe hw.keyed (hfound rfl) hname
      | some principal =>
          refine tried (hasUnconsumedBootstrapCode_safe hw)
            (fun e w' h => hfail e h.1) fun pending w'' h => ?_
          obtain ⟨rfl, hpending⟩ := h
          cases pending with
          | true => exact ⟨hw, fun _ => hpending rfl⟩
          | false => exact hfail _ rfl

end Account

end Rutilus.Proofs.RunSeeding

/-!
## Initialization, stopped and resumed

A run that ends well leaves a code that is `Pending`. Whether the operator has
seen it is decided at one place: by a stop right after the code was stored.
-/

namespace Rutilus.Proofs.FirstRun

open Rutilus.Domain Rutilus.Domain.User Rutilus.Lib Rutilus.Store
open Rutilus.App.Initialization Rutilus.Proofs.RunPhases
  Rutilus.Proofs.RunSeeding

variable {protection : Protection} {passphrase : String}
  {hashBootstrapCode : String → Bytes}

/-! ## The whole run -/

section Run

variable {w : World}

variable (protection passphrase hashBootstrapCode) in
/-- How a run ends. -/
def Ended (r : Except InitializationError InitializationOutcome) (w : World) :
    Prop :=
  Calm protection passphrase hashBootstrapCode w ∧
    ∀ outcome, r = .ok outcome →
      ∃ code, Pending hashBootstrapCode (seedOf w) code

theorem openStore_safe (hw : Calm protection passphrase hashBootstrapCode w) :
    RunSafe protection passphrase hashBootstrapCode (call .openStore)
      (fun _ w' => Calm protection passphrase hashBootstrapCode w') w := by
  refine call_safe fun r w' hdid => ?_
  obtain ⟨o, hdid⟩ := hdid
  simp only [perform] at hdid
  split at hdid
  · cases hdid
    exact ⟨hw.whole, hw⟩
  · cases hdid
    have hcalm : Calm protection passphrase hashBootstrapCode { w with
        disk := { w.disk with
          database := some (w.disk.database.getD .empty) } } := by
      refine ⟨hw.keyed, ?_⟩
      rcases hw.rest with hfresh | ⟨code, hpending⟩
      · refine .inl { hfresh with codes := fun d hd => ?_ }
        cases hd
        cases hdatabase : w.disk.database with
        | none => rfl
        | some d => exact hfresh.codes d hdatabase
      · obtain ⟨d, hd, hcoded⟩ := hpending.stored
        have hd : w.disk.database = some d := hd
        refine .inr ⟨code, { hpending with
          stored := ⟨d, ?_, hcoded⟩ }⟩
        show some (w.disk.database.getD .empty) = some d
        rw [hd]
        rfl
    exact ⟨hcalm.whole, hcalm⟩

theorem createMarker_safe {code : BootstrapCode}
    (hkeyed : Keyed protection passphrase (keysOf w))
    (hpending : Pending hashBootstrapCode (seedOf w) code) :
    RunSafe protection passphrase hashBootstrapCode (call .createMarker)
      (fun _ w' => Keyed protection passphrase (keysOf w') ∧
        Pending hashBootstrapCode (seedOf w') code) w := by
  refine call_safe fun r w' hdid => ?_
  obtain ⟨o, hdid⟩ := hdid
  simp only [perform] at hdid
  split at hdid
  · cases hdid
    exact ⟨⟨hkeyed, .inl (.inr ⟨code, hpending⟩)⟩, hkeyed, hpending⟩
  · cases hdid
    exact ⟨⟨hkeyed, .inl (.inr ⟨code, hpending⟩)⟩, hkeyed, hpending⟩

theorem initializeStandalone_safe
    (hw : Calm protection passphrase hashBootstrapCode w) :
    RunSafe protection passphrase hashBootstrapCode
      (initializeStandalone protection hashBootstrapCode passphrase)
      (Ended protection passphrase hashBootstrapCode) w := by
  have hfail : Fails protection passphrase hashBootstrapCode
      (Ended protection passphrase hashBootstrapCode) :=
    fun _ _ hw => ⟨hw, nofun⟩
  have hlook : ∀ {q : InitReq}, looks q = true →
      RunSafe protection passphrase hashBootstrapCode (call q)
        (fun _ w' => w' = w) w :=
    fun hq => look_safe hq hw.whole
  refine looked (hlook rfl) hw hfail fun u => ?_
  refine looked (hlook rfl) hw hfail fun keyExists => ?_
  refine looked (hlook rfl) hw hfail fun databaseExists => ?_
  refine looked (hlook rfl) hw hfail fun marker => ?_
  cases marker with
  | complete =>
      dsimp only
      split
      · exact hfail _ _ hw
      · exact hfail _ _ hw
  | missing =>
      refine Safe.bindE.mpr ((masterKey_safe hw.whole).imp fun r w' h => ?_)
      obtain ⟨hkeyed, hseed⟩ := h
      have hw' : Calm protection passphrase hashBootstrapCode w' :=
        ⟨hkeyed, hseed ▸ hw.rest⟩
      cases r with
      | error e => exact hfail e w' hw'
      | ok outcome =>
          refine tried (openStore_safe hw') hfail fun u w' hw' => ?_
          refine Safe.bindE.mpr ((seedBootstrapAdministrator_safe hw').imp
            fun r w' h => ?_)
          obtain ⟨hw', hpending⟩ := h
          cases r with
          | error e => exact hfail e w' hw'
          | ok u =>
              obtain ⟨code, hpending⟩ := hpending rfl
              refine looked (look_safe rfl hw'.whole) hw' hfail fun u => ?_
              refine tried (createMarker_safe hw'.keyed hpending)
                (fun e w' h => hfail e w' ⟨h.1, .inr ⟨code, h.2⟩⟩)
                fun u w' h => ?_
              exact ⟨⟨h.1, .inr ⟨code, h.2⟩⟩, fun _ _ => ⟨code, h.2⟩⟩

end Run

/-! ## Sequences of runs -/

variable (protection passphrase hashBootstrapCode) in
structure Inv (s : State) : Prop where
  whole : Whole protection passphrase hashBootstrapCode s.world
  idle : s.running = none → Rest hashBootstrapCode (seedOf s.world)
  busy : ∀ run, s.running = some run →
    RunSafe protection passphrase hashBootstrapCode run
      (Ended protection passphrase hashBootstrapCode) s.world

theorem Inv.initial {s : State} (h : Initial s) :
    Inv protection passphrase hashBootstrapCode s := by
  obtain ⟨hdatabase, -, hprinted, hused, hmade, hcodes, hunprinted, hcut,
    hidle⟩ := h
  have hnone : ∀ d, s.world.disk.database = some d → d.codes.rows = [] := by
    intro d hd
    rw [hdatabase] at hd
    cases hd
  have hfresh : Fresh (seedOf s.world) :=
    ⟨hnone, hprinted, hcodes, hunprinted, hcut⟩
  have hkeyed : Keyed protection passphrase (keysOf s.world) :=
    { used := fun key hin => by
        have hin : key ∈ s.world.used := hin
        rw [hused] at hin
        cases hin
      made := fun h => absurd hmade h
      few := by
        show s.world.keysMade.length ≤ 1
        rw [hmade]
        exact Nat.zero_le 1 }
  refine ⟨⟨hkeyed, .inl (.inl hfresh)⟩, fun _ => .inl hfresh, fun run h => ?_⟩
  rw [hidle] at h
  cases h

theorem Inv.step {s t : State} {l : Label}
    (h : Inv protection passphrase hashBootstrapCode s)
    (hstep : next protection passphrase hashBootstrapCode s l = some t) :
    Inv protection passphrase hashBootstrapCode t := by
  cases l with
  | begin =>
      simp only [next] at hstep
      split at hstep
      · next hidle =>
          cases hstep
          refine ⟨h.whole, nofun, fun run hrun => ?_⟩
          cases hrun
          exact initializeStandalone_safe ⟨h.whole.keyed, h.idle hidle⟩
      · cases hstep
  | step o =>
      simp only [next] at hstep
      split at hstep
      · next q k hrun =>
          cases hstep
          obtain ⟨hwhole, hsafe⟩ := h.busy _ hrun s.world rfl _ _ ⟨o, rfl⟩
          refine ⟨hwhole, nofun, fun run hrun => ?_⟩
          cases hrun
          exact hsafe
      · cases hstep
  | stop =>
      simp only [next] at hstep
      split at hstep
      · cases hstep
      · cases hstep
        have hrest := h.whole.sound.stop
        exact ⟨⟨h.whole.keyed, .inl hrest⟩, fun _ => hrest, nofun⟩

theorem reachable_inv {s : State}
    (h : Reachable protection passphrase hashBootstrapCode s) :
    Inv protection passphrase hashBootstrapCode s :=
  h.inv (fun _ => Inv.initial) fun _ _ hinv ⟨_, hstep⟩ => hinv.step hstep

/-- Whatever happens, one key and one code. A run that reports success leaves
everything the operator needs if and only if no run was stopped between storing
the code and showing it. -/
theorem seeded_iff_uncut (protection : Protection) (passphrase : String)
    (hashBootstrapCode : String → Bytes) :
    (∀ s, Reachable protection passphrase hashBootstrapCode s →
      s.world.keysMade.length ≤ 1 ∧ s.world.codesMade.length ≤ 1 ∧
      ∀ a ∈ s.world.used, ∀ b ∈ s.world.used, a = b) ∧
    (∀ s outcome, Reachable protection passphrase hashBootstrapCode s →
      s.running = some (.ret (.ok outcome)) →
      (Seeded hashBootstrapCode s.world ↔ s.world.cut = false)) := by
  refine ⟨fun s hs => ?_, fun s outcome hs hrun => ?_⟩
  · have hinv := reachable_inv hs
    exact ⟨hinv.whole.keyed.few, hinv.whole.sound.codes, hinv.whole.keyed.one⟩
  · obtain ⟨-, hended⟩ := (reachable_inv hs).busy _ hrun
    obtain ⟨code, hpending⟩ := hended outcome rfl
    exact hpending.seeded

/-! ## A lost code -/

/-- Keys in the clear. -/
def plainProtection : Protection where
  protect := fun _ key _ => key
  recover := fun envelope _ => some envelope
  isLegacy := fun _ => false
  rewrap := fun _ _ _ => none
  recover_protect := fun _ _ _ => rfl
  recover_rewrap := nofun

def plainHash (raw : String) : Bytes := raw.toByteArray.data.toList

def oracle : Oracle := ⟨false, [7], "ABCD-EFGH", 1, 0⟩

def emptyDirectory : State :=
  ⟨⟨⟨none, none, .missing⟩, [], [], [], [], false, false⟩, none⟩

/-- A run is stopped when it has stored the code; the next run is content. -/
def lostCode : List Label :=
  .begin :: List.replicate 16 (.step oracle) ++ .stop :: .begin ::
    List.replicate 10 (.step oracle)

/-- A run has ended well, and nothing was ever printed. -/
def endedSilently (s : State) : Bool :=
  match s.running with
  | some (.ret (.ok _)) => s.world.printed.isEmpty
  | _ => false

theorem lost_code : ¬ ∀ s outcome,
    Reachable plainProtection "passphrase" plainHash s →
    s.running = some (.ret (.ok outcome)) → Seeded plainHash s.world := by
  intro hall
  obtain ⟨s, hs, hend⟩ := exists_reach_of_follow Initial
    (next plainProtection "passphrase" plainHash) (s := emptyDirectory) lostCode
    endedSilently ⟨rfl, rfl, rfl, rfl, rfl, rfl, rfl, rfl, rfl⟩ (by decide +kernel)
  unfold endedSilently at hend
  split at hend
  · next outcome hrun =>
      obtain ⟨d, -, -, code, -, raw, -, hin⟩ := hall s outcome hs hrun
      rw [List.isEmpty_iff.mp hend] at hin
      cases hin
  · cases hend

end Rutilus.Proofs.FirstRun
