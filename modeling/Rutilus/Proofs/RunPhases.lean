import Rutilus.App.Initialization
import Rutilus.Lib.Rely

/-!
# The secret of the first run

What a stopped run leaves falls into two parts. The key file decides which key a
run works with; an opened key is always the one that is stored (`Keyed`), and the
store never makes a second one. Of the rest, a run is in one of three phases: no
code yet (`Fresh`), a code that is stored and not shown (`Held`), and a code that
no later run touches (`Pending`).

`Pending` remembers whether the code was shown. A run that is stopped while it
holds a code has lost it for good: the next run finds the administrator and a
code that is not used, and is content.
-/

namespace Rutilus.Proofs.RunPhases

open Rutilus.Domain Rutilus.Domain.User Rutilus.Lib Rutilus.Store
open Rutilus.App.Initialization

variable {protection : Protection} {passphrase : String}
  {hashBootstrapCode : String → Bytes}

/-! ## What a finished run promises -/

/-- The administrator's account is there, with its role. -/
def Administered (d : Database) : Prop :=
  ∃ principal ∈ d.principals.rows,
    PrincipalName.parse bootstrapPrincipalName = some principal.name ∧
    ∃ assignment ∈ d.roles.rows, assignment.principalId = principal.id ∧
      assignment.role = .administrator

/-- The code's raw value was printed. -/
def Shown (hashBootstrapCode : String → Bytes) (printed : List String)
    (code : BootstrapCode) : Prop :=
  ∃ raw, code.codeHash = hashBootstrapCode raw ∧ bootstrapLine raw ∈ printed

def Seeded (hashBootstrapCode : String → Bytes) (w : World) : Prop :=
  ∃ d, w.disk.database = some d ∧ Administered d ∧
    ∃ code, (d.codes.rows.filter fun row => row.usedAt = none) = [code] ∧
      Shown hashBootstrapCode w.printed code

/-! ## The key -/

structure Keys where
  key : Option App.Initialization.Envelope
  used : List MasterKey
  keysMade : List MasterKey

def keysOf (w : World) : Keys := ⟨w.disk.key, w.used, w.keysMade⟩

/-- A key that was used is the stored one. -/
structure Keyed (protection : Protection) (passphrase : String) (k : Keys) :
    Prop where
  used : ∀ key ∈ k.used, ∃ envelope, k.key = some envelope ∧
    protection.recover envelope passphrase = some key
  made : k.keysMade ≠ [] → k.key.isSome = true
  few : k.keysMade.length ≤ 1

theorem Keyed.one {k : Keys} (h : Keyed protection passphrase k) :
    ∀ a ∈ k.used, ∀ b ∈ k.used, a = b := by
  intro a ha b hb
  obtain ⟨envelope, hkey, hrecover⟩ := h.used a ha
  obtain ⟨envelope', hkey', hrecover'⟩ := h.used b hb
  rw [hkey] at hkey'
  cases hkey'
  rw [hrecover] at hrecover'
  exact Option.some.inj hrecover'

/-- Opening the stored key. -/
theorem Keyed.opened {k : Keys} {envelope : App.Initialization.Envelope}
    (h : Keyed protection passphrase k) (hkey : k.key = some envelope) :
    Keyed protection passphrase { k with
      used := (protection.recover envelope passphrase).toList ++ k.used } where
  used := fun key hin => by
    rcases List.mem_append.mp hin with hnew | hold
    · exact ⟨envelope, hkey, Option.mem_toList.mp hnew⟩
    · exact h.used key hold
  made := h.made
  few := h.few

/-- Wrapping the stored key anew. -/
theorem Keyed.rewrapped {k : Keys} {nonce : Bytes}
    {envelope current : App.Initialization.Envelope}
    (h : Keyed protection passphrase k)
    (hkey : k.key = some envelope)
    (hwrap : protection.rewrap nonce envelope passphrase = some current) :
    Keyed protection passphrase { k with key := some current } where
  used := fun key hin => by
    obtain ⟨old, hold, hrecover⟩ := h.used key hin
    rw [hkey] at hold
    cases hold
    exact ⟨current, rfl,
      (protection.recover_rewrap _ _ _ _ hwrap).trans hrecover⟩
  made := fun _ => rfl
  few := h.few

/-- The first key. -/
theorem Keyed.first {k : Keys} (h : Keyed protection passphrase k)
    (envelope : App.Initialization.Envelope) (hkey : k.key = none) :
    let made := (protection.recover envelope passphrase).toList
    Keyed protection passphrase
      ⟨some envelope, made ++ k.used, made ++ k.keysMade⟩ := by
  have hnone : k.keysMade = [] := by
    by_contra hmade
    have := h.made hmade
    rw [hkey] at this
    cases this
  refine ⟨fun key hin => ?_, fun _ => rfl, ?_⟩
  · rcases List.mem_append.mp hin with hnew | hold
    · exact ⟨envelope, rfl, Option.mem_toList.mp hnew⟩
    · obtain ⟨old, hold, -⟩ := h.used key hold
      rw [hkey] at hold
      cases hold
  · rw [hnone, List.append_nil]
    exact Option.length_toList_le

/-! ## The account and its code -/

structure Seed where
  database : Option Database
  printed : List String
  codesMade : List BootstrapCode
  unprinted : Bool
  cut : Bool

def seedOf (w : World) : Seed :=
  ⟨w.disk.database, w.printed, w.codesMade, w.unprinted, w.cut⟩

/-- No code yet. -/
structure Fresh (s : Seed) : Prop where
  codes : ∀ d, s.database = some d → d.codes.rows = []
  printed : s.printed = []
  made : s.codesMade = []
  unprinted : s.unprinted = false
  cut : s.cut = false

/-- One code, not used. -/
structure Coded (s : Seed) (code : BootstrapCode) : Prop where
  stored : ∃ d, s.database = some d ∧ Administered d ∧ d.codes.rows = [code]
  unused : code.usedAt = none
  made : s.codesMade = [code]

/-- The run has the code in hand. -/
structure Held (s : Seed) (code : BootstrapCode) : Prop extends
    Coded s code where
  unprinted : s.unprinted = true
  printed : s.printed = []
  cut : s.cut = false

/-- The code was shown, or is lost. -/
structure Pending (hashBootstrapCode : String → Bytes) (s : Seed)
    (code : BootstrapCode) : Prop extends Coded s code where
  unprinted : s.unprinted = false
  shown : s.cut = false → Shown hashBootstrapCode s.printed code
  lost : s.cut = true → s.printed = []

/-- Between two runs. -/
def Rest (hashBootstrapCode : String → Bytes) (s : Seed) : Prop :=
  Fresh s ∨ ∃ code, Pending hashBootstrapCode s code

/-- At any time. -/
def Sound (hashBootstrapCode : String → Bytes) (s : Seed) : Prop :=
  Rest hashBootstrapCode s ∨ ∃ code, Held s code

theorem Sound.codes {s : Seed} (h : Sound hashBootstrapCode s) :
    s.codesMade.length ≤ 1 := by
  rcases h with (hfresh | ⟨code, hpending⟩) | ⟨code, hheld⟩
  · rw [hfresh.made]
    exact Nat.zero_le 1
  · rw [hpending.made, List.length_singleton]
  · rw [hheld.made, List.length_singleton]

/-- What stopping a run leaves. -/
theorem Sound.stop {s : Seed} (h : Sound hashBootstrapCode s) :
    Rest hashBootstrapCode
      { s with cut := s.cut || s.unprinted, unprinted := false } := by
  rcases h with (hfresh | ⟨code, hpending⟩) | ⟨code, hheld⟩
  · exact .inl ⟨hfresh.codes, hfresh.printed, hfresh.made, rfl, by
      rw [hfresh.cut, hfresh.unprinted]
      rfl⟩
  · refine .inr ⟨code, ⟨hpending.stored, hpending.unused, hpending.made⟩, rfl,
      ?_, ?_⟩
    · rw [hpending.unprinted, Bool.or_false]
      exact hpending.shown
    · rw [hpending.unprinted, Bool.or_false]
      exact hpending.lost
  · refine .inr ⟨code, ⟨hheld.stored, hheld.unused, hheld.made⟩, rfl, ?_,
      fun _ => hheld.printed⟩
    rw [hheld.unprinted, Bool.or_true]
    exact nofun

theorem Held.println {s : Seed} {code : BootstrapCode} {raw : String}
    (h : Held s code) (hhash : code.codeHash = hashBootstrapCode raw) :
    Pending hashBootstrapCode { s with
      printed := s.printed ++ [bootstrapLine raw]
      unprinted := false } code where
  stored := h.stored
  unused := h.unused
  made := h.made
  unprinted := rfl
  shown := fun _ => ⟨raw, hhash,
    List.mem_append_right _ (List.mem_singleton_self _)⟩
  lost := fun hcut => by
    rw [h.cut] at hcut
    cases hcut

/-- Another line changes nothing, unless the code is lost. -/
theorem Pending.println {s : Seed} {code : BootstrapCode}
    (h : Pending hashBootstrapCode s code) (line : String) (hcut : s.cut = false) :
    Pending hashBootstrapCode { s with
      printed := s.printed ++ [line]
      unprinted := false } code where
  stored := h.stored
  unused := h.unused
  made := h.made
  unprinted := rfl
  shown := fun _ => by
    obtain ⟨raw, hhash, hin⟩ := h.shown hcut
    exact ⟨raw, hhash, List.mem_append_left _ hin⟩
  lost := fun h => by
    rw [hcut] at h
    cases h

theorem Pending.seeded {w : World} {code : BootstrapCode}
    (h : Pending hashBootstrapCode (seedOf w) code) :
    Seeded hashBootstrapCode w ↔ w.cut = false := by
  obtain ⟨d, hd, hadmin, hcodes⟩ := h.stored
  constructor
  · rintro ⟨_, _, _, _, _, raw, _, hin⟩
    by_contra hcut
    have hnone : w.printed = [] := h.lost ((Bool.not_eq_false _).mp hcut)
    rw [hnone] at hin
    cases hin
  · intro hcut
    refine ⟨d, hd, hadmin, code, ?_, h.shown hcut⟩
    simp [hcodes, h.unused]

/-! ## What a call does -/

/-- The call's answer and what it leaves, whatever the surroundings do. -/
def Did (protection : Protection) (passphrase : String) : Sem initSig World :=
  fun q w r w' => ∃ o, perform protection passphrase o q w = (r, w')

theorem onDatabase_cases {ε α : Type} {o : Oracle} {w w' : World}
    {f : Database → Except ε (α × Database)} {r : Except Failed α}
    (h : onDatabase o w f = (r, w')) :
    (∃ e, r = .error e) ∧ w' = w ∨
      ∃ d a d', w.disk.database = some d ∧ f d = .ok (a, d') ∧ r = .ok a ∧
        w' = { w with disk := { w.disk with database := some d' } } := by
  unfold onDatabase at h
  split at h
  · cases h
    exact .inl ⟨⟨_, rfl⟩, rfl⟩
  · split at h
    · cases h
      exact .inl ⟨⟨_, rfl⟩, rfl⟩
    · next d hd =>
        split at h
        · cases h
          exact .inl ⟨⟨_, rfl⟩, rfl⟩
        · next a d' hf =>
            cases h
            exact .inr ⟨d, a, d', hd, hf, rfl, rfl⟩

/-- Calls that look, or make something up. -/
def looks : InitReq → Bool
  | .acquireLock | .masterKeyExists | .databaseExists | .markerState
  | .generateNonce | .generateMasterKey | .findPrincipalByName _
  | .hasUnconsumedBootstrapCode | .now | .generatePrincipalId
  | .generateBootstrapCode | .generateBootstrapCodeId | .closeStore => true
  | _ => false

theorem did_looks {q : InitReq} {w w' : World} {r : q.Resp}
    (hq : looks q = true) (h : Did protection passphrase q w r w') : w' = w := by
  obtain ⟨o, h⟩ := h
  cases q with
  | loadKey | replaceKey | createKey | openStore | createPrincipal | assignRole
  | createBootstrapCode | println | createMarker => cases hq
  | findPrincipalByName name =>
      rcases onDatabase_cases h with ⟨-, rfl⟩ | ⟨d, a, d', hd, hf, -, rfl⟩
      · rfl
      · cases hfind : Store.findPrincipalByName d.principals name with
        | error e =>
            rw [hfind] at hf
            cases hf
        | ok found =>
            rw [hfind] at hf
            cases hf
            rw [← hd]
  | hasUnconsumedBootstrapCode =>
      have h : onDatabase (ε := Unit) o w (fun d =>
        .ok (Store.hasUnconsumedBootstrapCode d.codes, d)) = (r, w') := h
      rcases onDatabase_cases h with ⟨-, rfl⟩ | ⟨d, a, d', hd, hf, -, rfl⟩
      · rfl
      · cases hf
        rw [← hd]
  | _ =>
      cases h
      rfl

end Rutilus.Proofs.RunPhases
