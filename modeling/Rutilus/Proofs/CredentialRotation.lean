import Rutilus.Lib.Listing
import Rutilus.Lib.Rely
import Rutilus.Store.Credentials

/-!
# Reading a credential while it rotates

A read finds the metadata first and the version second. That is enough, for
versions only ever get more (`Grown`): the version that the metadata named is
still there, as it was. So a read answers what was active when it looked at the
metadata (`load_safe`).

A creation and a rotation are one kind of write (`Wrote`), and what it does to
the tables is said once.
-/

namespace Rutilus.Proofs.CredentialRotation

open Rutilus.Domain Rutilus.Domain.Credential Rutilus.Lib
open Rutilus.Store.Credentials

/-! ## The tables -/

/-- The row of a credential. -/
def modelOf (c : Credential) : CredentialModel :=
  ⟨c.id, c.name.text, c.username.text, some c.activeVersionId, c.createdAt,
    c.updatedAt⟩

theorem mapCredentialModel_modelOf (c : Credential) :
    mapCredentialModel (modelOf c) = .ok c := by
  simp [mapCredentialModel, modelOf, Credential.tryNew, Except.mapError, bind,
    Except.bind, c.timeline]

/-- A version that can be read. -/
def Whole (version : VersionModel) : Prop :=
  version.nonce.length = credentialNonceLength ∧
    authenticationTagLength ≤ version.encryptedSecret.length

/-- Every row is one of a credential, and the version it names is there. -/
structure Sound (t : Tables) : Prop where
  credentials : ∀ id row, t.credentials.find id = some row →
    ∃ c, row = modelOf c ∧ ∃ version,
      t.versions.find c.activeVersionId = some version ∧
      version.credentialId = id
  versions : ∀ id version, t.versions.find id = some version → Whole version

/-- A later row of a credential. -/
structure RowLater (a b : CredentialModel) : Prop where
  name : b.name = a.name
  username : b.username = a.username
  createdAt : b.createdAt = a.createdAt
  updatedAt : a.updatedAt ≤ b.updatedAt

/-- Nothing is lost, no version changes, and no time goes back. -/
structure Grown (t t' : Tables) : Prop where
  credentials : ∀ id row, t.credentials.find id = some row →
    ∃ row', t'.credentials.find id = some row' ∧ RowLater row row'
  versions : ∀ id version, t.versions.find id = some version →
    t'.versions.find id = some version

theorem RowLater.refl (a : CredentialModel) : RowLater a a :=
  ⟨rfl, rfl, rfl, Int.le_refl _⟩

theorem Grown.refl (t : Tables) : Grown t t :=
  ⟨fun _ row h => ⟨row, h, .refl row⟩, fun _ _ h => h⟩

theorem RowLater.trans {a b c : CredentialModel} (h : RowLater a b)
    (h' : RowLater b c) : RowLater a c :=
  ⟨h'.name.trans h.name, h'.username.trans h.username,
    h'.createdAt.trans h.createdAt, Int.le_trans h.updatedAt h'.updatedAt⟩

theorem Grown.trans {t t' t'' : Tables} (h : Grown t t') (h' : Grown t' t'') :
    Grown t t'' where
  credentials := fun id row hrow => by
    obtain ⟨row', hrow', hlater⟩ := h.credentials id row hrow
    obtain ⟨row'', hrow'', hlater'⟩ := h'.credentials id row' hrow'
    exact ⟨row'', hrow'', hlater.trans hlater'⟩
  versions := fun id version hversion =>
    h'.versions id version (h.versions id version hversion)

/-! ## What a read answers -/

/-- What is active of a credential. -/
structure Active (t : Tables) (id : Credential.CredentialId) (stored : StoredCredential) :
    Prop where
  metadata : t.credentials.find id = some (modelOf stored.metadata)
  owner : stored.protectedSecret.credentialId = id
  same : stored.protectedSecret.versionId = stored.metadata.activeVersionId
  version : ∃ version,
    t.versions.find stored.metadata.activeVersionId = some version ∧
    version.credentialId = id ∧
    version.nonce = stored.protectedSecret.nonce ∧
    version.encryptedSecret = stored.protectedSecret.ciphertext

theorem mapVersionModel_whole (id : Credential.CredentialId)
    (versionId : CredentialVersionId) {version : VersionModel}
    (h : Whole version) :
    ∃ secret, mapVersionModel id versionId (some version) = .ok secret ∧
      secret.credentialId = id ∧ secret.versionId = versionId ∧
      version.nonce = secret.nonce ∧
      version.encryptedSecret = secret.ciphertext := by
  obtain ⟨hnonce, htag⟩ := h
  refine ⟨⟨id, versionId, ⟨version.nonce, hnonce⟩, version.encryptedSecret, htag⟩,
    ?_, rfl, rfl, rfl, rfl⟩
  simp only [mapVersionModel, dif_pos hnonce, ProtectedCredentialVersion.fromParts,
    dif_pos htag, Except.mapError]

/-- The read's answer, given the tables there were while it was under way. -/
def Answered (id : Credential.CredentialId) (seen : List Tables) :
    Except CredentialRepositoryError (Option StoredCredential) → Prop
  | .ok (some stored) => ∃ t ∈ seen, Active t id stored
  | .ok none => ∀ t, seen.getLast? = some t → t.credentials.find id = none
  | .error e => e = .database

/-- Commits have been added. -/
structure Passed (seen seen' : List Tables) : Prop where
  more : ∃ new, seen' = new ++ seen
  grown : ∀ t, seen'.head? = some t → ∀ t₀ ∈ seen, Grown t₀ t

/-- A query is answered from the latest tables. -/
def Queries : Sem readSig (List Tables) := fun q seen r seen' =>
  seen' = seen ∧ ∃ t fault, seen.head? = some t ∧ Sound t ∧ r = answer fault t q

abbrev ReadSafe (p : Read (Option StoredCredential)) (id : Credential.CredentialId)
    (seen : List Tables) : Prop :=
  Safe Queries Passed (fun _ _ _ => True) p
    (fun r seen => Answered id seen r) seen

theorem findById_safe {id : Credential.CredentialId} {seen : List Tables}
    {f : Option CredentialModel → Read (Option StoredCredential)}
    (h : ∀ seen' t', Passed seen seen' → seen'.head? = some t' → Sound t' →
      ReadSafe (f (t'.credentials.find id)) id seen') :
    ReadSafe (orThrow (call (.findById id)) (fun _ => .database) >>= f) id
      seen := by
  refine Safe.bindE.mpr (Safe.orThrow.mpr ?_)
  rintro seen' hpassed r seen'' ⟨rfl, t', fault, hhead, hsound, rfl⟩
  refine ⟨trivial, ?_⟩
  cases fault with
  | true => exact rfl
  | false => exact h seen'' t' hpassed hhead hsound

theorem findVersion_safe {id : Credential.CredentialId} {versionId : CredentialVersionId}
    {seen : List Tables}
    {f : Option VersionModel → Read (Option StoredCredential)}
    (h : ∀ seen' t', Passed seen seen' → seen'.head? = some t' → Sound t' →
      ReadSafe (f ((t'.versions.find versionId).filter
        fun row => row.credentialId = id)) id seen') :
    ReadSafe (orThrow (call (.findVersion versionId id))
      (fun _ => .database) >>= f) id seen := by
  refine Safe.bindE.mpr (Safe.orThrow.mpr ?_)
  rintro seen' hpassed r seen'' ⟨rfl, t', fault, hhead, hsound, rfl⟩
  refine ⟨trivial, ?_⟩
  cases fault with
  | true => exact rfl
  | false => exact h seen'' t' hpassed hhead hsound

/-- The version that the metadata named is there at the second query. -/
theorem load_safe {id : Credential.CredentialId} {t : Tables} :
    ReadSafe (loadActiveCredential id) id [t] := by
  refine findById_safe fun seen t' hpassed hhead hsound => ?_
  cases hfind : t'.credentials.find id with
  | none =>
      intro t₀ hlast
      obtain ⟨new, rfl⟩ := hpassed.more
      rw [List.getLast?_append_of_ne_nil _ (List.cons_ne_nil t [])] at hlast
      cases hlast
      cases hrow : t.credentials.find id with
      | none => exact hrow
      | some row =>
          obtain ⟨row', hrow', -⟩ := (hpassed.grown t' hhead t
            (List.mem_singleton_self t)).credentials id row hrow
          rw [hfind] at hrow'
          cases hrow'
  | some row =>
      obtain ⟨c, rfl, version, hversion, howner⟩ :=
        hsound.credentials id row hfind
      have hin : t' ∈ seen := List.mem_of_head? hhead
      dsimp only
      rw [mapCredentialModel_modelOf]
      refine findVersion_safe fun seen' t'' hpassed' hhead' hsound' => ?_
      have hthere := (hpassed'.grown t'' hhead' t' hin).versions _ _ hversion
      obtain ⟨secret, hmap, hid, hsame, hnonce, htext⟩ :=
        mapVersionModel_whole id c.activeVersionId (hsound'.versions _ _ hthere)
      rw [hthere]
      simp only [Option.filter_some, howner, decide_true, if_true]
      rw [hmap]
      obtain ⟨new, rfl⟩ := hpassed'.more
      exact ⟨t', List.mem_append_right _ hin, hfind, hid, hsame, version,
        hversion, howner, hnonce, htext⟩

/-! ## What a write does -/

/-- A version is added, and its credential names it. -/
structure Wrote (t : Tables) (c : Credential) (secret : ProtectedCredentialVersion)
    (t' : Tables) : Prop where
  id : c.id = secret.credentialId
  active : c.activeVersionId = secret.versionId
  fresh : t.versions.find secret.versionId = none
  credentials : ∀ id, t'.credentials.find id =
    if c.id = id then some (modelOf c) else t.credentials.find id
  versions : ∃ now, ∀ id, t'.versions.find id =
    if secret.versionId = id then some (versionModel secret now)
    else t.versions.find id
  later : ∀ row, t.credentials.find c.id = some row → RowLater row (modelOf c)

section Wrote

variable {t t' : Tables} {c : Credential} {secret : ProtectedCredentialVersion}

theorem Wrote.grown (h : Wrote t c secret t') : Grown t t' where
  credentials := fun id row hrow => by
    rw [h.credentials]
    split
    · next hid =>
        subst hid
        exact ⟨_, rfl, h.later row hrow⟩
    · exact ⟨row, hrow, .refl row⟩
  versions := fun id version hversion => by
    obtain ⟨now, hversions⟩ := h.versions
    rw [hversions, if_neg]
    · exact hversion
    · intro hid
      rw [← hid, h.fresh] at hversion
      cases hversion

theorem Wrote.sound (h : Wrote t c secret t') (hsound : Sound t) : Sound t' where
  credentials := fun id row hrow => by
    rw [h.credentials] at hrow
    split at hrow
    · next hid =>
        cases hrow
        obtain ⟨now, hversions⟩ := h.versions
        refine ⟨c, rfl, versionModel secret now, ?_, ?_⟩
        · rw [hversions, if_pos h.active.symm]
        · exact h.id.symm.trans hid
    · obtain ⟨c', hc', version, hversion, howner⟩ :=
        hsound.credentials id row hrow
      exact ⟨c', hc', version, h.grown.versions _ _ hversion, howner⟩
  versions := fun id version hversion => by
    obtain ⟨now, hversions⟩ := h.versions
    rw [hversions] at hversion
    split at hversion
    · cases hversion
      exact ⟨secret.nonce.2, secret.tagged⟩
    · exact hsound.versions id version hversion

theorem versions_insertNew {now : Instant}
    (hnew : t.versions.find secret.versionId = none) (id : CredentialVersionId) :
    (t.versions.insertNew (versionModel secret now)).find id =
      if secret.versionId = id then some (versionModel secret now)
      else t.versions.find id := by
  rw [Table.find_insertNew]
  by_cases hid : secret.versionId = id
  · subst hid
    rw [if_pos ⟨rfl, hnew⟩, if_pos rfl]
  · rw [if_neg fun h => hid h.1, if_neg hid]

theorem createCredential_wrote {new : NewCredential} {now : Instant}
    (h : createCredential t new now = .ok (c, t')) :
    Wrote t c new.protectedSecret t' := by
  simp only [createCredential, Credential.tryNew, dif_pos (Int.le_refl now)] at h
  split at h
  · cases h
  · next hfree =>
      split at h
      · cases h
      · next hversion =>
          cases h
          have hnone : t.credentials.find new.protectedSecret.credentialId = none :=
            Option.not_isSome_iff_eq_none.mp fun hs => hfree (.inl hs)
          have hnew : t.versions.find new.protectedSecret.versionId = none :=
            Option.not_isSome_iff_eq_none.mp hversion
          refine ⟨rfl, rfl, hnew, fun id => ?_, ⟨now, versions_insertNew hnew⟩,
            fun row hrow => ?_⟩
          · dsimp only
            rw [Table.find_replace, Table.find_insertNew]
            by_cases hid : new.protectedSecret.credentialId = id
            · subst hid
              simp [hnone, modelOf]
            · simp [hid]
          · rw [hnone] at hrow
            cases hrow

/-- A read that nobody disturbs. -/
theorem loadIn_some {id : Credential.CredentialId} {stored : StoredCredential}
    (h : loadIn t id = .ok (some stored)) :
    ∃ model, t.credentials.find id = some model ∧
      mapCredentialModel model = .ok stored.metadata := by
  have hfirst : Prog.run query (orThrow (call (.findById id))
      fun _ => CredentialRepositoryError.database) t =
      (.ok (t.credentials.find id), t) := rfl
  unfold loadIn loadActiveCredential at h
  rw [Prog.run_bindE, hfirst] at h
  cases hfind : t.credentials.find id with
  | none =>
      rw [hfind] at h
      cases h
  | some model =>
      rw [hfind] at h
      dsimp only at h
      cases hmap : mapCredentialModel model with
      | error e =>
          rw [hmap] at h
          cases h
      | ok metadata =>
          have hsecond : Prog.run query (orThrow
              (call (.findVersion metadata.activeVersionId id))
              fun _ => CredentialRepositoryError.database) t =
              (.ok ((t.versions.find metadata.activeVersionId).filter
                fun row => row.credentialId = id), t) := rfl
          rw [hmap] at h
          dsimp only at h
          rw [Prog.run_bindE, hsecond] at h
          dsimp only at h
          split at h
          · cases h
          · cases h
            exact ⟨model, rfl, hmap⟩

theorem rotateCredential_wrote {stored : StoredCredential} {clock : Instant}
    (hsound : Sound t) (h : rotateCredential t secret clock = .ok (stored, t')) :
    stored.protectedSecret = secret ∧ Wrote t stored.metadata secret t' := by
  unfold rotateCredential at h
  dsimp only at h
  split at h
  · cases h
  · cases h
  · next existing hload =>
      obtain ⟨model, hfind, hmap⟩ := loadIn_some hload
      obtain ⟨c, rfl, -⟩ := hsound.credentials _ _ hfind
      rw [mapCredentialModel_modelOf] at hmap
      cases hmap
      rw [hfind] at h
      split at h
      · cases h
      · next updated hupdated =>
          split at h
          · cases h
          · next hversion =>
              cases h
              unfold Credential.tryNew at hupdated
              split at hupdated
              · cases hupdated
                have hnew : t.versions.find secret.versionId = none :=
                  Option.not_isSome_iff_eq_none.mp hversion
                have hkey := Table.key_of_find hfind
                have hid : existing.metadata.id = secret.credentialId := hkey
                refine ⟨rfl, rfl, rfl, hnew, fun id => ?_,
                  ⟨_, versions_insertNew hnew⟩, fun row hrow => ?_⟩
                · dsimp only
                  rw [Table.find_replace]
                  by_cases hsame : secret.credentialId = id
                  · subst hsame
                    simp [modelOf, hid, hfind]
                  · simp [modelOf, hid, hsame]
                · rw [hfind] at hrow
                  cases hrow
                  exact ⟨rfl, rfl, rfl, Int.le_max_right _ _⟩
              · cases hupdated

end Wrote

/-! ## Interleavings -/

theorem transact_ok {α : Type} {fault : Option Store.Fault} {t t' : Tables} {a : α}
    {body : Tables → Except CredentialRepositoryError (α × Tables)}
    (h : transact fault t body = (.ok a, t')) : body t = .ok (a, t') := by
  unfold transact at h
  split at h
  · cases h
  · cases h
  · split at h
    · cases h
    · next hbody =>
        cases h
        exact hbody

/-- A failing call changes nothing. -/
theorem transact_error {α : Type} {fault : Option Store.Fault} {t t' : Tables}
    {body : Tables → Except CredentialRepositoryError (α × Tables)}
    {e : CredentialRepositoryError} (h : transact fault t body = (.error e, t')) :
    t' = t := by
  unfold transact at h
  split at h
  · cases h
    rfl
  · cases h
    rfl
  · split at h
    · cases h
      rfl
    · cases h

/-- The version that the last write of a credential made active. -/
def lastCommitted (s : State) (id : Credential.CredentialId) : Option CredentialVersionId :=
  (s.committed.find? fun x => x.1 = id).map Prod.snd

structure FlightInv (t : Tables) (f : Flight) : Prop where
  latest : f.finished = false → f.seen.head? = some t
  older : ∀ t₀ ∈ f.seen, Grown t₀ t
  safe : ReadSafe f.rest f.credentialId f.seen

structure Inv (s : State) : Prop where
  sound : Sound s.tables
  last : ∀ id, (s.tables.credentials.find id).map (·.activeVersionId) =
    (lastCommitted s id).map some
  flights : ∀ f ∈ s.flights, FlightInv s.tables f

theorem Passed.trans {a b c : List Tables} (h : Passed a b) (h' : Passed b c) :
    Passed a c where
  more := by
    obtain ⟨new, rfl⟩ := h.more
    obtain ⟨new', rfl⟩ := h'.more
    exact ⟨new' ++ new, (List.append_assoc ..).symm⟩
  grown := fun t ht t₀ hin => h'.grown t ht t₀ (by
    obtain ⟨new, rfl⟩ := h.more
    exact List.mem_append_right _ hin)

theorem Passed.refl {seen : List Tables} {t : Tables}
    (hhead : seen.head? = some t) (holder : ∀ t₀ ∈ seen, Grown t₀ t) :
    Passed seen seen where
  more := ⟨[], rfl⟩
  grown := fun t' ht' t₀ hin => by
    rw [hhead] at ht'
    cases ht'
    exact holder t₀ hin

theorem FlightInv.see {t t' : Tables} {f : Flight} (h : FlightInv t f)
    (hgrown : Grown t t') : FlightInv t' (f.see t') := by
  have holder : ∀ t₀ ∈ f.seen, Grown t₀ t' :=
    fun t₀ hin => (h.older t₀ hin).trans hgrown
  unfold Flight.see
  split
  · next hdone =>
      refine ⟨fun hrun => ?_, holder, h.safe⟩
      rw [hdone] at hrun
      cases hrun
  · next hrun =>
      refine ⟨fun _ => rfl, fun t₀ hin => ?_, ?_⟩
      · rcases List.mem_cons.mp hin with rfl | hin
        · exact .refl t₀
        · exact holder t₀ hin
      · obtain ⟨id, seen, rest⟩ := f
        cases rest with
        | ret r => exact absurd rfl hrun
        | call q k =>
            have hpassed : Passed seen (t' :: seen) :=
              ⟨⟨[t'], rfl⟩, fun t'' hhead t₀ hin => by
                cases hhead
                exact holder t₀ hin⟩
            exact fun seen' h' => h.safe seen' (hpassed.trans h')

section Steps

variable {s : State} {t' : Tables} {c : Credential}
  {secret : ProtectedCredentialVersion}

theorem Inv.commit (h : Inv s) (hwrote : Wrote s.tables c secret t') :
    Inv (s.commit secret t') where
  sound := hwrote.sound h.sound
  last := fun id => by
    unfold State.commit lastCommitted
    dsimp only
    rw [hwrote.credentials, List.find?_cons]
    by_cases hid : secret.credentialId = id
    · subst hid
      rw [if_pos hwrote.id]
      simp [modelOf, hwrote.active]
    · rw [if_neg fun h => hid (hwrote.id.symm.trans h)]
      simp only [hid, decide_false]
      exact h.last id
  flights := fun f hf => by
    obtain ⟨f₀, hf₀, rfl⟩ := List.mem_map.mp hf
    exact (h.flights f₀ hf₀).see hwrote.grown

/-- What a transaction comes to: a commit, or nothing. -/
theorem after_cases {α : Type} (s : State) (secret : ProtectedCredentialVersion)
    (fault : Option Store.Fault)
    (body : Tables → Except CredentialRepositoryError (α × Tables)) :
    (∃ a t', transact fault s.tables body = (.ok a, t') ∧
      body s.tables = .ok (a, t') ∧
      s.after secret (transact fault s.tables body) = s.commit secret t') ∨
    (∃ e, transact fault s.tables body = (.error e, s.tables) ∧
      s.after secret (transact fault s.tables body) = s) := by
  cases htransact : transact fault s.tables body with
  | mk r t' =>
      cases r with
      | ok a => exact .inl ⟨a, t', rfl, transact_ok htransact, rfl⟩
      | error e =>
          have hsame := transact_error htransact
          subst hsame
          exact .inr ⟨e, rfl, rfl⟩

end Steps

theorem Inv.initial {s : State} (h : Initial s) : Inv s := by
  obtain ⟨hcredentials, hversions, hflights, hcommitted⟩ := h
  have hnone : ∀ id, s.tables.credentials.find id = none := by
    intro id
    rw [Table.find_eq_none_iff, hcredentials]
    exact fun _ hin => absurd hin List.not_mem_nil
  have hnone' : ∀ id, s.tables.versions.find id = none := by
    intro id
    rw [Table.find_eq_none_iff, hversions]
    exact fun _ hin => absurd hin List.not_mem_nil
  refine ⟨⟨fun id row hrow => ?_, fun id version hversion => ?_⟩, fun id => ?_,
    fun f hf => ?_⟩
  · rw [hnone] at hrow
    cases hrow
  · rw [hnone'] at hversion
    cases hversion
  · rw [hnone, lastCommitted, hcommitted]
    rfl
  · rw [hflights] at hf
    cases hf

/-- What one step does: a write, or nothing to the tables. -/
theorem next_grown {s t : State} {l : Label} (h : Inv s)
    (hstep : next s l = some t) : Grown s.tables t.tables ∧ Inv t := by
  cases l with
  | create new fault clock =>
      cases hstep
      rcases after_cases s new.protectedSecret fault
        (fun t => createCredential t new clock) with
        ⟨c, t', -, hbody, hafter⟩ | ⟨e, -, hafter⟩
      · rw [hafter]
        have hwrote := createCredential_wrote hbody
        exact ⟨hwrote.grown, h.commit hwrote⟩
      · rw [hafter]
        exact ⟨.refl _, h⟩
  | rotate secret fault clock =>
      cases hstep
      rcases after_cases s secret fault
        (fun t => rotateCredential t secret clock) with
        ⟨c, t', -, hbody, hafter⟩ | ⟨e, -, hafter⟩
      · rw [hafter]
        obtain ⟨-, hwrote⟩ := rotateCredential_wrote h.sound hbody
        exact ⟨hwrote.grown, h.commit hwrote⟩
      · rw [hafter]
        exact ⟨.refl _, h⟩
  | read credentialId =>
      cases hstep
      refine ⟨.refl _, h.sound, h.last, fun f hf => ?_⟩
      rcases List.mem_append.mp hf with hf | hf
      · exact h.flights f hf
      · cases List.mem_singleton.mp hf
        refine ⟨fun _ => rfl, fun t₀ hin => ?_, load_safe⟩
        cases List.mem_singleton.mp hin
        exact .refl _
  | step i fault =>
      simp only [next] at hstep
      split at hstep
      · next credentialId seen q k hget =>
          cases hstep
          refine ⟨.refl _, h.sound, h.last, fun f hf => ?_⟩
          have hold := h.flights _ (List.mem_of_getElem? hget)
          rcases List.mem_or_eq_of_mem_set hf with hf | rfl
          · exact h.flights f hf
          · have hhead := hold.latest rfl
            obtain ⟨-, hsafe⟩ := hold.safe seen (.refl hhead hold.older) _ seen
              ⟨rfl, s.tables, fault, hhead, h.sound, rfl⟩
            exact ⟨fun _ => hhead, hold.older, hsafe⟩
      · cases hstep

theorem reachable_inv {s : State} (h : Reachable s) : Inv s :=
  h.inv (fun _ => Inv.initial) fun _ _ hinv ⟨_, hstep⟩ =>
    (next_grown hinv hstep).2

/-- The answer to a call that writes. -/
def failed (s : State) : Label → Prop
  | .create new fault clock => ∃ e,
      (transact fault s.tables fun t => createCredential t new clock).1 =
        .error e
  | .rotate secret fault clock => ∃ e,
      (transact fault s.tables fun t => rotateCredential t secret clock).1 =
        .error e
  | _ => False

/-- A read answers what was active at some moment of it, or that the query
failed; the last write is active; nothing that was stored is lost or changed, and
what fails leaves nothing. -/
theorem rotations_consistent :
    (∀ s, Reachable s → ∀ f ∈ s.flights, ∀ r, f.rest = .ret r →
      Answered f.credentialId f.seen r) ∧
    (∀ s, Reachable s → ∀ id,
      (s.tables.credentials.find id).map (·.activeVersionId) =
        (lastCommitted s id).map some) ∧
    (∀ s t, Reachable s → Relation.ReflTransGen (Next next) s t →
      Grown s.tables t.tables) ∧
    (∀ s t l, next s l = some t → failed s l → t = s) := by
  refine ⟨fun s hs f hf r hr => ?_, fun s hs => (reachable_inv hs).last,
    fun s t hs hrun => ?_, fun s t l hstep hfailed => ?_⟩
  · have hsafe := ((reachable_inv hs).flights f hf).safe
    rw [hr] at hsafe
    exact hsafe
  · induction hrun with
    | refl => exact .refl _
    | tail hrun hstep ih =>
        obtain ⟨l, hstep⟩ := hstep
        exact ih.trans (next_grown (reachable_inv (hs.steps hrun)) hstep).1
  · cases l with
    | create new fault clock =>
        cases hstep
        obtain ⟨e, he⟩ := hfailed
        rcases after_cases s new.protectedSecret fault
          (fun t => createCredential t new clock) with
          ⟨c, t', hok, -⟩ | ⟨e, -, hafter⟩
        · rw [hok] at he
          cases he
        · exact hafter
    | rotate secret fault clock =>
        cases hstep
        obtain ⟨e, he⟩ := hfailed
        rcases after_cases s secret fault
          (fun t => rotateCredential t secret clock) with
          ⟨c, t', hok, -⟩ | ⟨e, -, hafter⟩
        · rw [hok] at he
          cases he
        · exact hafter
    | read credentialId => cases hfailed
    | step i fault => cases hfailed

end Rutilus.Proofs.CredentialRotation
