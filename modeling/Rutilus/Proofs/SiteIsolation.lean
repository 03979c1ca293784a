import Rutilus.Proofs.ProjectionWrites

/-!
# A site's projection is its own

While the binding of a site is in force, nothing other sites send touches what
the center holds of the site's endpoints: no row of theirs is created, changed,
taken over or deleted.

A claim on the endpoint of another site goes through only where the first
binding row of the owner is revoked. Registrations generate the identity of
their site, so a site has one binding row and the first one is the one in
force.
-/

namespace Rutilus.Proofs.SiteIsolation

open Rutilus.Domain Rutilus.Lib Rutilus.Store
open Rutilus.Report Rutilus.Report.Fleet Rutilus.Proofs.ProjectionWrites

variable {sha : Bytes → Digest} {s t : State} {X Y : InstanceId}

/-! ## Bindings -/

def InForce (bindings : BindingTable) (Y : InstanceId) : Prop :=
  ∃ row ∈ bindings.rows, row.siteInstanceId = Y ∧ row.state = .bound

/-- Every site has one binding row. -/
def OneEach (bindings : BindingTable) : Prop :=
  (bindings.rows.map CenterBinding.siteInstanceId).Nodup

theorem not_revoked_of_inForce {bindings : BindingTable}
    (hone : OneEach bindings) (h : InForce bindings Y) :
    bindingRevoked bindings (some Y) = false := by
  obtain ⟨row, hrow, hsite, hbound⟩ := h
  simp only [bindingRevoked, Option.any_some]
  cases hfind : bindings.rows.find? fun b => decide (b.siteInstanceId = Y) with
  | none => rfl
  | some b =>
      have hb : b.siteInstanceId = Y := by
        simpa using List.find?_some hfind
      obtain rfl : b = row := List.inj_on_of_nodup_map hone
        (List.mem_of_find?_eq_some hfind) hrow (hb.trans hsite.symm)
      rw [Option.any_some, hbound]
      rfl

/-- A row that is replaced keeps its site. -/
theorem map_site_replace {bindings : BindingTable} {row new : CenterBinding}
    (hrow : bindings.find new.id = some row)
    (hsite : new.siteInstanceId = row.siteInstanceId) :
    (bindings.replace new).rows.map CenterBinding.siteInstanceId =
      bindings.rows.map CenterBinding.siteInstanceId := by
  obtain ⟨hmem, hid⟩ := Table.find_eq_some_iff.mp hrow
  simp only [Table.replace, List.map_map]
  refine List.map_congr_left fun b hb => ?_
  simp only [Function.comp]
  split
  · next heq =>
      obtain rfl : b = row := List.inj_on_of_nodup_map bindings.nodup hb hmem
        (heq.trans hid.symm)
      exact hsite
  · rfl

/-- What becomes of the bindings: every site still has one, and a site whose
binding is not the one that is revoked stays bound. -/
structure BindingsKept (Y : InstanceId) (b b' : BindingTable) : Prop where
  one : OneEach b → OneEach b'
  bound : InForce b Y → InForce b' Y

theorem BindingsKept.register {bindings bindings' : BindingTable}
    {binding : CenterBinding} {instances : InstanceId → Bool}
    (hfresh : ∀ row ∈ bindings.rows,
      row.siteInstanceId ≠ binding.siteInstanceId)
    (h : createBinding instances bindings binding = .ok bindings') :
    BindingsKept Y bindings bindings' := by
  obtain ⟨-, -, -, hrows⟩ := createBinding_ok h
  constructor
  · intro hone
    unfold OneEach
    rw [hrows, List.map_append, List.map_singleton, List.nodup_append]
    refine ⟨hone, List.nodup_singleton _, fun a ha b hb => ?_⟩
    rw [List.mem_singleton] at hb
    obtain ⟨row, hrow, rfl⟩ := List.mem_map.mp ha
    exact hb ▸ hfresh row hrow
  · rintro ⟨row, hrow, hsite⟩
    exact ⟨row, hrows ▸ List.mem_append_left _ hrow, hsite⟩

theorem BindingsKept.replace {bindings : BindingTable}
    {row new : CenterBinding} (hrow : bindings.find new.id = some row)
    (hsite : new.siteInstanceId = row.siteInstanceId)
    (hother : row.siteInstanceId = Y → row.state ≠ .bound) :
    BindingsKept Y bindings (bindings.replace new) := by
  constructor
  · intro hone
    unfold OneEach
    rwa [map_site_replace hrow hsite]
  · rintro ⟨b, hb, hbY, hbound⟩
    refine ⟨b, (Table.mem_replace hrow).mpr (.inr ⟨hb, fun hid => ?_⟩), hbY,
      hbound⟩
    obtain ⟨hmem, hid'⟩ := Table.find_eq_some_iff.mp hrow
    obtain rfl : b = row := List.inj_on_of_nodup_map bindings.nodup hb hmem
      (hid.trans hid'.symm)
    exact hother hbY hbound

/-! ## One step -/

/-- The step is no frame of the site and does not revoke its binding. -/
def ofOthers (Y : InstanceId) (s : State) : Label → Bool
  | .call i _ => (s.consumers[i]?).all fun c => c.site ≠ Y
  | .revoke id => (s.center.projection.bindings.find id).all fun row =>
      row.siteInstanceId ≠ Y
  | _ => true

def nextOfOthers (sha : Bytes → Digest) (Y : InstanceId) (s : State)
    (l : Label) : Option State :=
  if ofOthers Y s l then next sha s l else none

/-- Nothing the center holds for the site changed. -/
def Untouched (Y : InstanceId) (t t' : ProjectionTables) : Prop :=
  ∀ e, Owns t Y e ∨ Owns t' Y e → holding t' e = holding t e

theorem owns_of_holding {t t' : ProjectionTables} {e : EndpointId}
    (h : holding t' e = holding t e) (ht : Owns t Y e) : Owns t' Y e := by
  obtain ⟨row, hrow, howner⟩ := ht
  exact ⟨row, (congrArg Holding.endpoint h).trans hrow, howner⟩

theorem Untouched.refl (t : ProjectionTables) : Untouched Y t t :=
  fun _ _ => rfl

theorem Untouched.trans {t t' t'' : ProjectionTables} (h : Untouched Y t t')
    (h' : Untouched Y t' t'') : Untouched Y t t'' := by
  intro e he
  rcases he with he | he
  · have hmid := h e (.inl he)
    exact (h' e (.inl (owns_of_holding hmid he))).trans hmid
  · have hmid := h' e (.inr he)
    exact hmid.trans (h e (.inr (owns_of_holding hmid.symm he)))

/-- The write of another site. -/
theorem Untouched.of_lawful {t t' : ProjectionTables} {e : EndpointId}
    (h : Lawful X e t t') (hne : X ≠ Y)
    (hY : bindingRevoked t.bindings (some Y) = false) : Untouched Y t t' := by
  rcases h with rfl | ⟨hmay, hwritten⟩
  · exact .refl t'
  · intro e' he'
    refine hwritten.elsewhere e' fun heq => ?_
    subst heq
    rcases he' with ⟨row, hrow, howner⟩ | ⟨row, hrow, howner⟩
    · rcases hmay row hrow with hX | hrevoked
      · exact hne (Option.some.inj (hX.symm.trans howner))
      · rw [howner, hY] at hrevoked
        cases hrevoked
    · exact hne (Option.some.inj ((hwritten.owner row hrow).symm.trans howner))

theorem bindings_of_lawful {t t' : ProjectionTables} {e : EndpointId}
    (h : Lawful X e t t') : t'.bindings = t.bindings := by
  rcases h with rfl | ⟨-, hwritten⟩
  · rfl
  · exact hwritten.bindings

/-- Every consumer is loyal to its site. -/
structure Inv (s : State) : Prop where
  one : OneEach s.center.projection.bindings
  loyal : ∀ c ∈ s.consumers, Loyal c.site c.rest

theorem Inv.withBindings (h : Inv s) {bindings : BindingTable}
    (hb : OneEach s.center.projection.bindings → OneEach bindings) :
    Inv (s.withBindings bindings) :=
  ⟨hb h.one, h.loyal⟩

theorem Inv.next {l : Label} (h : Inv s) (hl : next sha s l = some t) :
    Inv t ∧ (ofOthers Y s l = true →
      InForce s.center.projection.bindings Y →
        InForce t.center.projection.bindings Y ∧
          Untouched Y s.center.projection t.center.projection) := by
  cases l with
  | register id centerUrl site code expiresAt createdAt =>
      simp only [Fleet.next] at hl
      split at hl
      · cases hl
      · next hfresh =>
          split at hl
          · cases hl
          · next bindings hcreate =>
              cases hl
              have hkept : BindingsKept Y _ bindings :=
                .register (fun row hrow hsite => hfresh
                  (List.any_eq_true.mpr ⟨row, hrow, decide_eq_true hsite⟩))
                  hcreate
              exact ⟨h.withBindings hkept.one,
                fun _ hY => ⟨hkept.bound hY, fun _ _ => rfl⟩⟩
  | bind id code fingerprint now =>
      simp only [Fleet.next] at hl
      split at hl
      · cases hl
      · next bindings hbind =>
          cases hl
          obtain ⟨row, hrow, hpending, -, -, -, rfl⟩ := bindWithCode_ok hbind
          obtain rfl : row.id = id := Table.key_of_find hrow
          have hkept : BindingsKept Y s.center.projection.bindings
              (s.center.projection.bindings.replace
                (boundRow row fingerprint now)) :=
            .replace hrow rfl
              fun _ hbound => by
                rw [hpending] at hbound
                cases hbound
          exact ⟨h.withBindings hkept.one,
            fun _ hY => ⟨hkept.bound hY, fun _ _ => rfl⟩⟩
  | revoke id =>
      simp only [Fleet.next] at hl
      split at hl
      · cases hl
      · next outcome bindings hrevoke =>
          cases hl
          obtain ⟨row, hrow, ⟨-, -, rfl⟩ | ⟨-, rfl⟩⟩ := revokeBinding_ok hrevoke
          · obtain rfl : row.id = id := Table.key_of_find hrow
            have hone : OneEach s.center.projection.bindings →
                OneEach (s.center.projection.bindings.replace
                  (revokedRow row)) := fun hone => by
              have hsites := @map_site_replace _ row (revokedRow row) hrow rfl
              unfold OneEach
              rwa [hsites]
            refine ⟨h.withBindings hone, fun hother hY =>
              ⟨?_, fun _ _ => rfl⟩⟩
            simp only [ofOthers, hrow, Option.all_some] at hother
            have hkept : BindingsKept Y s.center.projection.bindings
                (s.center.projection.bindings.replace (revokedRow row)) :=
              .replace hrow rfl
                fun hrowY => absurd hrowY (of_decide_eq_true hother)
            exact hkept.bound hY
          · exact ⟨h.withBindings fun hone => hone, fun _ hY => ⟨hY, fun _ _ => rfl⟩⟩
  | deliver site sequence message now =>
      cases hl
      refine ⟨⟨h.one, fun c hc => ?_⟩, fun _ hY => ⟨hY, .refl _⟩⟩
      rcases List.mem_append.mp hc with hc | hc
      · exact h.loyal c hc
      · rw [List.mem_singleton] at hc
        subst hc
        exact onFrame_loyal sequence message now
  | call i o =>
      simp only [Fleet.next] at hl
      split at hl
      · next site q k hi =>
          cases hl
          obtain ⟨hq, hrest⟩ := (h.loyal _ (List.mem_of_getElem? hi)).next
            (performCenter sha o q s.center).1
          obtain ⟨e, hlawful⟩ := performCenter_lawful (o := o)
            (w := s.center) hq
          have hb := bindings_of_lawful hlawful
          refine ⟨⟨hb ▸ h.one, fun c hc => ?_⟩, fun hother hY => ⟨?_, ?_⟩⟩
          · rcases List.mem_or_eq_of_mem_set hc with hc | rfl
            · exact h.loyal c hc
            · exact hrest
          · exact hb ▸ hY
          · refine .of_lawful hlawful ?_ (not_revoked_of_inForce h.one hY)
            simp only [ofOthers, hi, Option.all_some] at hother
            exact of_decide_eq_true hother
      · cases hl
  | drop i =>
      cases hl
      exact ⟨⟨h.one, fun c hc => h.loyal c (List.mem_of_mem_eraseIdx hc)⟩,
        fun _ hY => ⟨hY, .refl _⟩⟩

theorem Inv.of_reach (h : Reachable sha s) : Inv s := by
  refine h.inv (P := Inv) ?_ ?_
  · rintro s rfl
    exact ⟨List.nodup_nil, fun c hc => absurd hc List.not_mem_nil⟩
  · rintro s t hs ⟨l, hl⟩
    exact (hs.next (Y := ⟨0⟩) hl).1

/-! ## Runs -/

theorem next_of_others {l : Label} (h : nextOfOthers sha Y s l = some t) :
    ofOthers Y s l = true ∧ next sha s l = some t := by
  unfold nextOfOthers at h
  split at h
  · next hother => exact ⟨hother, h⟩
  · cases h

theorem untouched_of_steps (hs : Inv s)
    (hY : InForce s.center.projection.bindings Y)
    (hst : Relation.ReflTransGen (Next (nextOfOthers sha Y)) s t) :
    Inv t ∧ InForce t.center.projection.bindings Y ∧
      Untouched Y s.center.projection t.center.projection := by
  induction hst with
  | refl => exact ⟨hs, hY, .refl _⟩
  | tail _ hut ih =>
      obtain ⟨hinv, hu, huntouched⟩ := ih
      obtain ⟨l, hl⟩ := hut
      obtain ⟨hother, hl⟩ := next_of_others hl
      obtain ⟨hinv', hstep⟩ := hinv.next (Y := Y) hl
      obtain ⟨ht, huntouched'⟩ := hstep hother hu
      exact ⟨hinv', ht, huntouched.trans huntouched'⟩

/-- While the binding of a site is in force, no frame of any other site, in any
number and in any interleaving, creates, changes, takes over or deletes a row of
an endpoint the site owns before or afterwards. -/
theorem site_rows_untouched (sha : Bytes → Digest) (Y : InstanceId)
    (s t : State) (hs : Reachable sha s)
    (hY : InForce s.center.projection.bindings Y)
    (hst : Relation.ReflTransGen (Next (nextOfOthers sha Y)) s t)
    (e : EndpointId)
    (he : Owns s.center.projection Y e ∨ Owns t.center.projection Y e) :
    holding t.center.projection e = holding s.center.projection e :=
  (untouched_of_steps (.of_reach hs) hY hst).2.2 e he

/-! ### Two sites with one endpoint -/

def report (e : Nat) (address : String) : EnvelopeMessage :=
  .endpointSnapshot
    { endpointId := some ⟨e⟩, displayName := "rack", address
      trust := .systemCa, refreshGeneration := 1, resources := []
      health := "ok" }

def retract (e : Nat) : EnvelopeMessage :=
  .resourceDelta
    { endpointId := some ⟨e⟩, op := .delete, resource := none
      payloadJson := some "", observedAtUnix := 0 }

def working : CenterOracle := ⟨none, 0, ⟨0⟩⟩

/-- A site is registered and bound, and reports an endpoint. -/
def oneReports : List Label :=
  [.register ⟨1⟩ "https://center" ⟨1⟩ ⟨[]⟩ 100 0, .bind ⟨1⟩ ⟨[]⟩ none 1,
    .deliver ⟨1⟩ 1 (report 7 "https://bmc") 2, .call 0 working,
    .call 0 working, .call 0 working]

/-- Another site claims the endpoint, claims its address for another one, and
deletes it. -/
def anotherClaims : List Label :=
  [.deliver ⟨2⟩ 1 (report 7 "https://other") 3,
    .deliver ⟨2⟩ 2 (report 8 "https://bmc") 3, .deliver ⟨2⟩ 3 (retract 7) 3] ++
    (List.range 9).map fun n => .call (1 + n % 3) working

/-- The stored codes are not looked at. -/
def noHash (_ : Bytes) : Digest := []

theorem site_row_outlives_claims : ∃ s t, Reachable noHash s ∧
    Relation.ReflTransGen (Next (nextOfOthers noHash ⟨1⟩)) s t ∧
    Owns s.center.projection ⟨1⟩ ⟨7⟩ ∧
      holding t.center.projection ⟨7⟩ = holding s.center.projection ⟨7⟩ := by
  have hrun : ((follow (next noHash) initial oneReports).any fun s =>
      (follow (nextOfOthers noHash ⟨1⟩) s anotherClaims).any fun _ =>
        (s.center.projection.bindings.rows.any fun row =>
          row.siteInstanceId = ⟨1⟩ ∧ row.state = .bound) &&
        (s.center.projection.endpoints.find ⟨7⟩).any fun row =>
          row.siteId = some ⟨1⟩) = true := by decide
  obtain ⟨s, hs, hrun⟩ := (Option.any_eq_true _ _).mp hrun
  obtain ⟨t, ht, hrun⟩ := (Option.any_eq_true _ _).mp hrun
  obtain ⟨hbound, howner⟩ := Bool.and_eq_true_iff.mp hrun
  obtain ⟨row, hrow, hbound⟩ := List.any_eq_true.mp hbound
  obtain ⟨endpoint, hfind, howner⟩ := (Option.any_eq_true _ _).mp howner
  have hreach : Reachable noHash s := reach_follow (.init rfl) hs
  have hsteps := steps_of_follow ht
  have howns : Owns s.center.projection ⟨1⟩ ⟨7⟩ :=
    ⟨endpoint, hfind, of_decide_eq_true howner⟩
  exact ⟨s, t, hreach, hsteps, howns,
    site_rows_untouched noHash ⟨1⟩ s t hreach
      ⟨row, hrow, of_decide_eq_true hbound⟩ hsteps ⟨7⟩ (.inl howns)⟩

end Rutilus.Proofs.SiteIsolation
