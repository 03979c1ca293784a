import Rutilus.App.Admission

/-!
# The binding table over any history

What a call can do to the table is said once, in `step_cases`: it registers a
pending row for a site without an active one, it binds a pending row under its
code, it revokes a row, or it changes nothing. The uniqueness facts follow from
that: a row never becomes pending again, so no code is used twice, and no second
row of a fingerprint is bound while one is.

The lookup by fingerprint asks for the latest registration. That is the bound
row only if no other row with the fingerprint, long revoked, was registered
after it.
-/

namespace Rutilus.Proofs.BindingTable

open Rutilus.Domain Rutilus.Lib Rutilus.Store Rutilus.App.Admission

variable {sha : Bytes → Digest} {s t : State}

/-! ## What a call does -/

/-- What happens to the rows: nothing, a registration, a bind or a
revocation. -/
inductive Change (call : Call) (s t : State) : Prop where
  | same (table : t.table = s.table) (bound : t.bound = s.bound)
      (revoked : ∀ id ∈ t.revoked, id ∈ s.revoked ∨
        ∃ row, s.table.find id = some row ∧ row.state = .revoked)
  | register (row : CenterBinding) (fresh : s.table.find row.id = none)
      (free : ∀ other ∈ s.table.rows,
        other.siteInstanceId = row.siteInstanceId → isActive other = false)
      (shape : row.shapeMatches = true) (pending : row.state = .pending)
      (unnamed : row.siteCertFingerprint = none)
      (rows : t.table.rows = s.table.rows ++ [row])
      (bound : t.bound = s.bound) (revoked : t.revoked = s.revoked)
  | bind (row : CenterBinding) (fingerprint : Option CertificateFingerprint)
      (now : Instant)
      (named : ∃ code, call = .bind none row.id code fingerprint now)
      (found : s.table.find row.id = some row)
      (pending : row.state = .pending)
      (free : ∀ F, fingerprint = some F → ∀ other ∈ s.table.rows,
        other.id ≠ row.id → other.siteCertFingerprint = some F →
          other.state ≠ .bound)
      (table : t.table = s.table.replace (boundRow row fingerprint now))
      (bound : t.bound = s.bound ++ [row.id]) (revoked : t.revoked = s.revoked)
  | revoke (row : CenterBinding) (found : s.table.find row.id = some row)
      (live : row.state ≠ .revoked)
      (table : t.table = s.table.replace (revokedRow row))
      (bound : t.bound = s.bound) (revoked : t.revoked = s.revoked ++ [row.id])

theorem step_cases {call : Call} (h : (call.run sha s).2 = t) :
    Change call s t := by
  have hsame : Change call s s := .same rfl rfl fun id hid => .inl hid
  cases call with
  | create fault instances id centerUrl site code expiresAt createdAt =>
      cases fault with
      | some f => exact h ▸ hsame
      | none =>
          simp only [Call.run] at h
          split at h
          · exact h ▸ hsame
          · next table htable =>
              obtain ⟨hfree, hnone, hshape, hrows⟩ := createBinding_ok htable
              subst h
              exact .register _ hnone hfree hshape rfl rfl hrows rfl rfl
  | bind fault id code fingerprint now =>
      cases fault with
      | some f => exact h ▸ hsame
      | none =>
          simp only [Call.run] at h
          split at h
          · exact h ▸ hsame
          · next table hok =>
              obtain ⟨row, hrow, hpending, -, hfree, -, htable⟩ :=
                bindWithCode_ok hok
              obtain rfl : row.id = id := Table.key_of_find hrow
              subst h
              exact .bind row fingerprint now ⟨code, rfl⟩ hrow hpending hfree htable
                rfl rfl
  | revoke fault id =>
      cases fault with
      | some f => exact h ▸ hsame
      | none =>
          simp only [Call.run] at h
          split at h
          · exact h ▸ hsame
          · next outcome table hok =>
              obtain ⟨row, hrow, hrevoked⟩ := revokeBinding_ok hok
              obtain rfl : row.id = id := Table.key_of_find hrow
              subst h
              rcases hrevoked with ⟨hlive, -, htable⟩ | ⟨hstate, htable⟩
              · exact .revoke row hrow hlive htable rfl rfl
              · refine .same htable rfl fun id hid => ?_
                rcases List.mem_append.mp hid with hid | hid
                · exact .inl hid
                · rw [List.mem_singleton] at hid
                  exact .inr ⟨row, hid ▸ hrow, hstate⟩

/-! ## The invariant -/

structure Inv (s : State) : Prop where
  shape : ∀ row ∈ s.table.rows, row.shapeMatches = true
  unnamed : ∀ row ∈ s.table.rows, row.state = .pending →
    row.siteCertFingerprint = none
  boundOnce : ∀ F, ∀ row ∈ s.table.rows, ∀ other ∈ s.table.rows,
    row.state = .bound → row.siteCertFingerprint = some F →
    other.state = .bound → other.siteCertFingerprint = some F → other = row
  activeOnce : ∀ row ∈ s.table.rows, ∀ other ∈ s.table.rows,
    isActive row = true → isActive other = true →
    other.siteInstanceId = row.siteInstanceId → other = row
  nodup : s.bound.Nodup
  used : ∀ id, id ∈ s.bound ∨ id ∈ s.revoked →
    ∃ row, s.table.find id = some row ∧ row.state ≠ .pending

theorem inv_init : Inv initial where
  shape := by intro row hrow; cases hrow
  unnamed := by intro row hrow; cases hrow
  boundOnce := by intro F row hrow; cases hrow
  activeOnce := by intro row hrow; cases hrow
  nodup := List.nodup_nil
  used := by rintro id (hid | hid) <;> cases hid

theorem mem_of_find {row : CenterBinding} (h : s.table.find row.id = some row) :
    row ∈ s.table.rows :=
  (Table.find_eq_some_iff.mp h).1

theorem eq_of_id {row other : CenterBinding} (hrow : row ∈ s.table.rows)
    (hother : other ∈ s.table.rows) (h : other.id = row.id) : other = row :=
  List.inj_on_of_nodup_map s.table.nodup hother hrow h

section Replaced

variable {row new : CenterBinding}

/-- The rows after one was bound or revoked. -/
theorem mem_replaced (hrow : s.table.find row.id = some row)
    (hid : new.id = row.id) (htable : t.table = s.table.replace new)
    {x : CenterBinding} : x ∈ t.table.rows ↔
      x = new ∨ x ∈ s.table.rows ∧ x.id ≠ row.id := by
  rw [htable, ← hid]
  exact Table.mem_replace (hid ▸ hrow)

/-- An active row that was active before is still the only one of its site. -/
theorem Inv.replaced_active (h : Inv s) (hrow : s.table.find row.id = some row)
    (hid : new.id = row.id) (hsite : new.siteInstanceId = row.siteInstanceId)
    (hactive : isActive new = true → isActive row = true)
    (htable : t.table = s.table.replace new) :
    ∀ x ∈ t.table.rows, ∀ y ∈ t.table.rows, isActive x = true →
      isActive y = true → y.siteInstanceId = x.siteInstanceId → y = x := by
  intro x hx y hy hxa hya hxy
  rw [mem_replaced hrow hid htable] at hx hy
  have hmem := mem_of_find hrow
  rcases hx with rfl | ⟨hx, hxid⟩
  · rcases hy with rfl | ⟨hy, hyid⟩
    · rfl
    · have heq := h.activeOnce row hmem y hy (hactive hxa) hya
        (hxy.trans hsite)
      exact absurd (congrArg CenterBinding.id heq) hyid
  · rcases hy with rfl | ⟨hy, -⟩
    · have heq := h.activeOnce row hmem x hx (hactive hya) hxa
        (hxy.symm.trans hsite)
      exact absurd (congrArg CenterBinding.id heq) hxid
    · exact h.activeOnce x hx y hy hxa hya hxy

/-- A row that left the pending state stays out of it. -/
theorem Inv.replaced_used (h : Inv s) (hrow : s.table.find row.id = some row)
    (hid : new.id = row.id) (hnew : new.state ≠ .pending)
    (htable : t.table = s.table.replace new) {id : CenterBindingId}
    (hused : id = row.id ∨ id ∈ s.bound ∨ id ∈ s.revoked) :
    ∃ x, t.table.find id = some x ∧ x.state ≠ .pending := by
  by_cases heq : id = row.id
  · refine ⟨new, ?_, hnew⟩
    rw [htable, Table.find_replace, heq]
    exact if_pos ⟨hid, by rw [hrow]; rfl⟩
  · obtain ⟨x, hx, hstate⟩ := h.used id (hused.resolve_left heq)
    refine ⟨x, ?_, hstate⟩
    rw [htable, Table.find_replace, if_neg, hx]
    rintro ⟨hk, -⟩
    exact heq (hk.symm.trans hid)

end Replaced

theorem Inv.register (h : Inv s) {row : CenterBinding}
    (hfree : ∀ other ∈ s.table.rows,
      other.siteInstanceId = row.siteInstanceId → isActive other = false)
    (hshape : row.shapeMatches = true) (hpending : row.state = .pending)
    (hunnamed : row.siteCertFingerprint = none)
    (hfresh : s.table.find row.id = none)
    (hrows : t.table.rows = s.table.rows ++ [row]) (hbound : t.bound = s.bound)
    (hrevoked : t.revoked = s.revoked) : Inv t := by
  have hmem : ∀ x, x ∈ t.table.rows ↔ x ∈ s.table.rows ∨ x = row := by
    intro x
    rw [hrows, List.mem_append, List.mem_singleton]
  refine ⟨?_, ?_, ?_, ?_, hbound ▸ h.nodup, ?_⟩
  · intro x hx
    rcases (hmem x).mp hx with hx | rfl
    · exact h.shape x hx
    · exact hshape
  · intro x hx hstate
    rcases (hmem x).mp hx with hx | rfl
    · exact h.unnamed x hx hstate
    · exact hunnamed
  · intro F x hx y hy hxb hxF hyb hyF
    rcases (hmem x).mp hx with hx | rfl
    · rcases (hmem y).mp hy with hy | rfl
      · exact h.boundOnce F x hx y hy hxb hxF hyb hyF
      · rw [hunnamed] at hyF
        cases hyF
    · rw [hunnamed] at hxF
      cases hxF
  · intro x hx y hy hxa hya hxy
    rcases (hmem x).mp hx with hx | rfl
    · rcases (hmem y).mp hy with hy | rfl
      · exact h.activeOnce x hx y hy hxa hya hxy
      · rw [hfree x hx hxy.symm] at hxa
        cases hxa
    · rcases (hmem y).mp hy with hy | rfl
      · rw [hfree y hy hxy] at hya
        cases hya
      · rfl
  · intro id hid
    rw [hbound, hrevoked] at hid
    obtain ⟨x, hx, hstate⟩ := h.used id hid
    obtain ⟨hx, hxid⟩ := Table.find_eq_some_iff.mp hx
    exact ⟨x, Table.find_eq_some_iff.mpr ⟨(hmem x).mpr (.inl hx), hxid⟩, hstate⟩

theorem Inv.bind (h : Inv s) {row : CenterBinding}
    {fingerprint : Option CertificateFingerprint} {now : Instant}
    (hrow : s.table.find row.id = some row) (hpending : row.state = .pending)
    (hfree : ∀ F, fingerprint = some F → ∀ other ∈ s.table.rows,
      other.id ≠ row.id → other.siteCertFingerprint = some F →
        other.state ≠ .bound)
    (htable : t.table = s.table.replace (boundRow row fingerprint now))
    (hbound : t.bound = s.bound ++ [row.id])
    (hrevoked : t.revoked = s.revoked) : Inv t := by
  have hmem := @mem_replaced s t row (boundRow row fingerprint now) hrow rfl
    htable
  have hactive := @Inv.replaced_active s t row (boundRow row fingerprint now) h
    hrow rfl rfl (fun _ => by simp [isActive, hpending]) htable
  have hused := @Inv.replaced_used s t row (boundRow row fingerprint now) h hrow
    rfl nofun htable
  refine ⟨?_, ?_, ?_, hactive, ?_, ?_⟩
  · intro x hx
    rcases hmem.mp hx with rfl | ⟨hx, -⟩
    · rfl
    · exact h.shape x hx
  · intro x hx hstate
    rcases hmem.mp hx with rfl | ⟨hx, -⟩
    · cases hstate
    · exact h.unnamed x hx hstate
  · intro F x hx y hy hxb hxF hyb hyF
    rcases hmem.mp hx with rfl | ⟨hx, hxid⟩
    · rcases hmem.mp hy with rfl | ⟨hy, hyid⟩
      · rfl
      · exact absurd hyb (hfree F hxF y hy hyid hyF)
    · rcases hmem.mp hy with rfl | ⟨hy, hyid⟩
      · exact absurd hxb (hfree F hyF x hx hxid hxF)
      · exact h.boundOnce F x hx y hy hxb hxF hyb hyF
  · rw [hbound, List.nodup_append]
    refine ⟨h.nodup, List.nodup_singleton _, ?_⟩
    intro id hid id' hid' heq
    rw [List.mem_singleton] at hid'
    obtain ⟨x, hx, hstate⟩ := h.used id (.inl hid)
    rw [heq, hid', hrow] at hx
    cases hx
    exact hstate hpending
  · intro id hid
    refine hused ?_
    rw [hbound, hrevoked, List.mem_append, List.mem_singleton] at hid
    rcases hid with (hid | hid) | hid
    · exact .inr (.inl hid)
    · exact .inl hid
    · exact .inr (.inr hid)

theorem Inv.revoke (h : Inv s) {row : CenterBinding}
    (hrow : s.table.find row.id = some row) (_hlive : row.state ≠ .revoked)
    (htable : t.table = s.table.replace (revokedRow row))
    (hbound : t.bound = s.bound)
    (hrevoked : t.revoked = s.revoked ++ [row.id]) : Inv t := by
  have hmem := @mem_replaced s t row (revokedRow row) hrow rfl htable
  have hactive := @Inv.replaced_active s t row (revokedRow row) h hrow rfl rfl
    nofun htable
  have hused := @Inv.replaced_used s t row (revokedRow row) h hrow rfl nofun
    htable
  refine ⟨?_, ?_, ?_, hactive, hbound ▸ h.nodup, ?_⟩
  · intro x hx
    rcases hmem.mp hx with rfl | ⟨hx, -⟩
    · rfl
    · exact h.shape x hx
  · intro x hx hstate
    rcases hmem.mp hx with rfl | ⟨hx, -⟩
    · cases hstate
    · exact h.unnamed x hx hstate
  · intro F x hx y hy hxb hxF hyb hyF
    rcases hmem.mp hx with rfl | ⟨hx, hxid⟩
    · cases hxb
    · rcases hmem.mp hy with rfl | ⟨hy, hyid⟩
      · cases hyb
      · exact h.boundOnce F x hx y hy hxb hxF hyb hyF
  · intro id hid
    refine hused ?_
    rw [hbound, hrevoked, List.mem_append, List.mem_singleton] at hid
    rcases hid with hid | hid | hid
    · exact .inr (.inl hid)
    · exact .inr (.inr hid)
    · exact .inl hid

theorem Inv.change {call : Call} (h : Inv s) (hst : Change call s t) :
    Inv t := by
  cases hst with
  | same htable hbound hrevoked =>
      refine ⟨htable ▸ h.shape, htable ▸ h.unnamed, htable ▸ h.boundOnce,
        htable ▸ h.activeOnce, hbound ▸ h.nodup, ?_⟩
      intro id hid
      rw [htable]
      rcases hid with hid | hid
      · exact h.used id (.inl (hbound ▸ hid))
      · rcases hrevoked id hid with hid | ⟨row, hrow, hstate⟩
        · exact h.used id (.inr hid)
        · refine ⟨row, hrow, ?_⟩
          rw [hstate]
          nofun
  | register row hfresh hfree hshape hpending hunnamed hrows hbound hrevoked =>
      exact h.register hfree hshape hpending hunnamed hfresh hrows hbound
        hrevoked
  | bind row fingerprint now _ hrow hpending hfree htable hbound hrevoked =>
      exact h.bind hrow hpending hfree htable hbound hrevoked
  | revoke row hrow hlive htable hbound hrevoked =>
      exact h.revoke hrow hlive htable hbound hrevoked

theorem Inv.of_reach (h : Reachable sha s) : Inv s := by
  refine h.inv (P := Inv) ?_ ?_
  · rintro s rfl
    exact inv_init
  · rintro s t hs ⟨call, hcall⟩
    exact hs.change (step_cases hcall)

/-- Two registrations of one site, the first revoked; the second is bound under
its code and the code is presented again. -/
def registeredTwice : List Call :=
  [.create none (fun _ => true) ⟨1⟩ "center" ⟨7⟩ ⟨[1]⟩ 10 0,
    .create none (fun _ => true) ⟨2⟩ "center" ⟨7⟩ ⟨[2]⟩ 10 1,
    .revoke none ⟨1⟩,
    .create none (fun _ => true) ⟨2⟩ "center" ⟨7⟩ ⟨[2]⟩ 10 1,
    .bind none ⟨2⟩ ⟨[2]⟩ (some ⟨[9]⟩) 2, .bind none ⟨2⟩ ⟨[2]⟩ none 3]

end Rutilus.Proofs.BindingTable

/-!
## The lookup at admission

`findBindingBySiteFingerprint` asks for the latest registration with a
fingerprint. Registration and binding are separate calls, and a fingerprint may
come back after a revocation, so the bound row need not be the one registered
last: `bound_found_iff` says when it is. A bind that lands on a row registered
after every other row with its fingerprint keeps the lookup exact, and one that
does not breaks it at once, whatever happened before.
-/

namespace Rutilus.Proofs.BindingLookup

open Rutilus.Domain Rutilus.Lib Rutilus.Store Rutilus.App.Admission
open Rutilus.Proofs.BindingTable

variable {sha : Bytes → Digest} {s t : State}
  {F : CertificateFingerprint} {row : CenterBinding}

/-! ## The rows the query may answer with -/

theorem mem_latestWith {table : BindingTable} : row ∈ latestWith table F ↔
    row ∈ table.rows ∧ row.siteCertFingerprint = some F ∧
      ∀ other ∈ table.rows, other.siteCertFingerprint = some F →
        other.createdAt ≤ row.createdAt := by
  simp only [latestWith, List.mem_filter, List.all_eq_true, decide_eq_true_eq]
  constructor
  · rintro ⟨⟨hrow, hF⟩, hall⟩
    exact ⟨hrow, hF, fun other hother hoF => hall other ⟨hother, hoF⟩⟩
  · rintro ⟨hrow, hF, hall⟩
    exact ⟨⟨hrow, hF⟩, fun other hother => hall other hother.1 hother.2⟩

/-- An answer is one of them. -/
theorem mem_of_found {table : BindingTable} {choice : Nat}
    (h : findBindingBySiteFingerprint table choice F = .ok (some row)) :
    row ∈ latestWith table F := by
  unfold findBindingBySiteFingerprint at h
  simp only at h
  split at h
  · cases h
  · next found hfound =>
      cases hmap : mapStoredBinding found with
      | error e =>
          rw [hmap] at h
          cases h
      | ok binding =>
          rw [hmap] at h
          cases h
          rw [mapStoredBinding_ok hmap]
          exact List.mem_of_getElem? hfound

/-- Each of them is answered under some choice, if it is read back. -/
theorem found_of_mem {table : BindingTable} (h : row ∈ latestWith table F) :
    ∃ choice, findBindingBySiteFingerprint table choice F =
      (mapStoredBinding row).map some := by
  obtain ⟨i, hi, rfl⟩ := List.mem_iff_getElem.mp h
  refine ⟨i, ?_⟩
  unfold findBindingBySiteFingerprint
  simp only [Nat.mod_eq_of_lt hi, List.getElem?_eq_getElem hi]

theorem found_of_singleton {table : BindingTable}
    (h : ∀ other, other ∈ latestWith table F ↔ other = row) (choice : Nat) :
    findBindingBySiteFingerprint table choice F =
      (mapStoredBinding row).map some := by
  have hpos : 0 < (latestWith table F).length :=
    List.length_pos_of_mem ((h row).mpr rfl)
  have hlt := Nat.mod_lt choice hpos
  unfold findBindingBySiteFingerprint
  simp only [List.getElem?_eq_getElem hlt]
  rw [(h _).mp (List.getElem_mem hlt)]

theorem mapStoredBinding_bound (hbound : row.state = .bound)
    (hshape : row.shapeMatches = true) :
    mapStoredBinding row = .ok row ↔
      ∀ boundAt, row.boundAt = some boundAt → row.createdAt ≤ boundAt := by
  rw [← CenterBinding.tryFromParts_bound hbound hshape, mapStoredBinding]
  cases row.tryFromParts with
  | error e => simp [Except.mapError]
  | ok b => simp [Except.mapError]

/-- The times a bound row needs to be found: it was bound after it was
registered, and registered after every other row with its fingerprint. -/
def Newest (table : BindingTable) (F : CertificateFingerprint)
    (row : CenterBinding) : Prop :=
  (∀ boundAt, row.boundAt = some boundAt → row.createdAt ≤ boundAt) ∧
    ∀ other ∈ table.rows, other.siteCertFingerprint = some F →
      other.id ≠ row.id → other.createdAt < row.createdAt

/-- A bound row is the answer, whichever row the query may choose, if and only
if its times are these. -/
theorem bound_found_iff (h : Inv s) (hrow : row ∈ s.table.rows)
    (hbound : row.state = .bound) (hF : row.siteCertFingerprint = some F) :
    (∀ choice, findBindingBySiteFingerprint s.table choice F =
      .ok (some row)) ↔ Newest s.table F row := by
  have hmap := mapStoredBinding_bound hbound (h.shape row hrow)
  constructor
  · intro hfound
    have hmem := mem_latestWith.mp (mem_of_found (hfound 0))
    obtain ⟨i, hi⟩ := found_of_mem (mem_latestWith.mpr hmem)
    have hback : mapStoredBinding row = .ok row := by
      rw [hfound i] at hi
      cases hm : mapStoredBinding row with
      | error e =>
          rw [hm] at hi
          cases hi
      | ok b => rw [mapStoredBinding_ok hm]
    refine ⟨hmap.mp hback, fun other hother hoF hid => ?_⟩
    refine lt_of_le_of_ne (hmem.2.2 other hother hoF) fun heq => hid ?_
    have hlatest : other ∈ latestWith s.table F :=
      mem_latestWith.mpr ⟨hother, hoF, fun x hx hxF =>
        heq ▸ hmem.2.2 x hx hxF⟩
    obtain ⟨j, hj⟩ := found_of_mem hlatest
    rw [hfound j] at hj
    cases hm : mapStoredBinding other with
    | error e =>
        rw [hm] at hj
        cases hj
    | ok b =>
        rw [hm] at hj
        cases hj
        rw [mapStoredBinding_ok hm]
  · rintro ⟨htimes, hnewest⟩ choice
    rw [found_of_singleton, hmap.mpr htimes]
    · rfl
    · intro other
      rw [mem_latestWith]
      constructor
      · rintro ⟨hother, hoF, hall⟩
        refine eq_of_id hrow hother ?_
        by_contra hid
        have hlt := hnewest other hother hoF hid
        exact absurd (hall row hrow hF) (Int.not_le.mpr hlt)
      · rintro rfl
        refine ⟨hrow, hF, fun x hx hxF => ?_⟩
        by_cases hid : x.id = other.id
        · rw [eq_of_id hrow hx hid]
        · exact Int.le_of_lt (hnewest x hx hxF hid)

/-! ## The answer of the admission -/

theorem resolve_found {find : CertificateFingerprint →
      Except CenterBindingRepositoryError (Option CenterBinding)}
    {identity : SiteIdentity} {declared : Option InstanceId}
    (hfind : find F = .ok (some row)) (hbound : row.state = .bound)
    (hF : row.siteCertFingerprint = some F)
    (hidentity : identity.boundSiteFingerprint = some F) :
    resolve find identity declared =
      if identity.subject ≠ some row.siteInstanceId then
        .ok (.rejected (.identity .subjectMismatch))
      else if declared ≠ some row.siteInstanceId then
        .ok (.rejected (.helloIdentityMismatch row.siteInstanceId))
      else .ok (.admitted ⟨row.siteInstanceId, row.id, F⟩) := by
  unfold resolve
  rw [hidentity]
  simp only [hfind, validateBoundIdentity, hbound, hidentity, hF, ne_eq,
    not_true_eq_false, if_false]
  by_cases hsubject : identity.subject = some row.siteInstanceId
  · simp only [hsubject, not_true_eq_false, if_false]
  · simp only [hsubject, not_false_eq_true, if_true]

/-- Whoever is admitted presents the fingerprint of a row in force. -/
theorem admitted_bound {choice : Nat} {identity : SiteIdentity}
    {declared : Option InstanceId} {site : ResolvedSite}
    (hidentity : identity.boundSiteFingerprint = some F)
    (h : resolve (findBindingBySiteFingerprint s.table choice) identity
      declared = .ok (.admitted site)) :
    ∃ row ∈ s.table.rows, row.siteCertFingerprint = some F ∧
      row.state = .bound := by
  unfold resolve at h
  rw [hidentity] at h
  simp only at h
  split at h
  · cases h
  · cases h
  · next binding hfind =>
      obtain ⟨hrow, hF, -⟩ := mem_latestWith.mp (mem_of_found hfind)
      refine ⟨binding, hrow, hF, ?_⟩
      by_contra hstate
      rw [validateBoundIdentity, if_pos hstate] at h
      cases h

/-! ## Histories -/

/-- The lookup answers with the bound row and only with it: a certificate is
admitted for the site that is bound with it, its fingerprint is never said to
be unbound or unknown, and without a bound row nobody is admitted with it. -/
def Exact (s : State) : Prop :=
  ∀ F,
    (∀ row ∈ s.table.rows, row.state = .bound →
      row.siteCertFingerprint = some F → ∀ choice,
        findBindingBySiteFingerprint s.table choice F = .ok (some row) ∧
        resolve (findBindingBySiteFingerprint s.table choice)
            ⟨some F, some row.siteInstanceId⟩ (some row.siteInstanceId) =
          .ok (.admitted ⟨row.siteInstanceId, row.id, F⟩) ∧
        ∀ subject declared,
          resolve (findBindingBySiteFingerprint s.table choice)
              ⟨some F, subject⟩ declared ∉
            [.ok (.rejected (.identity .notBound)),
              .ok (.rejected .unknownSite)]) ∧
    ((∀ row ∈ s.table.rows, row.siteCertFingerprint = some F →
        row.state ≠ .bound) →
      ∀ choice subject declared site,
        resolve (findBindingBySiteFingerprint s.table choice)
            ⟨some F, subject⟩ declared ≠ .ok (.admitted site))

theorem exact_iff (h : Inv s) : Exact s ↔
    ∀ F, ∀ row ∈ s.table.rows, row.state = .bound →
      row.siteCertFingerprint = some F → Newest s.table F row := by
  constructor
  · intro hexact F row hrow hbound hF
    exact (bound_found_iff h hrow hbound hF).mp fun choice =>
      ((hexact F).1 row hrow hbound hF choice).1
  · intro hnewest F
    refine ⟨fun row hrow hbound hF choice => ?_, ?_⟩
    · have hfind := (bound_found_iff h hrow hbound hF).mpr
        (hnewest F row hrow hbound hF) choice
      have hresolve := fun subject declared =>
        @resolve_found F row (findBindingBySiteFingerprint s.table choice)
          ⟨some F, subject⟩ declared hfind hbound hF rfl
      refine ⟨hfind, ?_, fun subject declared => ?_⟩
      · rw [hresolve, if_neg (fun hne => hne rfl), if_neg (fun hne => hne rfl)]
      · rw [hresolve]
        split
        · simp
        · split <;> simp
    · intro hnone choice subject declared site hadmitted
      obtain ⟨row, hrow, hF, hbound⟩ := admitted_bound rfl hadmitted
      exact hnone row hrow hF hbound

/-- A bind, when it names a certificate, is of the row registered last among
those with its fingerprint, and not before it was registered. -/
def OfNewest (s : State) : Call → Prop
  | .bind _ id _ (some F) now => ∀ row, s.table.find id = some row →
      row.createdAt ≤ now ∧
        ∀ other ∈ s.table.rows, other.siteCertFingerprint = some F →
          other.id ≠ id → other.createdAt < row.createdAt
  | _ => True

abbrev StepOfNewest (sha : Bytes → Digest) (s t : State) : Prop :=
  ∃ call, OfNewest s call ∧ (call.run sha s).2 = t

/-- A row that was not bound and is not changed by the call keeps its times
and its fingerprint; a revoked one too. -/
theorem newest_step {call : Call} (hnewest : ∀ F,
      ∀ row ∈ s.table.rows, row.state = .bound →
        row.siteCertFingerprint = some F → Newest s.table F row)
    (hcall : OfNewest s call) (hst : Change call s t) :
    ∀ F, ∀ row ∈ t.table.rows, row.state = .bound →
      row.siteCertFingerprint = some F → Newest t.table F row := by
  intro F row hrow hbound hF
  cases hst with
  | same htable =>
      rw [htable] at hrow ⊢
      exact hnewest F row hrow hbound hF
  | register new _ _ _ hpending hunnamed hrows =>
      rw [hrows, List.mem_append, List.mem_singleton] at hrow
      rcases hrow with hrow | rfl
      · obtain ⟨htimes, hlast⟩ := hnewest F row hrow hbound hF
        refine ⟨htimes, fun other hother hoF hid => ?_⟩
        rw [hrows, List.mem_append, List.mem_singleton] at hother
        rcases hother with hother | rfl
        · exact hlast other hother hoF hid
        · rw [hunnamed] at hoF
          cases hoF
      · rw [hpending] at hbound
        cases hbound
  | bind old fingerprint now hnamed hold hpending hfree htable =>
      obtain ⟨code, rfl⟩ := hnamed
      have hmem := @mem_replaced s t old (boundRow old fingerprint now) hold rfl
        htable
      rcases hmem.mp hrow with rfl | ⟨hrow, hid⟩
      · obtain rfl : fingerprint = some F := hF
        obtain ⟨hafter, hlast⟩ := hcall old hold
        refine ⟨fun boundAt hat => ?_, fun other hother hoF hoid => ?_⟩
        · cases hat
          exact hafter
        · rcases hmem.mp hother with rfl | ⟨hother, -⟩
          · exact absurd rfl hoid
          · exact hlast other hother hoF hoid
      · obtain ⟨htimes, hlast⟩ := hnewest F row hrow hbound hF
        refine ⟨htimes, fun other hother hoF hoid => ?_⟩
        rcases hmem.mp hother with rfl | ⟨hother, -⟩
        · exact absurd hbound (hfree F hoF row hrow hid hF)
        · exact hlast other hother hoF hoid
  | revoke old hold _ htable =>
      have hmem := @mem_replaced s t old (revokedRow old) hold rfl htable
      rcases hmem.mp hrow with rfl | ⟨hrow, hid⟩
      · cases hbound
      · obtain ⟨htimes, hlast⟩ := hnewest F row hrow hbound hF
        refine ⟨htimes, fun other hother hoF hoid => ?_⟩
        rcases hmem.mp hother with rfl | ⟨hother, -⟩
        · exact hlast old (mem_of_find hold) hoF hoid
        · exact hlast other hother hoF hoid

/-- A landed bind of another row leaves a row that the lookup misses. -/
theorem newest_of_bound {id : CenterBindingId} {code : BindingCode}
    {now : Instant} {fault : Option Fault}
    (hok : ((Call.bind fault id code (some F) now).run sha s).1 = .ok ())
    (hexact : ∀ F, ∀ row ∈ t.table.rows, row.state = .bound →
        row.siteCertFingerprint = some F → Newest t.table F row)
    (ht : ((Call.bind fault id code (some F) now).run sha s).2 = t) :
    OfNewest s (.bind fault id code (some F) now) := by
  cases fault with
  | some f => cases hok
  | none =>
      intro old hold
      simp only [Call.run] at hok ht
      split at hok
      · cases hok
      · next table htable =>
          obtain ⟨row, hrow, -, -, -, -, hrows⟩ := bindWithCode_ok htable
          obtain rfl : row = old := Option.some.inj (hrow.symm.trans hold)
          obtain rfl : row.id = id := Table.key_of_find hrow
          rw [htable] at ht
          subst ht
          have hmem := fun {x} =>
            @mem_replaced s { s with table, bound := s.bound ++ [row.id] } row
              (boundRow row (some F) now) hrow rfl hrows x
          obtain ⟨htimes, hlast⟩ :=
            hexact F (boundRow row (some F) now) (hmem.mpr (.inl rfl)) rfl rfl
          exact ⟨htimes now rfl, fun other hother hoF hid =>
            hlast other (hmem.mpr (.inr ⟨hother, hid⟩)) hoF hid⟩

/-- Two sites are registered; the second is bound with the certificate and
revoked, then the first is bound with it. -/
def boundInReverse : List Call :=
  [.create none (fun _ => true) ⟨1⟩ "center" ⟨7⟩ ⟨[1]⟩ 10 0,
    .create none (fun _ => true) ⟨2⟩ "center" ⟨8⟩ ⟨[2]⟩ 10 1,
    .bind none ⟨2⟩ ⟨[2]⟩ (some ⟨[9]⟩) 2, .revoke none ⟨2⟩,
    .bind none ⟨1⟩ ⟨[1]⟩ (some ⟨[9]⟩) 3]

end Rutilus.Proofs.BindingLookup
