import Mathlib.Data.List.Perm.Subperm
import Rutilus.Lib.Rely
import Rutilus.Proofs.RateBooks

/-!
# Attempts and refunds that cross

What an attempt does with its places: it takes one in each map, gives the first
back if the second is refused, and ends with both or with none. A refund gives
back the two of its reservation, one after the other.

The invariant ties the places in the maps to the calls, so what holds of places
holds of reservations.
-/

namespace Rutilus.Proofs.RateCalls

open Rutilus.Domain Rutilus.Lib Rutilus.Web.RateLimiter
open Rutilus.Proofs.RateBooks Rutilus.Proofs.RateLimits

variable {lower : Lowercase}

/-! ## One attempt -/

/-- The tokens an attempt holds. -/
structure Notes where
  user : Option Nat
  ip : Option Nat

def noteOf (n : Notes) : (q : LockReq) → q.Resp → Notes
  | .reserveUsernameKey .., r => { n with user := r }
  | .reserveIpKey .., r => { n with ip := r }
  | .refundUsername .., _ => { n with user := none }
  | _, _ => n

/-- What an attempt may ask for. -/
def Lawful (key ip : String) (now : Instant) : LockReq → Notes → Prop
  | .reserveUsernameKey key' ip' now' limit, n => key' = key ∧ ip' = ip ∧
      now' = now ∧ limit = usernameFailureLimit ∧ n.user = none
  | .reserveIpKey key' now' limit, n => key' = ip ∧ now' = now ∧
      limit = ipFailureLimit ∧ n.ip = none
  | .refundUsername key' token, n => key' = key ∧ n.user = some token
  | .refundIp .., _ => False
  | _, _ => True

/-- The tokens of a reservation, or none. -/
def held : Option Reservation → Notes
  | some r => ⟨some r.usernameToken, some r.ipToken⟩
  | none => ⟨none, none⟩

def NoteCalls : Sem locks Notes := fun q n r n' => n' = noteOf n q r

abbrev AttemptSafe (key ip : String) (now : Instant)
    (p : Prog locks (Option Reservation)) (n : Notes) : Prop :=
  Safe NoteCalls Eq (fun q n _ => Lawful key ip now q n) p
    (fun r n => n = held r) n

theorem reserve_safe {username ip : String} {now : Instant} :
    AttemptSafe (boundedUsernameKey lower username) ip now
      (reserve lower username ip now) ⟨none, none⟩ := by
  rintro n rfl r n₁ rfl
  refine ⟨⟨rfl, rfl, rfl, rfl, rfl⟩, ?_⟩
  cases r with
  | none => exact (rfl : (⟨none, none⟩ : Notes) = held none)
  | some usernameToken =>
      rintro n₂ rfl r n₃ rfl
      refine ⟨⟨rfl, rfl, rfl, rfl⟩, ?_⟩
      cases r with
      | none =>
          rintro n₄ rfl r n₅ rfl
          refine ⟨⟨rfl, rfl⟩, ?_⟩
          rintro n₆ rfl r n₇ rfl
          refine ⟨trivial, ?_⟩
          rintro n₈ rfl r n₉ rfl
          exact ⟨trivial, rfl⟩
      | some ipToken =>
          rintro n₄ rfl r n₅ rfl
          refine ⟨trivial, ?_⟩
          rintro n₆ rfl r n₇ rfl
          exact ⟨trivial, rfl⟩

/-! ## Calls and their places -/

def userSlot (i : Nat) (key ip : String) (now : Instant) (token : Nat) : Slot :=
  ⟨i, key, ⟨now, ip, token⟩⟩

def ipSlot (i : Nat) (ip : String) (now : Instant) (token : Nat) : Slot :=
  ⟨i, ip, ⟨now, ip, token⟩⟩

/-- An attempt owns the places of the tokens it holds. -/
def AttemptInv (s : Maps) (i : Nat) (key ip : String) (now : Instant)
    (rest : Prog locks (Option Reservation)) : Prop :=
  ∃ n, AttemptSafe key ip now rest n ∧
    owned s.users i = (n.user.map (userSlot i key ip now)).toList ∧
    owned s.ips i = (n.ip.map (ipSlot i ip now)).toList

/-- The places of a reservation that is given back. -/
def RefundedInv (s : Maps) (i : Nat) (key ip : String) (now : Instant)
    (r : Reservation) : Prop :=
  Spent s.users (userSlot i key ip now r.usernameToken) ∧
    Spent s.ips (ipSlot i ip now r.ipToken)

/-- A refund before its first call, between its calls, and after them. -/
def RefundInv (s : Maps) (i : Nat) (key ip : String) (r : Reservation)
    (rest : Prog locks Unit) : Prop :=
  (rest = .call (.refundUsername key r.usernameToken) fun _ =>
      .call (.refundIp ip r.ipToken) fun _ => .ret ()) ∨
    (rest = .call (.refundIp ip r.ipToken) fun _ => .ret ()) ∧
      owned s.users i = [] ∨
    rest = .ret () ∧ owned s.users i = [] ∧ owned s.ips i = []

def CallInv (lower : Lowercase) (s : Maps) (calls : List Call) (i : Nat) :
    Call → Prop
  | .reserve username ip now false rest =>
      AttemptInv s i (boundedUsernameKey lower username) ip now rest
  | .reserve username ip now true rest => ∃ r, rest = .ret (some r) ∧
      RefundedInv s i (boundedUsernameKey lower username) ip now r
  | .refund j rest => ∃ username ip now r,
      calls[j]? = some (.reserve username ip now true (.ret (some r))) ∧
        RefundInv s j (boundedUsernameKey lower username) ip r rest

structure Inv (lower : Lowercase) (s : State) : Prop where
  users : Good usernameFailureLimit s.maps.users
  ips : Good ipFailureLimit s.maps.ips
  userOwners : ∀ slot ∈ s.maps.users.live, slot.owner < s.calls.length
  ipOwners : ∀ slot ∈ s.maps.ips.live, slot.owner < s.calls.length
  calls : ∀ i c, s.calls[i]? = some c → CallInv lower s.maps s.calls i c

section Frames

variable {s s' : Maps} {calls calls' : List Call} {i j : Nat} {key ip : String}
  {now : Instant} {r : Reservation}

/-- What a step on behalf of call `i` leaves to the others. -/
structure Frame (i : Nat) (s s' : Maps) : Prop where
  users : Other i s.users s'.users
  ips : Other i s.ips s'.ips

theorem AttemptInv.other {rest : Prog locks (Option Reservation)}
    (h : AttemptInv s j key ip now rest) (hs : Frame i s s') (hj : j ≠ i) :
    AttemptInv s' j key ip now rest := by
  obtain ⟨n, hsafe, huser, hip⟩ := h
  exact ⟨n, hsafe, (hs.users.owned j hj).trans huser,
    (hs.ips.owned j hj).trans hip⟩

theorem RefundedInv.other (h : RefundedInv s j key ip now r)
    (hs : Frame i s s') (hj : j ≠ i) : RefundedInv s' j key ip now r :=
  ⟨hs.users.spent _ hj h.1, hs.ips.spent _ hj h.2⟩

theorem RefundInv.other {rest : Prog locks Unit}
    (h : RefundInv s j key ip r rest)
    (huser : owned s.users j = [] → owned s'.users j = [])
    (hip : owned s.ips j = [] → owned s'.ips j = []) :
    RefundInv s' j key ip r rest := by
  rcases h with h | ⟨h, h₁⟩ | ⟨h, h₁, h₂⟩
  · exact .inl h
  · exact .inr (.inl ⟨h, huser h₁⟩)
  · exact .inr (.inr ⟨h, huser h₁, hip h₂⟩)

/-- A refund leaves no place where none was. -/
theorem refund_nil {b : Books} {token : Nat} (h : owned b j = []) :
    owned (b.refund key token) j = [] := by
  refine List.sublist_nil.mp (h ▸ ?_)
  exact List.Sublist.filter _ List.filter_sublist

theorem refunded_of_attempt (h : AttemptInv s i key ip now (.ret (some r)))
    (huser : Agrees s.users) (hip : Agrees s.ips) :
    RefundedInv s i key ip now r := by
  obtain ⟨n, hn, h₁, h₂⟩ := h
  obtain rfl : n = held (some r) := hn
  exact ⟨spent_of_owned huser h₁, spent_of_owned hip h₂⟩

end Frames

/-! ## Steps -/

section Steps

variable {s s' : State} {i : Nat}

theorem inv_initial (h : Initial s) : Inv lower s := by
  obtain ⟨⟨clock, hmaps⟩, hcalls⟩ := h
  have hgood : ∀ limit, Good limit ⟨.empty, clock, []⟩ := fun limit =>
    ⟨agrees_empty clock, fun _ _ _ => Nat.zero_le _⟩
  refine ⟨?_, ?_, ?_, ?_, ?_⟩
  · rw [hmaps]
    exact hgood _
  · rw [hmaps]
    exact hgood _
  · rw [hmaps]
    exact nofun
  · rw [hmaps]
    exact nofun
  · rw [hcalls]
    exact nofun

theorem owned_fresh {b : Books} {n : Nat}
    (h : ∀ slot ∈ b.live, slot.owner < n) : owned b n = [] := by
  unfold owned
  rw [List.filter_eq_nil_iff]
  intro slot hslot howner
  exact Nat.lt_irrefl n (of_decide_eq_true howner ▸ h slot hslot)

/-- An attempt's step. -/
theorem perform_attempt {m m' : Maps} {key ip : String} {now : Instant}
    {q : LockReq} {r : q.Resp} {n : Notes}
    (huser : Good usernameFailureLimit m.users)
    (hip : Good ipFailureLimit m.ips) (hq : Lawful key ip now q n)
    (hown : owned m.users i = (n.user.map (userSlot i key ip now)).toList)
    (hown' : owned m.ips i = (n.ip.map (ipSlot i ip now)).toList)
    (h : perform i q m = some (r, m')) :
    Frame i m m' ∧ Good usernameFailureLimit m'.users ∧
      Good ipFailureLimit m'.ips ∧
      owned m'.users i =
        ((noteOf n q r).user.map (userSlot i key ip now)).toList ∧
      owned m'.ips i =
        ((noteOf n q r).ip.map (ipSlot i ip now)).toList := by
  cases q with
  | reserveUsernameKey key' ip' now' limit =>
      obtain ⟨rfl, rfl, rfl, rfl, hnone⟩ := hq
      simp only [perform] at h
      split at h
      · cases h
      · next hnow =>
          cases h
          rw [hnone] at hown
          exact ⟨⟨reserve_other, .refl i _⟩,
            huser.reserve (Int.not_lt.mp hnow) fun _ => Nat.le_refl _, hip,
            reserve_owned hown, hown'⟩
  | reserveIpKey key' now' limit =>
      obtain ⟨rfl, rfl, rfl, hnone⟩ := hq
      simp only [perform] at h
      split at h
      · cases h
      · next hnow =>
          cases h
          rw [hnone] at hown'
          exact ⟨⟨.refl i _, reserve_other⟩, huser,
            hip.reserve (Int.not_lt.mp hnow) fun _ => List.length_filter_le ..,
            hown, reserve_owned hown'⟩
  | refundUsername key' token =>
      obtain ⟨rfl, htoken⟩ := hq
      cases h
      rw [htoken] at hown
      have hspent : Spent m.users (userSlot i key' ip now token) :=
        spent_of_owned huser.agrees hown
      exact ⟨⟨refund_other hspent, .refl i _⟩, huser.refund, hip,
        refund_owned hspent, hown'⟩
  | refundIp key' token => exact hq.elim
  | sweepUsername now' =>
      cases h
      exact ⟨⟨sweepIfDue_other, .refl i _⟩, huser.sweepIfDue, hip, hown, hown'⟩
  | sweepIp now' =>
      cases h
      exact ⟨⟨.refl i _, sweepIfDue_other⟩, huser, hip.sweepIfDue, hown, hown'⟩

theorem getElem?_set_ne {α : Type} {l : List α} {a : α} {i j : Nat}
    (h : j ≠ i) : (l.set i a)[j]? = l[j]? := by
  rw [List.getElem?_set, if_neg (Ne.symm h)]

theorem getElem?_set_self {α : Type} {l : List α} {a b : α} {i : Nat}
    (h : l[i]? = some b) : (l.set i a)[i]? = some a := by
  rw [List.getElem?_set, if_pos rfl, if_pos (List.getElem?_eq_some_iff.mp h).1]

theorem Inv.attempt {username ip : String} {now : Instant} {q : LockReq}
    {k : q.Resp → Prog locks (Option Reservation)} {r : q.Resp} {m : Maps}
    (h : Inv lower s)
    (hi : s.calls[i]? = some (.reserve username ip now false (.call q k)))
    (hperform : perform i q s.maps = some (r, m)) :
    Inv lower ⟨m, s.calls.set i (.reserve username ip now false (k r))⟩ := by
  obtain ⟨n, hsafe, huser, hip⟩ := h.calls i _ hi
  obtain ⟨hlawful, hrest⟩ := hsafe n rfl r _ rfl
  obtain ⟨hframe, hgood, hgood', hown, hown'⟩ :=
    perform_attempt h.users h.ips hlawful huser hip hperform
  have hlength : i < s.calls.length := (List.getElem?_eq_some_iff.mp hi).1
  refine ⟨hgood, hgood', fun slot hslot => ?_, fun slot hslot => ?_, ?_⟩
  · rw [List.length_set]
    rcases hframe.users.live slot hslot with howner | hslot
    · rw [howner]
      exact hlength
    · exact h.userOwners slot hslot
  · rw [List.length_set]
    rcases hframe.ips.live slot hslot with howner | hslot
    · rw [howner]
      exact hlength
    · exact h.ipOwners slot hslot
  · intro j c hj
    by_cases heq : j = i
    · subst heq
      rw [getElem?_set_self hi] at hj
      cases hj
      exact ⟨_, hrest, hown, hown'⟩
    · rw [getElem?_set_ne heq] at hj
      have hc := h.calls j c hj
      match c with
      | .reserve username' ip' now' false rest => exact hc.other hframe heq
      | .reserve username' ip' now' true rest =>
          obtain ⟨r', hret, hc⟩ := hc
          exact ⟨r', hret, hc.other hframe heq⟩
      | .refund of rest =>
          obtain ⟨username', ip', now', r', htarget, hc⟩ := hc
          have hne : of ≠ i := by
            rintro rfl
            rw [hi] at htarget
            cases htarget
          refine ⟨username', ip', now', r', ?_, hc.other ?_ ?_⟩
          · rw [getElem?_set_ne hne]
            exact htarget
          · rw [hframe.users.owned of hne]
            exact id
          · rw [hframe.ips.owned of hne]
            exact id

/-- The two calls of a refund of call `j`, by the map they are on. -/
inductive RefundStep (j : Nat) (key ip : String) (now : Instant)
    (r : Reservation) (rest rest' : Prog locks Unit) (m m' : Maps) : Prop where
  | user (before : rest = .call (.refundUsername key r.usernameToken) fun _ =>
        .call (.refundIp ip r.ipToken) fun _ => .ret ())
      (after : rest' = .call (.refundIp ip r.ipToken) fun _ => .ret ())
      (maps : m' = { m with users := m.users.refund key r.usernameToken })
  | ip (before : rest = .call (.refundIp ip r.ipToken) fun _ => .ret ())
      (after : rest' = .ret ()) (empty : owned m.users j = [])
      (maps : m' = { m with ips := m.ips.refund ip r.ipToken })

theorem refund_cases {m m' : Maps} {j k : Nat} {key ip : String}
    {now : Instant} {r : Reservation} {q : LockReq}
    {f : q.Resp → Prog locks Unit} {a : q.Resp}
    (h : RefundInv m j key ip r (.call q f))
    (hperform : perform k q m = some (a, m')) :
    RefundStep j key ip now r (.call q f) (f a) m m' := by
  rcases h with h | ⟨h, hempty⟩ | ⟨h, -⟩
  · have h' := h
    cases h
    cases hperform
    exact .user rfl rfl rfl
  · cases h
    cases hperform
    exact .ip rfl rfl hempty rfl
  · cases h

theorem RefundStep.frame {m m' : Maps} {j : Nat} {key ip : String}
    {now : Instant} {r : Reservation} {rest rest' : Prog locks Unit}
    (h : RefundStep j key ip now r rest rest' m m')
    (hspent : RefundedInv m j key ip now r)
    (huser : Good usernameFailureLimit m.users)
    (hip : Good ipFailureLimit m.ips) :
    Frame j m m' ∧ Good usernameFailureLimit m'.users ∧
      Good ipFailureLimit m'.ips ∧ RefundedInv m' j key ip now r ∧
      RefundInv m' j key ip r rest' ∧
      (∀ j', owned m.users j' = [] → owned m'.users j' = []) ∧
      (∀ j', owned m.ips j' = [] → owned m'.ips j' = []) ∧
      (∀ slot ∈ m'.users.live, slot ∈ m.users.live) ∧
      ∀ slot ∈ m'.ips.live, slot ∈ m.ips.live := by
  cases h with
  | user before after maps =>
      subst maps
      exact ⟨⟨refund_other hspent.1, .refl j _⟩, huser.refund, hip,
        ⟨refund_spent hspent.1, hspent.2⟩,
        .inr (.inl ⟨after, refund_owned hspent.1⟩), fun _ => refund_nil,
        fun _ => id, fun _ => List.mem_of_mem_filter, fun _ => id⟩
  | ip before after empty maps =>
      subst maps
      exact ⟨⟨.refl j _, refund_other hspent.2⟩, huser, hip.refund,
        ⟨hspent.1, refund_spent hspent.2⟩,
        .inr (.inr ⟨after, empty, refund_owned hspent.2⟩), fun _ => id,
        fun _ => refund_nil, fun _ => id, fun _ => List.mem_of_mem_filter⟩

/-- The reservation a refund is of. -/
theorem Inv.refunded (h : Inv lower s) {username ip : String} {now : Instant}
    {r : Reservation} {j : Nat}
    (hj : s.calls[j]? = some (.reserve username ip now true (.ret (some r)))) :
    RefundedInv s.maps j (boundedUsernameKey lower username) ip now r := by
  obtain ⟨r', hr', hc⟩ := h.calls j _ hj
  cases hr'
  exact hc

theorem Inv.refund {j : Nat} {q : LockReq} {f : q.Resp → Prog locks Unit}
    {r : q.Resp} {m : Maps} (h : Inv lower s)
    (hi : s.calls[i]? = some (.refund j (.call q f)))
    (hperform : perform i q s.maps = some (r, m)) :
    Inv lower ⟨m, s.calls.set i (.refund j (f r))⟩ := by
  obtain ⟨username, ip, now, reservation, htarget, hrefund⟩ := h.calls i _ hi
  obtain ⟨hframe, hgood, hgood', hspent, hafter, hnil, hnil', hlive, hlive'⟩ :=
    (refund_cases hrefund hperform).frame (h.refunded htarget)
      h.users h.ips
  have htargets : ∀ (j' : Nat) username' ip' now' r', s.calls[j']? =
      some (Call.reserve username' ip' now' true (.ret (some r'))) →
      (s.calls.set i (.refund j (f r)))[j']? =
        some (Call.reserve username' ip' now' true (.ret (some r'))) := by
    intro j' username' ip' now' r' hj'
    rw [getElem?_set_ne, hj']
    rintro rfl
    rw [hi] at hj'
    cases hj'
  refine ⟨hgood, hgood', fun slot hslot => ?_, fun slot hslot => ?_, ?_⟩
  · rw [List.length_set]
    exact h.userOwners slot (hlive slot hslot)
  · rw [List.length_set]
    exact h.ipOwners slot (hlive' slot hslot)
  · intro j' c hj'
    by_cases heq : j' = i
    · subst heq
      rw [getElem?_set_self hi] at hj'
      cases hj'
      exact ⟨username, ip, now, reservation, htargets _ _ _ _ _ htarget, hafter⟩
    · rw [getElem?_set_ne heq] at hj'
      have hc := h.calls j' c hj'
      match c with
      | .reserve username' ip' now' false rest =>
          refine hc.other hframe ?_
          rintro rfl
          rw [hj'] at htarget
          cases htarget
      | .reserve username' ip' now' true rest =>
          obtain ⟨r', hret, hc⟩ := hc
          refine ⟨r', hret, ?_⟩
          by_cases hj : j' = j
          · subst hj
            rw [hj', Option.some.injEq] at htarget
            cases htarget
            cases hret
            exact hspent
          · exact hc.other hframe hj
      | .refund of rest =>
          obtain ⟨username', ip', now', r', hof, hc⟩ := hc
          exact ⟨username', ip', now', r', htargets _ _ _ _ _ hof,
            hc.other (hnil of) (hnil' of)⟩

/-- A call that begins. -/
theorem Inv.begin {c : Call} (h : Inv lower s)
    (hc : CallInv lower s.maps (s.calls ++ [c]) s.calls.length c) :
    Inv lower { s with calls := s.calls ++ [c] } := by
  have hlength : s.calls.length < (s.calls ++ [c]).length := by
    rw [List.length_append]
    exact Nat.lt_succ_self _
  refine ⟨h.users, h.ips, fun slot hslot =>
    Nat.lt_trans (h.userOwners slot hslot) hlength, fun slot hslot =>
    Nat.lt_trans (h.ipOwners slot hslot) hlength, fun j c' hj => ?_⟩
  rcases Nat.lt_or_ge j s.calls.length with hlt | hge
  · rw [List.getElem?_append_left hlt] at hj
    have hc' := h.calls j c' hj
    match c' with
    | .reserve username ip now false rest => exact hc'
    | .reserve username ip now true rest => exact hc'
    | .refund of rest =>
        obtain ⟨username, ip, now, r, hof, hc'⟩ := hc'
        refine ⟨username, ip, now, r, ?_, hc'⟩
        rw [List.getElem?_append_left (List.getElem?_eq_some_iff.mp hof).1]
        exact hof
  · rw [List.getElem?_append_right hge] at hj
    have hzero : j - s.calls.length = 0 := by
      obtain ⟨hlt, -⟩ := List.getElem?_eq_some_iff.mp hj
      exact Nat.lt_one_iff.mp hlt
    rw [hzero] at hj
    cases hj
    have : j = s.calls.length := by omega
    rw [this]
    exact hc

/-- A reservation whose refund begins. -/
theorem Inv.mark {username ip : String} {now : Instant} {refunded : Bool}
    {r : Reservation} (h : Inv lower s)
    (hi : s.calls[i]? =
      some (.reserve username ip now refunded (.ret (some r)))) :
    Inv lower { s with
      calls := s.calls.set i
        (.reserve username ip now true (.ret (some r))) } := by
  have hspent : RefundedInv s.maps i (boundedUsernameKey lower username) ip
      now r := by
    cases refunded with
    | false =>
        exact refunded_of_attempt (h.calls i _ hi) h.users.agrees h.ips.agrees
    | true => exact h.refunded hi
  refine ⟨h.users, h.ips, fun slot hslot => ?_, fun slot hslot => ?_, ?_⟩
  · rw [List.length_set]
    exact h.userOwners slot hslot
  · rw [List.length_set]
    exact h.ipOwners slot hslot
  · intro j c hj
    by_cases heq : j = i
    · subst heq
      rw [getElem?_set_self hi] at hj
      cases hj
      exact ⟨r, rfl, hspent⟩
    · rw [getElem?_set_ne heq] at hj
      have hc := h.calls j c hj
      match c with
      | .reserve username' ip' now' false rest => exact hc
      | .reserve username' ip' now' true rest => exact hc
      | .refund of rest =>
          obtain ⟨username', ip', now', r', hof, hc⟩ := hc
          refine ⟨username', ip', now', r', ?_, hc⟩
          by_cases heq' : of = i
          · subst heq'
            rw [hof, Option.some.injEq] at hi
            cases hi
            exact getElem?_set_self hof
          · rw [getElem?_set_ne heq']
            exact hof

theorem inv_next (h : Inv lower s) (hstep : Next (next lower) s s') :
    Inv lower s' := by
  obtain ⟨a, hstep⟩ := hstep
  cases a with
  | reserve username ip now =>
      cases hstep
      exact h.begin ⟨⟨none, none⟩, reserve_safe, owned_fresh h.userOwners,
        owned_fresh h.ipOwners⟩
  | refund i =>
      simp only [next] at hstep
      split at hstep
      · next username ip now refunded r hi =>
          cases hstep
          have hmark := h.mark hi
          refine Inv.begin hmark ⟨username, ip, now, r, ?_, .inl rfl⟩
          have hset := getElem?_set_self (a := Call.reserve username ip now true
            (.ret (some r))) hi
          rw [List.getElem?_append_left (List.getElem?_eq_some_iff.mp hset).1]
          exact hset
      · cases hstep
  | step i =>
      simp only [next] at hstep
      split at hstep
      · next username ip now refunded q k hi =>
          obtain ⟨⟨r, m⟩, hperform, hstep⟩ := Option.map_eq_some_iff.mp hstep
          cases hstep
          cases refunded with
          | false => exact h.attempt hi hperform
          | true =>
              obtain ⟨r', hret, -⟩ := h.calls i _ hi
              cases hret
      · next j q f hi =>
          obtain ⟨⟨r, m⟩, hperform, hstep⟩ := Option.map_eq_some_iff.mp hstep
          cases hstep
          exact h.refund hi hperform
      · cases hstep

theorem inv_reachable (h : Reachable lower s) : Inv lower s :=
  h.inv (P := Inv lower) (fun _ => inv_initial) fun _ _ => inv_next

end Steps

/-! ## Granted and not refunded -/

/-- A reservation of some key and address, in some window, that nobody gives
back. -/
def granted (lower : Lowercase) (key ip : String) (start : Instant) :
    Call → Bool
  | .reserve username ip' now refunded (.ret (some _)) =>
      boundedUsernameKey lower username = key ∧ ip' = ip ∧ refunded = false ∧
        start ≤ now ∧ now < start + rateWindow
  | _ => false

/-- The same for an address alone. -/
def grantedTo (ip : String) (start : Instant) : Call → Bool
  | .reserve _ ip' now refunded (.ret (some _)) =>
      ip' = ip ∧ refunded = false ∧ start ≤ now ∧ now < start + rateWindow
  | _ => false

/-- The numbers of the calls that satisfy `p`. -/
def callsWith (p : Call → Bool) (s : State) : List Nat :=
  (List.range s.calls.length).filter fun i => s.calls[i]?.any p

/-- Calls with a place each are not more than the places. -/
theorem length_callsWith {p : Call → Bool} {s : State} {b : Books}
    {limit : Nat} (key ip : String) (start : Instant) (hb : Bounded limit b)
    (h : ∀ i c, s.calls[i]? = some c → p c = true → ∃ slot ∈ b.live,
      slot.owner = i ∧ slot.key = key ∧ slot.entry.ip = ip ∧
        Window.inWindow Entry.at' rateWindow start slot.entry = true) :
    (callsWith p s).length ≤ limit := by
  have hsub : callsWith p s ⊆ ((b.live.filter fun slot => slot.key = key ∧
      slot.entry.ip = ip ∧ Window.inWindow Entry.at' rateWindow start
        slot.entry = true).map Slot.owner) := by
    intro i hi
    obtain ⟨-, hany⟩ := List.mem_filter.mp hi
    obtain ⟨c, hc, hp⟩ := (Option.any_eq_true _ _).mp hany
    obtain ⟨slot, hslot, howner, hrest⟩ := h i c hc hp
    exact List.mem_map.mpr ⟨slot, List.mem_filter.mpr
      ⟨hslot, decide_eq_true hrest⟩, howner⟩
  have hnodup : (callsWith p s).Nodup := List.nodup_range.filter _
  refine Nat.le_trans (hnodup.subperm hsub).length_le ?_
  rw [List.length_map]
  refine Nat.le_trans (Nat.le_of_eq ?_) (hb key ip start)
  unfold taken
  rw [List.filter_map, List.filter_map, List.length_map, List.filter_filter,
    List.filter_filter]
  congr 1
  refine List.filter_congr fun slot _ => ?_
  simp only [Function.comp_apply, Bool.decide_and, Bool.decide_eq_true]
  rw [Bool.and_comm (decide (slot.entry.ip = ip)), Bool.and_comm,
    Bool.and_assoc]

section Granted

variable {s : State} {i : Nat} {username ip : String} {now : Instant}
  {r : Reservation}

theorem Inv.granted (h : Inv lower s)
    (hi : s.calls[i]? = some (.reserve username ip now false (.ret (some r)))) :
    userSlot i (boundedUsernameKey lower username) ip now r.usernameToken ∈
        s.maps.users.live ∧
      ipSlot i ip now r.ipToken ∈ s.maps.ips.live := by
  obtain ⟨n, hn, h₁, h₂⟩ := h.calls i _ hi
  obtain rfl : n = held (some r) := hn
  have hmem : ∀ {b : Books} {x : Slot}, owned b i = [x] → x ∈ b.live :=
    fun {_ x} hx => List.mem_of_mem_filter (hx ▸ List.mem_singleton_self x)
  exact ⟨hmem h₁, hmem h₂⟩

theorem Inv.limits (h : Inv lower s) (key : String) (start : Instant) :
    (callsWith (RateCalls.granted lower key ip start) s).length ≤
        usernameFailureLimit ∧
      (callsWith (grantedTo ip start) s).length ≤ ipFailureLimit := by
  constructor
  · refine length_callsWith key ip start h.users.bounded fun i c hc hp => ?_
    unfold RateCalls.granted at hp
    split at hp
    · next username ip' now refunded r =>
        obtain ⟨rfl, rfl, rfl, hlow, hhigh⟩ := of_decide_eq_true hp
        exact ⟨_, (h.granted hc).1, rfl, rfl, rfl,
          decide_eq_true ⟨hlow, hhigh⟩⟩
    · cases hp
  · refine length_callsWith ip ip start h.ips.bounded fun i c hc hp => ?_
    unfold grantedTo at hp
    split at hp
    · next username ip' now refunded r =>
        obtain ⟨rfl, rfl, hlow, hhigh⟩ := of_decide_eq_true hp
        exact ⟨_, (h.granted hc).2, rfl, rfl, rfl,
          decide_eq_true ⟨hlow, hhigh⟩⟩
    · cases hp

/-- Every entry of the map is a place of some other call. -/
def NoneOf (i : Nat) (b : Books) : Prop :=
  ∀ key, ∀ e ∈ bucketOf b.map key,
    ∃ slot ∈ b.live, slot.owner ≠ i ∧ slot.key = key ∧ slot.entry = e

theorem noneOf_of_owned {b : Books} (hb : Agrees b) (h : owned b i = []) :
    NoneOf i b := by
  intro key e he
  obtain ⟨slot, hslot, hkey, rfl⟩ := mem_taken.mp ((hb.sub key).mem he)
  refine ⟨slot, hslot, fun howner => ?_, hkey, rfl⟩
  have hmem : slot ∈ owned b i :=
    List.mem_filter.mpr ⟨hslot, decide_eq_true howner⟩
  rw [h] at hmem
  cases hmem

theorem Inv.refused (h : Inv lower s) {refunded : Bool}
    (hi : s.calls[i]? = some (.reserve username ip now refunded (.ret none))) :
    NoneOf i s.maps.users ∧ NoneOf i s.maps.ips := by
  cases refunded with
  | true =>
      obtain ⟨r, hr, -⟩ := h.calls i _ hi
      cases hr
  | false =>
      obtain ⟨n, hn, h₁, h₂⟩ := h.calls i _ hi
      obtain rfl : n = held none := hn
      exact ⟨noneOf_of_owned h.users.agrees h₁, noneOf_of_owned h.ips.agrees h₂⟩

end Granted

/-! ## Refunds -/

/-- The second map is the first without the entry that has the token. -/
def Without (token : Nat) (m m' : BucketMap) : Prop :=
  ∀ key, bucketOf m' key = (bucketOf m key).filter fun e => ¬ e.token = token

/-- Only one entry has the token. -/
def Names (token : Nat) (m : BucketMap) (key : String) (entry : Entry) : Prop :=
  ∀ key', ∀ e ∈ bucketOf m key', e.token = token → key' = key ∧ e = entry

theorem names_of_spent {b : Books} {x : Slot} (hb : Agrees b) (h : Spent b x) :
    Names x.entry.token b.map x.key x.entry := by
  intro key e he htoken
  obtain ⟨slot, hslot, hkey, rfl⟩ := mem_taken.mp ((hb.sub key).mem he)
  rw [h.2 slot hslot (.inr htoken)] at hkey ⊢
  exact ⟨hkey.symm, rfl⟩

/-- What a refund of the reservation of call `j` does at its next step. -/
structure Refunds (lower : Lowercase) (s : State) (i j : Nat)
    (rest : Prog locks Unit) (username ip : String) (now : Instant)
    (r : Reservation) : Prop where
  target : s.calls[j]? = some (.reserve username ip now true (.ret (some r)))
  user : Names r.usernameToken s.maps.users.map
    (boundedUsernameKey lower username) ⟨now, ip, r.usernameToken⟩
  ip : Names r.ipToken s.maps.ips.map ip ⟨now, ip, r.ipToken⟩
  step : ∀ s', next lower s (.step i) = some s' →
    Without r.usernameToken s.maps.users.map s'.maps.users.map ∧
        s'.maps.ips = s.maps.ips ∨
      s'.maps.users = s.maps.users ∧
        Without r.ipToken s.maps.ips.map s'.maps.ips.map
  done : rest = .ret () → NoneOf j s.maps.users ∧ NoneOf j s.maps.ips

theorem without_user {b : Books} {key ip : String} {now : Instant}
    {owner token : Nat} (hb : Agrees b)
    (h : Spent b (userSlot owner key ip now token)) :
    Without token b.map (b.refund key token).map :=
  fun key' => refund_bucket hb h key'

theorem without_ip {b : Books} {ip : String} {now : Instant}
    {owner token : Nat} (hb : Agrees b)
    (h : Spent b (ipSlot owner ip now token)) :
    Without token b.map (b.refund ip token).map :=
  fun key' => refund_bucket hb h key'

theorem Inv.refunds {s : State} {i j : Nat} {rest : Prog locks Unit}
    (h : Inv lower s) (hi : s.calls[i]? = some (.refund j rest)) :
    ∃ username ip now r, Refunds lower s i j rest username ip now r := by
  obtain ⟨username, ip, now, r, htarget, hrefund⟩ := h.calls i _ hi
  have hspent := h.refunded htarget
  have huser := names_of_spent h.users.agrees hspent.1
  have hip := names_of_spent h.ips.agrees hspent.2
  refine ⟨username, ip, now, r, ⟨htarget, huser, hip, fun s' hstep => ?_,
    fun hdone => ?_⟩⟩
  · simp only [next, hi] at hstep
    cases rest with
    | ret a => cases hstep
    | call q f =>
        obtain ⟨⟨a, m⟩, hperform, hstep⟩ := Option.map_eq_some_iff.mp hstep
        cases hstep
        cases @refund_cases _ _ _ _ _ _ now _ _ _ _ hrefund hperform with
        | user before after maps =>
            subst maps
            exact .inl ⟨without_user h.users.agrees hspent.1, rfl⟩
        | ip before after empty maps =>
            subst maps
            exact .inr ⟨rfl, without_ip h.ips.agrees hspent.2⟩
  · rcases hrefund with hrest | ⟨hrest, -⟩ | ⟨-, h₁, h₂⟩
    · rw [hdone] at hrest
      cases hrest
    · rw [hdone] at hrest
      cases hrest
    · exact ⟨noneOf_of_owned h.users.agrees h₁,
        noneOf_of_owned h.ips.agrees h₂⟩

/-! ## Sweeps -/

/-- The same places taken, by a map that may be swept further. -/
structure Swept (b b' : Books) : Prop where
  live : b'.live = b.live
  token : b'.map.nextToken = b.map.nextToken
  clock : b.clock ≤ b'.clock
  agrees : Agrees b
  agrees' : Agrees b'

section Sweeps

variable {b b' : Books} {key ip : String} {now : Instant}
  {owner token limit : Nat} {count : List Entry → Nat}

theorem Swept.answer (h : Swept b b') (hnow : b'.clock ≤ now) :
    (reserveKey count b.map key ip now limit).1 =
      (reserveKey count b'.map key ip now limit).1 := by
  rw [h.agrees.answer (Int.le_trans h.clock hnow), h.agrees'.answer hnow,
    h.live, h.token]

theorem Swept.reserve (h : Swept b b') (hnow : b'.clock ≤ now) :
    Swept (b.reserve (reserveKey count b.map key ip now limit) owner key ip now)
      (b'.reserve (reserveKey count b'.map key ip now limit) owner key ip
        now) where
  live := by
    unfold Books.reserve
    dsimp only
    rw [h.live, h.answer hnow]
  token := by
    unfold Books.reserve
    dsimp only
    rw [nextToken_reserveKey, nextToken_reserveKey, h.token]
  clock := Int.le_refl _
  agrees := h.agrees.reserve (Int.le_trans h.clock hnow)
  agrees' := h.agrees'.reserve hnow

theorem Swept.refund (h : Swept b b') :
    Swept (b.refund key token) (b'.refund key token) where
  live := by
    unfold Books.refund
    dsimp only
    rw [h.live]
  token := by
    unfold Books.refund
    dsimp only
    rw [nextToken_refund, nextToken_refund, h.token]
  clock := h.clock
  agrees := h.agrees.refund
  agrees' := h.agrees'.refund

theorem Swept.sweepIfDue (h : Swept b b') :
    Swept (b.sweepIfDue now) (b'.sweepIfDue now) where
  live := h.live
  token := by rw [sweepIfDue_same.2, sweepIfDue_same.2, h.token]
  clock := Int.max_le.mpr ⟨Int.le_trans h.clock (Int.le_max_left ..),
    Int.le_max_right ..⟩
  agrees := h.agrees.sweepIfDue
  agrees' := h.agrees'.sweepIfDue

theorem Swept.of_agrees (h : Agrees b) : Swept b b :=
  ⟨rfl, rfl, Int.le_refl _, h, h⟩

theorem Swept.of_sweep (h : Agrees b) : Swept b (b.sweep now) :=
  ⟨rfl, rfl, Int.le_max_left .., h, h.sweep⟩

/-- The same calls, with the same answers so far, on maps swept further. -/
structure SweptState (s t : State) : Prop where
  users : Swept s.maps.users t.maps.users
  ips : Swept s.maps.ips t.maps.ips
  calls : t.calls = s.calls

theorem SweptState.perform {m m' : Maps} {q : LockReq} {r : q.Resp}
    {m₁' : Maps} (hu : Swept m.users m'.users) (hi : Swept m.ips m'.ips)
    (h : perform owner q m' = some (r, m₁')) :
    ∃ m₁, perform owner q m = some (r, m₁) ∧ Swept m₁.users m₁'.users ∧
      Swept m₁.ips m₁'.ips := by
  cases q with
  | reserveUsernameKey key ip now limit =>
      simp only [Web.RateLimiter.perform] at h ⊢
      split at h
      · cases h
      · next hnow =>
          cases h
          rw [if_neg fun hlt =>
            hnow (Int.lt_of_lt_of_le hlt hu.clock)]
          have hnow := Int.not_lt.mp hnow
          exact ⟨_, congrArg (fun r => some (r, _)) (hu.answer hnow),
            hu.reserve hnow, hi⟩
  | reserveIpKey key now limit =>
      simp only [Web.RateLimiter.perform] at h ⊢
      split at h
      · cases h
      · next hnow =>
          cases h
          rw [if_neg fun hlt =>
            hnow (Int.lt_of_lt_of_le hlt hi.clock)]
          have hnow := Int.not_lt.mp hnow
          exact ⟨_, congrArg (fun r => some (r, _)) (hi.answer hnow), hu,
            hi.reserve hnow⟩
  | refundUsername key token =>
      cases h
      exact ⟨_, rfl, hu.refund, hi⟩
  | refundIp key token =>
      cases h
      exact ⟨_, rfl, hu, hi.refund⟩
  | sweepUsername now =>
      cases h
      exact ⟨_, rfl, hu.sweepIfDue, hi⟩
  | sweepIp now =>
      cases h
      exact ⟨_, rfl, hu, hi.sweepIfDue⟩

theorem SweptState.next {s t t' : State} {a : Label} (h : SweptState s t)
    (hstep : next lower t a = some t') :
    ∃ s', Web.RateLimiter.next lower s a = some s' ∧ SweptState s' t' := by
  obtain ⟨hu, hi, hcalls⟩ := h
  cases a with
  | reserve username ip now =>
      cases hstep
      exact ⟨_, rfl, hu, hi, by rw [hcalls]⟩
  | refund i =>
      simp only [Web.RateLimiter.next, hcalls] at hstep ⊢
      split at hstep
      · cases hstep
        exact ⟨_, rfl, hu, hi, rfl⟩
      · cases hstep
  | step i =>
      simp only [Web.RateLimiter.next, hcalls] at hstep ⊢
      split at hstep
      · next username ip now refunded q k hi' =>
          obtain ⟨⟨r, m⟩, hperform, hstep⟩ := Option.map_eq_some_iff.mp hstep
          cases hstep
          obtain ⟨m₁, hperform', hu', hi'⟩ :=
            SweptState.perform hu hi hperform
          refine ⟨⟨m₁, s.calls.set i (.reserve username ip now refunded (k r))⟩,
            ?_, hu', hi', rfl⟩
          rw [hperform']
          rfl
      · next j q f hi' =>
          obtain ⟨⟨r, m⟩, hperform, hstep⟩ := Option.map_eq_some_iff.mp hstep
          cases hstep
          obtain ⟨m₁, hperform', hu', hi'⟩ :=
            SweptState.perform hu hi hperform
          refine ⟨⟨m₁, s.calls.set i (.refund j (f r))⟩, ?_, hu', hi', rfl⟩
          rw [hperform']
          rfl
      · cases hstep

theorem SweptState.follow {s t t' : State} {as : List Label}
    (h : SweptState s t)
    (hsteps : Lib.follow (Web.RateLimiter.next lower) t as = some t') :
    ∃ s', Lib.follow (Web.RateLimiter.next lower) s as = some s' ∧
      SweptState s' t' := by
  induction as generalizing s t with
  | nil =>
      cases hsteps
      exact ⟨s, rfl, h⟩
  | cons a as ih =>
      obtain ⟨u, hu, hsteps⟩ := Option.bind_eq_some_iff.mp hsteps
      obtain ⟨v, hv, hsame⟩ := h.next hu
      obtain ⟨s', hs', hsame'⟩ := ih hsame hsteps
      exact ⟨s', Option.bind_eq_some_iff.mpr ⟨v, hv, hs'⟩, hsame'⟩

end Sweeps

/-- A full sweep of one of the maps. -/
inductive SweepsTo (s : State) : State → Prop where
  | users (now : Instant) : SweepsTo s
      { s with maps := { s.maps with users := s.maps.users.sweep now } }
  | ips (now : Instant) : SweepsTo s
      { s with maps := { s.maps with ips := s.maps.ips.sweep now } }

end Rutilus.Proofs.RateCalls
