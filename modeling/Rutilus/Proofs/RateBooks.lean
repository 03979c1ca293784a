import Mathlib.Data.List.Nodup
import Rutilus.Lib.Rely
import Rutilus.Web.RateLimiter

/-!
# The map against its books

Each map agrees with the list of places taken in it: a bucket is part of what
was taken under its key, and all of it that is not expired. So what a call is
answered depends on that list alone, and whether the map was swept makes no
difference.
-/

namespace Rutilus.Proofs.RateBooks

open Rutilus.Domain Rutilus.Lib Rutilus.Web.RateLimiter

/-! ## Buckets -/

def bucketOf (m : BucketMap) (key : String) : List Entry :=
  (m.buckets key).getD []

section Buckets

variable {m : BucketMap} {key key' ip : String} {now : Instant} {token : Nat}
  {count : List Entry → Nat} {limit : Nat}

theorem bucketOf_set {failures : List Entry} :
    bucketOf (m.set key failures) key' =
      if key' = key then failures else bucketOf m key' := by
  unfold bucketOf BucketMap.set
  dsimp only
  rw [Function.update_apply]
  split <;> rfl

theorem bucket_fst : (m.bucket key).1 = bucketOf m key := by
  unfold BucketMap.bucket bucketOf
  split
  · next h => rw [h]; rfl
  · next h => rw [h]; rfl

theorem bucketOf_bucket : bucketOf (m.bucket key).2 key' = bucketOf m key' := by
  unfold BucketMap.bucket
  split
  · rfl
  · next h =>
      have hset : bucketOf (m.set key []) key' = bucketOf m key' := by
        rw [bucketOf_set]
        split
        · next heq => rw [heq, bucketOf, h]; rfl
        · rfl
      exact hset

theorem nextToken_bucket : (m.bucket key).2.nextToken = m.nextToken := by
  unfold BucketMap.bucket
  split <;> rfl

/-- The failures a reservation looks at. -/
def looked (m : BucketMap) (key : String) (now : Instant) : List Entry :=
  pruneFront (bucketOf m key) now

theorem reserveKey_granted (h : count (looked m key now) < limit) :
    (reserveKey count m key ip now limit).1 = some m.nextToken ∧
      ∀ key', bucketOf (reserveKey count m key ip now limit).2 key' =
        if key' = key then looked m key now ++ [⟨now, ip, m.nextToken⟩]
        else bucketOf m key' := by
  have hlooked : looked m key now =
      pruneFront ({ m with nextToken := m.nextToken + 1 }.bucket key).1 now := by
    rw [bucket_fst]
    rfl
  unfold reserveKey
  dsimp only
  rw [← hlooked, if_pos h]
  refine ⟨rfl, fun key' => ?_⟩
  rw [bucketOf_set, bucketOf_bucket]
  rfl

theorem reserveKey_refused (h : ¬ count (looked m key now) < limit) :
    (reserveKey count m key ip now limit).1 = none ∧
      ∀ key', bucketOf (reserveKey count m key ip now limit).2 key' =
        if key' = key then looked m key now else bucketOf m key' := by
  have hlooked : looked m key now =
      pruneFront ({ m with nextToken := m.nextToken + 1 }.bucket key).1 now := by
    rw [bucket_fst]
    rfl
  unfold reserveKey
  dsimp only
  rw [← hlooked, if_neg h]
  refine ⟨rfl, fun key' => ?_⟩
  rw [bucketOf_set, bucketOf_bucket]
  rfl

theorem nextToken_reserveKey :
    (reserveKey count m key ip now limit).2.nextToken = m.nextToken + 1 := by
  unfold reserveKey
  dsimp only
  split
  · exact nextToken_bucket (m := { m with nextToken := m.nextToken + 1 })
  · exact nextToken_bucket (m := { m with nextToken := m.nextToken + 1 })

theorem bucketOf_refund :
    bucketOf (refundKeyByToken m key token) key' =
      if key' = key then (bucketOf m key).eraseP fun e => e.token = token
      else bucketOf m key' := by
  unfold refundKeyByToken
  split
  · next h =>
      split
      · next heq =>
          rw [heq]
          have hnil : bucketOf m key = [] := by
            unfold bucketOf
            rw [h]
            rfl
          rw [hnil]
          rfl
      · rfl
  · next failures h =>
      have hfailures : bucketOf m key = failures := by
        unfold bucketOf
        rw [h]
        rfl
      rw [bucketOf_set, hfailures]

theorem nextToken_refund :
    (refundKeyByToken m key token).nextToken = m.nextToken := by
  unfold refundKeyByToken
  split <;> rfl

theorem bucketOf_sweep : bucketOf (sweep m now) key = looked m key now := by
  unfold looked bucketOf sweep pruneExpired
  dsimp only
  cases m.buckets key with
  | none => rfl
  | some failures =>
      simp only [Option.bind_some, Option.getD_some]
      split
      · next h => exact (List.isEmpty_iff.mp h).symm
      · rfl

end Buckets

/-! ## Books -/

/-- What was taken under a key. -/
def taken (live : List Slot) (key : String) : List Entry :=
  (live.filter fun slot => slot.key = key).map Slot.entry

abbrev recentOf (now : Instant) (log : List Entry) : List Entry :=
  Window.recent Entry.at' rateWindow now log

structure Agrees (b : Books) : Prop where
  order : Window.InOrder (fun slot : Slot => slot.entry.at') b.live
  past : ∀ slot ∈ b.live, slot.entry.at' ≤ b.clock
  tokens : (b.live.map fun slot => slot.entry.token).Nodup
  minted : ∀ slot ∈ b.live, slot.entry.token < b.map.nextToken
  sub : ∀ key, (bucketOf b.map key).Sublist (taken b.live key)
  recent : ∀ key, recentOf b.clock (bucketOf b.map key) =
    recentOf b.clock (taken b.live key)

section Books

variable {b : Books} {key ip : String} {now : Instant} {owner token : Nat}
  {count : List Entry → Nat} {limit : Nat}

theorem mem_taken {live : List Slot} {e : Entry} :
    e ∈ taken live key ↔ ∃ slot ∈ live, slot.key = key ∧ slot.entry = e := by
  unfold taken
  rw [List.mem_map]
  constructor
  · rintro ⟨slot, hslot, rfl⟩
    obtain ⟨hmem, hkey⟩ := List.mem_filter.mp hslot
    exact ⟨slot, hmem, of_decide_eq_true hkey, rfl⟩
  · rintro ⟨slot, hmem, hkey, rfl⟩
    exact ⟨slot, List.mem_filter.mpr ⟨hmem, decide_eq_true hkey⟩, rfl⟩

theorem taken_append {live more : List Slot} :
    taken (live ++ more) key = taken live key ++ taken more key := by
  unfold taken
  rw [List.filter_append, List.map_append]

theorem taken_singleton {slot : Slot} :
    taken [slot] key = if key = slot.key then [slot.entry] else [] := by
  unfold taken
  by_cases h : key = slot.key
  · rw [if_pos h, List.filter_cons_of_pos (by rw [h]; exact decide_eq_true rfl)]
    rfl
  · rw [if_neg h, List.filter_cons_of_neg
      (by rw [decide_eq_true_eq]; exact Ne.symm h)]
    rfl

theorem Agrees.taken_order (h : Agrees b) (key : String) :
    Window.InOrder Entry.at' (taken b.live key) := by
  unfold taken Window.InOrder
  rw [List.pairwise_map]
  exact h.order.sublist List.filter_sublist

theorem Agrees.recent_later {later : Instant} (h : Agrees b)
    (hle : b.clock ≤ later) (key : String) :
    recentOf later (bucketOf b.map key) = recentOf later (taken b.live key) :=
  calc recentOf later (bucketOf b.map key)
      = recentOf later (recentOf b.clock (bucketOf b.map key)) :=
        (Window.recent_recent hle).symm
    _ = recentOf later (recentOf b.clock (taken b.live key)) := by
        rw [h.recent key]
    _ = recentOf later (taken b.live key) := Window.recent_recent hle

/-- What a reservation looks at is what is recent of the places taken. -/
theorem Agrees.looked (h : Agrees b) (hnow : b.clock ≤ now) (key : String) :
    looked b.map key now = recentOf now (taken b.live key) := by
  have horder : Window.InOrder Entry.at' (bucketOf b.map key) :=
    (h.taken_order key).sublist (h.sub key)
  unfold RateBooks.looked pruneFront
  rw [Window.dropOld_eq_recent horder]
  exact h.recent_later hnow key

theorem agrees_empty (clock : Instant) : Agrees ⟨.empty, clock, []⟩ where
  order := .nil
  past := nofun
  tokens := List.nodup_nil
  minted := nofun
  sub _ := .slnil
  recent _ := rfl

/-- The answer of a reservation, by the places taken. -/
theorem Agrees.answer (h : Agrees b) (hnow : b.clock ≤ now) :
    (reserveKey count b.map key ip now limit).1 =
      if count (recentOf now (taken b.live key)) < limit then
        some b.map.nextToken
      else none := by
  rw [← h.looked hnow key]
  split
  · next hfew => exact (reserveKey_granted hfew).1
  · next hfull => exact (reserveKey_refused hfull).1

theorem Agrees.reserve (h : Agrees b) (hnow : b.clock ≤ now) :
    Agrees (b.reserve (reserveKey count b.map key ip now limit) owner key ip
      now) := by
  have hlooked := h.looked hnow
  by_cases hfew : count (RateBooks.looked b.map key now) < limit
  · obtain ⟨hanswer, hbucket⟩ : (reserveKey count b.map key ip now limit).1 =
        some b.map.nextToken ∧ _ := reserveKey_granted hfew
    unfold Books.reserve
    rw [hanswer]
    have htaken : ∀ key', taken (b.live ++ [⟨owner, key,
        ⟨now, ip, b.map.nextToken⟩⟩]) key' = taken b.live key' ++
        if key' = key then [⟨now, ip, b.map.nextToken⟩] else [] := by
      intro key'
      rw [taken_append, taken_singleton]
    refine ⟨?_, ?_, ?_, ?_, fun key' => ?_, fun key' => ?_⟩
    · exact h.order.concat fun slot hslot =>
        Int.le_trans (h.past slot hslot) hnow
    · intro slot hslot
      rcases List.mem_append.mp hslot with hslot | hslot
      · exact Int.le_trans (h.past slot hslot) hnow
      · obtain rfl := List.mem_singleton.mp hslot
        exact Int.le_refl _
    · dsimp only [Option.map_some, Option.toList_some]
      rw [List.map_append]
      refine List.nodup_append.mpr ⟨h.tokens, List.pairwise_singleton .., ?_⟩
      rintro _ ht _ ht' rfl
      obtain ⟨slot, hslot, rfl⟩ := List.mem_map.mp ht
      have := h.minted slot hslot
      rw [List.mem_singleton.mp ht'] at this
      exact Nat.lt_irrefl _ this
    · intro slot hslot
      dsimp only
      rw [nextToken_reserveKey]
      rcases List.mem_append.mp hslot with hslot | hslot
      · exact Nat.lt_succ_of_lt (h.minted slot hslot)
      · rw [List.mem_singleton.mp hslot]
        exact Nat.lt_succ_self _
    · dsimp only [Option.map_some, Option.toList_some]
      rw [hbucket, htaken]
      split
      · next heq =>
          rw [heq, hlooked]
          exact List.filter_sublist.append_right _
      · rw [List.append_nil]
        exact h.sub key'
    · dsimp only [Option.map_some, Option.toList_some]
      rw [hbucket, htaken]
      split
      · next heq =>
          rw [heq, hlooked, recentOf, Window.recent_append,
            Window.recent_recent (Int.le_refl _), ← Window.recent_append]
      · rw [List.append_nil]
        exact h.recent_later hnow key'
  · obtain ⟨hanswer, hbucket⟩ : (reserveKey count b.map key ip now limit).1 =
        none ∧ _ := reserveKey_refused hfew
    unfold Books.reserve
    rw [hanswer]
    dsimp only [Option.map_none, Option.toList_none]
    rw [List.append_nil]
    refine ⟨h.order, fun slot hslot => Int.le_trans (h.past slot hslot) hnow,
      h.tokens, fun slot hslot => ?_, fun key' => ?_, fun key' => ?_⟩
    · dsimp only
      rw [nextToken_reserveKey]
      exact Nat.lt_succ_of_lt (h.minted slot hslot)
    · dsimp only
      rw [hbucket]
      split
      · next heq =>
          rw [heq, hlooked]
          exact List.filter_sublist
      · exact h.sub key'
    · dsimp only
      rw [hbucket]
      split
      · next heq =>
          rw [heq, hlooked, recentOf, Window.recent_recent (Int.le_refl _)]
      · exact h.recent_later hnow key'

/-- With different tokens, the first entry of a token is the only one. -/
theorem eraseP_token {log : List Entry}
    (h : (log.map Entry.token).Nodup) :
    (log.eraseP fun e => e.token = token) =
      log.filter fun e => ¬ e.token = token := by
  induction log with
  | nil => rfl
  | cons e log ih =>
      rw [List.map_cons, List.nodup_cons] at h
      by_cases he : e.token = token
      · rw [List.eraseP_cons, List.filter_cons, decide_eq_true he, cond_true,
          if_neg (by simpa using he)]
        refine (List.filter_eq_self.mpr fun x hx => decide_eq_true ?_).symm
        rintro hxe
        exact h.1 (List.mem_map.mpr ⟨x, hx, hxe.trans he.symm⟩)
      · rw [List.eraseP_cons, List.filter_cons, decide_eq_false he, cond_false,
          if_pos (decide_eq_true he), ih h.2]

theorem Agrees.bucket_tokens (h : Agrees b) (key : String) :
    ((bucketOf b.map key).map Entry.token).Nodup := by
  refine List.Nodup.sublist ((h.sub key).map _) ?_
  unfold taken
  rw [List.map_map]
  exact h.tokens.sublist (List.filter_sublist.map _)

/-- Giving a place back takes its entry out of its bucket, and nothing else. -/
theorem Agrees.bucketOf_refund (h : Agrees b) (key' : String) :
    bucketOf (b.refund key token).map key' =
      if key' = key then
        (bucketOf b.map key).filter fun e => ¬ e.token = token
      else bucketOf b.map key' := by
  unfold Books.refund
  dsimp only
  rw [RateBooks.bucketOf_refund, eraseP_token (h.bucket_tokens key)]

theorem taken_refund (key' : String) :
    taken (b.refund key token).live key' =
      if key' = key then
        (taken b.live key).filter fun e => ¬ e.token = token
      else taken b.live key' := by
  unfold taken Books.refund
  dsimp only
  split
  · next heq =>
      rw [heq, List.filter_map, List.filter_filter, List.filter_filter]
      congr 1
      refine List.filter_congr fun slot _ => ?_
      by_cases hkey : slot.key = key <;> simp [hkey]
  · next hne =>
      rw [List.filter_filter]
      congr 1
      refine List.filter_congr fun slot _ => ?_
      by_cases hkey : slot.key = key'
      · have : slot.key ≠ key := fun heq => hne (hkey.symm.trans heq)
        simp [hkey, hkey ▸ this]
      · simp [hkey]

theorem Agrees.refund (h : Agrees b) : Agrees (b.refund key token) := by
  have hlive : (b.refund key token).live.Sublist b.live := List.filter_sublist
  refine ⟨h.order.sublist hlive, fun slot hslot => h.past slot (hlive.mem hslot),
    h.tokens.sublist (hlive.map _), fun slot hslot => ?_, fun key' => ?_,
    fun key' => ?_⟩
  · have := h.minted slot (hlive.mem hslot)
    unfold Books.refund
    dsimp only
    rwa [nextToken_refund]
  · rw [h.bucketOf_refund, taken_refund]
    split
    · exact (h.sub key).filter _
    · exact h.sub key'
  · have hclock : (b.refund key token).clock = b.clock := rfl
    rw [h.bucketOf_refund, taken_refund, hclock]
    split
    · have hcomm : ∀ log : List Entry,
          recentOf b.clock (log.filter fun e => ¬ e.token = token) =
            (recentOf b.clock log).filter fun e => ¬ e.token = token := by
        intro log
        unfold recentOf Window.recent
        rw [List.filter_filter, List.filter_filter]
        exact List.filter_congr fun e _ => Bool.and_comm ..
      rw [hcomm, hcomm, h.recent]
    · exact h.recent key'

theorem Agrees.sweep (h : Agrees b) : Agrees (b.sweep now) := by
  have hle : b.clock ≤ max b.clock now := Int.le_max_left ..
  have hlooked : ∀ key, bucketOf (b.sweep now).map key =
      recentOf now (bucketOf b.map key) := by
    intro key
    unfold Books.sweep
    dsimp only
    rw [bucketOf_sweep]
    exact Window.dropOld_eq_recent ((h.taken_order key).sublist (h.sub key))
  refine ⟨h.order, fun slot hslot => Int.le_trans (h.past slot hslot) hle,
    h.tokens, h.minted, fun key => ?_, fun key => ?_⟩
  · rw [hlooked]
    exact List.filter_sublist.trans (h.sub key)
  · rw [hlooked]
    have hclock : (b.sweep now).clock = max b.clock now := rfl
    rw [hclock]
    exact Window.recent_max_recent.trans (h.recent_later hle key)

/-- Time passes. -/
theorem Agrees.wait (h : Agrees b) :
    Agrees { b with clock := max b.clock now } := by
  have hle : b.clock ≤ max b.clock now := Int.le_max_left ..
  refine ⟨h.order, fun slot hslot => Int.le_trans (h.past slot hslot) hle,
    h.tokens, h.minted, h.sub, h.recent_later hle⟩

theorem Agrees.sweepIfDue (h : Agrees b) : Agrees (b.sweepIfDue now) := by
  unfold Books.sweepIfDue Web.RateLimiter.sweepIfDue
  split
  · exact h.sweep
  · exact h.wait

end Books

end Rutilus.Proofs.RateBooks

/-!
## The limits of the sign-in budget

A call owns the places it takes: at most one in each map, and none when it ends
without a reservation. A refund gives back the places of its own reservation,
since no other place ever carries its tokens. So no window holds more
reservations than places, and a place is only taken while fewer than the limit
are recent.
-/

namespace Rutilus.Proofs.RateLimits

open Rutilus.Domain Rutilus.Lib Rutilus.Web.RateLimiter
open Rutilus.Proofs.RateBooks

variable {lower : Lowercase}

/-! ## Places and their owners -/

/-- The places of a call. -/
def owned (b : Books) (i : Nat) : List Slot :=
  b.live.filter fun slot => slot.owner = i

/-- A place that was taken once and is perhaps given back: nothing else has its
owner or its token. -/
def Spent (b : Books) (x : Slot) : Prop :=
  x.entry.token < b.map.nextToken ∧
    ∀ slot ∈ b.live, slot.owner = x.owner ∨
      slot.entry.token = x.entry.token → slot = x

/-- No more places in a window than the limit. -/
def Bounded (limit : Nat) (b : Books) : Prop :=
  ∀ key ip start, (((taken b.live key).filter fun e => e.ip = ip).filter
    (Window.inWindow Entry.at' rateWindow start)).length ≤ limit

structure Good (limit : Nat) (b : Books) : Prop where
  agrees : Agrees b
  bounded : Bounded limit b

/-- What a step of call `i` leaves to the others. -/
structure Other (i : Nat) (b b' : Books) : Prop where
  owned : ∀ j, j ≠ i → RateLimits.owned b' j = RateLimits.owned b j
  spent : ∀ x, x.owner ≠ i → Spent b x → Spent b' x
  live : ∀ slot ∈ b'.live, slot.owner = i ∨ slot ∈ b.live

theorem Other.refl (i : Nat) (b : Books) : Other i b b :=
  ⟨fun _ _ => rfl, fun _ _ h => h, fun _ h => .inr h⟩

section Slots

variable {b : Books} {x : Slot} {i owner limit : Nat} {key ip : String}
  {now : Instant} {count : List Entry → Nat}

theorem spent_of_owned (h : Agrees b) (hx : owned b i = [x]) : Spent b x := by
  have hmem : x ∈ owned b i := by
    rw [hx]
    exact List.mem_singleton_self x
  obtain ⟨hlive, howner⟩ := List.mem_filter.mp hmem
  have howner : x.owner = i := of_decide_eq_true howner
  refine ⟨h.minted x hlive, fun slot hslot hsame => ?_⟩
  rcases hsame with hsame | hsame
  · have : slot ∈ owned b i :=
      List.mem_filter.mpr ⟨hslot, decide_eq_true (hsame.trans howner)⟩
    rw [hx] at this
    exact List.mem_singleton.mp this
  · exact List.inj_on_of_nodup_map h.tokens hslot hlive hsame

theorem reserve_other :
    Other owner b (b.reserve (reserveKey count b.map key ip now limit) owner
      key ip now) where
  owned j hj := by
    unfold owned Books.reserve
    dsimp only
    rw [List.filter_append]
    have hnone : ((reserveKey count b.map key ip now limit).1.map fun token =>
        (⟨owner, key, ⟨now, ip, token⟩⟩ : Slot)).toList.filter
          (fun slot => slot.owner = j) = [] := by
      rw [List.filter_eq_nil_iff]
      intro slot hslot
      obtain ⟨token, -, rfl⟩ :=
        Option.map_eq_some_iff.mp (Option.mem_toList.mp hslot)
      rw [decide_eq_true_eq]
      exact Ne.symm hj
    rw [hnone, List.append_nil]
  spent x hx h := by
    refine ⟨?_, fun slot hslot hsame => ?_⟩
    · unfold Books.reserve
      dsimp only
      rw [nextToken_reserveKey]
      exact Nat.lt_succ_of_lt h.1
    · rcases List.mem_append.mp hslot with hslot | hslot
      · exact h.2 slot hslot hsame
      · obtain ⟨token, htoken, rfl⟩ :=
          Option.map_eq_some_iff.mp (Option.mem_toList.mp hslot)
        have htoken : token = b.map.nextToken := by
          by_cases hfew : count (looked b.map key now) < limit
          · rw [(reserveKey_granted hfew).1] at htoken
            exact (Option.some.inj htoken).symm
          · rw [(reserveKey_refused hfew).1] at htoken
            cases htoken
        rcases hsame with hsame | hsame
        · exact absurd hsame.symm hx
        · exact absurd (hsame.symm.trans htoken) (Nat.ne_of_lt h.1)
  live slot hslot := by
    rcases List.mem_append.mp hslot with hslot | hslot
    · exact .inr hslot
    · obtain ⟨token, -, rfl⟩ :=
        Option.map_eq_some_iff.mp (Option.mem_toList.mp hslot)
      exact .inl rfl

/-- The place a call takes is its only one. -/
theorem reserve_owned (h : owned b i = []) :
    owned (b.reserve (reserveKey count b.map key ip now limit) i key ip now) i =
      ((reserveKey count b.map key ip now limit).1.map fun token =>
        (⟨i, key, ⟨now, ip, token⟩⟩ : Slot)).toList := by
  unfold owned Books.reserve
  dsimp only
  rw [List.filter_append]
  have hnone : (b.live.filter fun slot => slot.owner = i) = [] := h
  rw [hnone, List.nil_append]
  refine List.filter_eq_self.mpr fun slot hslot => ?_
  obtain ⟨token, -, rfl⟩ :=
    Option.map_eq_some_iff.mp (Option.mem_toList.mp hslot)
  exact decide_eq_true rfl

theorem refund_other (h : Spent b x) :
    Other x.owner b (b.refund x.key x.entry.token) where
  owned j hj := by
    unfold owned Books.refund
    dsimp only
    rw [List.filter_filter]
    refine List.filter_congr fun slot hslot => ?_
    by_cases howner : slot.owner = j
    · have hother : ¬ (slot.key = x.key ∧
          slot.entry.token = x.entry.token) := by
        rintro ⟨-, htoken⟩
        have := h.2 slot hslot (.inr htoken)
        rw [this] at howner
        exact hj howner.symm
      rw [decide_eq_true howner, decide_eq_true hother]
      rfl
    · rw [decide_eq_false howner]
      rfl
  spent y hy hspent := by
    refine ⟨?_, fun slot hslot => hspent.2 slot (List.mem_of_mem_filter hslot)⟩
    unfold Books.refund
    dsimp only
    rw [nextToken_refund]
    exact hspent.1
  live slot hslot := .inr (List.mem_of_mem_filter hslot)

/-- Given back, it is gone. -/
theorem refund_owned (h : Spent b x) :
    owned (b.refund x.key x.entry.token) x.owner = [] := by
  unfold owned
  rw [List.filter_eq_nil_iff]
  intro slot hslot howner
  obtain ⟨hlive, hkept⟩ := List.mem_filter.mp hslot
  have heq := h.2 slot hlive (.inl (of_decide_eq_true howner))
  rw [heq, decide_eq_true_eq] at hkept
  exact hkept ⟨rfl, rfl⟩

theorem refund_spent (h : Spent b x) :
    Spent (b.refund x.key x.entry.token) x := by
  refine ⟨?_, fun slot hslot => h.2 slot (List.mem_of_mem_filter hslot)⟩
  unfold Books.refund
  dsimp only
  rw [nextToken_refund]
  exact h.1

/-- In the map: the entry of the place, wherever one has its token, and no
other. -/
theorem refund_bucket (hb : Agrees b) (h : Spent b x) (key : String) :
    bucketOf (b.refund x.key x.entry.token).map key =
      (bucketOf b.map key).filter fun e => ¬ e.token = x.entry.token := by
  rw [hb.bucketOf_refund]
  split
  · next heq => rw [heq]
  · next hne =>
      refine (List.filter_eq_self.mpr fun e he => decide_eq_true ?_).symm
      intro htoken
      obtain ⟨slot, hslot, hkey, rfl⟩ := mem_taken.mp ((hb.sub key).mem he)
      rw [h.2 slot hslot (.inr htoken)] at hkey
      exact hne hkey.symm

theorem sweepIfDue_same :
    (b.sweepIfDue now).live = b.live ∧
      (b.sweepIfDue now).map.nextToken = b.map.nextToken := by
  refine ⟨rfl, ?_⟩
  unfold Books.sweepIfDue Web.RateLimiter.sweepIfDue
  dsimp only
  split <;> rfl

theorem sweepIfDue_other : Other i b (b.sweepIfDue now) where
  owned _ _ := rfl
  spent x _ h := by
    unfold Spent
    rw [sweepIfDue_same.2]
    exact h
  live _ hslot := .inr hslot

/-! ### Limits -/

theorem Good.reserve (h : Good limit b) (hnow : b.clock ≤ now)
    (hcount : ∀ log : List Entry,
      (log.filter fun e => e.ip = ip).length ≤ count log) :
    Good limit (b.reserve (reserveKey count b.map key ip now limit) owner key
      ip now) := by
  refine ⟨h.agrees.reserve hnow, fun key' ip' start => ?_⟩
  have hanswer : (reserveKey count b.map key ip now limit).1 =
      if count (recentOf now (taken b.live key)) < limit then
        some b.map.nextToken
      else none := h.agrees.answer hnow
  unfold Books.reserve
  dsimp only
  rw [hanswer]
  split
  · next hfew =>
      rw [Option.map_some, Option.toList_some, taken_append, taken_singleton]
      split
      · next hkey =>
          rw [hkey, List.filter_append]
          by_cases hip : ip = ip'
          · subst hip
            have hone : [(⟨now, ip, b.map.nextToken⟩ : Entry)].filter
                (fun e => e.ip = ip) = [⟨now, ip, b.map.nextToken⟩] :=
              List.filter_cons_of_pos (decide_eq_true rfl)
            rw [hone]
            refine Window.length_window_concat (h.bounded key ip start) ?_
            have hcomm : Window.recent Entry.at' rateWindow now
                ((taken b.live key).filter fun e => e.ip = ip) =
                (recentOf now (taken b.live key)).filter
                  fun e => e.ip = ip := by
              unfold recentOf Window.recent
              rw [List.filter_filter, List.filter_filter]
              exact List.filter_congr fun e _ => Bool.and_comm ..
            dsimp only
            rw [hcomm]
            exact Nat.lt_of_le_of_lt (hcount _) hfew
          · have hnone : [(⟨now, ip, b.map.nextToken⟩ : Entry)].filter
                (fun e => e.ip = ip') = [] :=
              List.filter_cons_of_neg (by rwa [decide_eq_true_eq])
            rw [hnone, List.append_nil]
            exact h.bounded key ip' start
      · rw [List.append_nil]
        exact h.bounded key' ip' start
  · rw [Option.map_none, Option.toList_none, List.append_nil]
    exact h.bounded key' ip' start

theorem Good.refund {token : Nat} (h : Good limit b) :
    Good limit (b.refund key token) := by
  refine ⟨h.agrees.refund, fun key' ip start => ?_⟩
  refine Nat.le_trans ?_ (h.bounded key' ip start)
  refine List.Sublist.length_le (List.Sublist.filter _ (List.Sublist.filter _ ?_))
  rw [taken_refund]
  split
  · next heq =>
      rw [heq]
      exact List.filter_sublist
  · exact List.Sublist.refl _

theorem Good.sweepIfDue (h : Good limit b) : Good limit (b.sweepIfDue now) :=
  ⟨h.agrees.sweepIfDue, h.bounded⟩

end Slots

end Rutilus.Proofs.RateLimits
