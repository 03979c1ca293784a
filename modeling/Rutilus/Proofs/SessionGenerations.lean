import Rutilus.App.Admission

/-!
# Who is the current session of a site

As long as the counter did not come round, the connections carry the numbers of
their registration, so a generation names one connection. The registry then has
exactly the connections that nobody disconnected: a site registers only while it
has no entry, so every earlier connection of the site has ended, and a cleanup
removes the entry of its own generation and no other.

After as many registrations as the counter has values the first generation is
handed out again, and the connection that holds it from before is taken for the
new one.
-/

namespace Rutilus.Proofs.SessionGenerations

open Rutilus.Domain Rutilus.App.SessionRegistry
open Rutilus.Lib (Table)
open Rutilus.App.Admission (ResolvedSite)

variable {s t : State}

/-! ## The books -/

structure Books (s : State) : Prop where
  next : s.registry.nextGeneration = s.handed.length
  numbered : ∀ i c, s.handed[i]? = some c → c.generation = i + 1
  entry : ∀ site session, s.registry.online.find site = some session →
    ∃ c ∈ s.handed, c.site = site ∧ c.generation = session.generation
  present : s.registry.poisoned = false → ∀ c ∈ s.handed, c.ended = false →
    ∃ session, s.registry.online.find c.site = some session ∧
      session.generation = c.generation
  absent : s.registry.poisoned = false → ∀ c ∈ s.handed, c.ended = true →
    ∀ session, s.registry.online.find c.site = some session →
      session.generation ≠ c.generation
  older : ∀ c ∈ s.handed, ∀ c' ∈ s.handed, c'.site = c.site →
    c.generation < c'.generation → c.ended = true

theorem isCurrent_iff {c : Connection} : s.isCurrent c = true ↔
    s.registry.poisoned = false ∧
      ∃ session, s.registry.online.find c.site = some session ∧
        session.generation = c.generation := by
  simp [State.isCurrent, CenterSessionRegistry.isCurrent, Option.any_eq_true]

/-- A connection is current if and only if nobody disconnected it. -/
theorem Books.current_iff (h : Books s) {c : Connection} (hc : c ∈ s.handed) :
    s.isCurrent c = true ↔ s.registry.poisoned = false ∧ c.ended = false := by
  rw [isCurrent_iff]
  constructor
  · rintro ⟨hlock, session, hfind, hgeneration⟩
    refine ⟨hlock, ?_⟩
    cases hended : c.ended with
    | false => rfl
    | true => exact absurd hgeneration (h.absent hlock c hc hended session hfind)
  · rintro ⟨hlock, hended⟩
    exact ⟨hlock, h.present hlock c hc hended⟩

/-! ## What each call does to them -/

theorem mem_endIf {p : Connection → Bool} {handed : List Connection}
    {c : Connection} : c ∈ endIf p handed ↔
      ∃ b ∈ handed, c = { b with ended := b.ended || p b } := by
  simp only [endIf, List.mem_map]
  exact ⟨fun ⟨b, hb, h⟩ => ⟨b, hb, h.symm⟩, fun ⟨b, hb, h⟩ => ⟨b, hb, h.symm⟩⟩

theorem getElem?_endIf {p : Connection → Bool} {handed : List Connection}
    {i : Nat} {c : Connection} (h : (endIf p handed)[i]? = some c) :
    ∃ b, handed[i]? = some b ∧ c = { b with ended := b.ended || p b } := by
  rw [endIf, List.getElem?_map, Option.map_eq_some_iff] at h
  obtain ⟨b, hb, rfl⟩ := h
  exact ⟨b, hb, rfl⟩

/-- Entries are removed together with what ends their connections. -/
theorem Books.removed (h : Books s) {p : Connection → Bool}
    (hnext : t.registry.nextGeneration = s.registry.nextGeneration)
    (hpoisoned : t.registry.poisoned = s.registry.poisoned)
    (hhanded : t.handed = endIf p s.handed)
    (hkept : ∀ site session, t.registry.online.find site = some session →
      s.registry.online.find site = some session)
    (hgone : s.registry.poisoned = false → ∀ c ∈ s.handed, p c = true →
      ∀ session, t.registry.online.find c.site = some session →
        session.generation ≠ c.generation)
    (hstays : s.registry.poisoned = false → ∀ c ∈ s.handed, p c = false →
      ∀ session, s.registry.online.find c.site = some session →
        session.generation = c.generation →
          t.registry.online.find c.site = some session) : Books t := by
  refine ⟨?_, ?_, ?_, ?_, ?_, ?_⟩
  · rw [hnext, hhanded, endIf, List.length_map, h.next]
  · intro i c hc
    rw [hhanded] at hc
    obtain ⟨b, hb, rfl⟩ := getElem?_endIf hc
    exact h.numbered i b hb
  · intro site session hfind
    obtain ⟨c, hc, hsite, hgeneration⟩ :=
      h.entry site session (hkept site session hfind)
    rw [hhanded]
    exact ⟨_, mem_endIf.mpr ⟨c, hc, rfl⟩, hsite, hgeneration⟩
  · intro hlock c hc hended
    rw [hhanded] at hc
    obtain ⟨b, hb, rfl⟩ := mem_endIf.mp hc
    simp only [Bool.or_eq_false_iff] at hended
    rw [hpoisoned] at hlock
    obtain ⟨session, hfind, hgeneration⟩ := h.present hlock b hb hended.1
    exact ⟨session, hstays hlock b hb hended.2 session hfind hgeneration,
      hgeneration⟩
  · intro hlock c hc hended session hfind
    rw [hhanded] at hc
    obtain ⟨b, hb, rfl⟩ := mem_endIf.mp hc
    simp only [Bool.or_eq_true] at hended
    rw [hpoisoned] at hlock
    rcases hended with hended | hp
    · exact h.absent hlock b hb hended session (hkept _ _ hfind)
    · exact hgone hlock b hb hp session hfind
  · intro c hc c' hc' hsite hlt
    rw [hhanded] at hc hc'
    obtain ⟨b, hb, rfl⟩ := mem_endIf.mp hc
    obtain ⟨b', hb', rfl⟩ := mem_endIf.mp hc'
    simp [h.older b hb b' hb' hsite hlt]

theorem find_without {r : Table InstanceId OnlineSession OnlineSession.instanceId}
    {site site' : InstanceId} :
    (r.filter fun session => session.instanceId ≠ site).find site' =
      if site' = site then none else r.find site' := by
  rw [Table.find_filter]
  cases hfind : r.find site' with
  | none => split <;> rfl
  | some session =>
      have hkey : session.instanceId = site' := Table.key_of_find hfind
      simp [Option.filter, hkey]

theorem Books.disconnect (h : Books s) (site : InstanceId) :
    Books (Call.run s (.disconnect site)) := by
  simp only [Call.run, CenterSessionRegistry.disconnect]
  split
  · next hlock =>
      refine h.removed rfl rfl rfl (fun _ _ hfind => hfind) ?_ ?_
      · simp [hlock]
      · simp [hlock]
  · refine h.removed rfl rfl rfl ?_ ?_ ?_
    · intro site' session hfind
      rw [find_without] at hfind
      split at hfind
      · cases hfind
      · exact hfind
    · intro _ c _ hc session hfind
      rw [find_without, if_pos (of_decide_eq_true hc)] at hfind
      cases hfind
    · intro _ c _ hc session hfind _
      rw [find_without, if_neg (of_decide_eq_false hc)]
      exact hfind

theorem Books.markDisconnected (h : Books s) (site : InstanceId)
    (generation : Nat) :
    Books (Call.run s (.markDisconnected site generation)) := by
  simp only [Call.run, CenterSessionRegistry.markDisconnected]
  split
  · next hlock =>
      refine h.removed rfl rfl rfl (fun _ _ hfind => hfind) ?_ ?_
      · simp [hlock]
      · simp [hlock]
  · split
    · next howner =>
        obtain ⟨owner, hfind, hgeneration⟩ := (Option.any_eq_true _ _).mp howner
        replace hgeneration := of_decide_eq_true hgeneration
        refine h.removed rfl rfl rfl ?_ ?_ ?_
        · intro site' session hfind'
          rw [find_without] at hfind'
          split at hfind'
          · cases hfind'
          · exact hfind'
        · intro _ c _ hc session hfind'
          rw [find_without, if_pos (of_decide_eq_true hc).1] at hfind'
          cases hfind'
        · intro _ c _ hc session hfind' heq
          rw [find_without, if_neg]
          · exact hfind'
          · rintro rfl
            refine of_decide_eq_false hc ⟨rfl, ?_⟩
            rw [hfind] at hfind'
            cases hfind'
            exact heq.symm.trans hgeneration
    · next hother =>
        refine h.removed rfl rfl rfl (fun _ _ hfind => hfind) ?_
          (fun _ _ _ _ _ hfind _ => hfind)
        intro _ c _ hc session hfind heq
        obtain ⟨hsite, hgeneration⟩ := of_decide_eq_true hc
        refine hother ((Option.any_eq_true _ _).mpr ⟨session, hsite ▸ hfind, ?_⟩)
        exact decide_eq_true (heq.trans hgeneration)

theorem Books.touch (h : Books s) (site : InstanceId) (now : Instant) :
    Books (Call.run s (.touch site now)) := by
  have hsame : s.handed = endIf (fun _ => false) s.handed := by
    simp [endIf]
  simp only [Call.run, CenterSessionRegistry.touch]
  split
  · exact h
  · split
    · exact h
    · next session hfind =>
        have hkey : session.instanceId = site := Table.key_of_find hfind
        -- the entry keeps its generation
        have hreplaced : ∀ site', ((s.registry.online.replace
              { session with lastSeen := now }).find site').map
                (·.generation) =
            (s.registry.online.find site').map (·.generation) := by
          intro site'
          rw [Table.find_replace]
          split
          · next heq =>
              obtain rfl : site = site' := hkey.symm.trans heq.1
              rw [hfind]
              rfl
          · rfl
        have hto : ∀ {site' x}, (s.registry.online.replace
              { session with lastSeen := now }).find site' = some x →
            ∃ y, s.registry.online.find site' = some y ∧
              y.generation = x.generation := by
          intro site' x hx
          have := hreplaced site'
          rw [hx, Option.map_some, eq_comm, Option.map_eq_some_iff] at this
          exact this
        refine ⟨h.next, h.numbered, ?_, ?_, ?_, h.older⟩
        · intro site' x hx
          obtain ⟨y, hy, heq⟩ := hto hx
          obtain ⟨c, hc, hsite, hgeneration⟩ := h.entry site' y hy
          exact ⟨c, hc, hsite, hgeneration.trans heq⟩
        · intro hlock c hc hended
          obtain ⟨y, hy, hgeneration⟩ := h.present hlock c hc hended
          have := hreplaced c.site
          rw [hy, Option.map_some, Option.map_eq_some_iff] at this
          obtain ⟨x, hx, heq⟩ := this
          exact ⟨x, hx, heq.trans hgeneration⟩
        · intro hlock c hc hended x hx
          obtain ⟨y, hy, heq⟩ := hto hx
          exact heq ▸ h.absent hlock c hc hended y hy

theorem Books.register (h : Books s) (site : ResolvedSite) (now : Instant)
    (hlen : (Call.run s (.markConnected site now)).handed.length < words) :
    Books (Call.run s (.markConnected site now)) := by
  revert hlen
  simp only [Call.run, CenterSessionRegistry.markConnected]
  by_cases hlock : s.registry.poisoned
  · rw [if_pos hlock]
    exact fun _ => h
  by_cases hhas : s.registry.online.has site.instanceId
  · rw [if_neg hlock, if_pos hhas]
    exact fun _ => h
  rw [if_neg hlock, if_neg hhas]
  intro hlen
  simp only [List.length_append, List.length_singleton] at hlen
  have hnone : s.registry.online.find site.instanceId = none :=
    Option.not_isSome_iff_eq_none.mp hhas
  have hgeneration : min (s.registry.nextGeneration + 1) (words - 1) =
      s.handed.length + 1 := by
    rw [h.next]
    omega
  have hbelow : ∀ c ∈ s.handed, c.generation ≤ s.handed.length := by
    intro c hc
    obtain ⟨i, hi⟩ := List.mem_iff_getElem?.mp hc
    have := h.numbered i c hi
    have := (List.getElem?_eq_some_iff.mp hi).1
    omega
  -- nobody of the site is left
  have hended : ∀ c ∈ s.handed, c.site = site.instanceId → c.ended = true := by
    intro c hc hsite
    cases he : c.ended with
    | true => rfl
    | false =>
        obtain ⟨session, hfind, -⟩ := h.present (by simpa using hlock) c hc he
        rw [hsite, hnone] at hfind
        cases hfind
  have hmem : ∀ {c}, c ∈ s.handed ++
      [⟨site.instanceId, s.handed.length + 1, false⟩] ↔ c ∈ s.handed ∨
        c = ⟨site.instanceId, s.handed.length + 1, false⟩ := by
    intro c
    rw [List.mem_append, List.mem_singleton]
  have hfind : ∀ {i}, (s.registry.online.insertNew
        ⟨site, now, s.handed.length + 1⟩).find i =
      if site.instanceId = i then some ⟨site, now, s.handed.length + 1⟩
      else s.registry.online.find i := by
    intro i
    rw [Table.find_insertNew]
    by_cases hi : site.instanceId = i
    · rw [if_pos ⟨hi, hi ▸ hnone⟩, if_pos hi]
    · rw [if_neg (fun hc => hi hc.1), if_neg hi]
  rw [hgeneration]
  refine ⟨?_, ?_, ?_, ?_, ?_, ?_⟩
  · simp only [h.next, List.length_append, List.length_singleton]
    exact Nat.mod_eq_of_lt hlen
  · intro i c hc
    rw [List.getElem?_append] at hc
    split at hc
    · exact h.numbered i c hc
    · next hi =>
        rw [List.getElem?_singleton] at hc
        split at hc
        · cases hc
          simp only
          omega
        · cases hc
  · intro i session hi
    rw [hfind] at hi
    split at hi
    · next hsite =>
        cases hi
        exact ⟨_, hmem.mpr (.inr rfl), hsite, rfl⟩
    · obtain ⟨c, hc, heq⟩ := h.entry i session hi
      exact ⟨c, hmem.mpr (.inl hc), heq⟩
  · intro _ c hc he
    rcases hmem.mp hc with hc | rfl
    · obtain ⟨session, hi, heq⟩ := h.present (by simpa using hlock) c hc he
      refine ⟨session, ?_, heq⟩
      rw [hfind, if_neg, hi]
      intro hsite
      rw [hended c hc hsite.symm] at he
      cases he
    · exact ⟨_, by rw [hfind, if_pos rfl], rfl⟩
  · intro _ c hc he session hi
    rcases hmem.mp hc with hc | rfl
    · rw [hfind] at hi
      split at hi
      · cases hi
        have := hbelow c hc
        simp only
        omega
      · exact h.absent (by simpa using hlock) c hc he session hi
    · cases he
  · intro c hc c' hc' hsite hlt
    rcases hmem.mp hc with hc | rfl
    · rcases hmem.mp hc' with hc' | rfl
      · exact h.older c hc c' hc' hsite hlt
      · exact hended c hc hsite.symm
    · rcases hmem.mp hc' with hc' | rfl
      · have := hbelow c' hc'
        simp only at hlt
        omega
      · exact absurd hlt (Nat.lt_irrefl _)

theorem books_init : Books initial where
  next := rfl
  numbered := nofun
  entry := nofun
  present := nofun
  absent := nofun
  older := nofun

theorem Books.panic (h : Books s) : Books (Call.run s .panic) where
  next := h.next
  numbered := h.numbered
  entry := h.entry
  present := nofun
  absent := nofun
  older := h.older

/-- The connections stay listed, with their sites and generations. -/
theorem handed_kept {call : Call} {i : Nat} {c : Connection}
    (hc : s.handed[i]? = some c) :
    ∃ c', (call.run s).handed[i]? = some c' ∧ c'.site = c.site ∧
      c'.generation = c.generation := by
  have hend : ∀ p, ∃ c', (endIf p s.handed)[i]? = some c' ∧
      c'.site = c.site ∧ c'.generation = c.generation := by
    intro p
    refine ⟨{ c with ended := c.ended || p c }, ?_, rfl, rfl⟩
    rw [endIf, List.getElem?_map, hc]
    rfl
  cases call with
  | markConnected site now =>
      simp only [Call.run]
      split
      · exact ⟨c, hc, rfl, rfl⟩
      · refine ⟨c, ?_, rfl, rfl⟩
        rw [List.getElem?_append_left (List.getElem?_eq_some_iff.mp hc).1]
        exact hc
  | disconnect site => exact hend _
  | touch site now => exact ⟨c, hc, rfl, rfl⟩
  | markDisconnected site generation => exact hend _
  | panic => exact ⟨c, hc, rfl, rfl⟩

theorem length_handed_le (call : Call) :
    s.handed.length ≤ (call.run s).handed.length := by
  by_contra hlt
  have hi : (call.run s).handed.length < s.handed.length := Nat.lt_of_not_le hlt
  obtain ⟨c', hc', -⟩ := handed_kept
    (List.getElem?_eq_getElem hi)
  exact absurd (List.getElem?_eq_some_iff.mp hc').1 (Nat.lt_irrefl _)

theorem Books.step {call : Call} (h : Books s)
    (hlen : (call.run s).handed.length < words) : Books (call.run s) := by
  cases call with
  | markConnected site now => exact h.register site now hlen
  | disconnect site => exact h.disconnect site
  | touch site now => exact h.touch site now
  | markDisconnected site generation => exact h.markDisconnected site generation
  | panic => exact h.panic

theorem Books.of_reach (hs : Reachable s) (hlen : s.handed.length < words) :
    Books s := by
  refine hs.inv (P := fun s => s.handed.length < words → Books s) ?_ ?_ hlen
  · rintro s rfl _
    exact books_init
  · rintro s t hs ⟨call, rfl⟩ hlen
    exact (hs (lt_of_le_of_lt (length_handed_le call) hlen)).step hlen

/-! ## The registry -/

/-- What a later connection of the site superseded has ended. -/
theorem Books.not_current (h : Books s) {i j : Nat} {c c' : Connection}
    (hi : s.handed[i]? = some c) (hj : s.handed[j]? = some c') (hij : i < j)
    (hsite : c'.site = c.site) : s.isCurrent c = false := by
  have hlt : c.generation < c'.generation := by
    have := h.numbered i c hi
    have := h.numbered j c' hj
    omega
  have hended := h.older c (List.mem_of_getElem? hi) c'
    (List.mem_of_getElem? hj) hsite hlt
  rw [Bool.eq_false_iff]
  intro hcurrent
  rw [((h.current_iff (List.mem_of_getElem? hi)).mp hcurrent).2] at hended
  cases hended

/-- In every history with fewer registrations than the counter has values: a
site has one current connection at most, and a connection is current if and
only if it has the greatest generation among those of its site that nobody
disconnected; a cleanup with an older generation leaves the current one in
place; and a connection that another one of its site came after is never
current again. -/
theorem current_session_is_newest (s : State) (hs : Reachable s)
    (hlen : s.handed.length < words) :
    (∀ (i j : Nat) (c c' : Connection), s.handed[i]? = some c →
      s.handed[j]? = some c' → c'.site = c.site → s.isCurrent c = true → s.isCurrent c' = true →
        j = i) ∧
    (∀ c ∈ s.handed, s.isCurrent c = true ↔
      s.registry.poisoned = false ∧ c.ended = false ∧
        ∀ c' ∈ s.handed, c'.site = c.site → c'.ended = false →
          c'.generation ≤ c.generation) ∧
    (∀ site generation, s.registry.isCurrent site generation = true →
      ∃ c ∈ s.handed, c.site = site ∧ c.generation = generation) ∧
    (∀ c ∈ s.handed, s.isCurrent c = true → ∀ generation < c.generation,
      (Call.run s (.markDisconnected c.site generation)).isCurrent c =
        true) ∧
    ∀ (i j : Nat) (c c' : Connection), s.handed[i]? = some c →
      s.handed[j]? = some c' → i < j → c'.site = c.site → ∀ t, Relation.ReflTransGen Step s t →
        t.handed.length < words → t.isCurrent c = false := by
  have h := Books.of_reach hs hlen
  refine ⟨?_, ?_, ?_, ?_, ?_⟩
  · intro i j c c' hi hj hsite hc hc'
    rcases Nat.lt_trichotomy i j with hij | hij | hij
    · rw [h.not_current hi hj hij hsite] at hc
      cases hc
    · exact hij.symm
    · rw [h.not_current hj hi hij hsite.symm] at hc'
      cases hc'
  · intro c hc
    rw [h.current_iff hc]
    refine and_congr_right fun _ => ⟨fun hended => ⟨hended, ?_⟩, And.left⟩
    intro c' hc' hsite hended'
    by_contra hlt
    rw [h.older c hc c' hc' hsite (Nat.lt_of_not_le hlt)] at hended
    cases hended
  · intro site generation hcurrent
    obtain ⟨-, session, hfind, hgeneration⟩ :=
      isCurrent_iff (c := ⟨site, generation, false⟩).mp hcurrent
    obtain ⟨c, hc, hsite, heq⟩ := h.entry site session hfind
    exact ⟨c, hc, hsite, heq.trans hgeneration⟩
  · intro c hc hcurrent generation hlt
    rw [isCurrent_iff] at hcurrent ⊢
    obtain ⟨hlock, session, hfind, hgeneration⟩ := hcurrent
    have hother : s.registry.markDisconnected c.site generation =
        s.registry := by
      rw [CenterSessionRegistry.markDisconnected, hlock, hfind]
      rw [if_neg Bool.false_ne_true, if_neg]
      simp only [Option.any_some, decide_eq_true_eq]
      omega
    simp only [Call.run, hother]
    exact ⟨hlock, session, hfind, hgeneration⟩
  · intro i j c c' hi hj hij hsite t ht hlen
    have hkept : ∀ {k : Nat} {b : Connection}, s.handed[k]? = some b →
        ∃ b', t.handed[k]? = some b' ∧ b'.site = b.site ∧
          b'.generation = b.generation := by
      intro k b hb
      induction ht with
      | refl => exact ⟨b, hb, rfl, rfl⟩
      | tail _ hstep ih =>
          obtain ⟨call, rfl⟩ := hstep
          obtain ⟨b', hb', hs', hg'⟩ :=
            ih (lt_of_le_of_lt (length_handed_le call) hlen)
          obtain ⟨b'', hb'', hs'', hg''⟩ := handed_kept hb'
          exact ⟨b'', hb'', hs''.trans hs', hg''.trans hg'⟩
    obtain ⟨b, hb, hbsite, hbgeneration⟩ := hkept hi
    obtain ⟨b', hb', hbsite', -⟩ := hkept hj
    have hnot := (Books.of_reach (hs.steps ht) hlen).not_current hb hb' hij
      (hbsite'.trans (hsite.trans hbsite.symm))
    rw [← hnot, State.isCurrent, State.isCurrent, hbsite, hbgeneration]

/-! ### When the counter comes round -/

def siteOf (n : Nat) : ResolvedSite := ⟨⟨n⟩, ⟨n⟩, ⟨[]⟩⟩

/-- A site whose connections come and go leaves nothing but the counter and
the list behind. -/
theorem exists_coming_and_going (n : Nat) : ∃ s, Reachable s ∧
    s.registry = ⟨.empty, (n + 1) % words, false⟩ ∧
    ∃ rest, s.handed = ⟨⟨1⟩, 1, true⟩ :: rest := by
  induction n with
  | zero =>
      refine ⟨Call.run (Call.run initial (.markConnected (siteOf 1) 0))
        (.disconnect ⟨1⟩), ?_, rfl, [], rfl⟩
      exact .step (.step (.init rfl) ⟨_, rfl⟩) ⟨_, rfl⟩
  | succ n ih =>
      obtain ⟨⟨registry, handed⟩, hs, hregistry, rest, hhanded⟩ := ih
      obtain rfl : registry = _ := hregistry
      obtain rfl : handed = _ := hhanded
      refine ⟨_, (hs.step ⟨.markConnected (siteOf 2) 0, rfl⟩).step
        ⟨.disconnect ⟨2⟩, rfl⟩, ?_, ?_⟩
      · have : ((n + 1) % words + 1) % words = (n + 1 + 1) % words := by
          rw [Nat.mod_add_mod]
        rw [← this]
        rfl
      · exact ⟨_, rfl⟩

/-- After as many registrations as the counter has values the first generation
comes back: a connection that was disconnected is current again with the new
one, and its cleanup removes the new one. -/
theorem first_generation_comes_back : ∃ s, Reachable s ∧
    ∃ (i j : Nat) (c c' : Connection), s.handed[i]? = some c ∧
      s.handed[j]? = some c' ∧ i < j ∧ c'.site = c.site ∧ c.ended = true ∧
      c'.ended = false ∧ s.isCurrent c = true ∧ s.isCurrent c' = true ∧
      (Call.run s (.markDisconnected c.site c.generation)).isCurrent c' =
        false := by
  obtain ⟨⟨registry, handed⟩, hs, hregistry, rest, hhanded⟩ :=
    exists_coming_and_going (words - 1)
  obtain rfl : registry = _ := hregistry
  obtain rfl : handed = _ := hhanded
  have hround : (words - 1 + 1) % words = 0 := by decide +kernel
  rw [hround] at hs
  let again :=
    (CenterSessionRegistry.markConnected ⟨.empty, 0, false⟩ (siteOf 1) 0).2
  have hcurrent : again.isCurrent ⟨1⟩ 1 = true := by decide +kernel
  have hremoved :
      (again.markDisconnected ⟨1⟩ 1).isCurrent ⟨1⟩ 1 = false := by
    decide +kernel
  refine ⟨_, hs.step ⟨.markConnected (siteOf 1) 0, rfl⟩, 0, rest.length + 1,
    ⟨⟨1⟩, 1, true⟩, ⟨⟨1⟩, 1, false⟩, rfl, ?_, Nat.succ_pos _, rfl, rfl, rfl,
    hcurrent, hcurrent, hremoved⟩
  exact List.getElem?_concat_length

/-- A site that connects again before the old connection is cleaned up. -/
theorem current_after_late_cleanup : ∃ s, Reachable s ∧
    s.handed = [⟨⟨1⟩, 1, true⟩, ⟨⟨1⟩, 2, false⟩] ∧
    (Call.run s (.markDisconnected ⟨1⟩ 1)).isCurrent ⟨⟨1⟩, 2, false⟩ = true := by
  have hs : Reachable (Call.run (Call.run (Call.run initial
      (.markConnected (siteOf 1) 0)) (.disconnect ⟨1⟩))
      (.markConnected (siteOf 1) 5)) :=
    .step (.step (.step (.init rfl) ⟨_, rfl⟩) ⟨_, rfl⟩) ⟨_, rfl⟩
  refine ⟨_, hs, by decide +kernel, ?_⟩
  exact (current_session_is_newest _ hs (by decide +kernel)).2.2.2.1
    ⟨⟨1⟩, 2, false⟩ (by decide +kernel) (by decide +kernel) 1 (by decide)

end Rutilus.Proofs.SessionGenerations
