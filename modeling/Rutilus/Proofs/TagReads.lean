import Rutilus.Proofs.TagRelation

/-!
# Listings of tags among writes

A listing reads outside any transaction. The listing of an endpoint first reads
the bindings and then, one query each, the name rows they refer to. A name row
never changes, so the names that are found later are those there were when the
bindings were read; but the removal of a last binding deletes the row, and a
listing that has yet to look it up reports corrupt storage. That is the only way
to get there. The listing of a name has no such gap: when its row has gone, its
bindings have gone with it.
-/

namespace Rutilus.Proofs.TagReads

open Rutilus.Domain Rutilus.Lib Rutilus.Store.Tags Rutilus.Proofs.TagRelation
open Rutilus.Store (Fault)

/-- What a listing may answer: what some table state seen holds, or that a query
failed. -/
def Answered (l : Listing) (seen : List Tables) :
    Except TagRepositoryError l.Answer → Prop
  | .ok a => ∃ t ∈ seen, l.on t = .ok a
  | .error e => e = .database

/-! ## Which names are still to be looked up -/

/-- The name rows a program looks up. -/
def queried {α : Type} (t : Tables) : Prog readSig α → List TagId
  | .ret _ => []
  | .call q k =>
      let rest := queried t (k (answer false t q))
      match q with
      | .tagById tagId => tagId :: rest
      | _ => rest

theorem queried_call {α : Type} (t : Tables) (tagId : TagId)
    (k : Except DbErr (Option TagRow) → Prog readSig α) :
    queried t (.call (S := readSig) (.tagById tagId) k) =
      tagId :: queried t (k (.ok (t.tags.find tagId))) := rfl

/-- The bindings that are listed, with their name rows not looked up yet. -/
def unread (f : Flight) (t : Tables) : List TagId :=
  match f.rest with
  | .call (.tagById _) _ => queried t f.rest
  | _ => []

/-- The step takes the last binding of a name that a listing has yet to look up. -/
def Disturbs (s : State) : Label → Prop
  | .write (.remove e name) none => ∃ row,
      s.tables.findByName name.text = some row ∧
      (∀ b ∈ s.tables.ofTag row.id, b.endpointId = e) ∧
      ∃ f ∈ s.flights, row.id ∈ unread f s.tables
  | _ => False

/-- A step that takes no name from under a listing. -/
def Calm (s t : State) : Prop := ∃ l, next s l = some t ∧ ¬ Disturbs s l

/-! ## The loop of a listing -/

/-- The rest of the listing of an endpoint. -/
def loop (e : EndpointId) (done : List Tag) (remaining : List BindingRow) :
    Read (List Tag) := do
  let tags ← readTags e remaining
  return (done ++ tags).insertionSort Tag.nameUpTo

theorem loop_nil (e : EndpointId) (done : List Tag) :
    loop e done [] = .ret (.ok (done.insertionSort Tag.nameUpTo)) := by
  show Prog.ret (Except.ok ((done ++ []).insertionSort Tag.nameUpTo)) = _
  rw [List.append_nil]

theorem loop_cons (e : EndpointId) (done : List Tag) (b : BindingRow)
    (remaining : List BindingRow) :
    loop e done (b :: remaining) = .call (S := readSig) (.tagById b.tagId)
      fun (found : Except DbErr (Option TagRow)) => match found with
        | .error _ => .ret (.error .database)
        | .ok none => .ret (.error (.corrupt b.tagId .orphanBinding))
        | .ok (some row) => match TagName.parse row.name with
          | .error source =>
              .ret (.error (.corrupt b.tagId (.invalidName source)))
          | .ok name => loop e (done ++ [⟨b.tagId, e, name⟩]) remaining := by
  show Prog.call (S := readSig) (.tagById b.tagId) _ = _
  congr 1
  funext found
  cases found with
  | error e => rfl
  | ok found =>
      cases found with
      | none => rfl
      | some row =>
          show ((match TagName.parse row.name with
            | .error source => throw (.corrupt b.tagId (.invalidName source))
            | .ok name => do
              let tags ← readTags e remaining
              return ⟨b.tagId, e, name⟩ :: tags) >>= fun tags =>
                pure ((done ++ tags).insertionSort Tag.nameUpTo) :
              Read (List Tag)) = match TagName.parse row.name with
            | .error source => throw (.corrupt b.tagId (.invalidName source))
            | .ok name => loop e (done ++ [⟨b.tagId, e, name⟩]) remaining
          cases TagName.parse row.name with
          | error source => rfl
          | ok name =>
              dsimp only [loop]
              simp only [bind_assoc, pure_bind, List.append_assoc,
                List.singleton_append]

/-- The rest of a listing, when nothing disturbs it. -/
theorem run_loop (t : Tables) (e : EndpointId) (done : List Tag)
    (remaining : List BindingRow) :
    (Prog.run query (loop e done remaining) t).1 =
      (Prog.run query (readTags e remaining) t).1.map fun tags =>
        (done ++ tags).insertionSort Tag.nameUpTo := by
  unfold loop
  rw [Prog.run_bindE]
  obtain ⟨r, t'⟩ := Prog.run query (readTags e remaining) t
  cases r <;> rfl

variable {s s' : State} {t t' : Tables} {e : EndpointId} {n : TagName}
  {done named : List Tag} {remaining : List BindingRow}

/-- The names that were found for the bindings. -/
theorem readTags_ok_cons {b : BindingRow} {tags : List Tag}
    (h : (Prog.run query (readTags e (b :: remaining)) t).1 = .ok tags) :
    ∃ row name rest, t.tags.find b.tagId = some row ∧
      TagName.parse row.name = .ok name ∧ tags = ⟨b.tagId, e, name⟩ :: rest ∧
      (Prog.run query (readTags e remaining) t).1 = .ok rest := by
  rw [readTags_cons] at h
  split at h
  · cases h
  · next row hrow =>
      split at h
      · cases h
      · next name hname =>
          split at h
          · next rest t' hrest =>
              cases h
              exact ⟨row, name, rest, hrow, hname, rfl, by rw [hrest]⟩
          · cases h

/-- Only the name rows matter. -/
theorem readTags_congr (h : (Prog.run query (readTags e remaining) t).1 = .ok named)
    (hsame : ∀ b ∈ remaining, ∀ row, t.tags.find b.tagId = some row →
      t'.tags.find b.tagId = some row) :
    (Prog.run query (readTags e remaining) t').1 = .ok named := by
  induction remaining generalizing named with
  | nil => exact h
  | cons b remaining ih =>
      obtain ⟨row, name, rest, hrow, hname, rfl, hrest⟩ := readTags_ok_cons h
      have hrest' := ih hrest fun b hb => hsame b (List.mem_cons_of_mem _ hb)
      rw [readTags_cons, hsame b List.mem_cons_self row hrow]
      simp only [hname]
      rcases hrun : Prog.run query (readTags e remaining) t' with ⟨r, u⟩
      rw [hrun] at hrest'
      cases hrest'
      rfl

/-- The bindings left are exactly what is still to be looked up. -/
theorem queried_loop (done : List Tag)
    (h : (Prog.run query (readTags e remaining) t).1 = .ok named) :
    queried t (loop e done remaining) = remaining.map BindingRow.tagId := by
  induction remaining generalizing done named with
  | nil =>
      rw [loop_nil]
      rfl
  | cons b remaining ih =>
      obtain ⟨row, name, rest, hrow, hname, -, hrest⟩ := readTags_ok_cons h
      rw [loop_cons, queried_call, hrow]
      simp only [hname]
      rw [ih _ hrest, List.map_cons]

/-- A name row that is missing makes the listing report corrupt storage. -/
theorem readTags_missing (hsound : Sound t) {b : BindingRow} (hb : b ∈ remaining)
    (hmissing : t.tags.find b.tagId = none) :
    ∃ id, (Prog.run query (readTags e remaining) t).1 =
      .error (.corrupt id .orphanBinding) := by
  induction remaining with
  | nil => cases hb
  | cons c remaining ih =>
      rw [readTags_cons]
      cases hfind : t.tags.find c.tagId with
      | none => exact ⟨c.tagId, rfl⟩
      | some row =>
          obtain ⟨name, hname⟩ := hsound.named row (Table.find_eq_some_iff.mp hfind).1
          have hparse : TagName.parse row.name = .ok name :=
            hname ▸ Name.parse_text name
          have hrest : b ∈ remaining := by
            rcases List.mem_cons.mp hb with rfl | hb
            · rw [hmissing] at hfind
              cases hfind
            · exact hb
          obtain ⟨id, hid⟩ := ih hrest
          refine ⟨id, ?_⟩
          simp only [hparse]
          rcases hrun : Prog.run query (readTags e remaining) t with ⟨r, u⟩
          rw [hrun] at hid
          cases hid
          rfl

theorem unread_loop {seen : List Tables}
    (h : (Prog.run query (readTags e remaining) t).1 = .ok named) :
    unread ⟨.tagsOf e, seen, loop e done remaining⟩ t =
      remaining.map BindingRow.tagId := by
  rw [← queried_loop done h]
  cases remaining with
  | nil =>
      simp only [unread, loop_nil]
      rfl
  | cons b remaining => simp only [unread, loop_cons]

/-! ## The invariant -/

/-- The second query of the listing of a name. -/
def readEndpoints (row : TagRow) : Read (List EndpointId) := do
  let bindings : List BindingRow ←
    orThrow (call (.bindingsOfTag row.id)) fun (_ : DbErr) => .database
  return bindings.map BindingRow.endpointId

/-- How far a listing has come. The rest of the loop finds now what it would have
found when the bindings were read; the row of a name is there, or it has gone for
good. -/
def Stage (s : State) (seen : List Tables) : (l : Listing) → Read l.Answer → Prop
  | .tagsOf e, rest =>
      rest = listTagsForEndpoint e ∨
      (∃ done remaining named, rest = loop e done remaining ∧
        (Prog.run query (readTags e remaining) s.tables).1 = .ok named ∧
        ∃ t ∈ seen, (Listing.tagsOf e).on t =
          .ok ((done ++ named).insertionSort Tag.nameUpTo)) ∨
      ∃ r, rest = .ret r ∧ Answered (.tagsOf e) seen r
  | .endpointsOf n, rest =>
      rest = listEndpointsByTag n ∨
      (∃ row, rest = readEndpoints row ∧
        (row ∈ s.tables.tags.rows ∧ row.name = n.text ∨
          row.id ∈ s.generated ∧ (∀ r ∈ s.tables.tags.rows, r.id ≠ row.id) ∧
            ∃ t ∈ seen, t.findByName n.text = none)) ∨
      ∃ r, rest = .ret r ∧ Answered (.endpointsOf n) seen r

structure FlightInv (s : State) (f : Flight) : Prop where
  latest : f.finished = false → f.seen.head? = some s.tables
  stage : Stage s f.seen f.listing f.rest

structure Inv (s : State) : Prop where
  sound : Sound s.tables
  known : ∀ row ∈ s.tables.tags.rows, row.id ∈ s.generated
  flights : ∀ f ∈ s.flights, FlightInv s f

theorem FlightInv.answered {f : Flight} (h : FlightInv s f)
    {r : Except TagRepositoryError f.listing.Answer} (hr : f.rest = .ret r) :
    Answered f.listing f.seen r := by
  obtain ⟨l, seen, rest⟩ := f
  dsimp only at r hr ⊢
  subst hr
  cases l with
  | tagsOf e =>
      rcases h.stage with heq | ⟨done, remaining, named, heq, hnow, t, hin, hon⟩ |
        ⟨r', heq, hans⟩
      · cases heq
      · cases remaining with
        | nil =>
            rw [loop_nil] at heq
            cases heq
            cases hnow
            exact ⟨t, hin, hon.trans (by rw [List.append_nil])⟩
        | cons b remaining =>
            rw [loop_cons] at heq
            cases heq
      · cases heq
        exact hans
  | endpointsOf n =>
      rcases h.stage with heq | ⟨row, heq, -⟩ | ⟨r', heq, hans⟩
      · cases heq
      · cases heq
      · cases heq
        exact hans

/-! ## Writes -/

/-- What a calm write does: no identity comes back, and a name row stays or goes
with its name while no listing waits for it. -/
structure Wrote (s s' : State) : Prop where
  generated : ∀ id ∈ s.generated, id ∈ s'.generated
  gone : ∀ id ∈ s.generated, (∀ r ∈ s.tables.tags.rows, r.id ≠ id) →
    ∀ r ∈ s'.tables.tags.rows, r.id ≠ id
  rows : ∀ row ∈ s.tables.tags.rows, row ∈ s'.tables.tags.rows ∨
    (∀ r ∈ s'.tables.tags.rows, r.id ≠ row.id ∧ r.name ≠ row.name) ∧
      ∀ f ∈ s.flights, row.id ∉ unread f s.tables

theorem Answered.mono {l : Listing} {seen seen' : List Tables}
    (hseen : ∀ t ∈ seen, t ∈ seen') :
    ∀ {r : Except TagRepositoryError l.Answer}, Answered l seen r →
      Answered l seen' r
  | .ok _, ⟨t, hin, hon⟩ => ⟨t, hseen t hin, hon⟩
  | .error _, h => h

theorem mem_see {f : Flight} (hin : t ∈ f.seen) : t ∈ (f.see t').seen := by
  unfold Flight.see
  split
  · exact hin
  · exact List.mem_cons_of_mem _ hin

theorem see_eq (f : Flight) (t : Tables) :
    f.see t = ⟨f.listing, (f.see t).seen, f.rest⟩ := by
  unfold Flight.see
  split <;> rfl

theorem FlightInv.see {f : Flight} (h : FlightInv s f) (hf : f ∈ s.flights)
    (hknown : ∀ row ∈ s.tables.tags.rows, row.id ∈ s.generated)
    (w : Wrote s s') : FlightInv s' (f.see s'.tables) := by
  refine ⟨fun hunfinished => ?_, ?_⟩
  · unfold Flight.see at hunfinished ⊢
    split
    · next hfinished =>
        rw [if_pos hfinished] at hunfinished
        rw [hunfinished] at hfinished
        cases hfinished
    · rfl
  · have hseen : ∀ t ∈ f.seen, t ∈ (f.see s'.tables).seen := fun t => mem_see
    rw [see_eq]
    obtain ⟨l, seen, rest⟩ := f
    cases l with
    | tagsOf e =>
        rcases h.stage with heq | ⟨done, remaining, named, heq, hnow, t, hin, hon⟩ |
          ⟨r, heq, hans⟩
        · exact .inl heq
        · obtain rfl : rest = loop e done remaining := heq
          refine .inr (.inl ⟨done, remaining, named, rfl, ?_, t, hseen t hin, hon⟩)
          refine readTags_congr hnow fun b hb row hrow => ?_
          obtain ⟨hrow, hid⟩ := Table.find_eq_some_iff.mp hrow
          rcases w.rows row hrow with hrow | ⟨-, hunread⟩
          · exact Table.find_eq_some_iff.mpr ⟨hrow, hid⟩
          · refine absurd ?_ (hunread _ hf)
            rw [unread_loop hnow, hid]
            exact List.mem_map_of_mem hb
        · exact .inr (.inr ⟨r, heq, hans.mono hseen⟩)
    | endpointsOf n =>
        rcases h.stage with heq | ⟨row, heq, hrow⟩ | ⟨r, heq, hans⟩
        · exact .inl heq
        · refine .inr (.inl ⟨row, heq, ?_⟩)
          obtain rfl : rest = readEndpoints row := heq
          rcases hrow with ⟨hrow, hname⟩ | ⟨hid, hgone, t, hin, hnone⟩
          · rcases w.rows row hrow with hrow' | ⟨hgone, -⟩
            · exact .inl ⟨hrow', hname⟩
            · refine .inr ⟨w.generated _ (hknown row hrow), fun r hr => (hgone r hr).1,
                s'.tables, List.mem_cons_self, ?_⟩
              simp only [Tables.findByName, List.find?_eq_none, decide_eq_true_eq]
              exact fun r hr => hname ▸ (hgone r hr).2
          · exact .inr ⟨w.generated _ hid, w.gone _ hid hgone, t,
              hseen t hin, hnone⟩
        · exact .inr (.inr ⟨r, heq, hans.mono hseen⟩)

/-- A write that takes no name from under a listing. -/
theorem Inv.write (h : Inv s) {w : Write} {fault : Option Fault}
    (hstep : next s (.write w fault) = some s')
    (hcalm : ¬ Disturbs s (.write w fault)) : Inv s' := by
  simp only [next] at hstep
  split at hstep
  case isFalse => cases hstep
  next hfresh =>
    cases hstep
    have hflights : ∀ s' : State,
        s'.flights = s.flights.map (Flight.see s'.tables) → Wrote s s' →
        ∀ f ∈ s'.flights, FlightInv s' f := by
      intro s' hmap hwrote f hf
      rw [hmap] at hf
      obtain ⟨g, hg, rfl⟩ := List.mem_map.mp hf
      exact (h.flights g hg).see hg h.known hwrote
    rcases perform_cases fault s.tables w with hsame |
      ⟨generated, e, n, row, rfl, a⟩ | ⟨e, n, row, rfl, rfl, hname, d⟩
    · rw [hsame]
      refine ⟨h.sound, fun row hrow => ?_, hflights _ rfl ⟨fun id hid => ?_,
        fun id _ hgone => hgone, fun row hrow => .inl hrow⟩⟩
      · exact List.mem_append_right _ (h.known row hrow)
      · exact List.mem_append_right _ hid
    · have hnew : ∀ r ∈ (perform fault s.tables (.assign generated e n)).2.tags.rows,
          r ∈ s.tables.tags.rows ∨ r.id = generated := by
        intro r hr
        rcases a.mem_tags.mp hr with rfl | hr
        · exact a.tags.imp And.left And.left
        · exact .inl hr
      refine ⟨a.sound h.sound, fun r hr => ?_, hflights _ rfl ⟨fun id hid => ?_,
        fun id hid hgone r hr heq => ?_, fun r hr => ?_⟩⟩
      · rcases hnew r hr with hr | hid
        · exact List.mem_append_right _ (h.known r hr)
        · exact hid ▸ List.mem_cons_self
      · exact List.mem_append_right _ hid
      · rcases hnew r hr with hr | hid'
        · exact hgone r hr heq
        · exact hfresh generated List.mem_cons_self (hid' ▸ heq ▸ hid)
      · exact .inl (a.mem_tags.mpr (.inr hr))
    · refine ⟨d.sound h.sound, fun r hr => ?_, hflights _ rfl ⟨fun id hid => ?_,
        fun id hid hgone r hr => ?_, fun r hr => ?_⟩⟩
      · exact h.known r (d.mem_tags.mp hr).1
      · exact hid
      · exact hgone r (d.mem_tags.mp hr).1
      · by_cases hstay : r ∈ (perform none s.tables (.remove e n)).2.tags.rows
        · exact .inl hstay
        refine .inr ⟨fun r' hr' => ?_, fun f hf hunread => hcalm ?_⟩
        · have hr' := d.mem_tags.mp hr'
          refine ⟨fun hid => hstay ?_, fun heq => hstay ?_⟩
          · exact d.mem_tags.mpr (eq_of_id hr'.1 hr hid ▸ hr')
          · exact d.mem_tags.mpr (h.sound.eq_of_name hr'.1 hr heq ▸ hr')
        · have hlast : ¬ (r = row → ∃ b ∈ (perform none s.tables
              (.remove e n)).2.bindings.rows, b.tagId = row.id) :=
            fun himp => hstay (d.mem_tags.mpr ⟨hr, himp⟩)
          obtain ⟨rfl, hlast⟩ := Classical.not_imp.mp hlast
          refine ⟨r, h.sound.findByName hr hname, fun b hb => ?_, f, hf, hunread⟩
          obtain ⟨hb, hid⟩ := List.mem_filter.mp hb
          by_contra hne
          refine hlast ⟨b, (d.bindings b).mpr ⟨hb, fun heq => hne ?_⟩,
            of_decide_eq_true hid⟩
          rw [heq]

/-! ## Queries -/

theorem listTags_eq (e : EndpointId) :
    listTagsForEndpoint e = .call (S := readSig) (.bindingsOfEndpoint e)
      fun (found : Except DbErr (List BindingRow)) => match found with
        | .error _ => .ret (.error .database)
        | .ok bindings => loop e [] bindings := by
  show Prog.call (S := readSig) (.bindingsOfEndpoint e) _ = _
  congr 1
  funext found
  cases found <;> rfl

theorem listEndpoints_eq (n : TagName) :
    listEndpointsByTag n = .call (S := readSig) (.tagByName n.text)
      fun (found : Except DbErr (Option TagRow)) => match found with
        | .error _ => .ret (.error .database)
        | .ok none => .ret (.ok [])
        | .ok (some row) => readEndpoints row := by
  show Prog.call (S := readSig) (.tagByName n.text) _ = _
  congr 1
  funext found
  cases found with
  | error e => rfl
  | ok found => cases found <;> rfl

theorem readEndpoints_eq (row : TagRow) :
    readEndpoints row = .call (S := readSig) (.bindingsOfTag row.id)
      fun (found : Except DbErr (List BindingRow)) => match found with
        | .error _ => .ret (.error .database)
        | .ok bindings => .ret (.ok (bindings.map BindingRow.endpointId)) := by
  show Prog.call (S := readSig) (.bindingsOfTag row.id) _ = _
  congr 1
  funext found
  cases found <;> rfl

/-- The answer to the query a listing has reached. -/
theorem Stage.step {seen : List Tables} (hlatest : seen.head? = some s.tables)
    (hsound : Sound s.tables) {l : Listing} {q : ReadReq}
    {k : q.Resp → Prog readSig (Except TagRepositoryError l.Answer)} {fault : Bool}
    (h : Stage s seen l (.call (S := readSig) q k)) :
    Stage s seen l (k (answer fault s.tables q)) := by
  have hnow : s.tables ∈ seen := List.mem_of_mem_head? hlatest
  cases l with
  | tagsOf e =>
      rcases h with heq | ⟨done, remaining, named, heq, hnames, t, hin, hon⟩ |
        ⟨r', heq, -⟩
      · rw [listTags_eq] at heq
        cases heq
        cases fault with
        | true => exact .inr (.inr ⟨.error .database, rfl, rfl⟩)
        | false =>
            obtain ⟨tags, hrun, -⟩ := readTags_on hsound e
              (s.tables.ofEndpoint e) fun b hb => List.mem_of_mem_filter hb
            refine .inr (.inl ⟨[], s.tables.ofEndpoint e, tags, rfl,
              congrArg Prod.fst hrun, s.tables, hnow, ?_⟩)
            rw [tagsOf_eq, hrun]
            rfl
      · cases remaining with
        | nil =>
            rw [loop_nil] at heq
            cases heq
        | cons b remaining =>
            rw [loop_cons] at heq
            cases heq
            cases fault with
            | true => exact .inr (.inr ⟨.error .database, rfl, rfl⟩)
            | false =>
                obtain ⟨row, name, rest, hrow, hname, rfl, hrest⟩ :=
                  readTags_ok_cons hnames
                refine .inr (.inl ⟨done ++ [⟨b.tagId, e, name⟩], remaining, rest, ?_,
                  hrest, t, hin, ?_⟩)
                · have hanswer : answer false s.tables (.tagById b.tagId) =
                      (Except.ok (some row) : Except DbErr (Option TagRow)) :=
                    congrArg Except.ok hrow
                  rw [hanswer]
                  simp only [hname]
                · rw [hon, List.append_assoc, List.singleton_append]
      · cases heq
  | endpointsOf n =>
      rcases h with heq | ⟨row, heq, hrow⟩ | ⟨r', heq, -⟩
      · rw [listEndpoints_eq] at heq
        cases heq
        cases fault with
        | true => exact .inr (.inr ⟨.error .database, rfl, rfl⟩)
        | false =>
            have hanswer : answer false s.tables (.tagByName n.text) =
                (Except.ok (s.tables.findByName n.text) :
                  Except DbErr (Option TagRow)) := rfl
            rw [hanswer]
            cases hfind : s.tables.findByName n.text with
            | none =>
                refine .inr (.inr ⟨.ok [], rfl, s.tables, hnow, ?_⟩)
                rw [endpointsOf_eq, hfind]
            | some row =>
                exact .inr (.inl ⟨row, rfl, .inl (findByName_some hfind)⟩)
      · rw [readEndpoints_eq] at heq
        cases heq
        cases fault with
        | true => exact .inr (.inr ⟨.error .database, rfl, rfl⟩)
        | false =>
            refine .inr (.inr ⟨_, rfl, ?_⟩)
            rcases hrow with ⟨hrow, hname⟩ | ⟨-, hgone, t, hin, hnone⟩
            · refine ⟨s.tables, hnow, ?_⟩
              rw [endpointsOf_eq, hsound.findByName hrow hname]
            · refine ⟨t, hin, ?_⟩
              have hempty : s.tables.ofTag row.id = [] := by
                refine List.filter_eq_nil_iff.mpr fun b hb hid => ?_
                obtain ⟨r, hr, hid'⟩ := hsound.bound b hb
                exact hgone r hr (hid'.trans (of_decide_eq_true hid))
              rw [endpointsOf_eq, hnone, hempty]
              rfl
      · cases heq

/-! ## Runs -/

theorem Inv.initial (h : Initial s) : Inv s := by
  obtain ⟨tables, generated, flights⟩ := s
  obtain ⟨rfl, rfl, rfl⟩ := h
  exact ⟨sound_empty, fun _ hrow => absurd hrow List.not_mem_nil,
    fun _ hf => absurd hf List.not_mem_nil⟩

theorem Inv.calm (h : Inv s) (hstep : Calm s s') : Inv s' := by
  obtain ⟨label, hstep, hcalm⟩ := hstep
  cases label with
  | write w fault => exact h.write hstep hcalm
  | list l =>
      cases hstep
      refine ⟨h.sound, h.known, fun f hf => ?_⟩
      rcases List.mem_append.mp hf with hf | hf
      · exact ⟨(h.flights f hf).latest, (h.flights f hf).stage⟩
      · cases List.mem_singleton.mp hf
        refine ⟨fun _ => rfl, ?_⟩
        cases l with
        | tagsOf e => exact .inl rfl
        | endpointsOf n => exact .inl rfl
  | step i fault =>
      simp only [next] at hstep
      split at hstep
      · next l seen q k hget =>
          cases hstep
          refine ⟨h.sound, h.known, fun f hf => ?_⟩
          have hold := h.flights _ (List.mem_of_getElem? hget)
          rcases List.mem_or_eq_of_mem_set hf with hf | rfl
          · exact ⟨(h.flights f hf).latest, (h.flights f hf).stage⟩
          · have hlatest := hold.latest rfl
            exact ⟨fun _ => hlatest, hold.stage.step hlatest h.sound⟩
      · cases hstep

theorem inv_of_calm (h : Reach Initial Calm s) : Inv s :=
  h.inv (fun _ hinit => .initial hinit) fun _ _ hinv hstep => hinv.calm hstep

/-- A listing that has yet to look up a name is in its loop. -/
theorem Inv.pending (h : Inv s) {f : Flight} (hf : f ∈ s.flights) {id : TagId}
    (hunread : id ∈ unread f s.tables) :
    ∃ e seen done remaining, f = ⟨.tagsOf e, seen, loop e done remaining⟩ ∧
      ∃ b ∈ remaining, b.tagId = id := by
  obtain ⟨l, seen, rest⟩ := f
  have hstage := (h.flights _ hf).stage
  cases l with
  | tagsOf e =>
      rcases hstage with heq | ⟨done, remaining, named, heq, hnow, -⟩ | ⟨r, heq, -⟩
      · obtain rfl : rest = listTagsForEndpoint e := heq
        exact absurd hunread List.not_mem_nil
      · obtain rfl : rest = loop e done remaining := heq
        rw [unread_loop hnow] at hunread
        exact ⟨e, seen, done, remaining, rfl, List.mem_map.mp hunread⟩
      · obtain rfl : rest = .ret r := heq
        exact absurd hunread List.not_mem_nil
  | endpointsOf n =>
      rcases hstage with heq | ⟨row, heq, -⟩ | ⟨r, heq, -⟩
      · obtain rfl : rest = listEndpointsByTag n := heq
        exact absurd hunread List.not_mem_nil
      · obtain rfl : rest = readEndpoints row := heq
        exact absurd hunread List.not_mem_nil
      · obtain rfl : rest = .ret r := heq
        exact absurd hunread List.not_mem_nil

/-- The removal of a last binding deletes the name row. -/
theorem removeTag_last {row : TagRow} (hrow : t.findByName n.text = some row)
    (hlast : ∀ b ∈ t.ofTag row.id, b.endpointId = e) :
    removeTag t e n = .ok ((), (t.deleteBinding (row.id, e)).deleteTag row.id) := by
  have hnone : (t.deleteBinding (row.id, e)).ofTag row.id = [] := by
    refine List.filter_eq_nil_iff.mpr fun b hb hid => ?_
    obtain ⟨hb, hkey⟩ := List.mem_filter.mp hb
    have hend := hlast b (List.mem_filter.mpr ⟨hb, hid⟩)
    refine of_decide_eq_true hkey ?_
    rw [BindingRow.key, hend, of_decide_eq_true hid]
  unfold removeTag
  rw [hrow]
  dsimp only
  rw [hnone]
  rfl

/-- A listing whose name was taken reports corrupt storage, if nothing else
happens. -/
theorem Inv.disturbed (h : Inv s) {l : Label} (hstep : next s l = some s')
    (hdisturbs : Disturbs s l) :
    ∃ f ∈ s'.flights, ∃ id, (Prog.run query f.rest s'.tables).1 =
      .error (.corrupt id .orphanBinding) := by
  unfold Disturbs at hdisturbs
  split at hdisturbs
  · next e n =>
      obtain ⟨row, hrow, hlast, f, hf, hunread⟩ := hdisturbs
      obtain ⟨e', seen, done, remaining, rfl, b, hb, hid⟩ := h.pending hf hunread
      simp only [next] at hstep
      split at hstep
      case isFalse => cases hstep
      next hfresh =>
        cases hstep
        refine ⟨_, List.mem_map_of_mem hf, ?_⟩
        have hremoved := removeTag_last hrow hlast
        have htables : (perform none s.tables (.remove e n)).2 =
            (s.tables.deleteBinding (row.id, e)).deleteTag row.id := by
          simp only [perform, transact, transaction, hremoved]
        have hsound : Sound (perform none s.tables (.remove e n)).2 := by
          rw [htables]
          rcases removeTag_ok hremoved with ⟨hnone, -⟩ | ⟨row, -, d⟩
          · rw [hnone] at hrow
            cases hrow
          · exact d.sound h.sound
        obtain ⟨id, herror⟩ := readTags_missing (e := e') hsound hb (by
          rw [htables, hid]
          refine Table.find_eq_none_iff.mpr fun r hr => ?_
          exact of_decide_eq_true (List.mem_filter.mp hr).2)
        refine ⟨id, ?_⟩
        rw [see_eq]
        exact (run_loop _ e' done remaining).trans (by rw [herror]; rfl)
  · cases hdisturbs

def rack : TagName := ⟨"rack", by decide⟩

/-- A removal lands between the two queries of a listing. -/
def crossing : List Label :=
  [.write (.assign ⟨1⟩ ⟨7⟩ rack) none, .list (.tagsOf ⟨7⟩), .step 0 false,
    .write (.remove ⟨7⟩ rack) none, .step 0 false]

def corrupted (f : Flight) : Bool :=
  match f.rest with
  | .ret (.error (.corrupt ..)) => true
  | _ => false

theorem removal_corrupts_listing :
    ¬ ∀ s, Reach Initial (Next next) s → ∀ f ∈ s.flights, ∀ r, f.rest = .ret r →
      Answered f.listing f.seen r := by
  intro hall
  obtain ⟨s, hs, hbad⟩ := exists_reach_of_follow Initial next crossing
    (fun s => s.flights.any corrupted) (s := ⟨.empty, [], []⟩) ⟨rfl, rfl, rfl⟩
    (by decide)
  obtain ⟨f, hf, hbad⟩ := List.any_eq_true.mp hbad
  unfold corrupted at hbad
  split at hbad
  · next id source hrest => cases hall s hs f hf _ hrest
  · cases hbad

/-- As long as no step takes a name from under a listing, every listing that ends
has answered what some table state of its time holds, or that a query failed; and
a step that does leaves a listing that reports corrupt storage. -/
theorem listings_answer_snapshots (s : State) :
    (Reach Initial Calm s → ∀ f ∈ s.flights, ∀ r, f.rest = .ret r →
      Answered f.listing f.seen r) ∧
    (Reach Initial Calm s → ∀ l s', next s l = some s' → Disturbs s l →
      ∃ f ∈ s'.flights, ∃ id, (Prog.run query f.rest s'.tables).1 =
        .error (.corrupt id .orphanBinding)) :=
  ⟨fun hs f hf _ hr => ((inv_of_calm hs).flights f hf).answered hr,
    fun hs _ _ hstep hdisturbs => (inv_of_calm hs).disturbed hstep hdisturbs⟩

end Rutilus.Proofs.TagReads
