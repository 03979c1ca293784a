import Rutilus.Proofs.ReplayWrites

/-!
# Delivered again is delivered once

The consumption of a frame is a comparison with the cursor, a write, and the
cursor's advance. At any time the center is at one of three positions of the
next frame: before its write, between the write and the cursor, or past both.
A delivery at the second position makes the write again, which changes nothing
but times; at the third, and for every older frame, the cursor stops it.
-/

namespace Rutilus.Proofs.ReplayProjection

open Rutilus.Domain Rutilus.Lib Rutilus.Store Rutilus.Report
open Rutilus.Report.CenterProjection Rutilus.Report.Replay
open Rutilus.Proofs.ReplayWrites

/-! ## A consumption -/

/-- The frame is new for its stream. -/
def fresh (site : InstanceId) (f : Frame) (w : CenterStore) : Bool :=
  match (getSyncCursor w.cursors site .endpoint).bind SyncCursor.cursorValue with
  | none => true
  | some processed => processed < f.sequence

/-- The write of a decoded delta. -/
def writeOfDelta (site : InstanceId) (now : Instant) (t : ProjectionTables) :
    DecodedDelta → ProjectionWrite
  | .deleteEndpoint e => deleteEndpointProjection t e site
  | .deleteResource e odataId => deleteResourceProjection t e odataId site
  | .upsertResource projection =>
      upsertResourceProjection t projection site now

/-- The write of a frame; `none` is a frame the center passes over. -/
def writeOf (site : InstanceId) (now : Instant) (t : ProjectionTables) :
    EnvelopeMessage → Option ProjectionWrite
  | .endpointSnapshot snapshot => (decodeEndpoint snapshot).toOption.map
      fun projection => upsertEndpointProjection t projection site now
  | .resourceDelta delta =>
      (decodeDelta delta).toOption.map (writeOfDelta site now t)
  | _ => none

/-- The center after the write; `none` is a write that fails. -/
def wrote (site : InstanceId) (f : Frame) (now : Instant) (w : CenterStore) :
    Option CenterStore :=
  match writeOf site now w.projection f.message with
  | none => some w
  | some (.ok (_, t)) => some { w with projection := t }
  | some (.error _) => none

def advanced (site : InstanceId) (f : Frame) (now : Instant)
    (w : CenterStore) : CenterStore :=
  { w with
    cursors := setSyncCursor w.cursors
      ⟨site, .endpoint, some f.sequence, now⟩ }

/-- A projection write. -/
def isWrite : ProjectionReq → Bool
  | .upsertEndpoint .. | .deleteEndpoint .. | .upsertResource ..
  | .deleteResource .. => true
  | _ => false

theorem isWrite_of_landed {q : ProjectionReq} {r : q.Resp}
    (h : landed q r = true) : isWrite q = true := by
  unfold landed at h
  split at h <;> first | rfl | cases h

/-- The calls under some oracles. -/
def Calls (sha : Bytes → Digest) (O : CenterOracle → Prop) :
    Sem projectionSig CenterStore :=
  fun q w r w' => ∃ o, O o ∧ performCenter sha o q w = (r, w')

/-- Every state visited satisfies `P`, and writes are made only if allowed. -/
abbrev Consumes {α : Type} (sha : Bytes → Digest) (O : CenterOracle → Prop)
    (P : CenterStore → Prop) (allowed : Prop) (p : Prog projectionSig α)
    (Q : α → CenterStore → Prop) (w : CenterStore) : Prop :=
  Safe (Calls sha O) Eq (fun q _ w' => P w' ∧ (isWrite q = true → allowed)) p Q w

section Consumption

variable {sha : Bytes → Digest} {O : CenterOracle → Prop}
  {P : CenterStore → Prop} {allowed : Prop} {site : InstanceId} {f : Frame}
  {now : Instant} {w : CenterStore}
  {Q : Except CenterProjectionError Unit → CenterStore → Prop}

/-- What the environment may end a consumption with. -/
def Faulty (O : CenterOracle → Prop) (P : CenterStore → Prop)
    (Q : Except CenterProjectionError Unit → CenterStore → Prop) : Prop :=
  ∀ o, O o → o.fault ≠ none → ∀ e w, P w → Q (.error e) w

theorem advanceCursor_consumes (hw : P w) (hfault : Faulty O P Q)
    (hdone : P (advanced site f now w) ∧ Q (.ok ()) (advanced site f now w)) :
    Consumes sha O P allowed (advanceCursor site .endpoint f.sequence now) Q
      w := by
  refine Safe.orThrow.mpr ?_
  rintro w₁ rfl r w₂ ⟨o, ho, h⟩
  simp only [performCenter] at h
  cases hf : o.fault with
  | some fault =>
      rw [hf] at h
      cases h
      exact ⟨⟨hw, nofun⟩, hfault o ho (by rw [hf]; exact nofun) _ _ hw⟩
  | none =>
      rw [hf] at h
      cases h
      exact ⟨⟨hdone.1, nofun⟩, hdone.2⟩

/-- What a write call answers. -/
def answerOf (o : CenterOracle) (w : CenterStore) (W : ProjectionWrite) :
    Except ProjectionRepositoryError ProjectionWriteOutcome × CenterStore :=
  match o.fault with
  | some fault => (.error (.fault fault), w)
  | none => projected w W

/-- What a write leads to: it and the cursor's advance keep `P`, and the end is
as promised. -/
structure Written (P : CenterStore → Prop)
    (Q : Except CenterProjectionError Unit → CenterStore → Prop)
    (site : InstanceId) (f : Frame) (now : Instant) (w : CenterStore) :
    Prop where
  kept : P w
  advanced : P (advanced site f now w)
  ended : Q (.ok ()) (ReplayProjection.advanced site f now w)

theorem write_consumes {W : ProjectionWrite}
    {p : Prog projectionSig
      (Except ProjectionRepositoryError ProjectionWriteOutcome)}
    (hp : ∀ Q', (∀ o r w₂, O o → answerOf o w W = (r, w₂) → P w₂ ∧ Q' r w₂) →
      Consumes sha O P allowed p Q' w)
    (hw : P w) (hfault : Faulty O P Q)
    (hover : ∀ e, W = .error e → ∀ e', Q (.error e') w)
    (hdone : ∀ outcome t, W = .ok (outcome, t) →
      Written P Q site f now { w with projection := t }) :
    Consumes sha O P allowed (do
      let outcome ← orThrow p .projection
      settleOutcome outcome site f.sequence .endpoint now : M Unit) Q w := by
  refine Safe.bindE.mpr (Safe.orThrow.mpr (hp _ ?_))
  intro o r w₂ ho h
  unfold answerOf at h
  cases hf : o.fault with
  | some fault =>
      rw [hf] at h
      cases h
      exact ⟨hw, hfault o ho (by rw [hf]; exact nofun) _ _ hw⟩
  | none =>
      rw [hf] at h
      match W, h with
      | .error e, h =>
          cases h
          exact ⟨hw, hover e rfl _⟩
      | .ok (outcome, t), h =>
          cases h
          have hwritten := hdone outcome t rfl
          exact ⟨hwritten.kept, advanceCursor_consumes hwritten.kept hfault
            ⟨hwritten.advanced, hwritten.ended⟩⟩

/-- A consumption, by what may happen in it. -/
theorem onFrame_consumes (hproj : isProjection f.message = true) (hw : P w)
    (hallowed : fresh site f w = true → allowed) (hfault : Faulty O P Q)
    (hover : fresh site f w = true → wrote site f now w = none →
      ∀ e, Q (.error e) w)
    (hskip : fresh site f w = false → Q (.ok ()) w)
    (hdone : fresh site f w = true → ∀ w₁, wrote site f now w = some w₁ →
      Written P Q site f now w₁) :
    Consumes sha O P allowed (onFrame site f.sequence f.message now) Q w := by
  have hgate : ∀ rest : M Unit,
      (fresh site f w = true → Consumes sha O P allowed rest Q w) →
      Consumes sha O P allowed (do
        if !(← passesCursor site .endpoint f.sequence) then return ()
        rest : M Unit) Q w := by
    intro rest hrest
    refine Safe.bindE.mpr (Safe.bindE.mpr (Safe.orThrow.mpr ?_))
    rintro w₁ rfl r w₂ ⟨o, ho, h⟩
    simp only [performCenter] at h
    cases hf : o.fault with
    | some fault =>
        rw [hf] at h
        cases h
        exact ⟨⟨hw, nofun⟩, hfault o ho (by rw [hf]; exact nofun) _ _ hw⟩
    | none =>
        rw [hf] at h
        cases h
        refine ⟨⟨hw, nofun⟩, ?_⟩
        unfold fresh at hrest hskip
        generalize getSyncCursor w.cursors site .endpoint = cursor at hrest hskip
        match cursor, hrest, hskip with
        | none, hrest, _ => exact hrest rfl
        | some ⟨_, _, none, _⟩, hrest, _ => exact hrest rfl
        | some ⟨_, _, some processed, _⟩, hrest, hskip =>
            show Consumes sha O P allowed
              (if !decide (processed < f.sequence) then return () else rest :
                M Unit) Q w
            cases hlt : decide (processed < f.sequence) with
            | true => exact hrest hlt
            | false => exact hskip hlt
  unfold wrote at hover hdone
  cases hm : f.message with
  | endpointSnapshot snapshot =>
      rw [hm] at hover hdone
      refine hgate _ fun hfresh => ?_
      simp only [writeOf] at hover hdone
      cases hd : decodeEndpoint snapshot with
      | error reason =>
          rw [hd] at hdone
          have hwritten := hdone hfresh w rfl
          exact advanceCursor_consumes hw hfault
            ⟨hwritten.advanced, hwritten.ended⟩
      | ok projection =>
          rw [hd] at hover hdone
          simp only [Except.toOption, Option.map_some] at hover hdone
          refine write_consumes (W := upsertEndpointProjection w.projection
            projection site now) ?_ hw hfault
            (fun e he => hover hfresh (by rw [he]))
            (fun outcome t ht => hdone hfresh _ (by rw [ht]))
          rintro Q' hQ w₁ rfl r w₂ ⟨o, ho, h⟩
          obtain ⟨hP, hQ⟩ := hQ o r w₂ ho h
          exact ⟨⟨hP, fun _ => hallowed hfresh⟩, hQ⟩
  | resourceDelta delta =>
      rw [hm] at hover hdone
      refine hgate _ fun hfresh => ?_
      simp only [writeOf] at hover hdone
      cases hd : decodeDelta delta with
      | error reason =>
          rw [hd] at hdone
          have hwritten := hdone hfresh w rfl
          exact advanceCursor_consumes hw hfault
            ⟨hwritten.advanced, hwritten.ended⟩
      | ok decoded =>
          rw [hd] at hover hdone
          simp only [Except.toOption, Option.map_some] at hover hdone
          have hwrite : ∀ {p}, (∀ Q', (∀ o r w₂, O o →
              answerOf o w (writeOfDelta site now w.projection decoded) =
                (r, w₂) → P w₂ ∧ Q' r w₂) → Consumes sha O P allowed p Q' w) →
              Consumes sha O P allowed (do
                let outcome ← orThrow p .projection
                settleOutcome outcome site f.sequence .endpoint now : M Unit)
                Q w := fun hp =>
            write_consumes hp hw hfault (fun e he => hover hfresh (by rw [he]))
              (fun outcome t ht => hdone hfresh _ (by rw [ht]))
          cases decoded with
          | deleteEndpoint e =>
              refine hwrite ?_
              rintro Q' hQ w₁ rfl r w₂ ⟨o, ho, h⟩
              obtain ⟨hP, hQ⟩ := hQ o r w₂ ho h
              exact ⟨⟨hP, fun _ => hallowed hfresh⟩, hQ⟩
          | deleteResource e odataId =>
              refine hwrite ?_
              rintro Q' hQ w₁ rfl r w₂ ⟨o, ho, h⟩
              obtain ⟨hP, hQ⟩ := hQ o r w₂ ho h
              exact ⟨⟨hP, fun _ => hallowed hfresh⟩, hQ⟩
          | upsertResource projection =>
              refine hwrite ?_
              rintro Q' hQ w₁ rfl r w₂ ⟨o, ho, h⟩
              obtain ⟨hP, hQ⟩ := hQ o r w₂ ho h
              exact ⟨⟨hP, fun _ => hallowed hfresh⟩, hQ⟩
  | _ => rw [hm] at hproj; cases hproj

end Consumption

/-! ## What a frame comes to -/

section Frames

variable {sha : Bytes → Digest} {site : InstanceId} {f g : Frame}
  {now : Instant} {w w₁ : CenterStore}

/-- The center after a frame was delivered and nothing went wrong. -/
def delivered (site : InstanceId) (f : Frame) (now : Instant)
    (w : CenterStore) : CenterStore :=
  if fresh site f w then
    match wrote site f now w with
    | some w₁ => advanced site f now w₁
    | none => w
  else w

theorem deliverOnce_eq (hproj : isProjection f.message = true) :
    deliverOnce sha site f now w = delivered site f now w := by
  have h : Consumes sha (· = undisturbed) (fun _ => True) True
      (onFrame site f.sequence f.message now)
      (fun _ w' => w' = delivered site f now w) w := by
    refine onFrame_consumes hproj trivial (fun _ => trivial) ?_ ?_ ?_ ?_
    · rintro o rfl ho
      exact absurd rfl ho
    · intro hfresh hwrote e
      rw [delivered, if_pos hfresh, hwrote]
    · intro hfresh
      rw [delivered, if_neg (by rw [hfresh]; exact nofun)]
    · intro hfresh w₁ hwrote
      refine ⟨trivial, trivial, ?_⟩
      rw [delivered, if_pos hfresh, hwrote]
  exact (h.narrow fun q a r b hq => ⟨undisturbed, rfl, hq⟩).run

theorem fresh_advanced :
    fresh site g (advanced site f now w) = decide (f.sequence < g.sequence) := by
  unfold fresh advanced
  have hkey : (⟨site, .endpoint, some f.sequence, now⟩ : SyncCursor Nat).key =
      (site, .endpoint) := rfl
  dsimp only
  rw [getSyncCursor_set, if_pos hkey]
  rfl

theorem fresh_wrote (h : wrote site f now w = some w₁) :
    fresh site g w₁ = fresh site g w := by
  unfold wrote at h
  split at h <;> cases h <;> rfl

theorem fresh_timeless : fresh site f w.timeless = fresh site f w := by
  unfold fresh CenterStore.timeless getSyncCursor
  dsimp only
  rw [Table.find_map, Option.bind_map]
  rfl

theorem writeOf_timeless {t : ProjectionTables} {m : EnvelopeMessage} :
    writeOf site 0 t.timeless m = (writeOf site now t m).map bare := by
  unfold writeOf
  split
  · cases decodeEndpoint _ with
    | error reason => rfl
    | ok projection => exact congrArg some upsertEndpoint_timeless
  · cases decodeDelta _ with
    | error reason => rfl
    | ok decoded =>
        cases decoded with
        | deleteEndpoint e => exact congrArg some deleteEndpoint_timeless
        | deleteResource e odataId =>
            exact congrArg some deleteResource_timeless
        | upsertResource projection =>
            exact congrArg some upsertResource_timeless
  · rfl

theorem wrote_timeless :
    wrote site f 0 w.timeless =
      (wrote site f now w).map CenterStore.timeless := by
  unfold wrote
  have hprojection : w.timeless.projection = w.projection.timeless := rfl
  rw [hprojection, writeOf_timeless]
  cases writeOf site now w.projection f.message with
  | none => rfl
  | some W =>
      cases W with
      | error e => rfl
      | ok a => rfl

theorem advanced_timeless :
    advanced site f 0 w.timeless = (advanced site f now w).timeless := by
  unfold advanced CenterStore.timeless setSyncCursor
  dsimp only
  rw [Table.map_put]
  rfl

theorem delivered_timeless :
    delivered site f 0 w.timeless = (delivered site f now w).timeless := by
  unfold delivered
  rw [fresh_timeless, wrote_timeless]
  split
  · cases wrote site f now w with
    | none => rfl
    | some w₁ => exact advanced_timeless
  · rfl

theorem writeOf_again {t t' : ProjectionTables} {m : EnvelopeMessage}
    {outcome : ProjectionWriteOutcome}
    (h : writeOf site now t m = some (.ok (outcome, t'))) :
    ∃ outcome', writeOf site now t' m = some (.ok (outcome', t')) := by
  have hsome : ∀ {W : ProjectionWrite}, (∃ outcome', W = .ok (outcome', t')) →
      ∃ outcome', some W = some (.ok (outcome', t')) := by
    rintro W ⟨outcome', rfl⟩
    exact ⟨outcome', rfl⟩
  unfold writeOf at h ⊢
  split at h
  · cases hd : decodeEndpoint _ with
    | error reason => rw [hd] at h; cases h
    | ok projection =>
        rw [hd] at h
        exact hsome (upsertEndpoint_again (Option.some.inj h))
  · cases hd : decodeDelta _ with
    | error reason => rw [hd] at h; cases h
    | ok decoded =>
        rw [hd] at h
        cases decoded with
        | deleteEndpoint e =>
            exact hsome (deleteEndpoint_again (Option.some.inj h))
        | deleteResource e odataId =>
            exact hsome (deleteResource_again (Option.some.inj h))
        | upsertResource projection =>
            exact hsome (upsertResource_again (Option.some.inj h))
  · cases h

/-- A write that went through, made again at the same time, changes nothing. -/
theorem wrote_again (h : wrote site f now w = some w₁) :
    wrote site f now w₁ = some w₁ := by
  have h' := h
  unfold wrote at h'
  split at h'
  · cases h'
    exact h
  · next outcome t ht =>
      cases h'
      obtain ⟨outcome', ht'⟩ := writeOf_again ht
      unfold wrote
      dsimp only
      rw [ht']
  · cases h'

end Frames

/-! ## The position in the list -/

section Position

variable {sha : Bytes → Digest} {T : Setup} {n : Nat} {f : Frame}
  {w : CenterStore}

/-- The center after the first `n` frames, each delivered once at time zero. -/
def base (sha : Bytes → Digest) (T : Setup) (n : Nat) : CenterStore :=
  deliverAll sha T.site (fun _ => 0) (T.frames.take n) T.start

theorem deliverAll_append {site : InstanceId} {clock : Nat → Instant}
    {fs gs : List Frame} :
    deliverAll sha site clock (fs ++ gs) w =
      deliverAll sha site (fun n => clock (n + fs.length)) gs
        (deliverAll sha site clock fs w) := by
  induction fs generalizing clock w with
  | nil => rfl
  | cons f fs ih =>
      simp only [List.cons_append, deliverAll, ih, List.length_cons]
      congr 1

theorem deliverAll_timeless {site : InstanceId} {clock clock' : Nat → Instant}
    {fs : List Frame} {w w' : CenterStore}
    (hfs : ∀ f ∈ fs, isProjection f.message = true)
    (h : w.timeless = w'.timeless) :
    (deliverAll sha site clock fs w).timeless =
      (deliverAll sha site clock' fs w').timeless := by
  induction fs generalizing clock clock' w w' with
  | nil => exact h
  | cons f fs ih =>
      have hf := hfs f (List.mem_cons_self ..)
      refine ih (fun g hg => hfs g (List.mem_cons_of_mem _ hg)) ?_
      rw [deliverOnce_eq hf, deliverOnce_eq hf,
        ← delivered_timeless, h, delivered_timeless]

theorem base_succ (hf : T.frames[n]? = some f) :
    base sha T (n + 1) = delivered T.site f 0 (base sha T n) := by
  unfold base
  rw [List.take_add_one, hf, deliverAll_append]
  exact deliverOnce_eq (T.projection f (List.mem_of_getElem? hf))

/-- No frame before the `n`-th is new. -/
def Old (T : Setup) (n : Nat) (w : CenterStore) : Prop :=
  ∀ i < n, ∀ f, T.frames[i]? = some f → fresh T.site f w = false

/-- The first `n` frames are consumed. -/
def At (sha : Bytes → Digest) (T : Setup) (n : Nat) (w : CenterStore) : Prop :=
  w.timeless = (base sha T n).timeless ∧ Old T n w

/-- The `n`-th frame is written, the cursor is not advanced. -/
def Between (sha : Bytes → Digest) (T : Setup) (n : Nat) (w : CenterStore) :
    Prop :=
  ∃ f v, T.frames[n]? = some f ∧ fresh T.site f (base sha T n) = true ∧
    wrote T.site f 0 (base sha T n) = some v ∧ w.timeless = v.timeless ∧
    Old T n w

def Position (sha : Bytes → Digest) (T : Setup) (n : Nat) (w : CenterStore) :
    Prop :=
  At sha T n w ∨ Between sha T n w ∨ At sha T (n + 1) w

theorem fresh_congr {site : InstanceId} {v : CenterStore}
    (h : w.timeless = v.timeless) : fresh site f w = fresh site f v := by
  rw [← fresh_timeless, h, fresh_timeless]

theorem wrote_congr {site : InstanceId} {now : Instant} {v : CenterStore}
    (h : w.timeless = v.timeless) :
    (wrote site f now w).map CenterStore.timeless =
      (wrote site f 0 v).map CenterStore.timeless := by
  rw [← wrote_timeless, h, wrote_timeless]

theorem Old.wrote {now : Instant} {w₁ : CenterStore} (h : Old T n w)
    (hw : wrote T.site f now w = some w₁) : Old T n w₁ :=
  fun i hi g hg => (fresh_wrote hw).trans (h i hi g hg)

/-- Past the cursor of a frame, the frames up to it are old. -/
theorem old_advanced {now : Instant} (hf : T.frames[n]? = some f) :
    Old T (n + 1) (advanced T.site f now w) := by
  intro i hi g hg
  rw [fresh_advanced, decide_eq_false_iff_not, Nat.not_lt]
  obtain ⟨hn, rfl⟩ := List.getElem?_eq_some_iff.mp hf
  obtain ⟨hi', rfl⟩ := List.getElem?_eq_some_iff.mp hg
  rcases Nat.lt_succ_iff_lt_or_eq.mp hi with hlt | rfl
  · exact Nat.le_of_lt (List.pairwise_iff_getElem.mp T.ordered i n hi' hn hlt)
  · exact Nat.le_refl _

/-- Before the cursor moved, the write is open or done. -/
theorem Position.open (h : Position sha T n w) (hf : T.frames[n]? = some f)
    (hfresh : fresh T.site f w = true) :
    At sha T n w ∨ Between sha T n w := by
  rcases h with h | h | ⟨-, hold⟩
  · exact .inl h
  · exact .inr h
  · rw [hold n (Nat.lt_succ_self n) f hf] at hfresh
    cases hfresh

/-- A write at either position leads between. -/
theorem Position.write {now : Instant} {w₁ : CenterStore}
    (h : At sha T n w ∨ Between sha T n w) (hf : T.frames[n]? = some f)
    (hfresh : fresh T.site f w = true)
    (hw : wrote T.site f now w = some w₁) : Between sha T n w₁ := by
  rcases h with ⟨hbase, hold⟩ | ⟨g, v, hg, hfresh', hv, hvw, hold⟩
  · have hmap := @wrote_congr f w T.site now _ hbase
    rw [hw] at hmap
    obtain ⟨v, hv, hvw⟩ := Option.map_eq_some_iff.mp hmap.symm
    exact ⟨f, v, hf, (fresh_congr hbase).symm.trans hfresh, hv, hvw.symm,
      hold.wrote hw⟩
  · rw [hf, Option.some.injEq] at hg
    subst hg
    have hmap := @wrote_congr f w T.site now _ hvw
    rw [hw, wrote_again hv] at hmap
    exact ⟨f, v, hf, hfresh', hv, Option.some.inj hmap, hold.wrote hw⟩

/-- The cursor's advance after the write consumes the frame. -/
theorem Between.advance {now : Instant} (h : Between sha T n w)
    (hf : T.frames[n]? = some f) :
    At sha T (n + 1) (advanced T.site f now w) := by
  obtain ⟨g, v, hg, hfresh, hv, hvw, -⟩ := h
  rw [hf, Option.some.injEq] at hg
  subst hg
  refine ⟨?_, old_advanced hf⟩
  rw [base_succ hf, delivered, if_pos hfresh, hv]
  dsimp only
  rw [← advanced_timeless, hvw, advanced_timeless]

/-- A frame that is not new is consumed. -/
theorem Position.skip (h : Position sha T n w) (hf : T.frames[n]? = some f)
    (hold : fresh T.site f w = false) : At sha T (n + 1) w := by
  rcases h with ⟨hbase, holds⟩ | ⟨g, v, hg, hfresh, hv, hvw, -⟩ | h
  · refine ⟨?_, ?_⟩
    · have hbase' : fresh T.site f (base sha T n) = false :=
        (fresh_congr hbase).symm.trans hold
      rw [base_succ hf, delivered, if_neg (by rw [hbase']; exact nofun)]
      exact hbase
    · intro i hi g hg
      rcases Nat.lt_succ_iff_lt_or_eq.mp hi with hlt | rfl
      · exact holds i hlt g hg
      · rw [hf, Option.some.injEq] at hg
        exact hg ▸ hold
  · rw [hf, Option.some.injEq] at hg
    subst hg
    rw [fresh_congr hvw, fresh_wrote hv, hfresh] at hold
    cases hold
  · exact h

theorem Position.old (h : Position sha T n w) : Old T n w := by
  rcases h with ⟨-, h⟩ | ⟨f, v, -, -, -, -, h⟩ | ⟨-, h⟩
  · exact h
  · exact h
  · exact fun i hi => h i (Nat.lt_succ_of_lt hi)

end Position

/-! ## Runs -/

section Runs

variable {sha : Bytes → Digest} {T : Setup} {s s' : State}

/-- What a running consumption of the `i`-th frame keeps to. -/
abbrev Contract (sha : Bytes → Digest) (T : Setup) (consumed i : Nat)
    (p : M Unit) (w : CenterStore) : Prop :=
  Consumes sha (fun _ => True) (Position sha T consumed) (i = consumed) p
    (fun r w => r = .ok () → i = consumed → At sha T (consumed + 1) w) w

theorem contract_of_position {n i : Nat} {f : Frame} {now : Instant}
    {w : CenterStore} (h : Position sha T n w) (hi : i ≤ n)
    (hf : T.frames[i]? = some f) :
    Contract sha T n i (onFrame T.site f.sequence f.message now) w := by
  have hlast : fresh T.site f w = true → i = n := by
    intro hfresh
    refine Nat.le_antisymm hi (Nat.not_lt.mp fun hlt => ?_)
    rw [h.old i hlt f hf] at hfresh
    cases hfresh
  refine onFrame_consumes (T.projection f (List.mem_of_getElem? hf)) h hlast
    ?_ ?_ ?_ ?_
  · intro o _ _ e w _ he
    cases he
  · intro _ _ e he
    cases he
  · rintro hskip - rfl
    exact h.skip hf hskip
  · intro hfresh w₁ hw
    obtain rfl := hlast hfresh
    have hbetween := Position.write (h.open hf hfresh) hf hfresh hw
    have hat := @Between.advance sha T i f w₁ now hbetween hf
    exact ⟨.inr (.inl hbetween), .inr (.inr hat), fun _ _ => hat⟩

/-- The invariant of the runs. -/
structure Inv (sha : Bytes → Digest) (T : Setup) (s : State) : Prop where
  position : Position sha T s.consumed s.center
  latest : s.latest ≤ s.consumed + 1
  consumed : s.consumed ≤ T.frames.length
  task : ∀ i p, s.task = some (i, p) → i ≤ s.consumed ∧
    i < T.frames.length ∧ Contract sha T s.consumed i p s.center

theorem inv_initial : Inv sha T (initial T) :=
  ⟨.inl ⟨rfl, fun _ hi => absurd hi (Nat.not_lt_zero _)⟩, Nat.zero_le _,
    Nat.zero_le _, nofun⟩

theorem inv_next (h : Inv sha T s) (hstep : Next (next sha T) s s') :
    Inv sha T s' ∧ s.latest ≤ s'.latest := by
  obtain ⟨a, hstep⟩ := hstep
  cases a with
  | deliver i now =>
      simp only [next] at hstep
      split at hstep
      · next f htask hf =>
          split at hstep
          · cases hstep
          · next hi =>
              cases hstep
              refine ⟨⟨h.position, h.latest, h.consumed, ?_⟩, Nat.le_refl _⟩
              intro j p hp
              cases hp
              exact ⟨Nat.not_lt.mp hi, (List.getElem?_eq_some_iff.mp hf).1,
                contract_of_position h.position (Nat.not_lt.mp hi) hf⟩
      · cases hstep
  | call o =>
      simp only [next] at hstep
      split at hstep
      · next i q k htask =>
          cases hstep
          obtain ⟨hi, hlen, hcontract⟩ := h.task i _ htask
          obtain ⟨⟨hposition, hwrite⟩, hrest⟩ :=
            hcontract s.center rfl _ _ ⟨o, trivial, rfl⟩
          have hlatest : s.latest ≤ (if landed q
              (performCenter sha o q s.center).1 then i + 1 else s.latest) ∧
              (if landed q (performCenter sha o q s.center).1 then i + 1
                else s.latest) ≤ s.consumed + 1 := by
            split
            · next hlanded =>
                obtain rfl := hwrite (isWrite_of_landed hlanded)
                exact ⟨h.latest, Nat.le_refl _⟩
            · exact ⟨Nat.le_refl _, h.latest⟩
          refine ⟨⟨hposition, hlatest.2, h.consumed, ?_⟩, hlatest.1⟩
          intro j p hp
          cases hp
          exact ⟨hi, hlen, hrest⟩
      · cases hstep
  | finish =>
      simp only [next] at hstep
      split at hstep
      · next i htask =>
          cases hstep
          obtain ⟨hi, hlen, hcontract⟩ := h.task i _ htask
          rcases Nat.lt_or_eq_of_le hi with hlt | rfl
          · have hmax : max s.consumed (i + 1) = s.consumed :=
              Nat.max_eq_left hlt
            refine ⟨?_, Nat.le_refl _⟩
            rw [hmax]
            exact ⟨h.position, h.latest, h.consumed, nofun⟩
          · have hmax : max s.consumed (s.consumed + 1) = s.consumed + 1 :=
              Nat.max_eq_right (Nat.le_succ _)
            refine ⟨?_, Nat.le_refl _⟩
            rw [hmax]
            exact ⟨.inl (hcontract rfl rfl),
              Nat.le_trans h.latest (Nat.le_succ _), hlen, nofun⟩
      · cases hstep
  | crash =>
      cases hstep
      exact ⟨⟨h.position, h.latest, h.consumed, nofun⟩, Nat.le_refl _⟩

theorem inv_reachable (h : Reachable sha T s) : Inv sha T s :=
  h.inv (P := Inv sha T) (fun s hs => by rw [hs]; exact inv_initial)
    fun _ _ hs ht => (inv_next hs ht).1

/-- Once all frames are consumed, the center is at the end of the list. -/
theorem Position.end {w : CenterStore}
    (h : Position sha T T.frames.length w) :
    w.timeless = (base sha T T.frames.length).timeless := by
  rcases h with ⟨h, -⟩ | ⟨f, v, hf, -⟩ | ⟨h, -⟩
  · exact h
  · rw [List.getElem?_eq_none (Nat.le_refl _)] at hf
    cases hf
  · rw [h]
    unfold base
    rw [List.take_length, List.take_of_length_le (Nat.le_succ _)]

end Runs

/-- However often the frames of a site's projection are delivered again, and
wherever the center stops: once all are consumed, its rows and cursors are those
of one delivery of each frame in order, but for the times it stamps. And the
writes that go through are never of an older frame than the one before. -/
theorem projection_replayed (sha : Bytes → Digest) (T : Setup) :
    (∀ s, Reachable sha T s → s.consumed = T.frames.length → ∀ clock,
      s.center.timeless =
        (deliverAll sha T.site clock T.frames T.start).timeless) ∧
    ∀ s s', Reachable sha T s → Next (next sha T) s s' →
      s.latest ≤ s'.latest := by
  refine ⟨fun s hs hall clock => ?_, fun s s' hs hstep =>
    (inv_next (inv_reachable hs) hstep).2⟩
  have hposition := (inv_reachable hs).position
  rw [hall] at hposition
  rw [hposition.end]
  unfold base
  rw [List.take_length]
  exact deliverAll_timeless T.projection rfl

/-! ### The center stops between the write and the cursor -/

def rack : Frame :=
  ⟨1, .endpointSnapshot
    { endpointId := some ⟨7⟩, displayName := "rack"
      address := "https://bmc", trust := .systemCa, refreshGeneration := 1
      resources := [], health := "ok" }⟩

def oneRack : Setup := ⟨⟨1⟩, .empty, [rack], by decide, by decide⟩

/-- Delivered at time 10, lost after its write, and delivered again. -/
def rackAgain : List Label :=
  [.deliver 0 10, .call undisturbed, .call undisturbed, .crash,
    .deliver 0 20, .call undisturbed, .call undisturbed, .call undisturbed,
    .finish]

theorem row_keeps_time_of_first_write :
    ∃ s, Reachable (fun _ => []) oneRack s ∧ s.task.isNone = true ∧
      s.consumed = oneRack.frames.length ∧ ∀ clock,
        s.center.projection.endpoints.rows ≠ (deliverAll (fun _ => [])
          oneRack.site clock oneRack.frames
          oneRack.start).projection.endpoints.rows := by
  obtain ⟨s, hs, hp⟩ := exists_reach_of_follow (fun s => s = initial oneRack)
    (next (fun _ => []) oneRack) rackAgain
    (fun s => s.task.isNone && decide (s.consumed = 1) &&
      s.center.projection.endpoints.rows.any fun row =>
        row.createdAt ≠ row.updatedAt) rfl (by decide)
  simp only [Bool.and_eq_true, decide_eq_true_eq] at hp
  obtain ⟨⟨htask, hconsumed⟩, hrows⟩ := hp
  refine ⟨s, hs, htask, hconsumed, fun clock hsame => ?_⟩
  rw [hsame] at hrows
  obtain ⟨row, hrow, hne⟩ := List.any_eq_true.mp hrows
  rw [decide_eq_true_eq] at hne
  have honce : (deliverAll (fun _ => []) oneRack.site clock oneRack.frames
      oneRack.start).projection.endpoints.rows =
      [⟨⟨7⟩, some ⟨1⟩, "rack", 1, "ok", clock 0, clock 0⟩] := rfl
  rw [honce, List.mem_singleton] at hrow
  exact hne (by rw [hrow])

end Rutilus.Proofs.ReplayProjection
