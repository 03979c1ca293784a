import Rutilus.Domain.Totp

/-!
# Which codes are accepted

The steps of the window are tried from the oldest on, and the first one that has the
code decides: an unused one accepts, a used one refuses the code as replayed. Two steps
of one window may have the same code. Where a used step has the code of a later unused
one, the used one is found first, and the code of the unused step is refused. That is
the one case in which the answer is wrong.
-/

namespace Rutilus.Proofs.TotpCodes

open Rutilus.Domain Rutilus.Domain.User

variable (hmacSha1 : Bytes → Bytes → Bytes) (secret : Bytes) (code : String)
  (lastUsedStep : Option Nat)

/-- The code of the step is exactly the one presented. -/
def Generates (step : Nat) : Prop :=
  code.toList = codeDigits (hotp hmacSha1 secret step)

/-- After the last step used. -/
def Unused (step : Nat) : Prop :=
  ∀ last, lastUsedStep = some last → last < step

/-- An answer for the code, over the steps of a window. -/
structure Answers (window : List Nat)
    (answer : Except TotpAuthenticatorError Nat) : Prop where
  accepts : (∃ step, answer = .ok step) ↔
    ∃ step ∈ window, Unused lastUsedStep step ∧
      Generates hmacSha1 secret code step
  accepted : ∀ step, answer = .ok step → step ∈ window ∧
    Unused lastUsedStep step ∧ Generates hmacSha1 secret code step
  replayed : answer = .error .replayed →
    (∀ step ∈ window, Unused lastUsedStep step →
      ¬ Generates hmacSha1 secret code step) ∧
    ∃ step ∈ window, ¬ Unused lastUsedStep step ∧
      Generates hmacSha1 secret code step

/-- A used step and an unused one of the window have the code. -/
def Shadowed (window : List Nat) : Prop :=
  (∃ step ∈ window, ¬ Unused lastUsedStep step ∧
    Generates hmacSha1 secret code step) ∧
  ∃ step ∈ window, Unused lastUsedStep step ∧
    Generates hmacSha1 secret code step

variable {hmacSha1 secret code lastUsedStep}

/-! ## Codes and steps -/

theorem length_codeDigits (expected : Nat) :
    (codeDigits expected).length = totpDigits := by
  unfold codeDigits
  rw [List.length_map, List.length_range]

theorem zip_all_eq_iff {xs ys : List Char} (h : xs.length = ys.length) :
    ((xs.zip ys).all fun (x, y) => x = y) = true ↔ xs = ys := by
  induction xs generalizing ys with
  | nil =>
      cases ys with
      | nil => simp
      | cons y ys => cases h
  | cons x xs ih =>
      cases ys with
      | nil => cases h
      | cons y ys =>
          rw [List.zip_cons_cons, List.all_cons, Bool.and_eq_true, decide_eq_true_eq,
            ih (Nat.succ.inj h), List.cons.injEq]

theorem codeMatches_iff (h : isSixDigitCode code = true) (step : Nat) :
    codeMatches code (hotp hmacSha1 secret step) = true ↔
      Generates hmacSha1 secret code step := by
  have hlength : code.toList.length = totpDigits := by
    unfold isSixDigitCode at h
    rw [decide_eq_true_eq] at h
    exact h.1
  exact zip_all_eq_iff (hlength.trans (length_codeDigits _).symm)

theorem isDigit_digit :
    ∀ d : Fin 10, (Char.ofNat ('0'.toNat + d.val)).isDigit = true := by
  decide

theorem codeDigits_isDigit (expected : Nat) :
    (codeDigits expected).all Char.isDigit = true := by
  unfold codeDigits
  rw [List.all_map, List.all_eq_true]
  intro i _
  exact isDigit_digit ⟨expected / 10 ^ (5 - i) % 10, Nat.mod_lt _ (by decide)⟩

/-- Only a text of six digits is the code of a step. -/
theorem Generates.sixDigit {step : Nat} (h : Generates hmacSha1 secret code step) :
    isSixDigitCode code = true := by
  have hcode : code.toList = codeDigits (hotp hmacSha1 secret step) := h
  unfold isSixDigitCode
  rw [decide_eq_true_eq, hcode]
  exact ⟨length_codeDigits _, codeDigits_isDigit _⟩

theorem unused_iff {step : Nat} :
    (lastUsedStep.any fun last => step ≤ last) = false ↔ Unused lastUsedStep step := by
  unfold Unused
  cases lastUsedStep with
  | none => simp
  | some last => simp

/-! ## The search -/

variable (hmacSha1 secret lastUsedStep) in
/-- The first step with the code decides. -/
theorem matchStep_eq (h : isSixDigitCode code = true) (window : List Nat) :
    (∀ step ∈ window, ¬ Generates hmacSha1 secret code step) ∧
      matchStep hmacSha1 secret code lastUsedStep window = .error .invalidCode ∨
    ∃ before step after, window = before ++ step :: after ∧
      (∀ s ∈ before, ¬ Generates hmacSha1 secret code s) ∧
      Generates hmacSha1 secret code step ∧
      (Unused lastUsedStep step ∧
          matchStep hmacSha1 secret code lastUsedStep window = .ok step ∨
        ¬ Unused lastUsedStep step ∧
          matchStep hmacSha1 secret code lastUsedStep window =
            .error .replayed) := by
  induction window with
  | nil => exact .inl ⟨nofun, rfl⟩
  | cons candidate candidates ih =>
      unfold matchStep
      by_cases hcode : Generates hmacSha1 secret code candidate
      · have hmatch := (codeMatches_iff h candidate).mpr hcode
        refine .inr ⟨[], candidate, candidates, rfl, nofun, hcode, ?_⟩
        rw [hmatch, if_neg (by decide)]
        by_cases hunused : Unused lastUsedStep candidate
        · exact .inl ⟨hunused, by rw [unused_iff.mpr hunused, if_neg (by decide)]⟩
        · refine .inr ⟨hunused, if_pos ?_⟩
          rwa [← unused_iff, Bool.not_eq_false] at hunused
      · have hmatch : codeMatches code (hotp hmacSha1 secret candidate) = false := by
          rwa [← codeMatches_iff h, Bool.not_eq_true] at hcode
        rw [hmatch, if_pos (by decide)]
        rcases ih with ⟨hnone, hresult⟩ |
          ⟨before, step, after, rfl, hbefore, hstep, hresult⟩
        · exact .inl ⟨List.forall_mem_cons.mpr ⟨hcode, hnone⟩, hresult⟩
        · exact .inr ⟨candidate :: before, step, after, rfl,
            List.forall_mem_cons.mpr ⟨hcode, hbefore⟩, hstep, hresult⟩

/-! ## The answer -/

theorem Unused.mono {step later : Nat} (h : Unused lastUsedStep step)
    (hle : step ≤ later) : Unused lastUsedStep later :=
  fun last hlast => Nat.lt_of_lt_of_le (h last hlast) hle

/-- Over a window in order, the search answers rightly unless a used step shadows an
unused one. -/
theorem matchStep_answers_iff (h : isSixDigitCode code = true) {window : List Nat}
    (hsorted : window.Pairwise (· ≤ ·)) :
    Answers hmacSha1 secret code lastUsedStep window
        (matchStep hmacSha1 secret code lastUsedStep window) ↔
      ¬ Shadowed hmacSha1 secret code lastUsedStep window := by
  obtain ⟨hnone, hresult⟩ | ⟨before, step, after, hwindow, hbefore, hstep,
    ⟨hunused, hresult⟩ | ⟨hused, hresult⟩⟩ :=
      matchStep_eq hmacSha1 secret lastUsedStep h window
  · rw [hresult]
    refine ⟨fun _ hshadow => ?_, fun _ => ⟨?_, nofun, nofun⟩⟩
    · obtain ⟨-, s, hs, -, hcode⟩ := hshadow
      exact hnone s hs hcode
    · refine ⟨nofun, ?_⟩
      rintro ⟨s, hs, -, hcode⟩
      exact absurd hcode (hnone s hs)
  · have hmem : step ∈ window := hwindow ▸ List.mem_append_right _ (.head _)
    rw [hresult]
    refine ⟨fun _ hshadow => ?_, fun _ => ⟨?_, ?_, nofun⟩⟩
    · -- the steps before have another code, the later ones are unused too
      obtain ⟨⟨s, hs, hused, hcode⟩, -⟩ := hshadow
      rw [hwindow] at hs hsorted
      rcases List.mem_append.mp hs with hs | hs
      · exact hbefore s hs hcode
      · rcases List.mem_cons.mp hs with rfl | hs
        · exact hused hunused
        · have hle := (List.pairwise_cons.mp
            (List.pairwise_append.mp hsorted).2.1).1 s hs
          exact hused (hunused.mono hle)
    · exact ⟨fun _ => ⟨step, hmem, hunused, hstep⟩, fun _ => ⟨step, rfl⟩⟩
    · rintro _ ⟨⟩
      exact ⟨hmem, hunused, hstep⟩
  · have hmem : step ∈ window := hwindow ▸ List.mem_append_right _ (.head _)
    rw [hresult]
    constructor
    · rintro hanswers ⟨-, hfresh⟩
      obtain ⟨s, hs, hunused, hcode⟩ := hfresh
      exact (hanswers.replayed rfl).1 s hs hunused hcode
    · intro hshadow
      have hfree : ∀ s ∈ window, Unused lastUsedStep s →
          ¬ Generates hmacSha1 secret code s := fun s hs hunused hcode =>
        hshadow ⟨⟨step, hmem, hused, hstep⟩, s, hs, hunused, hcode⟩
      refine ⟨⟨nofun, ?_⟩, nofun, fun _ => ⟨hfree, step, hmem, hused, hstep⟩⟩
      rintro ⟨s, hs, hunused, hcode⟩
      exact absurd hcode (hfree s hs hunused)

/-- The clock shows a time it can show. -/
def Representable (now : Instant) : Prop :=
  (OffsetDateTime.fromUnixTimestamp
    (OffsetDateTime.unixTimestamp ⟨now, 0⟩)).isSome = true

theorem Representable.currentStep_lt {now : Instant} (h : Representable now) :
    currentStep now < maxStep := by
  unfold Representable OffsetDateTime.fromUnixTimestamp at h
  split at h
  · next hrange =>
      have hdiv : (OffsetDateTime.unixTimestamp ⟨now, 0⟩).tdiv totpPeriodSeconds ≤
          (253402300799 : Int).tdiv totpPeriodSeconds :=
        Int.tdiv_le_tdiv (by decide) hrange.2
      have hlast : (253402300799 : Int).tdiv totpPeriodSeconds = 8446743359 := by
        decide
      unfold currentStep maxStep
      omega
  · cases h

theorem windowSteps_sorted {current : Nat} (h : current < maxStep) :
    (windowSteps current).Pairwise (· ≤ ·) := by
  unfold windowSteps totpWindow
  rw [Nat.min_eq_left h]
  simp
  omega

/-- A code is answered rightly unless it is that of a used step of the window as well as
of an unused one. -/
theorem verify_answers_iff {now : Instant} (h : Representable now) :
    Answers hmacSha1 secret code lastUsedStep (windowSteps (currentStep now))
        (verifyTotpCode hmacSha1 secret code now lastUsedStep) ↔
      ¬ Shadowed hmacSha1 secret code lastUsedStep
        (windowSteps (currentStep now)) := by
  unfold verifyTotpCode
  by_cases hcode : isSixDigitCode code = true
  · rw [hcode, if_neg (by decide)]
    exact matchStep_answers_iff hcode (windowSteps_sorted h.currentStep_lt)
  · have hnone : ∀ step, ¬ Generates hmacSha1 secret code step :=
      fun step hstep => hcode hstep.sixDigit
    rw [Bool.not_eq_true] at hcode
    rw [hcode, if_pos (by decide)]
    refine ⟨fun _ hshadow => ?_, fun _ => ⟨⟨nofun, ?_⟩, nofun, nofun⟩⟩
    · obtain ⟨⟨step, -, -, hstep⟩, -⟩ := hshadow
      exact hnone step hstep
    · rintro ⟨step, -, -, hstep⟩
      exact absurd hstep (hnone step)

/-- A keyed hash under which the code of a step is its number. -/
def stepNumber : Bytes → Bytes → Bytes :=
  fun _ message => message.drop 4 ++ List.replicate 16 0

/-- The code of the current step is accepted after the one before was used. -/
theorem current_code_answered :
    Answers stepNumber (List.replicate 20 0) "000100" (some 99)
      (windowSteps (currentStep 3000000000000))
      (verifyTotpCode stepNumber (List.replicate 20 0) "000100" 3000000000000
        (some 99)) := by
  refine (verify_answers_iff (by unfold Representable; decide)).mpr ?_
  rintro ⟨⟨step, hmem, hused, hcode⟩, -⟩
  have hstep : step = 99 := by
    have hwindow : step ∈ [99, 100, 101] := hmem
    unfold Unused at hused
    simp only [Option.some.injEq, forall_eq', Nat.not_lt] at hused
    simp only [List.mem_cons, List.not_mem_nil, or_false] at hwindow
    omega
  rw [hstep] at hcode
  unfold Generates at hcode
  exact absurd hcode (by decide)

/-- All steps have the same code, and the oldest of the window is used. -/
theorem shadowed_code_refused :
    ¬ Answers (fun _ _ => List.replicate 20 0) (List.replicate 20 0) "000000"
      (some 99) (windowSteps (currentStep 3000000000000))
      (verifyTotpCode (fun _ _ => List.replicate 20 0) (List.replicate 20 0)
        "000000" 3000000000000 (some 99)) := by
  intro h
  refine (h.replayed rfl).1 100 (by decide) ?_ (by unfold Generates; decide)
  intro last hlast
  cases hlast
  decide

end Rutilus.Proofs.TotpCodes
