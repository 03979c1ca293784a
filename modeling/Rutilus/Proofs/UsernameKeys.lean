import Rutilus.Web.RateLimiter

/-!
# The key of a presented user name

Failed sign-ins are counted under the presented name, trimmed, in lower case and cut to
the length of the longest principal name. A principal's name is made from what is
presented in the same way but is not cut: what is too long is no name. So every spelling
of a name has the name as its key. The other way round there is one exception: a text
that goes on after the 64 characters of a name has that name as its key as well.

Lower case is the standard library's. What is used of it: the lower case of an ASCII
character is its ASCII lower case, that of the Kelvin sign is `k`, that of any other
character holds a character outside ASCII, and a text is lowered character by character,
but for the capital sigma.
-/

namespace Rutilus.Proofs.UsernameKeys

open Rutilus.Domain Rutilus.Domain.User Rutilus.Web.RateLimiter

/-! ## Lower case -/

structure Standard (lower : Lowercase) : Prop where
  ascii : ∀ c : Char, c.toNat < 128 → lower.char c = [c.toLower]
  kelvin : lower.char '\u212a' = ['k']
  sigmaChar : lower.char 'Σ' = ['σ']
  other : ∀ c : Char, 128 ≤ c.toNat → c ≠ '\u212a' →
    ∃ d ∈ lower.char c, 128 ≤ d.toNat
  fixed : ∀ c : Char, (lower.char c).head? = some c → lower.char c = [c]
  plain : ∀ cs : List Char, 'Σ' ∉ cs → lower.text cs = cs.flatMap lower.char
  sigma : ∀ cs : List Char, 'Σ' ∈ cs → 'σ' ∈ lower.text cs ∨ 'ς' ∈ lower.text cs

theorem toLower_of_high {c : Char} (h : 128 ≤ c.toNat) : c.toLower = c := by
  unfold Char.toLower
  rw [dif_neg]
  rintro ⟨-, hle⟩
  have hle : c.toNat ≤ 90 := hle
  omega

theorem lowerChar_of_high {c : Char} (h : 128 ≤ c.toNat) (hk : c ≠ '\u212a') :
    lowerChar c = c := by
  unfold lowerChar
  rw [if_neg hk, toLower_of_high h]

/-! ## Names -/

theorem isNameCharacter_cases {c : Char} (h : isNameCharacter c = true) :
    97 ≤ c.toNat ∧ c.toNat ≤ 122 ∨ 45 ≤ c.toNat ∧ c.toNat ≤ 57 ∨ c.toNat = 95 := by
  unfold isNameCharacter isNameStart at h
  simp only [decide_eq_true_eq, Bool.decide_or, Bool.or_eq_true, Char.le_def] at h
  rcases h with (⟨hlow, hhigh⟩ | ⟨hlow, hhigh⟩) | rfl | rfl | rfl
  · exact .inl ⟨hlow, hhigh⟩
  · have hlow : 48 ≤ c.toNat := hlow
    have hhigh : c.toNat ≤ 57 := hhigh
    omega
  · decide
  · decide
  · decide

theorem isNameCharacter_ascii {c : Char} (h : isNameCharacter c = true) :
    c.toNat < 128 := by
  have := isNameCharacter_cases h
  omega

/-- A name's characters are in lower case already. -/
theorem lowerChar_of_name {c : Char} (h : isNameCharacter c = true) :
    lowerChar c = c := by
  have hcases := isNameCharacter_cases h
  have hk : c ≠ '\u212a' := by
    rintro rfl
    exact absurd (isNameCharacter_ascii h) (by decide)
  unfold lowerChar
  rw [if_neg hk]
  unfold Char.toLower
  rw [dif_neg]
  rintro ⟨hlow, hhigh⟩
  have hlow : 65 ≤ c.toNat := hlow
  have hhigh : c.toNat ≤ 90 := hhigh
  omega

theorem isTrimmed_of_name {c : Char} (h : isNameCharacter c = true) :
    isTrimmed c = false := by
  have hcases := isNameCharacter_cases h
  unfold isTrimmed
  rw [decide_eq_false_iff_not]
  omega

/-- A character whose lower case is in a name is ASCII or the Kelvin sign. -/
theorem ascii_of_lowerChar_name {c : Char} (h : isNameCharacter (lowerChar c) = true)
    (hk : c ≠ '\u212a') : c.toNat < 128 := by
  refine Nat.not_le.mp fun hhigh => ?_
  rw [lowerChar_of_high hhigh hk] at h
  exact absurd (isNameCharacter_ascii h) (Nat.not_lt.mpr hhigh)

/-- The characters of a principal name. -/
structure IsName (cs : List Char) : Prop where
  start : ∃ first rest, cs = first :: rest ∧ isNameStart first = true
  all : ∀ c ∈ cs, isNameCharacter c = true
  short : cs.length ≤ maxPrincipalNameChars

theorem isNameCharacter_of_start {c : Char} (h : isNameStart c = true) :
    isNameCharacter c = true := by
  unfold isNameCharacter
  rw [decide_eq_true_eq]
  exact .inl h

theorem isName_cons {first : Char} {rest : List Char} :
    IsName (first :: rest) ↔ isNameStart first = true ∧
      (∀ c ∈ rest, isNameCharacter c = true) ∧
      (first :: rest).length ≤ maxPrincipalNameChars := by
  constructor
  · rintro ⟨⟨first', rest', heq, hstart⟩, hall, hshort⟩
    cases heq
    exact ⟨hstart, fun c hc => hall c (.tail _ hc), hshort⟩
  · rintro ⟨hstart, hrest, hshort⟩
    exact ⟨⟨first, rest, rfl, hstart⟩,
      List.forall_mem_cons.mpr ⟨isNameCharacter_of_start hstart, hrest⟩, hshort⟩

theorem parse_iff {value : String} {name : PrincipalName} :
    PrincipalName.parse value = some name ↔
      name.text.toList = (trim value.toList).map lowerChar ∧
        IsName ((trim value.toList).map lowerChar) := by
  unfold PrincipalName.parse
  cases (trim value.toList).map lowerChar with
  | nil =>
      refine iff_of_false nofun ?_
      rintro ⟨-, ⟨first, rest, h, -⟩, -, -⟩
      cases h
  | cons first rest =>
      dsimp only
      rw [isName_cons]
      split
      · next hstart => simp_all
      split
      · next hrest => simp_all
      split
      · next hlong =>
          refine iff_of_false nofun fun h => ?_
          exact absurd h.2.2.2 (Nat.not_le.mpr hlong)
      · next hstart hrest hlong =>
          have hstart : isNameStart first = true := by simpa using hstart
          have hrest : ∀ c ∈ rest, isNameCharacter c = true := by simpa using hrest
          constructor
          · intro h
            cases h
            exact ⟨String.toList_ofList, hstart, hrest, Nat.not_lt.mp hlong⟩
          · rintro ⟨htext, -⟩
            obtain ⟨text⟩ := name
            have htext : text.toList = first :: rest := htext
            rw [← htext, String.ofList_toList]

theorem dropWhile_of_names {cs : List Char}
    (h : ∀ c ∈ cs, isNameCharacter c = true) : cs.dropWhile isTrimmed = cs := by
  cases cs with
  | nil => rfl
  | cons c cs =>
      rw [List.dropWhile_cons, isTrimmed_of_name (h c (.head _)),
        if_neg Bool.false_ne_true]

/-- A name is parsed to itself. -/
theorem IsName.parse {name : PrincipalName} (h : IsName name.text.toList) :
    PrincipalName.parse name.text = some name := by
  have htrim : trim name.text.toList = name.text.toList := by
    unfold trim
    rw [dropWhile_of_names h.all, dropWhile_of_names, List.reverse_reverse]
    exact fun c hc => h.all c (List.mem_reverse.mp hc)
  have hlower : name.text.toList.map lowerChar = name.text.toList :=
    (List.map_congr_left fun c hc => lowerChar_of_name (h.all c hc)).trans
      (List.map_id _)
  rw [parse_iff, htrim, hlower]
  exact ⟨rfl, h⟩

theorem isName_of_parse {value : String} {name : PrincipalName}
    (h : PrincipalName.parse value = some name) : IsName name.text.toList := by
  obtain ⟨htext, hname⟩ := parse_iff.mp h
  exact htext ▸ hname

/-! ## The key -/

section Keys

variable {lower : Lowercase} (h : Standard lower)

include h in
theorem char_of_name {c : Char} (hname : isNameCharacter (lowerChar c) = true) :
    lower.char c = [lowerChar c] := by
  by_cases hk : c = '\u212a'
  · subst hk
    exact h.kelvin
  · rw [h.ascii c (ascii_of_lowerChar_name hname hk)]
    unfold lowerChar
    rw [if_neg hk]

theorem flatMap_char_eq {f : Char → List Char} {g : Char → Char} {cs : List Char}
    (hf : ∀ c ∈ cs, f c = [g c]) : cs.flatMap f = cs.map g := by
  induction cs with
  | nil => rfl
  | cons c cs ih =>
      rw [List.flatMap_cons, List.map_cons, hf c (.head _),
        ih fun c hc => hf c (.tail _ hc)]
      rfl

include h in
/-- A text whose lower case is a name's is lowered character by character. -/
theorem text_of_names {cs : List Char}
    (hnames : ∀ c ∈ cs, isNameCharacter (lowerChar c) = true) :
    lower.text cs = cs.map lowerChar := by
  have hsigma : 'Σ' ∉ cs := by
    intro hin
    exact absurd (hnames 'Σ' hin) (by decide)
  rw [h.plain cs hsigma]
  exact flatMap_char_eq fun c hc => char_of_name h (hnames c hc)

include h in
/-- A text that is lowered to ASCII is lowered as a name is. -/
theorem text_of_ascii {cs : List Char}
    (hascii : ∀ d ∈ lower.text cs, d.toNat < 128) :
    lower.text cs = cs.map lowerChar := by
  have hsigma : 'Σ' ∉ cs := by
    intro hin
    rcases h.sigma cs hin with hmem | hmem
    · exact absurd (hascii _ hmem) (by decide)
    · exact absurd (hascii _ hmem) (by decide)
  have htext := h.plain cs hsigma
  rw [htext]
  refine flatMap_char_eq fun c hc => ?_
  by_cases hk : c = '\u212a'
  · subst hk
    exact h.kelvin
  · have hc' : c.toNat < 128 := by
      refine Nat.not_le.mp fun hhigh => ?_
      obtain ⟨d, hd, hlarge⟩ := h.other c hhigh hk
      have hmem : d ∈ lower.text cs := htext ▸ List.mem_flatMap.mpr ⟨c, hc, hd⟩
      exact absurd (hascii d hmem) (Nat.not_lt.mpr hlarge)
    rw [h.ascii c hc']
    unfold lowerChar
    rw [if_neg hk]

/-- What the allocating path answers. -/
def ownedKey (lower : Lowercase) (username : String) : String :=
  String.ofList ((lower.text (trim username.toList)).take rateLimitUsernameChars)

include h in
/-- The borrowing path answers what the allocating one would. -/
theorem boundedUsernameKey_eq (username : String) :
    boundedUsernameKey lower username = ownedKey lower username := by
  unfold boundedUsernameKey
  dsimp only
  split
  · next hfast =>
      rw [Bool.and_eq_true, Bool.and_eq_true, decide_eq_true_eq, decide_eq_true_eq,
        Bool.not_eq_true', List.any_eq_false] at hfast
      obtain ⟨hbound, htrim, hcanonical⟩ := hfast
      rw [htrim] at hbound hcanonical
      have hchars : ∀ c ∈ username.toList, lower.char c = [id c] := by
        intro c hc
        have hhead := hcanonical c hc
        rw [decide_eq_true_eq, not_not] at hhead
        exact h.fixed c hhead
      have hsigma : 'Σ' ∉ username.toList := by
        intro hin
        have hchar := hchars _ hin
        rw [h.sigmaChar] at hchar
        exact absurd hchar (by decide)
      unfold ownedKey
      rw [htrim, h.plain _ hsigma, flatMap_char_eq hchars, List.map_id,
        List.take_of_length_le hbound, String.ofList_toList]
  · rfl

/-! ## Names and keys -/

/-- The user name goes on after the characters of a name. -/
def RunsOver (lower : Lowercase) (username : String) : Prop :=
  maxPrincipalNameChars < (lower.text (trim username.toList)).length ∧
    IsName ((lower.text (trim username.toList)).take maxPrincipalNameChars)

/-- What is said of the key of a user name: a spelling of a principal's name has the
name as its key, whichever path is taken, and nothing else has. -/
structure Keyed (lower : Lowercase) (username : String) : Prop where
  spelled : ∀ name, PrincipalName.parse username = some name →
    boundedUsernameKey lower username = name.text
  paths : boundedUsernameKey lower username = ownedKey lower username
  only : ∀ value name, PrincipalName.parse value = some name →
    boundedUsernameKey lower username = name.text →
      PrincipalName.parse username = some name

include h in
theorem key_of_parse {username : String} {name : PrincipalName}
    (hparse : PrincipalName.parse username = some name) :
    boundedUsernameKey lower username = name.text := by
  obtain ⟨htext, hname⟩ := parse_iff.mp hparse
  have hlower := text_of_names h fun c hc =>
    hname.all _ (List.mem_map_of_mem (f := lowerChar) hc)
  rw [boundedUsernameKey_eq h]
  unfold ownedKey
  have hshort : ((trim username.toList).map lowerChar).length ≤
    rateLimitUsernameChars := hname.short
  rw [hlower, List.take_of_length_le hshort, ← htext, String.ofList_toList]

include h in
theorem parse_of_key {username : String} {name : PrincipalName}
    (hname : IsName name.text.toList)
    (hkey : boundedUsernameKey lower username = name.text)
    (hshort : (lower.text (trim username.toList)).length ≤
      rateLimitUsernameChars) :
    PrincipalName.parse username = some name := by
  rw [boundedUsernameKey_eq h] at hkey
  unfold ownedKey at hkey
  rw [List.take_of_length_le hshort] at hkey
  have htext : name.text.toList = lower.text (trim username.toList) := by
    rw [← hkey, String.toList_ofList]
  have hlower : lower.text (trim username.toList) =
      (trim username.toList).map lowerChar :=
    text_of_ascii h fun d hd => isNameCharacter_ascii (hname.all d (htext ▸ hd))
  rw [hlower] at htext
  exact parse_iff.mpr ⟨htext, htext ▸ hname⟩

include h in
/-- What runs over a name is no spelling of it. -/
theorem RunsOver.not_parse {username : String} (hover : RunsOver lower username)
    (name : PrincipalName) : PrincipalName.parse username ≠ some name := by
  intro hparse
  have hname := (parse_iff.mp hparse).2
  have hlower := text_of_names h fun c hc =>
    hname.all _ (List.mem_map_of_mem (f := lowerChar) hc)
  refine absurd hname.short (Nat.not_le.mpr ?_)
  rw [← hlower]
  exact hover.1

theorem Keyed.not_runsOver {username : String} (hkeyed : Keyed lower username)
    (h : Standard lower) : ¬ RunsOver lower username := by
  intro hover
  have hname : IsName (PrincipalName.mk (ownedKey lower username)).text.toList := by
    show IsName (ownedKey lower username).toList
    unfold ownedKey
    rw [String.toList_ofList]
    exact hover.2
  exact hover.not_parse h _ (hkeyed.only _ _ hname.parse (boundedUsernameKey_eq h _))

end Keys

/-! ## A name that is run over -/

/-- Lower case as far as ASCII, the Kelvin sign, the sigma and the dotted capital I. -/
def someLowercase : Lowercase where
  char c := if c = '\u0130' then ['i', '\u0307']
    else if c = 'Σ' then ['σ'] else [lowerChar c]
  text cs := cs.flatMap fun c => if c = '\u0130' then ['i', '\u0307']
    else if c = 'Σ' then ['σ'] else [lowerChar c]

theorem someLowercase_standard : Standard someLowercase := by
  refine ⟨?_, rfl, rfl, ?_, ?_, fun _ _ => rfl, ?_⟩
  · intro c hc
    have hdot : c ≠ '\u0130' := by
      rintro rfl
      exact absurd hc (by decide)
    have hsigma : c ≠ 'Σ' := by
      rintro rfl
      exact absurd hc (by decide)
    have hk : c ≠ '\u212a' := by
      rintro rfl
      exact absurd hc (by decide)
    show (if c = '\u0130' then _ else if c = 'Σ' then _ else [lowerChar c]) = _
    rw [if_neg hdot, if_neg hsigma]
    unfold lowerChar
    rw [if_neg hk]
  · intro c hc hk
    show ∃ d ∈ (if c = '\u0130' then _ else if c = 'Σ' then _ else [lowerChar c]), _
    split
    · exact ⟨'\u0307', by simp, by decide⟩
    split
    · exact ⟨'σ', by simp, by decide⟩
    · exact ⟨c, by rw [lowerChar_of_high hc hk]; simp, hc⟩
  · intro c hhead
    have hhead : (if c = '\u0130' then ['i', '\u0307']
      else if c = 'Σ' then ['σ'] else [lowerChar c]).head? = some c := hhead
    show (if c = '\u0130' then _ else if c = 'Σ' then _ else [lowerChar c]) = _
    split at hhead
    · next hdot =>
        subst hdot
        exact absurd hhead (by decide)
    next hdot =>
    split at hhead
    · next hsigma =>
        subst hsigma
        exact absurd hhead (by decide)
    · next hsigma =>
        rw [if_neg hdot, if_neg hsigma, Option.some.inj hhead]
  · intro cs hin
    exact .inl (List.mem_flatMap.mpr ⟨'Σ', hin, by decide⟩)

end Rutilus.Proofs.UsernameKeys
