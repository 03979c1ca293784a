import Mathlib.Data.List.Basic

/-!
# Words of a text

A text is cut at every blank, and what lies between two blanks is a word where it
is not empty. A text that is written word by word may also end early: the last
section says which words such a beginning has.
-/

namespace Rutilus.Lib

variable {α : Type} (blank : α → Bool)

/-- What lies between the blanks, without what is empty. -/
def words (text : List α) : List (List α) :=
  (text.splitOnP blank).filter fun word => !word.isEmpty

/-- A word: not empty, and without blanks. -/
structure IsWord (word : List α) : Prop where
  ne : word ≠ []
  solid : ∀ c ∈ word, blank c = false

variable {blank} {word p rest : List α} {b : α}

@[simp]
theorem words_nil : words blank [] = [] := rfl

theorem words_word (h : IsWord blank word) : words blank word = [word] := by
  unfold words
  rw [List.splitOnP_eq_singleton h.solid, List.filter_cons_of_pos, List.filter_nil]
  rw [List.isEmpty_eq_false_iff.mpr h.ne]
  rfl

theorem words_append (h : IsWord blank word) (hb : blank b = true) :
    words blank (word ++ b :: rest) = word :: words blank rest := by
  unfold words
  rw [List.splitOnP_append_cons_of_forall_mem h.solid b hb,
    List.filter_cons_of_pos]
  rw [List.isEmpty_eq_false_iff.mpr h.ne]
  rfl

/-! ## The beginning of a text -/

theorem IsWord.of_front (h : IsWord blank word) (hp : p <+: word) (hne : p ≠ []) :
    IsWord blank p where
  ne := hne
  solid := fun c hc => h.solid c (hp.subset hc)

/-- A beginning of a word has at most one word. -/
theorem words_of_prefix (h : IsWord blank word) (hp : p <+: word) :
    words blank p = [] ∨ words blank p = [p] ∧ p ≠ [] := by
  by_cases hne : p = []
  · exact .inl (hne ▸ words_nil)
  · exact .inr ⟨words_word (h.of_front hp hne), hne⟩

/-- A text that begins with a word and a blank is cut inside the word or after
the blank. -/
theorem prefix_append_cons (hp : p <+: word ++ b :: rest) :
    p <+: word ∨ ∃ q, q <+: rest ∧ p = word ++ b :: q := by
  rcases List.prefix_or_prefix_of_prefix hp (List.prefix_append word _) with
    h | ⟨q, rfl⟩
  · exact .inl h
  · rw [List.prefix_append_right_inj] at hp
    rcases List.prefix_cons_iff.mp hp with rfl | ⟨t, rfl, ht⟩
    · left
      simp
    · exact .inr ⟨t, ht, rfl⟩

/-- Once a beginning has two words, it is past the first blank. -/
theorem words_past (h : IsWord blank word) (hb : blank b = true)
    (hp : p <+: word ++ b :: rest) {first second : List α}
    {others : List (List α)}
    (hw : words blank p = first :: second :: others) :
    first = word ∧ ∃ q, q <+: rest ∧ p = word ++ b :: q ∧
      words blank q = second :: others := by
  rcases prefix_append_cons hp with hin | ⟨q, hq, rfl⟩
  · rcases words_of_prefix h hin with hnone | ⟨hone, -⟩
    · rw [hnone] at hw
      cases hw
    · rw [hone] at hw
      cases hw
  · rw [words_append h hb] at hw
    obtain ⟨rfl, hrest⟩ := List.cons.inj hw
    exact ⟨rfl, q, hq, rfl, hrest⟩

end Rutilus.Lib
