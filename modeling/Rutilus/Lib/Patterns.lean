import Mathlib.Data.List.Infix

/-!
# Texts and the patterns that cover them

A pattern covers one text, or every text that begins with one. Of two patterns
either all that the first covers is covered by the second, or nothing is, or it
depends on the text; the first two can be read off the patterns (`within`,
`apart`). A first match in a list of patterns is then the same for all texts of
a pattern, if every entry is settled against it.

A template is matched segment by segment, and a parameter takes a whole
segment. Its `outline` is a pattern that covers all it matches.
-/

namespace Rutilus.Lib

variable {α ι : Type} [DecidableEq α]

structure Pattern (α : Type) where
  literal : List α
  wild : Bool
  deriving DecidableEq, Repr

namespace Pattern

def covers (p : Pattern α) (text : List α) : Bool :=
  if p.wild then p.literal.isPrefixOf text else decide (text = p.literal)

/-- All that `q` covers, `p` covers. -/
def within (q p : Pattern α) : Bool :=
  p.covers q.literal && (p.wild || !q.wild)

/-- Nothing that `q` covers, `p` covers. -/
def apart (q p : Pattern α) : Bool :=
  match p.wild, q.wild with
  | true, true =>
      !p.literal.isPrefixOf q.literal && !q.literal.isPrefixOf p.literal
  | true, false => !p.covers q.literal
  | false, _ => !q.covers p.literal

def settled (q p : Pattern α) : Bool := q.within p || q.apart p

theorem covers_wild {p : Pattern α} {text : List α} (h : p.wild = true) :
    p.covers text = true ↔ p.literal <+: text := by
  unfold covers
  rw [if_pos h, List.isPrefixOf_iff_prefix]

theorem covers_exact {p : Pattern α} {text : List α} (h : p.wild = false) :
    p.covers text = true ↔ text = p.literal := by
  unfold covers
  rw [if_neg (by rw [h]; exact Bool.false_ne_true), decide_eq_true_iff]

section Compare

variable {p q : Pattern α} {text : List α}

theorem covers_of_within (h : q.within p = true) (hq : q.covers text = true) :
    p.covers text = true := by
  obtain ⟨hcovers, hwild⟩ := Bool.and_eq_true_iff.mp h
  cases hq' : q.wild with
  | false =>
      rw [(covers_exact hq').mp hq]
      exact hcovers
  | true =>
      have hp : p.wild = true := by
        rw [hq'] at hwild
        exact (Bool.or_eq_true_iff.mp hwild).resolve_right Bool.false_ne_true
      rw [covers_wild hp] at hcovers ⊢
      exact hcovers.trans ((covers_wild hq').mp hq)

theorem not_covers_of_apart (h : q.apart p = true) (hq : q.covers text = true) :
    p.covers text = false := by
  refine Bool.eq_false_iff.mpr fun hp => ?_
  unfold apart at h
  split at h
  · next hpw hqw =>
      obtain ⟨h₁, h₂⟩ := Bool.and_eq_true_iff.mp h
      rw [Bool.not_eq_true', Bool.eq_false_iff, Ne,
        List.isPrefixOf_iff_prefix] at h₁ h₂
      rcases List.prefix_or_prefix_of_prefix ((covers_wild hpw).mp hp)
        ((covers_wild hqw).mp hq) with h | h
      · exact h₁ h
      · exact h₂ h
  · next hpw hqw =>
      rw [(covers_exact hqw).mp hq] at hp
      rw [hp] at h
      cases h
  · next hpw =>
      rw [(covers_exact hpw).mp hp] at hq
      rw [hq] at h
      cases h

end Compare

/-- The pattern behind a fixed beginning. -/
def after (front : List α) (p : Pattern α) : Pattern α :=
  ⟨front ++ p.literal, p.wild⟩

theorem covers_after (front : List α) (p : Pattern α) (text : List α) :
    (p.after front).covers (front ++ text) = p.covers text := by
  rw [Bool.eq_iff_iff]
  cases hwild : p.wild with
  | true =>
      have hafter : (p.after front).wild = true := hwild
      rw [covers_wild hwild, covers_wild hafter]
      exact List.prefix_append_right_inj front
  | false =>
      have hafter : (p.after front).wild = false := hwild
      rw [covers_exact hwild, covers_exact hafter]
      exact List.append_cancel_left_eq front text p.literal ▸ Iff.rfl

/-- The first entry that covers a text of `q` is the first that covers all of
them. -/
theorem find?_of_settled {q : Pattern α} {rows : List ι} {applies : ι → Bool}
    {pattern : ι → Pattern α} {text : List α} (hq : q.covers text = true)
    (h : ∀ row ∈ rows, applies row = true →
      q.settled (pattern row) = true) :
    rows.find? (fun row => applies row && (pattern row).covers text) =
      rows.find? fun row => applies row && q.within (pattern row) := by
  induction rows with
  | nil => rfl
  | cons row rows ih =>
      have hrow : (applies row && (pattern row).covers text) =
          (applies row && q.within (pattern row)) := by
        cases happly : applies row with
        | false => rfl
        | true =>
            have hsettled := h row List.mem_cons_self happly
            rcases Bool.or_eq_true_iff.mp hsettled with hwithin | hapart
            · rw [covers_of_within hwithin hq, hwithin]
            · cases hwithin : q.within (pattern row) with
              | true => rw [covers_of_within hwithin hq]
              | false => rw [not_covers_of_apart hapart hq]
      rw [List.find?_cons, List.find?_cons, hrow,
        ih fun row hrow => h row (List.mem_cons_of_mem _ hrow)]

end Pattern

/-! ## Templates -/

inductive Segment (α : Type) where
  | literal (text : List α)
  | parameter
  deriving DecidableEq, Repr

def Segment.covers : Segment α → List α → Bool
  | .literal text, part => decide (part = text)
  | .parameter, part => decide (part ≠ [])

abbrev Template (α : Type) : Type := List (Segment α)

namespace Template

def coversParts : Template α → List (List α) → Bool
  | [], [] => true
  | segment :: segments, part :: parts =>
      segment.covers part && coversParts segments parts
  | _, _ => false

/-- A path is matched between its separators. -/
def covers (separator : α) (template : Template α) (path : List α) : Bool :=
  template.coversParts (path.splitOn separator)

def outline (separator : α) : Template α → Pattern α
  | [] => ⟨[], false⟩
  | .parameter :: _ => ⟨[], true⟩
  | [.literal text] => ⟨text, false⟩
  | .literal text :: segments =>
      (outline separator segments).after (text ++ [separator])

theorem outline_coversParts (separator : α) {template : Template α}
    {parts : List (List α)} (h : template.coversParts parts = true) :
    (template.outline separator).covers ([separator].intercalate parts) =
      true := by
  induction template generalizing parts with
  | nil =>
      cases parts with
      | nil => exact (Pattern.covers_exact rfl).mpr rfl
      | cons part parts => cases h
  | cons segment segments ih =>
      cases parts with
      | nil => cases h
      | cons part parts =>
          obtain ⟨hpart, hparts⟩ := Bool.and_eq_true_iff.mp h
          cases segment with
          | parameter => exact (Pattern.covers_wild rfl).mpr List.nil_prefix
          | literal text =>
              obtain rfl : part = text := of_decide_eq_true hpart
              cases segments with
              | nil =>
                  cases parts with
                  | cons part' parts => cases hparts
                  | nil =>
                      refine (Pattern.covers_exact rfl).mpr ?_
                      exact List.append_nil part
              | cons segment segments =>
                  cases parts with
                  | nil => cases hparts
                  | cons part' parts =>
                      have hrest := ih hparts
                      rw [List.intercalate_cons_cons]
                      exact (Pattern.covers_after _ _ _).trans hrest

theorem outline_covers {separator : α} {template : Template α} {path : List α}
    (h : template.covers separator path = true) :
    (template.outline separator).covers path = true := by
  have := outline_coversParts separator h
  rwa [List.intercalate_splitOn] at this

end Template

end Rutilus.Lib
