import Mathlib.Data.List.Infix

/-!
# Segments

Texts made of segments with a separator between them, as paths are. A segment does not contain
the separator, so the last segment of a text can be told from what comes before it
(`append_cons_inj`), and whether one text ends with another can be decided segment by segment,
from the end (`suffix_append_cons_iff`). A text of one segment is a special case: it may end in
the middle of a segment (`suffix_append_cons_of_notMem`).

`joined` is such a text with the segments in a list, grown at its end, so that the rules above
apply to it once it is unfolded.
-/

namespace Capic.Data

variable {α : Type} {sep : α} {a b x y : List α}

theorem append_cons_inj (hx : sep ∉ x) (hy : sep ∉ y) (h : b ++ sep :: y = a ++ sep :: x) :
    b = a ∧ y = x := by
  -- what one first part has more than the other is empty, or begins with the separator
  have hmore : ∀ {x y s : List α}, sep ∉ y → sep :: y = s ++ sep :: x → s = [] := by
    intro x y s hy h
    cases s with
    | nil => rfl
    | cons c s =>
      have htail : y = s ++ sep :: x := (List.cons.inj h).2
      rw [htail] at hy
      exact absurd (List.mem_append_right _ List.mem_cons_self) hy
  rcases List.append_eq_append_iff.mp h with ⟨s, ha, hs⟩ | ⟨s, hb, hs⟩
  · obtain rfl := hmore hy hs
    rw [List.append_nil] at ha
    exact ⟨ha.symm, (List.cons.inj hs).2⟩
  · obtain rfl := hmore hx hs
    rw [List.append_nil] at hb
    exact ⟨hb, (List.cons.inj hs).2.symm⟩

/-- Texts of several segments end alike if their last segments are the same and the rest ends
alike. -/
theorem suffix_append_cons_iff (hx : sep ∉ x) (hy : sep ∉ y) :
    b ++ sep :: y <:+ a ++ sep :: x ↔ y = x ∧ b <:+ a := by
  constructor
  · intro ⟨s, hs⟩
    rw [← List.append_assoc] at hs
    obtain ⟨hfirst, hlast⟩ := append_cons_inj hx hy hs
    exact ⟨hlast, s, hfirst⟩
  · intro ⟨hlast, s, hfirst⟩
    refine ⟨s, ?_⟩
    rw [← List.append_assoc, hfirst, hlast]

/-- A text of one segment is at the end of the last segment. -/
theorem suffix_append_cons_of_notMem (hy : sep ∉ y) : y <:+ a ++ sep :: x ↔ y <:+ x := by
  constructor
  · intro ⟨s, hs⟩
    rcases List.append_eq_append_iff.mp hs with ⟨t, _, ht⟩ | ⟨t, _, ht⟩
    · rw [ht] at hy
      exact absurd (List.mem_append_right _ List.mem_cons_self) hy
    · cases t with
      | nil =>
        rw [List.nil_append] at ht
        rw [← ht] at hy
        exact absurd List.mem_cons_self hy
      | cons c t => exact ⟨t, (List.cons.inj ht).2.symm⟩
  · intro ⟨s, hs⟩
    exact ⟨a ++ sep :: s, by rw [← hs, List.append_assoc, List.cons_append]⟩

/-- A text, then each segment after a separator. -/
def joined (sep : α) (first : List α) (segments : List (List α)) : List α :=
  segments.foldl (fun text segment => text ++ sep :: segment) first

theorem notMem_joined {c : α} {segments : List (List α)} (hsep : c ≠ sep) (ha : c ∉ a)
    (h : ∀ x ∈ segments, c ∉ x) : c ∉ joined sep a segments := by
  induction segments generalizing a with
  | nil => exact ha
  | cons x segments ih =>
    refine ih ?_ fun y hy => h y (List.mem_cons_of_mem _ hy)
    simp only [List.mem_append, List.mem_cons, not_or]
    exact ⟨ha, hsep, h x List.mem_cons_self⟩

/-- The text does not end with a separator if its last segment is not empty. -/
theorem not_suffix_joined {segments : List (List α)} (hne : segments ≠ [])
    (h : ∀ x ∈ segments, sep ∉ x ∧ x ≠ []) : ¬ [sep] <:+ joined sep a segments := by
  obtain ⟨front, x, rfl⟩ := (List.eq_nil_or_concat segments).resolve_left hne
  rw [joined, List.concat_eq_append, List.foldl_append]
  obtain ⟨hx, hempty⟩ := h x (by simp)
  intro hsuffix
  have hlast := (suffix_append_cons_iff (b := []) hx List.not_mem_nil).mp hsuffix
  exact hempty hlast.1.symm

theorem append_joined (sep : α) (a x : List α) (xs : List (List α)) :
    a ++ sep :: joined sep x xs = joined sep a (x :: xs) := by
  induction xs generalizing x with
  | nil => rfl
  | cons y ys ih =>
    calc a ++ sep :: joined sep (x ++ sep :: y) ys
        = joined sep (a ++ sep :: (x ++ sep :: y)) ys := ih (x ++ sep :: y)
      _ = joined sep (a ++ sep :: x ++ sep :: y) ys := by rw [List.append_assoc, List.cons_append]

theorem intercalate_eq_joined (sep : α) (x : List α) (xs : List (List α)) :
    [sep].intercalate (x :: xs) = joined sep x xs := by
  induction xs generalizing x with
  | nil => simp [joined]
  | cons y ys ih =>
    rw [← append_joined, ← ih y]
    simp

end Capic.Data
