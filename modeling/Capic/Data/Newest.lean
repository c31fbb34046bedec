import Mathlib.Data.List.Sort

/-!
# Newest first

A list sorted by date, the latest first. What is at its head is an element with the latest date
(`newestFirst_head`). Of several with that date it is the one that came first (`newestFirst_cons`),
so a sort that is not stable can pick any of them.
-/

namespace Capic.Data

variable {α : Type} {date : α → Int} {l rest : List α} {a : α}

theorem newestFirst_pairwise (date : α → Int) (l : List α) :
    (l.insertionSort fun a b => date b ≤ date a).Pairwise fun a b => date b ≤ date a := by
  have : Std.Total fun a b : α => date b ≤ date a := ⟨fun a b => Int.le_total (date b) (date a)⟩
  have : IsTrans α fun a b => date b ≤ date a := ⟨fun a b c hab hbc => Int.le_trans hbc hab⟩
  exact List.pairwise_insertionSort (fun a b => date b ≤ date a) l

theorem newestFirst_head (h : l.insertionSort (fun a b => date b ≤ date a) = a :: rest) :
    a ∈ l ∧ ∀ b ∈ l, date b ≤ date a := by
  have hperm : (a :: rest).Perm l := h ▸ List.perm_insertionSort (fun a b => date b ≤ date a) l
  have hsorted : (a :: rest).Pairwise fun a b => date b ≤ date a := h ▸ newestFirst_pairwise date l
  refine ⟨hperm.mem_iff.mp List.mem_cons_self, fun b hb => ?_⟩
  rcases List.mem_cons.mp (hperm.mem_iff.mpr hb) with rfl | hb
  · exact Int.le_refl _
  · exact (List.pairwise_cons.mp hsorted).1 b hb

theorem newestFirst_ne_nil (date : α → Int) (hl : l ≠ []) :
    ∃ a rest, l.insertionSort (fun a b => date b ≤ date a) = a :: rest := by
  have hperm := List.perm_insertionSort (fun a b => date b ≤ date a) l
  cases hsorted : l.insertionSort fun a b => date b ≤ date a with
  | nil => exact absurd (hsorted ▸ hperm).nil_eq.symm hl
  | cons a rest => exact ⟨a, rest, rfl⟩

theorem newestFirst_cons (h : ∀ b ∈ l, date b ≤ date a) :
    ∃ rest, (a :: l).insertionSort (fun a b => date b ≤ date a) = a :: rest := by
  have hperm := List.perm_insertionSort (fun a b => date b ≤ date a) l
  rw [List.insertionSort_cons]
  cases hsorted : l.insertionSort fun a b => date b ≤ date a with
  | nil => exact ⟨[], rfl⟩
  | cons b rest =>
    have hb : b ∈ l := hperm.mem_iff.mp (hsorted ▸ List.mem_cons_self)
    exact ⟨b :: rest, by rw [List.orderedInsert_cons, if_pos (h b hb)]⟩

end Capic.Data
