import Mathlib.Data.List.Basic
import Mathlib.Data.List.Count

/-!
# Replacing an element by its key

A list in which an element takes the place of the first one with its key, or goes to the end if there
is none (`replaceFirst`). What has another key does not notice (`count_replaceFirst_of_ne`,
`find?_replaceFirst_of_ne`), and an element that is the first with its key stays as it is
(`replaceFirst_of_find?`).
-/

namespace Capic.Data

variable {α κ : Type*} [DecidableEq κ] (key : α → κ)

/-- `x` in place of the first element with its key. -/
def replaceFirst (x : α) : List α → List α
  | [] => [x]
  | y :: ys => if key y = key x then x :: ys else y :: replaceFirst x ys

variable {key} {x : α} {l : List α}

theorem find?_replaceFirst_self : (replaceFirst key x l).find? (fun y => key y = key x) = some x := by
  induction l with
  | nil => simp [replaceFirst]
  | cons y ys ih =>
    by_cases h : key y = key x
    · simp [replaceFirst, h]
    · simp [replaceFirst, h, ih]

theorem find?_replaceFirst_of_ne {k : κ} (hne : k ≠ key x) :
    (replaceFirst key x l).find? (fun y => key y = k) = l.find? (fun y => key y = k) := by
  induction l with
  | nil => simp [replaceFirst, hne.symm]
  | cons y ys ih =>
    by_cases h : key y = key x
    · simp [replaceFirst, h, hne.symm]
    · rw [replaceFirst, if_neg h, List.find?_cons, List.find?_cons, ih]

theorem replaceFirst_of_find? (h : l.find? (fun y => key y = key x) = some x) : replaceFirst key x l = l := by
  induction l with
  | nil => exact nomatch h
  | cons y ys ih =>
    by_cases hy : key y = key x
    · obtain rfl : y = x := by simpa [hy] using h
      rw [replaceFirst, if_pos rfl]
    · have htail : ys.find? (fun z => key z = key x) = some x := by simpa [hy] using h
      rw [replaceFirst, if_neg hy, ih htail]

section

variable [DecidableEq α]

theorem count_replaceFirst_of_ne {y : α} (hne : key y ≠ key x) :
    (replaceFirst key x l).count y = l.count y := by
  have hxy : x ≠ y := fun h => hne (h ▸ rfl)
  induction l with
  | nil => simp [replaceFirst, hxy]
  | cons z zs ih =>
    by_cases hz : key z = key x
    · have hzy : z ≠ y := fun h => hne (h ▸ hz)
      rw [replaceFirst, if_pos hz, List.count_cons_of_ne hxy, List.count_cons_of_ne hzy]
    · rw [replaceFirst, if_neg hz, List.count_cons, List.count_cons, ih]

theorem count_replaceFirst_self (h : l.count x = 0) : (replaceFirst key x l).count x = 1 := by
  induction l with
  | nil => simp [replaceFirst]
  | cons y ys ih =>
    have hy : y ≠ x := fun heq => by simp [heq] at h
    rw [List.count_cons_of_ne hy] at h
    by_cases hk : key y = key x
    · rw [replaceFirst, if_pos hk, List.count_cons_self, h]
    · rw [replaceFirst, if_neg hk, List.count_cons_of_ne hy, ih h]

end

end Capic.Data
