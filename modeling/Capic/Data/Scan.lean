import Mathlib.Data.List.Perm.Basic

/-!
# Searching a list for two things at once

A loop over a list that is after two kinds of elements: one that `stop`s the search at once,
and one that is taken if it is the only one that `counts`. A second one ends the search in
vain, but only if the loop gets that far.

The outcome does not depend on the order of the list (`scan_perm`) unless it has both, an
element to stop at and two others that count. Which of the two rules wins is then up to the
order (`exists_perm_conflict`).
-/

namespace Capic.Data

/-- How a search ends: at an element it was after, at the second one that counts, or at the end
of the list, with the one that counts if there is one. -/
inductive Outcome (α : Type) where
  | stopped (a : α)
  | tooMany
  | ended (found : Option α)

/-- The search, with what was found so far. -/
def scan {α : Type} (stop counts : α → Bool) : Option α → List α → Outcome α
  | found, [] => .ended found
  | found, a :: as =>
    if stop a then .stopped a
    else if counts a then
      match found with
      | some _ => .tooMany
      | none => scan stop counts (some a) as
    else scan stop counts found as

variable {α : Type} {stop counts : α → Bool} {found : Option α} {l l' : List α} {a u : α}

theorem scan_cons : scan stop counts found (a :: l) =
    if stop a then .stopped a
    else if counts a then
      match found with
      | some _ => .tooMany
      | none => scan stop counts (some a) l
    else scan stop counts found l := by
  cases found <;> rfl

/-- Elements to stop at apart, only those that count make a difference. -/
theorem scan_append {before : List α} (found : Option α) (rest : List α)
    (h : ∀ a ∈ before, stop a = false) :
    scan stop counts found (before ++ rest) =
      match found.toList ++ before.filter counts with
      | [] => scan stop counts none rest
      | [a] => scan stop counts (some a) rest
      | _ :: _ :: _ => .tooMany := by
  induction before generalizing found with
  | nil => cases found <;> simp
  | cons b before ih =>
    have hb : stop b = false := h b (List.mem_cons_self ..)
    have ih' := fun found => ih found fun a ha => h a (List.mem_cons_of_mem _ ha)
    rw [List.cons_append, scan_cons, hb]
    cases hcounts : counts b with
    | false =>
      rw [List.filter_cons_of_neg (by simp [hcounts])]
      simpa using ih' found
    | true =>
      rw [List.filter_cons_of_pos hcounts]
      cases found with
      | some a => simp
      | none => simpa using ih' (some b)

/-- Without an element to stop at, the search finds the one that counts. -/
theorem scan_none (h : ∀ a ∈ l, stop a = false) :
    scan stop counts none l =
      match l.filter counts with
      | [] => .ended none
      | [a] => .ended (some a)
      | _ :: _ :: _ => .tooMany := by
  rw [← List.append_nil l, scan_append none [] h, List.append_nil]
  rfl

/-- The search gets to an element to stop at unless two others that count come before it. -/
theorem scan_stopped {before after : List α} (h : ∀ a ∈ before, stop a = false)
    (hu : stop u = true) :
    scan stop counts none (before ++ u :: after) =
      if 2 ≤ (before.filter counts).length then .tooMany else .stopped u := by
  have hstop : ∀ found, scan stop counts found (u :: after) = .stopped u := by
    intro found
    rw [scan_cons, if_pos hu]
  rw [scan_append _ _ h]
  match hfilter : before.filter counts with
  | [] => simp [hstop]
  | [a] => simp [hstop]
  | a :: b :: rest => simp

/-- The first element to stop at, if there is one. -/
theorem exists_first (h : ∃ a ∈ l, stop a = true) :
    ∃ before u after, l = before ++ u :: after ∧ stop u = true ∧ ∀ a ∈ before, stop a = false := by
  induction l with
  | nil =>
    obtain ⟨a, ha, _⟩ := h
    exact nomatch ha
  | cons b l ih =>
    by_cases hb : stop b = true
    · exact ⟨[], b, l, rfl, hb, fun _ h => nomatch h⟩
    · obtain ⟨a, ha, hstop⟩ := h
      have hrest : ∃ a ∈ l, stop a = true := by
        rcases List.mem_cons.mp ha with rfl | ha
        · exact absurd hstop hb
        · exact ⟨a, ha, hstop⟩
      obtain ⟨before, u, after, rfl, hu, hbefore⟩ := ih hrest
      refine ⟨b :: before, u, after, rfl, hu, fun a ha => ?_⟩
      rcases List.mem_cons.mp ha with rfl | ha
      · exact Bool.eq_false_iff.mpr hb
      · exact hbefore a ha

/-! ## What an outcome says -/

/-- The search stopped before the second element that counts. -/
theorem scan_stopped_inv (h : scan stop counts none l = .stopped u) :
    ∃ before after, l = before ++ u :: after ∧ stop u = true ∧
      (before.filter counts).length ≤ 1 := by
  by_cases hstop : ∃ a ∈ l, stop a = true
  · obtain ⟨before, u', after, rfl, hu', hbefore⟩ := exists_first hstop
    rw [scan_stopped hbefore hu'] at h
    split at h
    next => exact nomatch h
    next hmany =>
      obtain rfl := Outcome.stopped.inj h
      exact ⟨before, after, rfl, hu', by omega⟩
  · rw [scan_none (by simpa using hstop)] at h
    split at h <;> exact nomatch h

/-- The search got to the end. -/
theorem scan_ended_inv (h : scan stop counts none l = .ended found) :
    (∀ a ∈ l, stop a = false) ∧ l.filter counts = found.toList := by
  by_cases hstop : ∃ a ∈ l, stop a = true
  · obtain ⟨before, u, after, rfl, hu, hbefore⟩ := exists_first hstop
    rw [scan_stopped hbefore hu] at h
    split at h <;> exact nomatch h
  · have hnone : ∀ a ∈ l, stop a = false := by simpa using hstop
    refine ⟨hnone, ?_⟩
    rw [scan_none hnone] at h
    split at h
    next hfilter =>
      obtain rfl := Outcome.ended.inj h
      exact hfilter
    next a hfilter =>
      obtain rfl := Outcome.ended.inj h
      exact hfilter
    next => exact nomatch h

/-- The search met elements that count. -/
theorem scan_tooMany_inv (h : scan stop counts none l = .tooMany) : ∃ a ∈ l, counts a = true := by
  by_contra hnone
  have hfilter : ∀ before : List α, (∀ a ∈ before, a ∈ l) → before.filter counts = [] := by
    intro before hsub
    rw [List.filter_eq_nil_iff]
    intro a ha hcounts
    exact hnone ⟨a, hsub a ha, hcounts⟩
  by_cases hstop : ∃ a ∈ l, stop a = true
  · obtain ⟨before, u, after, rfl, hu, hbefore⟩ := exists_first hstop
    rw [scan_stopped hbefore hu, hfilter before fun a ha => List.mem_append_left _ ha] at h
    exact nomatch h
  · rw [scan_none (by simpa using hstop), hfilter l fun _ ha => ha] at h
    exact nomatch h

/-- An element to stop at with at most one before it that counts is enough to stop. -/
theorem exists_scan_stopped {before after : List α} (hu : stop u = true)
    (hle : found.toList.length + (before.filter counts).length ≤ 1) :
    ∃ u', scan stop counts found (before ++ u :: after) = .stopped u' := by
  induction before generalizing found with
  | nil => exact ⟨u, by rw [List.nil_append, scan_cons, if_pos hu]⟩
  | cons b before ih =>
    rw [List.cons_append, scan_cons]
    by_cases hb : stop b = true
    · exact ⟨b, if_pos hb⟩
    rw [if_neg hb]
    by_cases hcounts : counts b = true
    · rw [List.filter_cons_of_pos hcounts, List.length_cons] at hle
      rw [if_pos hcounts]
      cases found with
      | some _ =>
        rw [Option.toList_some, List.length_singleton] at hle
        omega
      | none =>
        refine ih ?_
        rw [Option.toList_none, List.length_nil] at hle
        rw [Option.toList_some, List.length_singleton]
        omega
    · rw [List.filter_cons_of_neg hcounts] at hle
      rw [if_neg hcounts]
      exact ih hle

/-! ## The order of the list -/

/-- Lists with at most one element are in order. -/
theorem eq_of_perm (h : l'.Perm l) (hle : l.length ≤ 1) : l' = l := by
  match l with
  | [] => exact List.perm_nil.mp h
  | [a] => exact List.perm_singleton.mp h
  | _ :: _ :: _ => simp at hle

theorem scan_perm_of_none (hl : ∀ a ∈ l, stop a = false) (h : l'.Perm l) :
    scan stop counts none l' = scan stop counts none l := by
  have hl' : ∀ a ∈ l', stop a = false := fun a ha => hl a (h.mem_iff.mp ha)
  have hfilter : (l'.filter counts).Perm (l.filter counts) := h.filter _
  rw [scan_none hl, scan_none hl']
  by_cases hle : (l.filter counts).length ≤ 1
  · rw [eq_of_perm hfilter hle]
  · -- both have two
    have hlength := hfilter.length_eq
    match h₁ : l.filter counts, h₂ : l'.filter counts with
    | [], _ => simp [h₁] at hle
    | [_], _ => simp [h₁] at hle
    | _ :: _ :: _, [] => simp [h₁, h₂] at hlength
    | _ :: _ :: _, [_] => simp [h₁, h₂] at hlength
    | _ :: _ :: _, _ :: _ :: _ => rfl

/-- With one element to stop at and at most one other that counts, the search stops there. -/
theorem scan_eq_stopped (hu : u ∈ l) (hstop : stop u = true) (hone : (l.filter stop).length ≤ 1)
    (hcounts : (l.filter fun a => counts a && !stop a).length ≤ 1) :
    scan stop counts none l = .stopped u := by
  obtain ⟨before, u', after, rfl, hu', hbefore⟩ := exists_first ⟨u, hu, hstop⟩
  have hsame : u' = u := by
    have hmem : ∀ a ∈ before ++ u' :: after, stop a = true →
        a ∈ (before ++ u' :: after).filter stop := fun a ha hs => List.mem_filter.mpr ⟨ha, hs⟩
    have h₁ := hmem u hu hstop
    have h₂ := hmem u' (List.mem_append_right _ (List.mem_cons_self ..)) hu'
    match hfilter : (before ++ u' :: after).filter stop with
    | [] => rw [hfilter] at h₁; exact nomatch h₁
    | [b] =>
      rw [hfilter] at h₁ h₂
      rw [List.mem_singleton.mp h₁, List.mem_singleton.mp h₂]
    | _ :: _ :: _ => rw [hfilter] at hone; simp at hone
  rw [scan_stopped hbefore hu', hsame, if_neg]
  have hfilter : before.filter counts = before.filter fun a => counts a && !stop a := by
    refine List.filter_congr fun a ha => ?_
    rw [hbefore a ha, Bool.not_false, Bool.and_true]
  rw [List.filter_append, List.length_append] at hcounts
  rw [hfilter]
  omega

/-- If there is an element to stop at and there are two others that count, one order of the list
leads to the one and another order to too many. -/
theorem exists_perm_conflict (hu : u ∈ l) (hstop : stop u = true)
    (hcounts : 2 ≤ (l.filter fun a => counts a && !stop a).length) :
    (∃ l', l'.Perm l ∧ scan stop counts none l' = .stopped u) ∧
      ∃ l', l'.Perm l ∧ scan stop counts none l' = .tooMany := by
  constructor
  · obtain ⟨before, after, rfl⟩ := List.append_of_mem hu
    refine ⟨u :: (before ++ after), List.perm_middle.symm, ?_⟩
    rw [scan_cons, if_pos hstop]
  · refine ⟨_, List.filter_append_perm (fun a => counts a && !stop a) l, ?_⟩
    match hfilter : l.filter fun a => counts a && !stop a with
    | [] => rw [hfilter] at hcounts; simp at hcounts
    | [_] => rw [hfilter] at hcounts; simp at hcounts
    | a :: b :: rest =>
      have hmem : ∀ c ∈ a :: b :: rest, counts c = true ∧ stop c = false := by
        intro c hc
        rw [← hfilter] at hc
        simpa using (List.mem_filter.mp hc).2
      obtain ⟨ha, ha'⟩ := hmem a (by simp)
      obtain ⟨hb, hb'⟩ := hmem b (by simp)
      simp only [List.cons_append, scan_cons, ha, ha', hb, hb', if_true, Bool.false_eq_true,
        if_false]

/-- Otherwise all orders lead to the same, if there is at most one element to stop at. -/
theorem scan_perm (hone : (l.filter stop).length ≤ 1)
    (hnot : (∃ u ∈ l, stop u = true) → (l.filter fun a => counts a && !stop a).length ≤ 1)
    (h : l'.Perm l) : scan stop counts none l' = scan stop counts none l := by
  by_cases hstop : ∃ u ∈ l, stop u = true
  · have hcounts := hnot hstop
    obtain ⟨u, hu, hs⟩ := hstop
    have hone' : (l'.filter stop).length ≤ 1 := by rwa [(h.filter _).length_eq]
    have hcounts' : (l'.filter fun a => counts a && !stop a).length ≤ 1 := by
      rwa [(h.filter _).length_eq]
    rw [scan_eq_stopped hu hs hone hcounts,
      scan_eq_stopped (h.mem_iff.mpr hu) hs hone' hcounts']
  · refine scan_perm_of_none (fun a ha => ?_) h
    by_contra hs
    exact hstop ⟨a, ha, by simpa using hs⟩

end Capic.Data
