import Mathlib.Logic.Function.Basic
import Mathlib.Tactic.TypeStar

/-!
# Merge patches

A merge patch says for every field of an object that it is kept (the field is not in the patch),
removed (its value in the patch is `null`) or written; a field that holds an object again is merged
and not replaced. A patch is computed from two states of the object, a base and the current one,
and applied to a third, the stored one.

- `Format`: how the value of a field is compared and merged; `leaf` for plain values, `object` for
  objects whose fields have a format;
- `Format.change` and `Format.apply`: the patch of a field that may be absent;
- `fields_apply_change`: an object that is not removed is patched field by field;
- `leaf_restores_iff`, `object_restores_iff`: when the patch leaves the current value. What is the
  same in the base and now is not in the patch, so it has to be stored already.

Absent fields are `none`, so an object with keys `κ` is a function `κ → Option α`.
-/

namespace Capic.Data.MergePatch

variable {κ α π : Type*}

/-- What a patch says about a field. -/
inductive Change (π : Type*) where
  | keep
  | remove
  | write (p : π)

/-- How values of a field are compared and merged. -/
structure Format (α π : Type*) where
  /-- From the base to the current value; nothing if they are the same. -/
  diff : α → α → Option π
  /-- The value as a patch, for a field that the base does not have. -/
  fresh : α → π
  /-- A patch applied to the stored value, if there is one. -/
  merge : π → Option α → α
  diff_self : ∀ a, diff a a = none

namespace Format

variable (F : Format α π)

/-- The patch of a field. -/
def change : Option α → Option α → Change π
  | none, none => .keep
  | some _, none => .remove
  | none, some b => .write (F.fresh b)
  | some a, some b =>
    match F.diff a b with
    | none => .keep
    | some p => .write p

/-- The field after the patch. -/
def apply : Change π → Option α → Option α
  | .keep, c => c
  | .remove, _ => none
  | .write p, c => some (F.merge p c)

theorem change_self (a : Option α) : F.change a a = .keep := by
  cases a with
  | none => rfl
  | some a => simp only [change, F.diff_self]

/-- After the patch from the base `a` to `b` the field has the value `b`, if it had `c`. -/
def Restores (a b c : Option α) : Prop := F.apply (F.change a b) c = b

end Format

/-- A plain value: it is replaced. -/
def leaf [DecidableEq α] : Format α α where
  diff a b := if a = b then none else some b
  fresh b := b
  merge b _ := b
  diff_self _ := if_pos rfl

theorem leaf_restores_iff [DecidableEq α] (a b c : Option α) :
    (leaf (α := α)).Restores a b c ↔ (a = b → c = b) := by
  cases a with
  | none =>
    cases b with
    | none => exact ⟨fun h _ => h, fun h => h rfl⟩
    | some b => exact iff_of_true rfl fun h => nomatch h
  | some a =>
    cases b with
    | none => exact iff_of_true rfl fun h => nomatch h
    | some b =>
      unfold Format.Restores Format.change leaf
      by_cases hab : a = b <;> simp [hab, Format.apply]

/-- The fields of an object that may be absent. -/
def fields (d : Option (κ → Option α)) (k : κ) : Option α := d.bind (· k)

@[simp] theorem fields_none (k : κ) : fields (none : Option (κ → Option α)) k = none := rfl

@[simp] theorem fields_some (d : κ → Option α) (k : κ) : fields (some d) k = d k := rfl

/-- Objects with a field in common are the same if all their fields are. -/
theorem fields_inj {d d' : Option (κ → Option α)} {k : κ}
    (h : d.isSome → (fields d k).isSome) (h' : d'.isSome → (fields d' k).isSome)
    (heq : ∀ k, fields d k = fields d' k) : d = d' := by
  cases d with
  | none =>
    cases d' with
    | none => rfl
    | some d' =>
      have hsome := h' rfl
      rw [← heq] at hsome
      exact nomatch hsome
  | some d =>
    cases d' with
    | none =>
      have hsome := h rfl
      rw [heq] at hsome
      exact nomatch hsome
    | some d' => exact congrArg some (funext heq)

section

variable (F : Format α π) [DecidableEq (κ → Option α)]

/-- An object: the patch has the changes of its fields. -/
def object : Format (κ → Option α) (κ → Change π) where
  diff d d' := if d = d' then none else some fun k => F.change (d k) (d' k)
  fresh d' := fun k => F.change none (d' k)
  merge p c := fun k => F.apply (p k) (fields c k)
  diff_self _ := if_pos rfl

variable {F}

/-- An object that is not removed is patched field by field. -/
theorem fields_apply_change {d d' : Option (κ → Option α)} (h : d.isSome → d'.isSome)
    (c : Option (κ → Option α)) (k : κ) :
    fields ((object F).apply ((object F).change d d') c) k =
      F.apply (F.change (fields d k) (fields d' k)) (fields c k) := by
  cases d with
  | none =>
    cases d' with
    | none => rfl
    | some d' => rfl
  | some d =>
    cases d' with
    | none => exact nomatch h rfl
    | some d' =>
      by_cases heq : d = d'
      · subst heq
        rw [Format.change_self, Format.change_self]
        rfl
      · have hchange : (object F).change (some d) (some d') =
            .write fun k => F.change (d k) (d' k) := by
          simp only [Format.change, object, if_neg heq]
        rw [hchange]
        rfl

/-- The fields of an object after the patch are the current ones if the object is removed, or if
this holds for each of them. -/
theorem fields_restored_iff (d d' c : Option (κ → Option α)) :
    (∀ k, fields ((object F).apply ((object F).change d d') c) k = fields d' k) ↔
      (d.isSome ∧ d' = none) ∨ ∀ k, F.Restores (fields d k) (fields d' k) (fields c k) := by
  by_cases hremoved : d.isSome ∧ d' = none
  · obtain ⟨a, rfl⟩ := Option.isSome_iff_exists.mp hremoved.1
    obtain rfl := hremoved.2
    exact iff_of_true (fun _ => rfl) (.inl hremoved)
  · have hkept : d.isSome → d'.isSome := fun hd =>
      Option.isSome_iff_ne_none.mpr fun hd' => hremoved ⟨hd, hd'⟩
    rw [or_iff_right hremoved]
    apply forall_congr'
    intro k
    rw [fields_apply_change hkept]
    rfl

/-- The same for the object itself, if objects have a field `k` in common. -/
theorem object_restores_iff {d d' c : Option (κ → Option α)} {k : κ}
    (hd' : d'.isSome → (fields d' k).isSome) (hc : c.isSome → (fields c k).isSome) :
    (object F).Restores d d' c ↔
      (d.isSome ∧ d' = none) ∨ ∀ k, F.Restores (fields d k) (fields d' k) (fields c k) := by
  rw [← fields_restored_iff]
  constructor
  · intro h k
    rw [h]
  · intro h
    refine fields_inj (fun hsome => ?_) hd' h
    rw [h]
    cases d' with
    | some d' => exact hd' rfl
    | none =>
      cases d with
      | none =>
        rw [← h]
        exact hc hsome
      | some d => exact nomatch hsome

end

end Capic.Data.MergePatch
