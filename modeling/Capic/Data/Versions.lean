import Mathlib.Data.List.Basic

/-!
# Optimistic locking

A store keeps a value together with its version. Anybody may read it, maybe an old version of it,
and may write a value back, which the store takes only if the version is still the current one. A
write that changes nothing need not make a new version.

So a value that is computed from some version of the stored one, and is taken, was computed from the
current one (`Updates.of_edit`).
-/

namespace Capic.Data

variable {α : Type*}

/-- Values that carry a version. -/
structure Versioning (α : Type*) where
  version : α → Nat
  set : Nat → α → α
  version_set : ∀ n a, version (set n a) = n

/-- The current value and those before it. -/
structure Store (V : Versioning α) where
  current : α
  old : List α
  older : ∀ a ∈ old, V.version a < V.version current

namespace Store

variable {V : Versioning α}

/-- The value is, or was, stored. -/
def Knows (s : Store V) (a : α) : Prop := a = s.current ∨ a ∈ s.old

/-- A new version is stored. -/
def push (s : Store V) (n : Nat) (a : α) (h : V.version s.current < n) : Store V where
  current := V.set n a
  old := s.current :: s.old
  older := by
    rw [V.version_set]
    intro b hb
    rcases List.mem_cons.mp hb with rfl | hb
    · exact h
    · exact Nat.lt_trans (s.older b hb) h

/-- What a write that is taken does. -/
inductive Updates (s : Store V) (a : α) : Store V → Prop where
  | same : a = s.current → Updates s a s
  | next (n : Nat) (h : V.version s.current < n) : V.version a = V.version s.current →
      Updates s a (s.push n a h)

variable {s s' : Store V} {a b : α}

theorem knows_current (s : Store V) : s.Knows s.current := .inl rfl

theorem Knows.eq_current (h : s.Knows b) (hversion : V.version b = V.version s.current) :
    b = s.current := by
  rcases h with h | h
  · exact h
  · exact absurd hversion (Nat.ne_of_lt (s.older b h))

theorem knows_push {n : Nat} {h : V.version s.current < n} :
    (s.push n a h).Knows b ↔ b = V.set n a ∨ s.Knows b :=
  or_congr Iff.rfl List.mem_cons

/-- What was known remains so. -/
theorem Updates.knows (h : s.Updates a s') (hb : s.Knows b) : s'.Knows b := by
  cases h with
  | same => exact hb
  | next n h _ => exact knows_push.mpr (.inr hb)

section

variable {P : α → Prop} (hP : ∀ n b, P b → P (V.set n b))

include hP

/-- What holds for the value written, whatever its version, holds for the current one. -/
theorem Updates.current (h : s.Updates a s') (ha : P a) : P s'.current := by
  cases h with
  | same heq => exact heq ▸ ha
  | next n _ _ => exact hP n a ha

/-- What holds for the value written and for all versions before holds for all versions. -/
theorem Updates.forall_knows (h : s.Updates a s') (ha : P a) (hs : ∀ b, s.Knows b → P b) :
    ∀ b, s'.Knows b → P b := by
  cases h with
  | same => exact hs
  | next n _ _ =>
    intro b hb
    rcases knows_push.mp hb with rfl | hb
    · exact hP n a ha
    · exact hs b hb

end

/-- A write computed from a known version is taken only if this is the current one. -/
theorem Updates.of_edit (h : s.Updates a s') (hb : s.Knows b)
    (hversion : V.version a = V.version b) : b = s.current := by
  cases h with
  | same heq => exact hb.eq_current (hversion.symm.trans (congrArg V.version heq))
  | next n _ hcurrent => exact hb.eq_current (hversion.symm.trans hcurrent)

end Store

end Capic.Data
