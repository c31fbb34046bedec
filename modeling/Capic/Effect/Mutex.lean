import Mathlib.Logic.Function.Basic
import Mathlib.Logic.Relation

/-!
# Keyed mutual exclusion, abstractly

What a lock per key is for: at any time a key has one owner or none, a key
without an owner can be acquired by anybody, and a key is released by its owner.
An implementation that does less than this, or as much with more steps, can be
replaced by it wherever only the ownership matters.
-/

namespace Capic

open Function (update)

/-- Who owns each key. -/
abbrev Owners (G K : Type) := K → Option G

namespace Owners

variable {G K : Type} [DecidableEq K]

def acquire (o : Owners G K) (g : G) (key : K) : Owners G K := update o key (some g)

def release (o : Owners G K) (key : K) : Owners G K := update o key none

@[simp] theorem acquire_self (o : Owners G K) (g : G) (key : K) : o.acquire g key key = some g :=
  Function.update_self ..

@[simp] theorem acquire_of_ne {o : Owners G K} {g : G} {key key' : K} (h : key' ≠ key) :
    o.acquire g key key' = o key' :=
  Function.update_of_ne h ..

@[simp] theorem release_self (o : Owners G K) (key : K) : o.release key key = none :=
  Function.update_self ..

@[simp] theorem release_of_ne {o : Owners G K} {key key' : K} (h : key' ≠ key) :
    o.release key key' = o key' :=
  Function.update_of_ne h ..

/-- What `Unlock` does: the owner gives up the key, anybody else changes nothing. -/
def unlock [DecidableEq G] (o : Owners G K) (g : G) (key : K) : Owners G K :=
  if o key = some g then o.release key else o

/-- One change of ownership. -/
inductive Step : Owners G K → Owners G K → Prop where
  | acquire {o : Owners G K} {g : G} {key : K} : o key = none → Step o (o.acquire g key)
  | release {o : Owners G K} {g : G} {key : K} : o key = some g → Step o (o.release key)

/-! ## Locked sections -/

omit [DecidableEq K]

/-- Whoever is inside owns the key. -/
def Guards (o : Owners G K) (key : K) (inside : G → Prop) : Prop :=
  ∀ g, inside g → o key = some g

variable {o : Owners G K} {key key' : K} {inside inside' : G → Prop} {g : G}

/-- Nobody is inside together with another. -/
theorem Guards.alone (h : o.Guards key inside) (hg : inside g) {g' : G} (hne : g' ≠ g) :
    ¬ inside g' := by
  intro hg'
  exact hne (Option.some.inj ((h g' hg').symm.trans (h g hg)))

/-- While a key is free, nobody is inside. -/
theorem Guards.empty (h : o.Guards key inside) (hfree : o key = none) (g : G) : ¬ inside g := by
  intro hg
  rw [h g hg] at hfree
  exact nomatch hfree

/-- Somebody who is inside, or has left, concerns nobody else. -/
theorem Guards.stay (g : G) (h : o.Guards key inside) (hg : inside g ∨ ¬ inside' g)
    (hin : ∀ g', g' ≠ g → inside' g' → inside g') : o.Guards key inside' := by
  intro g' hg'
  by_cases heq : g' = g
  · subst heq
    exact h g' (hg.resolve_right fun hout => hout hg')
  · exact h g' (hin g' heq hg')

variable [DecidableEq K]

/-- Taking a free key lets its new owner in, if the key is the section's. -/
theorem Guards.acquire (h : o.Guards key inside) (hfree : o key' = none)
    (hin : ∀ g', inside' g' → (g' = g ∧ key' = key) ∨ inside g') :
    (o.acquire g key').Guards key inside' := by
  intro g' hg'
  by_cases hk : key = key'
  · subst hk
    rcases hin g' hg' with ⟨rfl, -⟩ | hg'
    · exact acquire_self ..
    · exact absurd hg' (h.empty hfree g')
  · rcases hin g' hg' with ⟨-, hk'⟩ | hg'
    · exact absurd hk'.symm hk
    · rw [acquire_of_ne hk]
      exact h g' hg'

/-- Giving up the section's key means to have left. -/
theorem Guards.unlock [DecidableEq G] (h : o.Guards key inside)
    (hin : ∀ g', inside' g' → inside g' ∧ (g' = g → key' ≠ key)) :
    (o.unlock g key').Guards key inside' := by
  intro g' hg'
  obtain ⟨hg', hk⟩ := hin g' hg'
  have howner := h g' hg'
  unfold Owners.unlock
  split
  next hg =>
    have hne : key ≠ key' := by
      rintro rfl
      exact hk (Option.some.inj (howner.symm.trans hg)) rfl
    rw [release_of_ne hne]
    exact howner
  next => exact howner

/-! ## Waiting -/

omit [DecidableEq K] in
/-- Whoever waits for a key of higher rank than all it owns is never waited for, over any number
of others, by itself. -/
theorem no_cycle {waits : G → K → Prop} (rank : K → Nat)
    (h : ∀ g key, waits g key → ∀ key', o key' = some g → rank key' < rank key) (g : G) :
    ¬ Relation.TransGen (fun g g' => ∃ key, waits g key ∧ o key = some g') g g := by
  -- along a chain the rank of what is waited for grows
  have hchain : ∀ g', Relation.TransGen (fun g g' => ∃ key, waits g key ∧ o key = some g') g g' →
      ∃ key key', waits g key ∧ o key' = some g' ∧ rank key ≤ rank key' := by
    intro g' hg'
    induction hg' with
    | single hwaits =>
      obtain ⟨key, hkey, howner⟩ := hwaits
      exact ⟨key, key, hkey, howner, Nat.le_refl _⟩
    | tail _ hwaits ih =>
      obtain ⟨key, key', hkey, howner, hle⟩ := ih
      obtain ⟨next, hnext, howner'⟩ := hwaits
      exact ⟨key, next, hkey, howner', Nat.le_trans hle (Nat.le_of_lt (h _ next hnext key' howner))⟩
  intro hcycle
  obtain ⟨key, key', hkey, howner, hle⟩ := hchain g hcycle
  exact Nat.not_lt_of_le hle (h g key hkey key' howner)

end Owners

end Capic
