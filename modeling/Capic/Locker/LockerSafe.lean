import Mathlib.Algebra.Group.Int.Defs
import Mathlib.Algebra.Group.Nat.Defs
import Mathlib.Data.Fintype.Card
import Mathlib.Logic.Relation
import Capic.Effect.Mutex
import Capic.Locker.LockerSections

/-!
# What the locker guarantees

Over all runs of the step system in `Locker.lean`:

* `Inv.reach`: every reachable state satisfies the invariant;
* `Step.refines`, `Reachable.refines`: the locker refines keyed mutual exclusion
  (`Owners`) — every step either leaves the ownership alone or acquires a key
  nobody owns or releases a key for its owner;
* `locker_safe`: the guarantees callers rely on, collected in `Safe`.

`waiters_int32` says why an unbounded counter is a fair model of the `Int32`.
-/

namespace Capic.Locker

open Function (update update_apply)

variable {G K : Type} [DecidableEq G] [DecidableEq K] {s s' : State G K}

/-! ## Runs -/

theorem Inv.lockSection (h : Inv s) {g : G} {key : K} (hg : s.phase g = .entering key)
    (hmu : s.mu = none) : Inv (s.lockSection g key) := by
  unfold State.lockSection State.findOrCreate
  split
  · refine h.move (p := .failed key) (d := s.done) ?_ rfl (fun _ e => nomatch e) ?_ ?_ <;>
      rw [hg] <;> rfl
  · cases hr : s.locks key with
    | some r => exact h.join hg hmu hr
    | none =>
      have hnew := h.create hg hmu hr
      simpa [State.setLwc, State.goto] using hnew

/-- Every step keeps the invariant. -/
theorem Inv.step (h : Inv s) (hstep : Step s s') : Inv s' := by
  cases hstep with
  | @call g key d hfree =>
    have hphase : (s.phase g).inMutex = false ∧ (s.phase g).counted = none ∧
        (s.phase g).sent = none := by
      revert hfree
      cases s.phase g <;> simp [Phase.free, Phase.inMutex, Phase.counted, Phase.sent]
    exact h.move (p := .entering key) hphase.1 rfl (fun _ e => by cases e) hphase.2.1.symm
      hphase.2.2.symm
  | ctxDone g => exact { h with }
  | lock hg hmu => exact h.lockSection hg hmu
  | send hg hfree => exact h.send hg hfree
  | dec hg => exact h.dec hg
  | @cancel g key r hg hdone =>
    refine h.move (p := .aborting key r) (d := s.done) ?_ rfl (fun _ e => by cases e) ?_ ?_ <;>
      rw [hg] <;> rfl
  | abort hg hmu => exact h.abortDec hg hmu
  | check hg => exact h.abortCheck hg
  | unlock hfree hkey hmu => exact h.unlockCount hfree hkey hmu
  | recv hg _ => exact h.unlockRecv hg

theorem Inv.reach (hs : Reachable s) : Inv s := by
  induction hs with
  | init => exact .init
  | step _ hstep ih => exact ih.step hstep

/-! ## Ownership

Only the send and the receive change it. -/

/-- What a step does to the ownership: nothing, or one key gets its owner, or one
key loses it. -/
theorem Step.owns (h : Inv s) (hstep : Step s s') :
    (∀ g key, s'.Owns g key ↔ s.Owns g key) ∨
    (∃ g key, (∀ g', ¬ s.Owns g' key) ∧
      ∀ g' k, s'.Owns g' k ↔ s.Owns g' k ∨ g' = g ∧ k = key) ∨
    (∃ g key, s.Owns g key ∧ ∀ g' k, s'.Owns g' k ↔ s.Owns g' k ∧ k ≠ key) := by
  cases hstep with
  | @call g key d hfree =>
    refine .inl (owns_move (g := g) (p := .entering key) rfl rfl ?_)
    revert hfree
    cases s.phase g <;> simp [Phase.free, Phase.sent]
  | ctxDone g => exact .inl fun _ _ => Iff.rfl
  | @lock g key hg hmu =>
    refine .inl ?_
    unfold State.lockSection State.findOrCreate
    split
    · exact owns_move (g := g) (p := .failed key) rfl rfl (by rw [hg]; rfl)
    · cases s.locks key with
      | some r => exact owns_move (g := g) (p := .selecting key r) rfl rfl (by rw [hg]; rfl)
      | none => exact owns_move (g := g) (p := .selecting key s.fresh) rfl rfl (by rw [hg]; rfl)
  | @send g key r hg hfree =>
    refine .inr (.inl ⟨g, key, fun g' ho => ?_, fun g' k => ?_⟩)
    · have hr : s.locks key = some r := h.entry (g := g) (by rw [hg]; rfl)
      rw [h.full_at ho hr] at hfree
      exact absurd hfree (by simp)
    · simp only [State.Owns, State.goto, State.setLwc, update_apply]
      grind [Phase.sent]
  | @dec g key r hg =>
    refine .inl fun g' k => ?_
    simp only [State.Owns, State.goto, State.setLwc, update_apply]
    grind [Phase.sent]
  | @cancel g key r hg hdone =>
    exact .inl (owns_move (g := g) (p := .aborting key r) rfl rfl (by rw [hg]; rfl))
  | @abort g key r hg hmu =>
    refine .inl ?_
    unfold State.abortDec
    by_cases hzero : (s.lwcs r).dec.count = 0
    · simp only [hzero, if_true]
      exact owns_move (g := g) (p := .checking key r) rfl rfl (by rw [hg]; rfl)
    · simp only [hzero, if_false]
      exact owns_move (g := g) (p := .failed key) rfl rfl (by rw [hg]; rfl)
  | @check g key r hg =>
    refine .inl ?_
    unfold State.abortCheck
    split <;> exact owns_move (g := g) (p := .failed key) rfl rfl (by rw [hg]; rfl)
  | @unlock g key hfree hkey hmu =>
    refine .inl ?_
    have hsent : (s.phase g).sent = none := by
      revert hfree
      cases s.phase g <;> simp [Phase.free, Phase.sent]
    unfold State.unlockCount
    cases s.locks key with
    | none => exact owns_move (g := g) (p := .panicked key) rfl rfl hsent.symm
    | some r =>
      by_cases hzero : (s.lwcs r).count = 0
      · simp only [hzero, if_true]
        exact owns_move (g := g) (p := .receiving key r) rfl rfl hsent.symm
      · simp only [hzero, if_false]
        exact owns_move (g := g) (p := .receiving key r) rfl rfl hsent.symm
  | @recv g key r hg hch =>
    have hheld := (h.recv hg).1
    refine .inr (.inr ⟨g, key, Or.inr hheld, fun g' k => ?_⟩)
    simp only [State.Owns, State.unlockRecv, State.goto, State.setLwc, update_apply]
    by_cases hg' : g' = g
    · subst hg'
      simp only [if_true, hg, Phase.sent, reduceCtorEq, false_or, (h.nodup g').mem_erase_iff]
      exact and_comm
    · simp only [hg', if_false]
      refine ⟨fun ho => ⟨ho, ?_⟩, fun ho => ho.1⟩
      rintro rfl
      exact hg' (h.unique ho (Or.inr hheld))

/-- The locker's state and the ownership it stands for. -/
def Abs (s : State G K) (o : Owners G K) : Prop :=
  ∀ g key, o key = some g ↔ s.Owns g key

/-- A step of the locker is a step of keyed mutual exclusion, or none. -/
theorem Step.refines (h : Inv s) {o : Owners G K} (ho : Abs s o) (hstep : Step s s') :
    ∃ o', (o' = o ∨ Owners.Step o o') ∧ Abs s' o' := by
  rcases hstep.owns h with hown | ⟨g, key, hnone, hown⟩ | ⟨g, key, hg, hown⟩
  · exact ⟨o, .inl rfl, fun g key => (ho g key).trans (hown g key).symm⟩
  · have hfree : o key = none := by
      cases hk : o key with
      | none => rfl
      | some g' => exact absurd ((ho g' key).mp hk) (hnone g')
    refine ⟨o.acquire g key, .inr (.acquire hfree), fun g' k => ?_⟩
    rw [hown]
    by_cases hk : k = key
    · subst hk
      simp only [Owners.acquire_self, Option.some.injEq, and_true, hnone g', false_or, eq_comm]
    · simp only [Owners.acquire_of_ne hk, ho g' k, hk, and_false, or_false]
  · refine ⟨o.release key, .inr (.release ((ho g key).mpr hg)), fun g' k => ?_⟩
    rw [hown]
    by_cases hk : k = key
    · subst hk
      simp
    · simp only [Owners.release_of_ne hk, ho g' k, ne_eq, hk, not_false_eq_true, and_true]

/-- Every run of the locker is a run of keyed mutual exclusion. -/
theorem Reachable.refines (hs : Reachable s) :
    ∃ o, Relation.ReflTransGen Owners.Step (fun _ => none) o ∧ Abs s o := by
  induction hs with
  | init => exact ⟨_, .refl, fun g key => ⟨(fun e => nomatch e), fun ho => by
      rcases ho with e | e <;> exact nomatch e⟩⟩
  | step hs hstep ih =>
    obtain ⟨o, hrun, ho⟩ := ih
    obtain ⟨o', rfl | hst, ho'⟩ := hstep.refines (Inv.reach hs) ho
    · exact ⟨o', hrun, ho'⟩
    · exact ⟨o', hrun.tail hst, ho'⟩

/-- With fewer than `2^32` goroutines, the counter in 32 bits is zero exactly when
the counter is. -/
theorem waiters_int32 [Fintype G] (hcard : Fintype.card G < 2 ^ 32) (hs : Reachable s) {key : K}
    {r : Nat} (hr : s.locks key = some r) :
    (s.lwcs r).waiters % 2 ^ 32 = 0 ↔ (s.lwcs r).waiters = 0 := by
  obtain ⟨S, _, hw⟩ := (Inv.reach hs).tally hr
  have := S.card_le_univ
  omega

/-! ## The guarantees -/

/-- What callers rely on. -/
structure Safe (s : State G K) : Prop where
  /-- A key has at most one owner, … -/
  exclusive : ∀ {g g' key}, s.Owns g key → s.Owns g' key → g = g'
  /-- … who got it by one successful send. -/
  once : ∀ g, (s.held g).Nodup ∧ ∀ key, (s.phase g).sent = some key → key ∉ s.held g
  /-- An `Unlock` that may be called finds an entry with a full channel, … -/
  finds : ∀ {g key}, (s.phase g).free = true → key ∈ s.held g →
    ∃ r, s.locks key = some r ∧ (s.lwcs r).ch = true
  /-- … so it does not panic, … -/
  noPanic : ∀ g key, s.phase g ≠ .panicked key
  /-- … and its receive goes through. -/
  receives : ∀ {g key r}, s.phase g = .receiving key r → (s.lwcs r).ch = true
  /-- A `Lock` that returned an error has not changed who owns what, or a channel. -/
  failed : ∀ {s' g key}, Step s s' → s.phase g ≠ .failed key → s'.phase g = .failed key →
    (∀ g' key', s'.Owns g' key' ↔ s.Owns g' key') ∧ ∀ r, (s'.lwcs r).ch = (s.lwcs r).ch
  /-- The counter of an entry is the number of goroutines still in `Lock` for it: a
  `Lock` that returned is not among them. -/
  counted : ∀ {key r}, s.locks key = some r →
    ∃ S : Finset G, CountedAt s.phase key r S ∧ (s.lwcs r).waiters = S.card
  /-- An entry is there for a goroutine that owns it, waits for it or is deleting it. -/
  noLeak : ∀ {key r}, s.locks key = some r → ∃ g, s.Owns g key ∨
    (s.phase g).counted = some (key, r) ∨ s.phase g = .checking key r

omit [DecidableEq K] in
/-- A move to any place but `failed` is not how a `Lock` fails. -/
theorem not_failed {g g' : G} {key : K} {p : Phase K} (hphase : s'.phase = update s.phase g' p)
    (hp : p ≠ .failed key) (hg : s.phase g ≠ .failed key) : s'.phase g ≠ .failed key := by
  rw [hphase, update_apply]
  split
  · exact hp
  · exact hg

/-- The three ways `Lock` returns an error: the context was done at the start, or
the waiter gave up, as one of several or as the last. -/
theorem Step.failed (hstep : Step s s') {g : G} {key : K} (hg : s.phase g ≠ .failed key)
    (hg' : s'.phase g = .failed key) :
    (∀ g' key', s'.Owns g' key' ↔ s.Owns g' key') ∧ ∀ r, (s'.lwcs r).ch = (s.lwcs r).ch := by
  cases hstep with
  | @call g₁ key₁ => exact absurd hg' (not_failed (p := .entering key₁) rfl (by simp) hg)
  | ctxDone => exact absurd hg' hg
  | @lock g₁ key₁ hg₁ hmu =>
    unfold State.lockSection State.findOrCreate at hg' ⊢
    split at hg'
    · next hdone =>
      rw [if_pos hdone]
      exact ⟨owns_move (g := g₁) (p := .failed key₁) rfl rfl (by rw [hg₁]; rfl), fun _ => rfl⟩
    · cases hr : s.locks key₁ with
      | some r =>
        simp only [hr] at hg'
        exact absurd hg' (not_failed (p := .selecting key₁ r) rfl (by simp) hg)
      | none =>
        simp only [hr] at hg'
        exact absurd hg' (not_failed (p := .selecting key₁ s.fresh) rfl (by simp) hg)
  | @send g₁ key₁ r => exact absurd hg' (not_failed (p := .acquired key₁ r) rfl (by simp) hg)
  | dec => exact absurd hg' (not_failed (p := .idle) rfl (by simp) hg)
  | @cancel g₁ key₁ r => exact absurd hg' (not_failed (p := .aborting key₁ r) rfl (by simp) hg)
  | @abort g₁ key₁ r hg₁ hmu =>
    have hch : ∀ r', (update s.lwcs r (s.lwcs r).dec r').ch = (s.lwcs r').ch := by
      grind [update_apply, LockWithCounter.dec]
    unfold State.abortDec at hg' ⊢
    by_cases hzero : (s.lwcs r).dec.count = 0
    · simp only [hzero, if_true] at hg'
      exact absurd hg' (not_failed (p := .checking key₁ r) rfl (by simp) hg)
    · simp only [hzero, if_false]
      exact ⟨owns_move (g := g₁) (p := .failed key₁) rfl rfl (by rw [hg₁]; rfl), hch⟩
  | @check g₁ key₁ r hg₁ =>
    unfold State.abortCheck
    split <;>
      exact ⟨owns_move (g := g₁) (p := .failed key₁) rfl rfl (by rw [hg₁]; rfl), fun _ => rfl⟩
  | @unlock g₁ key₁ hfree hkey hmu =>
    unfold State.unlockCount at hg'
    cases hr : s.locks key₁ with
    | none =>
      simp only [hr] at hg'
      exact absurd hg' (not_failed (p := .panicked key₁) rfl (by simp) hg)
    | some r =>
      simp only [hr] at hg'
      split at hg' <;> exact absurd hg' (not_failed (p := .receiving key₁ r) rfl (by simp) hg)
  | recv => exact absurd hg' (not_failed (p := .idle) rfl (by simp) hg)

omit [DecidableEq G] [DecidableEq K] in
theorem Inv.finds (h : Inv s) {g : G} {key : K} (hfree : (s.phase g).free = true)
    (hkey : key ∈ s.held g) : ∃ r, s.locks key = some r ∧ (s.lwcs r).ch = true := by
  obtain ⟨r, hf, hr | hr⟩ := h.full (Or.inr hkey)
  · exact ⟨r, hr, hf⟩
  · rw [hr] at hfree
    exact absurd hfree (by simp [Phase.free])

omit [DecidableEq G] [DecidableEq K] in
theorem Inv.noLeak (h : Inv s) {key : K} {r : Nat} (hr : s.locks key = some r) :
    ∃ g, s.Owns g key ∨ (s.phase g).counted = some (key, r) ∨ s.phase g = .checking key r := by
  cases hch : (s.lwcs r).ch with
  | true =>
    obtain ⟨g, ho⟩ := h.used hr hch
    exact ⟨g, Or.inl ho⟩
  | false =>
    rcases h.live hr hch with hpos | ⟨g, hg⟩
    · obtain ⟨S, hS, hw⟩ := h.tally hr
      obtain ⟨g, hg⟩ := Finset.card_pos.mp (show 0 < S.card by omega)
      exact ⟨g, Or.inr (Or.inl ((hS g).mp hg))⟩
    · exact ⟨g, Or.inr (Or.inr hg)⟩

/-- Over every run, whatever the goroutines, the keys and the schedule. -/
theorem locker_safe (hs : Reachable s) : Safe s := by
  have h := Inv.reach hs
  exact
    { exclusive := h.unique
      once := fun g => ⟨h.nodup g, fun _ => h.once⟩
      finds := h.finds
      noPanic := h.calm
      receives := fun hg => (h.recv hg).2.1
      failed := fun hstep => hstep.failed
      counted := h.tally
      noLeak := h.noLeak }

/-- One goroutine holds a key while another waits for it. -/
theorem locker_safe_contended : ∃ s : State Bool String, Reachable s ∧
    "lan" ∈ s.held true ∧ s.phase false = .selecting "lan" 0 ∧ Safe s := by
  have h₁ := Reachable.init.step (.call (G := Bool) true "lan" false rfl)
  have h₂ := h₁.step (.lock (g := true) rfl rfl)
  have h₃ := h₂.step (.send (g := true) rfl rfl)
  have h₄ := h₃.step (.dec (g := true) rfl)
  have h₅ := h₄.step (.call false "lan" false rfl)
  have h₆ := h₅.step (.lock (g := false) rfl rfl)
  exact ⟨_, h₆, List.mem_cons_self, rfl, locker_safe h₆⟩

end Capic.Locker
