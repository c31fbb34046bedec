import Capic.Locker.LockerSafe

/-!
# Unlocking a key nobody holds

`Unlock` "panics if the key is not locked". What it looks at is the entry in the
map, and an entry stays for those that wait: between the receive of one holder's
`Unlock` and the send of the next one's `Lock` the key is not locked and its entry
is there. An extra `Unlock` called then does not panic. It goes on to the receive
with the mutex, waits there for a value that a later `Lock` sends, and takes it.

* `Misused`: the runs of `Locker.lean` with extra `Unlock`s in them;
* `Misused.inv`: as long as nobody is in `Lock` for the key an extra `Unlock` names,
  the locker's invariant survives the panics;
* `extra_unlock_rejected`: the extra call is rejected exactly then;
* `extra_unlock_accepted`: a run of two goroutines where it is not.

A goroutine that panicked may recover and go on (`Misused.recover`), as the workers
of a controller do.
-/

namespace Capic.Locker

open Function (update)
open Relation (ReflTransGen)

variable {G K : Type}

/-- Somebody is in `Lock(key)`, counted in the key's entry. -/
def State.Awaited (s : State G K) (key : K) : Prop :=
  ∃ g r, (s.phase g).counted = some (key, r)

/-- The goroutine is stuck at `Unlock`'s receive, with the mutex. -/
def State.Blocks (s : State G K) (g : G) (key : K) : Prop :=
  s.mu = some g ∧ ∃ r, s.phase g = .receiving key r ∧ (s.lwcs r).ch = false

variable [DecidableEq G] [DecidableEq K] {s s' : State G K} {g : G} {key : K}

/-- States reached with extra `Unlock`s: calls for a key nobody holds, made where
`ok` allows them. -/
inductive Misused (ok : State G K → K → Prop) : State G K → Prop where
  | init : Misused ok .init
  | step {s s' : State G K} : Misused ok s → Step s s' → Misused ok s'
  | extra {s : State G K} (g : G) (key : K) : Misused ok s → (s.phase g).free = true →
      (∀ g', key ∉ s.held g') → s.mu = none → ok s key → Misused ok (s.unlockCount g key)
  | recover {s : State G K} {g : G} {key : K} : Misused ok s → s.phase g = .panicked key →
      Misused ok (s.goto g .idle)

/-- The `Unlock(key)` that `g` calls comes to take the value by which another
goroutine acquires the key. -/
def Releases (s : State G K) (g : G) (key : K) : Prop :=
  ∃ t r g', ReflTransGen Step (s.unlockCount g key) t ∧ t.phase g = .receiving key r ∧
    (t.lwcs r).ch = true ∧ g' ≠ g ∧ t.Owns g' key

/-- What a caller of `Unlock(key)` without the key gets. -/
structure Rejected (s : State G K) (g : G) (key : K) : Prop where
  panics : (s.unlockCount g key).phase g = .panicked key
  unchanged : (s.unlockCount g key).locks = s.locks
  unblocked : ¬ (s.unlockCount g key).Blocks g key
  harmless : ¬ Releases s g key

/-! ## A panic changes nothing else

Up to the goroutines that panicked, the run is one without the extra calls. -/

/-- A goroutine that panicked, gone back to its caller. -/
def Phase.recovered : Phase K → Phase K
  | .panicked _ => .idle
  | p => p

/-- All of them. -/
def State.recovered (s : State G K) : State G K :=
  { s with phase := Phase.recovered ∘ s.phase }

namespace State

omit [DecidableEq K] in
@[simp] theorem recovered_goto (s : State G K) (g : G) (p : Phase K) :
    (s.goto g p).recovered = s.recovered.goto g p.recovered := by
  simp only [recovered, goto, Function.comp_update]

omit [DecidableEq G] in
theorem recovered_findOrCreate (s : State G K) (key : K) :
    s.recovered.findOrCreate key = ((s.findOrCreate key).1.recovered, (s.findOrCreate key).2) := by
  unfold findOrCreate
  have hlocks : s.recovered.locks key = s.locks key := rfl
  rw [hlocks]
  cases s.locks key <;> rfl

theorem recovered_lockSection (s : State G K) (g : G) (key : K) :
    (s.lockSection g key).recovered = s.recovered.lockSection g key := by
  unfold lockSection
  rw [recovered_findOrCreate]
  show _ = if s.done g = true then _ else _
  split
  · exact recovered_goto ..
  · exact recovered_goto ..

omit [DecidableEq K] in
theorem recovered_abortDec (s : State G K) (g : G) (key : K) (r : Nat) :
    (s.abortDec g key r).recovered = s.recovered.abortDec g key r := by
  by_cases hzero : (s.lwcs r).dec.count = 0
  · simp [abortDec, recovered, hzero, goto, setLwc, Function.comp_update, Phase.recovered]
  · simp [abortDec, recovered, hzero, goto, setLwc, Function.comp_update, Phase.recovered]

theorem recovered_abortCheck (s : State G K) (g : G) (key : K) (r : Nat) :
    (s.abortCheck g key r).recovered = s.recovered.abortCheck g key r := by
  by_cases hch : (s.lwcs r).ch = false
  · simp [abortCheck, recovered, hch, goto, delete, Function.comp_update, Phase.recovered]
  · simp [abortCheck, recovered, hch, goto, Function.comp_update, Phase.recovered]

theorem recovered_unlockCount {r : Nat} (hr : s.locks key = some r) :
    (s.unlockCount g key).recovered = s.recovered.unlockCount g key := by
  by_cases hzero : (s.lwcs r).count = 0
  · simp [unlockCount, recovered, hr, hzero, goto, delete, Function.comp_update, Phase.recovered]
  · simp [unlockCount, recovered, hr, hzero, goto, Function.comp_update, Phase.recovered]

theorem recovered_unlockRecv (s : State G K) (g : G) (key : K) (r : Nat) :
    (s.unlockRecv g key r).recovered = s.recovered.unlockRecv g key r := by
  simp [unlockRecv, recovered, goto, setLwc, Function.comp_update, Phase.recovered]

end State

omit [DecidableEq K] in
theorem Phase.recovered_of_free {p : Phase K} (hp : p.free = true) : p.recovered = p := by
  cases p with
  | panicked key => exact nomatch hp
  | _ => rfl

/-- A step of a goroutine that keeps to the contract, seen without the panics. -/
theorem Step.recovered (h : Inv s.recovered) (hstep : Step s s') :
    Step s.recovered s'.recovered := by
  -- the goroutine that takes the step has not panicked
  have hphase : ∀ {g p}, s.phase g = p → Phase.recovered p = p → s.recovered.phase g = p := by
    intro g p hg hp
    show (s.phase g).recovered = p
    rw [hg, hp]
  have hfree : ∀ {g}, (s.phase g).free = true → (s.recovered.phase g).free = true := by
    intro g hg
    rw [hphase rfl (Phase.recovered_of_free hg)]
    exact hg
  cases hstep with
  | call g key d hg =>
    have hstep := Step.call g key d (hfree hg)
    simpa [State.recovered, State.goto, Function.comp_update, Phase.recovered] using hstep
  | ctxDone g => exact .ctxDone g
  | lock hg hmu =>
    rw [State.recovered_lockSection]
    exact .lock (hphase hg rfl) hmu
  | send hg hch =>
    have hstep := Step.send (hphase hg rfl) hch
    simpa [State.recovered, State.goto, State.setLwc, Function.comp_update, Phase.recovered]
      using hstep
  | dec hg =>
    have hstep := Step.dec (hphase hg rfl)
    simpa [State.recovered, State.goto, State.setLwc, Function.comp_update, Phase.recovered]
      using hstep
  | cancel hg hdone =>
    rw [State.recovered_goto]
    exact .cancel (hphase hg rfl) hdone
  | abort hg hmu =>
    rw [State.recovered_abortDec]
    exact .abort (hphase hg rfl) hmu
  | check hg =>
    rw [State.recovered_abortCheck]
    exact .check (hphase hg rfl)
  | unlock hg hkey hmu =>
    obtain ⟨r, hr, -⟩ := h.finds (hfree hg) hkey
    rw [State.recovered_unlockCount (s := s) hr]
    exact .unlock (hfree hg) hkey hmu
  | recv hg hch =>
    rw [State.recovered_unlockRecv]
    exact .recv (hphase hg rfl) hch

/-! ## When an extra call panics -/

omit [DecidableEq G] [DecidableEq K] in
/-- An entry is there for a holder or for somebody in `Lock`. -/
theorem no_entry (h : Inv s.recovered) (hheld : ∀ g, key ∉ s.held g) (hmu : s.mu = none)
    (hwait : ¬ s.Awaited key) : s.locks key = none := by
  have hcount : ∀ g, (s.recovered.phase g).counted = (s.phase g).counted := by
    intro g
    show (s.phase g).recovered.counted = _
    cases s.phase g <;> rfl
  cases hr : s.locks key with
  | none => rfl
  | some r =>
    obtain ⟨g, (hsent | hkey) | hc | hcheck⟩ := h.noLeak hr
    · have hacq : ∃ r', (s.phase g).counted = some (key, r') := by
        rw [← hcount]
        cases hp : s.recovered.phase g with
        | acquired key' r' =>
          rw [hp] at hsent
          obtain rfl := Option.some.inj hsent
          exact ⟨r', rfl⟩
        | _ =>
          rw [hp] at hsent
          exact nomatch hsent
      obtain ⟨r', hr'⟩ := hacq
      exact absurd ⟨g, r', hr'⟩ hwait
    · exact absurd hkey (hheld g)
    · exact absurd ⟨g, r, (hcount g).symm.trans hc⟩ hwait
    · exact absurd hcheck (h.not_checking hmu)

theorem unlockCount_no_entry (hkey : s.locks key = none) :
    s.unlockCount g key = s.goto g (.panicked key) := by
  simp only [State.unlockCount, hkey]

/-- Extra calls for keys nobody is in `Lock` for leave the invariant alone. -/
theorem Misused.inv (hs : Misused (fun s key => ¬ s.Awaited key) s) : Inv s.recovered := by
  induction hs with
  | init => exact .init
  | step _ hstep ih => exact ih.step (hstep.recovered ih)
  | @extra s g key _ hg hheld hmu hok ih =>
    rw [unlockCount_no_entry (no_entry ih hheld hmu hok), State.recovered_goto]
    obtain ⟨hcount, hsent⟩ := free_phase hg
    have hrec : s.recovered.phase g = s.phase g := Phase.recovered_of_free hg
    refine ih.move (p := .idle) (d := s.done) (ih.outside hmu g) rfl (fun _ e => nomatch e) ?_ ?_
    · rw [hrec, hcount]
      rfl
    · rw [hrec, hsent]
      rfl
  | @recover s g key _ hg ih =>
    have hsame : (s.goto g .idle).recovered = s.recovered := by
      rw [State.recovered_goto]
      have hidle : s.recovered.phase g = .idle := by
        show (s.phase g).recovered = .idle
        rw [hg]
        rfl
      show { s.recovered with phase := update s.recovered.phase g .idle } = s.recovered
      rw [← hidle, Function.update_eq_self]
    rw [hsame]
    exact ih

/-- A step moves one goroutine, which has not panicked. -/
theorem Step.moves (hstep : Step s s') :
    s'.phase = s.phase ∨
      ∃ g p, (∀ key, s.phase g ≠ .panicked key) ∧ s'.phase = update s.phase g p := by
  have hfree : ∀ {g}, (s.phase g).free = true → ∀ key, s.phase g ≠ .panicked key := by
    intro g hg key e
    rw [e] at hg
    exact nomatch hg
  have hat : ∀ {g p}, s.phase g = p → (∀ key, p ≠ .panicked key) →
      ∀ key, s.phase g ≠ .panicked key := by
    intro g p hg hp
    rw [hg]
    exact hp
  cases hstep with
  | call g key d hg => exact .inr ⟨g, _, hfree hg, rfl⟩
  | ctxDone g => exact .inl rfl
  | @lock g key hg hmu =>
    have hmove : ∃ p, (s.lockSection g key).phase = update s.phase g p := by
      unfold State.lockSection State.findOrCreate
      split
      · exact ⟨_, rfl⟩
      · cases s.locks key with
        | none => exact ⟨_, rfl⟩
        | some r => exact ⟨_, rfl⟩
    obtain ⟨p, hp⟩ := hmove
    exact .inr ⟨g, p, hat hg (by simp), hp⟩
  | send hg hch => exact .inr ⟨_, _, hat hg (by simp), rfl⟩
  | dec hg => exact .inr ⟨_, _, hat hg (by simp), rfl⟩
  | cancel hg hdone => exact .inr ⟨_, _, hat hg (by simp), rfl⟩
  | @abort g key r hg hmu =>
    have hmove : ∃ p, (s.abortDec g key r).phase = update s.phase g p := by
      unfold State.abortDec
      by_cases hzero : (s.lwcs r).dec.count = 0
      · exact ⟨_, by simp only [hzero, if_true]; rfl⟩
      · exact ⟨_, by simp only [hzero, if_false]; rfl⟩
    obtain ⟨p, hp⟩ := hmove
    exact .inr ⟨g, p, hat hg (by simp), hp⟩
  | @check g key r hg =>
    refine .inr ⟨g, .failed key, hat hg (by simp), ?_⟩
    unfold State.abortCheck
    split <;> rfl
  | @unlock g key hg hkey hmu =>
    have hmove : ∃ p, (s.unlockCount g key).phase = update s.phase g p := by
      unfold State.unlockCount
      cases s.locks key with
      | none => exact ⟨_, rfl⟩
      | some r =>
        refine ⟨.receiving key r, ?_⟩
        by_cases hzero : (s.lwcs r).count = 0
        · simp only [hzero, if_true]
          rfl
        · simp only [hzero, if_false]
          rfl
    obtain ⟨p, hp⟩ := hmove
    exact .inr ⟨g, p, hfree hg, hp⟩
  | recv hg hch => exact .inr ⟨_, _, hat hg (by simp), rfl⟩

/-- A goroutine that panicked takes no step. -/
theorem Step.panicked (hstep : Step s s') (hg : s.phase g = .panicked key) :
    s'.phase g = .panicked key := by
  obtain hsame | ⟨g', p, hcalm, hmove⟩ := hstep.moves
  · rw [hsame, hg]
  · have hne : g ≠ g' := by
      intro e
      exact hcalm key (e ▸ hg)
    rw [hmove, Function.update_of_ne hne, hg]

theorem panicked_run (hrun : ReflTransGen Step s s') (hg : s.phase g = .panicked key) :
    s'.phase g = .panicked key := by
  induction hrun with
  | refl => exact hg
  | tail _ hstep ih => exact hstep.panicked ih

/-- In a run where every extra `Unlock` came when nobody was in `Lock` for its key,
the next one for a key nobody holds is rejected iff that is so again. -/
theorem extra_unlock_rejected (hs : Misused (fun s key => ¬ s.Awaited key) s)
    (hheld : ∀ g', key ∉ s.held g') (hmu : s.mu = none) :
    Rejected s g key ↔ ¬ s.Awaited key := by
  constructor
  · intro hrej hwait
    obtain ⟨g', r, hc⟩ := hwait
    have hr : s.locks key = some r := by
      refine hs.inv.entry (g := g') ?_
      show (s.phase g').recovered.counted = _
      rw [← hc]
      cases s.phase g' <;> rfl
    have hpan := hrej.panics
    simp only [State.unlockCount, hr, State.goto, Function.update_self] at hpan
    cases hpan
  · intro hwait
    have hstep := unlockCount_no_entry (g := g) (no_entry hs.inv hheld hmu hwait)
    have hpan : (s.unlockCount g key).phase g = .panicked key := by
      rw [hstep]
      exact Function.update_self ..
    refine ⟨hpan, by rw [hstep]; rfl, ?_, ?_⟩
    · rintro ⟨-, r, hrecv, -⟩
      rw [hpan] at hrecv
      cases hrecv
    · rintro ⟨t, r, g', hrun, hrecv, -⟩
      rw [panicked_run hrun hpan] at hrecv
      cases hrecv

/-- After a lock and its unlock, twice unlocked again: both extra calls panic. -/
theorem extra_unlock_rejected_twice : ∃ s : State Bool String,
    Misused (fun s key => ¬ s.Awaited key) s ∧ s.phase true = .panicked "lan" ∧
    Rejected s false "lan" := by
  have h₀ : Misused (fun s key => ¬ s.Awaited key) (.init : State Bool String) := .init
  have h₁ := h₀.step (.call true "lan" false rfl)
  have h₂ := h₁.step (.lock (g := true) rfl rfl)
  have h₃ := h₂.step (.send (g := true) rfl rfl)
  have h₄ := h₃.step (.dec (g := true) rfl)
  have h₅ := h₄.step (.unlock (g := true) rfl (List.mem_singleton_self "lan") rfl)
  have h₆ := h₅.step (.recv (g := true) rfl rfl)
  have h₇ := h₆.extra true "lan" rfl (by decide) rfl (by
    rintro ⟨_ | _, r, hc⟩ <;> exact nomatch hc)
  refine ⟨_, h₇, rfl, (extra_unlock_rejected h₇ (by decide) rfl).mpr ?_⟩
  rintro ⟨_ | _, r, hc⟩ <;> exact nomatch hc

/-- Two goroutines that keep to the contract: one unlocks while the other waits.
Before the other goes on, nobody owns the key; an `Unlock` called there blocks with the
mutex, and takes the other's value as soon as the other has sent it. -/
theorem extra_unlock_accepted : ∃ s : State Bool String, Reachable s ∧
    (∀ g, ¬ s.Owns g "lan") ∧ (s.phase true).free = true ∧ s.mu = none ∧
    (s.unlockCount true "lan").Blocks true "lan" ∧ Releases s true "lan" ∧
    ¬ Rejected s true "lan" := by
  have h₁ := Reachable.init.step (.call (G := Bool) true "lan" false rfl)
  have h₂ := h₁.step (.lock (g := true) rfl rfl)
  have h₃ := h₂.step (.send (g := true) rfl rfl)
  have h₄ := h₃.step (.dec (g := true) rfl)
  have h₅ := h₄.step (.call false "lan" false rfl)
  have h₆ := h₅.step (.lock (g := false) rfl rfl)
  have h₇ := h₆.step (.unlock (g := true) rfl (List.mem_singleton_self "lan") rfl)
  have h₈ := h₇.step (.recv (g := true) rfl rfl)
  refine ⟨_, h₈, ?_, rfl, rfl, ⟨rfl, 0, rfl, rfl⟩, ?_, ?_⟩
  · rintro (_ | _) (ho | ho) <;> exact nomatch ho
  · exact ⟨_, 0, false, .single (.send (g := false) rfl rfl), rfl, rfl, by decide, .inl rfl⟩
  · intro hrej
    exact nomatch hrej.panics

end Capic.Locker
