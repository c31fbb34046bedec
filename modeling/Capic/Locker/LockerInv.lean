import Mathlib.Data.Finset.Card
import Mathlib.Data.Finset.Insert
import Capic.Locker.Locker

/-!
# The locker's invariant

`Inv` is what holds between any two steps. Its core is the `tally`: the counter
of a lock in the map is exactly the number of goroutines that are in `Lock` for
it between the increment and a decrement. Everything else hangs on it. An entry
is deleted only when the counter says nobody is on the way to it, so whoever is
counted still finds its lock in the map (`entry`), so all of them compete for one
channel and at most one wins it (`unique`), so the holder's `Unlock` finds that
channel full (`full`). Conversely an entry nobody is counted at has a full
channel (`live`), and a full channel has an owner (`used`), who will delete it.

Two goroutines may be in the middle of a mutex section, where the entry and the
counter are out of step for a moment: `check` and `recv` say what is known there.

One lemma per step. Steps outside the mutex that leave the channels and the
ownership alone share `Inv.quiet`.
-/

namespace Capic.Locker

open Function (update)

variable {G K : Type}

/-- `S` is the set of goroutines counted at the lock `r` of `key`. -/
def CountedAt (ph : G → Phase K) (key : K) (r : Nat) (S : Finset G) : Prop :=
  ∀ g, g ∈ S ↔ (ph g).counted = some (key, r)

/-- The state between two steps (module doc). -/
structure Inv (s : State G K) : Prop where
  mutex : ∀ g, s.mu = some g ↔ (s.phase g).inMutex = true
  calm : ∀ g key, s.phase g ≠ .panicked key
  below : ∀ {key r}, s.locks key = some r → r < s.fresh
  inj : ∀ {key key' r}, s.locks key = some r → s.locks key' = some r → key = key'
  entry : ∀ {g key r}, (s.phase g).counted = some (key, r) → s.locks key = some r
  tally : ∀ {key r}, s.locks key = some r →
    ∃ S : Finset G, CountedAt s.phase key r S ∧ (s.lwcs r).waiters = S.card
  full : ∀ {g key}, s.Owns g key →
    ∃ r, (s.lwcs r).ch = true ∧ (s.locks key = some r ∨ s.phase g = .receiving key r)
  unique : ∀ {g g' key}, s.Owns g key → s.Owns g' key → g = g'
  nodup : ∀ g, (s.held g).Nodup
  once : ∀ {g key}, (s.phase g).sent = some key → key ∉ s.held g
  used : ∀ {key r}, s.locks key = some r → (s.lwcs r).ch = true → ∃ g, s.Owns g key
  check : ∀ {g key r}, s.phase g = .checking key r →
    s.locks key = some r ∧ (s.lwcs r).waiters = 0
  recv : ∀ {g key r}, s.phase g = .receiving key r → key ∈ s.held g ∧ (s.lwcs r).ch = true ∧
    (∀ r', s.locks key = some r' → r' = r ∧ 0 < (s.lwcs r).waiters) ∧
    (∀ key', s.locks key' = some r → key' = key)
  live : ∀ {key r}, s.locks key = some r → (s.lwcs r).ch = false →
    0 < (s.lwcs r).waiters ∨ ∃ g, s.phase g = .checking key r

theorem Inv.init : Inv (State.init : State G K) where
  mutex := fun _ => ⟨(fun h => nomatch h), (fun h => nomatch h)⟩
  calm := fun _ _ h => nomatch h
  below := fun h => nomatch h
  inj := fun h => nomatch h
  entry := fun h => nomatch h
  tally := fun h => nomatch h
  full := fun h => h.elim (fun h => nomatch h) (fun h => nomatch h)
  unique := fun h => h.elim (fun h => nomatch h) (fun h => nomatch h)
  nodup := fun _ => List.nodup_nil
  once := fun h => nomatch h
  used := fun h => nomatch h
  check := fun h => nomatch h
  recv := fun h => nomatch h
  live := fun h => nomatch h

theorem free_phase {ph : Phase K} (h : ph.free = true) : ph.counted = none ∧ ph.sent = none := by
  cases ph with
  | idle | failed key => exact ⟨rfl, rfl⟩
  | _ => exact nomatch h

namespace Inv

variable {s : State G K} (h : Inv s)
include h

/-- With the mutex free, nobody is inside a section. -/
theorem outside (hmu : s.mu = none) (g : G) : (s.phase g).inMutex = false := by
  have := h.mutex g
  rw [hmu] at this
  simpa using this

theorem not_checking (hmu : s.mu = none) {g : G} {key : K} {r : Nat} :
    s.phase g ≠ .checking key r := fun e => by
  have hout := h.outside hmu g
  rw [e] at hout
  exact absurd hout (by simp [Phase.inMutex])

theorem not_receiving (hmu : s.mu = none) {g : G} {key : K} {r : Nat} :
    s.phase g ≠ .receiving key r := fun e => by
  have hout := h.outside hmu g
  rw [e] at hout
  exact absurd hout (by simp [Phase.inMutex])

/-- Whoever owns a key has filled the channel that is in the map for it. -/
theorem full_at {g : G} {key : K} {r : Nat} (ho : s.Owns g key) (hr : s.locks key = some r) :
    (s.lwcs r).ch = true := by
  obtain ⟨r', hf, hr' | hr'⟩ := h.full ho
  · rw [Option.some.inj (hr.symm.trans hr')]
    exact hf
  · rw [((h.recv hr').2.2.1 r hr).1]
    exact hf

/-- A counted goroutine keeps its counter above zero. -/
theorem waiters_pos {g : G} {key : K} {r : Nat} (hg : (s.phase g).counted = some (key, r)) :
    0 < (s.lwcs r).waiters := by
  obtain ⟨S, hS, hw⟩ := h.tally (h.entry hg)
  have := Finset.card_pos.mpr ⟨g, (hS g).mpr hg⟩
  omega

/-- Only a counter at zero allows an entry to go. -/
theorem not_counted {g : G} {key : K} {r r' : Nat} (hr : s.locks key = some r)
    (hw : (s.lwcs r).waiters = 0) : (s.phase g).counted ≠ some (key, r') := by
  intro hc
  obtain rfl := Option.some.inj (hr.symm.trans (h.entry hc))
  have := h.waiters_pos hc
  omega

end Inv

variable [DecidableEq G]

/-! ## One goroutine moving -/

section Moving

variable {ph : G → Phase K} {g : G} {p : Phase K}

/-- Whose phase is it that looks so after the move? -/
theorem move_cases {β : Type} (f : Phase K → β) {g' : G} {y : β} (e : f (update ph g p g') = y) :
    (g' = g ∧ f p = y) ∨ (g' ≠ g ∧ f (ph g') = y) := by
  by_cases hg : g' = g
  · subst hg
    rw [Function.update_self] at e
    exact Or.inl ⟨rfl, e⟩
  · rw [Function.update_of_ne hg] at e
    exact Or.inr ⟨hg, e⟩

/-- What the move keeps of the moving goroutine it keeps of all. -/
theorem move_same {β : Type} {f : Phase K → β} (h : f p = f (ph g)) (g' : G) :
    f (update ph g p g') = f (ph g') := by
  by_cases hg : g' = g
  · subst hg
    rw [Function.update_self]
    exact h
  · rw [Function.update_of_ne hg]

/-- A move outside the mutex is not seen from inside. -/
theorem move_inside (hg : (ph g).inMutex = false) (hp : p.inMutex = false) {q : Phase K}
    (hq : q.inMutex = true) (g' : G) : update ph g p g' = q ↔ ph g' = q := by
  by_cases hg' : g' = g
  · subst hg'
    rw [Function.update_self]
    refine ⟨fun e => ?_, fun e => ?_⟩
    · rw [e, hq] at hp
      exact absurd hp (by simp)
    · rw [e, hq] at hg
      exact absurd hg (by simp)
  · rw [Function.update_of_ne hg']

end Moving

/-- A goroutine that moves on without sending, and keeps its keys. -/
theorem owns_move {s s' : State G K} {g : G} {p : Phase K} (hheld : s'.held = s.held)
    (hphase : s'.phase = update s.phase g p) (hsent : p.sent = (s.phase g).sent) (g' : G) (key : K) :
    s'.Owns g' key ↔ s.Owns g' key := by
  unfold State.Owns
  rw [hheld, hphase]
  by_cases hg : g' = g
  · rw [hg, Function.update_self, hsent]
  · rw [Function.update_of_ne hg]

/-- Steps that change no channel. -/
theorem ch_update {lwcs : Nat → LockWithCounter} {r : Nat} {l : LockWithCounter}
    (hl : l.ch = (lwcs r).ch) (r' : Nat) : (update lwcs r l r').ch = (lwcs r').ch := by
  by_cases hr : r' = r
  · subst hr
    rw [Function.update_self]
    exact hl
  · rw [Function.update_of_ne hr]

/-! ## Counting goroutines

How the set counted at a lock changes when one goroutine moves. -/

section Counting

variable {ph : G → Phase K} {key : K} {r : Nat} {S : Finset G} {g : G} {p : Phase K}

theorem CountedAt.same (hS : CountedAt ph key r S)
    (h : p.counted = some (key, r) ↔ (ph g).counted = some (key, r)) :
    CountedAt (update ph g p) key r S := by
  intro g'
  by_cases hg : g' = g
  · subst hg
    rw [Function.update_self]
    exact (hS g').trans h.symm
  · rw [Function.update_of_ne hg]
    exact hS g'

theorem CountedAt.join (hS : CountedAt ph key r S) (h : p.counted = some (key, r)) :
    CountedAt (update ph g p) key r (insert g S) := by
  intro g'
  by_cases hg : g' = g
  · subst hg
    rw [Function.update_self]
    exact ⟨fun _ => h, fun _ => Finset.mem_insert_self g' S⟩
  · rw [Function.update_of_ne hg, Finset.mem_insert]
    exact ⟨fun hm => (hS g').mp (hm.resolve_left hg), fun hm => Or.inr ((hS g').mpr hm)⟩

theorem CountedAt.leave (hS : CountedAt ph key r S) (h : p.counted ≠ some (key, r)) :
    CountedAt (update ph g p) key r (S.erase g) := by
  intro g'
  by_cases hg : g' = g
  · subst hg
    rw [Function.update_self]
    exact ⟨fun hm => absurd hm (Finset.notMem_erase g' S), fun hm => absurd hm h⟩
  · rw [Function.update_of_ne hg, Finset.mem_erase]
    exact ⟨fun hm => (hS g').mp hm.2, fun hm => ⟨hg, (hS g').mpr hm⟩⟩

end Counting

namespace Inv

variable {s : State G K} (h : Inv s) {g : G} {key : K} {r : Nat} {p : Phase K}
include h

theorem tally_same (hp : p.counted = (s.phase g).counted) {key' : K} {r' : Nat}
    (hk : s.locks key' = some r') :
    ∃ S : Finset G, CountedAt (update s.phase g p) key' r' S ∧
      (s.lwcs r').waiters = S.card := by
  obtain ⟨S, hS, hw⟩ := h.tally hk
  exact ⟨S, hS.same (by rw [hp]), hw⟩

theorem tally_join (hg : (s.phase g).counted = none) (hr : s.locks key = some r) {key' : K}
    {r' : Nat} (hk : s.locks key' = some r') :
    ∃ S : Finset G, CountedAt (update s.phase g (.selecting key r)) key' r' S ∧
      (update s.lwcs r (s.lwcs r).inc r').waiters = S.card := by
  obtain ⟨S, hS, hw⟩ := h.tally hk
  by_cases hr' : r' = r
  · subst hr'
    obtain rfl := h.inj hr hk
    have hgS : g ∉ S := fun hm => by
      rw [(hS g).mp hm] at hg
      exact absurd hg (by simp)
    refine ⟨insert g S, hS.join rfl, ?_⟩
    rw [Function.update_self, Finset.card_insert_of_notMem hgS]
    show (s.lwcs r').waiters + 1 = _
    omega
  · refine ⟨S, hS.same ?_, by rw [Function.update_of_ne hr']; exact hw⟩
    rw [hg]
    simp only [Phase.counted, Option.some.injEq, Prod.mk.injEq, reduceCtorEq, iff_false]
    exact fun e => hr' e.2.symm

theorem tally_leave (hg : (s.phase g).counted = some (key, r)) (hp : p.counted = none) {key' : K}
    {r' : Nat} (hk : s.locks key' = some r') :
    ∃ S : Finset G, CountedAt (update s.phase g p) key' r' S ∧
      (update s.lwcs r (s.lwcs r).dec r').waiters = S.card := by
  obtain ⟨S, hS, hw⟩ := h.tally hk
  by_cases hr' : r' = r
  · subst hr'
    obtain rfl := h.inj (h.entry hg) hk
    refine ⟨S.erase g, hS.leave (by rw [hp]; simp), ?_⟩
    have hcard := Finset.card_erase_add_one ((hS g).mpr hg)
    rw [Function.update_self]
    show (s.lwcs r').waiters - 1 = _
    omega
  · refine ⟨S, hS.same ?_, by rw [Function.update_of_ne hr']; exact hw⟩
    rw [hp, hg]
    simp only [reduceCtorEq, Option.some.injEq, Prod.mk.injEq, false_iff]
    exact fun e => hr' e.2.symm

theorem calm_move (hp : ∀ key, p ≠ .panicked key) (g' : G) (key' : K) :
    update s.phase g p g' ≠ .panicked key' := fun e => by
  rcases move_cases id e with ⟨_, e⟩ | ⟨_, e⟩
  · exact hp key' e
  · exact h.calm g' key' e

theorem entry_move (hp : p.counted = none) {g' : G} {key' : K} {r' : Nat}
    (e : (update s.phase g p g').counted = some (key', r')) : s.locks key' = some r' := by
  rcases move_cases Phase.counted e with ⟨_, e⟩ | ⟨_, e⟩
  · rw [hp] at e
    exact nomatch e
  · exact h.entry e

theorem once_move (hp : p.sent = none) {g' : G} {key' : K}
    (e : (update s.phase g p g').sent = some key') : key' ∉ s.held g' := by
  rcases move_cases Phase.sent e with ⟨_, e⟩ | ⟨_, e⟩
  · rw [hp] at e
    exact nomatch e
  · exact h.once e

/-! ## Into the mutex and out of it -/

theorem mutex_enter (hmu : s.mu = none) (hp : p.inMutex = true) (g' : G) :
    some g = some g' ↔ (update s.phase g p g').inMutex = true := by
  by_cases hg : g' = g
  · subst hg
    rw [Function.update_self]
    exact ⟨fun _ => hp, fun _ => rfl⟩
  · rw [Function.update_of_ne hg, h.outside hmu g']
    exact ⟨fun e => absurd (Option.some.inj e).symm hg, fun e => nomatch e⟩

theorem mutex_leave (hmu : s.mu = some g) (hp : p.inMutex = false) (g' : G) :
    none = some g' ↔ (update s.phase g p g').inMutex = true := by
  refine ⟨fun e => (nomatch e), fun e => ?_⟩
  rcases move_cases Phase.inMutex e with ⟨_, e⟩ | ⟨hne, e⟩
  · rw [hp] at e
    exact nomatch e
  · exact absurd (Option.some.inj (hmu.symm.trans ((h.mutex g').mpr e))).symm hne

/-- Who is inside after `g` got in. -/
theorem inside_enter (hmu : s.mu = none) {q : Phase K} (hq : q.inMutex = true) {g' : G}
    (e : update s.phase g p g' = q) : g' = g ∧ p = q := by
  rcases move_cases id e with he | ⟨_, e⟩
  · exact he
  · have hout := h.outside hmu g'
    rw [show s.phase g' = q from e, hq] at hout
    exact absurd hout (by simp)

/-- Nobody is inside after `g` got out. -/
theorem inside_leave (hmu : s.mu = some g) (hp : p.inMutex = false) {q : Phase K}
    (hq : q.inMutex = true) {g' : G} : update s.phase g p g' ≠ q := fun e => by
  have hin := (h.mutex_leave hmu hp g').mpr (by rw [e]; exact hq)
  exact nomatch hin

/-! ## Steps outside the mutex -/

/-- A goroutine outside the mutex moves on, and its counter may change, but no
channel and nobody's ownership does. -/
theorem quiet {s' : State G K} (hg : (s.phase g).inMutex = false) (hp : p.inMutex = false)
    (hcalm : ∀ key, p ≠ .panicked key) (hphase : s'.phase = update s.phase g p)
    (hmu : s'.mu = s.mu) (hlocks : s'.locks = s.locks) (hfresh : s'.fresh = s.fresh)
    (hown : ∀ g' key, s'.Owns g' key ↔ s.Owns g' key)
    (hheld : ∀ {g' key}, key ∈ s.held g' → key ∈ s'.held g')
    (hnodup : ∀ g', (s'.held g').Nodup)
    (honce : ∀ {g' key}, (s'.phase g').sent = some key → key ∉ s'.held g')
    (hch : ∀ r, (s'.lwcs r).ch = (s.lwcs r).ch)
    (hentry : ∀ {key r}, p.counted = some (key, r) → s.locks key = some r)
    (htally : ∀ {key r}, s.locks key = some r →
      ∃ S : Finset G, CountedAt s'.phase key r S ∧ (s'.lwcs r).waiters = S.card)
    (hinside : ∀ {g' key r}, s.phase g' = .checking key r ∨
      (s.phase g' = .receiving key r ∧ s.locks key = some r) →
      (s'.lwcs r).waiters = (s.lwcs r).waiters)
    (hlive : ∀ {key r}, s.locks key = some r → (s.lwcs r).ch = false →
      0 < (s.lwcs r).waiters → 0 < (s'.lwcs r).waiters) : Inv s' := by
  have hin : ∀ {q : Phase K}, q.inMutex = true → ∀ g', s'.phase g' = q ↔ s.phase g' = q := by
    intro q hq g'
    rw [hphase]
    exact move_inside hg hp hq g'
  exact
    { mutex := fun g' => by
        rw [hmu, h.mutex g', hphase, move_same (hp.trans hg.symm)]
      calm := by
        rw [hphase]
        exact h.calm_move hcalm
      below := fun hk => by
        rw [hlocks] at hk
        rw [hfresh]
        exact h.below hk
      inj := fun hk hk' => by
        rw [hlocks] at hk hk'
        exact h.inj hk hk'
      entry := fun {g' key r} hk => by
        rw [hphase] at hk
        rw [hlocks]
        rcases move_cases Phase.counted hk with ⟨_, e⟩ | ⟨_, e⟩
        · exact hentry e
        · exact h.entry e
      tally := fun hk => by
        rw [hlocks] at hk
        exact htally hk
      full := fun {g' key} ho => by
        obtain ⟨r, hf, hr⟩ := h.full ((hown g' key).mp ho)
        refine ⟨r, (hch r).trans hf, ?_⟩
        rw [hlocks]
        exact hr.imp_right (hin rfl g').mpr
      unique := fun h₁ h₂ => h.unique ((hown _ _).mp h₁) ((hown _ _).mp h₂)
      nodup := hnodup
      once := honce
      used := fun {key r} hk hf => by
        rw [hlocks] at hk
        obtain ⟨g', ho⟩ := h.used hk ((hch r).symm.trans hf)
        exact ⟨g', (hown _ _).mpr ho⟩
      check := fun {g' key r} hk => by
        have hk := (hin rfl g').mp hk
        rw [hlocks, hinside (Or.inl hk)]
        exact h.check hk
      recv := fun {g' key r} hk => by
        have hk := (hin rfl g').mp hk
        obtain ⟨hmem, hf, hstay, honly⟩ := h.recv hk
        rw [hlocks]
        refine ⟨hheld hmem, (hch r).trans hf, fun r' hr' => ?_, honly⟩
        obtain ⟨rfl, hpos⟩ := hstay r' hr'
        exact ⟨rfl, by rw [hinside (Or.inr ⟨hk, hr'⟩)]; exact hpos⟩
      live := fun {key r} hk hf => by
        rw [hlocks] at hk
        have hf := (hch r).symm.trans hf
        rcases h.live hk hf with hpos | ⟨g', hg'⟩
        · exact Or.inl (hlive hk hf hpos)
        · exact Or.inr ⟨g', (hin rfl g').mpr hg'⟩ }

/-- `quiet` for a step that moves no keys either. -/
theorem quiet_sent {s' : State G K} (hg : (s.phase g).inMutex = false) (hp : p.inMutex = false)
    (hcalm : ∀ key, p ≠ .panicked key) (hsent : p.sent = (s.phase g).sent)
    (hphase : s'.phase = update s.phase g p) (hheld : s'.held = s.held)
    (hmu : s'.mu = s.mu) (hlocks : s'.locks = s.locks) (hfresh : s'.fresh = s.fresh)
    (hch : ∀ r, (s'.lwcs r).ch = (s.lwcs r).ch)
    (hentry : ∀ {key r}, p.counted = some (key, r) → s.locks key = some r)
    (htally : ∀ {key r}, s.locks key = some r →
      ∃ S : Finset G, CountedAt s'.phase key r S ∧ (s'.lwcs r).waiters = S.card)
    (hinside : ∀ {g' key r}, s.phase g' = .checking key r ∨
      (s.phase g' = .receiving key r ∧ s.locks key = some r) →
      (s'.lwcs r).waiters = (s.lwcs r).waiters)
    (hlive : ∀ {key r}, s.locks key = some r → (s.lwcs r).ch = false →
      0 < (s.lwcs r).waiters → 0 < (s'.lwcs r).waiters) : Inv s' := by
  have hs : ∀ g', (s'.phase g').sent = (s.phase g').sent := by
    rw [hphase]
    exact move_same hsent
  refine h.quiet hg hp hcalm hphase hmu hlocks hfresh (owns_move hheld hphase hsent) (fun hm => ?_)
    (fun g' => ?_) (fun {g' key} hk => ?_) hch hentry htally hinside hlive
  · rw [hheld]
    exact hm
  · rw [hheld]
    exact h.nodup g'
  · rw [hs g'] at hk
    rw [hheld]
    exact h.once hk

/-- A goroutine that only moves on. -/
theorem move (hg : (s.phase g).inMutex = false) (hp : p.inMutex = false)
    (hcalm : ∀ key, p ≠ .panicked key) (hcount : p.counted = (s.phase g).counted)
    (hsent : p.sent = (s.phase g).sent) {d : G → Bool} : Inv { s.goto g p with done := d } :=
  h.quiet_sent hg hp hcalm hsent rfl rfl rfl rfl rfl (fun _ => rfl)
    (fun e => h.entry (hcount.symm.trans e)) (h.tally_same hcount) (fun _ => rfl)
    (fun _ _ hpos => hpos)

/-- Joining the waiters of a lock that is in the map. -/
theorem join (hg : s.phase g = .entering key) (hmu : s.mu = none) (hr : s.locks key = some r) :
    Inv ((s.setLwc r (s.lwcs r).inc).goto g (.selecting key r)) := by
  refine h.quiet_sent (g := g) (p := .selecting key r) (h.outside hmu g) rfl (fun _ e => nomatch e)
    (by rw [hg]; rfl) rfl rfl rfl rfl rfl (ch_update rfl) (fun e => ?_)
    (h.tally_join (by rw [hg]; rfl) hr) ?_ ?_
  · obtain ⟨rfl, rfl⟩ := Prod.mk.inj (Option.some.inj e)
    exact hr
  · rintro g' key' r' (hk | ⟨hk, _⟩)
    · exact absurd hk (h.not_checking hmu)
    · exact absurd hk (h.not_receiving hmu)
  · intro key' r' _ _ hpos
    show 0 < (update s.lwcs r (s.lwcs r).inc r').waiters
    by_cases hr' : r' = r
    · subst hr'
      rw [Function.update_self]
      show 0 < (s.lwcs r').waiters + 1
      omega
    · rw [Function.update_of_ne hr']
      exact hpos

/-- `Lock` returns `nil`: the channel the goroutine filled is now a key it holds. -/
theorem dec (hg : s.phase g = .acquired key r) :
    Inv { (s.setLwc r (s.lwcs r).dec).goto g .idle with
      held := update s.held g (key :: s.held g) } := by
  have hcount : (s.phase g).counted = some (key, r) := by rw [hg]; rfl
  have hsent : (s.phase g).sent = some key := by rw [hg]; rfl
  have hr : s.locks key = some r := h.entry hcount
  have hfull : (s.lwcs r).ch = true := h.full_at (Or.inl hsent) hr
  refine h.quiet (g := g) (p := .idle) (by rw [hg]; rfl) rfl (fun _ e => nomatch e) rfl rfl rfl rfl
    (fun g' key' => ?_) (fun {g' key'} hm => ?_) (fun g' => ?_) (fun {g' key'} hk => ?_)
    (ch_update rfl) (fun e => nomatch e) (h.tally_leave hcount rfl) ?_ ?_
  · show (update s.phase g .idle g').sent = some key' ∨
      key' ∈ update s.held g (key :: s.held g) g' ↔ _
    by_cases hg' : g' = g
    · subst hg'
      rw [Function.update_self, Function.update_self, List.mem_cons, State.Owns, hsent]
      simp only [Phase.sent, reduceCtorEq, false_or, Option.some.injEq, eq_comm]
    · rw [Function.update_of_ne hg', Function.update_of_ne hg']
      exact Iff.rfl
  · show key' ∈ update s.held g (key :: s.held g) g'
    by_cases hg' : g' = g
    · subst hg'
      rw [Function.update_self]
      exact List.mem_cons_of_mem _ hm
    · rw [Function.update_of_ne hg']
      exact hm
  · show (update s.held g (key :: s.held g) g').Nodup
    by_cases hg' : g' = g
    · subst hg'
      rw [Function.update_self]
      exact List.nodup_cons.mpr ⟨h.once hsent, h.nodup g'⟩
    · rw [Function.update_of_ne hg']
      exact h.nodup g'
  · show key' ∉ update s.held g (key :: s.held g) g'
    rcases move_cases Phase.sent hk with ⟨_, e⟩ | ⟨hne, e⟩
    · exact nomatch e
    · rw [Function.update_of_ne hne]
      exact h.once e
  · -- a goroutine inside the mutex is there for another lock
    intro g' key' r' hk
    show (update s.lwcs r (s.lwcs r).dec r').waiters = _
    by_cases hr' : r' = r
    · subst hr'
      rcases hk with hk | ⟨hk, hr'⟩
      · have hpos := h.waiters_pos hcount
        have hzero := (h.check hk).2
        omega
      · obtain rfl := h.inj hr hr'
        have hsame := h.unique (Or.inr (h.recv hk).1) (Or.inl hsent)
        rw [hsame, hg] at hk
        exact nomatch hk
    · rw [Function.update_of_ne hr']
  · intro key' r' _ hf hpos
    show 0 < (update s.lwcs r (s.lwcs r).dec r').waiters
    have hr' : r' ≠ r := fun e => by
      rw [e, hfull] at hf
      exact absurd hf (by simp)
    rw [Function.update_of_ne hr']
    exact hpos

/-- Winning the channel: it was empty, so nobody owned the key. -/
theorem send (hg : s.phase g = .selecting key r) (hfree : (s.lwcs r).ch = false) :
    Inv ((s.setLwc r (s.lwcs r).send).goto g (.acquired key r)) := by
  have hr : s.locks key = some r := h.entry (g := g) (by rw [hg]; rfl)
  have hnone : ∀ {g'}, ¬ s.Owns g' key := fun ho => by
    rw [h.full_at ho hr] at hfree
    exact absurd hfree (by simp)
  have hout : (s.phase g).inMutex = false := by rw [hg]; rfl
  have hin : ∀ {q : Phase K}, q.inMutex = true → ∀ g',
      update s.phase g (.acquired key r) g' = q ↔ s.phase g' = q := move_inside hout rfl
  have hw : ∀ r', (update s.lwcs r (s.lwcs r).send r').waiters = (s.lwcs r').waiters := by
    intro r'
    by_cases hr' : r' = r
    · subst hr'; rw [Function.update_self]; rfl
    · rw [Function.update_of_ne hr']
  have hkeep : ∀ {r'}, (s.lwcs r').ch = true → (update s.lwcs r (s.lwcs r).send r').ch = true := by
    intro r' hf
    have hr' : r' ≠ r := fun e => by
      rw [e, hfree] at hf
      exact absurd hf (by simp)
    rw [Function.update_of_ne hr']
    exact hf
  have hown : ∀ {g' key'}, ((s.setLwc r (s.lwcs r).send).goto g (.acquired key r)).Owns g' key' →
      (g' = g ∧ key' = key) ∨ s.Owns g' key' := by
    intro g' key' ho
    rcases ho with ho | ho
    · rcases move_cases Phase.sent ho with ⟨hg', e⟩ | ⟨_, e⟩
      · exact Or.inl ⟨hg', (Option.some.inj e).symm⟩
      · exact Or.inr (Or.inl e)
    · exact Or.inr (Or.inr ho)
  exact
    { mutex := fun g' => (h.mutex g').trans (by
        show _ ↔ (update s.phase g _ g').inMutex = true
        rw [move_same (f := Phase.inMutex) (p := .acquired key r) (by rw [hg]; rfl)])
      calm := h.calm_move fun _ e => nomatch e
      below := h.below
      inj := h.inj
      entry := fun {g' _ _} hk =>
        h.entry ((move_same (f := Phase.counted) (by rw [hg]; rfl) g').symm.trans hk)
      tally := fun {key' r'} hk => by
        show ∃ S, CountedAt _ _ _ S ∧ (update s.lwcs r (s.lwcs r).send r').waiters = _
        rw [hw r']
        exact h.tally_same (by rw [hg]; rfl) hk
      full := fun {g' key'} ho => by
        rcases hown ho with ⟨rfl, rfl⟩ | ho
        · refine ⟨r, ?_, Or.inl hr⟩
          show (update s.lwcs r (s.lwcs r).send r).ch = true
          rw [Function.update_self]
          rfl
        · obtain ⟨r', hf, hr'⟩ := h.full ho
          exact ⟨r', hkeep hf, hr'.imp_right (hin rfl g').mpr⟩
      unique := fun {g₁ g₂ key'} h₁ h₂ => by
        rcases hown h₁ with ⟨rfl, rfl⟩ | ho₁
        · rcases hown h₂ with ⟨rfl, _⟩ | ho₂
          · rfl
          · exact absurd ho₂ hnone
        · rcases hown h₂ with ⟨rfl, rfl⟩ | ho₂
          · exact absurd ho₁ hnone
          · exact h.unique ho₁ ho₂
      nodup := h.nodup
      once := fun {g' key'} hk hmem => by
        rcases move_cases Phase.sent hk with ⟨_, e⟩ | ⟨_, e⟩
        · obtain rfl := Option.some.inj e
          exact hnone (Or.inr hmem)
        · exact h.once e hmem
      used := fun {key' r'} hk hf => by
        by_cases hr' : r' = r
        · subst hr'
          obtain rfl := h.inj hr hk
          refine ⟨g, Or.inl ?_⟩
          show (update s.phase g (.acquired key r') g).sent = some key
          rw [Function.update_self]
          rfl
        · change (update s.lwcs r _ r').ch = true at hf
          rw [Function.update_of_ne hr'] at hf
          obtain ⟨g', ho⟩ := h.used hk hf
          refine ⟨g', ho.imp_left fun hs => ?_⟩
          show (update s.phase g (.acquired key r) g').sent = some key'
          have hg' : g' ≠ g := fun e => by
            rw [e, hg] at hs
            exact nomatch hs
          rw [Function.update_of_ne hg']
          exact hs
      check := fun {g' _ r'} hk => by
        have hk := h.check ((hin rfl g').mp hk)
        exact ⟨hk.1, (hw r').trans hk.2⟩
      recv := fun {g' key' r'} hk => by
        obtain ⟨hmem, hf, hstay, honly⟩ := h.recv ((hin rfl g').mp hk)
        refine ⟨hmem, hkeep hf, fun r₁ hr₁ => ?_, honly⟩
        obtain ⟨e, hpos⟩ := hstay r₁ hr₁
        refine ⟨e, ?_⟩
        show 0 < (update s.lwcs r (s.lwcs r).send r').waiters
        rw [hw r']
        exact hpos
      live := fun {key' r'} hk hf => by
        have hr' : r' ≠ r := fun e => by
          subst e
          change (update s.lwcs r' _ r').ch = false at hf
          rw [Function.update_self] at hf
          exact nomatch hf
        change (update s.lwcs r _ r').ch = false at hf
        rw [Function.update_of_ne hr'] at hf
        rcases h.live hk hf with hpos | ⟨g', hg'⟩
        · refine Or.inl ?_
          show 0 < (update s.lwcs r (s.lwcs r).send r').waiters
          rw [hw r']
          exact hpos
        · exact Or.inr ⟨g', (hin rfl g').mpr hg'⟩ }

end Inv

end Capic.Locker
