import Capic.Locker.LockerInv

/-!
# The locker's mutex sections

The steps of `Locker.lean` that take or release the mutex in the middle of a
section, or delete or make an entry of the map, and that they keep `Inv`. What
makes deleting safe is the same in both places that do it: the counter is zero, so
nobody is counted at the entry (`Inv.not_counted`), and nobody but the goroutine
with the mutex can have business with it.
-/

namespace Capic.Locker

open Function (update)

variable {G K : Type} [DecidableEq G]

namespace Inv

variable {s : State G K} (h : Inv s) {g : G} {key : K} {r : Nat} {p : Phase K}
include h

/-! ## The `ctx.Done()` branch -/

/-- A waiter gives up, and is not the last one. -/
theorem abort_more (hg : s.phase g = .aborting key r) (hmu : s.mu = none)
    (hmore : (s.lwcs r).dec.count ≠ 0) :
    Inv ((s.setLwc r (s.lwcs r).dec).goto g (.failed key)) := by
  have hcount : (s.phase g).counted = some (key, r) := by rw [hg]; rfl
  have hpos := h.waiters_pos hcount
  refine h.quiet_sent (g := g) (p := .failed key) (h.outside hmu g) rfl (fun _ e => nomatch e)
    (by rw [hg]; rfl) rfl rfl rfl rfl rfl (ch_update rfl) (fun e => nomatch e)
    (h.tally_leave hcount rfl) ?_ ?_
  · rintro g' key' r' (hk | ⟨hk, _⟩)
    · exact absurd hk (h.not_checking hmu)
    · exact absurd hk (h.not_receiving hmu)
  · intro key' r' _ _ hpos'
    show 0 < (update s.lwcs r (s.lwcs r).dec r').waiters
    by_cases hr' : r' = r
    · subst hr'
      rw [Function.update_self]
      change (s.lwcs r').waiters - 1 ≠ 0 at hmore
      show 0 < (s.lwcs r').waiters - 1
      omega
    · rw [Function.update_of_ne hr']
      exact hpos'

/-- The last waiter gives up, and keeps the mutex to look at the channel. -/
theorem abort_last (hg : s.phase g = .aborting key r) (hmu : s.mu = none)
    (hlast : (s.lwcs r).dec.count = 0) :
    Inv { (s.setLwc r (s.lwcs r).dec).goto g (.checking key r) with mu := some g } := by
  have hcount : (s.phase g).counted = some (key, r) := by rw [hg]; rfl
  have hr : s.locks key = some r := h.entry hcount
  have hch : ∀ r', (update s.lwcs r (s.lwcs r).dec r').ch = (s.lwcs r').ch := ch_update rfl
  have hown : ∀ g' key',
      State.Owns { (s.setLwc r (s.lwcs r).dec).goto g (.checking key r) with mu := some g } g' key' ↔
      s.Owns g' key' :=
    owns_move (g := g) (p := .checking key r) rfl rfl (by rw [hg]; rfl)
  exact
    { mutex := h.mutex_enter hmu rfl
      calm := h.calm_move fun _ e => nomatch e
      below := h.below
      inj := h.inj
      entry := h.entry_move rfl
      tally := h.tally_leave hcount rfl
      full := fun {g' key'} ho => by
        obtain ⟨r', hf, hr'⟩ := h.full ((hown g' key').mp ho)
        exact ⟨r', (hch r').trans hf, Or.inl (hr'.resolve_right (h.not_receiving hmu))⟩
      unique := fun h₁ h₂ => h.unique ((hown _ _).mp h₁) ((hown _ _).mp h₂)
      nodup := h.nodup
      once := h.once_move rfl
      used := fun {_ r'} hk hf => by
        obtain ⟨g', ho⟩ := h.used hk ((hch r').symm.trans hf)
        exact ⟨g', (hown _ _).mpr ho⟩
      check := fun hk => by
        obtain ⟨rfl, e⟩ := h.inside_enter hmu rfl hk
        obtain ⟨rfl, rfl⟩ := Phase.checking.inj e
        refine ⟨hr, ?_⟩
        show (update s.lwcs r (s.lwcs r).dec r).waiters = 0
        rw [Function.update_self]
        exact hlast
      recv := fun hk => by
        obtain ⟨_, e⟩ := h.inside_enter hmu rfl hk
        exact nomatch e
      live := fun {key' r'} hk hf => by
        by_cases hr' : r' = r
        · subst hr'
          obtain rfl := h.inj hr hk
          exact Or.inr ⟨g, Function.update_self ..⟩
        · rcases h.live hk ((hch r').symm.trans hf) with hpos | ⟨g', hg'⟩
          · refine Or.inl ?_
            show 0 < (update s.lwcs r (s.lwcs r).dec r').waiters
            rw [Function.update_of_ne hr']
            exact hpos
          · exact absurd hg' (h.not_checking hmu) }

theorem abortDec (hg : s.phase g = .aborting key r) (hmu : s.mu = none) :
    Inv (s.abortDec g key r) := by
  unfold State.abortDec
  by_cases hzero : (s.lwcs r).dec.count = 0
  · simp only [hzero, if_true]
    exact h.abort_last hg hmu hzero
  · simp only [hzero, if_false]
    exact h.abort_more hg hmu hzero

/-- The last waiter finds the channel full: the entry stays with its owner. -/
theorem check_full (hg : s.phase g = .checking key r) (hf : (s.lwcs r).ch = true) :
    Inv { s.goto g (.failed key) with mu := none } := by
  have hmu : s.mu = some g := (h.mutex g).mpr (by rw [hg]; rfl)
  have hr : s.locks key = some r := (h.check hg).1
  have hown : ∀ g' key',
      State.Owns { s.goto g (.failed key) with mu := none } g' key' ↔
      s.Owns g' key' :=
    owns_move (g := g) (p := .failed key) rfl rfl (by rw [hg]; rfl)
  have hrecv : ∀ {g' key' r'}, s.phase g' ≠ .receiving key' r' := by
    intro g' key' r' e
    have hsame := hmu.symm.trans ((h.mutex g').mpr (by rw [e]; rfl))
    rw [← Option.some.inj hsame, hg] at e
    exact nomatch e
  exact
    { mutex := h.mutex_leave hmu rfl
      calm := h.calm_move fun _ e => nomatch e
      below := h.below
      inj := h.inj
      entry := h.entry_move rfl
      tally := h.tally_same (by rw [hg]; rfl)
      full := fun {g' key'} ho => by
        obtain ⟨r', hf', hr'⟩ := h.full ((hown g' key').mp ho)
        exact ⟨r', hf', Or.inl (hr'.resolve_right hrecv)⟩
      unique := fun h₁ h₂ => h.unique ((hown _ _).mp h₁) ((hown _ _).mp h₂)
      nodup := h.nodup
      once := h.once_move rfl
      used := fun hk hf' => by
        obtain ⟨g', ho⟩ := h.used hk hf'
        exact ⟨g', (hown _ _).mpr ho⟩
      check := fun hk => absurd hk (h.inside_leave hmu rfl rfl)
      recv := fun hk => absurd hk (h.inside_leave hmu rfl rfl)
      live := fun {key' r'} hk hf' => by
        rcases h.live hk hf' with hpos | ⟨g', hg'⟩
        · exact Or.inl hpos
        · -- the one that was checking is `g`, and its channel is full
          have hsame := hmu.symm.trans ((h.mutex g').mpr (by rw [hg']; rfl))
          rw [← Option.some.inj hsame, hg] at hg'
          obtain ⟨rfl, rfl⟩ := Phase.checking.inj hg'
          exact absurd (hf.symm.trans hf') (by simp) }

variable [DecidableEq K]

omit h in
omit [DecidableEq G] in
/-- What is still in the map after a deletion. -/
theorem delete_cases {key' : K} {r' : Nat} (e : update s.locks key none key' = some r') :
    key' ≠ key ∧ s.locks key' = some r' := by
  by_cases hk : key' = key
  · rw [hk, Function.update_self] at e
    exact nomatch e
  · rw [Function.update_of_ne hk] at e
    exact ⟨hk, e⟩

/-- Who is counted does not miss an entry that goes with its counter at zero. -/
theorem entry_delete (hr : s.locks key = some r) (hzero : (s.lwcs r).waiters = 0)
    (hp : p.counted = none) {g' : G} {key' : K} {r' : Nat}
    (e : (update s.phase g p g').counted = some (key', r')) :
    update s.locks key none key' = some r' := by
  rcases move_cases Phase.counted e with ⟨_, e⟩ | ⟨_, e⟩
  · rw [hp] at e
    exact nomatch e
  · have hne : key' ≠ key := by
      rintro rfl
      exact h.not_counted hr hzero e
    rw [Function.update_of_ne hne]
    exact h.entry e

/-- The last waiter finds the channel empty: nobody owns the key or waits for it. -/
theorem check_empty (hg : s.phase g = .checking key r) (hf : (s.lwcs r).ch = false) :
    Inv { (s.delete key).goto g (.failed key) with mu := none } := by
  have hmu : s.mu = some g := (h.mutex g).mpr (by rw [hg]; rfl)
  obtain ⟨hr, hzero⟩ := h.check hg
  have hown : ∀ g' key',
      State.Owns { (s.delete key).goto g (.failed key) with mu := none } g' key' ↔
      s.Owns g' key' :=
    owns_move (g := g) (p := .failed key) rfl rfl (by rw [hg]; rfl)
  have hinside : ∀ {g'}, (s.phase g').inMutex = true → g' = g := fun hin =>
    (Option.some.inj (hmu.symm.trans ((h.mutex _).mpr hin))).symm
  exact
    { mutex := h.mutex_leave hmu rfl
      calm := h.calm_move fun _ e => nomatch e
      below := fun hk => h.below (delete_cases hk).2
      inj := fun hk hk' => h.inj (delete_cases hk).2 (delete_cases hk').2
      entry := h.entry_delete hr hzero rfl
      tally := fun hk => h.tally_same (by rw [hg]; rfl) (delete_cases hk).2
      full := fun {g' key'} ho => by
        have hs := (hown g' key').mp ho
        have hne : key' ≠ key := by
          rintro rfl
          rw [h.full_at hs hr] at hf
          exact nomatch hf
        obtain ⟨r', hf', hr' | hr'⟩ := h.full hs
        · refine ⟨r', hf', Or.inl ?_⟩
          show update s.locks key none key' = some r'
          rw [Function.update_of_ne hne]
          exact hr'
        · rw [hinside (show (s.phase g').inMutex = true by rw [hr']; rfl), hg] at hr'
          exact nomatch hr'
      unique := fun h₁ h₂ => h.unique ((hown _ _).mp h₁) ((hown _ _).mp h₂)
      nodup := h.nodup
      once := h.once_move rfl
      used := fun hk hf' => by
        obtain ⟨g', ho⟩ := h.used (delete_cases hk).2 hf'
        exact ⟨g', (hown _ _).mpr ho⟩
      check := fun hk => absurd hk (h.inside_leave hmu rfl rfl)
      recv := fun hk => absurd hk (h.inside_leave hmu rfl rfl)
      live := fun {key' r'} hk hf' => by
        obtain ⟨hne, hk⟩ := delete_cases hk
        rcases h.live hk hf' with hpos | ⟨g', hg'⟩
        · exact Or.inl hpos
        · rw [hinside (show (s.phase g').inMutex = true by rw [hg']; rfl), hg] at hg'
          exact absurd (Phase.checking.inj hg').1.symm hne }

theorem abortCheck (hg : s.phase g = .checking key r) : Inv (s.abortCheck g key r) := by
  unfold State.abortCheck
  cases hf : (s.lwcs r).ch with
  | false =>
    rw [if_pos rfl]
    exact h.check_empty hg hf
  | true =>
    rw [if_neg (by simp)]
    exact h.check_full hg hf

/-! ## `Unlock` -/

omit [DecidableEq K] in
/-- `Unlock` leaves the entry to those that wait for it. -/
theorem unlock_more (hg : (s.phase g).free = true) (hkey : key ∈ s.held g) (hmu : s.mu = none)
    (hr : s.locks key = some r) (hpos : 0 < (s.lwcs r).waiters) :
    Inv { s.goto g (.receiving key r) with mu := some g } := by
  have hphase := free_phase hg
  have hown : ∀ g' key',
      State.Owns { s.goto g (.receiving key r) with mu := some g } g' key' ↔
      s.Owns g' key' :=
    owns_move (g := g) (p := .receiving key r) rfl rfl hphase.2.symm
  exact
    { mutex := h.mutex_enter hmu rfl
      calm := h.calm_move fun _ e => nomatch e
      below := h.below
      inj := h.inj
      entry := h.entry_move rfl
      tally := h.tally_same (by rw [hphase.1]; rfl)
      full := fun {g' key'} ho => by
        obtain ⟨r', hf, hr'⟩ := h.full ((hown g' key').mp ho)
        exact ⟨r', hf, Or.inl (hr'.resolve_right (h.not_receiving hmu))⟩
      unique := fun h₁ h₂ => h.unique ((hown _ _).mp h₁) ((hown _ _).mp h₂)
      nodup := h.nodup
      once := h.once_move rfl
      used := fun hk hf => by
        obtain ⟨g', ho⟩ := h.used hk hf
        exact ⟨g', (hown _ _).mpr ho⟩
      check := fun hk => by
        obtain ⟨_, e⟩ := h.inside_enter hmu rfl hk
        exact nomatch e
      recv := fun hk => by
        obtain ⟨rfl, e⟩ := h.inside_enter hmu rfl hk
        obtain ⟨rfl, rfl⟩ := Phase.receiving.inj e
        refine ⟨hkey, h.full_at (Or.inr hkey) hr, fun r' hr' => ?_, fun key' hk' => h.inj hk' hr⟩
        exact ⟨(Option.some.inj (hr.symm.trans hr')).symm, hpos⟩
      live := fun hk hf => by
        rcases h.live hk hf with hpos | ⟨g', hg'⟩
        · exact Or.inl hpos
        · exact absurd hg' (h.not_checking hmu) }

/-- `Unlock` deletes an entry nobody waits for. -/
theorem unlock_last (hg : (s.phase g).free = true) (hkey : key ∈ s.held g) (hmu : s.mu = none)
    (hr : s.locks key = some r) (hzero : (s.lwcs r).waiters = 0) :
    Inv { (s.delete key).goto g (.receiving key r) with mu := some g } := by
  have hphase := free_phase hg
  have hown : ∀ g' key',
      State.Owns { (s.delete key).goto g (.receiving key r) with mu := some g } g' key' ↔
      s.Owns g' key' :=
    owns_move (g := g) (p := .receiving key r) rfl rfl hphase.2.symm
  exact
    { mutex := h.mutex_enter hmu rfl
      calm := h.calm_move fun _ e => nomatch e
      below := fun hk => h.below (delete_cases hk).2
      inj := fun hk hk' => h.inj (delete_cases hk).2 (delete_cases hk').2
      entry := h.entry_delete hr hzero rfl
      tally := fun hk => h.tally_same (by rw [hphase.1]; rfl) (delete_cases hk).2
      full := fun {g' key'} ho => by
        have hs := (hown g' key').mp ho
        obtain ⟨r', hf, hr'⟩ := h.full hs
        have hr' := hr'.resolve_right (h.not_receiving hmu)
        by_cases hne : key' = key
        · -- the owner is the one unlocking
          subst hne
          obtain rfl := h.unique hs (Or.inr hkey)
          obtain rfl := Option.some.inj (hr.symm.trans hr')
          exact ⟨r, hf, Or.inr (Function.update_self ..)⟩
        · refine ⟨r', hf, Or.inl ?_⟩
          show update s.locks key none key' = some r'
          rw [Function.update_of_ne hne]
          exact hr'
      unique := fun h₁ h₂ => h.unique ((hown _ _).mp h₁) ((hown _ _).mp h₂)
      nodup := h.nodup
      once := h.once_move rfl
      used := fun hk hf => by
        obtain ⟨g', ho⟩ := h.used (delete_cases hk).2 hf
        exact ⟨g', (hown _ _).mpr ho⟩
      check := fun hk => by
        obtain ⟨_, e⟩ := h.inside_enter hmu rfl hk
        exact nomatch e
      recv := fun hk => by
        obtain ⟨rfl, e⟩ := h.inside_enter hmu rfl hk
        obtain ⟨rfl, rfl⟩ := Phase.receiving.inj e
        refine ⟨hkey, h.full_at (Or.inr hkey) hr, fun r' hr' => ?_, fun key' hk' => ?_⟩
        · exact absurd rfl (delete_cases hr').1
        · exact h.inj (delete_cases hk').2 hr
      live := fun hk hf => by
        rcases h.live (delete_cases hk).2 hf with hpos | ⟨g', hg'⟩
        · exact Or.inl hpos
        · exact absurd hg' (h.not_checking hmu) }

/-- `Unlock` of a key the goroutine holds finds the entry. -/
theorem unlockCount (hg : (s.phase g).free = true) (hkey : key ∈ s.held g) (hmu : s.mu = none) :
    Inv (s.unlockCount g key) := by
  obtain ⟨r, _, hr⟩ := h.full (Or.inr hkey)
  have hr : s.locks key = some r := hr.resolve_right (h.not_receiving hmu)
  obtain ⟨S, _, hw⟩ := h.tally hr
  simp only [State.unlockCount, hr]
  by_cases hzero : (s.lwcs r).count = 0
  · simp only [hzero, if_true]
    exact h.unlock_last hg hkey hmu hr hzero
  · simp only [hzero, if_false]
    change (s.lwcs r).waiters ≠ 0 at hzero
    exact h.unlock_more hg hkey hmu hr (by omega)

/-- The receive ends the ownership. An entry still in the map has a waiter. -/
theorem unlockRecv (hg : s.phase g = .receiving key r) : Inv (s.unlockRecv g key r) := by
  have hmu : s.mu = some g := (h.mutex g).mpr (by rw [hg]; rfl)
  obtain ⟨hheld, hf, hstay, honly⟩ := h.recv hg
  have hinside : ∀ {g'}, (s.phase g').inMutex = true → g' = g := fun hin =>
    (Option.some.inj (hmu.symm.trans ((h.mutex _).mpr hin))).symm
  have hw : ∀ r', (update s.lwcs r (s.lwcs r).recv r').waiters = (s.lwcs r').waiters := by
    intro r'
    by_cases hr' : r' = r
    · subst hr'; rw [Function.update_self]; rfl
    · rw [Function.update_of_ne hr']
  have hmem : ∀ {g' key'}, key' ∈ update s.held g ((s.held g).erase key) g' →
      key' ∈ s.held g' ∧ key' ≠ key := by
    intro g' key' hm
    by_cases hg' : g' = g
    · subst hg'
      rw [Function.update_self, (h.nodup g').mem_erase_iff] at hm
      exact ⟨hm.2, hm.1⟩
    · rw [Function.update_of_ne hg'] at hm
      refine ⟨hm, ?_⟩
      rintro rfl
      exact hg' (h.unique (Or.inr hm) (Or.inr hheld))
  have hgone : ∀ {g' key'}, (s.unlockRecv g key r).Owns g' key' → s.Owns g' key' ∧ key' ≠ key := by
    intro g' key' ho
    rcases ho with ho | ho
    · rcases move_cases Phase.sent ho with ⟨_, e⟩ | ⟨hne, e⟩
      · exact nomatch e
      · refine ⟨Or.inl e, ?_⟩
        rintro rfl
        exact hne (h.unique (Or.inl e) (Or.inr hheld))
    · exact ⟨Or.inr (hmem ho).1, (hmem ho).2⟩
  exact
    { mutex := h.mutex_leave hmu rfl
      calm := h.calm_move fun _ e => nomatch e
      below := h.below
      inj := h.inj
      entry := h.entry_move rfl
      tally := fun {key' r'} hk => by
        show ∃ S, CountedAt _ _ _ S ∧ (update s.lwcs r (s.lwcs r).recv r').waiters = _
        rw [hw r']
        exact h.tally_same (by rw [hg]; rfl) hk
      full := fun {g' key'} ho => by
        obtain ⟨ho, hne⟩ := hgone ho
        obtain ⟨r', hf', hr' | hr'⟩ := h.full ho
        · refine ⟨r', ?_, Or.inl hr'⟩
          show (update s.lwcs r (s.lwcs r).recv r').ch = true
          have hr₁ : r' ≠ r := by
            rintro rfl
            exact hne (honly key' hr')
          rw [Function.update_of_ne hr₁]
          exact hf'
        · rw [hinside (show (s.phase g').inMutex = true by rw [hr']; rfl), hg] at hr'
          exact absurd (Phase.receiving.inj hr').1.symm hne
      unique := fun h₁ h₂ => h.unique (hgone h₁).1 (hgone h₂).1
      nodup := fun g' => by
        show (update s.held g ((s.held g).erase key) g').Nodup
        by_cases hg' : g' = g
        · subst hg'
          rw [Function.update_self]
          exact (h.nodup g').erase key
        · rw [Function.update_of_ne hg']
          exact h.nodup g'
      once := fun hk hm => h.once_move rfl hk (hmem hm).1
      used := fun {key' r'} hk hf' => by
        have hr' : r' ≠ r := fun e => by
          subst e
          change (update s.lwcs r' _ r').ch = true at hf'
          rw [Function.update_self] at hf'
          exact nomatch hf'
        change (update s.lwcs r _ r').ch = true at hf'
        rw [Function.update_of_ne hr'] at hf'
        obtain ⟨g', ho⟩ := h.used hk hf'
        have hne : key' ≠ key := by
          rintro rfl
          exact hr' (hstay r' hk).1
        refine ⟨g', ?_⟩
        show (update s.phase g .idle g').sent = some key' ∨
          key' ∈ update s.held g ((s.held g).erase key) g'
        by_cases hg' : g' = g
        · subst hg'
          rw [Function.update_self, Function.update_self]
          refine Or.inr ((h.nodup g').mem_erase_iff.mpr ⟨hne, ho.resolve_left fun e => ?_⟩)
          rw [hg] at e
          exact nomatch e
        · rw [Function.update_of_ne hg', Function.update_of_ne hg']
          exact ho
      check := fun hk => absurd hk (h.inside_leave hmu rfl rfl)
      recv := fun hk => absurd hk (h.inside_leave hmu rfl rfl)
      live := fun {key' r'} hk hf' => by
        refine Or.inl ?_
        show 0 < (update s.lwcs r (s.lwcs r).recv r').waiters
        rw [hw r']
        by_cases hr' : r' = r
        · subst hr'
          obtain rfl := honly key' hk
          exact (hstay r' hk).2
        · change (update s.lwcs r _ r').ch = false at hf'
          rw [Function.update_of_ne hr'] at hf'
          rcases h.live hk hf' with hpos | ⟨g', hg'⟩
          · exact hpos
          · rw [hinside (show (s.phase g').inMutex = true by rw [hg']; rfl), hg] at hg'
            exact nomatch hg' }

/-! ## Making an entry -/

/-- `Lock` makes a lock for a key that has none, and waits for it. -/
theorem create (hg : s.phase g = .entering key) (hmu : s.mu = none) (hkey : s.locks key = none) :
    Inv ({ s with locks := update s.locks key (some s.fresh)
                  lwcs := update s.lwcs s.fresh LockWithCounter.new.inc
                  fresh := s.fresh + 1 }.goto g (.selecting key s.fresh)) := by
  have hnew : ∀ {key' r'}, s.locks key' = some r' → key' ≠ key ∧ r' ≠ s.fresh := by
    intro key' r' hk
    refine ⟨fun e => ?_, Nat.ne_of_lt (h.below hk)⟩
    rw [e, hkey] at hk
    cases hk
  have hlocks : ∀ {key' r'}, update s.locks key (some s.fresh) key' = some r' →
      (key' = key ∧ r' = s.fresh) ∨ s.locks key' = some r' := by
    intro key' r' hk
    by_cases he : key' = key
    · subst he
      rw [Function.update_self] at hk
      exact Or.inl ⟨rfl, (Option.some.inj hk).symm⟩
    · rw [Function.update_of_ne he] at hk
      exact Or.inr hk
  have hstay : ∀ {key' r'}, s.locks key' = some r' →
      update s.locks key (some s.fresh) key' = some r' := fun hk =>
    (Function.update_of_ne (hnew hk).1 _ _).trans hk
  have hold : ∀ {key' r'}, s.locks key' = some r' →
      update s.lwcs s.fresh LockWithCounter.new.inc r' = s.lwcs r' :=
    fun hk => Function.update_of_ne (hnew hk).2 _ _
  have hout := h.outside hmu
  have hin : ∀ {q : Phase K}, q.inMutex = true → ∀ {g'},
      update s.phase g (.selecting key s.fresh) g' ≠ q := by
    intro q hq g' e
    have he := (move_inside (hout g) rfl hq g').mp e
    rw [← he, hout g'] at hq
    cases hq
  have hown : ∀ g' key',
      State.Owns ({ s with locks := update s.locks key (some s.fresh)
                           lwcs := update s.lwcs s.fresh LockWithCounter.new.inc
                           fresh := s.fresh + 1 }.goto g (.selecting key s.fresh)) g' key' ↔
        s.Owns g' key' :=
    owns_move (g := g) (p := .selecting key s.fresh) rfl rfl (by rw [hg]; rfl)
  exact
    { mutex := fun g' => (h.mutex g').trans (by
        show _ ↔ (update s.phase g _ g').inMutex = true
        rw [move_same (f := Phase.inMutex) (p := .selecting key s.fresh) (by rw [hg]; rfl)])
      calm := h.calm_move fun _ e => by cases e
      below := fun {key' r'} hk => by
        show r' < s.fresh + 1
        rcases hlocks hk with ⟨_, rfl⟩ | hk
        · omega
        · have := h.below hk
          omega
      inj := fun {k₁ k₂ r'} h₁ h₂ => by
        rcases hlocks h₁ with ⟨rfl, rfl⟩ | ho₁
        · rcases hlocks h₂ with ⟨rfl, _⟩ | ho₂
          · rfl
          · exact absurd rfl (hnew ho₂).2
        · rcases hlocks h₂ with ⟨_, rfl⟩ | ho₂
          · exact absurd rfl (hnew ho₁).2
          · exact h.inj ho₁ ho₂
      entry := fun {g' key' r'} hk => by
        rcases move_cases Phase.counted hk with ⟨_, e⟩ | ⟨_, e⟩
        · obtain ⟨rfl, rfl⟩ := Prod.mk.inj (Option.some.inj e)
          exact Function.update_self ..
        · exact hstay (h.entry e)
      tally := fun {key' r'} hk => by
        show ∃ S, CountedAt (update s.phase g (.selecting key s.fresh)) key' r' S ∧
          (update s.lwcs s.fresh LockWithCounter.new.inc r').waiters = S.card
        rcases hlocks hk with ⟨rfl, rfl⟩ | hk
        · refine ⟨{g}, fun g' => ?_, ?_⟩
          · rw [Finset.mem_singleton]
            refine ⟨?_, fun e => ?_⟩
            · rintro rfl
              rw [Function.update_self]
              rfl
            · rcases move_cases Phase.counted e with ⟨hg', _⟩ | ⟨_, e⟩
              · exact hg'
              · exact absurd rfl (hnew (h.entry e)).1
          · rw [Function.update_self, Finset.card_singleton]
            rfl
        · obtain ⟨S, hS, hw⟩ := h.tally hk
          refine ⟨S, hS.same ?_, by rw [hold hk]; exact hw⟩
          rw [hg]
          simp only [Phase.counted, Option.some.injEq, Prod.mk.injEq, reduceCtorEq, iff_false]
          exact fun e => (hnew hk).1 e.1.symm
      full := fun {g' key'} ho => by
        obtain ⟨r', hf, hr'⟩ := h.full ((hown g' key').mp ho)
        have hr' := hr'.resolve_right (h.not_receiving hmu)
        refine ⟨r', ?_, Or.inl (hstay hr')⟩
        show (update s.lwcs s.fresh LockWithCounter.new.inc r').ch = true
        rw [hold hr']
        exact hf
      unique := fun h₁ h₂ => h.unique ((hown _ _).mp h₁) ((hown _ _).mp h₂)
      nodup := h.nodup
      once := h.once_move rfl
      used := fun {key' r'} hk hf => by
        change (update s.lwcs s.fresh LockWithCounter.new.inc r').ch = true at hf
        rcases hlocks hk with ⟨rfl, rfl⟩ | hk
        · rw [Function.update_self] at hf
          cases hf
        · rw [hold hk] at hf
          obtain ⟨g', ho⟩ := h.used hk hf
          exact ⟨g', (hown _ _).mpr ho⟩
      check := fun hk => absurd hk (hin rfl)
      recv := fun hk => absurd hk (hin rfl)
      live := fun {key' r'} hk hf => by
        refine Or.inl ?_
        change (update s.lwcs s.fresh LockWithCounter.new.inc r').ch = false at hf
        show 0 < (update s.lwcs s.fresh LockWithCounter.new.inc r').waiters
        rcases hlocks hk with ⟨rfl, rfl⟩ | hk
        · rw [Function.update_self]
          show (0 : Int) < 0 + 1
          omega
        · rw [hold hk] at hf ⊢
          rcases h.live hk hf with hpos | ⟨g', hg'⟩
          · exact hpos
          · exact absurd hg' (h.not_checking hmu) }

end Inv

end Capic.Locker
