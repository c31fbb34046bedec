import Mathlib.Data.List.Basic
import Capic.Effect.Mutex

/-!
# Creating a resource once

The pattern: a resource is created by an asynchronous request, any number of
threads want it to exist, and none of them remembers anything. Each takes a lock,
looks for the resource, asks for the newest creation request if there is none,
looks again if that request is done, and posts a creation only if the second look
was in vain, the newest request failed, or there never was one. What the argument
needs of this is the lock, the question and the second look; the first look only
saves work.

The world keeps every creation ever accepted, newest first. A creation is `Live`
while it is pending and, once done, as long as its resource exists; what is no
longer live never is again (`Creation.Step.dead`). The resource of a creation that
is done can be seen by every look until it is deleted.

`Inv` is the invariant: all creations but the newest are dead, and a thread that is
about to post (phase `clear`) holds the lock and knows that the newest is dead as
well. It is kept by everything that can happen (`Inv.happens`, `Inv.env`,
`Inv.crash`), and gives `Inv.atMostOne`.

A thread that only watches needs no lock: where nothing is posted any more, what it
finds out stays true (`Watches`).

Nothing in this file knows what is created or by which calls; an instance maps its
calls to observations (`Obs`).
-/

namespace Capic.Effect.Once

open Function (update)

/-! ## Creations and what the cloud does to them -/

/-- Where a creation request is. -/
inductive Status where
  | queued | running | done | failed
  deriving DecidableEq, Repr

/-- An accepted creation: when it was accepted, where its request is, and whether its
resource exists. -/
structure Creation where
  date : Int
  status : Status
  present : Bool
  deriving DecidableEq, Repr

namespace Creation

/-- The request was not finished yet. -/
def Pending (c : Creation) : Prop := c.status = .queued ∨ c.status = .running

/-- The resource can be seen: at the latest once the request is done. -/
def Visible (c : Creation) : Prop := c.status = .done ∧ c.present = true

/-- The creation still counts: it may bring about a resource, or has. -/
def Live (c : Creation) : Prop := c.Pending ∨ c.Visible

instance (c : Creation) : Decidable c.Live :=
  inferInstanceAs (Decidable ((_ ∨ _) ∨ (_ ∧ _)))

/-- What happens to a creation on the side of the cloud: its request moves on, its
resource appears — not later than the request is done — and may be deleted after
that. A failed request leaves no resource. -/
inductive Step : Creation → Creation → Prop where
  | run (d p) : Step ⟨d, .queued, p⟩ ⟨d, .running, p⟩
  | appear (d p) : Step ⟨d, .running, p⟩ ⟨d, .running, true⟩
  | finish (d p) : Step ⟨d, .running, p⟩ ⟨d, .done, true⟩
  | fail (d p) : Step ⟨d, .running, p⟩ ⟨d, .failed, false⟩
  | delete (d) : Step ⟨d, .done, true⟩ ⟨d, .done, false⟩

/-- What is dead stays dead. -/
theorem Step.dead {c c' : Creation} (h : Step c c') (hd : ¬ c.Live) : ¬ c'.Live := by
  cases h with
  | run d p => exact absurd (.inl (.inl rfl)) hd
  | appear d p => exact absurd (.inl (.inr rfl)) hd
  | finish d p => exact absurd (.inl (.inr rfl)) hd
  | fail d p => exact fun hl => by rcases hl with (h | h) | ⟨h, _⟩ <;> exact nomatch h
  | delete d => exact absurd (.inr ⟨rfl, rfl⟩) hd

/-- What is done stays done. -/
theorem Step.done {c c' : Creation} (h : Step c c') (hd : c.status = .done) :
    c'.status = .done := by
  cases h with
  | delete d => rfl
  | run d p => exact nomatch hd
  | appear d p => exact nomatch hd
  | finish d p => exact nomatch hd
  | fail d p => exact nomatch hd

theorem Step.date {c c' : Creation} (h : Step c c') : c'.date = c.date := by
  cases h <;> rfl

/-- A creation that is done but cannot be seen is dead. -/
theorem not_live_of_done {c : Creation} (hd : c.status = .done) (hv : ¬ c.Visible) :
    ¬ c.Live := by
  rintro ((h | h) | h)
  · rw [hd] at h
    exact nomatch h
  · rw [hd] at h
    exact nomatch h
  · exact hv h

theorem not_live_of_failed {c : Creation} (hf : c.status = .failed) : ¬ c.Live := by
  rintro ((h | h) | ⟨h, _⟩) <;> rw [hf] at h <;> exact nomatch h

end Creation

/-! ## The world and the threads -/

/-- Every creation ever accepted, newest first, and who holds which lock. -/
structure World (T K : Type) where
  creations : List Creation
  owner : Owners T K

/-- What a call of a thread means here. -/
inductive Obs (K : Type) where
  /-- A lock was taken. -/
  | acquired (key : K)
  | released (key : K)
  /-- A look for the resource, and whether there was one. -/
  | look (found : Bool)
  /-- The status of the newest creation request, if there is one. -/
  | queue (newest : Option Status)
  /-- A creation was posted. -/
  | post
  /-- Anything else. -/
  | quiet

variable {T K : Type}

/-- A new creation has been accepted. -/
def World.Accepts (w w' : World T K) : Prop :=
  ∃ date, (∀ c ∈ w.creations, c.date < date) ∧
    w' = { w with creations := ⟨date, .queued, false⟩ :: w.creations }

/-- What the world does, and may answer, for each observation. -/
def Happens [DecidableEq T] [DecidableEq K] (w : World T K) (t : T) : Obs K → World T K → Prop
  | .acquired key, w' => w.owner key = none ∧ w' = { w with owner := w.owner.acquire t key }
  | .released key, w' => w' = { w with owner := w.owner.unlock t key }
  | .look found, w' => w' = w ∧ (found = false → ∀ c ∈ w.creations, ¬ c.Visible)
  | .queue newest, w' => w' = w ∧ newest = w.creations.head?.map (·.status)
  | .post, w' => w' = w ∨ w.Accepts w'
  | .quiet, w' => w' = w

/-- A move of the cloud: some creation takes a step. -/
def Env (w w' : World T K) : Prop :=
  ∃ newer c c' older, w.creations = newer ++ c :: older ∧ Creation.Step c c' ∧
    w' = { w with creations := newer ++ c' :: older }

/-- The process dies: every lock is free again. -/
def Crash (w w' : World T K) : Prop := w' = { w with owner := fun _ => none }

/-- How far a thread has got. -/
inductive Phase where
  /-- Not in the locked section. -/
  | out
  /-- In the locked section, nothing known. -/
  | locked
  /-- The newest request was done. -/
  | sawDone
  /-- Nothing is live. -/
  | clear
  deriving DecidableEq, Repr

/-- Where a look leads. -/
def Phase.looked : Phase → Bool → Phase
  | sawDone, false => clear
  | q, _ => q

/-- Where the newest request's status leads. -/
def Phase.queued : Option Status → Phase
  | none | some .failed => clear
  | some .done => sawDone
  | some .queued | some .running => locked

/-- The phase after an observation, for the lock `key`. -/
def Phase.next [DecidableEq K] (key : K) (q : Phase) : Obs K → Phase
  | .acquired key' => if key' = key then locked else q
  | .released key' => if key' = key then out else q
  | .look found => q.looked found
  | .queue newest => if q = locked then Phase.queued newest else q
  | .post => if q = out then out else locked
  | .quiet => q

/-- A creation is posted in phase `clear` only. -/
def Phase.Ok (q : Phase) : Obs K → Prop
  | .post => q = clear
  | _ => True

/-! ## The invariant -/

/-- The invariant (module doc). -/
structure Inv (key : K) (w : World T K) (ph : T → Phase) : Prop where
  holds : w.owner.Guards key fun t => ph t ≠ .out
  older : ∀ c ∈ w.creations.tail, ¬ c.Live
  sawDone : ∀ t, ph t = .sawDone → ∀ c ∈ w.creations.head?, c.status = .done
  clear : ∀ t, ph t = .clear → ∀ c ∈ w.creations, ¬ c.Live
  dates : w.creations.Pairwise fun c c' => c'.date < c.date

variable {key : K} {w w' : World T K} {ph : T → Phase} {t : T}

/-- The worlds to begin with: at most the newest creation still counts. -/
structure World.Settled (w : World T K) : Prop where
  older : ∀ c ∈ w.creations.tail, ¬ c.Live
  dates : w.creations.Pairwise fun c c' => c'.date < c.date

theorem World.Settled.inv (h : w.Settled) : Inv key w fun _ => Phase.out :=
  ⟨fun _ hne => absurd rfl hne, h.older, fun _ hq => (nomatch hq), fun _ hq => (nomatch hq),
    h.dates⟩

/-- At most one creation is live. -/
theorem Inv.atMostOne (h : Inv key w ph) :
    (w.creations.filter fun c => c.Live).length ≤ 1 := by
  have ho := h.older
  cases hc : w.creations with
  | nil => exact Nat.zero_le 1
  | cons c older =>
    rw [hc] at ho
    have hnil : older.filter (fun c => decide c.Live) = [] := by
      refine List.filter_eq_nil_iff.mpr fun c' hc' => ?_
      simpa using ho c' hc'
    rw [List.filter_cons, hnil]
    split
    · exact Nat.le_refl 1
    · exact Nat.zero_le 1

/-- A thread that does not know more than before, in a world with the same creations. -/
theorem Inv.weaken (h : Inv key w ph) {ph' : T → Phase} (hw : w'.creations = w.creations)
    (hh : w'.owner.Guards key fun t => ph' t ≠ .out)
    (hp : ∀ t, ph' t = .sawDone ∨ ph' t = .clear → ph' t = ph t) : Inv key w' ph' where
  holds := hh
  older := by rw [hw]; exact h.older
  sawDone u hu := by
    rw [hw]
    exact h.sawDone u ((hp u (.inl hu)).symm.trans hu)
  clear u hu := by
    rw [hw]
    exact h.clear u ((hp u (.inr hu)).symm.trans hu)
  dates := by rw [hw]; exact h.dates

/-- The newest creation is done but cannot be seen: it is dead like all the others. -/
theorem Inv.second_look (h : Inv key w ph) (hq : ph t = .sawDone)
    (hv : ∀ c ∈ w.creations, ¬ c.Visible) : ∀ c ∈ w.creations, ¬ c.Live := by
  intro c hc
  have holder := h.older
  have hdone := h.sawDone t hq
  cases hcs : w.creations with
  | nil =>
    rw [hcs] at hc
    exact nomatch hc
  | cons c₀ older =>
    rw [hcs] at hc holder hdone
    rcases List.mem_cons.mp hc with rfl | hc'
    · exact Creation.not_live_of_done (hdone c rfl) (hv c (by rw [hcs]; exact hc))
    · exact holder c hc'

variable [DecidableEq T]

/-- A thread learns something while the world stays as it is. -/
theorem Inv.learn (h : Inv key w ph) {q : Phase} (hin : ph t ≠ .out)
    (hs : q = .sawDone → ∀ c ∈ w.creations.head?, c.status = .done)
    (hc : q = .clear → ∀ c ∈ w.creations, ¬ c.Live) : Inv key w (update ph t q) where
  holds := h.holds.stay t (.inl hin) fun u hut hu => by
    simpa only [Function.update_of_ne hut] using hu
  older := h.older
  sawDone u hu := by
    by_cases hut : u = t
    · rw [hut, Function.update_self] at hu
      exact hs hu
    · rw [Function.update_of_ne hut] at hu
      exact h.sawDone u hu
  clear u hu := by
    by_cases hut : u = t
    · rw [hut, Function.update_self] at hu
      exact hc hu
    · rw [Function.update_of_ne hut] at hu
      exact h.clear u hu
  dates := h.dates

theorem Inv.same (h : Inv key w ph) {q : Phase} (hq : q = ph t) : Inv key w (update ph t q) := by
  rw [hq, Function.update_eq_self]
  exact h

/-- A thread starts. -/
theorem Inv.start (h : Inv key w ph) : Inv key w (update ph t .out) := by
  refine h.weaken rfl (h.holds.stay t (.inr fun hne => ?_) fun u hut hu => ?_) fun u hu => ?_
  · rw [Function.update_self] at hne
    exact hne rfl
  · simpa only [Function.update_of_ne hut] using hu
  · by_cases hut : u = t
    · rw [hut, Function.update_self] at hu
      rcases hu with hu | hu <;> exact nomatch hu
    · exact Function.update_of_ne hut ..

/-- The only observation that adds a creation, and only when all others are dead. -/
theorem Inv.accepts (h : Inv key w ph) (hq : ph t = .clear) (ha : w.Accepts w') :
    Inv key w' (update ph t .locked) := by
  obtain ⟨date, hdate, rfl⟩ := ha
  have hin : ph t ≠ .out := by rw [hq]; exact Phase.noConfusion
  -- the thread that posts is alone in the section, and has lost what it knew
  have hother : ∀ u, update ph t .locked u ≠ .sawDone ∧ update ph t .locked u ≠ .clear := by
    intro u
    by_cases hut : u = t
    · rw [hut, Function.update_self]
      exact ⟨Phase.noConfusion, Phase.noConfusion⟩
    · rw [Function.update_of_ne hut, not_not.mp (h.holds.alone hin hut)]
      exact ⟨Phase.noConfusion, Phase.noConfusion⟩
  refine ⟨h.holds.stay t (.inl hin) fun u hut hu => ?_, h.clear t hq,
    fun u hu => absurd hu (hother u).1, fun u hu => absurd hu (hother u).2,
    List.pairwise_cons.mpr ⟨hdate, h.dates⟩⟩
  simpa only [Function.update_of_ne hut] using hu

/-! ## What happens keeps the invariant -/

variable [DecidableEq K]

theorem Inv.acquired (h : Inv key w ph) {key' : K} (hfree : w.owner key' = none) :
    Inv key { w with owner := w.owner.acquire t key' }
      (update ph t ((ph t).next key (.acquired key'))) := by
  refine h.weaken rfl (h.holds.acquire hfree fun u hu => ?_) fun u hu => ?_
  · by_cases hut : u = t
    · subst hut
      rw [Function.update_self, Phase.next] at hu
      by_cases hk : key' = key
      · exact .inl ⟨rfl, hk⟩
      · rw [if_neg hk] at hu
        exact .inr hu
    · rw [Function.update_of_ne hut] at hu
      exact .inr hu
  · by_cases hut : u = t
    · subst hut
      rw [Function.update_self, Phase.next] at hu ⊢
      by_cases hk : key' = key
      · rw [if_pos hk] at hu
        rcases hu with hu | hu <;> exact nomatch hu
      · rw [if_neg hk]
    · exact Function.update_of_ne hut ..

theorem Inv.released (h : Inv key w ph) (key' : K) :
    Inv key { w with owner := w.owner.unlock t key' }
      (update ph t ((ph t).next key (.released key'))) := by
  refine h.weaken rfl (h.holds.unlock fun u hu => ?_) fun u hu => ?_
  · by_cases hut : u = t
    · subst hut
      rw [Function.update_self, Phase.next] at hu
      by_cases hk : key' = key
      · rw [if_pos hk] at hu
        exact absurd rfl hu
      · rw [if_neg hk] at hu
        exact ⟨hu, fun _ => hk⟩
    · rw [Function.update_of_ne hut] at hu
      exact ⟨hu, fun heq => absurd heq hut⟩
  · by_cases hut : u = t
    · subst hut
      rw [Function.update_self, Phase.next] at hu ⊢
      by_cases hk : key' = key
      · rw [if_pos hk] at hu
        rcases hu with hu | hu <;> exact nomatch hu
      · rw [if_neg hk]
    · exact Function.update_of_ne hut ..

theorem Inv.look (h : Inv key w ph) {found : Bool}
    (hv : found = false → ∀ c ∈ w.creations, ¬ c.Visible) :
    Inv key w (update ph t ((ph t).next key (.look found))) := by
  show Inv key w (update ph t ((ph t).looked found))
  cases found with
  | true => exact h.same (by cases ph t <;> rfl)
  | false =>
    cases hq : ph t with
    | sawDone =>
      exact h.learn (by rw [hq]; exact Phase.noConfusion) Phase.noConfusion
        fun _ => h.second_look hq (hv rfl)
    | out => exact h.same hq.symm
    | locked => exact h.same hq.symm
    | clear => exact h.same hq.symm

theorem Inv.queue (h : Inv key w ph) :
    Inv key w (update ph t ((ph t).next key (.queue (w.creations.head?.map (·.status))))) := by
  rw [Phase.next]
  by_cases hq : ph t = .locked
  · rw [if_pos hq]
    have hin : ph t ≠ .out := by rw [hq]; exact Phase.noConfusion
    cases hcs : w.creations with
    | nil =>
      refine h.learn hin Phase.noConfusion fun _ c hc => ?_
      rw [hcs] at hc
      exact nomatch hc
    | cons c₀ older =>
      have holder := h.older
      rw [hcs] at holder
      show Inv key w (update ph t (Phase.queued (some c₀.status)))
      cases hst : c₀.status with
      | queued => exact h.learn hin Phase.noConfusion Phase.noConfusion
      | running => exact h.learn hin Phase.noConfusion Phase.noConfusion
      | done =>
        refine h.learn hin (fun _ c hc => ?_) Phase.noConfusion
        rw [hcs] at hc
        obtain rfl := Option.mem_some.mp hc
        exact hst
      | failed =>
        refine h.learn hin Phase.noConfusion fun _ c hc => ?_
        rw [hcs] at hc
        rcases List.mem_cons.mp hc with rfl | hc'
        · exact Creation.not_live_of_failed hst
        · exact holder c hc'
  · rw [if_neg hq]
    exact h.same rfl

/-- Everything a thread does keeps the invariant. -/
theorem Inv.happens (h : Inv key w ph) {o : Obs K} (hok : (ph t).Ok o)
    (hw : Happens w t o w') : Inv key w' (update ph t ((ph t).next key o)) := by
  cases o with
  | acquired key' =>
    obtain ⟨hfree, rfl⟩ := hw
    exact h.acquired hfree
  | released key' =>
    obtain rfl := hw
    exact h.released key'
  | look found =>
    obtain ⟨rfl, hv⟩ := hw
    exact h.look hv
  | queue newest =>
    obtain ⟨rfl, rfl⟩ := hw
    exact h.queue
  | post =>
    have hq : ph t = .clear := hok
    have hin : ph t ≠ .out := by rw [hq]; exact Phase.noConfusion
    rw [Phase.next, if_neg hin]
    rcases hw with rfl | ha
    · exact h.learn hin Phase.noConfusion Phase.noConfusion
    · exact h.accepts hq ha
  | quiet =>
    obtain rfl := hw
    exact h.same rfl

omit [DecidableEq T] [DecidableEq K]

/-- A creation of the list takes a step. -/
theorem mem_of_step {newer older : List Creation} {c₀ c₁ c : Creation}
    (hstep : Creation.Step c₀ c₁) (hc : c ∈ newer ++ c₁ :: older) :
    ∃ c' ∈ newer ++ c₀ :: older, c' = c ∨ Creation.Step c' c := by
  rcases List.mem_append.mp hc with hc | hc
  · exact ⟨c, List.mem_append_left _ hc, .inl rfl⟩
  · rcases List.mem_cons.mp hc with rfl | hc
    · exact ⟨c₀, List.mem_append_right _ (List.mem_cons_self ..), .inr hstep⟩
    · exact ⟨c, List.mem_append_right _ (List.mem_cons_of_mem _ hc), .inl rfl⟩

/-- What the cloud does keeps the invariant: every creation stays, or takes a step. -/
theorem Inv.env (h : Inv key w ph) (hw : Env w w') : Inv key w' ph := by
  obtain ⟨newer, c₀, c₁, older, hcs, hstep, rfl⟩ := hw
  have hdead : ∀ {c' c : Creation}, c' = c ∨ Creation.Step c' c → ¬ c'.Live → ¬ c.Live := by
    rintro c' c (rfl | hst) hd
    · exact hd
    · exact hst.dead hd
  have holder := h.older
  have hdone := h.sawDone
  have hclear := h.clear
  have hdates := h.dates
  rw [hcs] at holder hdone hclear hdates
  refine ⟨h.holds, ?_, ?_, fun t ht c hc => ?_, ?_⟩
  · cases newer with
    | nil => exact holder
    | cons n newer =>
      intro c hc
      obtain ⟨c', hc', hcc⟩ := mem_of_step hstep hc
      exact hdead hcc (holder c' hc')
  · intro t ht c hc
    cases newer with
    | nil =>
      obtain rfl := Option.mem_some.mp hc
      exact hstep.done (hdone t ht c₀ rfl)
    | cons n newer => exact hdone t ht c hc
  · obtain ⟨c', hc', hcc⟩ := mem_of_step hstep hc
    exact hdead hcc (hclear t ht c' hc')
  · rw [List.pairwise_append, List.pairwise_cons] at hdates ⊢
    obtain ⟨hnewer, ⟨hc₀, holder'⟩, hacross⟩ := hdates
    refine ⟨hnewer, ⟨fun c hc => ?_, holder'⟩, fun n hn c hc => ?_⟩
    · rw [hstep.date]
      exact hc₀ c hc
    · rcases List.mem_cons.mp hc with rfl | hc
      · rw [hstep.date]
        exact hacross n hn c₀ (List.mem_cons_self ..)
      · exact hacross n hn c (List.mem_cons_of_mem _ hc)

theorem Inv.crash (h : Inv key w ph) (hw : Crash w w') : Inv key w' fun _ => Phase.out := by
  obtain rfl := hw
  exact World.Settled.inv ⟨h.older, h.dates⟩

/-! ## Watching -/

/-- A list of creations as the world of one thread that always has the lock. -/
def watched (creations : List Creation) : World Unit Unit := ⟨creations, fun _ => some ()⟩

/-- What a thread in phase `q` knows about the creations is true. -/
def Watches (creations : List Creation) (q : Phase) : Prop :=
  Inv () (watched creations) fun _ => q

/-- The cloud moves the creations on, or does nothing. -/
def Progress (creations creations' : List Creation) : Prop :=
  creations' = creations ∨ Env (watched creations) (watched creations')

/-- The phase of a thread that only watches: what is known to be dead is forgotten never,
anything else with the next answer. -/
def Phase.watch (q : Phase) : Obs K → Phase
  | .look found => q.looked found
  | .queue newest => if q = clear then clear else Phase.queued newest
  | _ => q

variable {creations creations' : List Creation} {q : Phase}

theorem Watches.of_settled (h : (watched creations).Settled) : Watches creations .locked where
  holds _ _ := rfl
  older := h.older
  sawDone _ hq := nomatch hq
  clear _ hq := nomatch hq
  dates := h.dates

theorem Watches.settled (h : Watches creations q) : (watched creations).Settled :=
  ⟨h.older, h.dates⟩

/-- Nothing is live any more. -/
theorem Watches.dead (h : Watches creations .clear) : ∀ c ∈ creations, ¬ c.Live :=
  Inv.clear h () rfl

theorem Watches.of_dead (h : (watched creations).Settled) (hdead : ∀ c ∈ creations, ¬ c.Live) :
    Watches creations .clear where
  holds _ _ := rfl
  older := h.older
  sawDone _ hq := nomatch hq
  clear _ _ := hdead
  dates := h.dates

theorem Watches.progress (h : Watches creations q) (hp : Progress creations creations') :
    Watches creations' q := by
  rcases hp with rfl | henv
  · exact h
  · exact Inv.env h henv

theorem Watches.look (h : Watches creations q) {found : Bool}
    (hv : found = false → ∀ c ∈ creations, ¬ c.Visible) :
    Watches creations (q.looked found) := by
  have hlook := Inv.look (t := ()) h hv
  rw [show update (fun _ : Unit => q) () (q.next () (.look found)) = fun _ => q.looked found from
    funext fun _ => rfl] at hlook
  exact hlook

theorem Watches.queue (h : Watches creations q) :
    Watches creations (if q = .clear then .clear else
      Phase.queued (creations.head?.map (·.status))) := by
  split
  next hq =>
    rw [hq] at h
    exact h
  next =>
    -- what was known so far is not needed
    have hqueue := Inv.queue (t := ()) (Watches.of_settled h.settled)
    rw [show update (fun _ : Unit => Phase.locked) ()
      (Phase.locked.next () (.queue ((watched creations).creations.head?.map (·.status)))) =
      fun _ => Phase.queued (creations.head?.map (·.status)) from funext fun _ => rfl] at hqueue
    exact hqueue

/-- What a thread that watches learns is true. -/
theorem Watches.watch (h : Watches creations q) {o : Obs K}
    (hlook : o = .look false → ∀ c ∈ creations, ¬ c.Visible)
    (hqueue : ∀ newest, o = .queue newest → newest = creations.head?.map (·.status)) :
    Watches creations (q.watch o) := by
  cases o with
  | look found =>
    refine h.look ?_
    intro hfound
    rw [hfound] at hlook
    exact hlook rfl
  | queue newest =>
    rw [hqueue newest rfl]
    exact h.queue
  | acquired key => exact h
  | released key => exact h
  | post => exact h
  | quiet => exact h

theorem Phase.watch_clear (o : Obs K) : Phase.clear.watch o = .clear := by
  cases o <;> rfl

end Capic.Effect.Once
