import Mathlib.Data.List.Basic
import Capic.Effect.Mutex

/-!
# Rewriting a value under a lock

The pattern: a value can only be written as a whole, by an asynchronous request, and
any number of threads want to edit it. Each takes a lock, reads the value, makes sure
that the newest write was executed, and posts a write computed from what it read. The
lock may be given up while the write is still waiting to be executed.

An edit is made on behalf of somebody, its `author`, and `Edit a v v'` says that the
change from `v` to `v'` is one that `a` may make. The pattern is to guarantee that
every write, when it is executed, is an edit of the value it replaces
(`Inv.executed`).

It does so only if no write is executed between a thread's reading and its question:
a thread that reads first and asks later takes a value that has been replaced for
current. The invariant `Inv` is kept by everything a thread does (`Inv.happens`), but
by an execution only while nobody is in phase `read` (`Inv.env`).

Nothing in this file knows what is edited or by which calls.
-/

namespace Capic.Effect.Rewrite

open Function (update)

variable {T K A V : Type}

/-- An accepted write. -/
structure Write (A V : Type) where
  date : Int
  author : A
  body : V
  executed : Bool

/-- The value, every write ever accepted, newest first, and who holds which lock. -/
structure World (T K A V : Type) where
  value : V
  writes : List (Write A V)
  owner : Owners T K

/-- What a call of a thread means here. -/
inductive Obs (K A V : Type) where
  | acquired (key : K)
  | released (key : K)
  /-- The value was read. -/
  | read (value : V)
  /-- The newest write was asked for: whether it is still waiting. -/
  | asked (waiting : Bool)
  /-- A write was posted. -/
  | write (author : A) (body : V)
  | quiet

/-- A write has been accepted. -/
def World.Accepts (w : World T K A V) (author : A) (body : V) (w' : World T K A V) : Prop :=
  ∃ date, (∀ x ∈ w.writes, x.date < date) ∧
    w' = { w with writes := ⟨date, author, body, false⟩ :: w.writes }

/-- The newest write is still waiting. -/
def World.waiting (w : World T K A V) : Bool := w.writes.head?.any fun x => !x.executed

/-- What the world does, and may answer, for each observation. -/
def Happens [DecidableEq T] [DecidableEq K] (w : World T K A V) (t : T) :
    Obs K A V → World T K A V → Prop
  | .acquired key, w' => w.owner key = none ∧ w' = { w with owner := w.owner.acquire t key }
  | .released key, w' => w' = { w with owner := w.owner.unlock t key }
  | .read value, w' => w' = w ∧ value = w.value
  | .asked waiting, w' => w' = w ∧ waiting = w.waiting
  | .write author body, w' => w' = w ∨ w.Accepts author body w'
  | .quiet, w' => w' = w

/-- A write that was waiting is executed. -/
def Env (w w' : World T K A V) : Prop :=
  ∃ newer x older, w.writes = newer ++ x :: older ∧ x.executed = false ∧
    w' = { w with value := x.body, writes := newer ++ { x with executed := true } :: older }

/-- The process dies: every lock is free again. -/
def Crash (w w' : World T K A V) : Prop := w' = { w with owner := fun _ => none }

/-- How far a thread has got. -/
inductive Phase (V : Type) where
  /-- Not in the locked section. -/
  | out
  /-- In the locked section, nothing known. -/
  | locked
  /-- The value was read. -/
  | read (value : V)
  /-- After that, the newest write was not waiting. -/
  | idle (value : V)

/-- Where the question leads. -/
def Phase.asked : Phase V → Bool → Phase V
  | read v, false => idle v
  | read _, true => locked
  | q, _ => q

/-- Where reading, or writing, leads in the locked section. -/
def Phase.within (q q' : Phase V) : Phase V :=
  match q with
  | out => out
  | _ => q'

/-- The phase after an observation, for the lock `key`. -/
def Phase.next [DecidableEq K] (key : K) (q : Phase V) : Obs K A V → Phase V
  | .acquired key' => if key' = key then locked else q
  | .released key' => if key' = key then out else q
  | .read v => q.within (read v)
  | .asked waiting => q.asked waiting
  | .write _ _ => q.within locked
  | .quiet => q

/-- Only giving up the lock leads out of the locked section. -/
theorem Phase.next_inside [DecidableEq K] {key : K} {q : Phase V} {o : Obs K A V}
    (ho : ∀ key', o ≠ .released key') (hq : q ≠ .out) : q.next key o ≠ .out := by
  cases o with
  | acquired key' =>
    show (if key' = key then locked else q) ≠ .out
    split
    · exact fun h => nomatch h
    · exact hq
  | released key' => exact absurd rfl (ho key')
  | quiet => exact hq
  | read v => cases q <;> first | exact absurd rfl hq | exact fun h => nomatch h
  | write a v => cases q <;> first | exact absurd rfl hq | exact fun h => nomatch h
  | asked b => cases q <;> cases b <;> first | exact absurd rfl hq | exact fun h => nomatch h

/-- A write is posted in phase `idle` only, and as an edit of what was read. -/
def Phase.Ok (Edit : A → V → V → Prop) (q : Phase V) : Obs K A V → Prop
  | .write author body => ∃ v, q = idle v ∧ Edit author v body
  | _ => True

/-! ## The invariant -/

/-- The invariant (module doc). -/
structure Inv (Edit : A → V → V → Prop) (key : K) (w : World T K A V) (ph : T → Phase V) :
    Prop where
  holds : w.owner.Guards key fun t => ph t ≠ .out
  older : ∀ x ∈ w.writes.tail, x.executed = true
  edits : ∀ x ∈ w.writes, x.executed = false → Edit x.author w.value x.body
  read : ∀ t v, ph t = .read v → w.value = v
  idle : ∀ t v, ph t = .idle v → w.value = v ∧ ∀ x ∈ w.writes, x.executed = true
  dates : w.writes.Pairwise fun x x' => x'.date < x.date

variable {Edit : A → V → V → Prop} {key : K} {w w' : World T K A V} {ph : T → Phase V} {t : T}

/-- The worlds to begin with: every write was executed. -/
structure World.Settled (w : World T K A V) : Prop where
  executed : ∀ x ∈ w.writes, x.executed = true
  dates : w.writes.Pairwise fun x x' => x'.date < x.date

theorem World.Settled.inv (h : w.Settled) : Inv Edit key w fun _ => Phase.out where
  holds _ hne := absurd rfl hne
  older x hx := h.executed x (List.mem_of_mem_tail hx)
  edits x hx hf := by
    rw [h.executed x hx] at hf
    exact nomatch hf
  read _ _ hq := nomatch hq
  idle _ _ hq := nomatch hq
  dates := h.dates

/-- A write that is executed is an edit of the value it replaces. -/
theorem Inv.executed (h : Inv Edit key w ph) (hw : Env w w') :
    ∃ x ∈ w.writes, x.executed = false ∧ w'.value = x.body ∧ Edit x.author w.value w'.value := by
  obtain ⟨newer, x, older, hws, hx, rfl⟩ := hw
  have hmem : x ∈ w.writes := by
    rw [hws]
    exact List.mem_append_right _ (List.mem_cons_self ..)
  exact ⟨x, hmem, hx, rfl, h.edits x hmem hx⟩

/-- A write that is waiting is the newest. -/
theorem Inv.newest (h : Inv Edit key w ph) {newer older : List (Write A V)} {x : Write A V}
    (hws : w.writes = newer ++ x :: older) (hx : x.executed = false) : newer = [] := by
  cases newer with
  | nil => rfl
  | cons n newer =>
    have hmem : x ∈ w.writes.tail := by
      rw [hws]
      exact List.mem_append_right _ (List.mem_cons_self ..)
    rw [h.older x hmem] at hx
    exact nomatch hx

/-- If the newest write is not waiting, none is. -/
theorem Inv.executed_of_not_waiting (h : Inv Edit key w ph) (hw : w.waiting = false) :
    ∀ x ∈ w.writes, x.executed = true := by
  intro x hx
  have holder := h.older
  unfold World.waiting at hw
  cases hws : w.writes with
  | nil =>
    rw [hws] at hx
    exact nomatch hx
  | cons x₀ older =>
    rw [hws] at hx hw holder
    rcases List.mem_cons.mp hx with rfl | hx
    · simpa using hw
    · exact holder x hx

/-- An execution, while nobody has read the value without having asked yet. -/
theorem Inv.env (h : Inv Edit key w ph) (hw : Env w w') (hr : ∀ t v, ph t ≠ .read v) :
    Inv Edit key w' ph := by
  obtain ⟨newer, x, older, hws, hx, rfl⟩ := hw
  obtain rfl := h.newest hws hx
  have holder := h.older
  have hdates := h.dates
  rw [hws] at holder hdates
  have hall : ∀ y ∈ [] ++ { x with executed := true } :: older, y.executed = true := by
    intro y hy
    rcases List.mem_cons.mp hy with rfl | hy
    · rfl
    · exact holder y hy
  refine ⟨h.holds, holder, fun y hy hf => ?_, fun t v hq => absurd hq (hr t v),
    fun t v hq => ?_, ?_⟩
  · rw [hall y hy] at hf
    exact nomatch hf
  · -- nothing was waiting
    have hx' := (h.idle t v hq).2 x (by rw [hws]; exact List.mem_cons_self ..)
    rw [hx'] at hx
    exact nomatch hx
  · exact List.pairwise_cons.mpr ⟨(List.pairwise_cons.mp hdates).1, (List.pairwise_cons.mp hdates).2⟩

theorem Inv.crash (h : Inv Edit key w ph) (hw : Crash w w') : Inv Edit key w' fun _ => .out := by
  obtain rfl := hw
  exact ⟨fun _ hne => absurd rfl hne, h.older, h.edits, fun _ _ hq => (nomatch hq),
    fun _ _ hq => (nomatch hq), h.dates⟩

/-- Threads that know no more than before, in a world with the same value and writes. -/
theorem Inv.weaken (h : Inv Edit key w ph) {ph' : T → Phase V} (hv : w'.value = w.value)
    (hw : w'.writes = w.writes) (hh : w'.owner.Guards key fun t => ph' t ≠ .out)
    (hp : ∀ t, ph' t = .out ∨ ph' t = .locked ∨ ph' t = ph t) : Inv Edit key w' ph' where
  holds := hh
  older := by rw [hw]; exact h.older
  edits := by rw [hw, hv]; exact h.edits
  read u v hq := by
    rw [hv]
    rcases hp u with ho | ho | ho
    · exact nomatch ho.symm.trans hq
    · exact nomatch ho.symm.trans hq
    · exact h.read u v (ho.symm.trans hq)
  idle u v hq := by
    rw [hv, hw]
    rcases hp u with ho | ho | ho
    · exact nomatch ho.symm.trans hq
    · exact nomatch ho.symm.trans hq
    · exact h.idle u v (ho.symm.trans hq)
  dates := by rw [hw]; exact h.dates

variable [DecidableEq T]

/-- A thread in the locked section learns something. -/
theorem Inv.learn (h : Inv Edit key w ph) {q : Phase V} (hin : ph t ≠ .out)
    (hr : ∀ v, q = .read v → w.value = v)
    (hi : ∀ v, q = .idle v → w.value = v ∧ ∀ x ∈ w.writes, x.executed = true) :
    Inv Edit key w (update ph t q) where
  holds := h.holds.stay t (.inl hin) fun u hut hu => by
    simpa only [Function.update_of_ne hut] using hu
  older := h.older
  edits := h.edits
  read u v hq := by
    by_cases hut : u = t
    · rw [hut, Function.update_self] at hq
      exact hr v hq
    · rw [Function.update_of_ne hut] at hq
      exact h.read u v hq
  idle u v hq := by
    by_cases hut : u = t
    · rw [hut, Function.update_self] at hq
      exact hi v hq
    · rw [Function.update_of_ne hut] at hq
      exact h.idle u v hq
  dates := h.dates

theorem Inv.same (h : Inv Edit key w ph) {q : Phase V} (hq : q = ph t) :
    Inv Edit key w (update ph t q) := by
  rw [hq, Function.update_eq_self]
  exact h

/-- A thread starts. -/
theorem Inv.start (h : Inv Edit key w ph) : Inv Edit key w (update ph t .out) := by
  refine h.weaken rfl rfl (h.holds.stay t (.inr fun hne => ?_) fun u hut hu => ?_) fun u => ?_
  · rw [Function.update_self] at hne
    exact hne rfl
  · simpa only [Function.update_of_ne hut] using hu
  · by_cases hut : u = t
    · rw [hut, Function.update_self]
      exact .inl rfl
    · exact .inr (.inr (Function.update_of_ne hut ..))

/-- A write is accepted: it is an edit of the value, and nothing else is waiting. -/
theorem Inv.accepts (h : Inv Edit key w ph) {author : A} {body v : V} (hq : ph t = .idle v)
    (he : Edit author v body) (ha : w.Accepts author body w') :
    Inv Edit key w' (update ph t .locked) := by
  obtain ⟨date, hdate, rfl⟩ := ha
  have hin : ph t ≠ .out := by rw [hq]; exact fun he => nomatch he
  obtain ⟨rfl, hall⟩ := h.idle t v hq
  have hphase : ∀ u, update ph t .locked u = .locked ∨ update ph t .locked u = .out := by
    intro u
    by_cases hut : u = t
    · rw [hut, Function.update_self]
      exact .inl rfl
    · rw [Function.update_of_ne hut]
      exact .inr (not_not.mp (h.holds.alone hin hut))
  refine ⟨h.holds.stay t (.inl hin) fun u hut hu => ?_, hall, fun x hx hf => ?_,
    fun u v' hu => ?_, fun u v' hu => ?_, List.pairwise_cons.mpr ⟨hdate, h.dates⟩⟩
  · simpa only [Function.update_of_ne hut] using hu
  · rcases List.mem_cons.mp hx with rfl | hx
    · exact he
    · rw [hall x hx] at hf
      exact nomatch hf
  · rcases hphase u with ho | ho <;> exact nomatch ho.symm.trans hu
  · rcases hphase u with ho | ho <;> exact nomatch ho.symm.trans hu

/-! ## What happens keeps the invariant -/

/-- Taking or giving up a lock. -/
theorem Inv.lock (h : Inv Edit key w ph) {owner : Owners T K} {q : Phase V}
    (hq : q = .out ∨ q = .locked ∨ q = ph t)
    (hh : owner.Guards key fun u => update ph t q u ≠ .out) :
    Inv Edit key { w with owner := owner } (update ph t q) := by
  refine h.weaken rfl rfl hh fun u => ?_
  by_cases hut : u = t
  · subst hut
    rw [Function.update_self]
    exact hq
  · exact .inr (.inr (Function.update_of_ne hut ..))

theorem Inv.asked (h : Inv Edit key w ph) :
    Inv Edit key w (update ph t ((ph t).asked w.waiting)) := by
  cases hq : ph t with
  | out => exact h.same hq.symm
  | locked => exact h.same hq.symm
  | idle v => exact h.same (by rw [hq]; cases w.waiting <;> rfl)
  | read v =>
    have hin : ph t ≠ .out := by rw [hq]; exact fun he => nomatch he
    have hv := h.read t v hq
    cases hw : w.waiting with
    | true => exact h.learn hin (fun _ hr => nomatch hr) fun _ hi => nomatch hi
    | false =>
      refine h.learn hin (fun _ hr => nomatch hr) fun v' hi => ?_
      obtain rfl := Phase.idle.inj hi
      exact ⟨hv, h.executed_of_not_waiting hw⟩

variable [DecidableEq K]

theorem Inv.acquired (h : Inv Edit key w ph) {key' : K} (hfree : w.owner key' = none) :
    Inv Edit key { w with owner := w.owner.acquire t key' }
      (update ph t (if key' = key then .locked else ph t)) := by
  refine h.lock ?_ (h.holds.acquire hfree fun u hu => ?_)
  · split
    · exact .inr (.inl rfl)
    · exact .inr (.inr rfl)
  · by_cases hut : u = t
    · subst hut
      rw [Function.update_self] at hu
      by_cases hk : key' = key
      · exact .inl ⟨rfl, hk⟩
      · rw [if_neg hk] at hu
        exact .inr hu
    · rw [Function.update_of_ne hut] at hu
      exact .inr hu

theorem Inv.released (h : Inv Edit key w ph) (key' : K) :
    Inv Edit key { w with owner := w.owner.unlock t key' }
      (update ph t (if key' = key then .out else ph t)) := by
  refine h.lock ?_ (h.holds.unlock fun u hu => ?_)
  · split
    · exact .inl rfl
    · exact .inr (.inr rfl)
  · by_cases hut : u = t
    · subst hut
      rw [Function.update_self] at hu
      by_cases hk : key' = key
      · rw [if_pos hk] at hu
        exact absurd rfl hu
      · rw [if_neg hk] at hu
        exact ⟨hu, fun _ => hk⟩
    · rw [Function.update_of_ne hut] at hu
      exact ⟨hu, fun heq => absurd heq hut⟩

/-- Everything a thread does keeps the invariant. -/
theorem Inv.happens (h : Inv Edit key w ph) {o : Obs K A V} (hok : (ph t).Ok Edit o)
    (hw : Happens w t o w') : Inv Edit key w' (update ph t ((ph t).next key o)) := by
  cases o with
  | acquired key' =>
    obtain ⟨hfree, rfl⟩ := hw
    exact h.acquired hfree
  | released key' =>
    obtain rfl := hw
    exact h.released key'
  | read value =>
    obtain ⟨rfl, rfl⟩ := hw
    show Inv Edit key w' (update ph t ((ph t).within (.read w'.value)))
    by_cases hin : ph t = .out
    · exact h.same (by rw [hin]; rfl)
    · refine h.learn hin (fun v hv => ?_) fun v hv => ?_
      · cases hq : ph t <;> rw [hq] at hv
        · exact absurd hq hin
        all_goals exact Phase.read.inj hv
      · cases hq : ph t <;> rw [hq] at hv <;> exact nomatch hv
  | asked waiting =>
    obtain ⟨rfl, rfl⟩ := hw
    exact h.asked
  | write author body =>
    obtain ⟨v, hq, he⟩ := hok
    have hin : ph t ≠ .out := by rw [hq]; exact fun he => nomatch he
    have hnext : (ph t).next key (.write author body) = .locked := by
      rw [hq]
      rfl
    rw [hnext]
    rcases hw with rfl | ha
    · exact h.learn hin (fun _ hr => nomatch hr) fun _ hi => nomatch hi
    · exact h.accepts hq he ha
  | quiet =>
    obtain rfl := hw
    exact h.same rfl

end Capic.Effect.Rewrite
