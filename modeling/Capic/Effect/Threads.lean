import Mathlib.Logic.Function.Basic
import Capic.Effect.Monitor

/-!
# Programs running concurrently against one world

A `System` is any number of threads — one program each, at most — that share a
`World`. A call of a thread is atomic: `exec` says which answers it may get and
what it does to the world. Between any two calls the world may move on by itself
(`env`), an idle thread may start a new program (`job`), and the whole process
may die (`crash`): every program is gone at once, the world survives as far as
`crash` says.

Each thread carries a `Phase`, a ghost that only watches: `next` moves it along
with the thread's own answered calls. It serves two purposes. The world may look
at it (`exec` gets it), so that a request accepted by the world can remember on
whose behalf it was made. And it cuts proofs in two: what a program does is
proved once by `Prog.wp` with the phase as the monitor (`System.monitor`), and
what the threads do to one another is proved about phases and worlds alone, with
no program in sight. `Sound.reach` puts the halves together: an invariant of
world and phases that every allowed call, every start, every move of the
environment and every crash preserves holds in every reachable configuration.

A run may be restricted by a `Rule` on its steps; `fun _ _ _ => True` is no
restriction.
-/

namespace Capic.Effect

/-- Threads `T` with calls `ι` over a shared world (module doc). -/
structure System (T ι : Type) (ω : ι → Type) where
  World : Type
  Phase : Type
  idle : Phase
  next : Phase → (c : ι) → ω c → Phase
  exec : T → Phase → World → (c : ι) → ω c → World → Prop
  env : World → World → Prop
  crash : World → World → Prop
  job : T → Phase → Prog ι ω Unit → Prop

namespace System

variable {T ι : Type} {ω : ι → Type} [DecidableEq T]

/-- The world, and for each thread what is left of its program and where it is. -/
structure Conf (S : System T ι ω) where
  world : S.World
  prog : T → Prog ι ω Unit
  phase : T → S.Phase

/-- What a step does, as far as a rule may look at it. -/
inductive Label (T ι : Type) (ω : ι → Type) where
  | call (t : T) (e : Event ι ω)
  | start (t : T)
  | env
  | crash

variable {S : System T ι ω}

/-- One atomic step of the system. -/
inductive Step (S : System T ι ω) : S.Conf → Label T ι ω → S.Conf → Prop where
  | call {s : S.Conf} {t : T} {c : ι} {k : ω c → Prog ι ω Unit} {a : ω c} {w' : S.World} :
      s.prog t = .call c k → S.exec t (s.phase t) s.world c a w' →
      Step S s (.call t ⟨c, a⟩)
        ⟨w', Function.update s.prog t (k a),
          Function.update s.phase t (S.next (s.phase t) c a)⟩
  | start {s : S.Conf} {t : T} {q : S.Phase} {p : Prog ι ω Unit} :
      s.prog t = .ret () → S.job t q p →
      Step S s (.start t) ⟨s.world, Function.update s.prog t p, Function.update s.phase t q⟩
  | env {s : S.Conf} {w' : S.World} :
      S.env s.world w' → Step S s .env ⟨w', s.prog, s.phase⟩
  | crash {s : S.Conf} {w' : S.World} :
      S.crash s.world w' → Step S s .crash ⟨w', fun _ => .ret (), fun _ => S.idle⟩

/-- A restriction on the steps of a run, by the state before the step. -/
abbrev Rule (S : System T ι ω) := S.World → (T → S.Phase) → Label T ι ω → Prop

/-- Before the first step: nothing runs. -/
def start (S : System T ι ω) (w : S.World) : S.Conf := ⟨w, fun _ => .ret (), fun _ => S.idle⟩

/-- The configurations that runs from the world `w` reach, all steps meeting the rule. -/
inductive Reach (S : System T ι ω) (C : S.Rule) (w : S.World) : S.Conf → Prop where
  | init : Reach S C w (S.start w)
  | step {s s' : S.Conf} {l : Label T ι ω} : Reach S C w s → S.Step s l s' →
      C s.world s.phase l → Reach S C w s'

/-- What is asked of the programs: the calls they may make where, which answers they may
count on, where a panic may pass, and where they may end. -/
structure Discipline (S : System T ι ω) where
  ok : S.Phase → ι → Prop
  adm : S.Phase → (c : ι) → ω c → Prop
  panic : S.Phase → Prop := fun _ => True
  fin : S.Phase → Prop := fun _ => True

/-- The phases as a monitor. -/
def monitor (S : System T ι ω) (D : S.Discipline) : Monitor ι ω :=
  ⟨S.Phase, D.ok, D.adm, S.next, D.panic⟩

/-- What has to be shown for `Inv` to hold throughout (module doc). -/
structure Sound (S : System T ι ω) (C : S.Rule) (D : S.Discipline)
    (Inv : S.World → (T → S.Phase) → Prop) : Prop where
  /-- The world only gives answers the programs take into account. -/
  answers : ∀ {w : S.World} {ph : T → S.Phase} {t c a w'}, Inv w ph →
    S.exec t (ph t) w c a w' → C w ph (.call t ⟨c, a⟩) → D.adm (ph t) c a
  /-- Every program that may be started keeps to the discipline. -/
  jobs : ∀ {t q p}, S.job t q p → p.wp (S.monitor D) (fun q' _ => D.fin q') q
  idle : D.fin S.idle
  call : ∀ {w : S.World} {ph : T → S.Phase} {t c a w'}, Inv w ph → D.ok (ph t) c →
    S.exec t (ph t) w c a w' → C w ph (.call t ⟨c, a⟩) →
    Inv w' (Function.update ph t (S.next (ph t) c a))
  start : ∀ {w : S.World} {ph : T → S.Phase} {t q p}, Inv w ph → D.fin (ph t) → S.job t q p →
    Inv w (Function.update ph t q)
  env : ∀ {w w' : S.World} {ph : T → S.Phase}, Inv w ph → S.env w w' → C w ph .env → Inv w' ph
  crash : ∀ {w w' : S.World} {ph : T → S.Phase}, Inv w ph → S.crash w w' →
    Inv w' fun _ => S.idle

variable {C : S.Rule} {D : S.Discipline} {Inv : S.World → (T → S.Phase) → Prop}

/-- The invariant holds in every reachable configuration, and what is left of every
program keeps to the discipline. -/
theorem Sound.reach (h : S.Sound C D Inv) {w : S.World} (h0 : Inv w fun _ => S.idle)
    {s : S.Conf} (hs : S.Reach C w s) :
    Inv s.world s.phase ∧
      ∀ t, (s.prog t).wp (S.monitor D) (fun q _ => D.fin q) (s.phase t) := by
  induction hs with
  | init => exact ⟨h0, fun _ => h.idle⟩
  | step _ hstep hC ih =>
    obtain ⟨hI, hp⟩ := ih
    cases hstep with
    | @call t c k a w' hprog hexec =>
      have hw := hp t
      rw [hprog] at hw
      refine ⟨h.call hI hw.1 hexec hC, fun u => ?_⟩
      by_cases hu : u = t
      · subst hu
        simp only [Function.update_self]
        exact hw.2 a (h.answers hI hexec hC)
      · simp only [Function.update_of_ne hu]
        exact hp u
    | @start t q p hprog hjob =>
      have hw := hp t
      rw [hprog] at hw
      refine ⟨h.start hI hw hjob, fun u => ?_⟩
      by_cases hu : u = t
      · subst hu
        simp only [Function.update_self]
        exact h.jobs hjob
      · simp only [Function.update_of_ne hu]
        exact hp u
    | env henv => exact ⟨h.env hI henv hC, hp⟩
    | crash hcrash => exact ⟨h.crash hI hcrash, fun _ => h.idle⟩

/-- In particular, the call a thread is about to make is allowed. -/
theorem Sound.call_ok (h : S.Sound C D Inv) {w : S.World} (h0 : Inv w fun _ => S.idle)
    {s : S.Conf} (hs : S.Reach C w s) {t : T} {c : ι} {k : ω c → Prog ι ω Unit}
    (hc : s.prog t = .call c k) : D.ok (s.phase t) c := by
  have hw := (h.reach h0 hs).2 t
  rw [hc] at hw
  exact hw.1

/-! ## Runs given by answers

A concrete run is written down by saying who moves and how the call it makes is
answered; which call that is, the program says. -/

/-- A thread starts a program. -/
theorem Reach.start {w : S.World} {s : S.Conf} (h : S.Reach C w s) (t : T) {q : S.Phase}
    {p : Prog ι ω Unit} (hidle : s.prog t = .ret ()) (hjob : S.job t q p)
    (hC : C s.world s.phase (.start t)) :
    S.Reach C w ⟨s.world, Function.update s.prog t p, Function.update s.phase t q⟩ :=
  .step h (.start hidle hjob) hC

/-- A thread makes its next call, and is answered by `ans`. -/
theorem Reach.answer {w : S.World} {s : S.Conf} (h : S.Reach C w s) (t : T) (ans : ∀ c, ω c)
    {c : ι} (hc : (s.prog t).next? = some c) {w' : S.World}
    (hexec : S.exec t (s.phase t) s.world c (ans c) w')
    (hC : C s.world s.phase (.call t ⟨c, ans c⟩)) :
    S.Reach C w ⟨w', Function.update s.prog t ((s.prog t).advance ans),
      Function.update s.phase t (S.next (s.phase t) c (ans c))⟩ := by
  cases hp : s.prog t with
  | ret a =>
    rw [hp] at hc
    exact nomatch hc
  | call c' k =>
    rw [hp] at hc
    obtain rfl := Option.some.inj hc
    exact .step h (.call hp hexec) hC

/-- The same for the thread that moved last, whose program and phase are in sight. -/
theorem Reach.again {w w₁ : S.World} {prog : T → Prog ι ω Unit} {ph : T → S.Phase} {t : T}
    {p : Prog ι ω Unit} {q : S.Phase}
    (h : S.Reach C w ⟨w₁, Function.update prog t p, Function.update ph t q⟩) (ans : ∀ c, ω c)
    {c : ι} (hc : p.next? = some c) {w' : S.World} (hexec : S.exec t q w₁ c (ans c) w')
    (hC : C w₁ (Function.update ph t q) (.call t ⟨c, ans c⟩)) :
    S.Reach C w ⟨w', Function.update prog t (p.advance ans),
      Function.update ph t (S.next q c (ans c))⟩ := by
  have h' := h.answer t ans (by simpa using hc) (by simpa using hexec) hC
  simpa using h'

/-- It does not matter which of two threads is written first. -/
theorem Reach.switch {w w₁ : S.World} {prog : T → Prog ι ω Unit} {ph : T → S.Phase} {t u : T}
    {p p' : Prog ι ω Unit} {q q' : S.Phase} (hne : t ≠ u)
    (h : S.Reach C w ⟨w₁, Function.update (Function.update prog t p) u p',
      Function.update (Function.update ph t q) u q'⟩) :
    S.Reach C w ⟨w₁, Function.update (Function.update prog u p') t p,
      Function.update (Function.update ph u q') t q⟩ := by
  rw [Function.update_comm hne p p' prog, Function.update_comm hne q q' ph] at h
  exact h

/-- What `n` calls of a thread lead to, if they are answered by `ans` and change the world by
`eff`. -/
def play (S : System T ι ω) (ans : ∀ c, ω c) (eff : S.Phase → S.World → ι → S.World) :
    Nat → Prog ι ω Unit × S.Phase × S.World → Prog ι ω Unit × S.Phase × S.World
  | 0, x => x
  | _ + 1, (.ret a, q, w) => (.ret a, q, w)
  | n + 1, (.call c k, q, w) => S.play ans eff n (k (ans c), S.next q c (ans c), eff q w c)

/-- A thread makes `n` calls, as long as `P` is true, and this is then how they are answered. -/
theorem Reach.play {w w₁ : S.World} {prog : T → Prog ι ω Unit} {ph : T → S.Phase} {t : T}
    {p : Prog ι ω Unit} {q : S.Phase} (ans : ∀ c, ω c) (eff : S.Phase → S.World → ι → S.World)
    (P : S.Phase → S.World → Prop)
    (hexec : ∀ q w c, P q w →
      S.exec t q w c (ans c) (eff q w c) ∧ P (S.next q c (ans c)) (eff q w c))
    (hC : ∀ w ph c, P (ph t) w → C w ph (.call t ⟨c, ans c⟩)) (n : Nat) (hw : P q w₁)
    (h : S.Reach C w ⟨w₁, Function.update prog t p, Function.update ph t q⟩) :
    S.Reach C w ⟨(S.play ans eff n (p, q, w₁)).2.2,
      Function.update prog t (S.play ans eff n (p, q, w₁)).1,
      Function.update ph t (S.play ans eff n (p, q, w₁)).2.1⟩ ∧
        P (S.play ans eff n (p, q, w₁)).2.1 (S.play ans eff n (p, q, w₁)).2.2 := by
  induction n generalizing p q w₁ with
  | zero => exact ⟨h, hw⟩
  | succ n ih =>
    cases p with
    | ret a => exact ⟨h, hw⟩
    | call c k =>
      obtain ⟨hstep, hP⟩ := hexec q w₁ c hw
      exact ih hP (h.again ans rfl hstep (hC _ _ _ (by rwa [Function.update_self])))

/-- A thread runs its program to the end. -/
theorem Reach.finish {w w₁ : S.World} {prog : T → Prog ι ω Unit} {ph : T → S.Phase} {t : T}
    {p : Prog ι ω Unit} {q : S.Phase} (ans : ∀ c, ω c) (eff : S.Phase → S.World → ι → S.World)
    (P : S.Phase → S.World → Prop)
    (hexec : ∀ q w c, P q w →
      S.exec t q w c (ans c) (eff q w c) ∧ P (S.next q c (ans c)) (eff q w c))
    (hC : ∀ w ph c, P (ph t) w → C w ph (.call t ⟨c, ans c⟩)) (n : Nat) (hw : P q w₁)
    (h : S.Reach C w ⟨w₁, Function.update prog t p, Function.update ph t q⟩)
    (e : Prog ι ω Unit × S.Phase × S.World) (he : S.play ans eff n (p, q, w₁) = e)
    (hret : e.1.next?.isNone = true) :
    S.Reach C w ⟨e.2.2, Function.update prog t (.ret ()), Function.update ph t e.2.1⟩ ∧
      P e.2.1 e.2.2 := by
  have hplay := h.play ans eff P hexec hC n hw
  rw [he, Prog.eq_ret hret] at hplay
  exact hplay

/-- The same where `eff` says what a call does to the world only if the call is possible, which it
need not be: a lock may be taken. -/
def follow (S : System T ι ω) (ans : ∀ c, ω c) (eff : S.Phase → S.World → ι → Option S.World) :
    Nat → Prog ι ω Unit × S.Phase × S.World → Option (Prog ι ω Unit × S.Phase × S.World)
  | 0, x => some x
  | _ + 1, (.ret a, q, w) => some (.ret a, q, w)
  | n + 1, (.call c k, q, w) =>
    (eff q w c).bind fun w' => S.follow ans eff n (k (ans c), S.next q c (ans c), w')

/-- A thread makes `n` calls, each of which is possible. -/
theorem Reach.follow {w w₁ : S.World} {prog : T → Prog ι ω Unit} {ph : T → S.Phase} {t : T}
    {p : Prog ι ω Unit} {q : S.Phase} (ans : ∀ c, ω c)
    (eff : S.Phase → S.World → ι → Option S.World) (P : S.World → Prop)
    (hexec : ∀ ph w c w', P w → eff (ph t) w c = some w' →
      S.exec t (ph t) w c (ans c) w' ∧ C w ph (.call t ⟨c, ans c⟩) ∧ P w') (n : Nat) (hw : P w₁)
    (h : S.Reach C w ⟨w₁, Function.update prog t p, Function.update ph t q⟩)
    {e : Prog ι ω Unit × S.Phase × S.World} (he : S.follow ans eff n (p, q, w₁) = some e) :
    S.Reach C w ⟨e.2.2, Function.update prog t e.1, Function.update ph t e.2.1⟩ ∧ P e.2.2 := by
  induction n generalizing p q w₁ with
  | zero =>
    obtain rfl := Option.some.inj he
    exact ⟨h, hw⟩
  | succ n ih =>
    cases p with
    | ret a =>
      obtain rfl := Option.some.inj he
      exact ⟨h, hw⟩
    | call c k =>
      obtain ⟨w', heff, he⟩ := Option.bind_eq_some_iff.mp he
      have hself : eff (Function.update ph t q t) w₁ c = some w' := by
        rwa [Function.update_self]
      obtain ⟨hstep, hC, hP⟩ := hexec _ w₁ c w' hw hself
      rw [Function.update_self] at hstep
      exact ih hP (h.again ans rfl hstep hC) he

/-- The world moves. -/
theorem Reach.env {w : S.World} {s : S.Conf} (h : S.Reach C w s) {w' : S.World}
    (henv : S.env s.world w') (hC : C s.world s.phase .env) :
    S.Reach C w ⟨w', s.prog, s.phase⟩ :=
  .step h (.env henv) hC

end System

end Capic.Effect
