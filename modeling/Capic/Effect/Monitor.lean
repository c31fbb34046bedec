import Capic.Effect.Prog

/-!
# Monitors and weakest preconditions

A `Monitor` watches the calls of one program. It keeps a phase, moves it along
with every answered call, and says which calls are allowed in which phase.
`Prog.wp M p Q q` is the weakest precondition: started in phase `q`, the program
`p` only ever makes calls the monitor allows — for *every* way of answering them
that the monitor admits — and when it ends, the phase reached and the result
satisfy `Q`. A panic ends a function without a result, so `Go.wp` promises
no `Q` for one; what it promises is every call made before, and that the phase is one
in which the monitor lets a panic pass (`panic`). Deferred calls rely on that.

The rules below are equations, so a function body is taken apart by rewriting:
`wp_bind`, `wp_perform` and `wp_pure` turn a `do` block into a condition on the
answers, `wp_mono` inserts the specification of a function it calls.

`Go.Within E keep p` is the coarse specification most helpers need: every call
is one of `E` and the part `keep` of the variables is left alone, panics
included. `Within.wp` turns it into a `wp` fact for any monitor that those calls
do not move.

`wp_reaches` and its corollaries lead back to traces.
-/

namespace Capic.Effect

/-- An observer of the calls of one program: its phases, the calls it allows, the
answers it takes into account, how an answered call moves the phase, and the phases in
which a panic may pass. -/
structure Monitor (ι : Type) (ω : ι → Type) where
  Phase : Type
  ok : Phase → ι → Prop
  adm : Phase → (c : ι) → ω c → Prop
  next : Phase → (c : ι) → ω c → Phase
  panic : Phase → Prop

variable {ι : Type} {ω : ι → Type} {α β σ τ κ : Type} {M : Monitor ι ω}

namespace Monitor

/-- The phase after a trace. -/
def after (M : Monitor ι ω) : M.Phase → List (Event ι ω) → M.Phase
  | q, [] => q
  | q, e :: tr => M.after (M.next q e.call e.answer) tr

/-- Every answer of the trace is one the monitor takes into account. -/
def Admits (M : Monitor ι ω) : M.Phase → List (Event ι ω) → Prop
  | _, [] => True
  | q, e :: tr => M.adm q e.call e.answer ∧ M.Admits (M.next q e.call e.answer) tr

/-- Every call of the trace is allowed when it is made. -/
def Allows (M : Monitor ι ω) : M.Phase → List (Event ι ω) → Prop
  | _, [] => True
  | q, e :: tr => M.ok q e.call ∧ M.Allows (M.next q e.call e.answer) tr

theorem allows_append {q : M.Phase} {tr tr' : List (Event ι ω)} :
    M.Allows q (tr ++ tr') ↔ M.Allows q tr ∧ M.Allows (M.after q tr) tr' := by
  induction tr generalizing q with
  | nil => exact ⟨fun h => ⟨trivial, h⟩, fun h => h.2⟩
  | cons e tr ih => exact (and_congr_right fun _ => ih).trans and_assoc.symm

/-- A trace is admitted if every answer in it is one that is admitted in every phase. -/
theorem admits_of_forall {tr : List (Event ι ω)} (h : ∀ e ∈ tr, ∀ q, M.adm q e.call e.answer)
    (q : M.Phase) : M.Admits q tr := by
  induction tr generalizing q with
  | nil => trivial
  | cons e tr ih =>
    exact ⟨h e (List.mem_cons_self ..) q, ih (fun e' he' => h e' (List.mem_cons_of_mem _ he')) _⟩

theorem after_append (q : M.Phase) (tr tr' : List (Event ι ω)) :
    M.after q (tr ++ tr') = M.after (M.after q tr) tr' := by
  induction tr generalizing q with
  | nil => rfl
  | cons e tr ih => exact ih (M.next q e.call e.answer)

end Monitor

namespace Prog

/-- The weakest precondition of `p` under the monitor `M` (module doc). -/
def wp (M : Monitor ι ω) : Prog ι ω α → (M.Phase → α → Prop) → M.Phase → Prop
  | ret a, Q, q => Q q a
  | call c k, Q, q => M.ok q c ∧ ∀ a, M.adm q c a → (k a).wp M Q (M.next q c a)

theorem wp_bind (p : Prog ι ω α) (f : α → Prog ι ω β) (Q : M.Phase → β → Prop) (q : M.Phase) :
    (p.bind f).wp M Q q ↔ p.wp M (fun q' a => (f a).wp M Q q') q := by
  induction p generalizing q with
  | ret a => exact Iff.rfl
  | call c k ih =>
    constructor
    · intro h
      exact ⟨h.1, fun a ha => (ih a _).mp (h.2 a ha)⟩
    · intro h
      exact ⟨h.1, fun a ha => (ih a _).mpr (h.2 a ha)⟩

theorem wp_mono {p : Prog ι ω α} {Q Q' : M.Phase → α → Prop} {q : M.Phase}
    (h : p.wp M Q q) (hQ : ∀ q' a, Q q' a → Q' q' a) : p.wp M Q' q := by
  induction p generalizing q with
  | ret a => exact hQ q a h
  | call c k ih => exact ⟨h.1, fun a ha => ih a (h.2 a ha)⟩

/-- Two specifications of one program hold together. -/
theorem wp_and {p : Prog ι ω α} {Q Q' : M.Phase → α → Prop} {q : M.Phase} (h : p.wp M Q q)
    (h' : p.wp M Q' q) : p.wp M (fun q' a => Q q' a ∧ Q' q' a) q := by
  induction p generalizing q with
  | ret a => exact ⟨h, h'⟩
  | call c k ih => exact ⟨h.1, fun a ha => ih a (h.2 a ha) (h'.2 a ha)⟩

/-- Whatever a program becomes along an admitted trace still meets its specification. -/
theorem wp_reaches {p p' : Prog ι ω α} {tr : List (Event ι ω)} (hr : p.Reaches tr p') :
    ∀ {Q : M.Phase → α → Prop} {q : M.Phase}, p.wp M Q q → M.Admits q tr →
      p'.wp M Q (M.after q tr) := by
  induction hr with
  | refl p => intro Q q h _; exact h
  | step _ ih => intro Q q h ha; exact ih (h.2 _ ha.1) ha.2

/-- Every call along an admitted trace was allowed when it was made. -/
theorem wp_call_ok {p p' : Prog ι ω α} {tr₁ tr₂ : List (Event ι ω)} {e : Event ι ω}
    {Q : M.Phase → α → Prop} {q : M.Phase} (h : p.wp M Q q)
    (hr : p.Reaches (tr₁ ++ e :: tr₂) p') (ha : M.Admits q tr₁) :
    M.ok (M.after q tr₁) e.call := by
  obtain ⟨p₁, h₁, h₂⟩ := hr.split
  have hw := wp_reaches h₁ h ha
  cases h₂ with
  | step _ => exact hw.1

/-- An admitted trace is allowed. -/
theorem wp_allows {p p' : Prog ι ω α} {tr : List (Event ι ω)} (hr : p.Reaches tr p') :
    ∀ {Q : M.Phase → α → Prop} {q : M.Phase}, p.wp M Q q → M.Admits q tr → M.Allows q tr := by
  induction hr with
  | refl p => intro Q q _ _; exact trivial
  | step _ ih => intro Q q h ha; exact ⟨h.1, ih (h.2 _ ha.1) ha.2⟩

/-- Every call is one of `E`, and the result satisfies `Q`, whatever the answers. -/
def All (E : ι → Prop) (Q : α → Prop) : Prog ι ω α → Prop
  | ret a => Q a
  | call c k => E c ∧ ∀ a, (k a).All E Q

theorem All.bind {E : ι → Prop} {Q : β → Prop} {p : Prog ι ω α} {f : α → Prog ι ω β}
    {R : α → Prop} (hp : p.All E R) (hf : ∀ a, R a → (f a).All E Q) : (p.bind f).All E Q := by
  induction p with
  | ret a => exact hf a hp
  | call c k ih => exact ⟨hp.1, fun a => ih a (hp.2 a)⟩

theorem All.mono {E E' : ι → Prop} {Q Q' : α → Prop} {p : Prog ι ω α} (hp : p.All E Q)
    (hE : ∀ c, E c → E' c) (hQ : ∀ a, Q a → Q' a) : p.All E' Q' := by
  induction p with
  | ret a => exact hQ a hp
  | call c k ih => exact ⟨hE c hp.1, fun a => ih a (hp.2 a)⟩

/-- Calls that a monitor allows in phases with a property, which they keep. -/
theorem All.wp_inv {E : ι → Prop} {Q : α → Prop} {I : M.Phase → Prop} {p : Prog ι ω α}
    {q : M.Phase} (hp : p.All E Q)
    (hE : ∀ q c, I q → E c → M.ok q c ∧ ∀ a, M.adm q c a → I (M.next q c a)) (hq : I q) :
    p.wp M (fun q' a => I q' ∧ Q a) q := by
  induction p generalizing q with
  | ret a => exact ⟨hq, hp⟩
  | call c k ih =>
    obtain ⟨hok, hnext⟩ := hE q c hq hp.1
    exact ⟨hok, fun a ha => ih a (hp.2 a) (hnext a ha)⟩

/-- What holds of the result whatever the answers holds of the result of a specified program. -/
theorem wp_all {E : ι → Prop} {R : α → Prop} {p : Prog ι ω α} {Q : M.Phase → α → Prop} {q : M.Phase}
    (h : p.wp M Q q) (hp : p.All E R) : p.wp M (fun q' a => Q q' a ∧ R a) q := by
  induction p generalizing q with
  | ret a => exact ⟨h, hp⟩
  | call c k ih => exact ⟨h.1, fun a ha => ih a (h.2 a ha) (hp.2 a)⟩

/-- A property of the phases in which a program may make a call or end holds all along. -/
theorem wp_along {p p' : Prog ι ω α} {tr : List (Event ι ω)} {Q : M.Phase → α → Prop}
    {P : M.Phase → Prop} {q : M.Phase} (h : p.wp M Q q) (hr : p.Reaches tr p')
    (ha : M.Admits q tr) (hok : ∀ q c, M.ok q c → P q) (hQ : ∀ q a, Q q a → P q) :
    P (M.after q tr) := by
  have hw := wp_reaches hr h ha
  cases p' with
  | ret a => exact hQ _ a hw
  | call c k => exact hok _ c hw.1

end Prog

namespace Go

/-- `Q` for a value, a phase that lets it pass for a panic. -/
def post (M : Monitor ι ω) (Q : M.Phase → α → σ → Prop) : M.Phase → Res α × σ → Prop
  | q, (.val a, s) => Q q a s
  | q, (.panic _, _) => M.panic q

/-- The weakest precondition of a function under a monitor (module doc). -/
def wp (M : Monitor ι ω) (p : Go ι ω σ α) (Q : M.Phase → α → σ → Prop) (q : M.Phase) (s : σ) :
    Prop :=
  (p s).wp M (post M Q) q

variable {Q : M.Phase → β → σ → Prop} {q : M.Phase} {s : σ}

theorem wp_pure (b : β) : (pure b : Go ι ω σ β).wp M Q q s ↔ Q q b s := Iff.rfl

theorem wp_panicking (msg : String) : (panicking msg : Go ι ω σ β).wp M Q q s ↔ M.panic q := Iff.rfl

theorem wp_vars {Q : M.Phase → σ → σ → Prop} : (vars : Go ι ω σ σ).wp M Q q s ↔ Q q s s := Iff.rfl

theorem wp_assign {Q : M.Phase → Unit → σ → Prop} (f : σ → σ) :
    (assign f : Go ι ω σ Unit).wp M Q q s ↔ Q q () (f s) := Iff.rfl

theorem wp_perform (c : ι) {Q : M.Phase → ω c → σ → Prop} :
    (perform c : Go ι ω σ (ω c)).wp M Q q s ↔
      M.ok q c ∧ ∀ a, M.adm q c a → Q (M.next q c a) a s := Iff.rfl

theorem wp_bind (p : Go ι ω σ α) (f : α → Go ι ω σ β) :
    (p >>= f).wp M Q q s ↔ p.wp M (fun q' a s' => (f a).wp M Q q' s') q s := by
  refine Iff.trans (Prog.wp_bind (p s) (after f) (post M Q) q) ?_
  have hpost : (fun q' r => (after f r).wp M (post M Q) q') =
      (post M fun q' a s' => (f a).wp M Q q' s') := by
    funext q' r
    obtain ⟨r, s'⟩ := r
    cases r <;> rfl
  rw [hpost]
  exact Iff.rfl

theorem wp_mono {p : Go ι ω σ β} {Q' : M.Phase → β → σ → Prop} (h : p.wp M Q q s)
    (hQ : ∀ q' b s', Q q' b s' → Q' q' b s') : p.wp M Q' q s := by
  refine Prog.wp_mono h fun q' r hr => ?_
  obtain ⟨r, s'⟩ := r
  cases r with
  | val b => exact hQ q' b s' hr
  | panic msg => exact hr

theorem wp_and {p : Go ι ω σ β} {Q' : M.Phase → β → σ → Prop} (h : p.wp M Q q s)
    (h' : p.wp M Q' q s) : p.wp M (fun q' b s' => Q q' b s' ∧ Q' q' b s') q s := by
  refine Prog.wp_mono (Prog.wp_and h h') fun q' r hr => ?_
  obtain ⟨r, s'⟩ := r
  cases r with
  | val b => exact hr
  | panic msg => exact hr.1

theorem wp_ite (c : Prop) [Decidable c] (p p' : Go ι ω σ β) :
    (if c then p else p').wp M Q q s ↔ if c then p.wp M Q q s else p'.wp M Q q s := by
  split <;> exact Iff.rfl

/-- `defer`: the deferred call has to be allowed wherever a panic passes, and the panic
goes on after it. -/
theorem wp_deferring {c : ι} {body : Go ι ω σ β}
    (hpanic : ∀ q', M.panic q' → M.ok q' c ∧ ∀ a, M.adm q' c a → M.panic (M.next q' c a))
    (h : body.wp M (fun q' b s' =>
      M.ok q' c ∧ ∀ a, M.adm q' c a → Q (M.next q' c a) b s') q s) :
    (deferring c body).wp M Q q s := by
  unfold deferring wp
  rw [Prog.wp_bind]
  refine Prog.wp_mono h fun q' r hr => ?_
  obtain ⟨r, s'⟩ := r
  cases r with
  | val b => exact hr
  | panic msg => exact hpanic q' hr

theorem wp_zoom {get : σ → τ} {set : τ → σ → σ} {p : Go ι ω τ β} :
    (zoom get set p).wp M Q q s ↔ p.wp M (fun q' b t => Q q' b (set t s)) q (get s) := by
  unfold zoom wp
  rw [Prog.wp_bind]
  have hpost : (fun q' (r : Res β × τ) =>
      (Prog.ret (r.1, set r.2 s) : Prog ι ω (Res β × σ)).wp M (post M Q) q') =
      (post M fun q' b t => Q q' b (set t s)) := by
    funext q' r
    obtain ⟨r, t⟩ := r
    cases r <;> rfl
  rw [hpost]

/-- What a complete run of a specified function ends with. -/
theorem wp_runs {p : Go ι ω σ β} {tr : List (Event ι ω)} {b : β} {s' : σ} (h : p.wp M Q q s)
    (hr : Runs p s tr (.val b) s') (ha : M.Admits q tr) : Q (M.after q tr) b s' :=
  Prog.wp_reaches hr h ha

/-- A run of a specified function that panics ends in a phase that lets a panic pass. -/
theorem wp_runs_panic {p : Go ι ω σ β} {tr : List (Event ι ω)} {msg : String} {s' : σ}
    (h : p.wp M Q q s) (hr : Runs p s tr (.panic msg) s') (ha : M.Admits q tr) :
    M.panic (M.after q tr) :=
  Prog.wp_reaches hr h ha

/-- All calls of a run were allowed when they were made. -/
theorem wp_runs_allows {p : Go ι ω σ β} {tr : List (Event ι ω)} {r : Res β} {s' : σ}
    (h : p.wp M Q q s) (hr : Runs p s tr r s') (ha : M.Admits q tr) : M.Allows q tr :=
  Prog.wp_allows hr h ha

/-- The same for a run that is not complete. -/
theorem wp_prefix_allows {p : Go ι ω σ β} {tr : List (Event ι ω)} (h : p.wp M Q q s)
    (hr : Prefix p s tr) (ha : M.Admits q tr) : M.Allows q tr := by
  obtain ⟨p', hr⟩ := hr
  exact Prog.wp_allows hr h ha

/-- Every call along a run was allowed when it was made. -/
theorem wp_call_ok {p : Go ι ω σ β} {tr₁ tr₂ : List (Event ι ω)} {e : Event ι ω}
    (h : p.wp M Q q s) (hr : Prefix p s (tr₁ ++ e :: tr₂)) (ha : M.Admits q tr₁) :
    M.ok (M.after q tr₁) e.call := by
  obtain ⟨p', hr⟩ := hr
  exact Prog.wp_call_ok h hr ha

/-- A function has a run with admitted answers if every call has one. -/
theorem exists_run (hadm : ∀ q c, ∃ a, M.adm q c a) (p : Go ι ω σ β) (q : M.Phase) (s : σ) :
    ∃ tr r s', Runs p s tr r s' ∧ M.Admits q tr := by
  unfold Runs
  generalize p s = prog
  induction prog generalizing q with
  | ret r => exact ⟨[], r.1, r.2, .refl _, trivial⟩
  | call c k ih =>
    obtain ⟨a, ha⟩ := hadm q c
    obtain ⟨tr, r, s', hruns, hadmits⟩ := ih a (M.next q c a)
    exact ⟨⟨c, a⟩ :: tr, r, s', .step hruns, ha, hadmits⟩

/-- A property of the phases in which a function may make a call or end holds all along. -/
theorem wp_along {p : Go ι ω σ β} {tr : List (Event ι ω)} {P : M.Phase → Prop}
    (h : p.wp M Q q s) (hr : Prefix p s tr) (ha : M.Admits q tr)
    (hok : ∀ q c, M.ok q c → P q) (hQ : ∀ q b s, Q q b s → P q)
    (hpanic : ∀ q, M.panic q → P q) : P (M.after q tr) := by
  obtain ⟨p', hr⟩ := hr
  refine Prog.wp_along h hr ha hok fun q' r hr => ?_
  obtain ⟨r, s'⟩ := r
  cases r with
  | val b => exact hQ q' b s' hr
  | panic msg => exact hpanic q' hr

/-! ## The history of a run -/

/-- The monitor that watches and remembers everything. -/
abbrev history (ι : Type) (ω : ι → Type) : Monitor ι ω where
  Phase := List (Event ι ω)
  ok _ _ := True
  adm _ _ _ := True
  next h c a := h ++ [⟨c, a⟩]
  panic _ := True

/-- The same, where a call has to be allowed after what came before it. -/
abbrev guarded (ok : List (Event ι ω) → ι → Prop) : Monitor ι ω := { history ι ω with ok := ok }

theorem after_guarded (ok : List (Event ι ω) → ι → Prop) (h tr : List (Event ι ω)) :
    (guarded ok).after h tr = h ++ tr := by
  induction tr generalizing h with
  | nil => simp [Monitor.after]
  | cons e tr ih =>
    rw [Monitor.after, ih]
    simp

theorem after_history (h tr : List (Event ι ω)) : (history ι ω).after h tr = h ++ tr :=
  after_guarded (fun _ _ => True) h tr

theorem admits_history (h tr : List (Event ι ω)) : (history ι ω).Admits h tr := by
  induction tr generalizing h with
  | nil => trivial
  | cons e tr ih => exact ⟨trivial, ih _⟩

/-- What is proved of the history holds of every complete run. -/
theorem wp_history {p : Go ι ω σ β} {Q : List (Event ι ω) → β → σ → Prop}
    (h : p.wp (history ι ω) Q [] s) {tr : List (Event ι ω)} {b : β} {s' : σ}
    (hr : Runs p s tr (.val b) s') : Q tr b s' := by
  have hQ := wp_runs h hr (admits_history _ _)
  rw [after_history] at hQ
  exact hQ

/-- Every call of a run was allowed after what came before it. -/
theorem guarded_calls {p : Go ι ω σ β} {ok : List (Event ι ω) → ι → Prop}
    {Q : List (Event ι ω) → β → σ → Prop} (h : p.wp (guarded ok) Q [] s)
    {tr₁ tr₂ : List (Event ι ω)} {e : Event ι ω} (hr : Prefix p s (tr₁ ++ e :: tr₂)) :
    ok tr₁ e.call := by
  have hok := wp_call_ok h hr (Monitor.admits_of_forall (fun _ _ _ => trivial) _)
  rwa [after_guarded] at hok

/-! ## Functions that stay within a set of calls -/

/-- Every call is one of `E`, and the part `keep` of the variables stays as it is, also
when the function panics. -/
def Within (E : ι → Prop) (keep : σ → κ) (p : Go ι ω σ α) : Prop :=
  ∀ s, (p s).All E fun r => keep r.2 = keep s

variable {E E' : ι → Prop} {keep : σ → κ}

theorem Within.pure (a : α) : Within E keep (Pure.pure a : Go ι ω σ α) := fun _ => rfl

theorem Within.panicking (msg : String) : Within E keep (Go.panicking msg : Go ι ω σ α) :=
  fun _ => rfl

theorem Within.vars : Within E keep (Go.vars : Go ι ω σ σ) := fun _ => rfl

theorem Within.assign {f : σ → σ} (h : ∀ s, keep (f s) = keep s) :
    Within E keep (Go.assign f : Go ι ω σ Unit) := h

theorem Within.perform {c : ι} (h : E c) : Within E keep (Go.perform c : Go ι ω σ (ω c)) :=
  fun _ => ⟨h, fun _ => rfl⟩

theorem Within.bind {p : Go ι ω σ α} {f : α → Go ι ω σ β} (hp : Within E keep p)
    (hf : ∀ a, Within E keep (f a)) : Within E keep (p >>= f) := by
  intro s
  refine (hp s).bind fun r hr => ?_
  obtain ⟨r, s'⟩ := r
  cases r with
  | val a => exact ((hf a) s').mono (fun _ h => h) fun r' h => h.trans hr
  | panic msg => exact hr

theorem Within.ite {c : Prop} [Decidable c] {p p' : Go ι ω σ α} (hp : Within E keep p)
    (hp' : Within E keep p') : Within E keep (if c then p else p') := by
  split
  · exact hp
  · exact hp'

theorem Within.deferring {c : ι} {body : Go ι ω σ α} (hc : E c) (hb : Within E keep body) :
    Within E keep (Go.deferring c body) :=
  fun s => (hb s).bind fun _ hr => ⟨hc, fun _ => hr⟩

theorem Within.mono {p : Go ι ω σ α} (hp : Within E keep p) (hE : ∀ c, E c → E' c) :
    Within E' keep p :=
  fun s => (hp s).mono hE fun _ h => h

/-- Every function makes calls, and keeps nothing in particular. -/
theorem Within.any (p : Go ι ω σ α) : Within (fun _ => True) (fun _ => ()) p := by
  intro s
  generalize p s = prog
  induction prog with
  | ret r => rfl
  | call c k ih => exact ⟨trivial, ih⟩

/-- A function within calls that a monitor allows in phases with a property keeps the
property, and the kept variables. -/
theorem Within.wp_inv {p : Go ι ω σ α} (hp : Within E keep p) (I : M.Phase → Prop)
    (hE : ∀ q c, I q → E c → M.ok q c ∧ ∀ a, M.adm q c a → I (M.next q c a))
    (hpanic : ∀ q, I q → M.panic q) (hq : I q) :
    p.wp M (fun q' _ s' => I q' ∧ keep s' = keep s) q s := by
  refine Prog.wp_mono ((hp s).wp_inv hE hq) fun q' r hr => ?_
  obtain ⟨r, s'⟩ := r
  cases r with
  | val a => exact hr
  | panic msg => exact hpanic q' hr.1

/-- A function within calls that a monitor allows without moving leaves the phase and
the kept variables as they were. -/
theorem Within.wp {p : Go ι ω σ α} (hp : Within E keep p)
    (hE : ∀ c, E c → M.ok q c ∧ ∀ a, M.adm q c a → M.next q c a = q) (hpanic : M.panic q) :
    p.wp M (fun q' _ s' => q' = q ∧ keep s' = keep s) q s := by
  refine hp.wp_inv (· = q) (fun q' c hq' hc => ?_) (fun q' hq' => ?_) rfl
  · rw [hq']
    exact hE c hc
  · rw [hq']
    exact hpanic

theorem Within.wp_of_ok {p : Go ι ω σ α} (hp : Within E keep p)
    (hE : ∀ q c, E c → M.ok q c) (hpanic : ∀ q, M.panic q) :
    p.wp M (fun _ _ _ => True) q s :=
  wp_mono (hp.wp_inv (fun _ => True) (fun q c _ hc => ⟨hE q c hc, fun _ _ => trivial⟩)
    (fun q _ => hpanic q) trivial) fun _ _ _ _ => trivial

/-- A complete run leaves the kept variables as they were. -/
theorem Within.keeps {p : Go ι ω σ α} (hp : Within E keep p) {tr : List (Event ι ω)} {r : Res α}
    {s' : σ} (hr : Runs p s tr r s') : keep s' = keep s := by
  have hall := hp s
  unfold Runs at hr
  generalize p s = prog at hr hall
  induction tr generalizing prog with
  | nil =>
    cases hr
    exact hall
  | cons e tr ih =>
    cases hr with
    | step hr => exact ih _ hr (hall.2 _)

/-- What a run of a sequence changes, it changes in the second part. -/
theorem Within.bind_inv {p : Go ι ω σ α} {f : α → Go ι ω σ β} {s' : σ} {r : Res β}
    {tr : List (Event ι ω)} (hp : Within E keep p) (h : Runs (p >>= f) s tr r s')
    (hne : keep s' ≠ keep s) : ∃ a s₁ tr₁ tr₂, tr = tr₁ ++ tr₂ ∧ Runs p s tr₁ (.val a) s₁ ∧
      Runs (f a) s₁ tr₂ r s' ∧ keep s₁ = keep s := by
  rcases h.bind_inv with ⟨a, s₁, tr₁, tr₂, htr, h₁, h₂⟩ | ⟨msg, _, h₁⟩
  · exact ⟨a, s₁, tr₁, tr₂, htr, h₁, h₂, hp.keeps h₁⟩
  · exact absurd (hp.keeps h₁) hne

/-- The history grows, whatever a function does. -/
theorem Within.wp_history {p : Go ι ω σ α} (hp : Within E keep p) (h : List (Event ι ω)) (s : σ) :
    p.wp (history ι ω) (fun h' _ s' => h <+: h' ∧ keep s' = keep s) h s := by
  refine hp.wp_inv (M := history ι ω) (fun h' => h <+: h') ?_ (fun _ _ => trivial)
    (List.prefix_refl h)
  intro h' c hh _
  exact ⟨trivial, fun a _ => hh.trans (List.prefix_append h' [⟨c, a⟩])⟩

/-- What is proved of the history of a function holds under guard if it makes allowed calls. -/
theorem Within.wp_guarded {p : Go ι ω σ β} {ok : List (Event ι ω) → ι → Prop}
    {Q : List (Event ι ω) → β → σ → Prop} {h : List (Event ι ω)} (hp : Within E keep p)
    (hE : ∀ h c, E c → ok h c) (hwp : p.wp (history ι ω) Q h s) : p.wp (guarded ok) Q h s := by
  have hall := hp s
  unfold Go.wp at hwp ⊢
  generalize p s = prog at hwp hall
  induction prog generalizing h with
  | ret r =>
    obtain ⟨r, s'⟩ := r
    cases r <;> exact hwp
  | call c k ih =>
    exact ⟨hE h c hall.1, fun a _ => ih a (hwp.2 a trivial) (hall.2 a)⟩

/-- Every call along a run of a function is one of those it stays within. -/
theorem Within.calls {p : Go ι ω σ α} (hp : Within E keep p) {tr : List (Event ι ω)}
    (hr : Prefix p s tr) : ∀ e ∈ tr, E e.call := by
  obtain ⟨p', hr⟩ := hr
  have hall := hp s
  generalize p s = prog at hr hall
  induction hr with
  | refl p => exact fun _ he => nomatch he
  | step _ ih =>
    intro e he
    rcases List.mem_cons.mp he with rfl | he
    · exact hall.1
    · exact ih (hall.2 _) e he

/-- A function on a part of the variables keeps what that part does not touch. -/
theorem Within.zoom {get : σ → τ} {set : τ → σ → σ} {p : Go ι ω τ α} {κ' : Type}
    {keep' : τ → κ'} (hp : Within E keep' p)
    (h : ∀ t s, keep' t = keep' (get s) → keep (set t s) = keep s) :
    Within E keep (Go.zoom get set p) :=
  fun s => (hp (get s)).bind fun r hr => h r.2 s hr

/-! ## Ends of all kinds -/

/-- The weakest precondition of ending with `J`, also in a panic. -/
def wpEnd (M : Monitor ι ω) (p : Go ι ω σ α) (J : M.Phase → σ → Prop) (q : M.Phase) (s : σ) : Prop :=
  (p s).wp M (fun q' r => J q' r.2) q

variable {J : M.Phase → σ → Prop}

theorem wpEnd_pure {a : α} (h : J q s) : (pure a : Go ι ω σ α).wpEnd M J q s := h

theorem wpEnd_assign {f : σ → σ} {p : Go ι ω σ β} (h : p.wpEnd M J q (f s)) :
    (assign f >>= fun _ => p).wpEnd M J q s := h

/-- What holds after a function, and wherever it may panic, holds in the end. -/
theorem wpEnd_of_wp {p : Go ι ω σ α} (h : p.wp M (fun q' _ s' => J q' s') q s)
    (hpanic : ∀ q' s', M.panic q' → J q' s') : p.wpEnd M J q s := by
  refine Prog.wp_mono h fun q' r hr => ?_
  obtain ⟨r, s'⟩ := r
  cases r with
  | val a => exact hr
  | panic msg => exact hpanic q' s' hr

/-- A function that keeps part of the variables has kept it also when it panics. -/
theorem wpEnd_bind {p : Go ι ω σ α} {f : α → Go ι ω σ β} {Q : M.Phase → α → σ → Prop}
    (hp : Within E keep p) (h : p.wp M Q q s)
    (hf : ∀ q' a s', Q q' a s' → keep s' = keep s → (f a).wpEnd M J q' s')
    (hpanic : ∀ q' s', M.panic q' → keep s' = keep s → J q' s') :
    (p >>= f).wpEnd M J q s := by
  unfold wpEnd
  rw [bind_def, Prog.wp_bind]
  refine Prog.wp_mono (Prog.wp_all h (hp s)) fun q' r hr => ?_
  obtain ⟨r, s'⟩ := r
  cases r with
  | val a => exact hf q' a s' hr.1 hr.2
  | panic msg => exact hpanic q' s' hr.1 hr.2

/-- Started in `q`, the function keeps to the monitor, and the monitor is in `q'` when it ends,
also in a panic. -/
def Ends (M : Monitor ι ω) (q q' : M.Phase) (p : Go ι ω σ α) : Prop :=
  ∀ s, p.wpEnd M (fun q'' _ => q'' = q') q s

/-- The function leaves the monitor where it was. -/
abbrev Steady (M : Monitor ι ω) (q : M.Phase) (p : Go ι ω σ α) : Prop := p.Ends M q q

theorem Steady.pure (a : α) : (Pure.pure a : Go ι ω σ α).Steady M q := fun _ => rfl

theorem Steady.panicking (msg : String) : (Go.panicking msg : Go ι ω σ α).Steady M q := fun _ => rfl

theorem Steady.vars : (Go.vars : Go ι ω σ σ).Steady M q := fun _ => rfl

theorem Steady.assign (f : σ → σ) : (Go.assign f : Go ι ω σ Unit).Steady M q := fun _ => rfl

theorem Steady.bind {p : Go ι ω σ α} {f : α → Go ι ω σ β} (hp : p.Steady M q)
    (hf : ∀ a, (f a).Steady M q) : (p >>= f).Steady M q := by
  intro s
  unfold wpEnd
  rw [bind_def, Prog.wp_bind]
  refine Prog.wp_mono (hp s) fun q' r hr => ?_
  obtain ⟨r, s'⟩ := r
  cases r with
  | val a => exact hr ▸ hf a s'
  | panic msg => exact hr

theorem Steady.ite {c : Prop} [Decidable c] {p p' : Go ι ω σ α} (hp : p.Steady M q)
    (hp' : p'.Steady M q) : (if c then p else p').Steady M q := by
  split
  · exact hp
  · exact hp'

theorem Steady.zoom {get : σ → τ} {set : τ → σ → σ} {p : Go ι ω τ α} (hp : p.Steady M q) :
    (Go.zoom get set p).Steady M q := by
  intro s
  unfold wpEnd Go.zoom
  rw [Prog.wp_bind]
  exact Prog.wp_mono (hp (get s)) fun _ _ hr => hr

/-- Calls that do not move the monitor. -/
theorem Within.steady {p : Go ι ω σ α} (hp : Within E keep p)
    (hE : ∀ c, E c → M.ok q c ∧ ∀ a, M.adm q c a → M.next q c a = q) : p.Steady M q := by
  intro s
  refine Prog.wp_mono ((hp s).wp_inv (I := fun q' => q' = q) (fun q' c hq' hc => ?_) rfl)
    fun _ _ hr => hr.1
  rw [hq']
  exact hE c hc

/-- A call, and what follows it. -/
theorem Ends.perform_bind {c : ι} {q' : M.Phase} {f : ω c → Go ι ω σ β} (hok : M.ok q c)
    (hf : ∀ a, M.adm q c a → (f a).Ends M (M.next q c a) q') :
    (Go.perform c >>= f).Ends M q q' :=
  fun s => ⟨hok, fun a ha => hf a ha s⟩

/-- A deferred call takes the monitor on. -/
theorem Ends.deferring {c : ι} {q' : M.Phase} {body : Go ι ω σ β} (hbody : body.Steady M q)
    (hok : M.ok q c) (hnext : ∀ a, M.adm q c a → M.next q c a = q') :
    (Go.deferring c body).Ends M q q' := by
  intro s
  unfold wpEnd Go.deferring
  rw [Prog.wp_bind]
  refine Prog.wp_mono (hbody s) fun q'' r hr => ?_
  rw [hr]
  exact ⟨hok, fun a ha => hnext a ha⟩

theorem Steady.forget {p : Go ι ω σ α} (hp : p.Steady M q) (s : σ) :
    (p s).forget.wp M (fun q' _ => q' = q) q := by
  unfold Prog.forget
  rw [Prog.wp_bind]
  exact Prog.wp_mono (hp s) fun _ _ hr => hr

/-- The specification of a function, for the program a thread runs. -/
theorem wp_forget {p : Go ι ω σ α} {fin : M.Phase → Prop} (h : p.wp M (fun q _ _ => fin q) q s)
    (hpanic : ∀ q, M.panic q → fin q) : (p s).forget.wp M (fun q _ => fin q) q := by
  unfold Prog.forget
  rw [Prog.wp_bind]
  refine Prog.wp_mono h fun q' r hr => ?_
  obtain ⟨r, s'⟩ := r
  cases r with
  | val a => exact hr
  | panic msg => exact hpanic q' hr

-- A body is taken apart with the rules above; without this, elaboration would run it.
attribute [irreducible] wp Within wpEnd

end Go

end Capic.Effect
