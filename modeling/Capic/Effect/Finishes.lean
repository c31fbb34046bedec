import Capic.Effect.Monitor

/-!
# How a function may end

`Finishes p s Q`: from `s`, however its calls are answered, the function `p` ends with a result and with
variables of which `Q` is true. Other than under a monitor, the end of a panic counts as well: the
variables that it leaves are stored by what is deferred. There is one rule for each way to build a
function, and one to take over what a function is known to keep (`Finishes.of_within`).
-/

namespace Capic.Effect.Go

variable {ι : Type} {ω : ι → Type} {σ α β κ : Type} {s : σ}

/-- However the function ends, `Q` is true of its result and of the variables. -/
def Finishes (p : Go ι ω σ α) (s : σ) (Q : Res α → σ → Prop) : Prop :=
  (p s).All (fun _ => True) fun r => Q r.1 r.2

variable {Q Q' : Res α → σ → Prop} {p p' : Go ι ω σ α}

theorem Finishes.pure {a : α} (h : Q (.val a) s) : Finishes (Pure.pure a : Go ι ω σ α) s Q := h

theorem Finishes.panicking {msg : String} (h : Q (.panic msg) s) :
    Finishes (Go.panicking msg : Go ι ω σ α) s Q := h

theorem Finishes.assign {f : σ → σ} {Q : Res Unit → σ → Prop} (h : Q (.val ()) (f s)) :
    Finishes (Go.assign f : Go ι ω σ Unit) s Q := h

theorem Finishes.perform {c : ι} {Q : Res (ω c) → σ → Prop} (h : ∀ a, Q (.val a) s) :
    Finishes (Go.perform c : Go ι ω σ (ω c)) s Q := ⟨trivial, h⟩

theorem Finishes.mono (h : Finishes p s Q) (hQ : ∀ r s', Q r s' → Q' r s') : Finishes p s Q' :=
  Prog.All.mono h (fun _ _ => trivial) fun r => hQ r.1 r.2

/-- The second part goes on from where the first part ends, unless that panics. -/
theorem Finishes.bind {f : α → Go ι ω σ β} {Q : Res β → σ → Prop}
    (h : Finishes p s fun r s₁ =>
      match r with
      | .val a => Finishes (f a) s₁ Q
      | .panic msg => Q (.panic msg) s₁) : Finishes (p >>= f) s Q := by
  refine Prog.All.bind h fun r hr => ?_
  obtain ⟨r, s₁⟩ := r
  cases r with
  | val a => exact hr
  | panic msg => exact hr

theorem Finishes.vars_bind {f : σ → Go ι ω σ β} {Q : Res β → σ → Prop} (h : Finishes (f s) s Q) :
    Finishes (Go.vars >>= f) s Q := h

theorem Finishes.ite {c : Prop} [Decidable c] (hp : c → Finishes p s Q) (hp' : ¬c → Finishes p' s Q) :
    Finishes (if c then p else p') s Q := by
  split
  next h => exact hp h
  next h => exact hp' h

/-- A function leaves what it keeps. -/
theorem Finishes.of_within {E : ι → Prop} {keep : σ → κ} (hp : Within E keep p)
    (h : ∀ r s', keep s' = keep s → Q r s') : Finishes p s Q := by
  unfold Within at hp
  exact (hp s).mono (fun _ _ => trivial) fun r hr => h r.1 r.2 hr

theorem Finishes.and {E : ι → Prop} {keep : σ → κ} (h : Finishes p s Q) (hp : Within E keep p) :
    Finishes p s fun r s' => Q r s' ∧ keep s' = keep s := by
  unfold Within at hp
  have hall := hp s
  unfold Finishes at h ⊢
  generalize p s = prog at h hall
  induction prog with
  | ret r => exact ⟨h, hall⟩
  | call c k ih => exact ⟨trivial, fun a => ih a (h.2 a) (hall.2 a)⟩

/-- The end of a run. -/
theorem Finishes.run (h : Finishes p s Q) {tr : List (Event ι ω)} {r : Res α} {s' : σ}
    (hruns : Runs p s tr r s') : Q r s' := by
  unfold Runs at hruns
  unfold Finishes at h
  generalize p s = prog at hruns h
  induction tr generalizing prog with
  | nil =>
    cases hruns
    exact h
  | cons e tr ih =>
    cases hruns with
    | step hruns => exact ih _ hruns (h.2 _)

/-! ## Invariants of the variables -/

/-- The function leaves variables with `I` if it gets some. -/
def Keeps (I : σ → Prop) (p : Go ι ω σ α) : Prop := ∀ s, I s → Finishes p s fun _ s' => I s'

variable {I : σ → Prop}

theorem Keeps.pure (a : α) : Keeps I (Pure.pure a : Go ι ω σ α) := fun _ hs => Finishes.pure hs

theorem Keeps.assign {f : σ → σ} (h : ∀ s, I s → I (f s)) : Keeps I (Go.assign f : Go ι ω σ Unit) :=
  fun s hs => Finishes.assign (h s hs)

theorem Keeps.of_within {E : ι → Prop} {keep : σ → κ} (hp : Within E keep p)
    (h : ∀ s s', keep s' = keep s → I s → I s') : Keeps I p :=
  fun s hs => .of_within hp fun _ s' hs' => h s s' hs' hs

theorem Keeps.bind {f : α → Go ι ω σ β} (hp : Keeps I p) (hf : ∀ a, Keeps I (f a)) :
    Keeps I (p >>= f) := by
  intro s hs
  refine Finishes.bind ((hp s hs).mono fun r s₁ hs₁ => ?_)
  cases r with
  | val a => exact hf a s₁ hs₁
  | panic msg => exact hs₁

theorem Keeps.vars_bind {f : σ → Go ι ω σ β} (h : ∀ s, I s → Finishes (f s) s fun _ s' => I s') :
    Keeps I (Go.vars >>= f) := fun s hs => Finishes.vars_bind (h s hs)

end Capic.Effect.Go
