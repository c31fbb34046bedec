import Capic.Effect.Finishes

/-!
# How a function may panic

`Panics P p s`: from `s`, the function `p` panics with messages of `P` only. There is one rule for
each way to build a function. The rule for a sequence lets the second part count on what the first
keeps, so that a panic can be excluded by what is known about the variables.
-/

namespace Capic.Effect.Go

variable {ι : Type} {ω : ι → Type} {σ α β κ : Type} {P : String → Prop} {s : σ}

/-- Every panic of the function has a message of `P`. -/
def Panics (P : String → Prop) (p : Go ι ω σ α) (s : σ) : Prop :=
  Finishes p s fun r _ => ∀ msg, r = .panic msg → P msg

theorem Panics.pure (a : α) : Panics P (Pure.pure a : Go ι ω σ α) s :=
  Finishes.pure fun _ heq => nomatch heq

theorem Panics.panicking {msg : String} (h : P msg) : Panics P (Go.panicking msg : Go ι ω σ α) s := by
  refine Finishes.panicking fun msg' heq => ?_
  obtain rfl := Res.panic.inj heq
  exact h

theorem Panics.vars : Panics P (Go.vars : Go ι ω σ σ) s := fun _ heq => nomatch heq

theorem Panics.assign (f : σ → σ) : Panics P (Go.assign f : Go ι ω σ Unit) s :=
  Finishes.assign fun _ heq => nomatch heq

theorem Panics.perform (c : ι) : Panics P (Go.perform c : Go ι ω σ (ω c)) s :=
  Finishes.perform fun _ _ heq => nomatch heq

/-- The second part may count on what the first keeps. -/
theorem Panics.bind_kept {E : ι → Prop} {keep : σ → κ} {p : Go ι ω σ α} {f : α → Go ι ω σ β}
    (hp : Panics P p s) (hkeep : Within E keep p)
    (hf : ∀ a s', keep s' = keep s → Panics P (f a) s') : Panics P (p >>= f) s := by
  refine Finishes.bind ((Finishes.and hp hkeep).mono fun r s' hr => ?_)
  cases r with
  | val a => exact hf a s' hr.2
  | panic msg =>
    intro msg' heq
    obtain rfl := Res.panic.inj heq
    exact hr.1 msg rfl

theorem Panics.bind {p : Go ι ω σ α} {f : α → Go ι ω σ β} (hp : Panics P p s)
    (hf : ∀ a s', Panics P (f a) s') : Panics P (p >>= f) s :=
  hp.bind_kept (.any p) fun a s' _ => hf a s'

theorem Panics.vars_bind {f : σ → Go ι ω σ β} (h : Panics P (f s) s) :
    Panics P (Go.vars >>= f) s := h

theorem Panics.ite {c : Prop} [Decidable c] {p p' : Go ι ω σ α} (hp : Panics P p s)
    (hp' : Panics P p' s) : Panics P (if c then p else p') s :=
  Finishes.ite (fun _ => hp) fun _ => hp'

/-- The message of a run that panics. -/
theorem Panics.of_run {p : Go ι ω σ α} (hp : Panics P p s) {tr : List (Event ι ω)} {msg : String}
    {s' : σ} (hruns : Runs p s tr (.panic msg) s') : P msg :=
  Finishes.run hp hruns msg rfl

end Capic.Effect.Go
