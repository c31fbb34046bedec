/-!
# Programs that call out

A reconciler is a sequential program whose every interesting action is a call
to something outside the process: an HTTP request, a lock, an object store. What
such a program *is* does not depend on how the outside answers, so it is
modelled as the tree of its calls: `Prog.call c k` issues the call `c` and goes
on as `k a` once the answer `a` arrives, `Prog.ret a` is done. The tree is
well-founded — a program makes finitely many calls on every path — and the
answer type `ω c` may depend on the call.

Over `Prog` sits `Go`, the monad the modelled functions are written in: the
program additionally reads and writes variables of type `σ` that live in its
own memory, and it ends either with a value or with a panic that unwinds to the
caller. Panics do not discard the variables (a deferred function still sees
them), hence the shape `σ → Prog (Res α × σ)`.

A *trace* is the list of calls made so far with their answers:
`Prog.Reaches p tr q` says that `p`, answered as in `tr`, has become `q`, and
`Go.Runs` is the special case of a complete run.

Nothing in this file knows which calls there are.
-/

namespace Capic.Effect

/-- A program over the calls `ι`, where the call `c` is answered by an `ω c`. -/
inductive Prog (ι : Type) (ω : ι → Type) (α : Type) where
  | ret (a : α)
  | call (c : ι) (k : ω c → Prog ι ω α)

/-- One call and the answer it got. -/
structure Event (ι : Type) (ω : ι → Type) where
  call : ι
  answer : ω call

/-- What a function ends with: its result, or a panic. -/
inductive Res (α : Type) where
  | val (a : α)
  | panic (msg : String)
  deriving DecidableEq, Repr

variable {ι : Type} {ω : ι → Type} {α β σ τ : Type}

namespace Prog

/-- Run `p`, then go on with its result. -/
def bind : Prog ι ω α → (α → Prog ι ω β) → Prog ι ω β
  | ret a, f => f a
  | call c k, f => call c fun x => (k x).bind f

@[simp] theorem ret_bind (a : α) (f : α → Prog ι ω β) : (ret a : Prog ι ω α).bind f = f a := rfl

@[simp] theorem call_bind (c : ι) (k : ω c → Prog ι ω α) (f : α → Prog ι ω β) :
    (call c k).bind f = call c fun x => (k x).bind f := rfl

/-- The program without its result. -/
def forget (p : Prog ι ω α) : Prog ι ω Unit := p.bind fun _ => ret ()

/-- The call the program is about to make. -/
def next? : Prog ι ω α → Option ι
  | ret _ => none
  | call c _ => some c

theorem eq_ret {p : Prog ι ω Unit} (h : p.next?.isNone = true) : p = .ret () := by
  cases p with
  | ret a => rfl
  | call c k => exact nomatch h

/-- The program after its next call was answered by `ans`. -/
def advance : Prog ι ω α → (∀ c, ω c) → Prog ι ω α
  | ret a, _ => ret a
  | call c k, ans => k (ans c)

/-- `p` answered as in the trace becomes `q`. -/
inductive Reaches : Prog ι ω α → List (Event ι ω) → Prog ι ω α → Prop where
  | refl (p : Prog ι ω α) : Reaches p [] p
  | step {c : ι} {k : ω c → Prog ι ω α} {a : ω c} {tr : List (Event ι ω)} {q : Prog ι ω α} :
      Reaches (k a) tr q → Reaches (call c k) (⟨c, a⟩ :: tr) q

theorem Reaches.append {p q r : Prog ι ω α} {tr₁ tr₂ : List (Event ι ω)}
    (h₁ : Reaches p tr₁ q) (h₂ : Reaches q tr₂ r) : Reaches p (tr₁ ++ tr₂) r := by
  induction h₁ with
  | refl p => exact h₂
  | step _ ih => exact .step (ih h₂)

/-- A trace can be cut anywhere. -/
theorem Reaches.split {r : Prog ι ω α} {tr₂ : List (Event ι ω)} :
    ∀ {tr₁ : List (Event ι ω)} {p : Prog ι ω α}, Reaches p (tr₁ ++ tr₂) r →
      ∃ q, Reaches p tr₁ q ∧ Reaches q tr₂ r
  | [], p, h => ⟨p, .refl p, h⟩
  | e :: tr₁, p, h => by
    cases h with
    | step h' =>
      obtain ⟨q, h₁, h₂⟩ := Reaches.split h'
      exact ⟨q, .step h₁, h₂⟩

/-- What is left after the first part of a trace goes on with the rest of it. -/
theorem Reaches.resume {p p' q : Prog ι ω α} {tr₁ tr₂ : List (Event ι ω)} (h₁ : Reaches p tr₁ p')
    (h : Reaches p (tr₁ ++ tr₂) q) : Reaches p' tr₂ q := by
  induction h₁ with
  | refl p => exact h
  | step _ ih =>
    cases h with
    | step h => exact ih h

/-- A program that has come to its end on some trace makes no other calls on the same answers. -/
theorem Reaches.unique {p : Prog ι ω α} {a b : α} {tr₁ tr₂ rest₁ rest₂ : List (Event ι ω)}
    (h₁ : Reaches p tr₁ (.ret a)) (h₂ : Reaches p tr₂ (.ret b))
    (htr : tr₁ ++ rest₁ = tr₂ ++ rest₂) : tr₁ = tr₂ ∧ a = b ∧ rest₁ = rest₂ := by
  induction p generalizing tr₁ tr₂ with
  | ret c =>
    cases h₁
    cases h₂
    exact ⟨rfl, rfl, htr⟩
  | call c k ih =>
    cases h₁ with
    | step h₁ =>
      cases h₂ with
      | step h₂ =>
        obtain ⟨hevent, htail⟩ := List.cons.inj htr
        cases hevent
        obtain ⟨rfl, hab, hrest⟩ := ih _ h₁ h₂ htail
        exact ⟨rfl, hab, hrest⟩

/-- The calls and the result of a program that is always answered by `ans`. -/
def play (ans : ∀ c, ω c) : Prog ι ω α → List (Event ι ω) × α
  | ret a => ([], a)
  | call c k => (⟨c, ans c⟩ :: ((k (ans c)).play ans).1, ((k (ans c)).play ans).2)

theorem reaches_play (ans : ∀ c, ω c) (p : Prog ι ω α) :
    p.Reaches (p.play ans).1 (.ret (p.play ans).2) := by
  induction p with
  | ret a => exact .refl _
  | call c k ih => exact .step (ih (ans c))

/-- Every answer is one of `ans`. -/
theorem answer_of_mem_play {ans : ∀ c, ω c} {p : Prog ι ω α} {e : Event ι ω}
    (h : e ∈ (p.play ans).1) : e.answer = ans e.call := by
  induction p with
  | ret a => cases h
  | call c k ih =>
    rcases List.mem_cons.mp h with rfl | h
    · rfl
    · exact ih (ans c) h

/-- The first part of a sequence can be run alone. -/
theorem Reaches.bind_left {p q : Prog ι ω α} {tr : List (Event ι ω)} (f : α → Prog ι ω β)
    (h : Reaches p tr q) : Reaches (p.bind f) tr (q.bind f) := by
  induction h with
  | refl p => exact .refl _
  | step _ ih => exact .step ih

/-- A complete run of a sequence is one of its first part and one of its second. -/
theorem Reaches.bind_inv {p : Prog ι ω α} {f : α → Prog ι ω β} {tr : List (Event ι ω)} {b : β}
    (h : Reaches (p.bind f) tr (.ret b)) :
    ∃ a tr₁ tr₂, tr = tr₁ ++ tr₂ ∧ Reaches p tr₁ (.ret a) ∧ Reaches (f a) tr₂ (.ret b) := by
  induction p generalizing tr with
  | ret a => exact ⟨a, [], tr, rfl, .refl _, h⟩
  | call c k ih =>
    cases h with
    | @step _ _ x tr _ h =>
      obtain ⟨a, tr₁, tr₂, rfl, h₁, h₂⟩ := ih x h
      exact ⟨a, ⟨c, x⟩ :: tr₁, tr₂, rfl, .step h₁, h₂⟩

end Prog

/-! ## Functions with variables and panics -/

/-- A Go function body over calls `ι`, with in-memory variables `σ`. -/
def Go (ι : Type) (ω : ι → Type) (σ α : Type) : Type := σ → Prog ι ω (Res α × σ)

namespace Go

/-- How a sequence continues after its first part: a panic skips the rest. -/
def after (f : α → Go ι ω σ β) : Res α × σ → Prog ι ω (Res β × σ)
  | (.val a, s) => f a s
  | (.panic msg, s) => .ret (.panic msg, s)

@[simp] theorem after_val (f : α → Go ι ω σ β) (a : α) (s : σ) :
    after f (.val a, s) = f a s := rfl

@[simp] theorem after_panic (f : α → Go ι ω σ β) (msg : String) (s : σ) :
    after f (.panic msg, s) = .ret (.panic msg, s) := rfl

instance : Monad (Go ι ω σ) where
  pure a := fun s => .ret (.val a, s)
  bind p f := fun s => (p s).bind (after f)

/-- Issue a call and take its answer. -/
def perform (c : ι) : Go ι ω σ (ω c) := fun s => .call c fun a => .ret (.val a, s)

/-- Read the variables. -/
def vars : Go ι ω σ σ := fun s => .ret (.val s, s)

/-- Write the variables. -/
def assign (f : σ → σ) : Go ι ω σ Unit := fun s => .ret (.val (), f s)

/-- `panic(msg)`. -/
def panicking (msg : String) : Go ι ω σ α := fun s => .ret (.panic msg, s)

/-- `defer c()` in front of `body`: the call is made on every way out. -/
def deferring (c : ι) (body : Go ι ω σ α) : Go ι ω σ α := fun s =>
  (body s).bind fun r => .call c fun _ => .ret r

/-- A function that works on a part `τ` of the variables. -/
def zoom (get : σ → τ) (set : τ → σ → σ) (p : Go ι ω τ α) : Go ι ω σ α := fun s =>
  (p (get s)).bind fun r => .ret (r.1, set r.2 s)

theorem pure_def (a : α) (s : σ) : (pure a : Go ι ω σ α) s = .ret (.val a, s) := rfl

theorem bind_def (p : Go ι ω σ α) (f : α → Go ι ω σ β) (s : σ) :
    (p >>= f) s = (p s).bind (after f) := rfl

/-- A complete run: the calls made with their answers, the result and the variables left. -/
def Runs (p : Go ι ω σ α) (s : σ) (tr : List (Event ι ω)) (r : Res α) (s' : σ) : Prop :=
  (p s).Reaches tr (.ret (r, s'))

/-- A possibly unfinished run: the calls made so far with their answers. -/
def Prefix (p : Go ι ω σ α) (s : σ) (tr : List (Event ι ω)) : Prop :=
  ∃ q, (p s).Reaches tr q

/-- The run of a function that is always answered by `ans`. -/
theorem runs_play (p : Go ι ω σ α) (s : σ) (ans : ∀ c, ω c) :
    Runs p s ((p s).play ans).1 ((p s).play ans).2.1 ((p s).play ans).2.2 :=
  Prog.reaches_play ans (p s)

theorem Runs.pure (a : α) (s : σ) : Runs (Pure.pure a : Go ι ω σ α) s [] (.val a) s := .refl _

theorem Runs.vars (s : σ) : Runs (Go.vars : Go ι ω σ σ) s [] (.val s) s := .refl _

theorem Runs.assign (f : σ → σ) (s : σ) :
    Runs (Go.assign f : Go ι ω σ Unit) s [] (.val ()) (f s) := .refl _

theorem Runs.perform (c : ι) (a : ω c) (s : σ) :
    Runs (Go.perform c : Go ι ω σ (ω c)) s [⟨c, a⟩] (.val a) s := .step (.refl _)

/-- Running two parts one after the other. -/
theorem Runs.bind {p : Go ι ω σ α} {f : α → Go ι ω σ β} {s s₁ s' : σ} {a : α} {r : Res β}
    {tr₁ tr₂ : List (Event ι ω)} (h₁ : Runs p s tr₁ (.val a) s₁) (h₂ : Runs (f a) s₁ tr₂ r s') :
    Runs (p >>= f) s (tr₁ ++ tr₂) r s' :=
  (Prog.Reaches.bind_left _ h₁).append h₂

/-- After its first part a sequence is its second part. -/
theorem Runs.reaches_bind {p : Go ι ω σ α} {s s₁ : σ} {a : α} {tr : List (Event ι ω)}
    (h : Runs p s tr (.val a) s₁) (f : α → Go ι ω σ β) : ((p >>= f) s).Reaches tr (f a s₁) :=
  Prog.Reaches.bind_left _ h

/-- Two complete runs that are answered in the same way are the same. -/
theorem Runs.unique {p : Go ι ω σ α} {s s₁ s₂ : σ} {r₁ r₂ : Res α}
    {tr₁ tr₂ rest₁ rest₂ : List (Event ι ω)} (h₁ : Runs p s tr₁ r₁ s₁) (h₂ : Runs p s tr₂ r₂ s₂)
    (htr : tr₁ ++ rest₁ = tr₂ ++ rest₂) : tr₁ = tr₂ ∧ r₁ = r₂ ∧ s₁ = s₂ ∧ rest₁ = rest₂ := by
  obtain ⟨htr, hend, hrest⟩ := Prog.Reaches.unique h₁ h₂ htr
  obtain ⟨rfl, rfl⟩ := Prod.mk.inj hend
  exact ⟨htr, rfl, rfl, hrest⟩

/-- A complete run of a sequence is one of its first part and, unless that panicked, one of
its second. -/
theorem Runs.bind_inv {p : Go ι ω σ α} {f : α → Go ι ω σ β} {s s' : σ} {r : Res β}
    {tr : List (Event ι ω)} (h : Runs (p >>= f) s tr r s') :
    (∃ a s₁ tr₁ tr₂, tr = tr₁ ++ tr₂ ∧ Runs p s tr₁ (.val a) s₁ ∧ Runs (f a) s₁ tr₂ r s') ∨
      ∃ msg, r = .panic msg ∧ Runs p s tr (.panic msg) s' := by
  unfold Runs at h
  rw [bind_def] at h
  unfold Runs
  generalize p s = prog at h ⊢
  induction prog generalizing tr with
  | ret ra =>
    obtain ⟨ra, s₁⟩ := ra
    cases ra with
    | val a => exact .inl ⟨a, s₁, [], tr, rfl, .refl _, h⟩
    | panic msg =>
      cases h
      exact .inr ⟨msg, rfl, .refl _⟩
  | call c k ih =>
    cases h with
    | @step _ _ a tr _ h =>
      rcases ih a h with ⟨b, s₁, tr₁, tr₂, rfl, h₁, h₂⟩ | ⟨msg, hr, h₁⟩
      · exact .inl ⟨b, s₁, ⟨c, a⟩ :: tr₁, tr₂, rfl, .step h₁, h₂⟩
      · exact .inr ⟨msg, hr, .step h₁⟩

theorem Runs.pure_inv {a : α} {s s' : σ} {tr : List (Event ι ω)} {r : Res α}
    (h : Runs (Pure.pure a : Go ι ω σ α) s tr r s') : tr = [] ∧ r = .val a ∧ s' = s := by
  unfold Runs at h
  rw [pure_def] at h
  cases h
  exact ⟨rfl, rfl, rfl⟩

theorem Runs.perform_inv {c : ι} {s s' : σ} {tr : List (Event ι ω)} {r : Res (ω c)}
    (h : Runs (Go.perform c : Go ι ω σ (ω c)) s tr r s') :
    ∃ a, tr = [⟨c, a⟩] ∧ r = .val a ∧ s' = s := by
  unfold Runs Go.perform at h
  cases h with
  | @step _ _ a _ _ h =>
    cases h
    exact ⟨a, rfl, rfl, rfl⟩

/-- A complete run that begins with a call. -/
theorem Runs.perform_bind_inv {c : ι} {f : ω c → Go ι ω σ β} {s s' : σ} {r : Res β}
    {tr : List (Event ι ω)} (h : Runs (Go.perform c >>= f) s tr r s') :
    ∃ a tr', tr = ⟨c, a⟩ :: tr' ∧ Runs (f a) s tr' r s' := by
  rcases h.bind_inv with ⟨a, s₁, tr₁, tr₂, rfl, h₁, h₂⟩ | ⟨msg, _, h₁⟩
  · obtain ⟨a', rfl, ha, rfl⟩ := h₁.perform_inv
    cases ha
    exact ⟨a, tr₂, rfl, h₂⟩
  · obtain ⟨a', _, ha, _⟩ := h₁.perform_inv
    exact nomatch ha

/-- A complete run of a function ends with what it deferred. -/
theorem Runs.deferring_inv {c : ι} {body : Go ι ω σ α} {s s' : σ} {r : Res α}
    {tr : List (Event ι ω)} (h : Runs (Go.deferring c body) s tr r s') :
    ∃ tr' a, tr = tr' ++ [⟨c, a⟩] ∧ Runs body s tr' r s' := by
  unfold Runs Go.deferring at h
  unfold Runs
  generalize body s = prog at h ⊢
  induction prog generalizing tr with
  | ret x =>
    cases h with
    | @step _ _ a _ _ h =>
      cases h
      exact ⟨[], a, rfl, .refl _⟩
  | call c' k ih =>
    cases h with
    | @step _ _ a _ _ h =>
      obtain ⟨tr', b, rfl, h'⟩ := ih a h
      exact ⟨⟨c', a⟩ :: tr', b, rfl, .step h'⟩

/-- The beginning of a run. -/
theorem Prefix.left {p : Go ι ω σ α} {s : σ} {tr₁ tr₂ : List (Event ι ω)}
    (h : Prefix p s (tr₁ ++ tr₂)) : Prefix p s tr₁ := by
  obtain ⟨r, h⟩ := h
  obtain ⟨q, h₁, -⟩ := h.split
  exact ⟨q, h₁⟩

/-- A sequence may stop in its first part. -/
theorem Prefix.bind_left {p : Go ι ω σ α} {f : α → Go ι ω σ β} {s : σ} {tr : List (Event ι ω)}
    (h : Prefix p s tr) : Prefix (p >>= f) s tr := by
  obtain ⟨q, h⟩ := h
  exact ⟨_, h.bind_left _⟩

/-- A function may stop before what it deferred. -/
theorem Prefix.deferring {c : ι} {body : Go ι ω σ α} {s : σ} {tr : List (Event ι ω)}
    (h : Prefix body s tr) : Prefix (Go.deferring c body) s tr := by
  obtain ⟨q, h⟩ := h
  exact ⟨_, h.bind_left _⟩

/-- A sequence may stop in its second part. -/
theorem Prefix.bind {p : Go ι ω σ α} {f : α → Go ι ω σ β} {s s₁ : σ} {a : α}
    {tr₁ tr₂ : List (Event ι ω)} (h₁ : Runs p s tr₁ (.val a) s₁) (h₂ : Prefix (f a) s₁ tr₂) :
    Prefix (p >>= f) s (tr₁ ++ tr₂) := by
  obtain ⟨q, h₂⟩ := h₂
  exact ⟨q, (Prog.Reaches.bind_left _ h₁).append h₂⟩

/-! ## Fixed answers -/

/-- The result of a function that is always answered by `ans`, and the variables left. -/
def eval (ans : ∀ c, ω c) (p : Go ι ω σ α) (s : σ) : Res α × σ := ((p s).play ans).2

variable {ans : ∀ c, ω c} {s : σ}

theorem eval_vars : eval ans (Go.vars : Go ι ω σ σ) s = (.val s, s) := rfl

theorem eval_perform (c : ι) :
    eval ans (Go.perform c : Go ι ω σ (ω c)) s = (.val (ans c), s) := rfl

theorem eval_bind (p : Go ι ω σ α) (f : α → Go ι ω σ β) :
    eval ans (p >>= f) s =
      match eval ans p s with
      | (.val a, s') => eval ans (f a) s'
      | (.panic msg, s') => (.panic msg, s') := by
  unfold eval
  rw [bind_def]
  generalize p s = prog
  induction prog with
  | ret r =>
    obtain ⟨r, s'⟩ := r
    cases r <;> rfl
  | call c k ih => exact ih (ans c)

theorem eval_bind_val {p : Go ι ω σ α} {f : α → Go ι ω σ β} {a : α} {s' : σ}
    (h : eval ans p s = (.val a, s')) : eval ans (p >>= f) s = eval ans (f a) s' := by
  rw [eval_bind, h]

/-! ## Possible runs -/

/-- With answers among those in `A`, the function may end like this. -/
def Can (A : ∀ c, ω c → Prop) (p : Go ι ω σ α) (s : σ) (r : Res α) (s' : σ) : Prop :=
  ∃ tr, Runs p s tr r s' ∧ ∀ e ∈ tr, A e.call e.answer

variable {A : ∀ c, ω c → Prop} {s' s₁ : σ}

theorem Can.pure (a : α) : Can A (Pure.pure a : Go ι ω σ α) s (.val a) s :=
  ⟨[], .refl _, fun _ h => nomatch h⟩

theorem Can.panicking (msg : String) :
    Can A (Go.panicking msg : Go ι ω σ α) s (.panic msg) s :=
  ⟨[], .refl _, fun _ h => nomatch h⟩

theorem Can.vars : Can A (Go.vars : Go ι ω σ σ) s (.val s) s :=
  ⟨[], .refl _, fun _ h => nomatch h⟩

theorem Can.assign (f : σ → σ) : Can A (Go.assign f : Go ι ω σ Unit) s (.val ()) (f s) :=
  ⟨[], .refl _, fun _ h => nomatch h⟩

theorem Can.perform {c : ι} {a : ω c} (h : A c a) :
    Can A (Go.perform c : Go ι ω σ (ω c)) s (.val a) s := by
  refine ⟨[⟨c, a⟩], .step (.refl _), fun e he => ?_⟩
  obtain rfl := List.mem_singleton.mp he
  exact h

theorem Can.bind {p : Go ι ω σ α} {f : α → Go ι ω σ β} {a : α} {r : Res β}
    (h₁ : Can A p s (.val a) s₁) (h₂ : Can A (f a) s₁ r s') : Can A (p >>= f) s r s' := by
  obtain ⟨tr₁, hr₁, ha₁⟩ := h₁
  obtain ⟨tr₂, hr₂, ha₂⟩ := h₂
  refine ⟨tr₁ ++ tr₂, hr₁.bind hr₂, fun e he => ?_⟩
  rcases List.mem_append.mp he with he | he
  · exact ha₁ e he
  · exact ha₂ e he

end Go

end Capic.Effect
