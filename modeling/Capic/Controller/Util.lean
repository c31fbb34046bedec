import Capic.Cloud.Request
import Capic.Data.ReplaceFirst
import Capic.Effect.Finishes
import Capic.Scope.Scope

/-!
# What the controllers share

`internal/controller/util.go`, the loop over the steps of a reconcile run, and the
deferred `Finalize`.

Mirroring notes. The part of `Reconcile` in front of the scopes (owner lookup, pause
annotation) is left out. `runSteps` is the loop that both controllers have twice each;
`onError` is what the machine controller does in addition when a step fails.
-/

namespace Capic.Controller

open Effect Effect.Go

variable {σ : Type}

/-- `ctrl.Result`, in seconds. -/
structure Result where
  requeueAfter : Nat
  deriving DecidableEq, Repr

/-- `defaultReconcileDuration`. -/
def defaultReconcileDuration : Nat := 20

/-- `reducedReconcileDuration`. -/
def reducedReconcileDuration : Nat := 10

/-- `errors.Join` where the first error may be nil. -/
def joinErr : Option Err → Err → Err
  | none, e => e
  | some e, e' => .join e e'

/-- `withStatus`. -/
def withStatus (status : RequestStatus) (doneOrFailedCallback : Go Call Call.Ans σ (Option Err)) :
    Go Call Call.Ans σ Outcome := do
  match status with
  | .queued | .running => return (true, none)
  | .failed | .done => return (false, ← doneOrFailedCallback)
  | .other text => return (false, some (.new ("unknown request status " ++ text)))

/-- `serviceReconcileStep`. -/
structure ServiceReconcileStep (σ : Type) where
  name : String
  fn : Go Call Call.Ans σ Outcome

/-- The loop over the steps: the result to end with, or `none` if all steps are done. -/
def runSteps (onError : Err → Go Call Call.Ans σ Unit) :
    List (ServiceReconcileStep σ) → Go Call Call.Ans σ (Option (Result × Option Err))
  | [] => return none
  | step :: steps => do
    match ← step.fn with
    | (_, some e) =>
      let e := Err.wrap ("error in step " ++ step.name ++ ": ") e
      onError e
      return some (⟨defaultReconcileDuration⟩, some e)
    | (true, none) => return some (⟨defaultReconcileDuration⟩, none)
    | (false, none) => runSteps onError steps

theorem wp_runSteps_nil {M : Monitor Call Call.Ans} {q : M.Phase} {s : σ}
    {onError : Err → Go Call Call.Ans σ Unit} {Q : M.Phase → Option (Result × Option Err) → σ → Prop}
    (h : Q q none s) : (runSteps onError []).wp M Q q s := by
  rw [runSteps]
  exact (wp_pure _).mpr h

/-- One round of the loop. -/
theorem wp_runSteps_cons {M : Monitor Call Call.Ans} {q : M.Phase} {s : σ}
    {onError : Err → Go Call Call.Ans σ Unit} {step : ServiceReconcileStep σ}
    {steps : List (ServiceReconcileStep σ)} {Q : M.Phase → Option (Result × Option Err) → σ → Prop}
    (h : step.fn.wp M (fun q' r s' =>
      match r with
      | (_, some e) =>
        (onError (.wrap ("error in step " ++ step.name ++ ": ") e)).wp M (fun q'' _ s'' =>
          Q q'' (some (⟨defaultReconcileDuration⟩,
            some (.wrap ("error in step " ++ step.name ++ ": ") e))) s'') q' s'
      | (true, none) => Q q' (some (⟨defaultReconcileDuration⟩, none)) s'
      | (false, none) => (runSteps onError steps).wp M Q q' s') q s) :
    (runSteps onError (step :: steps)).wp M Q q s := by
  rw [runSteps, wp_bind]
  refine wp_mono h fun q' r s' hr => ?_
  match r with
  | (_, some e) => exact (wp_bind _ _).mpr (wp_mono hr fun _ _ _ h' => (wp_pure _).mpr h')
  | (true, none) => exact (wp_pure _).mpr hr
  | (false, none) => exact hr

/-- One round of the loop, where it does not matter how the loop ends early. -/
theorem wp_runSteps_step {M : Monitor Call Call.Ans} {q : M.Phase} {s : σ}
    {onError : Err → Go Call Call.Ans σ Unit} {step : ServiceReconcileStep σ}
    {steps : List (ServiceReconcileStep σ)} {Q : M.Phase → Option (Result × Option Err) → σ → Prop}
    (herror : ∀ e q s, (onError e).wp M (fun _ _ _ => True) q s)
    (hend : ∀ q outcome s, Q q (some outcome) s)
    (h : step.fn.wp M (fun q' r s' => r = (false, none) →
      (runSteps onError steps).wp M Q q' s') q s) :
    (runSteps onError (step :: steps)).wp M Q q s := by
  refine wp_runSteps_cons (wp_mono h fun q' r s' hr => ?_)
  match r with
  | (_, some e) => exact wp_mono (herror _ _ _) fun _ _ _ _ => hend _ _ _
  | (true, none) => exact hend _ _ _
  | (false, none) => exact hr rfl

theorem within_runSteps {κ : Type} {keep : σ → κ} {E : Call → Prop}
    {onError : Err → Go Call Call.Ans σ Unit} {steps : List (ServiceReconcileStep σ)}
    (herror : ∀ e, Within E keep (onError e)) (hsteps : ∀ step ∈ steps, Within E keep step.fn) :
    Within E keep (runSteps onError steps) := by
  induction steps with
  | nil => exact .pure _
  | cons step steps ih =>
    unfold runSteps
    refine .bind (hsteps step (List.mem_cons_self ..)) fun r => ?_
    match r with
    | (_, some e) => exact .bind (herror _) fun _ => .pure _
    | (true, none) => exact .pure _
    | (false, none) => exact ih fun step' hstep => hsteps step' (List.mem_cons_of_mem _ hstep)

theorem keeps_runSteps {I : σ → Prop} {onError : Err → Go Call Call.Ans σ Unit}
    {steps : List (ServiceReconcileStep σ)} (herror : ∀ e, Keeps I (onError e))
    (hsteps : ∀ step ∈ steps, Keeps I step.fn) : Keeps I (runSteps onError steps) := by
  induction steps with
  | nil => exact .pure _
  | cons step steps ih =>
    unfold runSteps
    refine .bind (hsteps step (List.mem_cons_self ..)) fun r => ?_
    match r with
    | (_, some e) => exact .bind (herror _) fun _ => .pure _
    | (true, none) => exact .pure _
    | (false, none) => exact ih fun step' hstep => hsteps step' (List.mem_cons_of_mem _ hstep)

/-- The steps were run one after the other, and each was done. -/
inductive StepsDone : List (ServiceReconcileStep σ) → σ → List (Event Call Call.Ans) → σ → Prop
  | nil (s : σ) : StepsDone [] s [] s
  | cons {step : ServiceReconcileStep σ} {steps : List (ServiceReconcileStep σ)} {s s₁ s' : σ}
      {tr tr' : List (Event Call Call.Ans)} : Runs step.fn s tr (.val (false, none)) s₁ →
      StepsDone steps s₁ tr' s' → StepsDone (step :: steps) s (tr ++ tr') s'

/-- The loop ends without a result exactly if every step is done: no error and no requeue is
followed by another step. -/
theorem runSteps_none {onError : Err → Go Call Call.Ans σ Unit}
    {steps : List (ServiceReconcileStep σ)} {s s' : σ} {tr : List (Event Call Call.Ans)}
    (h : Runs (runSteps onError steps) s tr (.val none) s') : StepsDone steps s tr s' := by
  induction steps generalizing s tr with
  | nil =>
    rw [runSteps] at h
    cases h
    exact .nil _
  | cons step steps ih =>
    rw [runSteps] at h
    rcases h.bind_inv with ⟨r, s₁, tr₁, tr₂, rfl, h₁, h₂⟩ | ⟨msg, hr, _⟩
    · match r with
      | (_, some e) =>
        rcases h₂.bind_inv with ⟨_, s₂, _, _, _, _, h₃⟩ | ⟨msg, hr, _⟩
        · cases h₃
        · exact nomatch hr
      | (true, none) => cases h₂
      | (false, none) => exact .cons h₁ (ih h₂)
    · exact nomatch hr

/-- After some steps were done, the loop goes on with the others. -/
theorem runSteps_resume {onError : Err → Go Call Call.Ans σ Unit}
    {steps steps' : List (ServiceReconcileStep σ)} {s s₁ s' : σ} {tr tr' : List (Event Call Call.Ans)}
    {r : Res (Option (Result × Option Err))} (hdone : StepsDone steps s tr s₁)
    (h : Runs (runSteps onError (steps ++ steps')) s (tr ++ tr') r s') :
    Runs (runSteps onError steps') s₁ tr' r s' := by
  induction hdone with
  | nil s => exact h
  | cons hstep _ ih =>
    rw [List.cons_append, runSteps, List.append_assoc] at h
    exact ih ((hstep.reaches_bind _).resume h)

/-- The first step is done and the loop goes on, or the step is not done and the loop ends with
what the step leaves. -/
theorem runSteps_cons_inv {κ : Type} {keep : σ → κ} {onError : Err → Go Call Call.Ans σ Unit}
    {step : ServiceReconcileStep σ} {steps : List (ServiceReconcileStep σ)} {s s' : σ}
    {tr : List (Event Call Call.Ans)} {r : Res (Option (Result × Option Err))}
    (herror : ∀ e, Within (fun _ => True) keep (onError e))
    (h : Runs (runSteps onError (step :: steps)) s tr r s') :
    ∃ s₁ tr₁ tr₂, tr = tr₁ ++ tr₂ ∧
      (Runs step.fn s tr₁ (.val (false, none)) s₁ ∧ Runs (runSteps onError steps) s₁ tr₂ r s' ∨
        ∃ r₁, Runs step.fn s tr₁ r₁ s₁ ∧ r₁ ≠ .val (false, none) ∧ keep s' = keep s₁) := by
  rw [runSteps] at h
  rcases h.bind_inv with ⟨r₁, s₁, tr₁, tr₂, rfl, h₁, h₂⟩ | ⟨msg, rfl, h₁⟩
  · refine ⟨s₁, tr₁, tr₂, rfl, ?_⟩
    match r₁ with
    | (_, some e) =>
      refine .inr ⟨_, h₁, nofun, ?_⟩
      have hend : Within (fun _ => True) keep (onError
          (.wrap ("error in step " ++ step.name ++ ": ") e) >>= fun _ => (Pure.pure (some
            (⟨defaultReconcileDuration⟩, some (.wrap ("error in step " ++ step.name ++ ": ") e))) :
            Go Call Call.Ans σ (Option (Result × Option Err)))) :=
        .bind (herror _) fun _ => .pure _
      exact hend.keeps h₂
    | (true, none) =>
      cases h₂
      exact .inr ⟨_, h₁, nofun, rfl⟩
    | (false, none) => exact .inl ⟨h₁, h₂⟩
  · exact ⟨s', tr, [], (List.append_nil tr).symm, .inr ⟨_, h₁, nofun, rfl⟩⟩

/-- What only the last step changes is changed only if all steps are done. -/
theorem runSteps_changed {κ : Type} {keep : σ → κ} {onError : Err → Go Call Call.Ans σ Unit}
    {steps : List (ServiceReconcileStep σ)} (last : ServiceReconcileStep σ) {s s' : σ}
    {tr : List (Event Call Call.Ans)} {r : Res (Option (Result × Option Err))}
    (herror : ∀ e, Within (fun _ => True) keep (onError e))
    (hsteps : ∀ step ∈ steps, Within (fun _ => True) keep step.fn)
    (hlast : ∀ s tr r s', Runs last.fn s tr r s' → r = .val (false, none))
    (h : Runs (runSteps onError (steps ++ [last])) s tr r s') (hne : keep s' ≠ keep s) :
    r = .val none := by
  induction steps generalizing s tr with
  | nil =>
    obtain ⟨s₁, tr₁, tr₂, -, hstep⟩ := runSteps_cons_inv herror h
    rcases hstep with ⟨_, h₂⟩ | ⟨r₁, h₁, hr₁, _⟩
    · rw [runSteps] at h₂
      cases h₂
      rfl
    · exact absurd (hlast _ _ _ _ h₁) hr₁
  | cons step steps ih =>
    obtain ⟨s₁, tr₁, tr₂, -, hstep⟩ := runSteps_cons_inv herror h
    rcases hstep with ⟨h₁, h₂⟩ | ⟨r₁, h₁, _, hend⟩
    · have hs₁ := (hsteps step (List.mem_cons_self ..)).keeps h₁
      exact ih (fun step' hmem => hsteps step' (List.mem_cons_of_mem _ hmem)) h₂ (hs₁ ▸ hne)
    · exact absurd (hend.trans ((hsteps step (List.mem_cons_self ..)).keeps h₁)) hne

/-- What a run returns after `Finalize`: an error of `Finalize` is joined with that of the run. -/
def finalized : Result × Option Err → Option Err → Result × Option Err
  | r, none => r
  | (result, none), some e => (result, some e)
  | (result, some err), some e => (result, some (.join e err))

/-- Without an error at the end, there was none before. -/
theorem finalized_none {r : Result × Option Err} {f : Option Err} (h : (finalized r f).2 = none) :
    r.2 = none ∧ f = none := by
  obtain ⟨result, err⟩ := r
  cases f with
  | none => exact ⟨h, rfl⟩
  | some e => cases err <;> cases h

/-- A run with `Finalize` deferred. -/
def withFinalize (finalize : Go Call Call.Ans σ (Option Err))
    (body : Go Call Call.Ans σ (Result × Option Err)) :
    Go Call Call.Ans σ (Result × Option Err) := fun s =>
  (body s).bind fun r => (finalize r.2).bind fun f =>
    .ret (match r.1, f.1 with
      | _, .panic text => .panic text
      | .panic text, .val _ => .panic text
      | .val r, .val f => .val (finalized r f), f.2)

/-- `Finalize` runs after whatever the body ended with. -/
theorem wp_withFinalize {M : Monitor Call Call.Ans} {finalize : Go Call Call.Ans σ (Option Err)}
    {body : Go Call Call.Ans σ (Result × Option Err)} {J : M.Phase → σ → Prop} {q : M.Phase} {s : σ}
    {fin : M.Phase → Prop} (hbody : body.wpEnd M J q s)
    (hfinalize : ∀ q' s', J q' s' → finalize.wp M (fun q'' _ _ => fin q'') q' s')
    (hpanic : ∀ q', M.panic q' → fin q') :
    (withFinalize finalize body s).forget.wp M (fun q' _ => fin q') q := by
  unfold withFinalize Prog.forget
  rw [Prog.wp_bind, Prog.wp_bind]
  unfold wpEnd at hbody
  refine Prog.wp_mono hbody fun q' r hr => ?_
  have hfin := hfinalize q' r.2 hr
  unfold Go.wp at hfin
  rw [Prog.wp_bind]
  refine Prog.wp_mono hfin fun q'' f hf => ?_
  obtain ⟨f, s'⟩ := f
  cases f with
  | val e => exact hf
  | panic msg => exact hpanic q'' hf

/-- `Finalize` also runs after a panic, which goes on after it. -/
theorem wp_finalized {M : Monitor Call Call.Ans} {finalize : Go Call Call.Ans σ (Option Err)}
    {body : Go Call Call.Ans σ (Result × Option Err)} {q : M.Phase} {s : σ}
    {B Q : M.Phase → Result × Option Err → σ → Prop} (hbody : body.wp M B q s)
    (hval : ∀ q' r s', B q' r s' →
      finalize.wp M (fun q'' f s'' => Q q'' (finalized r f) s'') q' s')
    (hpanic : ∀ q' s', M.panic q' → finalize.wp M (fun q'' _ _ => M.panic q'') q' s') :
    (withFinalize finalize body).wp M Q q s := by
  unfold withFinalize
  unfold Go.wp at hbody ⊢
  rw [Prog.wp_bind]
  refine Prog.wp_mono hbody fun q' r hr => ?_
  obtain ⟨r, s'⟩ := r
  cases r with
  | panic msg =>
    have hfinal := hpanic q' s' hr
    unfold Go.wp at hfinal
    rw [Prog.wp_bind]
    refine Prog.wp_mono hfinal fun q'' f hf => ?_
    obtain ⟨f, s''⟩ := f
    cases f <;> exact hf
  | val r =>
    have hfinal := hval q' r s' hr
    unfold Go.wp at hfinal
    rw [Prog.wp_bind]
    refine Prog.wp_mono hfinal fun q'' f hf => ?_
    obtain ⟨f, s''⟩ := f
    cases f <;> exact hf

/-- A body that cannot panic, and a `Finalize` that changes nothing and ends without an error. -/
theorem wp_withFinalize_ok {M : Monitor Call Call.Ans} {finalize : Go Call Call.Ans σ (Option Err)}
    {body : Go Call Call.Ans σ (Result × Option Err)} {q : M.Phase} {s : σ}
    {Q : M.Phase → Result × Option Err → σ → Prop} (hpanic : ∀ q, ¬ M.panic q)
    (hfinalize : ∀ q s, finalize.wp M (fun q' f s' => f = none ∧ q' = q ∧ s' = s) q s)
    (hbody : body.wp M Q q s) : (withFinalize finalize body).wp M Q q s := by
  refine wp_finalized hbody (fun q' r s' hr => ?_) fun q' _ hq' => absurd hq' (hpanic q')
  refine wp_mono (hfinalize q' s') fun q'' f s'' h => ?_
  obtain ⟨rfl, rfl, rfl⟩ := h
  exact hr

/-- A complete run is one of the body and one of `Finalize`, whose error is not lost. -/
theorem runs_withFinalize_inv {finalize : Go Call Call.Ans σ (Option Err)}
    {body : Go Call Call.Ans σ (Result × Option Err)} {s s' : σ} {tr : List (Event Call Call.Ans)}
    {r : Res (Result × Option Err)} (h : Runs (withFinalize finalize body) s tr r s') :
    ∃ rb s₁ tr₁ rf tr₂, tr = tr₁ ++ tr₂ ∧ Runs body s tr₁ rb s₁ ∧ Runs finalize s₁ tr₂ rf s' ∧
      ∀ result, r = .val (result, none) → rf = .val none := by
  unfold Runs withFinalize at h
  obtain ⟨⟨rb, s₁⟩, tr₁, tr₂, rfl, hbody, h⟩ := h.bind_inv
  obtain ⟨⟨rf, s₂⟩, tr₂, tr₃, rfl, hfinalize, h⟩ := h.bind_inv
  cases h
  refine ⟨rb, s₁, tr₁, rf, tr₂, by simp, hbody, hfinalize, fun result hr => ?_⟩
  cases rf with
  | panic text => cases rb <;> cases hr
  | val f =>
    cases rb with
    | panic text => cases hr
    | val b =>
      obtain ⟨-, rfl⟩ := finalized_none (congrArg Prod.snd (Res.val.inj hr))
      rfl

/-- `retry.OnError` of one call that stores the variables: the last attempt decides. -/
theorem runs_retryOnError_inv {attempt : Go Call Call.Ans σ (Option Err)}
    {store : σ → Except Err Unit → Event Call Call.Ans}
    (hattempt : ∀ {s tr r s'}, Runs attempt s tr r s' →
      ∃ a, tr = [store s a] ∧ r = .val (ClusterScope.errOf a) ∧ s' = s)
    {steps : Nat} (hsteps : 0 < steps) {s s' : σ} {tr : List (Event Call Call.Ans)}
    {r : Res (Option Err)} (h : Runs (retryOnError attempt steps) s tr r s') :
    ∃ failed last, tr = failed ++ [store s' last] ∧ r = .val (ClusterScope.errOf last) := by
  obtain ⟨steps, rfl⟩ := Nat.exists_eq_add_of_lt hsteps
  rw [Nat.zero_add] at h
  clear hsteps
  induction steps generalizing s tr with
  | zero =>
    obtain ⟨a, rfl, rfl, rfl⟩ := hattempt h
    exact ⟨[], a, rfl, rfl⟩
  | succ steps ih =>
    rcases Runs.bind_inv h with ⟨r₁, s₁, tr₁, tr₂, rfl, h₁, h₂⟩ | ⟨msg, -, h₁⟩
    · obtain ⟨a, rfl, ha, rfl⟩ := hattempt h₁
      cases a with
      | ok u =>
        cases ha
        obtain ⟨rfl, rfl, rfl⟩ := h₂.pure_inv
        exact ⟨[], .ok (), rfl, rfl⟩
      | error e =>
        cases ha
        obtain ⟨failed, last, rfl, hr⟩ := ih h₂
        exact ⟨_ :: failed, last, rfl, hr⟩
    · obtain ⟨a, -, ha, -⟩ := hattempt h₁
      cases ha

/-- A complete run ends with an attempt to store the variables as they are then, which does not
fail unless the run does. -/
theorem runs_finalize_inv {attempt : Go Call Call.Ans σ (Option Err)}
    {store : σ → Except Err Unit → Event Call Call.Ans}
    (hattempt : ∀ {s tr r s'}, Runs attempt s tr r s' →
      ∃ a, tr = [store s a] ∧ r = .val (ClusterScope.errOf a) ∧ s' = s)
    {steps : Nat} (hsteps : 0 < steps) {body : Go Call Call.Ans σ (Result × Option Err)} {s s' : σ}
    {tr : List (Event Call Call.Ans)} {r : Res (Result × Option Err)}
    (h : Runs (withFinalize (retryOnError attempt steps) body) s tr r s') :
    ∃ before last, tr = before ++ [store s' last] ∧
      ∀ result, r = .val (result, none) → last = .ok () := by
  obtain ⟨rb, s₁, tr₁, rf, tr₂, rfl, -, hfinalize, herror⟩ := runs_withFinalize_inv h
  obtain ⟨failed, last, rfl, rfl⟩ := runs_retryOnError_inv hattempt hsteps hfinalize
  refine ⟨tr₁ ++ failed, last, (List.append_assoc ..).symm, fun result hr => ?_⟩
  have hlast := herror result hr
  cases last with
  | ok u => rfl
  | error e => cases hlast

/-- An attempt that cannot fail is the only one. -/
theorem wp_retryOnError_ok {M : Monitor Call Call.Ans} {attempt : Go Call Call.Ans σ (Option Err)}
    {q : M.Phase} {s : σ} {Q : M.Phase → Option Err → σ → Prop} {steps : Nat} (hsteps : 0 < steps)
    (h : attempt.wp M (fun q' r s' => r = none ∧ Q q' none s') q s) :
    (retryOnError attempt steps).wp M Q q s := by
  have hattempt : attempt.wp M Q q s := by
    refine wp_mono h fun q' r s' hr => ?_
    obtain ⟨rfl, hQ⟩ := hr
    exact hQ
  match steps with
  | 1 => exact hattempt
  | _ + 2 =>
    refine (wp_bind _ _).mpr (wp_mono h fun q' r s' hr => ?_)
    obtain ⟨rfl, hQ⟩ := hr
    exact (wp_pure _).mpr hQ

theorem wp_retryOnError {M : Monitor Call Call.Ans} {attempt : Go Call Call.Ans σ (Option Err)}
    {I : M.Phase → σ → Prop} (h : ∀ q s, I q s → attempt.wp M (fun q' _ s' => I q' s') q s)
    (steps : Nat) : ∀ {q : M.Phase} {s : σ}, I q s →
      (retryOnError attempt steps).wp M (fun q' _ s' => I q' s') q s := by
  induction steps with
  | zero =>
    intro q s hI
    exact (wp_pure _).mpr hI
  | succ steps ih =>
    intro q s hI
    cases steps with
    | zero => exact h q s hI
    | succ steps =>
      refine (wp_bind _ _).mpr (wp_mono (h q s hI) fun q' r s' hI' => ?_)
      cases r with
      | none => exact (wp_pure _).mpr hI'
      | some e => exact ih hI'

section

variable {M : Monitor Call Call.Ans} {q : M.Phase}

theorem steady_runSteps {onError : Err → Go Call Call.Ans σ Unit}
    {steps : List (ServiceReconcileStep σ)} (herror : ∀ e, (onError e).Steady M q)
    (hsteps : ∀ step ∈ steps, step.fn.Steady M q) : (runSteps onError steps).Steady M q := by
  induction steps with
  | nil => exact .pure _
  | cons step steps ih =>
    unfold runSteps
    refine .bind (hsteps step (List.mem_cons_self ..)) fun r => ?_
    match r with
    | (_, some e) => exact .bind (herror _) fun _ => .pure _
    | (true, none) => exact .pure _
    | (false, none) => exact ih fun step' hstep => hsteps step' (List.mem_cons_of_mem _ hstep)

/-- The deferred `Finalize` finds the monitor where it was, also after a panic. -/
theorem steady_withFinalize {finalize : Go Call Call.Ans σ (Option Err)}
    {body : Go Call Call.Ans σ (Result × Option Err)} (hfinalize : finalize.Steady M q)
    (hbody : body.Steady M q) : (withFinalize finalize body).Steady M q := by
  intro s
  have hwp := hbody s
  unfold wpEnd at hwp ⊢
  unfold withFinalize
  rw [Prog.wp_bind]
  refine Prog.wp_mono hwp fun q' r hr => ?_
  have hfin := hfinalize r.2
  unfold wpEnd at hfin
  rw [hr, Prog.wp_bind]
  exact Prog.wp_mono hfin fun _ _ hf => hf

theorem steady_retryOnError {attempt : Go Call Call.Ans σ (Option Err)}
    (h : attempt.Steady M q) (steps : Nat) : (retryOnError attempt steps).Steady M q := by
  induction steps with
  | zero => exact .pure _
  | succ steps ih =>
    cases steps with
    | zero => exact h
    | succ steps =>
      refine .bind h fun r => ?_
      cases r with
      | none => exact .pure _
      | some e => exact ih

end

/-! ## Credentials -/

/-- The finalizer a cluster puts on its credentials. -/
def credentialsFinalizer (cs : ClusterScope) : String :=
  clusterFinalizer ++ "/" ++ cs.ionosClusterUID

def ionosCloudClusterKind : String := "IonosCloudCluster"

def infrastructureAPIVersion : String := "infrastructure.cluster.x-k8s.io/v1alpha1"

/-- The reference to the cluster as an owner. -/
def ownerReference (cs : ClusterScope) : OwnerReference :=
  ⟨infrastructureAPIVersion, ionosCloudClusterKind, cs.ionosClusterName, cs.ionosClusterUID⟩

/-- `ensureSecretControlledByCluster`. -/
def ensureSecretControlledByCluster (cs : ClusterScope) (secret : CredentialsSecret) :
    Go Call Call.Ans σ (Option Err) := do
  let (finalizers, finalizerAdded) :=
    cs.libs.addFinalizer secret.finalizers (credentialsFinalizer cs)
  match cs.libs.setOwnerReference secret.ownerReferences (ownerReference cs) with
  | .error e => return some e
  | .ok owners =>
    if finalizerAdded ∨ secret.ownerReferences ≠ owners then
      return ClusterScope.errOf (← perform (Call.updateCredentials
        { secret with finalizers := finalizers, ownerReferences := owners }))
    else return none

/-- `icc.NewClient`, as far as it can fail. -/
def newClient (cs : ClusterScope) (secret : CredentialsSecret) : Option Err :=
  if secret.token = "" then some (.new "token must be set")
  else if secret.caBundle ≠ "" ∧ cs.appendCertsFromPEM secret.caBundle = false then
    some (.new "failed to read trusted CA certificates bundle")
  else none

/-- `createServiceFromCluster`. -/
def createServiceFromCluster (cs : ClusterScope) : Go Call Call.Ans σ (Option Err) := do
  match ← perform (Call.getCredentials cs.ionosClusterNs cs.credentialsRef) with
  | .error e => return some e
  | .ok secret =>
    match ← ensureSecretControlledByCluster cs secret with
    | some e => return some e
    | none => return newClient cs secret

theorem within_createServiceFromCluster {κ : Type} {E : Call → Prop} {keep : σ → κ}
    (hget : ∀ ns name, E (.getCredentials ns name)) (hupdate : ∀ secret, E (.updateCredentials secret))
    (cs : ClusterScope) : Within E keep (createServiceFromCluster cs : Go Call Call.Ans σ _) := by
  refine .bind (.perform (hget _ _)) fun r => ?_
  cases r with
  | error e => exact .pure _
  | ok secret =>
    have hensure : Within E keep (ensureSecretControlledByCluster cs secret : Go Call Call.Ans σ _) := by
      unfold ensureSecretControlledByCluster
      dsimp only
      split
      next => exact .pure _
      next => exact .ite (.bind (.perform (hupdate _)) fun _ => .pure _) (.pure _)
    refine .bind hensure fun r => ?_
    cases r <;> exact .pure _

/-- `removeCredentialsFinalizer`. -/
def removeCredentialsFinalizer (cs : ClusterScope) : Go Call Call.Ans σ (Option Err) := do
  match ← perform (Call.getCredentials cs.ionosClusterNs cs.credentialsRef) with
  | .error e => if e.isK8sNotFound then return none else return some e
  | .ok secret =>
    return ClusterScope.errOf (← perform (Call.updateCredentials
      { secret with
        finalizers := (cs.libs.removeFinalizer secret.finalizers (credentialsFinalizer cs)).1 }))

/-- `Reconcile` from where the scope exists: the Cloud API client, and then the run. -/
def reconcileWithService (cs : ClusterScope)
    (body : Go Call Call.Ans σ (Result × Option Err)) :
    Go Call Call.Ans σ (Result × Option Err) := do
  match ← createServiceFromCluster cs with
  | some e =>
    if e.isK8sNotFound then return (⟨defaultReconcileDuration⟩, none)
    else return (⟨0⟩, some (.wrap "failed to create ionos client: " e))
  | none => body

end Capic.Controller
