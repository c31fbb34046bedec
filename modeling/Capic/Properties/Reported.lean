import Capic.Properties.Provisioned

/-!
# A provisioned machine is reported as provisioned

Three functions write the condition `MachineProvisioned`. `FinalizeMachineProvisioning` sets it to
true together with the flag, and `setProvisioningCondition` leaves it alone once the flag is set. The
readiness check at the start of a run does not look at the flag: if the owner objects are not ready
any more, it reports a provisioned machine as waiting.

`provisioned_reported` says that the flag never goes back, and that it is in step with the condition
through all the runs of a machine's life if and only if no run finds a provisioned machine with owners
that are not ready.
-/

namespace Capic.Properties

open Effect Effect.Go Cloud Controller Controller.Machine

/-! ## The flag and the condition -/

/-- The status of the condition of a type. -/
def statusOf (conditions : List Condition) (type : String) : Option ConditionStatus :=
  (conditions.find? (·.type = type)).map (·.status)

theorem statusOf_setCondition (libs : Libraries) (conditions : List Condition) (c : Condition) :
    statusOf (libs.setCondition conditions c) c.type = some c.status := by
  unfold statusOf
  rw [libs.find?_setCondition]
  rfl

/-- A provisioned machine is reported as provisioned. -/
def Reported (v : MachineVars) : Prop :=
  v.provisioned = some true → statusOf v.conditions machineProvisionedCondition = some .true

/-- The cluster's infrastructure is provisioned, and there is bootstrap data for the machine. -/
def OwnersReady (ms : MachineScope) : Prop :=
  ms.clusterScope.infrastructureProvisioned = some true ∧ ms.dataSecretName ≠ none

/-! ## One run -/

/-- What the flag and the condition are kept in. -/
def report (v : MachineVars) : Option Bool × List Condition := (v.provisioned, v.conditions)

theorem report_frame : Frame report where
  providerID _ _ := rfl
  currentRequest _ _ := rfl
  location _ _ := rfl
  cluster _ _ _ := rfl

/-- A property of the report that its writers keep: before the machine is provisioned the conditions
do not matter, and then both are set. -/
structure ReportInv (I : MachineVars → Prop) : Prop where
  report : ∀ v v', report v' = report v → I v → I v'
  waiting : ∀ (v : MachineVars) c, v.provisioned ≠ some true → I v → I { v with conditions := c }
  provisioned : ∀ (v : MachineVars) c, statusOf c machineProvisionedCondition = some .true →
    I { v with provisioned := some true, conditions := c }

theorem reported_inv : ReportInv Reported where
  report v v' heq h hv' := by
    obtain ⟨hprovisioned, hconditions⟩ := Prod.mk.inj heq
    rw [hconditions]
    exact h (hprovisioned ▸ hv')
  waiting v c hv _ hv' := absurd hv' hv
  provisioned v c hc _ := hc

theorem provisioned_inv : ReportInv fun v => v.provisioned = some true where
  report _ _ heq h := (Prod.mk.inj heq).1.trans h
  waiting _ _ _ h := h
  provisioned _ _ _ := rfl

section

variable {I : MachineVars → Prop} {ms : MachineScope}

theorem ReportInv.of_within {α : Type} {E : Call → Prop} {p : MachineM α} (hI : ReportInv I)
    (hp : Within E Properties.report p) : Keeps I p := .of_within hp hI.report

theorem ReportInv.setProvisioningCondition (hI : ReportInv I) (err : Option Err) :
    Keeps I (setProvisioningCondition ms err) := by
  refine .vars_bind fun v hv => .ite (fun _ => .pure hv) fun hunset => ?_
  have hne : v.provisioned ≠ some true := by
    intro heq
    rw [heq] at hunset
    exact hunset rfl
  cases err with
  | none => exact .assign (hI.waiting v _ hne hv)
  | some e => exact .assign (hI.waiting v _ hne hv)

theorem ReportInv.finalizeMachineProvisioning (hI : ReportInv I) :
    Keeps I (finalizeMachineProvisioning ms) :=
  .bind (.assign fun v _ => hI.provisioned v _ (statusOf_setCondition _ _ _)) fun _ => .pure _

/-- Every step keeps the report, but for the last one, which completes it. -/
theorem ReportInv.normalSequence (hI : ReportInv I) :
    Keeps I (runSteps (fun e => Machine.setProvisioningCondition ms (some e))
      (Machine.normalSequence ms)) := by
  refine keeps_runSteps (fun e => hI.setProvisioningCondition (some e)) fun step hstep => ?_
  simp only [Machine.normalSequence, List.mem_cons, List.not_mem_nil, or_false] at hstep
  rcases hstep with rfl | rfl | rfl | rfl | rfl
  · exact hI.of_within (within_reconcileLAN report_frame.cluster)
  · exact hI.of_within (K8s.within_reconcileIPAddresses fun _ _ => rfl)
  · exact hI.of_within (within_reconcileServer report_frame fun _ _ => rfl)
  · exact hI.of_within (within_reconcileIPFailover report_frame)
  · exact hI.finalizeMachineProvisioning

theorem ReportInv.reconcileFinalized (hI : ReportInv I) : Keeps I (reconcileFinalized ms) := by
  unfold Machine.reconcileFinalized
  refine .bind (hI.of_within (within_checkRequestStates report_frame.cluster fun _ _ => rfl))
    fun r => ?_
  match r with
  | (true, _) => exact .pure _
  | (false, _) =>
    refine .bind (hI.setProvisioningCondition none) fun _ => .bind hI.normalSequence fun r => ?_
    cases r with
    | some outcome => exact .pure _
    | none => exact .pure _

theorem isInfrastructureReady_of_ready (h : OwnersReady ms) : isInfrastructureReady ms = pure true := by
  unfold isInfrastructureReady
  rw [h.1, if_neg (by decide), if_neg h.2]

/-- With owners that are ready, a run keeps the report. -/
theorem ReportInv.reconcileNormal (hI : ReportInv I) (hready : OwnersReady ms) :
    Keeps I (reconcileNormal ms) := by
  unfold Machine.reconcileNormal
  rw [isInfrastructureReady_of_ready hready]
  refine .bind (.pure _) fun ready => ?_
  cases ready with
  | false => exact .pure _
  | true =>
    refine .vars_bind fun v hv => ?_
    split
    next => exact hI.reconcileFinalized v hv
    next finalizers _ =>
      have hpatch : Within (fun _ => True) Properties.report MachineScope.patchObject :=
        .bind .vars fun _ => .bind (.perform trivial) fun _ => .pure _
      have hassign : Keeps I (assign fun v : MachineVars => { v with finalizers := finalizers } :
          MachineM Unit) := .assign fun v hv => hI.report v _ rfl hv
      refine hassign.bind (fun _ => ?_) v hv
      refine .bind (hI.of_within hpatch) fun e => ?_
      cases e with
      | some e => exact .pure _
      | none => exact hI.reconcileFinalized

/-- With owners that are not ready, a run reports that the machine is waiting. -/
theorem reconcileNormal_waiting {v v' : MachineVars} {tr : List (Event Call Call.Ans)}
    {r : Res (Result × Option Err)} (hready : ¬OwnersReady ms)
    (hrun : Runs (reconcileNormal ms) v tr r v') : v'.provisioned = v.provisioned ∧
      statusOf v'.conditions machineProvisionedCondition = some .false := by
  have hend : Finishes (reconcileNormal ms) v fun _ v' => v'.provisioned = v.provisioned ∧
      statusOf v'.conditions machineProvisionedCondition = some .false := by
    unfold Machine.reconcileNormal isInfrastructureReady
    refine .bind (.ite (fun _ => ⟨rfl, statusOf_setCondition _ _ _⟩) fun hinfra =>
      .ite (fun _ => ⟨rfl, statusOf_setCondition _ _ _⟩) fun hdata => ?_)
    refine absurd ⟨?_, hdata⟩ hready
    match hprovisioned : ms.clusterScope.infrastructureProvisioned with
    | some true => rfl
    | some false => exact absurd (by rw [hprovisioned]; rfl) hinfra
    | none => exact absurd (by rw [hprovisioned]; rfl) hinfra
  exact hend.run hrun

/-- The flag does not go back. -/
theorem reconcileNormal_provisioned {v v' : MachineVars} {tr : List (Event Call Call.Ans)}
    {r : Res (Result × Option Err)} (hrun : Runs (reconcileNormal ms) v tr r v')
    (hv : v.provisioned = some true) : v'.provisioned = some true := by
  by_cases hready : OwnersReady ms
  · exact (provisioned_inv.reconcileNormal hready v hv).run hrun
  · exact (reconcileNormal_waiting hready hrun).1.trans hv

/-- A machine that is reported as it is still is after a run, unless it was provisioned and its owners
are not ready. -/
theorem reconcileNormal_reported {v v' : MachineVars} {tr : List (Event Call Call.Ans)}
    {r : Res (Result × Option Err)} (hrun : Runs (reconcileNormal ms) v tr r v')
    (hv : Reported v) : Reported v' ↔ (v.provisioned = some true → OwnersReady ms) := by
  by_cases hready : OwnersReady ms
  · exact iff_of_true ((reported_inv.reconcileNormal hready v hv).run hrun) fun _ => hready
  · obtain ⟨hprovisioned, hstatus⟩ := reconcileNormal_waiting hready hrun
    constructor
    · intro h hset
      have htrue := h (hprovisioned.trans hset)
      rw [hstatus] at htrue
      exact nomatch htrue
    · intro h hset
      exact absurd (h (hprovisioned ▸ hset)) hready

end

/-! ## A machine's life -/

/-- A run of `reconcileNormal`, with what it starts from and what it leaves. -/
structure NormalRun where
  ms : MachineScope
  start : MachineVars
  finish : MachineVars
  runs : ∃ tr r, Runs (reconcileNormal ms) start tr r finish

/-- Runs one after the other. Between them the owners may change, and so may all of the machine but
for the flag and the conditions. -/
def Life : MachineVars → List NormalRun → Prop
  | _, [] => True
  | v, run :: runs => report run.start = report v ∧ Life run.finish runs

theorem Life.provisioned {v : MachineVars} {runs : List NormalRun} (hlife : Life v runs)
    (hv : v.provisioned = some true) : ∀ run ∈ runs, run.finish.provisioned = some true := by
  induction runs generalizing v with
  | nil => simp
  | cons run runs ih =>
    obtain ⟨hstart, hrest⟩ := hlife
    obtain ⟨tr, r, hrun⟩ := run.runs
    have hfinish := reconcileNormal_provisioned hrun ((Prod.mk.inj hstart).1.trans hv)
    exact List.forall_mem_cons.mpr ⟨hfinish, ih hrest hfinish⟩

theorem Life.pairwise {v : MachineVars} {runs : List NormalRun} (hlife : Life v runs) :
    (v :: runs.map (·.finish)).Pairwise
      fun w w' => w.provisioned = some true → w'.provisioned = some true := by
  induction runs generalizing v with
  | nil => exact List.pairwise_singleton _ _
  | cons run runs ih =>
    refine .cons (fun w hw hv => ?_) (ih hlife.2)
    obtain ⟨run', hrun', rfl⟩ := List.mem_map.mp hw
    exact hlife.provisioned hv run' hrun'

theorem Life.reported {v : MachineVars} {runs : List NormalRun} (hlife : Life v runs)
    (hv : Reported v) : (∀ run ∈ runs, Reported run.finish) ↔
      ∀ run ∈ runs, run.start.provisioned = some true → OwnersReady run.ms := by
  induction runs generalizing v with
  | nil => simp
  | cons run runs ih =>
    obtain ⟨hstart, hrest⟩ := hlife
    obtain ⟨tr, r, hrun⟩ := run.runs
    have hiff := reconcileNormal_reported hrun (reported_inv.report _ _ hstart hv)
    rw [List.forall_mem_cons, List.forall_mem_cons, hiff]
    exact and_congr_right fun hready => ih hrest (hiff.mpr hready)

/-- The flag of a machine never goes back, and it is in step with the condition after every run of the
machine's life if and only if the owners are ready whenever a run starts with a provisioned machine. -/
theorem provisioned_reported (v : MachineVars) (runs : List NormalRun) (hlife : Life v runs)
    (hv : Reported v) :
    (v :: runs.map (·.finish)).Pairwise
        (fun w w' => w.provisioned = some true → w'.provisioned = some true) ∧
      ((∀ run ∈ runs, Reported run.finish) ↔
        ∀ run ∈ runs, run.start.provisioned = some true → OwnersReady run.ms) :=
  ⟨hlife.pairwise, hlife.reported hv⟩

/-! ### The worker's life -/

/-- The worker of `readyMachine` becomes provisioned. -/
def firstRun : NormalRun where
  ms := readyMachine
  start := default
  finish := ((reconcileNormal readyMachine default).play readyAnswers).2.2
  runs := ⟨_, _, runs_play (reconcileNormal readyMachine) default readyAnswers⟩

/-- A later run, with the cluster's infrastructure in this state. -/
def laterRun (infrastructureProvisioned : Option Bool) : NormalRun :=
  let ms := { readyMachine with clusterScope :=
    { readyMachine.clusterScope with infrastructureProvisioned } }
  { ms := ms
    start := firstRun.finish
    finish := ((reconcileNormal ms firstRun.finish).play readyAnswers).2.2
    runs := ⟨_, _, runs_play (reconcileNormal ms) firstRun.finish readyAnswers⟩ }

theorem worker_life (infrastructureProvisioned : Option Bool) :
    Life default [firstRun, laterRun infrastructureProvisioned] := ⟨rfl, rfl, trivial⟩

/-- It stays so while the cluster's infrastructure is ready. -/
theorem provisioned_reported_ready :
    Life default [firstRun, laterRun (some true)] ∧ (laterRun (some true)).finish.provisioned = some true ∧
      Reported (laterRun (some true)).finish := by
  have hlife := worker_life (some true)
  obtain ⟨hpairs, hiff⟩ := provisioned_reported default _ hlife nofun
  have hfirst : firstRun.finish.provisioned = some true := rfl
  refine ⟨hlife, ?_, ?_⟩
  · have hpair := (List.pairwise_cons.mp (List.pairwise_cons.mp hpairs).2).1
    exact hpair _ List.mem_cons_self hfirst
  · refine hiff.mpr (fun run hrun _ => ?_) _ (List.mem_cons_of_mem _ List.mem_cons_self)
    rcases List.mem_pair.mp hrun with rfl | rfl
    · exact ⟨rfl, nofun⟩
    · exact ⟨rfl, nofun⟩

/-- The cluster's infrastructure is not ready any more, and the machine, which is provisioned, is
reported as waiting. -/
theorem provisioned_unreported :
    Reported default ∧ Life default [firstRun, laterRun (some false)] ∧
      firstRun.finish.provisioned = some true ∧
      (laterRun (some false)).finish.provisioned = some true ∧
      statusOf (laterRun (some false)).finish.conditions machineProvisionedCondition =
        some .false :=
  ⟨nofun, worker_life (some false), rfl, rfl, rfl⟩

end Capic.Properties
