import Capic.Controller.Machine

/-!
# Requests in flight

`checkRequestStates` asks for the state of two requests before a machine is reconciled: the one
of the data center, which is kept in the cluster's status, and the machine's own. A request that
is done or has failed is forgotten; one that is pending should make the run end and be repeated.

`statusMonitor` gives the two questions an answer each. What `checkRequestStates` makes of them
is `requeues`, whatever the other calls are answered (`states_run`): the machine's answer takes
the place of the data center's. So a pending request of the data center is passed over if there
is an answer for the machine's request, unless that is pending too or the machine is being
deleted (`pending_requeued`).
-/

namespace Capic.Properties

open Effect Effect.Go Cloud Controller Controller.Machine

/-! ## Answers -/

/-- The status is one that will change. -/
def isPendingStatus (status : RequestStatus) : Bool := status = .queued ∨ status = .running

/-- The status is final. -/
def isFinalStatus (status : RequestStatus) : Bool := status = .done ∨ status = .failed

/-- The request is tracked with a URL, so that the API is asked for it. -/
def isAsked (request : Option ProvisioningRequest) : Bool := request.any (·.requestPath ≠ "")

/-- The status `GetRequestStatus` returns for a tracked request, if there is one. -/
def replied (request : Option ProvisioningRequest) (answer : Except Err RequestStatusInfo) :
    Option RequestStatus :=
  if isAsked request then answer.toOption.bind (·.status) else none

/-- The first question for a status is answered by `datacenter` in phase `false`, and by
`machine` from then on. -/
abbrev statusMonitor (datacenter machine : Except Err RequestStatusInfo) :
    Monitor Call Call.Ans where
  Phase := Bool
  ok _ _ := True
  adm q
    | .getRequestStatus _, a => a = if q then machine else datacenter
    | _, _ => True
  next q
    | .getRequestStatus _, _ => true
    | _, _ => q
  panic _ := False

section

variable {ms : MachineScope} {v : MachineVars} {datacenter machine : Except Err RequestStatusInfo}

/-- Where the questions begin: with the machine's if there is none for the data center. -/
def firstQuestion (ms : MachineScope) (v : MachineVars) : Bool :=
  !isAsked (v.cluster.currentRequestByDatacenter ms.datacenterID)

/-- The status of the data center's request. -/
def datacenterStatus (ms : MachineScope) (v : MachineVars)
    (answer : Except Err RequestStatusInfo) : Option RequestStatus :=
  replied (v.cluster.currentRequestByDatacenter ms.datacenterID) answer

/-- The status of the machine's request. -/
def machineStatus (v : MachineVars) (answer : Except Err RequestStatusInfo) :
    Option RequestStatus :=
  replied v.currentRequest answer

/-! ## What becomes of them -/

/-- The data center's tracked request after its answer. -/
def datacenterKept (ms : MachineScope) (v : MachineVars) (answer : Except Err RequestStatusInfo) :
    String → Option ProvisioningRequest := fun dc =>
  if dc = ms.datacenterID ∧ (datacenterStatus ms v answer).any isFinalStatus then none
  else v.cluster.currentRequestByDatacenter dc

/-- The machine's tracked request after its answer. -/
def machineKept (v : MachineVars) (answer : Except Err RequestStatusInfo) :
    Option ProvisioningRequest :=
  if (machineStatus v answer).any isFinalStatus then none else v.currentRequest

/-- Whether `checkRequestStates` asks for a requeue. -/
def requeues (ms : MachineScope) (v : MachineVars)
    (datacenter machine : Except Err RequestStatusInfo) : Bool :=
  match machineStatus v machine with
  | some status => ms.deleted || isPendingStatus status
  | none => (datacenterStatus ms v datacenter).any isPendingStatus

theorem replied_none (answer : Except Err RequestStatusInfo) : replied none answer = none := rfl

/-- The answer for a tracked request. -/
theorem status_run {request : ProvisioningRequest} {q : Bool} {s : MachineVars}
    {Q : Bool → Except Err (RequestStatus × String) → MachineVars → Prop}
    (h : ∀ r : Except Err (RequestStatus × String),
      r.toOption.map Prod.fst = replied (some request) (if q then machine else datacenter) →
      Q (q || isAsked (some request)) r s) :
    (getRequestStatus request.requestPath).wp (statusMonitor datacenter machine) Q q s := by
  refine wp_getRequestStatus (fun hempty e => ?_) (fun _ => trivial) fun hurl a ha r hr => ?_
  · have hnot : isAsked (some request) = false := by simp [isAsked, hempty]
    have hq := h (.error e) (by simp [replied, hnot, Except.toOption])
    rwa [hnot, Bool.or_false] at hq
  · have hasked : isAsked (some request) = true := by simp [isAsked, hurl]
    have hq := h r (by rw [hr, show a = _ from ha, replied, hasked, if_pos rfl])
    rwa [hasked, Bool.or_true] at hq

theorem lock_run {α : Type} {cs : ClusterScope} {body : ClusterM α} {q : Bool} {s : ClusterVars}
    {Q : Bool → α → ClusterVars → Prop} (h : body.wp (statusMonitor datacenter machine) Q q s) :
    (cs.underRequestLock body).wp (statusMonitor datacenter machine) Q q s := by
  refine (wp_bind _ _).mpr ((wp_perform _).mpr ⟨trivial, fun _ _ => ?_⟩)
  exact wp_deferring (fun _ hpanic => hpanic.elim)
    (wp_mono h fun _ _ _ hQ => ⟨trivial, fun _ _ => hQ⟩)

/-- `withStatus` requeues for a status that is pending, and runs the callback for one that is
final. -/
theorem withStatus_run {status : RequestStatus} {callback : MachineM (Option Err)} {q : Bool}
    {s : MachineVars} {Q : Bool → Outcome → MachineVars → Prop}
    (hstays : isFinalStatus status = false → ∀ e, Q q (isPendingStatus status, e) s)
    (hfinal : isFinalStatus status = true → isPendingStatus status = false →
      callback.wp (statusMonitor datacenter machine) (fun q' e s' => Q q' (false, e) s') q s) :
    (withStatus status callback).wp (statusMonitor datacenter machine) Q q s := by
  cases status with
  | queued => exact (wp_pure _).mpr (hstays rfl none)
  | running => exact (wp_pure _).mpr (hstays rfl none)
  | done => exact (wp_bind _ _).mpr (wp_mono (hfinal rfl rfl) fun _ _ _ h => (wp_pure _).mpr h)
  | failed => exact (wp_bind _ _).mpr (wp_mono (hfinal rfl rfl) fun _ _ _ h => (wp_pure _).mpr h)
  | other text => exact (wp_pure _).mpr (hstays rfl _)

/-- The variables after the data center's answer. -/
def afterDatacenter (ms : MachineScope) (v : MachineVars)
    (answer : Except Err RequestStatusInfo) : MachineVars :=
  { v with cluster := { v.cluster with
    currentRequestByDatacenter := datacenterKept ms v answer } }

theorem afterDatacenter_of_not_final
    (h : (datacenterStatus ms v datacenter).any isFinalStatus = false) :
    afterDatacenter ms v datacenter = v := by
  have hkept : datacenterKept ms v datacenter = v.cluster.currentRequestByDatacenter := by
    funext dc
    exact if_neg fun hboth => by simp [h] at hboth
  unfold afterDatacenter
  rw [hkept]

/-- The data center's request. -/
theorem datacenter_run :
    (checkDatacenterRequest ms).wp (statusMonitor datacenter machine) (fun q o v' => q = true ∧
      o.1 = (datacenterStatus ms v datacenter).any isPendingStatus ∧
      v' = afterDatacenter ms v datacenter) (firstQuestion ms v) v := by
  unfold checkDatacenterRequest
  refine (wp_bind _ _).mpr (wp_zoom.mpr (lock_run ((wp_bind _ _).mpr (wp_vars.mpr
    ((wp_pure _).mpr ?_)))))
  unfold datacenterStatus firstQuestion
  match hrequest : v.cluster.currentRequestByDatacenter ms.datacenterID with
  | none =>
    have hstatus : datacenterStatus ms v datacenter = none := by
      rw [datacenterStatus, hrequest, replied_none]
    refine (wp_pure _).mpr ⟨rfl, rfl, (afterDatacenter_of_not_final ?_).symm⟩
    rw [hstatus]
    rfl
  | some request =>
    refine (wp_bind _ _).mpr (status_run fun r hr => ?_)
    -- the question is the first one, if it is asked
    have hr' : r.toOption.map Prod.fst = datacenterStatus ms v datacenter := by
      rw [hr, datacenterStatus, hrequest]
      cases hasked : isAsked (some request) with
      | true => rfl
      | false => simp [replied, hasked]
    have hphase : (!isAsked (some request) || isAsked (some request)) = true := by simp
    rw [hphase, show replied (some request) datacenter = datacenterStatus ms v datacenter by
      rw [datacenterStatus, hrequest]]
    match r with
    | .error e =>
      have hnone : datacenterStatus ms v datacenter = none := hr'.symm
      refine (wp_pure _).mpr ⟨rfl, ?_, (afterDatacenter_of_not_final ?_).symm⟩
      · rw [hnone]
        rfl
      · rw [hnone]
        rfl
    | .ok (status, message) =>
      have hsome : datacenterStatus ms v datacenter = some status := hr'.symm
      refine withStatus_run (fun hnot e => ?_) fun hfinal hpending => ?_
      · refine ⟨rfl, ?_, (afterDatacenter_of_not_final ?_).symm⟩
        · rw [hsome]
          rfl
        · rw [hsome]
          exact hnot
      · refine (wp_bind _ _).mpr (wp_zoom.mpr (lock_run ((wp_assign _).mpr (wp_zoom.mpr
          ((wp_bind _ _).mpr (wp_vars.mpr ((wp_bind _ _).mpr ((wp_perform _).mpr ⟨trivial,
            fun a _ => (wp_pure _).mpr ⟨rfl, ?_, ?_⟩⟩))))))))
        · rw [hsome]
          exact hpending.symm
        · have hkept : datacenterKept ms v datacenter = fun dc =>
              if dc = ms.datacenterID then none
              else v.cluster.currentRequestByDatacenter dc := by
            funext dc
            simp [datacenterKept, hsome, hfinal]
          unfold afterDatacenter
          rw [hkept]

/-- What `checkRequestStates` makes of the two answers, whatever the other calls are answered. -/
theorem states_run (ms : MachineScope) (v : MachineVars)
    (datacenter machine : Except Err RequestStatusInfo) :
    (checkRequestStates ms).wp (statusMonitor datacenter machine) (fun _ o v' =>
      o.1 = requeues ms v datacenter machine ∧
      v'.cluster.currentRequestByDatacenter = datacenterKept ms v datacenter ∧
      v'.currentRequest = machineKept v machine) (firstQuestion ms v) v := by
  unfold checkRequestStates
  refine (wp_bind _ _).mpr (wp_mono datacenter_run ?_)
  rintro _ ⟨requeue, retErr⟩ _ ⟨rfl, hrequeue, rfl⟩
  refine (wp_bind _ _).mpr (wp_vars.mpr ?_)
  obtain rfl : requeue = _ := hrequeue
  have hafter : (afterDatacenter ms v datacenter).currentRequest = v.currentRequest := rfl
  rw [hafter]
  rcases hrequest : v.currentRequest with _ | request
  · have hnone : machineStatus v machine = none := by rw [machineStatus, hrequest, replied_none]
    refine (wp_pure _).mpr ⟨?_, rfl, ?_⟩
    · rw [requeues, hnone]
    · rw [machineKept, hnone]
      rfl
  · refine (wp_bind _ _).mpr (status_run fun r hr => ?_)
    rw [if_pos rfl, ← hrequest] at hr
    rcases r with e | ⟨status, message⟩
    · have hnone : machineStatus v machine = none := hr.symm
      refine (wp_pure _).mpr ⟨?_, rfl, ?_⟩
      · rw [requeues, hnone]
      · rw [machineKept, hnone]
        rfl
    · have hsome : machineStatus v machine = some status := hr.symm
      -- the end, with or without the patch of a machine that is being deleted
      have hend : ∀ {q : Bool} {s : MachineVars}, s.cluster.currentRequestByDatacenter =
          datacenterKept ms v datacenter → s.currentRequest = machineKept v machine →
          wp (statusMonitor datacenter machine) (if ms.deleted then do
            return (true, ← MachineScope.patchObject)
            else return (isPendingStatus status, retErr)) (fun _ o v' =>
            o.1 = requeues ms v datacenter machine ∧
            v'.cluster.currentRequestByDatacenter = datacenterKept ms v datacenter ∧
            v'.currentRequest = machineKept v machine) q s := by
        intro q s hdatacenter hmachine
        cases hdeleted : ms.deleted with
        | true =>
          refine (wp_bind _ _).mpr ((wp_bind _ _).mpr (wp_vars.mpr ((wp_bind _ _).mpr
            ((wp_perform _).mpr ⟨trivial, fun a _ => (wp_pure _).mpr
              ((wp_pure _).mpr ⟨?_, hdatacenter, hmachine⟩)⟩))))
          rw [requeues, hsome, hdeleted]
          rfl
        | false =>
          refine (wp_pure _).mpr ⟨?_, hdatacenter, hmachine⟩
          rw [requeues, hsome, hdeleted]
          rfl
      refine (wp_bind _ _).mpr (withStatus_run (fun hnot e => ?_) fun hfinal hpending => ?_)
      · refine hend rfl ?_
        rw [machineKept, hsome]
        exact (if_neg (by simp [hnot])).symm
      · refine (wp_bind _ _).mpr ((wp_assign _).mpr ((wp_pure _).mpr ?_))
        rw [← hpending]
        refine hend rfl ?_
        rw [machineKept, hsome]
        exact (if_pos (by simp [hfinal])).symm

end

/-! ## Pending requests -/

/-- Whatever else happens, `checkRequestStates` returns; it requeues if one of the answers is
pending; and it forgets a request exactly if its own answer is final. -/
def RequeuesPending (ms : MachineScope) (v : MachineVars)
    (datacenter machine : Except Err RequestStatusInfo) : Prop :=
  ∀ tr r v', Runs (checkRequestStates ms) v tr r v' →
    (statusMonitor datacenter machine).Admits (firstQuestion ms v) tr →
    ∃ o, r = .val o ∧
      ((datacenterStatus ms v datacenter).any isPendingStatus = true ∨
        (machineStatus v machine).any isPendingStatus = true → o.1 = true) ∧
      v'.cluster.currentRequestByDatacenter = datacenterKept ms v datacenter ∧
      v'.currentRequest = machineKept v machine

/-- The data center's request is pending, and the machine's, which has an answer that is not, is
the last to speak. -/
def Overruled (ms : MachineScope) (v : MachineVars)
    (datacenter machine : Except Err RequestStatusInfo) : Prop :=
  (datacenterStatus ms v datacenter).any isPendingStatus = true ∧
    (machineStatus v machine).any (fun status => !isPendingStatus status) = true ∧
    ms.deleted = false

/-- The result is what it should be unless the machine's answer overrules the data center's. -/
theorem requeues_iff {ms : MachineScope} {v : MachineVars}
    {datacenter machine : Except Err RequestStatusInfo} :
    ((datacenterStatus ms v datacenter).any isPendingStatus = true ∨
      (machineStatus v machine).any isPendingStatus = true →
      requeues ms v datacenter machine = true) ↔ ¬ Overruled ms v datacenter machine := by
  unfold requeues Overruled
  cases machineStatus v machine with
  | none => simp
  | some status =>
    cases hpending : isPendingStatus status <;> cases ms.deleted <;> simp [hpending]

/-- There is a run for any two answers, so that the result is what it should be. -/
theorem RequeuesPending.requeues {ms : MachineScope} {v : MachineVars}
    {datacenter machine : Except Err RequestStatusInfo}
    (h : RequeuesPending ms v datacenter machine)
    (hpending : (datacenterStatus ms v datacenter).any isPendingStatus = true ∨
      (machineStatus v machine).any isPendingStatus = true) :
    requeues ms v datacenter machine = true := by
  have hadm : ∀ (q : Bool) c, ∃ a, (statusMonitor datacenter machine).adm q c a := by
    intro q c
    cases c with
    | getRequestStatus url => exact ⟨_, rfl⟩
    | _ => exact ⟨Call.plain _, trivial⟩
  obtain ⟨tr, r, v', hruns, hadmits⟩ := exists_run (M := statusMonitor datacenter machine) hadm
    (checkRequestStates ms) (firstQuestion ms v) v
  obtain ⟨o, rfl, hrequeue, -, -⟩ := h tr r v' hruns hadmits
  rw [← (wp_runs (states_run ms v datacenter machine) hruns hadmits).1]
  exact hrequeue hpending

/-- A pending request causes a requeue unless it is overruled; requests are forgotten by their
own answers only. -/
theorem pending_requeued (ms : MachineScope) (v : MachineVars)
    (datacenter machine : Except Err RequestStatusInfo) :
    RequeuesPending ms v datacenter machine ↔ ¬ Overruled ms v datacenter machine := by
  rw [← requeues_iff]
  refine ⟨fun h => h.requeues, ?_⟩
  intro hrequeue tr r v' hruns hadmits
  have hspec := states_run ms v datacenter machine
  match r with
  | .panic msg => exact (wp_runs_panic hspec hruns hadmits).elim
  | .val o =>
    obtain ⟨ho, hdatacenter, hmachine⟩ := wp_runs hspec hruns hadmits
    refine ⟨o, rfl, fun hpending => ?_, hdatacenter, hmachine⟩
    rw [ho]
    exact hrequeue hpending

/-- The data center's request is running, and the machine's is done. -/
theorem pending_overruled :
    let request : ProvisioningRequest := ⟨.post, "request", .queued⟩
    let v : MachineVars := { (default : MachineVars) with
      currentRequest := some request
      cluster := { (default : ClusterVars) with
        currentRequestByDatacenter := fun _ => some request } }
    ¬ RequeuesPending default v (.ok ⟨some .running, none⟩) (.ok ⟨some .done, none⟩) := by
  intro request v hall
  have hrequeues : requeues default v (.ok ⟨some .running, none⟩) (.ok ⟨some .done, none⟩) = true :=
    hall.requeues (.inl (by decide))
  exact absurd hrequeues (by decide)

end Capic.Properties
