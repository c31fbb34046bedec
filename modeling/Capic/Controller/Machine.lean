import Capic.Cloud.Failover
import Capic.Controller.Util
import Capic.K8s.Ipam

/-!
# The machine controller

`internal/controller/ionoscloudmachine_controller.go`.
-/

namespace Capic.Controller.Machine

open Effect Effect.Go

/-! ## Conditions -/

/-- `conditions.Set` on the machine. -/
def setMachineCondition (ms : MachineScope) (c : Condition) : MachineM Unit :=
  assign fun v => { v with conditions := ms.libs.setCondition v.conditions c }

/-- `isInfrastructureReady`. -/
def isInfrastructureReady (ms : MachineScope) : MachineM Bool := do
  if deref ms.clusterScope.infrastructureProvisioned false = false then
    setMachineCondition ms ⟨machineProvisionedCondition, .false, "WaitingForClusterInfrastructure",
      "Waiting for Cluster.Status.Initialization.InfrastructureProvisioned to become true."⟩
    return false
  else if ms.dataSecretName = none then
    setMachineCondition ms ⟨machineProvisionedCondition, .false, "WaitingForBootstrapData",
      "Waiting for bootstrap data secret to be available."⟩
    return false
  else return true

/-- `setProvisioningCondition`. -/
def setProvisioningCondition (ms : MachineScope) (err : Option Err) : MachineM Unit := do
  if deref (← vars).provisioned false then return ()
  else
    match err with
    | none =>
      setMachineCondition ms ⟨machineProvisionedCondition, .false, "Provisioning", ""⟩
    | some e =>
      setMachineCondition ms ⟨machineProvisionedCondition, .false, "ProvisioningFailed", e.text⟩

/-! ## Requests in flight -/

/-- The part of `checkRequestStates` about the data center's request. -/
def checkDatacenterRequest (ms : MachineScope) : MachineM Outcome := do
  match ← onCluster (ms.clusterScope.getCurrentRequestByDatacenter ms.datacenterID) with
  | none => return (false, none)
  | some req =>
    match ← Cloud.getRequestStatus req.requestPath with
    | .error e => return (false, some (.wrap "could not get request status: " e))
    | .ok (status, _) =>
      withStatus status do
        onCluster (ms.clusterScope.deleteCurrentRequestByDatacenter ms.datacenterID)
        onCluster ClusterScope.patchObject

/-- `checkRequestStates`. -/
def checkRequestStates (ms : MachineScope) : MachineM Outcome := do
  let (requeue, retErr) ← checkDatacenterRequest ms
  match (← vars).currentRequest with
  | none => return (requeue, retErr)
  | some req =>
    match ← Cloud.getRequestStatus req.requestPath with
    | .error e =>
      return (requeue, some (joinErr retErr (.wrap "could not get request status: " e)))
    | .ok (status, _) =>
      -- the answer for the machine's request takes the place of the first one
      let (requeue, _) ← withStatus status do
        MachineScope.deleteCurrentRequest
        return none
      if ms.deleted then return (true, ← MachineScope.patchObject)
      else return (requeue, retErr)

/-! ## The runs -/

/-- The steps of `reconcileNormal`. -/
def normalSequence (ms : MachineScope) : List (ServiceReconcileStep MachineVars) :=
  [⟨"ReconcileLAN", Cloud.reconcileLAN ms⟩,
    ⟨"ReconcileIPAddressClaims", K8s.reconcileIPAddresses ms⟩,
    ⟨"ReconcileServer", Cloud.reconcileServer ms⟩,
    ⟨"ReconcileIPFailover", Cloud.reconcileIPFailover ms⟩,
    ⟨"FinalizeMachineProvisioning", Cloud.finalizeMachineProvisioning ms⟩]

/-- `reconcileNormal` once the finalizer is stored. -/
def reconcileFinalized (ms : MachineScope) : MachineM (Result × Option Err) := do
  match ← checkRequestStates ms with
  | (true, _) => return (⟨defaultReconcileDuration⟩, none)
  | (false, _) =>
    setProvisioningCondition ms none
    match ← runSteps (fun e => setProvisioningCondition ms (some e)) (normalSequence ms) with
    | some outcome => return outcome
    | none => return (⟨0⟩, none)

/-- `reconcileNormal`. -/
def reconcileNormal (ms : MachineScope) : MachineM (Result × Option Err) := do
  if (← isInfrastructureReady ms) = false then return (⟨0⟩, none)
  else
    match ms.libs.addFinalizer (← vars).finalizers machineFinalizer with
    | (_, false) => reconcileFinalized ms
    | (finalizers, true) =>
      assign fun v => { v with finalizers := finalizers }
      match ← MachineScope.patchObject with
      | some e => return (⟨0⟩, some (.wrap "unable to update finalizer on object: " e))
      | none => reconcileFinalized ms

/-- The steps of `reconcileDelete`. -/
def deleteSequence (ms : MachineScope) : List (ServiceReconcileStep MachineVars) :=
  [⟨"ReconcileIPFailoverDeletion", Cloud.reconcileIPFailoverDeletion ms⟩,
    ⟨"ReconcileServerDeletion", Cloud.reconcileServerDeletion ms⟩,
    ⟨"ReconcileLANDeletion", Cloud.reconcileLANDeletion ms⟩,
    ⟨"ReconcileFailoverIPBlockDeletion", Cloud.reconcileFailoverIPBlockDeletion ms⟩,
    ⟨"ReconcileIPAddressClaimsDeletion", K8s.reconcileIPAddressClaimsDeletion ms⟩]

/-- `reconcileDelete`. -/
def reconcileDelete (ms : MachineScope) : MachineM (Result × Option Err) := do
  match ← checkRequestStates ms with
  | (true, _) => return (⟨reducedReconcileDuration⟩, none)
  | (false, _) =>
    match ← runSteps (fun _ => return ()) (deleteSequence ms) with
    | some outcome => return outcome
    | none =>
      assign fun v => { v with
        finalizers := (ms.libs.removeFinalizer v.finalizers machineFinalizer).1 }
      return (⟨0⟩, none)

/-- `Reconcile`, from where the scope exists. -/
def reconcile (ms : MachineScope) : MachineM (Result × Option Err) :=
  withFinalize ms.finalize <| reconcileWithService ms.clusterScope <|
    if ms.deleted then reconcileDelete ms else reconcileNormal ms

end Capic.Controller.Machine
