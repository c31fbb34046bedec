import Capic.Cloud.IPBlock
import Capic.Controller.Util

/-!
# The cluster controller

`internal/controller/ionoscloudcluster_controller.go`.
-/

namespace Capic.Controller.Cluster

open Effect Effect.Go

/-- `checkRequestStatus`. -/
def checkRequestStatus : ClusterM Outcome := do
  match (← vars).currentClusterRequest with
  | none => return (false, none)
  | some req =>
    match ← Cloud.getRequestStatus req.requestPath with
    | .error e => return (false, some (.wrap "could not get request status: " e))
    | .ok (status, _) =>
      withStatus status do
        ClusterScope.deleteCurrentClusterRequest
        return none

/-- What both runs start with: the outcome to end with, or `none` to go on. -/
def awaitRequest : ClusterM (Option (Result × Option Err)) := do
  match ← checkRequestStatus with
  | (_, some e) =>
    return some (⟨0⟩,
      some (.wrap "error when trying to determine in-flight request states: " e))
  | (true, none) => return some (⟨defaultReconcileDuration⟩, none)
  | (false, none) => return none

/-- The steps of `reconcileNormal`. -/
def normalSequence (cs : ClusterScope) : List (ServiceReconcileStep ClusterVars) :=
  if cs.loadBalancerProviderRef = none then []
  else [⟨"ReconcileControlPlaneEndpoint", Cloud.reconcileControlPlaneEndpoint cs⟩]

/-- `reconcileNormal`. The finalizer is added in memory only. -/
def reconcileNormal (cs : ClusterScope) : ClusterM (Result × Option Err) := do
  assign fun v => { v with finalizers := (cs.libs.addFinalizer v.finalizers clusterFinalizer).1 }
  match ← awaitRequest with
  | some outcome => return outcome
  | none =>
    match ← runSteps (fun _ => return ()) (normalSequence cs) with
    | some outcome => return outcome
    | none =>
      assign fun v => { v with
        conditions := cs.libs.setCondition v.conditions
          ⟨ionosCloudClusterReady, .true, "Provisioned", ""⟩
        provisioned := some true }
      return (⟨0⟩, none)

/-- The steps of `reconcileDelete`. -/
def deleteSequence (cs : ClusterScope) : List (ServiceReconcileStep ClusterVars) :=
  if cs.loadBalancerProviderRef = none then []
  else [⟨"ReconcileControlPlaneEndpointDeletion", Cloud.reconcileControlPlaneEndpointDeletion cs⟩]

/-- `reconcileDelete` once no machine is left. -/
def deleteCluster (cs : ClusterScope) : ClusterM (Result × Option Err) := do
  match ← runSteps (fun _ => return ()) (deleteSequence cs) with
  | some outcome => return outcome
  | none =>
    match ← removeCredentialsFinalizer cs with
    | some e => return (⟨0⟩, some e)
    | none =>
      assign fun v => { v with
        finalizers := (cs.libs.removeFinalizer v.finalizers clusterFinalizer).1 }
      return (⟨0⟩, none)

/-- `reconcileDelete`. -/
def reconcileDelete (cs : ClusterScope) : ClusterM (Result × Option Err) := do
  if cs.clusterDeleted = false then return (⟨defaultReconcileDuration⟩, none)
  else
    match ← awaitRequest with
    | some outcome => return outcome
    | none =>
      match ← cs.listMachines [] with
      | .error e => return (⟨0⟩, some e)
      | .ok (_ :: _) => return (⟨defaultReconcileDuration⟩, none)
      | .ok [] => deleteCluster cs

/-- `Reconcile`, from where the scope exists. -/
def reconcile (cs : ClusterScope) : ClusterM (Result × Option Err) :=
  withFinalize cs.finalize <| reconcileWithService cs <|
    if cs.ionosClusterDeleted then reconcileDelete cs else reconcileNormal cs

end Capic.Controller.Cluster
