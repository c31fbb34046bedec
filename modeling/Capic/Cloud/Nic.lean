import Capic.Cloud.Server

/-!
# NICs

`internal/service/cloud/nic.go`: the primary NIC of a machine's server, and giving it
the failover IP.
-/

namespace Capic.Cloud

open Effect Effect.Go

/-- `nicURL`. -/
def nicURL (ms : MachineScope) (serverID nicID : String) : String :=
  Text.pathJoin ["datacenters", ms.datacenterID, "servers", serverID, "nics", nicID]

/-- `nicHasIP`. -/
def nicHasIP (nic : Nic) (expectedIP : String) : Bool := expectedIP ∈ deref nic.ips []

/-- `findPrimaryNIC` of the machine with this name. -/
def findPrimaryNIC (machine : String) (server : Option Server) : Except Err Nic :=
  match (deref (server.bind (·.nics)) []).find? (isPrimaryNIC machine) with
  | some nic => .ok nic
  | none => .error (.new ("could not find primary NIC with name " ++ nicName machine))

/-- `getLatestNICPatchRequest`. -/
def getLatestNICPatchRequest (ms : MachineScope) (serverID nicID : String) :
    MachineM (Except Err (Option RequestInfo)) :=
  getMatchingRequest .nic .patch (nicURL ms serverID nicID) []

/-- `patchNIC`. -/
def patchNIC (ms : MachineScope) (serverID : String) (nic : Nic) (ips : List String) :
    MachineM (Option Err) := do
  let nicID := deref nic.id ""
  match ← Client.patchNIC ms.datacenterID serverID nicID ips with
  | .error e => return some (.wrap ("failed to patch NIC " ++ nicID ++ ": ") e)
  | .ok location =>
    MachineScope.setCurrentRequest .patch .queued location
    return ClusterScope.errOf (← Client.waitForRequest location)

/-- `reconcileNICConfig` for a NIC that lacks the IP. -/
def addFailoverIP (ms : MachineScope) (failoverIP serverID : String) (nic : Nic) :
    MachineM (Except Err Nic) := do
  match ← getLatestNICPatchRequest ms serverID (deref nic.id "") with
  | .error e => return .error (.wrap "unable to check for pending NIC patch request: " e)
  | .ok ri =>
    match ri.filter (·.isPending) with
    | some ri =>
      match ← Client.waitForRequest ri.location with
      | .error e => return .error (.wrap "failed to wait for pending NIC request: " e)
      | .ok () => return .ok nic
    | none =>
      match ← patchNIC ms serverID nic (deref nic.ips [] ++ [failoverIP]) with
      | some e => return .error e
      | none =>
        MachineScope.deleteCurrentRequest
        return .ok nic

/-- `reconcileNICConfig`. -/
def reconcileNICConfig (ms : MachineScope) (failoverIP : String) : MachineM (Except Err Nic) := do
  match ← getServer ms with
  | .error e => return .error e
  | .ok server =>
    match findPrimaryNIC ms.name server with
    | .error e => return .error e
    | .ok nic =>
      if nicHasIP nic failoverIP then return .ok nic
      else addFailoverIP ms failoverIP (deref (server.bind (·.id)) "") nic

end Capic.Cloud
