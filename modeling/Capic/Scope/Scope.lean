import Mathlib.Data.List.Sort
import Capic.Api.Call
import Capic.Effect.Monitor

/-!
# The scopes of a reconcile run

`scope/cluster.go` and `scope/machine.go`: what the services get to work with. The
data is in `ClusterScope`/`ClusterVars` and `MachineScope`/`MachineVars`; here are
the methods.

Mirroring notes.

* `PatchObject` sends the object as it is in memory; what the patch helper makes of
  it is for the world. The `Ready` summary it computes first goes nowhere else and
  is left out, as is its error, which is only logged.
* `Finalize` retries on every error, at most as often as `retry.DefaultBackoff` has
  steps.
* The request map is read and written under a lock taken with
  `context.Background()`, which cannot fail.
-/

namespace Capic

open Effect Effect.Go

variable {σ : Type}

/-! ## Labels -/

def clusterNameLabel : String := "cluster.x-k8s.io/cluster-name"

def machineControlPlaneLabel : String := "cluster.x-k8s.io/control-plane"

def machineDeploymentNameLabel : String := "cluster.x-k8s.io/deployment-name"

/-- `labels[key]`, `""` if there is none. -/
def labelValue (labels : List (String × String)) (key : String) : String :=
  deref (labels.lookup key) ""

/-- `labels[key] = value`. -/
def setLabel (labels : List (String × String)) (key value : String) : List (String × String) :=
  (key, value) :: labels.filter (·.1 ≠ key)

/-- Dropping the entries of another key does not change what is found. -/
theorem lookup_filter_ne (labels : List (String × String)) {key k : String} (hk : k ≠ key) :
    (labels.filter (·.1 ≠ key)).lookup k = labels.lookup k := by
  induction labels with
  | nil => rfl
  | cons kv labels ih =>
    obtain ⟨k', value⟩ := kv
    rw [List.filter_cons, List.lookup_cons]
    by_cases hkey : k' = key
    · have hne : (k == k') = false := by simpa [hkey] using hk
      rw [if_neg (by simpa using hkey), ih, hne]
    · rw [if_pos (by simpa using hkey), List.lookup_cons, ih]

theorem lookup_setLabel (labels : List (String × String)) (key value k : String) :
    (setLabel labels key value).lookup k = if k = key then some value else labels.lookup k := by
  rw [setLabel, List.lookup_cons]
  by_cases hk : k = key
  · simp [hk]
  · rw [if_neg hk, beq_eq_false_iff_ne.mpr hk]
    exact lookup_filter_ne labels hk

/-! ## Names of objects and conditions -/

def machineFinalizer : String := "ionoscloudmachine.infrastructure.cluster.x-k8s.io"

def clusterFinalizer : String := "ionoscloudcluster.infrastructure.cluster.x-k8s.io"

def machineProvisionedCondition : String := "MachineProvisioned"

def machineProvisionedReason : String := "Provisioned"

def ionosCloudClusterReady : String := "ClusterReady"

/-- `CloudResourceConfigAuto`. -/
def cloudResourceConfigAuto : String := "AUTO"

/-- `retry.OnError` with this many steps, where every error is to be retried: try again while
there is an error and a step left, and end with the last error. -/
def retryOnError (attempt : Go Call Call.Ans σ (Option Err)) :
    Nat → Go Call Call.Ans σ (Option Err)
  | 0 => return none
  | 1 => attempt
  | steps + 1 => do
    match ← attempt with
    | none => return none
    | some _ => retryOnError attempt steps

/-! ## The cluster scope -/

namespace ClusterScope

variable (cs : ClusterScope)

/-- An IPv4 address, printed. -/
def addrText (a : UInt32) : String :=
  toString (a.toNat / 2 ^ 24) ++ "." ++ toString (a.toNat / 2 ^ 16 % 2 ^ 8) ++ "." ++
    toString (a.toNat / 2 ^ 8 % 2 ^ 8) ++ "." ++ toString (a.toNat % 2 ^ 8)

/-- `GetControlPlaneEndpointIP`: the endpoint's IP, `""` if the host is unset. -/
def getControlPlaneEndpointIP : ClusterM (Except Err String) := do
  let host := (← vars).host
  if host = "" then return .ok ""
  else
    match cs.parseAddr host with
    | some ip => return .ok ip
    | none =>
      match ← perform (Call.lookupNetIP host) with
      | .error e => return .error (.wrap "failed to resolve control plane endpoint IP: " e)
      | .ok ips =>
        match ips.insertionSort (fun a b => a.toNat ≤ b.toNat) with
        | [] => panicking "index out of range [0] with length 0"
        | ip :: _ => return .ok (addrText ip)

/-- The endpoint's IP depends on the resolution of the host only, and nothing is stored on the
way to it. -/
theorem eval_endpointIP_congr {cs : ClusterScope} {v : ClusterVars} {ans ans' : ∀ c, Call.Ans c}
    (h : ans' (.lookupNetIP v.host) = ans (.lookupNetIP v.host)) :
    eval ans' cs.getControlPlaneEndpointIP v =
      ((eval ans cs.getControlPlaneEndpointIP v).1, v) := by
  unfold getControlPlaneEndpointIP
  rw [eval_bind_val eval_vars, eval_bind_val eval_vars]
  by_cases hhost : v.host = ""
  · rw [if_pos hhost]
    rfl
  · rw [if_neg hhost]
    cases cs.parseAddr v.host with
    | some ip => rfl
    | none =>
      rw [eval_bind_val (eval_perform _), eval_bind_val (eval_perform _), h]
      cases ans (.lookupNetIP v.host) with
      | error e => rfl
      | ok ips =>
        simp only
        split <;> rfl

/-- `SetControlPlaneEndpointIPBlockID`. -/
def setControlPlaneEndpointIPBlockID (id : String) : ClusterM Unit :=
  assign fun v => { v with controlPlaneEndpointIPBlockID := id }

/-- `ListMachines`: the machines of the cluster that have the labels. -/
def listMachines (machineLabels : List (String × String)) :
    Go Call Call.Ans σ (Except Err (List MachineItem)) :=
  perform (Call.listMachines cs.ns (setLabel machineLabels clusterNameLabel cs.name))

/-- `IsDeleted`. -/
def isDeleted : Bool := cs.clusterDeleted || cs.ionosClusterDeleted

def currentRequestByDatacenterLockKey : String := cs.uid ++ "/currentRequestByDatacenter"

/-- `Locker.Lock(context.Background(), key)` with the `Unlock` deferred. -/
def underRequestLock {α : Type} (body : ClusterM α) : ClusterM α := do
  perform (Call.lockBackground cs.currentRequestByDatacenterLockKey)
  deferring (Call.unlock cs.currentRequestByDatacenterLockKey) body

/-- `GetCurrentRequestByDatacenter`. -/
def getCurrentRequestByDatacenter (datacenterID : String) :
    ClusterM (Option ProvisioningRequest) :=
  cs.underRequestLock do return (← vars).currentRequestByDatacenter datacenterID

/-- `SetCurrentRequestByDatacenter`. -/
def setCurrentRequestByDatacenter (datacenterID : String) (method : Method)
    (status : RequestStatus) (requestPath : String) : ClusterM Unit :=
  cs.underRequestLock <| assign fun v =>
    { v with currentRequestByDatacenter := fun dc =>
        if dc = datacenterID then some ⟨method, requestPath, status⟩
        else v.currentRequestByDatacenter dc }

/-- `DeleteCurrentRequestByDatacenter`. -/
def deleteCurrentRequestByDatacenter (datacenterID : String) : ClusterM Unit :=
  cs.underRequestLock <| assign fun v =>
    { v with currentRequestByDatacenter := fun dc =>
        if dc = datacenterID then none else v.currentRequestByDatacenter dc }

/-- The error of a patch, if any. -/
def errOf : Except Err Unit → Option Err
  | .error e => some e
  | .ok () => none

/-- `PatchObject`. -/
def patchObject : ClusterM (Option Err) := do
  return errOf (← perform (Call.patchCluster (← vars)))

/-- `PatchObject` sends the cluster once, as it is. -/
theorem runs_patchObject_inv {v v' : ClusterVars} {tr : List (Event Call Call.Ans)}
    {r : Res (Option Err)} (h : Runs patchObject v tr r v') :
    ∃ a, tr = [⟨.patchCluster v, a⟩] ∧ r = .val (errOf a) ∧ v' = v := by
  obtain ⟨a, tr', rfl, hreturn⟩ := Runs.perform_bind_inv (c := Call.patchCluster v) h
  obtain ⟨rfl, rfl, rfl⟩ := hreturn.pure_inv
  exact ⟨a, rfl, rfl, rfl⟩

/-- `Finalize`. -/
def finalize : ClusterM (Option Err) := retryOnError patchObject cs.libs.defaultBackoffSteps

/-- `SetCurrentClusterRequest`. -/
def setCurrentClusterRequest (method : Method) (status : RequestStatus) (requestPath : String) :
    ClusterM Unit :=
  assign fun v => { v with currentClusterRequest := some ⟨method, requestPath, status⟩ }

/-- `DeleteCurrentClusterRequest`. -/
def deleteCurrentClusterRequest : ClusterM Unit :=
  assign fun v => { v with currentClusterRequest := none }

end ClusterScope

/-! ## The machine scope -/

/-- `ExtractServerID` of a provider ID. -/
def extractServerID (providerID : String) : String :=
  if providerID = "" then ""
  else
    let (before, after, _) := Text.cut providerID "://"
    if before ≠ "ionos" then "" else after

/-- The provider ID `SetProviderID` sets leads to the server. -/
theorem extractServerID_append (id : String) : extractServerID ("ionos://" ++ id) = id := by
  have hne : "ionos://" ++ id ≠ "" := by
    intro h
    have hlen := congrArg String.length h
    simp at hlen
  have hcut : Text.cut ("ionos://" ++ id) "://" = ("ionos", id, true) := by
    have hchars : Text.cutChars "://".toList [] ("ionos://" ++ id).toList =
        some ("ionos".toList, id.toList) := by
      rw [String.toList_append]
      rfl
    unfold Text.cut
    rw [hchars]
    simp
  unfold extractServerID
  rw [if_neg hne, hcut]
  rfl

namespace MachineScope

variable (ms : MachineScope)

/-- `DatacenterID`. -/
def datacenterID : String := ms.spec.datacenterID

/-- `GetBootstrapDataSecret`. -/
def getBootstrapDataSecret : MachineM (Except Err Secret) :=
  let name := deref ms.dataSecretName ""
  if name = "" then return .error (.new "machine has no bootstrap data yet")
  else perform (Call.getSecret ms.ns name)

/-- `SetProviderID`. -/
def setProviderID (id : String) : MachineM Unit :=
  assign fun v => { v with providerID := "ionos://" ++ id }

/-- `CountMachines`. -/
def countMachines (machineLabels : List (String × String)) : MachineM (Except Err Nat) := do
  return (← ms.clusterScope.listMachines machineLabels).map List.length

/-- The loop of `FindLatestMachine`: a machine other than the receiver that is not
older than the latest so far becomes the latest. -/
def latestMachine (receiver : String) (latest : MachineItem) : List MachineItem → MachineItem
  | [] => latest
  | machine :: machines =>
    if ¬ machine.creationTimestamp < latest.creationTimestamp ∧ machine.name ≠ receiver then
      latestMachine receiver machine machines
    else latestMachine receiver latest machines

/-- `FindLatestMachine` on the list. -/
def latestOf (receiver : String) : List MachineItem → Option MachineItem
  | [] | [_] => none
  | first :: second :: rest =>
    let latest := latestMachine receiver first (first :: second :: rest)
    if latest.name = receiver then none else some latest

theorem latestMachine_ne {receiver : String} (machines : List MachineItem) (latest : MachineItem) :
    (latestMachine receiver latest machines).name ≠ receiver ↔
      latest.name ≠ receiver ∨ ∃ m ∈ machines, m.name ≠ receiver ∧
        ¬ m.creationTimestamp < latest.creationTimestamp := by
  induction machines generalizing latest with
  | nil => simp [latestMachine]
  | cons machine machines ih =>
    rw [latestMachine]
    split
    next h =>
      -- once there is another machine, it stays another
      rw [ih]
      exact ⟨fun _ => .inr ⟨machine, List.mem_cons_self .., h.2, h.1⟩, fun _ => .inl h.2⟩
    next h =>
      rw [ih]
      refine or_congr_right ⟨fun ⟨m, hm, hm'⟩ => ⟨m, List.mem_cons_of_mem _ hm, hm'⟩, ?_⟩
      rintro ⟨m, hm, hname, hdate⟩
      rcases List.mem_cons.mp hm with rfl | hm
      · exact absurd ⟨hdate, hname⟩ h
      · exact ⟨m, hm, hname, hdate⟩

/-- There is another machine, and the list does not begin with the receiver and go on with
older machines only. -/
def Replaceable (receiver : String) (machines : List MachineItem) : Prop :=
  ∃ first second rest, machines = first :: second :: rest ∧
    (first.name ≠ receiver ∨ ∃ m ∈ machines, m.name ≠ receiver ∧
      ¬ m.creationTimestamp < first.creationTimestamp)

/-- When `FindLatestMachine` finds one. -/
theorem latestOf_isSome_iff {receiver : String} {machines : List MachineItem} :
    (latestOf receiver machines).isSome ↔ Replaceable receiver machines := by
  match machines with
  | [] => exact ⟨fun h => (nomatch h), fun ⟨_, _, _, h, _⟩ => (nomatch h)⟩
  | [_] => exact ⟨fun h => (nomatch h), fun ⟨_, _, _, h, _⟩ => (nomatch h)⟩
  | first :: second :: rest =>
    have hne : (latestMachine receiver first (first :: second :: rest)).name ≠ receiver ↔ _ :=
      latestMachine_ne (first :: second :: rest) first
    rw [latestOf]
    split
    next heq =>
      refine ⟨fun h => (nomatch h), ?_⟩
      rintro ⟨f, _, _, hf, h⟩
      obtain ⟨rfl, _⟩ := List.cons.inj hf
      exact absurd heq (hne.mpr h)
    next heq => exact ⟨fun _ => ⟨first, second, rest, rfl, hne.mp heq⟩, fun _ => rfl⟩

/-- `FindLatestMachine`. -/
def findLatestMachine (matchLabels : List (String × String)) :
    MachineM (Except Err (Option MachineItem)) := do
  return (← ms.clusterScope.listMachines matchLabels).map (latestOf ms.name)

/-- `PatchObject`. -/
def patchObject : MachineM (Option Err) := do
  return ClusterScope.errOf (← perform (Call.patchMachine (← vars)))

/-- `PatchObject` sends the machine once, as it is. -/
theorem runs_patchObject_inv {v v' : MachineVars} {tr : List (Event Call Call.Ans)}
    {r : Res (Option Err)} (h : Runs patchObject v tr r v') :
    ∃ a, tr = [⟨.patchMachine v, a⟩] ∧ r = .val (ClusterScope.errOf a) ∧ v' = v := by
  obtain ⟨a, tr', rfl, hreturn⟩ := Runs.perform_bind_inv (c := Call.patchMachine v) h
  obtain ⟨rfl, rfl, rfl⟩ := hreturn.pure_inv
  exact ⟨a, rfl, rfl, rfl⟩

/-- `Finalize`. -/
def finalize : MachineM (Option Err) := retryOnError patchObject ms.libs.defaultBackoffSteps

/-- `SetCurrentRequest`. -/
def setCurrentRequest (method : Method) (status : RequestStatus) (requestPath : String) :
    MachineM Unit :=
  assign fun v => { v with currentRequest := some ⟨method, requestPath, status⟩ }

/-- `DeleteCurrentRequest`. -/
def deleteCurrentRequest : MachineM Unit := assign fun v => { v with currentRequest := none }

/-- `failoverRequired`. -/
def failoverRequired : Bool := ms.isControlPlane || ms.spec.failoverIP.isSome

end MachineScope

/-! ## Rules -/

section

variable {α κ : Type} {E : Call → Prop} {keep : MachineVars → κ}

theorem within_onCluster {p : ClusterM α} {κ' : Type} {keep' : ClusterVars → κ'}
    (hkeep : ∀ v c, keep' c = keep' v.cluster → keep { v with cluster := c } = keep v)
    (hp : Within E keep' p) : Within E keep (onCluster p) :=
  Within.zoom hp fun c v hc => hkeep v c hc

/-- What a machine's run leaves alone of the cluster: all but the map of requests. -/
def ClusterVars.settled (c : ClusterVars) : ClusterVars :=
  { c with currentRequestByDatacenter := fun _ => none }

/-- Calls that only keep the books: the lock around the request map, and the patch of the
cluster. -/
def Bookkeeping : Call → Prop
  | .lockBackground _ | .unlock _ | .patchCluster _ => True
  | _ => False

theorem Bookkeeping.elim {P : Call → Prop} {c : Call} (h : Bookkeeping c)
    (hlock : ∀ key, P (.lockBackground key)) (hunlock : ∀ key, P (.unlock key))
    (hpatch : ∀ obj, P (.patchCluster obj)) : P c := by
  cases c with
  | lockBackground key => exact hlock key
  | unlock key => exact hunlock key
  | patchCluster obj => exact hpatch obj
  | _ => exact False.elim h

theorem within_setRequest (cs : ClusterScope) (dc : String) (method : Method)
    (status : RequestStatus) (path : String) : Within Bookkeeping ClusterVars.settled
      (cs.setCurrentRequestByDatacenter dc method status path) :=
  .bind (.perform trivial) fun _ => .deferring trivial (.assign fun _ => rfl)

theorem within_patchCluster :
    Within Bookkeeping ClusterVars.settled ClusterScope.patchObject :=
  .bind .vars fun _ => .bind (.perform trivial) fun _ => .pure _

/-- Calls that resolve the host of the endpoint. -/
def Resolving : Call → Prop
  | .lookupNetIP _ => True
  | _ => False

theorem Resolving.elim {P : Call → Prop} {c : Call} (h : Resolving c)
    (hlookup : ∀ host, P (.lookupNetIP host)) : P c := by
  cases c with
  | lookupNetIP host => exact hlookup host
  | _ => exact False.elim h

theorem within_getControlPlaneEndpointIP (cs : ClusterScope) {κ' : Type}
    {keep' : ClusterVars → κ'} : Within Resolving keep' cs.getControlPlaneEndpointIP := by
  refine .bind .vars fun v => .ite (.pure _) ?_
  split
  next => exact .pure _
  next =>
    refine .bind (.perform trivial) fun a => ?_
    split
    next => exact .pure _
    next => split <;> first | exact .panicking _ | exact .pure _

end

end Capic
