import Capic.Scope.Scope

/-!
# IP addresses from pools

`internal/service/k8s/ipam.go`: for every pool a NIC refers to there is an
`IPAddressClaim`, named after the NIC and the address family, from which an IPAM
provider makes an `IPAddress`. The machine waits until all of its claims are served.

Mirroring note. The treatment of one pool reference, written out four times in the
source, is `poolAddresses`: whether there is something to wait for, and the address.
-/

namespace Capic.K8s

open Effect Effect.Go

/-- The address families, `ipV4Format` and `ipV6Format`. -/
inductive Family where
  | ipv4 | ipv6
  deriving DecidableEq, Repr

/-- `ipV4Format`, `ipV6Format`. -/
def Family.format : Family → String
  | ipv4 => "ipv4"
  | ipv6 => "ipv6"

/-- `fmt.Sprintf(primaryNICFormat, machine)`. -/
def primaryNIC (machine : String) : String := "nic-" ++ machine

/-- `fmt.Sprintf(additionalNICFormat, machine, networkID)`. -/
def additionalNIC (machine : String) (networkID : Int) : String :=
  "nic-" ++ machine ++ "-" ++ toString networkID

/-- `fmt.Sprintf("%s-%s", nic, suffix)`. -/
def claimName (nic : String) (suffix : Family) : String := nic ++ "-" ++ suffix.format

/-- `CreateIPAddressClaim`. -/
def createIPAddressClaim (ms : MachineScope) (name : String) (poolRef : PoolRef) :
    MachineM (Option Err) := do
  match ← perform (Call.getIPAddressClaim ms.ns name) with
  | .ok _ => return none
  | .error e =>
    if e.isK8sNotFound = false then return some e
    else if poolRef.apiGroup = none then
      return some (.new ("pool reference for IPAddressClaim \"" ++ name ++ "\" has no APIGroup"))
    else
      return ClusterScope.errOf (← perform (Call.createOrUpdateIPAddressClaim
        ⟨ms.ns, name, ms.clusterScope.name, poolRef, [machineFinalizer], ms.name⟩))

/-- `handleIPAddressForNIC`: the address, or `""` while there is none. -/
def handleIPAddressForNIC (ms : MachineScope) (nic : String) (suffix : Family)
    (poolRef : PoolRef) : MachineM (Except Err String) := do
  match ← perform (Call.getIPAddressClaim ms.ns (claimName nic suffix)) with
  | .error e =>
    if e.isK8sNotFound = false then return .error e
    else
      match ← createIPAddressClaim ms (claimName nic suffix) poolRef with
      | some e =>
        return .error (.join e
          (.new ("unable to create IPAddressClaim for machine " ++ ms.name)))
      | none => return .ok ""
  | .ok claim =>
    if claim.addressRefName = "" then return .ok ""
    else
      match ← perform (Call.getIPAddress ms.ns claim.addressRefName) with
      | .error e =>
        return .error (.join e
          (.new ("unable to get IPAddress specified in claim " ++ claim.name)))
      | .ok ip => return .ok ip

/-- One pool reference of a NIC: whether to wait for its address, and the address. -/
def poolAddresses (ms : MachineScope) (nic : String) (suffix : Family)
    (poolRef : Option PoolRef) : MachineM (Except Err (Bool × List String)) := do
  match poolRef with
  | none => return .ok (false, [])
  | some poolRef =>
    match ← handleIPAddressForNIC ms nic suffix poolRef with
    | .error e => return .error e
    | .ok ip => if ip = "" then return .ok (true, []) else return .ok (false, [ip])

/-- `handlePrimaryNIC`. -/
def handlePrimaryNIC (ms : MachineScope) : MachineM (Except Err (Bool × NICInfo)) := do
  match ← poolAddresses ms (primaryNIC ms.name) .ipv4 ms.spec.ipam.ipv4PoolRef with
  | .error e => return .error e
  | .ok (wait4, ipv4) =>
    match ← poolAddresses ms (primaryNIC ms.name) .ipv6 ms.spec.ipam.ipv6PoolRef with
    | .error e => return .error e
    | .ok (wait6, ipv6) => return .ok (wait4 || wait6, ⟨ipv4, ipv6, 0, true⟩)

/-- One round of the loop of `handleAdditionalNICs`. -/
def handleAdditionalNIC (ms : MachineScope) (net : Network) :
    MachineM (Except Err (Bool × NICInfo)) := do
  let nicName := additionalNIC ms.name net.networkID
  match ← poolAddresses ms nicName .ipv4 net.ipam.ipv4PoolRef with
  | .error e =>
    return .error (.join e (.new ("unable to handle IPv4Address for nic " ++ nicName)))
  | .ok (wait4, ipv4) =>
    match ← poolAddresses ms nicName .ipv6 net.ipam.ipv6PoolRef with
    | .error e =>
      return .error (.join e (.new ("unable to handle IPv6Address for nic " ++ nicName)))
    | .ok (wait6, ipv6) => return .ok (wait4 || wait6, ⟨ipv4, ipv6, 0, false⟩)

/-- `handleAdditionalNICs`. -/
def handleAdditionalNICs (ms : MachineScope) :
    List Network → MachineM (Except Err (Bool × List NICInfo))
  | [] => return .ok (false, [])
  | net :: nets => do
    match ← handleAdditionalNIC ms net with
    | .error e => return .error e
    | .ok (wait, nic) =>
      match ← handleAdditionalNICs ms nets with
      | .error e => return .error e
      | .ok (waitRest, nics) => return .ok (wait || waitRest, nic :: nics)

/-- `ReconcileIPAddresses`. -/
def reconcileIPAddresses (ms : MachineScope) : MachineM Outcome := do
  match ← handlePrimaryNIC ms with
  | .error e => return (true, some (.join e (.new "unable to handle primary nic")))
  | .ok (requeue, nic) =>
    match ← handleAdditionalNICs ms ms.spec.additionalNetworks with
    | .error e => return (true, some (.join e (.new "unable to handle additional nics")))
    | .ok (waitForAdditionalIP, nics) =>
      assign fun v => { v with machineNetworkInfo := some (nic :: nics) }
      return (requeue || waitForAdditionalIP, none)

/-! ## The NICs of a machine -/

/-- The two families of a NIC, as they are handled for the primary NIC and for the others. -/
def handleNIC (ms : MachineScope) (nic : String) (ipam : IPAMConfig) (primary : Bool)
    (fail4 fail6 : Err → Err) : MachineM (Except Err (Bool × NICInfo)) := do
  match ← poolAddresses ms nic .ipv4 ipam.ipv4PoolRef with
  | .error e => return .error (fail4 e)
  | .ok (wait4, ipv4) =>
    match ← poolAddresses ms nic .ipv6 ipam.ipv6PoolRef with
    | .error e => return .error (fail6 e)
    | .ok (wait6, ipv6) => return .ok (wait4 || wait6, ⟨ipv4, ipv6, 0, primary⟩)

theorem handlePrimaryNIC_eq (ms : MachineScope) :
    handlePrimaryNIC ms = handleNIC ms (primaryNIC ms.name) ms.spec.ipam true id id := rfl

theorem handleAdditionalNIC_eq (ms : MachineScope) (net : Network) :
    handleAdditionalNIC ms net = handleNIC ms (additionalNIC ms.name net.networkID) net.ipam false
      (fun e => .join e
        (.new ("unable to handle IPv4Address for nic " ++ additionalNIC ms.name net.networkID)))
      (fun e => .join e
        (.new ("unable to handle IPv6Address for nic " ++ additionalNIC ms.name net.networkID))) :=
  rfl

/-- The pool reference of a family. -/
def poolRefOf (ipam : IPAMConfig) : Family → Option PoolRef
  | .ipv4 => ipam.ipv4PoolRef
  | .ipv6 => ipam.ipv6PoolRef

/-- The NICs of a machine, the primary one first: what they are called in the names of claims,
and where their addresses come from. -/
def nics (ms : MachineScope) : List (String × IPAMConfig) :=
  (primaryNIC ms.name, ms.spec.ipam) ::
    ms.spec.additionalNetworks.map fun net => (additionalNIC ms.name net.networkID, net.ipam)

/-! ## Releasing the claims -/

/-- The claims `ReconcileIPAddressClaimsDeletion` goes through, in its order. -/
def claimNames (ms : MachineScope) : List String :=
  [Family.ipv4, Family.ipv6].flatMap fun format =>
    (primaryNIC ms.name ::
      ms.spec.additionalNetworks.map fun net => additionalNIC ms.name net.networkID).map
        (claimName · format)

/-- One round of the loop of `ReconcileIPAddressClaimsDeletion`. -/
def releaseClaim (ms : MachineScope) (name : String) : MachineM (Option Err) := do
  match ← perform (Call.getIPAddressClaim ms.ns name) with
  | .error e => if e.isK8sNotFound then return none else return some e
  | .ok claim =>
    match ms.libs.removeFinalizer claim.finalizers machineFinalizer with
    | (_, false) => return none
    | (finalizers, true) =>
      return ClusterScope.errOf (← perform (Call.updateIPAddressClaim
        { claim with finalizers := finalizers }))

/-- The loop of `ReconcileIPAddressClaimsDeletion`. -/
def releaseClaims (ms : MachineScope) : List String → MachineM Outcome
  | [] => return (false, none)
  | name :: names => do
    match ← releaseClaim ms name with
    | some e => return (true, some e)
    | none => releaseClaims ms names

/-- `ReconcileIPAddressClaimsDeletion`. -/
def reconcileIPAddressClaimsDeletion (ms : MachineScope) : MachineM Outcome :=
  releaseClaims ms (claimNames ms)

end Capic.K8s
