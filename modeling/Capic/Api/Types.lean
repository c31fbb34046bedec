import Capic.Api.Text
import Capic.Data.ReplaceFirst

/-!
# The data of the provider

The Cloud API's resources as the SDK hands them out (`sdk-go`), the Kubernetes
objects the reconcilers work on (`api/v1alpha1`), and the errors that pass between
the functions.

Mirroring notes.

* An SDK resource is a tree of pointers any of which may be nil, read through
  getters that carry nil along. Here the fields the code reads hang directly off
  the resource, each an `Option`; a nil anywhere on the way is `none`.
* Kubernetes objects are split in two. What a reconcile run only reads is in
  `MachineScope` and `ClusterScope`; what it writes is in `MachineVars` and
  `ClusterVars`, the variables of the run.
* What the source takes from packages it does not define is a field of the scope:
  `ParseAddr` and the like, so that everything proved holds whatever they compute, and
  the functions of `Libraries`, of which only what is stated there is used.
* Log output is left out.
-/

namespace Capic

/-! ## Errors -/

/-- The errors of the provider, with as much structure as `errors.Is` and `errors.As`
can see. -/
inductive Err where
  /-- `sdk.GenericOpenAPIError`. -/
  | openAPI (statusCode : Nat) (text : String)
  /-- A NotFound status of the Kubernetes API server. -/
  | k8sNotFound (text : String)
  /-- Any other error of the Kubernetes client. -/
  | k8s (text : String)
  /-- `ctx.Err()`. -/
  | ctx (text : String)
  /-- `errors.New`. -/
  | new (text : String)
  /-- `errUserSetIPNotFound`. -/
  | userSetIPNotFound
  /-- `errMissingMachineVersion`. -/
  | missingMachineVersion
  /-- `imageMatchError`. -/
  | imageMatch (imageIDs : List String) (selector : List (String × String)) (location : String)
      (version : String) (labelMatches : Nat)
  /-- `fmt.Errorf` with a `%w` at the end. -/
  | wrap (text : String) (inner : Err)
  /-- `errors.Join`. -/
  | join (first second : Err)
  deriving DecidableEq, Repr

namespace Err

/-- `labels.SelectorFromSet(…).String()`, for labels in the order of their keys. -/
def selectorText (selector : List (String × String)) : String :=
  String.intercalate "," (selector.map fun kv => kv.1 ++ "=" ++ kv.2)

def quote (s : String) : String := "\"" ++ s ++ "\""

/-- `Error()`. -/
def text : Err → String
  | openAPI _ t | k8sNotFound t | k8s t | ctx t | new t => t
  | userSetIPNotFound => "could not find any IP block for the already set control plane endpoint"
  | missingMachineVersion => "machine is missing version field"
  | imageMatch ids selector location version labelMatches =>
    "found " ++ toString ids.length ++ " images matching selector " ++
      quote (selectorText selector) ++ " in location " ++ quote location ++
      if version = "" then ""
      else " with name containing " ++ quote version ++ " (" ++ toString labelMatches ++
        " before the name filter)"
  | wrap t inner => t ++ inner.text
  | join e e' => e.text ++ "\n" ++ e'.text

/-- `errors.AsType[sdk.GenericOpenAPIError]`, and the status code found. -/
def asOpenAPI : Err → Option Nat
  | openAPI code _ => some code
  | wrap _ inner => inner.asOpenAPI
  | join e e' => e.asOpenAPI.or e'.asOpenAPI
  | _ => none

/-- `apierrors.IsNotFound`. -/
def isK8sNotFound : Err → Bool
  | k8sNotFound _ => true
  | wrap _ inner => inner.isK8sNotFound
  | join e e' => e.isK8sNotFound || e'.isK8sNotFound
  | _ => false

/-- `errors.Is(err, errUserSetIPNotFound)`. -/
def isUserSetIPNotFound : Err → Bool
  | userSetIPNotFound => true
  | wrap _ inner => inner.isUserSetIPNotFound
  | join e e' => e.isUserSetIPNotFound || e'.isUserSetIPNotFound
  | _ => false

end Err

/-! ## Cloud resources -/

/-- `unknownValue`, what a nil string is read as where the code wants no empty text. -/
def unknownValue : String := "UNKNOWN"

/-- `ptr.Deref`. -/
def deref {α : Type} (p : Option α) (default : α) : α := p.getD default

/-- `sdk.IPFailover`. -/
structure IPFailover where
  ip : Option String
  nicUuid : Option String
  deriving DecidableEq, Repr, Inhabited

/-- `sdk.Lan`. -/
structure Lan where
  id : Option String
  name : Option String
  state : Option String
  ipFailover : Option (List IPFailover)
  /-- The IDs of the NICs in the LAN; `none` if the answer has no such list. -/
  nics : Option (List String)
  deriving DecidableEq, Repr, Inhabited

/-- `sdk.Nic`. -/
structure Nic where
  id : Option String
  name : Option String
  ips : Option (List String)
  ipv6Ips : Option (List String)
  lan : Option Int
  deriving DecidableEq, Repr, Inhabited

/-- `sdk.ServerProperties`. -/
structure ServerProperties where
  name : Option String
  vmState : Option String
  bootVolumeID : Option String
  deriving DecidableEq, Repr, Inhabited

/-- `sdk.Server`. -/
structure Server where
  id : Option String
  state : Option String
  properties : Option ServerProperties
  nics : Option (List Nic)
  deriving DecidableEq, Repr, Inhabited

/-- `sdk.IpBlock`. -/
structure IpBlock where
  id : Option String
  name : Option String
  location : Option String
  ips : Option (List String)
  state : Option String
  deriving DecidableEq, Repr, Inhabited

/-- `sdk.Image`. -/
structure Image where
  id : Option String
  name : Option String
  location : Option String
  createdDate : Int
  deriving DecidableEq, Repr

/-- `sdk.Label`. -/
structure Label where
  resourceType : Option String
  resourceID : Option String
  key : Option String
  value : Option String
  deriving DecidableEq, Repr

/-- The HTTP methods of requests that change something. -/
inductive Method where
  | post | patch | delete
  deriving DecidableEq, Repr

/-- `http.MethodPost` and so on. -/
def Method.text : Method → String
  | post => "POST"
  | patch => "PATCH"
  | delete => "DELETE"

/-- The resource types `mapResourceType` knows (`sdk.Type`), and the others. -/
inductive ResourceType where
  | nic | lan | server | ipBlock
  | other (name : String)
  deriving DecidableEq, Repr

/-- How `%T` prints the SDK's type for the resource. -/
def ResourceType.goType : ResourceType → String
  | nic => "ionoscloud.Nic"
  | lan => "ionoscloud.Lan"
  | server => "ionoscloud.Server"
  | ipBlock => "ionoscloud.IpBlock"
  | other name => name

/-- `sdk.RequestStatusQueued` and so on; `other ""` is a missing status. -/
inductive RequestStatus where
  | queued | running | done | failed
  | other (text : String)
  deriving DecidableEq, Repr

def RequestStatus.text : RequestStatus → String
  | queued => "QUEUED"
  | running => "RUNNING"
  | done => "DONE"
  | failed => "FAILED"
  | other t => t

/-- What the matchers read of a request's body. -/
structure BodyProperties where
  name : Option String
  location : Option String
  deriving DecidableEq, Repr

/-- `sdk.Request`. The body is what `json.Unmarshal` makes of it: an error, or the
properties, if there are any. -/
structure Request where
  createdDate : Int
  targets : List (Option ResourceType)
  url : Option String
  body : Except Err (Option BodyProperties)
  status : RequestStatus
  href : Option String

/-- `sdk.RequestStatus`, as far as `GetRequestStatus` reads it. -/
structure RequestStatusInfo where
  status : Option RequestStatus
  message : Option String
  deriving DecidableEq, Repr

/-- `requestInfo`: the status of a request and the URL to poll it at. -/
structure RequestInfo where
  status : RequestStatus
  location : String
  deriving DecidableEq, Repr

/-- The request was not finished yet. -/
def RequestInfo.isPending (ri : RequestInfo) : Bool :=
  ri.status = .queued || ri.status = .running

/-- The request was finished successfully. -/
def RequestInfo.isDone (ri : RequestInfo) : Bool := ri.status = .done

/-! ## Kubernetes objects -/

/-- `ProvisioningRequest`. -/
structure ProvisioningRequest where
  method : Method
  requestPath : String
  state : RequestStatus
  deriving DecidableEq, Repr

/-- `corev1.TypedLocalObjectReference`. -/
structure PoolRef where
  apiGroup : Option String
  kind : String
  name : String
  deriving DecidableEq, Repr

/-- `IPAMConfig`. -/
structure IPAMConfig where
  ipv4PoolRef : Option PoolRef
  ipv6PoolRef : Option PoolRef
  deriving DecidableEq, Repr, Inhabited

/-- `Network`. -/
structure Network where
  networkID : Int
  vnet : Option String
  dhcp : Option Bool
  ipam : IPAMConfig
  deriving DecidableEq, Repr

/-- `NICInfo`. -/
structure NICInfo where
  ipv4Addresses : List String
  ipv6Addresses : List String
  networkID : Int
  primary : Bool
  deriving DecidableEq, Repr

inductive ResolutionPolicy where
  | exact | newest
  | other (text : String)
  deriving DecidableEq, Repr, Inhabited

/-- `ImageSelector`. -/
structure ImageSelector where
  matchLabels : List (String × String)
  resolutionPolicy : ResolutionPolicy
  useMachineVersion : Option Bool
  deriving DecidableEq, Repr

/-- `ImageSpec`. -/
structure ImageSpec where
  id : String
  selector : Option ImageSelector
  deriving DecidableEq, Repr, Inhabited

/-- `VolumeDiskType`. -/
inductive VolumeDiskType where
  | hdd | ssdStandard | ssdPremium
  deriving DecidableEq, Repr, Inhabited

def VolumeDiskType.text : VolumeDiskType → String
  | hdd => "HDD"
  | ssdStandard => "SSD Standard"
  | ssdPremium => "SSD Premium"

/-- `AvailabilityZone`. -/
inductive AvailabilityZone where
  | auto | one | two | three
  deriving DecidableEq, Repr, Inhabited

def AvailabilityZone.text : AvailabilityZone → String
  | auto => "AUTO"
  | one => "ZONE_1"
  | two => "ZONE_2"
  | three => "ZONE_3"

/-- `ServerType`. -/
inductive ServerType where
  | enterprise | vcpu
  deriving DecidableEq, Repr, Inhabited

def ServerType.text : ServerType → String
  | enterprise => "ENTERPRISE"
  | vcpu => "VCPU"

/-- `Volume`. -/
structure Volume where
  diskType : VolumeDiskType
  sizeGB : Int
  availabilityZone : AvailabilityZone
  image : ImageSpec
  deriving DecidableEq, Repr, Inhabited

/-- `IonosCloudMachineSpec`, but for the provider ID (see `MachineVars`). -/
structure MachineSpec where
  datacenterID : String
  numCores : Int
  availabilityZone : AvailabilityZone
  memoryMB : Int
  cpuFamily : Option String
  disk : Volume
  additionalNetworks : List Network
  ipam : IPAMConfig
  failoverIP : Option String
  networkID : Option String
  type : ServerType
  deriving DecidableEq, Repr, Inhabited

inductive ConditionStatus where
  | true | false | unknown
  deriving DecidableEq, Repr

/-- `metav1.Condition`. -/
structure Condition where
  type : String
  status : ConditionStatus
  reason : String
  message : String
  deriving DecidableEq, Repr

/-- `metav1.OwnerReference`. -/
structure OwnerReference where
  apiVersion : String
  kind : String
  name : String
  uid : String
  deriving DecidableEq, Repr

/-- The group of `schema.ParseGroupVersion(r.APIVersion)`. -/
def OwnerReference.group (r : OwnerReference) : String :=
  match Text.cut r.apiVersion "/" with
  | (group, _, true) => group
  | (_, _, false) => ""

/-- What tells owners apart for `SetOwnerReference`. -/
def ownerKey (r : OwnerReference) : String × String × String := (r.group, r.kind, r.name)

/-- Functions of controller-runtime, Cluster API and client-go that the runs call, and what is
assumed of them. -/
structure Libraries where
  /-- `controllerutil.AddFinalizer`: the finalizers and whether they changed. -/
  addFinalizer : List String → String → List String × Bool
  addFinalizer_of_mem : ∀ {finalizers f}, f ∈ finalizers →
    addFinalizer finalizers f = (finalizers, false)
  addFinalizer_of_notMem : ∀ {finalizers f}, f ∉ finalizers →
    (addFinalizer finalizers f).1.Perm (f :: finalizers) ∧ (addFinalizer finalizers f).2 = true
  /-- `controllerutil.RemoveFinalizer`. -/
  removeFinalizer : List String → String → List String × Bool
  removeFinalizer_perm : ∀ finalizers f,
    (removeFinalizer finalizers f).1.Perm (finalizers.filter (· ≠ f))
  removeFinalizer_changed : ∀ finalizers f, (removeFinalizer finalizers f).2 = decide (f ∈ finalizers)
  /-- `controllerutil.SetOwnerReference`. -/
  setOwnerReference : List OwnerReference → OwnerReference → Except Err (List OwnerReference)
  setOwnerReference_ok : ∀ {refs refs' owner}, setOwnerReference refs owner = .ok refs' →
    refs' = Data.replaceFirst ownerKey owner refs
  /-- `conditions.Set`. -/
  setCondition : List Condition → Condition → List Condition
  find?_setCondition : ∀ conditions c,
    (setCondition conditions c).find? (·.type = c.type) = some c
  /-- `retry.DefaultBackoff.Steps`. -/
  defaultBackoffSteps : Nat
  defaultBackoffSteps_pos : 0 < defaultBackoffSteps

/-- The simplest functions that do so, for concrete runs. -/
instance : Inhabited Libraries where
  default :=
    { addFinalizer := fun finalizers f =>
        if f ∈ finalizers then (finalizers, false) else (f :: finalizers, true)
      addFinalizer_of_mem := fun h => if_pos h
      addFinalizer_of_notMem := fun h => by
        rw [if_neg h]
        exact ⟨.refl _, rfl⟩
      removeFinalizer := fun finalizers f => (finalizers.filter (· ≠ f), f ∈ finalizers)
      removeFinalizer_perm := fun _ _ => .refl _
      removeFinalizer_changed := fun _ _ => rfl
      setOwnerReference := fun refs owner => .ok (Data.replaceFirst ownerKey owner refs)
      setOwnerReference_ok := fun h => (Except.ok.inj h).symm
      setCondition := fun conditions c => c :: conditions.filter (·.type ≠ c.type)
      find?_setCondition := fun _ _ => List.find?_cons_of_pos (by simp)
      defaultBackoffSteps := 4
      defaultBackoffSteps_pos := by decide }

namespace Libraries

variable (libs : Libraries) (finalizers : List String) (f : String)

theorem mem_addFinalizer : f ∈ (libs.addFinalizer finalizers f).1 := by
  by_cases h : f ∈ finalizers
  · rw [libs.addFinalizer_of_mem h]
    exact h
  · exact (libs.addFinalizer_of_notMem h).1.mem_iff.mpr (List.mem_cons_self ..)

theorem notMem_removeFinalizer : f ∉ (libs.removeFinalizer finalizers f).1 := by
  rw [(libs.removeFinalizer_perm finalizers f).mem_iff]
  simp

theorem removeFinalizer_eq :
    libs.removeFinalizer finalizers f =
      ((libs.removeFinalizer finalizers f).1, decide (f ∈ finalizers)) :=
  Prod.ext rfl (libs.removeFinalizer_changed finalizers f)

end Libraries

/-- What a run reads of the `Cluster` and the `IonosCloudCluster`. -/
structure ClusterScope where
  /-- Of the Cluster API `Cluster`. -/
  ns : String
  name : String
  uid : String
  infrastructureProvisioned : Option Bool
  clusterDeleted : Bool
  /-- Of the `IonosCloudCluster`. -/
  ionosClusterDeleted : Bool
  location : String
  loadBalancerProviderRef : Option String
  ionosClusterNs : String
  ionosClusterName : String
  ionosClusterUID : String
  credentialsRef : String
  /-- `AppendCertsFromPEM(caBundle)`. -/
  appendCertsFromPEM : String → Bool
  /-- `netip.ParseAddr(host)` and the address's `String()`. -/
  parseAddr : String → Option String
  libs : Libraries
  deriving Inhabited

/-- What a run writes of the `IonosCloudCluster`. -/
structure ClusterVars where
  finalizers : List String
  host : String
  port : Int
  provisioned : Option Bool
  conditions : List Condition
  currentRequestByDatacenter : String → Option ProvisioningRequest
  currentClusterRequest : Option ProvisioningRequest
  controlPlaneEndpointIPBlockID : String
  deriving Inhabited

/-- What a run reads of the `Machine` and the `IonosCloudMachine`, and the cluster. -/
structure MachineScope where
  /-- Of the Cluster API `Machine`. -/
  isControlPlane : Bool
  dataSecretName : Option String
  version : String
  /-- Of the `IonosCloudMachine`. -/
  ns : String
  name : String
  labels : List (String × String)
  deleted : Bool
  spec : MachineSpec
  clusterScope : ClusterScope
  /-- `uuid.Validate`: the text of its error. -/
  uuidValidate : String → Option String
  deriving Inhabited

abbrev MachineScope.libs (ms : MachineScope) : Libraries := ms.clusterScope.libs

/-- What a run writes of the `IonosCloudMachine`, and of the cluster it belongs to. -/
structure MachineVars where
  finalizers : List String
  providerID : String
  provisioned : Option Bool
  machineNetworkInfo : Option (List NICInfo)
  conditions : List Condition
  currentRequest : Option ProvisioningRequest
  location : String
  cluster : ClusterVars
  deriving Inhabited

/-- A machine of another run, as `ListMachines` shows it. -/
structure MachineItem where
  name : String
  creationTimestamp : Int
  providerID : String
  deriving DecidableEq, Repr

/-- `corev1.Secret`, the value of its `Data["value"]`. -/
structure Secret where
  value : Option String
  deriving DecidableEq, Repr

/-- The secret with the credentials for the Cloud API. -/
structure CredentialsSecret where
  ns : String
  name : String
  resourceVersion : Nat
  finalizers : List String
  ownerReferences : List OwnerReference
  token : String
  caBundle : String
  deriving DecidableEq, Repr

/-- `ipamv1.IPAddressClaim`. -/
structure IPAddressClaim where
  ns : String
  name : String
  finalizers : List String
  addressRefName : String
  deriving DecidableEq, Repr

/-- `sdk.LanProperties`, as `createLAN` fills it. -/
structure LanPost where
  name : String
  isPublic : Bool
  ipv6CidrBlock : String
  deriving DecidableEq, Repr

/-- `sdk.NicProperties` of a NIC to be created. -/
structure NicPost where
  lan : Int
  name : Option String
  dhcp : Option Bool
  vnet : Option String
  ips : Option (List String)
  ipv6Ips : Option (List String)
  deriving DecidableEq, Repr

/-- `sdk.VolumeProperties` of the boot volume to be created. -/
structure VolumePost where
  availabilityZone : String
  name : String
  size : Int
  type : String
  userData : String
  image : Option String
  deriving DecidableEq, Repr

/-- `sdk.Server`, as `createServer` fills it. -/
structure ServerPost where
  availabilityZone : String
  cores : Int
  name : String
  ram : Int
  cpuFamily : Option String
  type : String
  bootVolume : VolumePost
  nics : List NicPost
  deriving DecidableEq, Repr

/-- The `IPAddressClaim` that `CreateIPAddressClaim` wants to exist. -/
structure DesiredClaim where
  ns : String
  name : String
  clusterName : String
  pool : PoolRef
  finalizers : List String
  owner : String
  deriving DecidableEq, Repr

end Capic
