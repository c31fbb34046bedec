import Capic.Cloud.Server

/-!
# Names of cloud resources

The provider finds its LANs, IP blocks and servers by their names. The names of LANs and
IP blocks are made of a namespace and a name, joined by a hyphen, which both may contain;
a server has just the name of its machine. `names_apart` says which owners this keeps
apart, and `names_collide` has owners that it does not.
-/

namespace Capic.Properties

open Effect Cloud

/-- The object a resource belongs to. -/
structure Owner where
  ns : String
  name : String
  deriving DecidableEq

/-- The owner of a LAN, and of the IP block of the control plane endpoint. -/
def clusterOwner (cs : ClusterScope) : Owner := ⟨cs.ns, cs.name⟩

/-- The owner of a failover IP block: the `MachineDeployment`. -/
def deploymentOwner (ms : MachineScope) : Owner :=
  ⟨ms.ns, labelValue ms.labels machineDeploymentNameLabel⟩

/-- The owner of a server. -/
def machineOwner (ms : MachineScope) : Owner := ⟨ms.ns, ms.name⟩

/-- The namespace of the second owner goes on, after a hyphen, with the text by which the name
of the first one begins, before a hyphen and the name of the second. -/
def Owner.Overlaps (o o' : Owner) : Prop :=
  ∃ s, o'.ns = Text.hyphenated o.ns s ∧ o.name = Text.hyphenated s o'.name

/-- No overlap, either way round. -/
def Owner.Apart (o o' : Owner) : Prop := ¬ o.Overlaps o' ∧ ¬ o'.Overlaps o

/-- Distinct owners get distinct names if they are apart, and only then. -/
theorem Owner.apart_iff {o o' : Owner} (hne : o ≠ o') :
    Text.hyphenated o.ns o.name ≠ Text.hyphenated o'.ns o'.name ↔ o.Apart o' := by
  constructor
  · intro hnames
    constructor
    · rintro ⟨s, hns, hname⟩
      exact hnames (by rw [hns, hname, Text.hyphenated_assoc])
    · rintro ⟨s, hns, hname⟩
      exact hnames (by rw [hns, hname, Text.hyphenated_assoc])
  · intro hapart heq
    rcases Text.hyphenated_eq heq with ⟨hns, hname⟩ | hover | hover
    · cases o
      cases o'
      cases hns
      cases hname
      exact hne rfl
    · exact hapart.1 hover
    · exact hapart.2 hover

theorem lanName_eq (cs : ClusterScope) :
    lanName cs = "lan-" ++ Text.hyphenated (clusterOwner cs).ns (clusterOwner cs).name := by
  simp only [lanName, Text.hyphenated, clusterOwner, String.append_assoc]

theorem controlPlaneEndpointIPBlockName_eq (cs : ClusterScope) :
    controlPlaneEndpointIPBlockName cs =
      "ipb-" ++ Text.hyphenated (clusterOwner cs).ns (clusterOwner cs).name := by
  simp only [controlPlaneEndpointIPBlockName, Text.hyphenated, clusterOwner, String.append_assoc]

theorem failoverIPBlockName_eq (ms : MachineScope) :
    failoverIPBlockName ms =
      "fo-ipb-" ++ Text.hyphenated (deploymentOwner ms).ns (deploymentOwner ms).name := by
  simp only [failoverIPBlockName, Text.hyphenated, deploymentOwner, String.append_assoc]

/-- `getServer`, looking by name, may find one server for both machines. -/
def ShareServer (ms ms' : MachineScope) : Prop :=
  ∃ servers server, findServer ms.name servers = .val (some server) ∧
    findServer ms'.name servers = .val (some server)

theorem shareServer_iff {ms ms' : MachineScope} : ShareServer ms ms' ↔ ms.name = ms'.name := by
  constructor
  · rintro ⟨servers, server, h, h'⟩
    obtain ⟨properties, hproperties, hname⟩ := findServer_name h
    obtain ⟨properties', hproperties', hname'⟩ := findServer_name h'
    rw [hproperties] at hproperties'
    cases hproperties'
    rw [hname] at hname'
    exact Option.some.inj hname'
  · intro heq
    let server : Server := ⟨none, none, some ⟨some ms.name, none, none⟩, none⟩
    have hfound : findServer ms.name [server] = .val (some server) := by
      simp [findServer, server]
    exact ⟨[server], server, hfound, heq ▸ hfound⟩

/-- Which owners are kept apart: clusters and `MachineDeployment`s whose namespaces and names do
not overlap, and machines with different names. Scopes that then compute the same name belong
to the same owner and use the same lock. -/
theorem names_apart (ms ms' : MachineScope) :
    (clusterOwner ms.clusterScope ≠ clusterOwner ms'.clusterScope →
      (lanName ms.clusterScope ≠ lanName ms'.clusterScope ↔
        (clusterOwner ms.clusterScope).Apart (clusterOwner ms'.clusterScope)) ∧
      (controlPlaneEndpointIPBlockName ms.clusterScope ≠
          controlPlaneEndpointIPBlockName ms'.clusterScope ↔
        (clusterOwner ms.clusterScope).Apart (clusterOwner ms'.clusterScope))) ∧
    (deploymentOwner ms ≠ deploymentOwner ms' →
      (failoverIPBlockName ms ≠ failoverIPBlockName ms' ↔
        (deploymentOwner ms).Apart (deploymentOwner ms'))) ∧
    (machineOwner ms ≠ machineOwner ms' → (¬ ShareServer ms ms' ↔ ms.name ≠ ms'.name)) ∧
    (ms.datacenterID = ms'.datacenterID →
      (clusterOwner ms.clusterScope = clusterOwner ms'.clusterScope →
        ms.clusterScope.uid = ms'.clusterScope.uid) →
      (clusterOwner ms.clusterScope).Apart (clusterOwner ms'.clusterScope) →
      lanName ms.clusterScope = lanName ms'.clusterScope →
      clusterOwner ms.clusterScope = clusterOwner ms'.clusterScope ∧
        lanLockKey ms = lanLockKey ms') ∧
    ((deploymentOwner ms).Apart (deploymentOwner ms') →
      failoverIPBlockName ms = failoverIPBlockName ms' →
      deploymentOwner ms = deploymentOwner ms' ∧
        failoverIPBlockLockKey ms = failoverIPBlockLockKey ms') := by
  have hlan : clusterOwner ms.clusterScope ≠ clusterOwner ms'.clusterScope →
      (lanName ms.clusterScope ≠ lanName ms'.clusterScope ↔
        (clusterOwner ms.clusterScope).Apart (clusterOwner ms'.clusterScope)) := by
    intro hne
    rw [lanName_eq, lanName_eq, ne_eq, String.append_right_inj]
    exact Owner.apart_iff hne
  have hblock : deploymentOwner ms ≠ deploymentOwner ms' →
      (failoverIPBlockName ms ≠ failoverIPBlockName ms' ↔
        (deploymentOwner ms).Apart (deploymentOwner ms')) := by
    intro hne
    rw [failoverIPBlockName_eq, failoverIPBlockName_eq, ne_eq, String.append_right_inj]
    exact Owner.apart_iff hne
  refine ⟨fun hne => ⟨hlan hne, ?_⟩, hblock, fun _ => not_congr shareServer_iff, ?_, ?_⟩
  · rw [controlPlaneEndpointIPBlockName_eq, controlPlaneEndpointIPBlockName_eq, ne_eq,
      String.append_right_inj]
    exact Owner.apart_iff hne
  · intro hdc huid hapart heq
    have howner : clusterOwner ms.clusterScope = clusterOwner ms'.clusterScope := by
      by_contra hne
      exact (hlan hne).mpr hapart heq
    refine ⟨howner, ?_⟩
    unfold lanLockKey
    rw [huid howner, hdc]
  · intro hapart heq
    have howner : deploymentOwner ms = deploymentOwner ms' := by
      by_contra hne
      exact (hblock hne).mpr hapart heq
    have hns : ms.ns = ms'.ns := congrArg Owner.ns howner
    have hname : labelValue ms.labels machineDeploymentNameLabel =
        labelValue ms'.labels machineDeploymentNameLabel := congrArg Owner.name howner
    refine ⟨howner, ?_⟩
    unfold failoverIPBlockLockKey
    rw [hns, hname]

/-- A machine of a cluster and a `MachineDeployment` of the same name, in their namespace. -/
def namedMachine (ns name machine uid : String) : MachineScope :=
  { (default : MachineScope) with
    ns := ns
    name := machine
    labels := [(machineDeploymentNameLabel, name)]
    clusterScope := { (default : ClusterScope) with ns := ns, name := name, uid := uid } }

/-- Two owners of each kind with valid names that get the same names for their resources. The
clusters' machines do not even share a lock. -/
theorem names_collide :
    ∃ ms ms' : MachineScope,
      (∀ o ∈ [clusterOwner ms.clusterScope, clusterOwner ms'.clusterScope, deploymentOwner ms,
        deploymentOwner ms', machineOwner ms, machineOwner ms'],
        Text.isDNS1123Label o.ns = true ∧ Text.isDNS1123Label o.name = true) ∧
      ms.datacenterID = ms'.datacenterID ∧
      clusterOwner ms.clusterScope ≠ clusterOwner ms'.clusterScope ∧
      lanName ms.clusterScope = lanName ms'.clusterScope ∧
      controlPlaneEndpointIPBlockName ms.clusterScope =
        controlPlaneEndpointIPBlockName ms'.clusterScope ∧
      lanLockKey ms ≠ lanLockKey ms' ∧
      deploymentOwner ms ≠ deploymentOwner ms' ∧
      failoverIPBlockName ms = failoverIPBlockName ms' ∧
      failoverIPBlockLockKey ms ≠ failoverIPBlockLockKey ms' ∧
      machineOwner ms ≠ machineOwner ms' ∧ ShareServer ms ms' := by
  refine ⟨namedMachine "a" "b-c" "m" "u", namedMachine "a-b" "c" "m" "v", ?_, rfl, ?_, ?_, ?_, ?_,
    ?_, ?_, ?_, ?_, shareServer_iff.mpr rfl⟩ <;> decide

end Capic.Properties
