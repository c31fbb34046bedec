import Capic.Cloud.Image

/-!
# Servers

`internal/service/cloud/server.go`: a machine's server is found by the ID in the
machine's provider ID, or else by the machine's name; created with its boot volume
and NICs in one request; and deleted, with the volumes only if the cluster goes too.
-/

namespace Capic.Cloud

open Effect Effect.Go

variable {σ : Type}

/-- `nicName` of the machine with this name. -/
def nicName (machine : String) : String := "nic-" ++ machine

/-- `volumeName`. -/
def volumeName (machine : String) : String := "vol-" ++ machine

/-- `serversURL`. -/
def serversURL (datacenterID : String) : String :=
  Text.pathJoin ["datacenters", datacenterID, "servers"]

/-- `isPrimaryNIC`. -/
def isPrimaryNIC (machine : String) (nic : Nic) : Bool := deref nic.name "" = nicName machine

/-! ## Looking for the server -/

/-- `getServerByServerID`. -/
def getServerByServerID (ms : MachineScope) (datacenterID serverID : String) :
    Go Call Call.Ans σ (Except Err (Option Server)) :=
  if serverID = "" then return .ok none
  else
    match ms.uuidValidate serverID with
    | some text => return .error (.wrap ("invalid server ID " ++ serverID ++ ": ") (.new text))
    | none => do
      match ← Client.getServer datacenterID serverID with
      | .error e =>
        return .error (.wrap ("failed to get server " ++ serverID ++ " in data center " ++
          datacenterID ++ ": ") e)
      | .ok server => return .ok (some server)

/-- The loop of `getServer`: the first server with the name. -/
def findServer (name : String) : List Server → Res (Option Server)
  | [] => .val none
  | server :: servers =>
    match server.properties with
    | none => findServer name servers
    | some properties =>
      match properties.name with
      | none => .panic "nil pointer dereference"
      | some n => if n = name then .val (some server) else findServer name servers

/-- The server's name. -/
def nameOf (server : Server) : Option String := server.properties.bind (·.name)

/-- The server that is found has the name. -/
theorem findServer_name {name : String} {servers : List Server} {server : Server}
    (h : findServer name servers = .val (some server)) :
    ∃ properties, server.properties = some properties ∧ properties.name = some name := by
  induction servers with
  | nil => exact nomatch h
  | cons first rest ih =>
    rw [findServer] at h
    split at h
    next => exact ih h
    next properties hproperties =>
      split at h
      next => exact nomatch h
      next n hn =>
        split at h
        next heq =>
          cases h
          exact ⟨properties, hproperties, heq ▸ hn⟩
        next => exact ih h

theorem findServer_mem {name : String} {servers : List Server} {server : Server}
    (h : findServer name servers = .val (some server)) : server ∈ servers := by
  induction servers with
  | nil => exact nomatch h
  | cons first rest ih =>
    rw [findServer] at h
    split at h
    next => exact List.mem_cons_of_mem _ (ih h)
    next =>
      split at h
      next => exact nomatch h
      next =>
        split at h
        next =>
          cases h
          exact List.mem_cons_self ..
        next => exact List.mem_cons_of_mem _ (ih h)

/-- If none is found, none has the name. -/
theorem findServer_none {name : String} {servers : List Server}
    (h : findServer name servers = .val none) :
    ∀ server ∈ servers, nameOf server ≠ some name := by
  induction servers with
  | nil => exact fun _ hmem => nomatch hmem
  | cons first rest ih =>
    rw [findServer] at h
    intro server hmem
    split at h
    next hproperties =>
      rcases List.mem_cons.mp hmem with rfl | hmem
      · rw [nameOf, hproperties]
        exact fun heq => nomatch heq
      · exact ih h server hmem
    next properties hproperties =>
      split at h
      next => exact nomatch h
      next n hn =>
        split at h
        next => exact nomatch h
        next hne =>
          rcases List.mem_cons.mp hmem with rfl | hmem
          · rw [nameOf, hproperties]
            show properties.name ≠ some name
            rw [hn]
            exact fun heq => hne (Option.some.inj heq)
          · exact ih h server hmem

theorem findServer_panic {name : String} {servers : List Server} {msg : String}
    (h : findServer name servers = .panic msg) : msg = "nil pointer dereference" := by
  induction servers with
  | nil => exact nomatch h
  | cons first rest ih =>
    rw [findServer] at h
    split at h
    next => exact ih h
    next =>
      split at h
      next => exact (Res.panic.inj h).symm
      next =>
        split at h
        next => exact nomatch h
        next => exact ih h

/-- `getServer` where the provider ID did not lead to a server: by name, or else the
error of the first attempt. -/
def getServerByName (ms : MachineScope) (err : Option Err) :
    MachineM (Except Err (Option Server)) := do
  match ← Client.listServers ms.datacenterID with
  | .error e =>
    return .error (.wrap ("failed to list servers in data center " ++ ms.datacenterID ++ ": ") e)
  | .ok items =>
    match ← conclude (findServer ms.name (deref items [])) with
    | some server =>
      MachineScope.setProviderID (deref server.id "")
      return .ok (some server)
    | none =>
      match err with
      | some e => return .error e
      | none => return .ok none

/-- `getServer`. -/
def getServer (ms : MachineScope) : MachineM (Except Err (Option Server)) := do
  match ← getServerByServerID ms ms.datacenterID (extractServerID (← vars).providerID) with
  | .ok (some server) => return .ok (some server)
  | .ok none => getServerByName ms none
  | .error e => if isNotFound e then getServerByName ms (some e) else return .error e

/-- `getLatestServerCreationRequest`. -/
def getLatestServerCreationRequest (ms : MachineScope) :
    MachineM (Except Err (Option RequestInfo)) :=
  getMatchingRequest .server .post (serversURL ms.datacenterID) [matchByName ms.name]

/-- `getLatestServerDeletionRequest`. -/
def getLatestServerDeletionRequest (datacenterID serverID : String) :
    MachineM (Except Err (Option RequestInfo)) :=
  getMatchingRequest .server .delete
    (Text.pathJoin ["datacenters", datacenterID, "servers", serverID]) []

/-! ## Creating the server -/

/-- `renderUserData`: the bootstrap data with the host name set, encoded. -/
def renderUserData (ms : MachineScope) (input : String) : String :=
  Text.base64 (input ++ "\n" ++ "bootcmd:\n  - echo " ++ ms.name ++ " > /etc/hostname\n" ++
    "  - hostname " ++ ms.name ++ "\n")

/-- The addresses a NIC is created with: those of the entry in the machine's network
info, if it has one. -/
def nicAddresses (info : Option (List NICInfo)) (i : Nat) :
    Res (Option (List String) × Option (List String)) :=
  match info with
  | none => .val (none, none)
  | some infos =>
    match infos[i]? with
    | none => .panic "index out of range"
    | some nicInfo => .val (some nicInfo.ipv4Addresses, some nicInfo.ipv6Addresses)

/-- The loop of `buildServerEntities` over the additional networks. -/
def additionalNICs (info : Option (List NICInfo)) : Nat → List Network → Res (List NicPost)
  | _, [] => .val []
  | i, nw :: networks =>
    match nicAddresses info (i + 1) with
    | .panic text => .panic text
    | .val (ips, ipv6Ips) =>
      match additionalNICs info (i + 1) networks with
      | .panic text => .panic text
      | .val nics => .val (⟨nw.networkID, none, nw.dhcp, nw.vnet, ips, ipv6Ips⟩ :: nics)

/-- The NICs of `buildServerEntities`. -/
def buildNICs (ms : MachineScope) (info : Option (List NICInfo)) (lanID : Int) :
    Res (List NicPost) :=
  match nicAddresses info 0 with
  | .panic text => .panic text
  | .val (ips, ipv6Ips) =>
    match additionalNICs info 0 ms.spec.additionalNetworks with
    | .panic text => .panic text
    | .val nics => .val (⟨lanID, some (nicName ms.name), some true, none, ips, ipv6Ips⟩ :: nics)

/-- The number that is `float32(n)`: its first 24 bits, rounded to the nearest, and to even between
two. -/
def float32 (n : Int) : Int :=
  let ulp := 2 ^ (n.natAbs.log2 + 1 - 24)
  let mantissa := n.natAbs / ulp
  let rest := n.natAbs % ulp
  let rounded := if ulp < 2 * rest ∨ ulp = 2 * rest ∧ mantissa % 2 = 1 then mantissa + 1 else mantissa
  n.sign * (rounded * ulp : Nat)

-- whole gigabytes of up to 24 bits are sent as they are, the first number after that is not
example : float32 16777216 = 16777216 ∧ float32 16777217 = 16777216 ∧ float32 16777219 = 16777220 := by
  decide

/-- The boot volume of `buildServerEntities`. -/
def buildBootVolume (ms : MachineScope) (bootstrapData imageID : String) : VolumePost where
  availabilityZone := ms.spec.disk.availabilityZone.text
  name := volumeName ms.name
  size := float32 ms.spec.disk.sizeGB
  type := ms.spec.disk.diskType.text
  userData := bootstrapData
  image := if imageID ≠ "" then some imageID else none

/-- `buildServerProperties` and `buildServerEntities`. -/
def buildServer (ms : MachineScope) (bootVolume : VolumePost) (nics : List NicPost) :
    ServerPost where
  availabilityZone := ms.spec.availabilityZone.text
  cores := ms.spec.numCores
  name := ms.name
  ram := ms.spec.memoryMB
  cpuFamily := ms.spec.cpuFamily
  type := ms.spec.type.text
  bootVolume := bootVolume
  nics := nics

/-- `createServer` once LAN and image are known. -/
def postServer (ms : MachineScope) (bootstrapData : String) (lanID : Int) (imageID : String) :
    MachineM (Option Err) := do
  let nics ← conclude (buildNICs ms (← vars).machineNetworkInfo lanID)
  let bootVolume := buildBootVolume ms (renderUserData ms bootstrapData) imageID
  match ← Client.createServer ms.datacenterID (buildServer ms bootVolume nics) with
  | .error e =>
    return some (.wrap ("failed to create server in data center " ++ ms.datacenterID ++ ": ") e)
  | .ok (server, requestLocation) =>
    MachineScope.setCurrentRequest .post .queued requestLocation
    let serverID := deref server.id ""
    if serverID = "" then return some (.new "server ID is empty")
    else
      MachineScope.setProviderID serverID
      return none

/-- `createServer`. -/
def createServer (secret : Secret) (ms : MachineScope) : MachineM (Option Err) := do
  match secret.value with
  | none => return some (.new "unable to obtain bootstrap data from secret")
  | some bootstrapData =>
    match ← getLAN ms with
    | .error e => return some e
    | .ok lan =>
      match Text.parseInt32 (deref (lan.bind (·.id)) "invalid") with
      | .error text => return some (.wrap "unable to parse LAN ID: " (.new text))
      | .ok lanID =>
        match ← lookupImageID ms with
        | .error e => return some (.wrap "image lookup: " e)
        | .ok imageID => postServer ms bootstrapData lanID imageID

/-! ## Starting and deleting the server -/

/-- `startServer`. -/
def startServer (ms : MachineScope) (serverID : String) : MachineM (Option Err) := do
  match ← Client.startServer ms.datacenterID serverID with
  | .error e => return some (.wrap "failed to request server start: " e)
  | .ok requestLocation =>
    MachineScope.setCurrentRequest .post .queued requestLocation
    return none

/-- `isServerAvailable`. -/
def isServerAvailable (server : Server) : Bool := isAvailable (getState server.state)

/-- `ensureServerAvailable`. -/
def ensureServerAvailable (ms : MachineScope) (server : Server) : MachineM Outcome := do
  if isServerAvailable server = false then return (true, none)
  else if isRunning (getVMState server) = false then
    match server.id with
    | none => panicking "nil pointer dereference"
    | some id => return (true, ← startServer ms id)
  else return (false, none)

/-- `deleteServer`. -/
def deleteServer (ms : MachineScope) (server : Server) : MachineM (Option Err) := do
  let deleteVolumes := ms.clusterScope.isDeleted
  match server.properties.bind (·.bootVolumeID), deleteVolumes with
  | some bootVolumeID, false =>
    match ← Client.deleteVolume ms.datacenterID bootVolumeID with
    | .error e => return some (.wrap "failed to request boot volume deletion: " e)
    | .ok requestLocation =>
      MachineScope.setCurrentRequest .delete .queued requestLocation
      return none
  | _, _ =>
    match ← Client.deleteServer ms.datacenterID (deref server.id "") deleteVolumes with
    | .error e => return some (.wrap "failed to request server deletion: " e)
    | .ok requestLocation =>
      MachineScope.setCurrentRequest .delete .queued requestLocation
      return none

/-! ## The steps -/

/-- The network info of `ReconcileServer`. -/
def networkInfo (ms : MachineScope) (server : Server) : List NICInfo :=
  (deref server.nics []).map fun nic =>
    ⟨deref nic.ips [], deref nic.ipv6Ips [], deref nic.lan 0, isPrimaryNIC ms.name nic⟩

/-- `ReconcileServer` for the server that was found. -/
def reconcileFoundServer (ms : MachineScope) (server : Server) : MachineM Outcome := do
  match ← ensureServerAvailable ms server with
  | (false, none) =>
    assign fun v => { v with machineNetworkInfo := some (networkInfo ms server) }
    return (false, none)
  | outcome => return outcome

/-- `ReconcileServer`. -/
def reconcileServer (ms : MachineScope) : MachineM Outcome := do
  match ← ms.getBootstrapDataSecret with
  | .error e =>
    if e.isK8sNotFound then return (true, none)
    else
      return (true, some (.wrap "unexpected error when trying to get bootstrap secret: " e))
  | .ok secret =>
    match ← findResource (getServer ms) (getLatestServerCreationRequest ms) with
    | .error e => return (false, some e)
    | .ok (server, request) =>
      if request.any (·.isPending) then return (true, none)
      else
        match server with
        | some server => reconcileFoundServer ms server
        | none =>
          match ← createServer secret ms with
          | some e => return (false, some e)
          | none => return (true, none)

/-- `ReconcileServerDeletion` for a server whose deletion is to be requested. -/
def requestServerDeletion (ms : MachineScope) (server : Server) : MachineM Outcome := do
  match ← deleteServer ms server with
  | some e => return (false, some e)
  | none => return (true, none)

/-- `ReconcileServerDeletion` for the server that was found. -/
def reconcileFoundServerDeletion (ms : MachineScope) (server : Server) : MachineM Outcome := do
  match server.id with
  | none => panicking "nil pointer dereference"
  | some id =>
    match ← getLatestServerDeletionRequest ms.datacenterID id with
    | .error e => return (false, some e)
    | .ok none => requestServerDeletion ms server
    | .ok (some request) =>
      if request.isPending then
        MachineScope.setCurrentRequest .delete request.status request.location
        return (true, none)
      else if request.isDone then
        MachineScope.deleteCurrentRequest
        return (false, none)
      else requestServerDeletion ms server

/-- `ReconcileServerDeletion`. -/
def reconcileServerDeletion (ms : MachineScope) : MachineM Outcome := do
  match ← findResource (getServer ms) (getLatestServerCreationRequest ms) with
  | .error e => return (false, some e)
  | .ok (server, request) =>
    match request.filter (·.isPending), server with
    | some request, _ =>
      MachineScope.setCurrentRequest .post request.status request.location
      return (true, none)
    | none, none =>
      MachineScope.deleteCurrentRequest
      return (false, none)
    | none, some server => reconcileFoundServerDeletion ms server

/-- `FinalizeMachineProvisioning`. -/
def finalizeMachineProvisioning (ms : MachineScope) : MachineM Outcome := do
  assign fun v => { v with
    provisioned := some true
    conditions := ms.libs.setCondition v.conditions
      ⟨machineProvisionedCondition, .true, machineProvisionedReason, ""⟩ }
  return (false, none)

/-! ## Rules -/

section

variable {M : Monitor Call Call.Ans} {q : M.Phase} {ms : MachineScope}

/-- `getServerByServerID` asks for the server, or there is no ID to ask for. -/
theorem wp_getServerByServerID {dc id : String} {s : σ}
    {Q : M.Phase → Except Err (Option Server) → σ → Prop} (hnone : id = "" → Q q (.ok none) s)
    (hfail : ∀ e, isNotFound e = false → Q q (.error e) s)
    (hok : M.ok q (.serversFindById dc id))
    (herror : ∀ e e', M.adm q (.serversFindById dc id) (.error e) →
      isNotFound e' = isNotFound e → Q (M.next q (.serversFindById dc id) (.error e)) (.error e') s)
    (hserver : id ≠ "" → ∀ server, M.adm q (.serversFindById dc id) (.ok server) →
      Q (M.next q (.serversFindById dc id) (.ok server)) (.ok (some server)) s) :
    (getServerByServerID ms dc id).wp M Q q s := by
  unfold getServerByServerID
  rw [wp_ite]
  split
  next hid => exact (wp_pure _).mpr (hnone hid)
  next hne =>
    split
    next => exact (wp_pure _).mpr (hfail _ rfl)
    next =>
      unfold Client.getServer
      rw [wp_bind]
      refine Client.wp_withParams (fun p hp _ => ?_) ?_
      · simp only [List.mem_cons, List.not_mem_nil, or_false] at hp
        rcases hp with rfl | rfl <;> exact (wp_pure _).mpr (hfail _ rfl)
      rw [wp_bind, wp_perform]
      refine ⟨hok, fun a ha => ?_⟩
      rw [wp_pure]
      match a with
      | .error e => exact (wp_pure _).mpr (herror e _ ha rfl)
      | .ok server => exact (wp_pure _).mpr (hserver hne server ha)

variable {s : MachineVars} {Q : M.Phase → Except Err (Option Server) → MachineVars → Prop}

/-- `getServer` without a provider ID that leads anywhere lists the servers. -/
theorem wp_getServerByName {err : Option Err}
    (hfail : ∀ e, isNotFound e = false → Q q (.error e) s)
    (hok : M.ok q (.serversGet ms.datacenterID))
    (herror : ∀ e e', M.adm q (.serversGet ms.datacenterID) (.error e) →
      isNotFound e' = isNotFound e →
      Q (M.next q (.serversGet ms.datacenterID) (.error e)) (.error e') s)
    (hfound : ∀ items server, M.adm q (.serversGet ms.datacenterID) (.ok items) →
      findServer ms.name (deref items []) = .val (some server) →
      Q (M.next q (.serversGet ms.datacenterID) (.ok items)) (.ok (some server))
        { s with providerID := "ionos://" ++ deref server.id "" })
    (hnone : ∀ items, M.adm q (.serversGet ms.datacenterID) (.ok items) →
      findServer ms.name (deref items []) = .val none →
      Q (M.next q (.serversGet ms.datacenterID) (.ok items))
        (err.elim (.ok none) .error) s)
    (hpanic : ∀ items, M.adm q (.serversGet ms.datacenterID) (.ok items) →
      M.panic (M.next q (.serversGet ms.datacenterID) (.ok items))) :
    (getServerByName ms err).wp M Q q s := by
  unfold getServerByName Client.listServers
  rw [wp_bind]
  refine Client.wp_withParams (fun p hp _ => ?_) ?_
  · obtain rfl := List.mem_singleton.mp hp
    exact (wp_pure _).mpr (hfail _ rfl)
  rw [wp_bind, wp_perform]
  refine ⟨hok, fun a ha => ?_⟩
  rw [wp_pure]
  match a with
  | .error e => exact (wp_pure _).mpr (herror e _ ha rfl)
  | .ok items =>
    refine (wp_bind _ _).mpr (wp_conclude (hpanic items ha) fun r hr => ?_)
    match r with
    | some server =>
      exact (wp_bind _ _).mpr ((wp_assign _).mpr ((wp_pure _).mpr (hfound items server ha hr)))
    | none => cases err <;> exact (wp_pure _).mpr (hnone items ha hr)

/-- `getServer`: by ID, and by name if that leads nowhere. -/
theorem wp_getServer
    (h : (getServerByServerID ms ms.datacenterID (extractServerID s.providerID)).wp M
      (fun q' r s' =>
        match r with
        | .ok (some server) => Q q' (.ok (some server)) s'
        | .ok none => (getServerByName ms none).wp M Q q' s'
        | .error e =>
          if isNotFound e then (getServerByName ms (some e)).wp M Q q' s'
          else Q q' (.error e) s') q s) :
    (getServer ms).wp M Q q s := by
  unfold getServer
  rw [wp_bind, wp_vars, wp_bind]
  refine wp_mono h fun q' r s' hr => ?_
  match r with
  | .ok (some server) => exact (wp_pure _).mpr hr
  | .ok none => exact hr
  | .error e =>
    dsimp only at hr ⊢
    rw [wp_ite]
    split at hr
    next h' => rwa [if_pos h']
    next h' => rw [if_neg h']; exact (wp_pure _).mpr hr

/-- What `getServer` finds: `P` of a server that is found. `I` holds until there is one. -/
theorem wp_getServer_found {s : MachineVars} (I : M.Phase → MachineVars → Prop)
    (P : M.Phase → Server → MachineVars → Prop) (hI : I q s)
    (hfind : ∀ id, id = extractServerID s.providerID → id ≠ "" →
      ∀ server, M.adm q (.serversFindById ms.datacenterID id) (.ok server) →
        P (M.next q (.serversFindById ms.datacenterID id) (.ok server)) server s)
    (hfindOk : ∀ id, M.ok q (.serversFindById ms.datacenterID id))
    (hfindError : ∀ id e, M.adm q (.serversFindById ms.datacenterID id) (.error e) →
      I (M.next q (.serversFindById ms.datacenterID id) (.error e)) s)
    (hget : ∀ q items, I q s → M.adm q (.serversGet ms.datacenterID) (.ok items) →
      (∀ server, findServer ms.name (deref items []) = .val (some server) →
        P (M.next q (.serversGet ms.datacenterID) (.ok items)) server
          { s with providerID := "ionos://" ++ deref server.id "" }) ∧
      (findServer ms.name (deref items []) = .val none →
        I (M.next q (.serversGet ms.datacenterID) (.ok items)) s) ∧
      M.panic (M.next q (.serversGet ms.datacenterID) (.ok items)))
    (hgetOk : ∀ q, I q s → M.ok q (.serversGet ms.datacenterID))
    (hgetError : ∀ q e, I q s → M.adm q (.serversGet ms.datacenterID) (.error e) →
      I (M.next q (.serversGet ms.datacenterID) (.error e)) s) :
    (getServer ms).wp M (fun q' r s' => (∀ server, r = .ok (some server) → P q' server s') ∧
      ((∀ server, r ≠ .ok (some server)) → I q' s')) q s := by
  -- an end without a server
  have hnone : ∀ {q} {r : Except Err (Option Server)}, (∀ server, r ≠ .ok (some server)) → I q s →
      (∀ server, r = .ok (some server) → P q server s) ∧
        ((∀ server, r ≠ .ok (some server)) → I q s) :=
    fun hne hI => ⟨fun server heq => absurd heq (hne server), fun _ => hI⟩
  -- an end with one
  have hsome : ∀ {q s} {r : Except Err (Option Server)} {server : Server}, P q server s →
      r = .ok (some server) → (∀ server', r = .ok (some server') → P q server' s) ∧
        ((∀ server', r ≠ .ok (some server')) → I q s) := by
    rintro q s r server hP rfl
    refine ⟨fun server' heq => ?_, fun hne => absurd rfl (hne server)⟩
    cases heq
    exact hP
  have hname : ∀ q err, I q s → (getServerByName ms err).wp M (fun q' r s' =>
      (∀ server, r = .ok (some server) → P q' server s') ∧
      ((∀ server, r ≠ .ok (some server)) → I q' s')) q s := by
    intro q err hI
    refine wp_getServerByName (fun e _ => hnone (fun _ heq => nomatch heq) hI) (hgetOk q hI)
      (fun e e' ha _ => hnone (fun _ heq => nomatch heq) (hgetError q e hI ha)) ?_ ?_
      fun items ha => (hget q items hI ha).2.2
    · intro items server ha hfound
      exact hsome ((hget q items hI ha).1 server hfound) rfl
    · intro items ha hfound
      refine hnone (fun server heq => ?_) ((hget q items hI ha).2.1 hfound)
      cases err <;> exact nomatch heq
  refine wp_getServer (wp_getServerByServerID (fun _ => hname q none hI) ?_ (hfindOk _) ?_ ?_)
  · intro e he
    dsimp only
    rw [if_neg (by rw [he]; exact Bool.false_ne_true)]
    exact hnone (fun _ heq => nomatch heq) hI
  · intro e e' ha _
    dsimp only
    split
    next => exact hname _ _ (hfindError _ e ha)
    next => exact hnone (fun _ heq => nomatch heq) (hfindError _ e ha)
  · intro hne server ha
    exact hsome (hfind _ rfl hne server ha) rfl

/-! Functions that make certain calls only. -/

section

variable {κ : Type} {E : Call → Prop}

theorem within_getServerByServerID {keep : σ → κ} {dc id : String}
    (hfind : ∀ dc id, E (.serversFindById dc id)) :
    Within E keep (getServerByServerID ms dc id) := by
  refine .ite (.pure _) ?_
  split
  next => exact .pure _
  next =>
    refine .bind (Client.Within.withParams (.bind (.perform (hfind _ _)) fun _ => .pure _)) fun r => ?_
    cases r <;> exact .pure _

variable {keep : MachineVars → κ} (hkeep : ∀ v id, keep { v with providerID := id } = keep v)
include hkeep

theorem within_getServerByName {err : Option Err} (hget : ∀ dc, E (.serversGet dc)) :
    Within E keep (getServerByName ms err) := by
  unfold getServerByName Client.listServers
  refine .bind (Client.Within.withParams (.bind (.perform (hget _)) fun _ => .pure _)) fun r => ?_
  cases r with
  | error e => exact .pure _
  | ok items =>
    refine .bind (within_conclude _) fun r => ?_
    cases r with
    | some server => exact .bind (.assign fun v => hkeep v _) fun _ => .pure _
    | none => cases err <;> exact .pure _

theorem within_getServer (hfind : ∀ dc id, E (.serversFindById dc id))
    (hget : ∀ dc, E (.serversGet dc)) : Within E keep (getServer ms) := by
  unfold getServer
  refine .bind .vars fun v => .bind (within_getServerByServerID hfind) fun r => ?_
  match r with
  | .ok (some server) => exact .pure _
  | .ok none => exact within_getServerByName hkeep hget
  | .error e => exact .ite (within_getServerByName hkeep hget) (.pure _)

end

/-- The calls by which a machine's server is found. -/
def LookingUp : Call → Prop
  | .serversFindById _ _ | .serversGet _ => True
  | _ => False

theorem LookingUp.elim {P : Call → Prop} {c : Call} (h : LookingUp c)
    (hfind : ∀ dc id, P (.serversFindById dc id)) (hget : ∀ dc, P (.serversGet dc)) : P c := by
  cases c with
  | serversFindById dc id => exact hfind dc id
  | serversGet dc => exact hget dc
  | _ => exact False.elim h

/-- The calls of `ReconcileServerDeletion`. -/
def DeletingServer : Call → Prop
  | .serversFindById _ _ | .serversGet _ | .requestsGet _ _ | .serversDelete _ _ _
  | .volumesDelete _ _ => True
  | _ => False

theorem DeletingServer.elim {P : Call → Prop} {c : Call} (h : DeletingServer c)
    (hfind : ∀ dc id, P (.serversFindById dc id)) (hget : ∀ dc, P (.serversGet dc))
    (hrequests : ∀ method url, P (.requestsGet method url))
    (hdelete : ∀ dc id volumes, P (.serversDelete dc id volumes))
    (hvolume : ∀ dc id, P (.volumesDelete dc id)) : P c := by
  cases c with
  | serversFindById dc id => exact hfind dc id
  | serversGet dc => exact hget dc
  | requestsGet method url => exact hrequests method url
  | serversDelete dc id volumes => exact hdelete dc id volumes
  | volumesDelete dc id => exact hvolume dc id
  | _ => exact False.elim h

section

variable {κ : Type} {keep : MachineVars → κ}
  (hrequest : ∀ v request, keep { v with currentRequest := request } = keep v)
include hrequest

theorem within_deleteServer (server : Server) :
    Within DeletingServer keep (deleteServer ms server) := by
  unfold deleteServer
  dsimp only
  split
  next =>
    refine .bind (Client.Within.withParams (.bind (.perform trivial) fun _ => .pure _)) fun r => ?_
    cases r with
    | error e => exact .pure _
    | ok location => exact .bind (.assign fun v => hrequest v _) fun _ => .pure _
  next =>
    refine .bind (Client.Within.withParams (.bind (.perform trivial) fun _ => .pure _)) fun r => ?_
    cases r with
    | error e => exact .pure _
    | ok location => exact .bind (.assign fun v => hrequest v _) fun _ => .pure _

theorem within_requestServerDeletion (server : Server) :
    Within DeletingServer keep (requestServerDeletion ms server) := by
  unfold requestServerDeletion
  refine .bind (within_deleteServer hrequest server) fun r => ?_
  cases r <;> exact .pure _

theorem within_reconcileServerDeletion
    (hprovider : ∀ v id, keep { v with providerID := id } = keep v) :
    Within DeletingServer keep (reconcileServerDeletion ms) := by
  unfold reconcileServerDeletion getLatestServerCreationRequest
  refine .bind (within_findResource
    (within_getServer hprovider (fun _ _ => trivial) fun _ => trivial)
    (within_getMatchingRequest fun _ => trivial)) fun r => ?_
  match r with
  | .error e => exact .pure _
  | .ok (server, request) =>
    dsimp only
    split
    next => exact .bind (.assign fun v => hrequest v _) fun _ => .pure _
    next => exact .bind (.assign fun v => hrequest v _) fun _ => .pure _
    next =>
      unfold reconcileFoundServerDeletion
      split
      next => exact .panicking _
      next id _ =>
        unfold getLatestServerDeletionRequest
        refine .bind (within_getMatchingRequest fun _ => trivial) fun r => ?_
        match r with
        | .error e => exact .pure _
        | .ok none => exact within_requestServerDeletion hrequest _
        | .ok (some request) =>
          refine .ite (.bind (.assign fun v => hrequest v _) fun _ => .pure _) (.ite ?_ ?_)
          · exact .bind (.assign fun v => hrequest v _) fun _ => .pure _
          · exact within_requestServerDeletion hrequest _

end

end

end Capic.Cloud
