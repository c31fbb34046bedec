import Capic.Cloud.Nic

/-!
# Failover groups

The failover part of `internal/service/cloud/network.go`. A LAN carries a list of
pairs of a failover IP and the NIC that answers for it. The list is only ever
written as a whole, with a PATCH of the LAN; what is to be written is computed from
the list that was read: `joinGroup`, `swapNIC` and `leaveGroup`.

Mirroring notes.

* The loop of `reconcileIPFailoverGroup`, and the append after it, is `joinGroup`:
  the list to be written, or `none` if there is nothing to do.
* `retrieveLANFailoverConfig` fills two variables of its caller; here it returns the
  LAN (an empty one if none was found) and the list, or the outcome to end with.
-/

namespace Capic.Cloud

open Effect Effect.Go

/-! ## What is to be written -/

/-- The NIC of an entry, as the code compares it. -/
def IPFailover.nic (entry : IPFailover) : String := deref entry.nicUuid unknownValue

/-- The IP of an entry, as the code compares it. -/
def IPFailover.addr (entry : IPFailover) : String := deref entry.ip unknownValue

/-- Only a missing value is read as the placeholder. -/
theorem eq_some_of_deref {o : Option String} {a d : String} (h : deref o d = a) (hne : a ≠ d) :
    o = some a := by
  cases o with
  | none => exact absurd h.symm hne
  | some b => exact congrArg some h

theorem IPFailover.ip_of_addr {entry : IPFailover} (h : IPFailover.addr entry ≠ unknownValue) :
    entry.ip = some (IPFailover.addr entry) :=
  eq_some_of_deref rfl h

/-- The loop of `reconcileIPFailoverGroup`. -/
def joinGroup (nicID failoverIP : String) : List IPFailover → Option (List IPFailover)
  | [] => some [⟨some failoverIP, some nicID⟩]
  | entry :: entries =>
    if IPFailover.addr entry = failoverIP ∧ IPFailover.nic entry ≠ nicID then none
    else if IPFailover.nic entry ≠ nicID then
      (joinGroup nicID failoverIP entries).map (entry :: ·)
    else if IPFailover.addr entry = failoverIP then none
    else some ({ entry with ip := some failoverIP } :: entries)

/-- `slices.IndexFunc` of the NIC, `none` for -1. -/
def nicIndex (nicID : String) (config : List IPFailover) : Option Nat :=
  config.findIdx? fun failover => IPFailover.nic failover = nicID

/-- `ipFailoverConfig[index].NicUuid = &newNICID`. -/
def swapNIC (index : Nat) (newNICID : String) (config : List IPFailover) : List IPFailover :=
  config.modify index fun entry => { entry with nicUuid := some newNICID }

/-- `slices.Delete(ipFailoverConfig, index, index+1)`. -/
def leaveGroup (index : Nat) (config : List IPFailover) : List IPFailover :=
  config.eraseIdx index

/-! ## What the edits do -/

section

variable {nicID : String} {config : List IPFailover} {index : Nat}

/-- The index is that of the first entry of the NIC. -/
theorem nicIndex_some (h : nicIndex nicID config = some index) :
    ∃ before entry after, config = before ++ entry :: after ∧ before.length = index ∧
      IPFailover.nic entry = nicID ∧ ∀ e ∈ before, IPFailover.nic e ≠ nicID := by
  unfold nicIndex at h
  obtain ⟨hlt, hentry, hbefore⟩ := List.findIdx?_eq_some_iff_getElem.mp h
  refine ⟨config.take index, config[index], config.drop (index + 1), ?_,
    List.length_take_of_le (Nat.le_of_lt hlt), by simpa using hentry, fun e he => ?_⟩
  · rw [List.getElem_cons_drop, List.take_append_drop]
  · obtain ⟨i, hi, rfl⟩ := List.mem_take_iff_getElem.mp he
    simpa using hbefore i (by omega)

/-- No index: the NIC has no entry. -/
theorem nicIndex_none (h : nicIndex nicID config = none) :
    ∀ e ∈ config, IPFailover.nic e ≠ nicID := by
  intro e he
  simpa using List.findIdx?_eq_none_iff.mp h e he

theorem leaveGroup_append (before : List IPFailover) (entry : IPFailover)
    (after : List IPFailover) :
    leaveGroup before.length (before ++ entry :: after) = before ++ after := by
  unfold leaveGroup
  rw [List.eraseIdx_append_of_length_le (Nat.le_refl _), Nat.sub_self]
  rfl

theorem swapNIC_append (newNICID : String) (before : List IPFailover) (entry : IPFailover)
    (after : List IPFailover) :
    swapNIC before.length newNICID (before ++ entry :: after) =
      before ++ { entry with nicUuid := some newNICID } :: after := by
  unfold swapNIC
  induction before with
  | nil => rfl
  | cons b before ih => exact congrArg (b :: ·) ih

/-- An edit of the list by the owner of the NIC: entries of other NICs stay. -/
def EditFor (nicID : String) (config config' : List IPFailover) : Prop :=
  ∀ entry ∈ config, entry ∉ config' → IPFailover.nic entry = nicID

/-- An entry of the NIC is replaced by others. -/
theorem EditFor.middle {entry : IPFailover} (hnic : IPFailover.nic entry = nicID)
    (before others after : List IPFailover) :
    EditFor nicID (before ++ entry :: after) (before ++ (others ++ after)) := by
  intro e he hnot
  simp only [List.mem_append, not_or] at hnot
  rcases List.mem_cons.mp ((List.mem_append.mp he).resolve_left hnot.1) with rfl | he
  · exact hnic
  · exact absurd he hnot.2.2

/-- What is written: the pair comes last, or the first entry of the NIC gets the IP. No entry
before has the NIC, or the IP. -/
theorem joinGroup_some {failoverIP : String} {config' : List IPFailover}
    (h : joinGroup nicID failoverIP config = some config') :
    ∃ before, (∀ e ∈ before, IPFailover.nic e ≠ nicID ∧ IPFailover.addr e ≠ failoverIP) ∧
      (config = before ∧ config' = before ++ [⟨some failoverIP, some nicID⟩] ∨
        ∃ entry after, config = before ++ entry :: after ∧ IPFailover.nic entry = nicID ∧
          IPFailover.addr entry ≠ failoverIP ∧
          config' = before ++ { entry with ip := some failoverIP } :: after) := by
  induction config generalizing config' with
  | nil => exact ⟨[], fun _ he => (nomatch he), .inl ⟨rfl, (Option.some.inj h).symm⟩⟩
  | cons entry entries ih =>
    rw [joinGroup] at h
    split at h
    next => exact nomatch h
    next hother =>
      split at h
      next hnic =>
        -- the entry of another NIC stays where it is
        obtain ⟨rest, hrest, rfl⟩ := Option.map_eq_some_iff.mp h
        have hentry : IPFailover.nic entry ≠ nicID ∧ IPFailover.addr entry ≠ failoverIP :=
          ⟨hnic, fun hip => hother ⟨hip, hnic⟩⟩
        obtain ⟨before, hbefore, ⟨rfl, rfl⟩ | ⟨first, after, rfl, hfirst, hip, rfl⟩⟩ := ih hrest
        · exact ⟨entry :: entries, List.forall_mem_cons.mpr ⟨hentry, hbefore⟩, .inl ⟨rfl, rfl⟩⟩
        · exact ⟨entry :: before, List.forall_mem_cons.mpr ⟨hentry, hbefore⟩,
            .inr ⟨first, after, rfl, hfirst, hip, rfl⟩⟩
      next hnic =>
        split at h
        next => exact nomatch h
        next hip =>
          exact ⟨[], fun _ he => (nomatch he), .inr ⟨entry, entries, rfl, not_not.mp hnic, hip,
            (Option.some.inj h).symm⟩⟩

/-- Nothing is to be written if the first entry of the NIC has the IP. -/
theorem joinGroup_joined {failoverIP : String} {before after : List IPFailover}
    {entry : IPFailover}
    (hbefore : ∀ e ∈ before, IPFailover.nic e ≠ nicID ∧ IPFailover.addr e ≠ failoverIP)
    (hnic : IPFailover.nic entry = nicID) (hip : IPFailover.addr entry = failoverIP) :
    joinGroup nicID failoverIP (before ++ entry :: after) = none := by
  induction before with
  | nil => simp [joinGroup, hnic, hip]
  | cons b before ih =>
    obtain ⟨hb, hbefore⟩ := List.forall_mem_cons.mp hbefore
    simp [joinGroup, hb.1, hb.2, ih hbefore]

theorem joinGroup_edit {failoverIP : String} {config' : List IPFailover}
    (h : joinGroup nicID failoverIP config = some config') : EditFor nicID config config' := by
  obtain ⟨before, -, ⟨rfl, rfl⟩ | ⟨entry, after, rfl, hnic, -, rfl⟩⟩ := joinGroup_some h
  · exact fun e he hnot => absurd (List.mem_append_left _ he) hnot
  · exact EditFor.middle hnic before [_] after

/-- Nothing is to be written only if the IP is in the group. -/
theorem joinGroup_none {failoverIP : String} (h : joinGroup nicID failoverIP config = none) :
    ∃ entry ∈ config, IPFailover.addr entry = failoverIP := by
  induction config with
  | nil => exact nomatch h
  | cons entry entries ih =>
    rw [joinGroup] at h
    split at h
    next hother => exact ⟨entry, List.mem_cons_self .., hother.1⟩
    next =>
      split at h
      next =>
        obtain ⟨entry', hmem, hip⟩ := ih (Option.map_eq_none_iff.mp h)
        exact ⟨entry', List.mem_cons_of_mem _ hmem, hip⟩
      next =>
        split at h
        next hip => exact ⟨entry, List.mem_cons_self .., hip⟩
        next => exact nomatch h

theorem leaveGroup_edit (h : nicIndex nicID config = some index) :
    EditFor nicID config (leaveGroup index config) := by
  obtain ⟨before, entry, after, rfl, rfl, hnic, _⟩ := nicIndex_some h
  rw [leaveGroup_append]
  exact EditFor.middle hnic before [] after

theorem swapNIC_edit (h : nicIndex nicID config = some index) (newNICID : String) :
    EditFor nicID config (swapNIC index newNICID config) := by
  obtain ⟨before, entry, after, rfl, rfl, hnic, _⟩ := nicIndex_some h
  rw [swapNIC_append]
  exact EditFor.middle hnic before [_] after

/-- The list has an entry of the NIC. -/
def Names (config : List IPFailover) (nicID : String) : Prop :=
  ∃ entry ∈ config, IPFailover.nic entry = nicID

theorem leaveGroup_names {nicID : String} (h : Names (leaveGroup index config) nicID) :
    Names config nicID := by
  obtain ⟨entry, hentry, hnic⟩ := h
  exact ⟨entry, List.mem_of_mem_eraseIdx hentry, hnic⟩

theorem swapNIC_names {newNICID nicID : String} (h : Names (swapNIC index newNICID config) nicID) :
    Names config nicID ∨ nicID = newNICID := by
  obtain ⟨entry, hentry, hnic⟩ := h
  obtain ⟨i, hi⟩ := List.mem_iff_getElem?.mp hentry
  unfold swapNIC at hi
  rw [List.getElem?_modify] at hi
  obtain ⟨entry', hentry', rfl⟩ := Option.map_eq_some_iff.mp hi
  by_cases heq : index = i
  · rw [if_pos heq] at hnic
    exact .inr hnic.symm
  · rw [if_neg heq] at hnic
    exact .inl ⟨entry', List.mem_of_getElem? hentry', hnic⟩

end

/-! ## Reading and writing the list -/

/-- `isLANPatchPending`. -/
def isLANPatchPending (lanID : String) (ms : MachineScope) : MachineM (Except Err Bool) := do
  match ← getLatestLANPatchRequest ms lanID with
  | .error e => return .error (.wrap "unable to check for pending LAN patch request: " e)
  | .ok ri => return .ok (ri.any (·.isPending))

/-- A LAN without any data, where none was found. -/
def noLAN : Lan := ⟨none, none, none, none, none⟩

/-- `retrieveLANFailoverConfig`. -/
def retrieveLANFailoverConfig (ms : MachineScope) :
    MachineM (Except Outcome (Lan × List IPFailover)) := do
  match ← getLAN ms with
  | .error e => return .error (true, some e)
  | .ok gotLAN =>
    let lan := deref gotLAN noLAN
    match ← isLANPatchPending (deref lan.id "") ms with
    | .error e => return .error (false, some e)
    | .ok true => return .error (true, none)
    | .ok false => return .ok (lan, deref lan.ipFailover [])

/-- `patchLAN`. -/
def patchLAN (ms : MachineScope) (lanID : String) (ipFailover : List IPFailover) :
    MachineM (Option Err) := do
  match ← Client.patchLAN ms.datacenterID lanID ipFailover with
  | .error e => return some (.wrap ("failed to patch LAN " ++ lanID ++ ": ") e)
  | .ok location =>
    MachineScope.setCurrentRequest .patch .queued location
    match ← Client.waitForRequest location with
    | .error e => return some e
    | .ok () =>
      MachineScope.deleteCurrentRequest
      return none

/-! ## Joining the group -/

/-- `reconcileIPFailoverGroup` with the lock taken. -/
def reconcileIPFailoverGroupLocked (ms : MachineScope) (nicID failoverIP : String) :
    MachineM Outcome := do
  match ← retrieveLANFailoverConfig ms with
  | .error outcome => return outcome
  | .ok (lan, config) =>
    match joinGroup nicID failoverIP config with
    | none => return (false, none)
    | some config => return (true, ← patchLAN ms (deref lan.id unknownValue) config)

/-- `reconcileIPFailoverGroup`. -/
def reconcileIPFailoverGroup (ms : MachineScope) (nicID failoverIP : String) : MachineM Outcome :=
  if nicID = "" then return (false, some (.new "nicID is empty"))
  else
    locked (lanLockKey ms) (fun e => (false, some e))
      (reconcileIPFailoverGroupLocked ms nicID failoverIP)

/-- What `retrieveFailoverIPForMachine` returns: `(requeue, failoverIP, err)`. -/
abbrev FailoverIPOutcome := Bool × String × Option Err

/-- `retrieveFailoverIPForMachine` for `AUTO`, with the lock taken. -/
def retrieveAutoFailoverIPLocked (ms : MachineScope) : MachineM FailoverIPOutcome := do
  match ← findResource (getFailoverIPBlock ms) (getLatestFailoverIPBlockCreateRequest ms) with
  | .error e => return (false, "", some e)
  | .ok (some ipBlock, _) =>
    if isAvailable (getState ipBlock.state) = false then return (true, "", none)
    else
      match ipBlock.ips with
      | none => panicking "nil pointer dereference"
      | some [] => panicking "index out of range [0] with length 0"
      | some (ip :: _) => return (false, ip, none)
  | .ok (none, info) =>
    if info.any (·.isPending) then return (true, "", none)
    else return (true, "", ← reserveMachineDeploymentFailoverIPBlock ms)

/-- `retrieveFailoverIPForMachine`. -/
def retrieveFailoverIPForMachine (ms : MachineScope) : MachineM FailoverIPOutcome := do
  if ms.isControlPlane then
    match ← onCluster ms.clusterScope.getControlPlaneEndpointIP with
    | .error e => return (false, "", some e)
    | .ok ip => return (false, ip, none)
  else
    let failoverIP := deref ms.spec.failoverIP ""
    if failoverIP = "" then
      return (false, "", some (.new ("failover IP contains an empty string. " ++
        "Provide either a valid IP address or 'AUTO'")))
    else if failoverIP = cloudResourceConfigAuto then
      locked (failoverIPBlockLockKey ms) (fun e => (false, "", some e))
        (retrieveAutoFailoverIPLocked ms)
    else return (false, failoverIP, none)

/-- `ReconcileIPFailover`. -/
def reconcileIPFailover (ms : MachineScope) : MachineM Outcome := do
  if ms.failoverRequired = false then return (false, none)
  else
    match ← retrieveFailoverIPForMachine ms with
    | (false, failoverIP, none) =>
      match ← reconcileNICConfig ms failoverIP with
      | .error e => return (false, some e)
      | .ok nic => reconcileIPFailoverGroup ms (deref nic.id "") failoverIP
    | (requeue, _, err) => return (requeue, err)

/-! ## Leaving the group -/

/-- `getServerNICID`. -/
def getServerNICID (ms : MachineScope) : MachineM (Except Err String) := do
  match ← getServer ms with
  | .error e =>
    if isNotFound e then return .ok ""
    else return .error (.wrap "unable to retrieve server " e)
  | .ok server =>
    match findPrimaryNIC ms.name server with
    | .error _ => return .ok ""
    | .ok nic => return .ok (deref nic.id "")

/-- `removeNICFromFailoverGroup` with the lock taken. -/
def removeNICFromFailoverGroupLocked (ms : MachineScope) (nicID : String) : MachineM Outcome := do
  match ← retrieveLANFailoverConfig ms with
  | .error outcome => return outcome
  | .ok (lan, config) =>
    match lan.id with
    | none => panicking "nil pointer dereference"
    | some lanID =>
      match nicIndex nicID config with
      | none => return (false, none)
      | some index => return (true, ← patchLAN ms lanID (leaveGroup index config))

/-- `removeNICFromFailoverGroup`. -/
def removeNICFromFailoverGroup (ms : MachineScope) (nicID : String) : MachineM Outcome :=
  locked (lanLockKey ms) (fun e => (false, some e)) (removeNICFromFailoverGroupLocked ms nicID)

/-- `ensureFailoverDeletion`. -/
def ensureFailoverDeletion (ms : MachineScope) : MachineM Outcome := do
  match ← getServerNICID ms with
  | .error e => return (false, some e)
  | .ok nicID =>
    if nicID = "" then return (false, none) else removeNICFromFailoverGroup ms nicID

/-- `swapNICInFailoverGroup` from where the NIC was found in the group. -/
def swapForLatest (ms : MachineScope) (matchLabels : List (String × String)) (lan : Lan)
    (config : List IPFailover) (index : Nat) : MachineM Outcome := do
  match ← ms.findLatestMachine matchLabels with
  | .error e => return (false, some e)
  | .ok none => return (false, none)
  | .ok (some machine) =>
    match ← getServerByServerID ms ms.datacenterID (extractServerID machine.providerID) with
    | .error e => return (false, some e)
    | .ok server =>
      match findPrimaryNIC machine.name server with
      | .error e => return (false, some e)
      | .ok nic =>
        let newNICID := deref nic.id ""
        if newNICID = "" then
          return (false,
            some (.new "unable to find primary NIC on server, but it was expected"))
        else
          return (true,
            ← patchLAN ms (deref lan.id unknownValue) (swapNIC index newNICID config))

/-- `swapNICInFailoverGroup` with the lock taken. -/
def swapNICInFailoverGroupLocked (ms : MachineScope) (matchLabels : List (String × String))
    (nicID : String) : MachineM Outcome := do
  match ← retrieveLANFailoverConfig ms with
  | .error outcome => return outcome
  | .ok (lan, config) =>
    match nicIndex nicID config with
    | none => return (false, none)
    | some index => swapForLatest ms matchLabels lan config index

/-- `swapNICInFailoverGroup`. -/
def swapNICInFailoverGroup (ms : MachineScope) (matchLabels : List (String × String)) :
    MachineM Outcome := do
  match ← getServerNICID ms with
  | .error e => return (false, some e)
  | .ok nicID =>
    locked (lanLockKey ms) (fun e => (false, some e))
      (swapNICInFailoverGroupLocked ms matchLabels nicID)

/-- The labels by which `ReconcileIPFailoverDeletion` finds the machines of the group. -/
def failoverMatchLabels (ms : MachineScope) : List (String × String) :=
  if ms.isControlPlane then [(machineControlPlaneLabel, "")]
  else [(machineDeploymentNameLabel, labelValue ms.labels machineDeploymentNameLabel)]

/-- `ReconcileIPFailoverDeletion`. -/
def reconcileIPFailoverDeletion (ms : MachineScope) : MachineM Outcome := do
  if ms.failoverRequired = false then return (false, none)
  else
    match ← ms.countMachines (failoverMatchLabels ms) with
    | .error e => return (false, some e)
    | .ok 0 => return (false, none)
    | .ok 1 => ensureFailoverDeletion ms
    | .ok (_ + 2) => swapNICInFailoverGroup ms (failoverMatchLabels ms)

/-! ## What a lookup of the server shows -/

/-- The server of the machine, as an answer shows it. -/
def serverSeen (machine : String) : (c : Call) → Call.Ans c → Option (Option Server)
  | .serversFindById _ _, .ok server => some (some server)
  | .serversGet _, .ok items =>
    match findServer machine (deref items []) with
    | .val server => some server
    | .panic _ => none
  | _, _ => none

/-- The ID of the primary NIC of the server, `""` if there is none. -/
def nicSeen (machine : String) (server : Option Server) : String :=
  match findPrimaryNIC machine server with
  | .error _ => ""
  | .ok nic => deref nic.id ""

theorem serverSeen_serversGet {machine dc : String} {items : Option (List Server)}
    {r : Option Server} (h : findServer machine (deref items []) = .val r) :
    serverSeen machine (.serversGet dc) (.ok items) = some r := by
  show (match findServer machine (deref items []) with
    | .val server => some server
    | .panic _ => none) = some r
  rw [h]

/-! ## Rules -/

section

variable {M : Monitor Call Call.Ans} {q : M.Phase} {s : MachineVars} {ms : MachineScope}

/-- `retrieveLANFailoverConfig` lists the LANs and asks for the newest PATCH of the one it
found, or the run is over. The phases it may leave behind satisfy `I`. -/
theorem wp_retrieveLANFailoverConfig (I : M.Phase → Prop)
    {Q : M.Phase → Except Outcome (Lan × List IPFailover) → MachineVars → Prop} (hq : I q)
    (hlist : ∀ a, M.adm q (.lansGet ms.datacenterID) a → I (M.next q (.lansGet ms.datacenterID) a))
    (hasked : ∀ q' url a, I q' → I (M.next q' (.requestsGet .patch url) a))
    (hfail : ∀ q' outcome, I q' → outcome ≠ (false, none) → Q q' (.error outcome) s)
    (hpanic : ∀ q', I q' → M.panic q') (hget : M.ok q (.lansGet ms.datacenterID))
    (hask : ∀ q' url, M.ok q' (.requestsGet .patch url))
    (hidle : ∀ lans found, M.adm q (.lansGet ms.datacenterID) (.ok (some lans)) →
      findLAN ms.spec.networkID (lanName ms.clusterScope) 0 none lans = .ok found →
      ∀ url, url = lanURL ms.datacenterID (deref (deref found noLAN).id "") → ∀ a ri,
      M.adm (M.next q (.lansGet ms.datacenterID) (.ok (some lans)))
        (.requestsGet .patch (Text.cut url "?").1) a →
      matchAnswer .lan url [] a = .val (.ok ri) → ri.any (·.isPending) = false →
      Q (M.next (M.next q (.lansGet ms.datacenterID) (.ok (some lans)))
          (.requestsGet .patch (Text.cut url "?").1) a)
        (.ok (deref found noLAN, deref (deref found noLAN).ipFailover [])) s) :
    (retrieveLANFailoverConfig ms).wp M Q q s := by
  unfold retrieveLANFailoverConfig
  rw [wp_bind]
  refine wp_getLAN (fun e _ => (wp_pure _).mpr (hfail _ _ hq (by simp))) hget
    (fun e e' ha _ => (wp_pure _).mpr (hfail _ _ (hlist _ ha) (by simp))) (fun lans hlans => ?_)
    fun ha => hpanic _ (hlist _ ha)
  have hI := hlist _ hlans
  split
  next => exact (wp_pure _).mpr (hfail _ _ hI (by simp))
  next found hfound =>
    unfold isLANPatchPending getLatestLANPatchRequest
    rw [wp_bind, wp_bind]
    refine wp_getMatchingRequest (fun e _ => ?_) (hask _ _)
      fun a ha => ⟨hpanic _ (hasked _ _ _ hI), fun r hr => ?_⟩
    · exact (wp_pure _).mpr ((wp_pure _).mpr (hfail _ _ hI (by simp)))
    · have hI' := hasked _ _ a hI
      match r with
      | .error e => exact (wp_pure _).mpr ((wp_pure _).mpr (hfail _ _ hI' (by simp)))
      | .ok ri =>
        refine (wp_pure _).mpr ?_
        cases hp : ri.any (·.isPending) with
        | true => exact (wp_pure _).mpr (hfail _ _ hI' (by simp))
        | false => exact (wp_pure _).mpr (hidle lans found hlans hfound _ rfl a ri ha hr hp)

/-- `patchLAN` sends one PATCH, and waits if it was accepted with a location. -/
theorem wp_patchLAN {lanID : String} {config : List IPFailover}
    {Q : M.Phase → Option Err → MachineVars → Prop}
    (hpatch : M.ok q (.lansPatch ms.datacenterID lanID config)) (hfail : ∀ e, Q q (some e) s)
    (hlost : ∀ a, M.adm q (.lansPatch ms.datacenterID lanID config) a →
      (∀ location, a = .ok location → location = "") →
      ∀ e, Q (M.next q (.lansPatch ms.datacenterID lanID config) a) (some e) s)
    (hwait : ∀ location q', location ≠ "" →
      M.adm q (.lansPatch ms.datacenterID lanID config) (.ok location) →
      q' = M.next q (.lansPatch ms.datacenterID lanID config) (.ok location) →
      M.ok q' (.waitForRequest location) ∧ ∀ a, M.adm q' (.waitForRequest location) a →
        ∀ r s', Q (M.next q' (.waitForRequest location) a) r s') :
    (patchLAN ms lanID config).wp M Q q s := by
  unfold patchLAN Client.patchLAN
  rw [wp_bind]
  refine Client.wp_withParams (fun _ _ _ => (wp_pure _).mpr (hfail _)) ?_
  rw [wp_bind, wp_perform]
  refine ⟨hpatch, fun a ha => ?_⟩
  rw [wp_pure]
  match a with
  | .error e => exact (wp_pure _).mpr (hlost _ ha (fun _ h => nomatch h) _)
  | .ok location =>
    by_cases hempty : location = ""
    · subst hempty
      refine (wp_pure _).mpr (hlost _ ha (fun location h => ?_) _)
      exact (Except.ok.inj h).symm
    · obtain ⟨hok, hanswer⟩ := hwait location _ hempty ha rfl
      unfold Client.located
      dsimp only
      rw [if_neg hempty]
      refine (wp_bind _ _).mpr ((wp_assign _).mpr ?_)
      rw [wp_bind]
      refine Client.wp_waitForRequest (fun h => absurd h hempty) fun _ => ⟨hok, fun a' ha' => ?_⟩
      match a' with
      | .error e => exact (wp_pure _).mpr (hanswer _ ha' _ _)
      | .ok () => exact (wp_bind _ _).mpr ((wp_assign _).mpr ((wp_pure _).mpr (hanswer _ ha' _ _)))

theorem within_getServerNICID {κ : Type} {E : Call → Prop} {keep : MachineVars → κ}
    (hkeep : ∀ v id, keep { v with providerID := id } = keep v)
    (hfind : ∀ dc id, E (.serversFindById dc id)) (hget : ∀ dc, E (.serversGet dc)) :
    Within E keep (getServerNICID ms) := by
  unfold getServerNICID
  refine .bind (within_getServer hkeep hfind hget) fun r => ?_
  cases r with
  | error e => exact .ite (.pure _) (.pure _)
  | ok server =>
    dsimp only
    split
    · exact .pure _
    · exact .pure _

end

end Capic.Cloud
