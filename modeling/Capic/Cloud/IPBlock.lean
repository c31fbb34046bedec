import Capic.Cloud.Lan

/-!
# IP blocks

`internal/service/cloud/ipblock.go`: the block of the control plane endpoint, which
belongs to the cluster, and the block of a failover group, which belongs to a
`MachineDeployment`. The second is shared by machines and handled under a lock of
its own; the first is handled by the cluster's reconciler alone.
-/

namespace Capic.Cloud

open Effect Effect.Go

variable {σ : Type}

def ipBlocksPath : String := "ipblocks"

def defaultControlPlaneEndpointPort : Int := 6443

/-- `controlPlaneEndpointIPBlockName`. -/
def controlPlaneEndpointIPBlockName (cs : ClusterScope) : String :=
  "ipb-" ++ cs.ns ++ "-" ++ cs.name

/-- `failoverIPBlockName`. -/
def failoverIPBlockName (ms : MachineScope) : String :=
  "fo-ipb-" ++ ms.ns ++ "-" ++ labelValue ms.labels machineDeploymentNameLabel

/-- `failoverIPBlockLockKey`. -/
def failoverIPBlockLockKey (ms : MachineScope) : String :=
  "fo-ipb/" ++ ms.ns ++ "/" ++ labelValue ms.labels machineDeploymentNameLabel

/-! ## Requests -/

/-- `getLatestIPBlockRequestByNameAndLocation`. -/
def getLatestIPBlockRequestByNameAndLocation (method : Method) (ipBlockName location : String) :
    Go Call Call.Ans σ (Except Err (Option RequestInfo)) :=
  getMatchingRequest .ipBlock method ipBlocksPath
    [matchByName ipBlockName,
      fun properties => deref (properties.bind (·.location)) unknownValue = location]

/-- `getLatestIPBlockDeletionRequest`. -/
def getLatestIPBlockDeletionRequest (ipBlockID : String) :
    Go Call Call.Ans σ (Except Err (Option RequestInfo)) :=
  getMatchingRequest .ipBlock .delete (Text.pathJoin [ipBlocksPath, ipBlockID]) []

/-- `getLatestControlPlaneEndpointIPBlockCreationRequest`. -/
def getLatestControlPlaneEndpointIPBlockCreationRequest (cs : ClusterScope) :
    ClusterM (Except Err (Option RequestInfo)) :=
  getLatestIPBlockRequestByNameAndLocation .post (controlPlaneEndpointIPBlockName cs) cs.location

/-- `getLocation`: the data center's location, asked for once. -/
def getLocation (ms : MachineScope) : MachineM (Except Err String) := do
  let location := (← vars).location
  if location = "" then
    match ← Client.getDatacenterLocationByID ms.datacenterID with
    | .error e => return .error (.wrap "failed to get location of datacenter: " e)
    | .ok location =>
      assign fun v => { v with location := location }
      return .ok location
  else return .ok location

/-- `getLatestFailoverIPBlockCreateRequest`. -/
def getLatestFailoverIPBlockCreateRequest (ms : MachineScope) :
    MachineM (Except Err (Option RequestInfo)) := do
  match ← getLocation ms with
  | .error e => return .error e
  | .ok location =>
    getLatestIPBlockRequestByNameAndLocation .post (failoverIPBlockName ms) location

/-! ## Looking for blocks -/

/-- `getFailoverIPBlock`. -/
def getFailoverIPBlock (ms : MachineScope) : MachineM (Except Err (Option IpBlock)) := do
  match ← Client.listIPBlocks with
  | .error e => return .error (.wrap "failed to list IP blocks: " e)
  | .ok blocks =>
    match ← getLocation ms with
    | .error e => return .error e
    | .ok location =>
      return .ok ((deref blocks []).find? fun block =>
        deref block.location "" = location ∧ deref block.name "" = failoverIPBlockName ms)

/-- `checkIfUserSetBlock`. -/
def checkIfUserSetBlock (controlPlaneEndpointIP : String) (block : IpBlock) : Bool :=
  controlPlaneEndpointIP ≠ "" ∧ controlPlaneEndpointIP ∈ deref block.ips []

/-- `getIPBlockByID`. -/
def getIPBlockByID (ipBlockID : String) : Go Call Call.Ans σ (Except Err (Option IpBlock)) :=
  if ipBlockID = "" then return .ok none
  else do
    match ← Client.getIPBlock ipBlockID with
    | .error e => return .error (.wrap "could not get IP block by ID using the API: " e)
    | .ok block => return .ok (some block)

/-- The loop of `getControlPlaneEndpointIPBlock` with what follows it: the number of
blocks of the expected name so far, the last of them, and the error to end with. -/
def findIPBlock (expectedName expectedLocation controlPlaneEndpointIP : String)
    (notFoundError : Option Err) : Nat → Option IpBlock → List IpBlock →
    Except Err (Option IpBlock)
  | count, foundBlock, [] =>
    if count = 0 ∧ controlPlaneEndpointIP ≠ "" then .error .userSetIPNotFound
    else
      match foundBlock, notFoundError with
      | some block, _ => .ok (some block)
      | none, some e => .error e
      | none, none => .ok none
  | count, foundBlock, block :: blocks =>
    if deref block.location "" ≠ expectedLocation then
      findIPBlock expectedName expectedLocation controlPlaneEndpointIP notFoundError count
        foundBlock blocks
    else if deref block.name "" = expectedName then
      if count + 1 > 1 then
        .error (.new ("cannot determine IP block for Control Plane Endpoint, as there are " ++
          "multiple IP blocks with the name " ++ expectedName))
      else
        findIPBlock expectedName expectedLocation controlPlaneEndpointIP notFoundError (count + 1)
          (some block) blocks
    else if checkIfUserSetBlock controlPlaneEndpointIP block then .ok (some block)
    else
      findIPBlock expectedName expectedLocation controlPlaneEndpointIP notFoundError count
        foundBlock blocks

/-- The block has the name and the location. -/
def isNamedBlock (name location : String) (block : IpBlock) : Bool :=
  deref block.location "" = location ∧ deref block.name "" = name

/-- The block is a user's: it has the location and the IP, but not the name. -/
def isUserSetBlock (name location ip : String) (block : IpBlock) : Bool :=
  deref block.location "" = location ∧ deref block.name "" ≠ name ∧ checkIfUserSetBlock ip block

/-- The answer of the loop by the outcome of its search. -/
def blockAnswer (name ip : String) (notFoundError : Option Err) :
    Data.Outcome IpBlock → Except Err (Option IpBlock)
  | .stopped block => .ok (some block)
  | .tooMany =>
    .error (.new ("cannot determine IP block for Control Plane Endpoint, as there are " ++
      "multiple IP blocks with the name " ++ name))
  | .ended none =>
    if ip ≠ "" then .error .userSetIPNotFound else notFoundError.elim (.ok none) .error
  | .ended (some block) => .ok (some block)

/-- The loop is a search that stops at a user's block and counts those with the name. -/
theorem findIPBlock_eq_scan {name location ip : String} {notFoundError : Option Err}
    (found : Option IpBlock) (blocks : List IpBlock) :
    findIPBlock name location ip notFoundError (if found.isSome then 1 else 0) found blocks =
      blockAnswer name ip notFoundError
        (Data.scan (isUserSetBlock name location ip) (isNamedBlock name location) found
          blocks) := by
  induction blocks generalizing found with
  | nil =>
    cases found with
    | none => cases notFoundError <;> simp [findIPBlock, Data.scan, blockAnswer]
    | some block => simp [findIPBlock, Data.scan, blockAnswer]
  | cons block blocks ih =>
    rw [findIPBlock, Data.scan_cons]
    by_cases hlocation : deref block.location "" = location
    · by_cases hname : deref block.name "" = name
      · have hnamed : isNamedBlock name location block = true := by simp [isNamedBlock, *]
        have huser : isUserSetBlock name location ip block = false := by simp [isUserSetBlock, *]
        rw [if_neg (by simpa using hlocation), if_pos hname, huser, hnamed]
        cases found with
        | some _ => simp [blockAnswer]
        | none => simpa using ih (some block)
      · have hnamed : isNamedBlock name location block = false := by simp [isNamedBlock, *]
        have huser : isUserSetBlock name location ip block = checkIfUserSetBlock ip block := by
          simp [isUserSetBlock, *]
        rw [if_neg (by simpa using hlocation), if_neg hname, huser, hnamed]
        cases hcheck : checkIfUserSetBlock ip block with
        | true => simp [blockAnswer]
        | false => simpa using ih found
    · have hnamed : isNamedBlock name location block = false := by simp [isNamedBlock, *]
      have huser : isUserSetBlock name location ip block = false := by simp [isUserSetBlock, *]
      rw [if_pos hlocation, huser, hnamed]
      simpa using ih found

/-- `getControlPlaneEndpointIPBlock` where the ID did not lead to a block. -/
def listControlPlaneEndpointIPBlock (cs : ClusterScope) (notFoundError : Option Err) :
    ClusterM (Except Err (Option IpBlock)) := do
  match ← Client.listIPBlocks with
  | .error e => return .error (.wrap "failed to list IP blocks: " e)
  | .ok blocks =>
    match ← cs.getControlPlaneEndpointIP with
    | .error e => return .error e
    | .ok ip =>
      return findIPBlock (controlPlaneEndpointIPBlockName cs) cs.location ip notFoundError 0 none
        (deref blocks [])

/-- `getControlPlaneEndpointIPBlock`. -/
def getControlPlaneEndpointIPBlock (cs : ClusterScope) :
    ClusterM (Except Err (Option IpBlock)) := do
  match ← getIPBlockByID (← vars).controlPlaneEndpointIPBlockID with
  | .ok (some block) => return .ok (some block)
  | .ok none => listControlPlaneEndpointIPBlock cs none
  | .error e =>
    if isNotFound e then listControlPlaneEndpointIPBlock cs (some e) else return .error e

/-! ## Reserving and deleting blocks -/

/-- `reserveIPBlock`. -/
def reserveIPBlock (ipBlockName location : String)
    (setRequestStatus : Method → RequestStatus → String → Go Call Call.Ans σ Unit) :
    Go Call Call.Ans σ (Option Err) := do
  match ← Client.reserveIPBlock ipBlockName location 1 with
  | .error e => return some (.wrap "failed to request the cloud for IP block reservation: " e)
  | .ok requestPath =>
    setRequestStatus .post .queued requestPath
    return none

/-- `reserveControlPlaneEndpointIPBlock`. -/
def reserveControlPlaneEndpointIPBlock (cs : ClusterScope) : ClusterM (Option Err) :=
  reserveIPBlock (controlPlaneEndpointIPBlockName cs) cs.location
    ClusterScope.setCurrentClusterRequest

/-- `reserveMachineDeploymentFailoverIPBlock`. -/
def reserveMachineDeploymentFailoverIPBlock (ms : MachineScope) : MachineM (Option Err) := do
  match ← getLocation ms with
  | .error e => return some e
  | .ok location =>
    assign fun v => { v with location := location }
    reserveIPBlock (failoverIPBlockName ms) location MachineScope.setCurrentRequest

/-- `deleteIPBlock`. -/
def deleteIPBlock (ipBlockID : String)
    (setRequestStatus : Method → RequestStatus → String → Go Call Call.Ans σ Unit) :
    Go Call Call.Ans σ (Option Err) := do
  match ← Client.deleteIPBlock ipBlockID with
  | .error e => return some (.wrap "failed to request IP block deletion: " e)
  | .ok requestPath =>
    setRequestStatus .delete .queued requestPath
    return none

/-- `deleteControlPlaneEndpointIPBlock`. -/
def deleteControlPlaneEndpointIPBlock (ipBlockID : String) : ClusterM (Option Err) :=
  deleteIPBlock ipBlockID ClusterScope.setCurrentClusterRequest

/-- `deleteFailoverIPBlock`. -/
def deleteFailoverIPBlock (ipBlockID : String) : MachineM (Option Err) :=
  deleteIPBlock ipBlockID MachineScope.setCurrentRequest

/-! ## The steps -/

/-- `ReconcileControlPlaneEndpoint` for the block that was found. -/
def adoptControlPlaneEndpointIPBlock (block : IpBlock) : ClusterM Outcome := do
  if isAvailable (getState block.state) = false then return (true, none)
  else
    if (← vars).host = "" then
      match block.ips with
      | none => panicking "nil pointer dereference"
      | some [] => panicking "index out of range [0] with length 0"
      | some (ip :: _) => assign fun v => { v with host := ip }
    assign fun v => if v.port = 0 then { v with port := defaultControlPlaneEndpointPort } else v
    match block.id with
    | none => panicking "nil pointer dereference"
    | some id =>
      ClusterScope.setControlPlaneEndpointIPBlockID id
      return (false, none)

/-- The end of it: the port and the ID. -/
def storeControlPlaneEndpointIPBlock (block : IpBlock) : ClusterM Outcome := do
  assign fun v => if v.port = 0 then { v with port := defaultControlPlaneEndpointPort } else v
  match block.id with
  | none => panicking "nil pointer dereference"
  | some id =>
    ClusterScope.setControlPlaneEndpointIPBlockID id
    return (false, none)

theorem adoptControlPlaneEndpointIPBlock_eq (block : IpBlock) :
    adoptControlPlaneEndpointIPBlock block =
      if isAvailable (getState block.state) = false then return (true, none)
      else vars >>= fun v =>
        if v.host = "" then
          match block.ips with
          | none => do
            panicking "nil pointer dereference"
            storeControlPlaneEndpointIPBlock block
          | some [] => do
            panicking "index out of range [0] with length 0"
            storeControlPlaneEndpointIPBlock block
          | some (ip :: _) => do
            assign fun v => { v with host := ip }
            storeControlPlaneEndpointIPBlock block
        else storeControlPlaneEndpointIPBlock block := rfl

/-- `ReconcileControlPlaneEndpoint`. -/
def reconcileControlPlaneEndpoint (cs : ClusterScope) : ClusterM Outcome := do
  match ← findResource (getControlPlaneEndpointIPBlock cs)
      (getLatestControlPlaneEndpointIPBlockCreationRequest cs) with
  | .error e => return (false, some e)
  | .ok (some block, _) => adoptControlPlaneEndpointIPBlock block
  | .ok (none, request) =>
    match request.filter (·.isPending) with
    | some request =>
      ClusterScope.setCurrentClusterRequest .post request.status request.location
      return (true, none)
    | none =>
      match ← reserveControlPlaneEndpointIPBlock cs with
      | some e => return (false, some e)
      | none => return (true, none)

/-- The case of no block: its creation is pending, or is requested. -/
def awaitControlPlaneEndpointIPBlock (cs : ClusterScope) (request : Option RequestInfo) :
    ClusterM Outcome := do
  match request.filter (·.isPending) with
  | some request =>
    ClusterScope.setCurrentClusterRequest .post request.status request.location
    return (true, none)
  | none =>
    match ← reserveControlPlaneEndpointIPBlock cs with
    | some e => return (false, some e)
    | none => return (true, none)

theorem reconcileControlPlaneEndpoint_eq (cs : ClusterScope) :
    reconcileControlPlaneEndpoint cs =
      (findResource (getControlPlaneEndpointIPBlock cs)
        (getLatestControlPlaneEndpointIPBlockCreationRequest cs) >>= fun r =>
        match r with
        | .error e => return (false, some e)
        | .ok (some block, _) => adoptControlPlaneEndpointIPBlock block
        | .ok (none, request) => awaitControlPlaneEndpointIPBlock cs request) := rfl

/-- `ReconcileControlPlaneEndpointDeletion` once no creation is pending. -/
def deleteFoundControlPlaneEndpointIPBlock (block : Option IpBlock) : ClusterM Outcome := do
  match block.bind (·.id) with
  | none => panicking "nil pointer dereference"
  | some id =>
    match ← getLatestIPBlockDeletionRequest id with
    | .error e => return (false, some e)
    | .ok request =>
      match request.filter (·.isPending) with
      | some request =>
        ClusterScope.setCurrentClusterRequest .delete request.status request.location
        return (true, none)
      | none =>
        match ← deleteControlPlaneEndpointIPBlock id with
        | some e => return (false, some e)
        | none => return (true, none)

/-- `ReconcileControlPlaneEndpointDeletion` for what was found. -/
def reconcileFoundControlPlaneEndpointDeletion (cs : ClusterScope) (block : Option IpBlock)
    (request : Option RequestInfo) : ClusterM Outcome := do
  if block = none ∧ request = none then
    ClusterScope.deleteCurrentClusterRequest
    return (false, none)
  else if block.any fun b => deref b.name unknownValue ≠ controlPlaneEndpointIPBlockName cs then
    return (false, none)
  else
    match request.filter (·.isPending) with
    | some request =>
      ClusterScope.setCurrentClusterRequest .post request.status request.location
      return (true, none)
    | none => deleteFoundControlPlaneEndpointIPBlock block

/-- `ReconcileControlPlaneEndpointDeletion`. -/
def reconcileControlPlaneEndpointDeletion (cs : ClusterScope) : ClusterM Outcome := do
  match ← findResource (getControlPlaneEndpointIPBlock cs)
      (getLatestControlPlaneEndpointIPBlockCreationRequest cs) with
  | .error e =>
    if isNotFound e then reconcileFoundControlPlaneEndpointDeletion cs none none
    else if e.isUserSetIPNotFound then
      ClusterScope.deleteCurrentClusterRequest
      return (false, none)
    else return (false, some e)
  | .ok (block, request) => reconcileFoundControlPlaneEndpointDeletion cs block request

/-- `shouldSkipIPBlockDeletion`. -/
def shouldSkipIPBlockDeletion (lan : Option Lan) (ipSet : List String) : Bool :=
  match lan with
  | none => false
  | some lan => (deref lan.ipFailover []).any fun c => deref c.ip unknownValue ∈ ipSet

/-- `ReconcileFailoverIPBlockDeletion` for a block whose deletion was not requested yet. -/
def deleteUnusedFailoverIPBlock (ms : MachineScope) (block : IpBlock) (id : String) :
    MachineM Outcome := do
  match ← getLAN ms with
  | .error e => return (false, some e)
  | .ok lan =>
    if shouldSkipIPBlockDeletion lan (deref block.ips []) then return (false, none)
    else return (true, ← deleteFailoverIPBlock id)

/-- `ReconcileFailoverIPBlockDeletion` for the block that was found. -/
def reconcileFoundFailoverIPBlockDeletion (ms : MachineScope) (block : IpBlock) :
    MachineM Outcome := do
  match block.id with
  | none => panicking "nil pointer dereference"
  | some id =>
    match ← getLatestIPBlockDeletionRequest id with
    | .error e => return (false, some e)
    | .ok none => deleteUnusedFailoverIPBlock ms block id
    | .ok (some request) =>
      if request.isPending then
        MachineScope.setCurrentRequest .delete .queued request.location
        return (true, none)
      else if request.isDone then
        MachineScope.deleteCurrentRequest
        return (false, none)
      else deleteUnusedFailoverIPBlock ms block id

/-- `ReconcileFailoverIPBlockDeletion` with the lock taken. -/
def reconcileFailoverIPBlockDeletionLocked (ms : MachineScope) : MachineM Outcome := do
  match ← findResource (getFailoverIPBlock ms) (getLatestFailoverIPBlockCreateRequest ms) with
  | .error e => return (false, some e)
  | .ok (block, request) =>
    match request.filter (·.isPending), block with
    | some request, _ =>
      MachineScope.setCurrentRequest .post .queued request.location
      return (true, none)
    | none, none =>
      MachineScope.deleteCurrentRequest
      return (false, none)
    | none, some block => reconcileFoundFailoverIPBlockDeletion ms block

/-- `ReconcileFailoverIPBlockDeletion`. -/
def reconcileFailoverIPBlockDeletion (ms : MachineScope) : MachineM Outcome :=
  if ms.spec.failoverIP ≠ some cloudResourceConfigAuto then return (false, none)
  else
    locked (failoverIPBlockLockKey ms) (fun e => (false, some e))
      (reconcileFailoverIPBlockDeletionLocked ms)

/-! ## Rules -/

section

variable {M : Monitor Call Call.Ans} {q : M.Phase}

/-- `getLocation` asks for the location unless it is known. -/
theorem wp_getLocation {ms : MachineScope} {s : MachineVars}
    {Q : M.Phase → Except Err String → MachineVars → Prop}
    (hknown : s.location ≠ "" → Q q (.ok s.location) s)
    (hfail : s.location = "" → ∀ e, Q q (.error e) s)
    (hok : M.ok q (.datacentersFindById ms.datacenterID))
    (herror : s.location = "" → ∀ e e', M.adm q (.datacentersFindById ms.datacenterID) (.error e) →
      Q (M.next q (.datacentersFindById ms.datacenterID) (.error e)) (.error e') s)
    (hfound : s.location = "" → ∀ l,
      M.adm q (.datacentersFindById ms.datacenterID) (.ok (some l)) →
      Q (M.next q (.datacentersFindById ms.datacenterID) (.ok (some l))) (.ok l)
        { s with location := l })
    (hpanic : M.panic (M.next q (.datacentersFindById ms.datacenterID) (.ok none))) :
    (getLocation ms).wp M Q q s := by
  unfold getLocation
  rw [wp_bind, wp_vars]
  dsimp only
  rw [wp_ite]
  split
  next hempty =>
    unfold Client.getDatacenterLocationByID
    rw [wp_bind]
    refine Client.wp_withParams (fun _ _ _ => (wp_pure _).mpr (hfail hempty _)) ?_
    rw [wp_bind, wp_perform]
    refine ⟨hok, fun a ha => ?_⟩
    match a with
    | .error e => exact (wp_pure _).mpr ((wp_pure _).mpr (herror hempty e _ ha))
    | .ok none => exact (wp_panicking _).mpr hpanic
    | .ok (some l) =>
      refine (wp_pure _).mpr ((wp_bind _ _).mpr ((wp_assign _).mpr ((wp_pure _).mpr ?_)))
      exact hfound hempty l ha
  next hne => exact (wp_pure _).mpr (hknown hne)

end

/-! ## Fixed answers -/

section

variable {cs : ClusterScope} {v : ClusterVars} {ans : ∀ c, Call.Ans c} {blocks : List IpBlock}

/-- No block is recorded, or the API knows none with the ID. -/
def NotFoundByID (v : ClusterVars) (ans : ∀ c, Call.Ans c) : Prop :=
  v.controlPlaneEndpointIPBlockID = "" ∨
    ∃ e, ans (.ipblocksFindById v.controlPlaneEndpointIPBlockID) = .error e ∧ isNotFound e = true

theorem eval_getIPBlockByID_error {id : String} {e : Err} (v : ClusterVars) (hid : id ≠ "")
    (he : ans (.ipblocksFindById id) = .error e) :
    eval ans (getIPBlockByID id) v =
      (.val (.error (.wrap "could not get IP block by ID using the API: "
        (Client.apiCallErr e))), v) := by
  have hget : eval ans (Client.getIPBlock id) v = (.val (.error (Client.apiCallErr e)), v) := by
    unfold Client.getIPBlock
    rw [Client.withParams_given (by simpa using hid), eval_bind_val (eval_perform _), he]
    rfl
  unfold getIPBlockByID
  rw [if_neg hid, eval_bind_val hget]
  rfl

/-- What is listed decides, if the ID does not lead to a block. -/
theorem eval_notFoundByID (cs : ClusterScope) (h : NotFoundByID v ans) :
    ∃ notFoundError : Option Err, (∀ e ∈ notFoundError, isNotFound e = true) ∧
      ∀ ans' : ∀ c, Call.Ans c, ans' (.ipblocksFindById v.controlPlaneEndpointIPBlockID) =
        ans (.ipblocksFindById v.controlPlaneEndpointIPBlockID) →
      eval ans' (getControlPlaneEndpointIPBlock cs) v =
        eval ans' (listControlPlaneEndpointIPBlock cs notFoundError) v := by
  unfold getControlPlaneEndpointIPBlock
  by_cases hid : v.controlPlaneEndpointIPBlockID = ""
  · refine ⟨none, fun e he => (nomatch he), fun ans' _ => ?_⟩
    have hget : eval ans' (getIPBlockByID v.controlPlaneEndpointIPBlockID) v =
        (.val (.ok none), v) := by
      unfold getIPBlockByID
      rw [if_pos hid]
      rfl
    rw [eval_bind_val eval_vars, eval_bind_val hget]
  · obtain ⟨e, he, hnotFound⟩ := h.resolve_left hid
    refine ⟨some (.wrap "could not get IP block by ID using the API: " (Client.apiCallErr e)),
      fun e' he' => ?_, fun ans' hsame => ?_⟩
    · obtain rfl := Option.some.inj he'
      exact hnotFound
    · have hget := eval_getIPBlockByID_error v hid (hsame.trans he)
      rw [eval_bind_val eval_vars, eval_bind_val hget]
      exact congrArg (eval _ · v) (if_pos hnotFound)

/-- What is made of these blocks, by the endpoint's IP. -/
def listAnswer (cs : ClusterScope) (v : ClusterVars) (notFoundError : Option Err)
    (blocks : List IpBlock) :
    Res (Except Err String) → Res (Except Err (Option IpBlock)) × ClusterVars
  | .val (.ok ip) => (.val (blockAnswer (controlPlaneEndpointIPBlockName cs) ip notFoundError
      (Data.scan (isUserSetBlock (controlPlaneEndpointIPBlockName cs) cs.location ip)
        (isNamedBlock (controlPlaneEndpointIPBlockName cs) cs.location) none blocks)), v)
  | .val (.error e) => (.val (.error e), v)
  | .panic msg => (.panic msg, v)

theorem eval_listControlPlaneEndpointIPBlock {notFoundError : Option Err}
    (h : ans .ipblocksGet = .ok (some blocks)) :
    eval ans (listControlPlaneEndpointIPBlock cs notFoundError) v =
      listAnswer cs v notFoundError blocks (eval ans cs.getControlPlaneEndpointIP v).1 := by
  have hlist : eval ans Client.listIPBlocks v = (.val (.ok (some blocks)), v) := by
    unfold Client.listIPBlocks
    rw [eval_bind_val (eval_perform _), h]
    rfl
  unfold listControlPlaneEndpointIPBlock
  rw [eval_bind_val hlist]
  show eval _ (cs.getControlPlaneEndpointIP >>= _) v = _
  rw [eval_bind, ClusterScope.eval_endpointIP_congr rfl]
  cases (eval ans cs.getControlPlaneEndpointIP v).1 with
  | panic msg => rfl
  | val r =>
    cases r with
    | error e => rfl
    | ok ip =>
      simp only [listAnswer]
      rw [← findIPBlock_eq_scan]
      rfl

end

/-- A block with the name is not a user's. -/
theorem filter_named (name location ip : String) (blocks : List IpBlock) :
    (blocks.filter fun block =>
      isNamedBlock name location block && !isUserSetBlock name location ip block) =
      blocks.filter (isNamedBlock name location) := by
  refine List.filter_congr fun block _ => ?_
  cases hnamed : isNamedBlock name location block with
  | false => rfl
  | true =>
    have hname : deref block.name "" = name := (of_decide_eq_true hnamed).2
    simp [isUserSetBlock, hname]

end Capic.Cloud
