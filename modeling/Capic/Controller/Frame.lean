import Capic.Controller.Machine

/-!
# What the steps of a machine's run call and touch

One lemma for each step of `reconcileNormal` and `reconcileDelete`: the calls it makes,
as a set of its own, and that the variables other than those it works with stay as they
are, panics included. `Frame keep` says of a part `keep` of the variables that the
services' own bookkeeping is not in it: the provider ID, the current request, the data
center's location, and the cluster's map of requests.
-/

namespace Capic

open Effect Effect.Go Cloud

/-- A part of the variables without the cluster's map of requests. -/
def LeavesRequests {κ : Type} (keep : MachineVars → κ) : Prop :=
  ∀ v c, c.settled = v.cluster.settled → keep { v with cluster := c } = keep v

/-- A part of the variables without the services' bookkeeping. -/
structure Frame {κ : Type} (keep : MachineVars → κ) : Prop where
  providerID : ∀ v id, keep { v with providerID := id } = keep v
  currentRequest : ∀ v request, keep { v with currentRequest := request } = keep v
  location : ∀ v location, keep { v with location := location } = keep v
  cluster : LeavesRequests keep

/-- No part of the variables. -/
theorem unit_frame : Frame fun _ => () where
  providerID _ _ := rfl
  currentRequest _ _ := rfl
  location _ _ := rfl
  cluster _ _ _ := rfl

/-- The finalizers in memory, which no step touches. -/
theorem finalizers_frame : Frame MachineVars.finalizers where
  providerID _ _ := rfl
  currentRequest _ _ := rfl
  location _ _ := rfl
  cluster _ _ _ := rfl

/-- The services' bookkeeping leaves the network info alone. -/
theorem machineNetworkInfo_frame : Frame MachineVars.machineNetworkInfo where
  providerID _ _ := rfl
  currentRequest _ _ := rfl
  location _ _ := rfl
  cluster _ _ _ := rfl

variable {κ : Type} {keep : MachineVars → κ} {E : Call → Prop} {ms : MachineScope}

namespace Cloud

/-! ## LANs -/

theorem within_getLAN (hget : ∀ dc, E (.lansGet dc)) : Within E keep (getLAN ms) := by
  unfold getLAN Client.listLANs
  refine .bind (Client.Within.withParams (.bind (.perform (hget _)) fun _ => .pure _)) fun r => ?_
  match r with
  | .error e => exact .pure _
  | .ok none => exact .panicking _
  | .ok (some lans) => exact .pure _

/-- Calls that have nothing to do with locks. -/
def LockFree : Call → Prop
  | .lock _ | .lockBackground _ | .unlock _ => False
  | _ => True

theorem within_locked {α : Type} {key : String} {fail : Err → α} {body : MachineM α}
    (hlock : ∀ key, E (.lock key)) (hunlock : ∀ key, E (.unlock key))
    (hbody : Within E keep body) : Within E keep (locked key fail body) := by
  unfold locked
  refine .bind (.perform (hlock _)) fun r => ?_
  match r with
  | .error e => exact .pure _
  | .ok () => exact .deferring (hunlock _) hbody

/-- Calls that keep the books, among others. -/
theorem within_bookkeeping {α : Type} {p : MachineM α} (hp : Within Bookkeeping keep p)
    (hlock : ∀ key, E (.lockBackground key)) (hunlock : ∀ key, E (.unlock key))
    (hpatch : ∀ obj, E (.patchCluster obj)) : Within E keep p :=
  hp.mono fun _ hc => hc.elim hlock hunlock hpatch

theorem within_createLAN (h : LeavesRequests keep) (hpost : ∀ dc lan, E (.lansPost dc lan))
    (hlock : ∀ key, E (.lockBackground key)) (hunlock : ∀ key, E (.unlock key))
    (hpatch : ∀ obj, E (.patchCluster obj)) : Within E keep (createLAN ms) := by
  unfold createLAN Client.createLAN
  refine .bind (Client.Within.withParams (.bind (.perform (hpost _ _)) fun _ => .pure _))
    fun r => ?_
  cases r with
  | error e => exact .pure _
  | ok path =>
    refine within_bookkeeping (within_recordRequest h fun r => ?_)
      hlock hunlock hpatch
    cases r <;> exact .pure _

theorem within_deleteLAN (h : LeavesRequests keep) (lanID : String)
    (hdelete : ∀ dc id, E (.lansDelete dc id)) (hlock : ∀ key, E (.lockBackground key))
    (hunlock : ∀ key, E (.unlock key)) (hpatch : ∀ obj, E (.patchCluster obj)) :
    Within E keep (deleteLAN ms lanID) := by
  unfold deleteLAN Client.deleteLAN
  refine .bind (Client.Within.withParams (.bind (.perform (hdelete _ _)) fun _ => .pure _))
    fun r => ?_
  cases r with
  | error e => exact .pure _
  | ok path =>
    refine within_bookkeeping (within_recordRequest h fun r => ?_)
      hlock hunlock hpatch
    cases r <;> exact .pure _

/-- The calls of `ReconcileLAN`. -/
def ReconcilingLAN : Call → Prop
  | .lock _ | .unlock _ | .lansGet _ | .requestsGet .post _ | .lansPost _ _ | .lockBackground _
  | .patchCluster _ => True
  | _ => False

theorem within_reconcileLAN (h : LeavesRequests keep) :
    Within ReconcilingLAN keep (reconcileLAN ms) := by
  unfold reconcileLAN
  refine within_locked (fun _ => trivial) (fun _ => trivial) ?_
  unfold reconcileLANLocked getLatestLANCreationRequest
  refine .bind (within_findResource (within_getLAN fun _ => trivial)
    (within_getMatchingRequest fun _ => trivial)) fun r => ?_
  match r with
  | .error e => exact .pure _
  | .ok (lan, request) =>
    refine .ite (.pure _) ?_
    cases lan with
    | some lan => exact .pure _
    | none =>
      refine .bind (within_createLAN h (fun _ _ => trivial) (fun _ => trivial) (fun _ => trivial)
        fun _ => trivial) fun r => ?_
      cases r <;> exact .pure _

/-- The calls of `ReconcileLANDeletion`. -/
def DeletingLAN : Call → Prop
  | .lock _ | .unlock _ | .lansGet _ | .requestsGet _ _ | .lansDelete _ _ | .lockBackground _
  | .patchCluster _ => True
  | _ => False

theorem within_removeLANPendingRequest (h : LeavesRequests keep)
    (hlock : ∀ key, E (.lockBackground key)) (hunlock : ∀ key, E (.unlock key))
    (hpatch : ∀ obj, E (.patchCluster obj)) :
    Within E keep (removeLANPendingRequestFromCluster ms) := by
  unfold removeLANPendingRequestFromCluster
  refine .bind (within_onCluster h ?_) fun _ => .bind (within_onCluster h ?_) fun r => ?_
  · exact .bind (.perform (hlock _)) fun _ => .deferring (hunlock _) (.assign fun _ => rfl)
  · exact within_patchCluster.mono fun _ hc => hc.elim hlock hunlock hpatch
  · cases r <;> exact .pure _

theorem within_reconcileLANDeletion (h : LeavesRequests keep) :
    Within DeletingLAN keep (reconcileLANDeletion ms) := by
  unfold reconcileLANDeletion
  refine within_locked (fun _ => trivial) (fun _ => trivial) ?_
  unfold reconcileLANDeletionLocked getLatestLANCreationRequest
  refine .bind (within_findResource (within_getLAN fun _ => trivial)
    (within_getMatchingRequest fun _ => trivial)) fun r => ?_
  match r with
  | .error e => exact .pure _
  | .ok (lan, request) =>
    refine .ite (.pure _) ?_
    cases lan with
    | none =>
      refine .bind (within_removeLANPendingRequest h (fun _ => trivial) (fun _ => trivial)
        fun _ => trivial) fun r => ?_
      cases r <;> exact .pure _
    | some lan =>
      unfold reconcileFoundLANDeletion
      dsimp only
      split
      next => exact .panicking _
      next id _ =>
        unfold getLatestLANDeletionRequest
        refine .bind (within_getMatchingRequest fun _ => trivial) fun r => ?_
        cases r with
        | error e => exact .pure _
        | ok request =>
          refine .ite (.pure _) ?_
          split
          next => exact .panicking _
          next => exact .pure _
          next =>
            refine .bind (within_deleteLAN h id (fun _ _ => trivial) (fun _ => trivial)
              (fun _ => trivial) fun _ => trivial) fun r => ?_
            cases r <;> exact .pure _

/-! ## IP blocks -/

theorem within_getLocation (h : Frame keep) (hfind : ∀ dc, E (.datacentersFindById dc)) :
    Within E keep (getLocation ms) := by
  unfold getLocation
  refine .bind .vars fun v => .ite (.bind ?_ fun r => ?_) (.pure _)
  · unfold Client.getDatacenterLocationByID
    refine Client.Within.withParams (.bind (.perform (hfind _)) fun a => ?_)
    match a with
    | .error e => exact .pure _
    | .ok none => exact .panicking _
    | .ok (some location) => exact .pure _
  · cases r with
    | error e => exact .pure _
    | ok location => exact .bind (.assign fun v => h.location v _) fun _ => .pure _

theorem within_getFailoverIPBlock (h : Frame keep) (hget : E .ipblocksGet)
    (hfind : ∀ dc, E (.datacentersFindById dc)) : Within E keep (getFailoverIPBlock ms) := by
  unfold getFailoverIPBlock Client.listIPBlocks
  refine .bind (.bind (.perform hget) fun _ => .pure _) fun r => ?_
  cases r with
  | error e => exact .pure _
  | ok blocks =>
    refine .bind (within_getLocation h hfind) fun r => ?_
    cases r <;> exact .pure _

theorem within_getLatestFailoverIPBlockCreateRequest (h : Frame keep)
    (hrequests : ∀ method url, E (.requestsGet method url))
    (hfind : ∀ dc, E (.datacentersFindById dc)) :
    Within E keep (getLatestFailoverIPBlockCreateRequest ms) := by
  unfold getLatestFailoverIPBlockCreateRequest
  refine .bind (within_getLocation h hfind) fun r => ?_
  cases r with
  | error e => exact .pure _
  | ok location => exact within_getMatchingRequest fun _ => hrequests _ _

/-- The calls of `ReconcileFailoverIPBlockDeletion`. -/
def DeletingIPBlock : Call → Prop
  | .lock _ | .unlock _ | .ipblocksGet | .datacentersFindById _ | .requestsGet _ _ | .lansGet _
  | .ipblocksDelete _ => True
  | _ => False

theorem within_deleteUnusedFailoverIPBlock (h : Frame keep) (block : IpBlock) (id : String) :
    Within (fun c => DeletingIPBlock c ∧ LockFree c) keep
      (deleteUnusedFailoverIPBlock ms block id) := by
  unfold deleteUnusedFailoverIPBlock
  refine .bind (within_getLAN fun _ => ⟨trivial, trivial⟩) fun r => ?_
  cases r with
  | error e => exact .pure _
  | ok lan =>
    refine .ite (.pure _) (.bind ?_ fun _ => .pure _)
    unfold deleteFailoverIPBlock deleteIPBlock Client.deleteIPBlock
    refine .bind (Client.Within.withParams (.bind (.perform ⟨trivial, trivial⟩) fun _ => .pure _)) fun r => ?_
    cases r with
    | error e => exact .pure _
    | ok path => exact .bind (.assign fun v => h.currentRequest v _) fun _ => .pure _

theorem within_reconcileFailoverIPBlockDeletionLocked (h : Frame keep) :
    Within (fun c => DeletingIPBlock c ∧ LockFree c) keep
      (reconcileFailoverIPBlockDeletionLocked ms) := by
  unfold reconcileFailoverIPBlockDeletionLocked
  refine .bind (within_findResource (within_getFailoverIPBlock h ⟨trivial, trivial⟩ fun _ => ⟨trivial, trivial⟩)
    (within_getLatestFailoverIPBlockCreateRequest h (fun _ _ => ⟨trivial, trivial⟩)
      fun _ => ⟨trivial, trivial⟩))
    fun r => ?_
  match r with
  | .error e => exact .pure _
  | .ok (block, request) =>
    dsimp only
    split
    next => exact .bind (.assign fun v => h.currentRequest v _) fun _ => .pure _
    next => exact .bind (.assign fun v => h.currentRequest v _) fun _ => .pure _
    next =>
      unfold reconcileFoundFailoverIPBlockDeletion
      split
      next => exact .panicking _
      next id _ =>
        unfold getLatestIPBlockDeletionRequest
        refine .bind (within_getMatchingRequest fun _ => ⟨trivial, trivial⟩) fun r => ?_
        match r with
        | .error e => exact .pure _
        | .ok none => exact within_deleteUnusedFailoverIPBlock h _ id
        | .ok (some request) =>
          refine .ite (.bind (.assign fun v => h.currentRequest v _) fun _ => .pure _) (.ite ?_ ?_)
          · exact .bind (.assign fun v => h.currentRequest v _) fun _ => .pure _
          · exact within_deleteUnusedFailoverIPBlock h _ id

theorem within_reconcileFailoverIPBlockDeletion (h : Frame keep) :
    Within DeletingIPBlock keep (reconcileFailoverIPBlockDeletion ms) := by
  unfold reconcileFailoverIPBlockDeletion
  exact .ite (.pure _) (within_locked (fun _ => trivial) (fun _ => trivial)
    ((within_reconcileFailoverIPBlockDeletionLocked h).mono fun _ hc => hc.1))

/-! ## Images -/

theorem within_getImages {location : String} (hfind : ∀ id, E (.imagesFindById id))
    (ids : List String) : Within E keep (getImages location ids) := by
  induction ids with
  | nil => exact .pure _
  | cons id ids ih =>
    unfold getImages Client.getImage
    refine .bind (.bind (.perform (hfind _)) fun _ => .pure _) fun r => ?_
    cases r with
    | error e => exact .pure _
    | ok image =>
      refine .bind ih fun r => ?_
      cases r with
      | error e => exact .pure _
      | ok images => exact .ite (.pure _) (.pure _)

theorem within_imageAt (hlabels : E .labelsGet) (horder : ∀ keys, E (.mapOrder keys))
    (himage : ∀ id, E (.imagesFindById id)) (location : String) :
    Within E keep (imageAt ms location) := by
  unfold imageAt lookupImagesBySelector Client.listLabels
  refine .bind (.bind (.bind (.perform hlabels) fun a => ?_) fun r => ?_) fun r => ?_
  · match a with
    | .error e => exact .pure _
    | .ok none => exact .panicking _
    | .ok (some labels) => exact .pure _
  · cases r with
    | error e => exact .pure _
    | ok labels =>
      dsimp only
      split
      next => exact .ite (.pure _) (.panicking _)
      next => exact .bind (.perform (horder _)) fun _ => within_getImages himage _
  · cases r with
    | error e => exact .pure _
    | ok images =>
      dsimp only
      split
      next => exact .panicking _
      next => exact within_conclude _

theorem within_lookupImageID (h : Frame keep) (hlabels : E .labelsGet)
    (horder : ∀ keys, E (.mapOrder keys)) (himage : ∀ id, E (.imagesFindById id))
    (hfind : ∀ dc, E (.datacentersFindById dc)) : Within E keep (lookupImageID ms) := by
  unfold lookupImageID
  refine .ite (.pure _) (.bind (within_getLocation h hfind) fun r => ?_)
  cases r with
  | error e => exact .pure _
  | ok location => exact within_imageAt hlabels horder himage location

/-! ## Servers -/

/-- The calls of `ReconcileServer`. -/
def ReconcilingServer : Call → Prop
  | .getSecret _ _ | .serversFindById _ _ | .serversGet _ | .requestsGet .post _ | .lansGet _
  | .datacentersFindById _ | .labelsGet | .mapOrder _ | .imagesFindById _ | .serversPost _ _
  | .serversStartPost _ _ => True
  | _ => False

theorem within_postServer (h : Frame keep) (data : String) (lanID : Int) (imageID : String) :
    Within ReconcilingServer keep (postServer ms data lanID imageID) := by
  unfold postServer Client.createServer
  refine .bind .vars fun v => .bind (within_conclude _) fun nics =>
    .bind (Client.Within.withParams (.bind (.perform trivial) fun a => ?_)) fun r => ?_
  · match a with
    | .error e => exact .pure _
    | .ok (server, location) => exact .ite (.pure _) (.pure _)
  · match r with
    | .error e => exact .pure _
    | .ok (server, location) =>
      refine .bind (.assign fun v => h.currentRequest v _) fun _ => .ite (.pure _) ?_
      exact .bind (.assign fun v => h.providerID v _) fun _ => .pure _

theorem within_createServer (h : Frame keep) (secret : Secret) :
    Within ReconcilingServer keep (createServer secret ms) := by
  unfold createServer
  split
  next => exact .pure _
  next data _ =>
    refine .bind (within_getLAN fun _ => trivial) fun r => ?_
    cases r with
    | error e => exact .pure _
    | ok lan =>
      dsimp only
      split
      next => exact .pure _
      next lanID _ =>
        refine .bind (within_lookupImageID h trivial (fun _ => trivial) (fun _ => trivial)
          fun _ => trivial) fun r => ?_
        cases r with
        | error e => exact .pure _
        | ok imageID => exact within_postServer h data lanID imageID

theorem within_ensureServerAvailable (h : Frame keep)
    (hstart : ∀ dc id, E (.serversStartPost dc id)) (server : Server) :
    Within E keep (ensureServerAvailable ms server) := by
  unfold ensureServerAvailable
  refine .ite (.pure _) (.ite ?_ (.pure _))
  split
  next => exact .panicking _
  next id _ =>
    refine .bind ?_ fun _ => .pure _
    unfold startServer Client.startServer
    refine .bind (Client.Within.withParams (.bind (.perform (hstart _ _)) fun _ => .pure _))
      fun r => ?_
    cases r with
    | error e => exact .pure _
    | ok location => exact .bind (.assign fun v => h.currentRequest v _) fun _ => .pure _

theorem within_reconcileFoundServer (h : Frame keep)
    (hinfo : ∀ v info, keep { v with machineNetworkInfo := info } = keep v)
    (hstart : ∀ dc id, E (.serversStartPost dc id)) (server : Server) :
    Within E keep (reconcileFoundServer ms server) := by
  unfold reconcileFoundServer
  refine .bind (within_ensureServerAvailable h hstart server) fun r => ?_
  split
  next => exact .bind (.assign fun v => hinfo v _) fun _ => .pure _
  next => exact .pure _

theorem within_getBootstrapDataSecret (hsecret : ∀ ns name, E (.getSecret ns name)) :
    Within E keep ms.getBootstrapDataSecret := by
  unfold MachineScope.getBootstrapDataSecret
  exact .ite (.pure _) (.perform (hsecret _ _))

theorem within_reconcileServer (h : Frame keep)
    (hinfo : ∀ v info, keep { v with machineNetworkInfo := info } = keep v) :
    Within ReconcilingServer keep (reconcileServer ms) := by
  unfold reconcileServer
  refine .bind (within_getBootstrapDataSecret fun _ _ => trivial) fun r => ?_
  cases r with
  | error e => exact .ite (.pure _) (.pure _)
  | ok secret =>
    unfold getLatestServerCreationRequest
    refine .bind (within_findResource
      (within_getServer h.providerID (fun _ _ => trivial) fun _ => trivial)
      (within_getMatchingRequest fun _ => trivial)) fun r => ?_
    match r with
    | .error e => exact .pure _
    | .ok (server, request) =>
      refine .ite (.pure _) ?_
      cases server with
      | some server => exact within_reconcileFoundServer h hinfo (fun _ _ => trivial) server
      | none =>
        refine .bind (within_createServer h secret) fun r => ?_
        cases r <;> exact .pure _

section

variable {M : Monitor Call Call.Ans} {q : M.Phase} {s : MachineVars} (hpanic : ∀ q, M.panic q)
include hpanic

/-- The server that is asked for has the NICs that were built. -/
theorem wp_postServer {lanID : Int} (data imageID : String)
    (hpost : ∀ nics bootVolume, buildNICs ms s.machineNetworkInfo lanID = .val nics →
      M.ok q (.serversPost ms.datacenterID (buildServer ms bootVolume nics))) :
    (postServer ms data lanID imageID).wp M (fun _ _ _ => True) q s := by
  unfold postServer Client.createServer
  rw [wp_bind, wp_vars, wp_bind]
  cases hnics : buildNICs ms s.machineNetworkInfo lanID with
  | panic msg => exact (wp_panicking _).mpr (hpanic q)
  | val nics =>
    refine (wp_pure _).mpr ((wp_bind _ _).mpr ?_)
    refine Client.wp_withParams (fun _ _ _ => (wp_pure _).mpr trivial) ?_
    rw [wp_bind, wp_perform]
    refine ⟨hpost _ _ hnics, fun a _ => ?_⟩
    match a with
    | .error e => exact (wp_pure _).mpr ((wp_pure _).mpr trivial)
    | .ok (server, location) =>
      dsimp only
      rw [wp_ite]
      split
      next => exact (wp_pure _).mpr ((wp_pure _).mpr trivial)
      next =>
        refine (wp_pure _).mpr ((wp_bind _ _).mpr ((wp_assign _).mpr ?_))
        rw [wp_ite]
        split
        next => exact (wp_pure _).mpr trivial
        next => exact (wp_bind _ _).mpr ((wp_assign _).mpr ((wp_pure _).mpr trivial))

/-- The calls of `lookupImageID`. -/
def LookingUpImage : Call → Prop
  | .labelsGet | .mapOrder _ | .imagesFindById _ | .datacentersFindById _ => True
  | _ => False

/-- `createServer` looks the LAN up, and then the image, during which `J` holds of the LAN's
number. -/
theorem wp_createServer (h : Frame keep) (J : Int → M.Phase → κ → Prop)
    (hget : M.ok q (.lansGet ms.datacenterID))
    (hfound : ∀ lans lan n, M.adm q (.lansGet ms.datacenterID) (.ok (some lans)) →
      findLAN ms.spec.networkID (lanName ms.clusterScope) 0 none lans = .ok (some lan) →
      Text.parseInt32 (deref lan.id "invalid") = .ok n →
      J n (M.next q (.lansGet ms.datacenterID) (.ok (some lans))) (keep s))
    (hJ : ∀ n q k c, J n q k → LookingUpImage c → M.ok q c ∧ ∀ a, M.adm q c a → J n (M.next q c a) k)
    (hpost : ∀ n q s nics bootVolume, J n q (keep s) →
      buildNICs ms s.machineNetworkInfo n = .val nics →
      M.ok q (.serversPost ms.datacenterID (buildServer ms bootVolume nics)))
    (secret : Secret) : (createServer secret ms).wp M (fun _ _ _ => True) q s := by
  unfold createServer
  split
  next => exact (wp_pure _).mpr trivial
  next data _ =>
    rw [wp_bind]
    refine wp_getLAN (fun _ _ => (wp_pure _).mpr trivial) hget
      (fun _ _ _ _ => (wp_pure _).mpr trivial) (fun lans hadm => ?_) fun _ => hpanic _
    match hlan : findLAN ms.spec.networkID (lanName ms.clusterScope) 0 none lans with
    | .error e => exact (wp_pure _).mpr trivial
    | .ok none => exact (wp_pure _).mpr trivial
    | .ok (some lan) =>
      dsimp only
      split
      next => exact (wp_pure _).mpr trivial
      next n hn =>
        have himage : Within LookingUpImage keep (lookupImageID ms) :=
          within_lookupImageID h trivial (fun _ => trivial) (fun _ => trivial) fun _ => trivial
        refine (wp_bind _ _).mpr (wp_mono (himage.wp_inv (fun q' => J n q' (keep s))
          (fun q' c hq' hc => hJ n q' (keep s) c hq' hc) (fun q' _ => hpanic q')
          (hfound lans lan n hadm hlan hn)) fun q₁ r s₁ h₁ => ?_)
        cases r with
        | error e => exact (wp_pure _).mpr trivial
        | ok imageID =>
          refine wp_postServer hpanic data imageID fun nics volume hnics => ?_
          exact hpost n q₁ s₁ nics volume (h₁.2 ▸ h₁.1) hnics

/-- The calls of `ReconcileServer` before it creates a server. -/
def LookingUpServer : Call → Prop
  | .getSecret _ _ | .serversFindById _ _ | .serversGet _ | .requestsGet .post _ => True
  | _ => False

/-- `ReconcileServer` looks the server up, during which `I` holds, and creates it if there is none. -/
theorem wp_reconcileServer (h : Frame keep) (I : M.Phase → κ → Prop)
    (hI : ∀ q k c, I q k → LookingUpServer c → M.ok q c ∧ ∀ a, M.adm q c a → I (M.next q c a) k)
    (hstart : ∀ q dc id, M.ok q (.serversStartPost dc id))
    (hcreate : ∀ secret q s, I q (keep s) →
      (createServer secret ms).wp M (fun _ _ _ => True) q s)
    (hq : I q (keep s)) : (reconcileServer ms).wp M (fun _ _ _ => True) q s := by
  -- what does not create a server keeps `I`
  have hlook : ∀ {α : Type} {p : MachineM α} {q s}, Within LookingUpServer keep p → I q (keep s) →
      p.wp M (fun q' _ s' => I q' (keep s')) q s := by
    intro α p q s hp hq
    refine wp_mono (hp.wp_inv (fun q' => I q' (keep s)) (fun q' c hq' hc => hI q' (keep s) c hq' hc)
      (fun q' _ => hpanic q') hq) fun q' _ s' h' => ?_
    rw [h'.2]
    exact h'.1
  unfold reconcileServer
  refine (wp_bind _ _).mpr (wp_mono (hlook (within_getBootstrapDataSecret fun _ _ => trivial) hq)
    fun q₁ r s₁ hq₁ => ?_)
  cases r with
  | error e =>
    dsimp only
    rw [wp_ite]
    split <;> exact (wp_pure _).mpr trivial
  | ok secret =>
    unfold getLatestServerCreationRequest
    refine (wp_bind _ _).mpr (wp_mono (hlook (within_findResource
      (within_getServer h.providerID (fun _ _ => trivial) fun _ => trivial)
      (within_getMatchingRequest fun _ => trivial)) hq₁) fun q₂ r s₂ hq₂ => ?_)
    match r with
    | .error e => exact (wp_pure _).mpr trivial
    | .ok (server, request) =>
      dsimp only
      rw [wp_ite]
      split
      next => exact (wp_pure _).mpr trivial
      next =>
        cases server with
        | some server =>
          have hfound : Within (fun c => ∃ dc id, c = .serversStartPost dc id) (fun _ => ())
              (reconcileFoundServer ms server) :=
            within_reconcileFoundServer ⟨fun _ _ => rfl, fun _ _ => rfl, fun _ _ => rfl,
              fun _ _ _ => rfl⟩ (fun _ _ => rfl) (fun dc id => ⟨dc, id, rfl⟩) server
          refine hfound.wp_of_ok (fun q c hc => ?_) hpanic
          obtain ⟨dc, id, rfl⟩ := hc
          exact hstart q dc id
        | none =>
          refine (wp_bind _ _).mpr (wp_mono (hcreate secret q₂ s₂ hq₂) fun q₃ r s₃ _ => ?_)
          cases r <;> exact (wp_pure _).mpr trivial

end

/-! ## Failover -/

/-- The calls of `ReconcileIPFailover`. -/
def ReconcilingFailover : Call → Prop
  | .lookupNetIP _ | .lock _ | .unlock _ | .ipblocksGet | .datacentersFindById _ | .requestsGet _ _
  | .ipblocksPost _ _ _ | .serversFindById _ _ | .serversGet _ | .nicsPatch _ _ _ _
  | .waitForRequest _ | .lansGet _ | .lansPatch _ _ _ => True
  | _ => False

theorem within_waitForRequest (hwait : ∀ url, E (.waitForRequest url)) (url : String) :
    Within E keep (Client.waitForRequest url) := by
  unfold Client.waitForRequest
  exact Client.Within.withParams (.bind (.perform (hwait _)) fun _ => .pure _)

theorem within_retrieveAutoFailoverIPLocked (h : Frame keep) :
    Within (fun c => ReconcilingFailover c ∧ LockFree c) keep (retrieveAutoFailoverIPLocked ms) := by
  unfold retrieveAutoFailoverIPLocked
  refine .bind (within_findResource (within_getFailoverIPBlock h ⟨trivial, trivial⟩ fun _ => ⟨trivial, trivial⟩)
    (within_getLatestFailoverIPBlockCreateRequest h (fun _ _ => ⟨trivial, trivial⟩)
      fun _ => ⟨trivial, trivial⟩))
    fun r => ?_
  match r with
  | .error e => exact .pure _
  | .ok (some block, _) =>
    refine .ite (.pure _) ?_
    split
    next => exact .panicking _
    next => exact .panicking _
    next => exact .pure _
  | .ok (none, info) =>
    refine .ite (.pure _) (.bind ?_ fun _ => .pure _)
    unfold reserveMachineDeploymentFailoverIPBlock
    refine .bind (within_getLocation h fun _ => ⟨trivial, trivial⟩) fun r => ?_
    cases r with
    | error e => exact .pure _
    | ok location =>
      refine .bind (.assign fun v => h.location v _) fun _ => ?_
      unfold reserveIPBlock Client.reserveIPBlock
      refine .bind ?_ fun r => ?_
      · exact .ite (.pure _) (.ite (.pure _) (.ite (.pure _)
          (.bind (.perform ⟨trivial, trivial⟩) fun _ => .pure _)))
      · cases r with
        | error e => exact .pure _
        | ok path => exact .bind (.assign fun v => h.currentRequest v _) fun _ => .pure _

theorem within_retrieveFailoverIPForMachine (h : Frame keep) :
    Within ReconcilingFailover keep (retrieveFailoverIPForMachine ms) := by
  unfold retrieveFailoverIPForMachine
  refine .ite (.bind ?_ fun r => by cases r <;> exact .pure _) (.ite (.pure _) (.ite ?_ (.pure _)))
  · exact within_onCluster h.cluster
      ((within_getControlPlaneEndpointIP _).mono fun _ hc => hc.elim fun _ => trivial)
  exact within_locked (fun _ => trivial) (fun _ => trivial)
    ((within_retrieveAutoFailoverIPLocked h).mono fun _ hc => hc.1)

theorem within_addFailoverIP (h : Frame keep) (ip serverID : String) (nic : Nic) :
    Within (fun c => ReconcilingFailover c ∧ LockFree c) keep (addFailoverIP ms ip serverID nic) := by
  unfold addFailoverIP getLatestNICPatchRequest
  refine .bind (within_getMatchingRequest fun _ => ⟨trivial, trivial⟩) fun r => ?_
  cases r with
  | error e => exact .pure _
  | ok ri =>
    dsimp only
    split
    next ri _ =>
      refine .bind (within_waitForRequest (fun _ => ⟨trivial, trivial⟩) _) fun r => ?_
      cases r <;> exact .pure _
    next =>
      refine .bind ?_ fun r => ?_
      · unfold patchNIC Client.patchNIC
        refine .bind (Client.Within.withParams (.bind (.perform ⟨trivial, trivial⟩) fun _ => .pure _))
          fun r => ?_
        cases r with
        | error e => exact .pure _
        | ok location =>
          exact .bind (.assign fun v => h.currentRequest v _) fun _ =>
            .bind (within_waitForRequest (fun _ => ⟨trivial, trivial⟩) _) fun _ => .pure _
      · cases r with
        | some e => exact .pure _
        | none => exact .bind (.assign fun v => h.currentRequest v _) fun _ => .pure _

theorem within_reconcileNICConfig (h : Frame keep) (ip : String) :
    Within (fun c => ReconcilingFailover c ∧ LockFree c) keep (reconcileNICConfig ms ip) := by
  unfold reconcileNICConfig
  refine .bind (within_getServer h.providerID (fun _ _ => ⟨trivial, trivial⟩) fun _ => ⟨trivial, trivial⟩) fun r => ?_
  cases r with
  | error e => exact .pure _
  | ok server =>
    dsimp only
    split
    next => exact .pure _
    next nic _ => exact .ite (.pure _) (within_addFailoverIP h ip _ nic)

theorem within_retrieveLANFailoverConfig (hget : ∀ dc, E (.lansGet dc))
    (hrequests : ∀ method url, E (.requestsGet method url)) :
    Within E keep (retrieveLANFailoverConfig ms) := by
  unfold retrieveLANFailoverConfig isLANPatchPending getLatestLANPatchRequest
  refine .bind (within_getLAN hget) fun r => ?_
  cases r with
  | error e => exact .pure _
  | ok lan =>
    refine .bind (.bind (within_getMatchingRequest fun _ => hrequests _ _) fun r => ?_) fun r => ?_
    · cases r <;> exact .pure _
    · match r with
      | .error e => exact .pure _
      | .ok true => exact .pure _
      | .ok false => exact .pure _

theorem within_patchLAN (hrequest : ∀ v request, keep { v with currentRequest := request } = keep v)
    (hpatch : ∀ dc id body, E (.lansPatch dc id body))
    (hwait : ∀ url, E (.waitForRequest url)) (lanID : String) (config : List IPFailover) :
    Within E keep (patchLAN ms lanID config) := by
  unfold patchLAN Client.patchLAN
  refine .bind (Client.Within.withParams (.bind (.perform (hpatch _ _ _)) fun _ => .pure _))
    fun r => ?_
  cases r with
  | error e => exact .pure _
  | ok location =>
    refine .bind (.assign fun v => hrequest v _) fun _ =>
      .bind (within_waitForRequest hwait _) fun r => ?_
    cases r with
    | error e => exact .pure _
    | ok _ => exact .bind (.assign fun v => hrequest v _) fun _ => .pure _

theorem within_reconcileIPFailoverGroupLocked (h : Frame keep) (nicID ip : String) :
    Within (fun c => ReconcilingFailover c ∧ LockFree c) keep
      (reconcileIPFailoverGroupLocked ms nicID ip) := by
  unfold reconcileIPFailoverGroupLocked
  refine .bind (within_retrieveLANFailoverConfig (fun _ => ⟨trivial, trivial⟩) fun _ _ => ⟨trivial, trivial⟩) fun r => ?_
  match r with
  | .error outcome => exact .pure _
  | .ok (lan, config) =>
    dsimp only
    split
    next => exact .pure _
    next =>
      exact .bind (within_patchLAN h.currentRequest (fun _ _ _ => ⟨trivial, trivial⟩)
        (fun _ => ⟨trivial, trivial⟩) _ _) fun _ => .pure _

theorem within_reconcileIPFailoverGroup (h : Frame keep) (nicID ip : String) :
    Within ReconcilingFailover keep (reconcileIPFailoverGroup ms nicID ip) := by
  unfold reconcileIPFailoverGroup
  exact .ite (.pure _) (within_locked (fun _ => trivial) (fun _ => trivial)
    ((within_reconcileIPFailoverGroupLocked h nicID ip).mono fun _ hc => hc.1))

theorem within_reconcileIPFailover (h : Frame keep) :
    Within ReconcilingFailover keep (reconcileIPFailover ms) := by
  unfold reconcileIPFailover
  refine .ite (.pure _) (.bind (within_retrieveFailoverIPForMachine h) fun r => ?_)
  split
  next ip =>
    refine .bind ((within_reconcileNICConfig h ip).mono fun _ hc => hc.1) fun r => ?_
    cases r with
    | error e => exact .pure _
    | ok nic => exact within_reconcileIPFailoverGroup h _ ip
  next => exact .pure _

/-- The calls of `ReconcileIPFailoverDeletion`. -/
def DeletingFailover : Call → Prop
  | .listMachines _ _ | .serversFindById _ _ | .serversGet _ | .lock _ | .unlock _ | .lansGet _
  | .requestsGet _ _ | .lansPatch _ _ _ | .waitForRequest _ => True
  | _ => False

theorem within_removeNICFromFailoverGroupLocked
    (hrequest : ∀ v request, keep { v with currentRequest := request } = keep v) (nicID : String) :
    Within (fun c => DeletingFailover c ∧ LockFree c) keep
      (removeNICFromFailoverGroupLocked ms nicID) := by
  unfold removeNICFromFailoverGroupLocked
  refine .bind (within_retrieveLANFailoverConfig (fun _ => ⟨trivial, trivial⟩) fun _ _ => ⟨trivial, trivial⟩) fun r => ?_
  match r with
  | .error outcome => exact .pure _
  | .ok (lan, config) =>
    dsimp only
    split
    next => exact .panicking _
    next =>
      split
      next => exact .pure _
      next =>
        exact .bind (within_patchLAN hrequest (fun _ _ _ => ⟨trivial, trivial⟩)
          (fun _ => ⟨trivial, trivial⟩) _ _) fun _ => .pure _

theorem within_removeNICFromFailoverGroup
    (hrequest : ∀ v request, keep { v with currentRequest := request } = keep v) (nicID : String) :
    Within DeletingFailover keep (removeNICFromFailoverGroup ms nicID) := by
  unfold removeNICFromFailoverGroup
  exact within_locked (fun _ => trivial) (fun _ => trivial)
    ((within_removeNICFromFailoverGroupLocked hrequest nicID).mono fun _ hc => hc.1)

theorem within_swapForLatest
    (hrequest : ∀ v request, keep { v with currentRequest := request } = keep v)
    (labels : List (String × String)) (lan : Lan) (config : List IPFailover) (index : Nat) :
    Within (fun c => DeletingFailover c ∧ LockFree c) keep
      (swapForLatest ms labels lan config index) := by
  unfold swapForLatest MachineScope.findLatestMachine ClusterScope.listMachines
  refine .bind (.bind (.perform ⟨trivial, trivial⟩) fun _ => .pure _) fun r => ?_
  match r with
  | .error e => exact .pure _
  | .ok none => exact .pure _
  | .ok (some machine) =>
    refine .bind (within_getServerByServerID fun _ _ => ⟨trivial, trivial⟩) fun r => ?_
    cases r with
    | error e => exact .pure _
    | ok server =>
      dsimp only
      split
      next => exact .pure _
      next =>
        exact .ite (.pure _)
          (.bind (within_patchLAN hrequest (fun _ _ _ => ⟨trivial, trivial⟩)
            (fun _ => ⟨trivial, trivial⟩) _ _) fun _ => .pure _)

theorem within_swapNICInFailoverGroupLocked
    (hrequest : ∀ v request, keep { v with currentRequest := request } = keep v)
    (labels : List (String × String)) (nicID : String) :
    Within (fun c => DeletingFailover c ∧ LockFree c) keep
      (swapNICInFailoverGroupLocked ms labels nicID) := by
  unfold swapNICInFailoverGroupLocked
  refine .bind (within_retrieveLANFailoverConfig (fun _ => ⟨trivial, trivial⟩) fun _ _ => ⟨trivial, trivial⟩) fun r => ?_
  match r with
  | .error outcome => exact .pure _
  | .ok (lan, config) =>
    dsimp only
    split
    next => exact .pure _
    next index _ => exact within_swapForLatest hrequest labels lan config index

theorem within_swapNICInFailoverGroup (h : Frame keep) (labels : List (String × String)) :
    Within DeletingFailover keep (swapNICInFailoverGroup ms labels) := by
  unfold swapNICInFailoverGroup
  refine .bind (within_getServerNICID h.providerID (fun _ _ => trivial) fun _ => trivial) fun r => ?_
  cases r with
  | error e => exact .pure _
  | ok nicID =>
    exact within_locked (fun _ => trivial) (fun _ => trivial)
      ((within_swapNICInFailoverGroupLocked h.currentRequest labels nicID).mono fun _ hc => hc.1)

theorem within_reconcileIPFailoverDeletion (h : Frame keep) :
    Within DeletingFailover keep (reconcileIPFailoverDeletion ms) := by
  unfold reconcileIPFailoverDeletion MachineScope.countMachines ClusterScope.listMachines
  refine .ite (.pure _) (.bind (.bind (.perform trivial) fun _ => .pure _) fun r => ?_)
  match r with
  | .error e => exact .pure _
  | .ok 0 => exact .pure _
  | .ok 1 =>
    unfold ensureFailoverDeletion
    refine .bind (within_getServerNICID h.providerID (fun _ _ => trivial) fun _ => trivial) fun r => ?_
    cases r with
    | error e => exact .pure _
    | ok nicID => exact .ite (.pure _) (within_removeNICFromFailoverGroup h.currentRequest nicID)
  | .ok (_ + 2) => exact within_swapNICInFailoverGroup h _

end Cloud

/-! ## IP addresses -/

namespace K8s

theorem within_poolAddresses {nic : String} {suffix : Family} {poolRef : Option PoolRef}
    (hclaim : poolRef.isSome = true → E (.getIPAddressClaim ms.ns (claimName nic suffix)))
    (hcreate : poolRef.isSome = true → ∀ claim : DesiredClaim, claim.ns = ms.ns →
      claim.name = claimName nic suffix → E (.createOrUpdateIPAddressClaim claim))
    (haddress : ∀ name, E (.getIPAddress ms.ns name)) :
    Within E keep (poolAddresses ms nic suffix poolRef) := by
  unfold poolAddresses
  cases poolRef with
  | none => exact .pure _
  | some pool =>
    have hclaim := hclaim rfl
    refine .bind ?_ fun r => ?_
    · unfold handleIPAddressForNIC
      refine .bind (.perform hclaim) fun r => ?_
      match r with
      | .error e =>
        refine .ite (.pure _) (.bind ?_ fun r => by cases r <;> exact .pure _)
        unfold createIPAddressClaim
        refine .bind (.perform hclaim) fun r => ?_
        match r with
        | .ok _ => exact .pure _
        | .error e =>
          refine .ite (.pure _) (.ite (.pure _) (.bind (.perform ?_) fun _ => .pure _))
          exact hcreate rfl _ rfl rfl
      | .ok claim =>
        refine .ite (.pure _) (.bind (.perform (haddress _)) fun r => ?_)
        match r with
        | .error e => exact .pure _
        | .ok ip => exact .pure _
    · cases r with
      | error e => exact .pure _
      | ok ip => exact .ite (.pure _) (.pure _)

section

variable (hpool : ∀ nic ∈ nics ms, ∀ f, Within E keep (poolAddresses ms nic.1 f (poolRefOf nic.2 f)))
include hpool

theorem within_handleNIC {nic : String × IPAMConfig} (hnic : nic ∈ nics ms) (primary : Bool)
    (fail4 fail6 : Err → Err) : Within E keep (handleNIC ms nic.1 nic.2 primary fail4 fail6) := by
  unfold handleNIC
  refine .bind (hpool nic hnic .ipv4) fun r => ?_
  match r with
  | .error e => exact .pure _
  | .ok (wait4, ipv4) =>
    refine .bind (hpool nic hnic .ipv6) fun r => ?_
    match r with
    | .error e => exact .pure _
    | .ok (wait6, ipv6) => exact .pure _

theorem within_handlePrimaryNIC : Within E keep (handlePrimaryNIC ms) :=
  within_handleNIC hpool (List.mem_cons_self ..) true id id

theorem within_handleAdditionalNICs {nets : List Network}
    (hnets : ∀ net ∈ nets, net ∈ ms.spec.additionalNetworks) :
    Within E keep (handleAdditionalNICs ms nets) := by
  induction nets with
  | nil => exact .pure _
  | cons net nets ih =>
    have hnic : (additionalNIC ms.name net.networkID, net.ipam) ∈ nics ms :=
      List.mem_cons_of_mem _ (List.mem_map_of_mem (hnets net (List.mem_cons_self ..)))
    unfold handleAdditionalNICs
    rw [handleAdditionalNIC_eq]
    refine .bind (within_handleNIC hpool hnic false _ _) fun r => ?_
    match r with
    | .error e => exact .pure _
    | .ok (wait, nic) =>
      refine .bind (ih fun net' hnet => hnets net' (List.mem_cons_of_mem _ hnet)) fun r => ?_
      match r with
      | .error e => exact .pure _
      | .ok (waitRest, nics) => exact .pure _

/-- `ReconcileIPAddresses` is within the calls its pool references are within. -/
theorem within_reconcileIPAddresses_of
    (hinfo : ∀ v info, keep { v with machineNetworkInfo := info } = keep v) :
    Within E keep (reconcileIPAddresses ms) := by
  unfold reconcileIPAddresses
  refine .bind (within_handlePrimaryNIC hpool) fun r => ?_
  match r with
  | .error e => exact .pure _
  | .ok (requeue, nic) =>
    refine .bind (within_handleAdditionalNICs hpool fun _ hnet => hnet) fun r => ?_
    match r with
    | .error e => exact .pure _
    | .ok (wait, nics) => exact .bind (.assign fun v => hinfo v _) fun _ => .pure _

end

/-- The calls of `ReconcileIPAddresses`. -/
def ReconcilingClaims : Call → Prop
  | .getIPAddressClaim _ _ | .createOrUpdateIPAddressClaim _ | .getIPAddress _ _ => True
  | _ => False

theorem within_reconcileIPAddresses
    (hinfo : ∀ v info, keep { v with machineNetworkInfo := info } = keep v) :
    Within ReconcilingClaims keep (reconcileIPAddresses ms) :=
  within_reconcileIPAddresses_of (fun _ _ _ => within_poolAddresses (fun _ => trivial)
    (fun _ _ _ _ => trivial) fun _ => trivial) hinfo

/-- The calls of `ReconcileIPAddressClaimsDeletion`. -/
def ReleasingClaims : Call → Prop
  | .getIPAddressClaim _ _ | .updateIPAddressClaim _ => True
  | _ => False

theorem within_reconcileIPAddressClaimsDeletion :
    Within ReleasingClaims keep (reconcileIPAddressClaimsDeletion ms) := by
  unfold reconcileIPAddressClaimsDeletion
  induction claimNames ms with
  | nil => exact .pure _
  | cons name names ih =>
    unfold releaseClaims
    refine .bind ?_ fun r => ?_
    · unfold releaseClaim
      refine .bind (.perform trivial) fun r => ?_
      match r with
      | .error e => exact .ite (.pure _) (.pure _)
      | .ok claim =>
        dsimp only
        split
        next => exact .pure _
        next => exact .bind (.perform trivial) fun _ => .pure _
    · cases r with
      | some e => exact .pure _
      | none => exact ih

end K8s

/-! ## Requests in flight -/

namespace Controller.Machine

/-- The calls of `checkRequestStates`, but for the patch of the machine. -/
def AwaitingRequests : Call → Prop
  | .lockBackground _ | .unlock _ | .getRequestStatus _ | .patchCluster _ => True
  | _ => False

theorem within_getRequestStatus {σ : Type} {keep : σ → κ}
    (hstatus : ∀ url, E (.getRequestStatus url)) (url : String) :
    Within E keep (getRequestStatus url : Go Call Call.Ans σ _) := by
  unfold getRequestStatus Client.checkRequestStatus
  refine .bind (Client.Within.withParams (.bind (.perform (hstatus _)) fun _ => .pure _))
    fun r => ?_
  cases r with
  | error e => exact .pure _
  | ok info =>
    dsimp only
    split
    · exact .pure _
    · exact .pure _

theorem within_withStatus {σ : Type} {keep : σ → κ} {status : RequestStatus}
    {callback : Go Call Call.Ans σ (Option Err)} (h : Within E keep callback) :
    Within E keep (withStatus status callback) := by
  unfold withStatus
  split
  · exact .pure _
  · exact .pure _
  · exact .bind h fun _ => .pure _
  · exact .bind h fun _ => .pure _
  · exact .pure _

theorem within_checkDatacenterRequest (h : LeavesRequests keep) :
    Within AwaitingRequests keep (checkDatacenterRequest ms) := by
  unfold checkDatacenterRequest
  refine .bind (within_onCluster h ?_) fun r => ?_
  · exact .bind (.perform trivial) fun _ => .deferring trivial (.bind .vars fun _ => .pure _)
  cases r with
  | none => exact .pure _
  | some req =>
    refine .bind (within_getRequestStatus (fun _ => trivial) _) fun r => ?_
    match r with
    | .error e => exact .pure _
    | .ok (status, _) =>
      refine within_withStatus (.bind (within_onCluster h ?_) fun _ => ?_)
      · exact .bind (.perform trivial) fun _ => .deferring trivial (.assign fun _ => rfl)
      · exact within_onCluster h
          (within_patchCluster.mono fun _ hc => hc.elim (fun _ => trivial) (fun _ => trivial)
            fun _ => trivial)

/-- `checkRequestStates` asks for requests, and may store the machine with what is kept. -/
theorem wp_checkRequestStates {M : Monitor Call Call.Ans} {q : M.Phase} {s : MachineVars}
    (I : M.Phase → Prop) (h : LeavesRequests keep)
    (hrequest : ∀ v request, keep { v with currentRequest := request } = keep v)
    (hE : ∀ q c, I q → AwaitingRequests c → M.ok q c ∧ ∀ a, M.adm q c a → I (M.next q c a))
    (hpatch : ∀ q obj, I q → keep obj = keep s → M.ok q (.patchMachine obj) ∧
      ∀ a, M.adm q (.patchMachine obj) a → I (M.next q (.patchMachine obj) a))
    (hpanic : ∀ q, I q → M.panic q) (hq : I q) :
    (checkRequestStates ms).wp M (fun q' _ s' => I q' ∧ keep s' = keep s) q s := by
  unfold checkRequestStates
  refine (wp_bind _ _).mpr (wp_mono ((within_checkDatacenterRequest h).wp_inv I hE hpanic hq)
    fun q₁ r₁ s₁ h₁ => (wp_bind _ _).mpr (wp_vars.mpr ?_))
  obtain ⟨hq₁, hs₁⟩ := h₁
  split
  next => exact (wp_pure _).mpr ⟨hq₁, hs₁⟩
  next req _ =>
    have hasked : Within AwaitingRequests keep (getRequestStatus req.requestPath) :=
      within_getRequestStatus (fun _ => trivial) _
    refine (wp_bind _ _).mpr (wp_mono (hasked.wp_inv I hE hpanic hq₁) fun q₂ r₂ s₂ h₂ => ?_)
    obtain ⟨hq₂, hs₂⟩ := h₂
    have hs₂' : keep s₂ = keep s := hs₂.trans hs₁
    match r₂ with
    | .error e => exact (wp_pure _).mpr ⟨hq₂, hs₂'⟩
    | .ok (status, _) =>
      have hstatus : Within AwaitingRequests keep (withStatus status do
          MachineScope.deleteCurrentRequest
          return none) :=
        within_withStatus (.bind (.assign fun v => hrequest v _) fun _ => .pure _)
      refine (wp_bind _ _).mpr (wp_mono (hstatus.wp_inv I hE hpanic hq₂) fun q₃ r₃ s₃ h₃ => ?_)
      obtain ⟨hq₃, hs₃⟩ := h₃
      have hs₃' : keep s₃ = keep s := hs₃.trans hs₂'
      dsimp only
      rw [wp_ite]
      split
      next =>
        unfold MachineScope.patchObject
        rw [wp_bind, wp_bind, wp_vars, wp_bind, wp_perform]
        obtain ⟨hok, hnext⟩ := hpatch q₃ s₃ hq₃ hs₃'
        exact ⟨hok, fun a ha => (wp_pure _).mpr ((wp_pure _).mpr ⟨hnext a ha, hs₃'⟩)⟩
      next => exact (wp_pure _).mpr ⟨hq₃, hs₃'⟩

/-- The calls of `checkRequestStates`. -/
def CheckingRequests : Call → Prop
  | .lockBackground _ | .unlock _ | .getRequestStatus _ | .patchCluster _ | .patchMachine _ => True
  | _ => False

theorem within_checkRequestStates (h : LeavesRequests keep)
    (hrequest : ∀ v request, keep { v with currentRequest := request } = keep v) :
    Within CheckingRequests keep (checkRequestStates ms) := by
  unfold checkRequestStates
  refine .bind ((within_checkDatacenterRequest h).mono fun c hc => ?_) fun r => .bind .vars
    fun v => ?_
  · cases c with
    | lockBackground _ => trivial
    | unlock _ => trivial
    | getRequestStatus _ => trivial
    | patchCluster _ => trivial
    | _ => exact False.elim hc
  split
  next => exact .pure _
  next req _ =>
    refine .bind (within_getRequestStatus (fun _ => trivial) _) fun r => ?_
    match r with
    | .error e => exact .pure _
    | .ok (status, _) =>
      refine .bind (within_withStatus (.bind (.assign fun v => hrequest v _) fun _ => .pure _))
        fun r => .ite (.bind ?_ fun _ => .pure _) (.pure _)
      exact .bind .vars fun _ => .bind (.perform trivial) fun _ => .pure _

theorem within_setProvisioningCondition (hcondition : ∀ v c, keep { v with conditions := c } = keep v)
    (err : Option Err) : Within E keep (setProvisioningCondition ms err) := by
  refine .bind .vars fun v => .ite (.pure _) ?_
  cases err with
  | none => exact .assign fun v => hcondition v _
  | some e => exact .assign fun v => hcondition v _

theorem within_isInfrastructureReady (hcondition : ∀ v c, keep { v with conditions := c } = keep v) :
    Within E keep (isInfrastructureReady ms) := by
  unfold isInfrastructureReady
  refine .ite ?_ (.ite ?_ (.pure _))
  · exact .bind (.assign fun v => hcondition v _) fun _ => .pure _
  · exact .bind (.assign fun v => hcondition v _) fun _ => .pure _

/-- `reconcileNormal` from its steps on. -/
def fromSteps (ms : MachineScope) : MachineM (Result × Option Err) := do
  match ← runSteps (fun e => setProvisioningCondition ms (some e)) (normalSequence ms) with
  | some outcome => return outcome
  | none => return (⟨0⟩, none)

/-- The run of `reconcileNormal` gets to its steps. -/
def ReachesSteps (ms : MachineScope) (v : MachineVars) (tr : List (Event Call Call.Ans))
    (v₁ : MachineVars) : Prop :=
  (reconcileNormal ms v).Reaches tr (fromSteps ms v₁)

theorem fromSteps_inv {v v' : MachineVars} {tr : List (Event Call Call.Ans)}
    {r : Res (Result × Option Err)} (h : Runs (fromSteps ms) v tr r v') :
    ∃ r₁, Runs (runSteps (fun e => setProvisioningCondition ms (some e)) (normalSequence ms)) v tr r₁
      v' ∧ (r₁ = .val none → r = .val (⟨0⟩, none)) := by
  unfold fromSteps at h
  rcases h.bind_inv with ⟨b, v₃, tr₅, tr₆, rfl, hsteps, hend⟩ | ⟨msg, rfl, hsteps⟩
  · rw [show tr₆ = [] by cases b <;> (cases hend; rfl), List.append_nil]
    cases b with
    | some outcome =>
      cases hend
      exact ⟨_, hsteps, fun heq => nomatch heq⟩
    | none =>
      cases hend
      exact ⟨_, hsteps, fun _ => rfl⟩
  · exact ⟨_, hsteps, fun heq => nomatch heq⟩

/-- What a run of `reconcileNormal` changes, besides requests, finalizers and conditions, it
changes in its steps. -/
theorem reconcileNormal_inv {v v' : MachineVars} {tr : List (Event Call Call.Ans)}
    {r : Res (Result × Option Err)} (h : LeavesRequests keep)
    (hrequest : ∀ v request, keep { v with currentRequest := request } = keep v)
    (hfinalizers : ∀ v f, keep { v with finalizers := f } = keep v)
    (hcondition : ∀ v c, keep { v with conditions := c } = keep v)
    (hrun : Runs (reconcileNormal ms) v tr r v') (hne : keep v' ≠ keep v) :
    ∃ v₁ tr₁ tr₂, tr = tr₁ ++ tr₂ ∧ ReachesSteps ms v tr₁ v₁ ∧ keep v₁ = keep v ∧
      Runs (fromSteps ms) v₁ tr₂ r v' := by
  -- from where the finalizer is stored
  have hfinalized : ∀ {v₀ tr₀}, Runs (reconcileFinalized ms) v₀ tr₀ r v' → keep v₀ = keep v →
      ∃ v₁ tr₁ tr₂, tr₀ = tr₁ ++ tr₂ ∧ (reconcileFinalized ms v₀).Reaches tr₁ (fromSteps ms v₁) ∧
        keep v₁ = keep v ∧ Runs (fromSteps ms) v₁ tr₂ r v' := by
    intro v₀ tr₀ hrun₀ hv₀
    unfold reconcileFinalized at hrun₀ ⊢
    obtain ⟨a, v₁, tr₁, tr₂, rfl, hcheck, hrun₁, hv₁⟩ :=
      (within_checkRequestStates h hrequest).bind_inv hrun₀ (hv₀ ▸ hne)
    match a with
    | (true, _) =>
      cases hrun₁
      exact absurd (hv₁.trans hv₀) hne
    | (false, _) =>
      obtain ⟨_, v₂, tr₃, tr₄, rfl, hset, hrun₂, hv₂⟩ :=
        (within_setProvisioningCondition (E := fun _ => True) hcondition none).bind_inv hrun₁
          (by rw [hv₁, hv₀]; exact hne)
      exact ⟨v₂, tr₁ ++ tr₃, tr₄, by simp, (hcheck.reaches_bind _).append (hset.reaches_bind _),
        hv₂.trans (hv₁.trans hv₀), hrun₂⟩
  unfold ReachesSteps
  unfold reconcileNormal at hrun ⊢
  obtain ⟨ready, v₁, tr₁, tr₂, rfl, hready, hrun₁, hv₁⟩ :=
    (within_isInfrastructureReady (E := fun _ => True) hcondition).bind_inv hrun hne
  cases ready with
  | false =>
    cases hrun₁
    exact absurd hv₁ hne
  | true =>
    have hvars : Within (fun _ : Call => True) keep (Go.vars : MachineM MachineVars) := .vars
    obtain ⟨v₀, v₂, tr₃, tr₄, rfl, hget, hrun₂, hv₂⟩ :=
      hvars.bind_inv hrun₁ (by rw [hv₁]; exact hne)
    have hv₂' : keep v₂ = keep v := hv₂.trans hv₁
    cases hadd : ms.libs.addFinalizer v₀.finalizers machineFinalizer with
    | mk finalizers added =>
    rw [hadd] at hrun₂
    cases added with
    | false =>
      obtain ⟨v₃, tr₅, tr₆, rfl, hsteps, hrest⟩ := hfinalized hrun₂ hv₂'
      refine ⟨v₃, tr₁ ++ (tr₃ ++ tr₅), tr₆, by simp, ?_, hrest⟩
      refine (hready.reaches_bind _).append (Prog.Reaches.append (hget.reaches_bind _) ?_)
      rw [hadd]
      exact hsteps
    | true =>
      -- the finalizer is added and stored first
      obtain ⟨_, v₃, tr₅, tr₆, rfl, hassign, hrun₃, hv₃⟩ :=
        (Within.assign (E := fun _ => True) fun v => hfinalizers v _).bind_inv hrun₂
          (by rw [hv₂']; exact hne)
      have hpatch : Within (fun _ => True) keep MachineScope.patchObject :=
        .bind .vars fun _ => .bind (.perform trivial) fun _ => .pure _
      obtain ⟨e, v₄, tr₇, tr₈, rfl, hpatched, hrun₄, hv₄⟩ :=
        hpatch.bind_inv hrun₃ (by rw [hv₃, hv₂']; exact hne)
      have hv₄' : keep v₄ = keep v := hv₄.trans (hv₃.trans hv₂')
      cases e with
      | some e =>
        cases hrun₄
        exact absurd hv₄' hne
      | none =>
        obtain ⟨v₅, tr₉, tr₁₀, rfl, hsteps, hrest⟩ := hfinalized hrun₄ hv₄'
        refine ⟨v₅, tr₁ ++ (tr₃ ++ (tr₅ ++ (tr₇ ++ tr₉))), tr₁₀, by simp, ?_, hrest⟩
        refine (hready.reaches_bind _).append (Prog.Reaches.append (hget.reaches_bind _) ?_)
        rw [hadd]
        exact (hassign.reaches_bind _).append ((hpatched.reaches_bind _).append hsteps)

/-! ## Whole runs

What a run does besides its steps keeps an invariant of the monitor, so that only the steps are
left to be looked at. -/

/-- The calls of a run besides those of its steps. -/
def Preparing : Call → Prop
  | .getCredentials _ _ | .updateCredentials _ | .lockBackground _ | .unlock _
  | .getRequestStatus _ | .patchCluster _ | .patchMachine _ => True
  | _ => False

section

variable {M : Monitor Call Call.Ans} {q : M.Phase} {s : MachineVars}

theorem wp_setProvisioningCondition (hpanic : ∀ q, M.panic q) (err : Option Err) :
    (setProvisioningCondition ms err).wp M (fun q' _ _ => q' = q) q s := by
  have hset : Within (fun _ => False) (fun _ => ()) (setProvisioningCondition ms err) :=
    within_setProvisioningCondition (fun _ _ => rfl) err
  exact wp_mono (hset.wp (fun _ hc => hc.elim) (hpanic q)) fun _ _ _ h => h.1

variable {I : M.Phase → Prop}
  (hI : ∀ q c, I q → Preparing c → M.ok q c ∧ ∀ a, M.adm q c a → I (M.next q c a))
  (hpanic : ∀ q, M.panic q)
include hI hpanic

theorem wp_prepare {α : Type} {E : Call → Prop} {p : MachineM α} (hp : Within E (fun _ => ()) p)
    (hE : ∀ c, E c → Preparing c) (hq : I q) : p.wp M (fun q' _ _ => I q') q s :=
  wp_mono (hp.wp_inv I (fun q c hq hc => hI q c hq (hE c hc)) (fun q _ => hpanic q) hq)
    fun _ _ _ h => h.1

theorem wp_checkedRequests (hq : I q) :
    (checkRequestStates ms).wp M (fun q' _ _ => I q') q s := by
  have hcheck : Within CheckingRequests (fun _ => ()) (checkRequestStates ms) :=
    within_checkRequestStates (fun _ _ _ => rfl) fun _ _ => rfl
  refine wp_prepare hI hpanic hcheck (fun c hc => ?_) hq
  cases c with
  | lockBackground _ => trivial
  | unlock _ => trivial
  | getRequestStatus _ => trivial
  | patchCluster _ => trivial
  | patchMachine _ => trivial
  | _ => exact False.elim hc

theorem wp_reconcileNormal
    (hsteps : ∀ q s, I q → (runSteps (fun e => setProvisioningCondition ms (some e))
      (normalSequence ms)).wp M (fun _ _ _ => True) q s) (hq : I q) :
    (reconcileNormal ms).wp M (fun _ _ _ => True) q s := by
  have hfinalized : ∀ {q s}, I q → (reconcileFinalized ms).wp M (fun _ _ _ => True) q s := by
    intro q s hq
    unfold reconcileFinalized
    refine (wp_bind _ _).mpr (wp_mono (wp_checkedRequests hI hpanic hq) fun q₁ r s₁ hq₁ => ?_)
    match r with
    | (true, _) => exact (wp_pure _).mpr trivial
    | (false, _) =>
      refine (wp_bind _ _).mpr (wp_mono (wp_setProvisioningCondition hpanic none) ?_)
      intro q₂ _ s₂ hq₂
      refine (wp_bind _ _).mpr (wp_mono (hsteps q₂ s₂ (hq₂ ▸ hq₁)) fun q₃ r s₃ _ => ?_)
      cases r <;> exact (wp_pure _).mpr trivial
  have hready : Within (fun _ => False) (fun _ => ()) (isInfrastructureReady ms) :=
    within_isInfrastructureReady fun _ _ => rfl
  have hpatch : Within (fun c => ∃ obj, c = .patchMachine obj) (fun _ => ())
      MachineScope.patchObject :=
    .bind .vars fun _ => .bind (.perform ⟨_, rfl⟩) fun _ => .pure _
  unfold reconcileNormal
  refine (wp_bind _ _).mpr (wp_mono (wp_prepare hI hpanic hready (fun _ hc => hc.elim) hq) ?_)
  intro q₁ ready s₁ hq₁
  cases ready with
  | false => exact (wp_pure _).mpr trivial
  | true =>
    refine (wp_bind _ _).mpr (wp_vars.mpr ?_)
    split
    next => exact hfinalized hq₁
    next =>
      refine (wp_bind _ _).mpr ((wp_assign _).mpr ((wp_bind _ _).mpr ?_))
      refine wp_mono (wp_prepare hI hpanic hpatch (fun c hc => ?_) hq₁) fun q₂ r s₂ hq₂ => ?_
      · obtain ⟨obj, rfl⟩ := hc
        trivial
      cases r with
      | some e => exact (wp_pure _).mpr trivial
      | none => exact hfinalized hq₂

theorem wp_reconcileDelete
    (hsteps : ∀ q s, I q → (runSteps (fun _ => return ()) (deleteSequence ms)).wp M
      (fun _ _ _ => True) q s) (hq : I q) :
    (reconcileDelete ms).wp M (fun _ _ _ => True) q s := by
  unfold reconcileDelete
  refine (wp_bind _ _).mpr (wp_mono (wp_checkedRequests hI hpanic hq) fun q₁ r s₁ hq₁ => ?_)
  match r with
  | (true, _) => exact (wp_pure _).mpr trivial
  | (false, _) =>
    refine (wp_bind _ _).mpr (wp_mono (hsteps q₁ s₁ hq₁) fun q₂ r s₂ _ => ?_)
    cases r with
    | some outcome => exact (wp_pure _).mpr trivial
    | none => exact (wp_bind _ _).mpr ((wp_assign _).mpr ((wp_pure _).mpr trivial))

/-- A run is allowed if its steps are, from wherever it gets to before them. -/
theorem wp_reconcile (hpatch : ∀ q obj, M.ok q (.patchMachine obj))
    (hnormal : ms.deleted = false → ∀ q s, I q →
      (runSteps (fun e => setProvisioningCondition ms (some e)) (normalSequence ms)).wp M
        (fun _ _ _ => True) q s)
    (hdelete : ms.deleted = true → ∀ q s, I q →
      (runSteps (fun _ => return ()) (deleteSequence ms)).wp M (fun _ _ _ => True) q s)
    (hq : I q) : (reconcile ms s).forget.wp M (fun _ _ => True) q := by
  have hservice : Within Preparing (fun _ => ())
      (createServiceFromCluster ms.clusterScope : MachineM _) :=
    within_createServiceFromCluster (fun _ _ => trivial) (fun _ => trivial) _
  unfold reconcile reconcileWithService
  refine wp_withFinalize (wpEnd_of_wp (J := fun _ _ => True) ?_ fun _ _ _ => trivial) ?_
    fun _ _ => trivial
  · refine (wp_bind _ _).mpr (wp_mono (wp_prepare hI hpanic hservice (fun _ hc => hc) hq) ?_)
    intro q₁ r s₁ hq₁
    cases r with
    | some e =>
      dsimp only
      rw [wp_ite]
      split <;> exact (wp_pure _).mpr trivial
    | none =>
      dsimp only
      rw [wp_ite]
      split
      next hdeleted => exact wp_reconcileDelete hI hpanic (hdelete hdeleted) hq₁
      next hdeleted =>
        exact wp_reconcileNormal hI hpanic (hnormal (Bool.eq_false_iff.mpr hdeleted)) hq₁
  · intro q₁ s₁ _
    unfold MachineScope.finalize
    refine wp_retryOnError (I := fun _ _ => True) (fun q s _ => ?_) _ trivial
    unfold MachineScope.patchObject
    rw [wp_bind, wp_vars, wp_bind, wp_perform]
    exact ⟨hpatch _ _, fun _ _ => (wp_pure _).mpr trivial⟩

end

/-- The calls of the steps of `reconcileNormal`. -/
def Provisioning (c : Call) : Prop :=
  ReconcilingLAN c ∨ K8s.ReconcilingClaims c ∨ ReconcilingServer c ∨ ReconcilingFailover c

/-- What the steps of `reconcileNormal` call. They set the variables that a machine reports. -/
theorem within_normalSequence :
    ∀ step ∈ normalSequence ms, Within Provisioning (fun _ => ()) step.fn := by
  intro step hstep
  simp only [normalSequence, List.mem_cons, List.not_mem_nil, or_false] at hstep
  rcases hstep with rfl | rfl | rfl | rfl | rfl
  · exact (within_reconcileLAN unit_frame.cluster).mono fun _ hc => .inl hc
  · exact (K8s.within_reconcileIPAddresses fun _ _ => rfl).mono fun _ hc => .inr (.inl hc)
  · exact (within_reconcileServer unit_frame fun _ _ => rfl).mono fun _ hc => .inr (.inr (.inl hc))
  · exact (within_reconcileIPFailover unit_frame).mono fun _ hc => .inr (.inr (.inr hc))
  · exact .bind (.assign fun _ => rfl) fun _ => .pure _

/-- The calls of the steps of `reconcileDelete`. -/
def Deprovisioning (c : Call) : Prop :=
  DeletingFailover c ∨ DeletingServer c ∨ DeletingLAN c ∨ DeletingIPBlock c ∨ K8s.ReleasingClaims c

theorem within_deleteSequence (h : Frame keep) :
    ∀ step ∈ deleteSequence ms, Within Deprovisioning keep step.fn := by
  intro step hstep
  simp only [deleteSequence, List.mem_cons, List.not_mem_nil, or_false] at hstep
  rcases hstep with rfl | rfl | rfl | rfl | rfl
  · exact (within_reconcileIPFailoverDeletion h).mono fun _ hc => .inl hc
  · exact (within_reconcileServerDeletion h.currentRequest h.providerID).mono fun _ hc =>
      .inr (.inl hc)
  · exact (within_reconcileLANDeletion h.cluster).mono fun _ hc => .inr (.inr (.inl hc))
  · exact (within_reconcileFailoverIPBlockDeletion h).mono fun _ hc =>
      .inr (.inr (.inr (.inl hc)))
  · exact K8s.within_reconcileIPAddressClaimsDeletion.mono fun _ hc => .inr (.inr (.inr (.inr hc)))

/-- A run of `reconcileDelete` changes the finalizers, if at all, in its end, once all of its steps
are done. -/
theorem reconcileDelete_inv {v v' : MachineVars} {tr : List (Event Call Call.Ans)}
    {r : Res (Result × Option Err)} (hrun : Runs (reconcileDelete ms) v tr r v')
    (hne : v'.finalizers ≠ v.finalizers) :
    ∃ a v₁ v₂ tr₁ tr₂, tr = tr₁ ++ tr₂ ∧ r = .val (⟨0⟩, none) ∧
      Runs (checkRequestStates ms) v tr₁ (.val a) v₁ ∧ StepsDone (deleteSequence ms) v₁ tr₂ v₂ ∧
      v' = { v₂ with finalizers := (ms.libs.removeFinalizer v₂.finalizers machineFinalizer).1 } := by
  have hframe := finalizers_frame
  unfold reconcileDelete at hrun
  obtain ⟨a, v₁, tr₁, tr₂, rfl, hcheck, hrun₁, hv₁⟩ :=
    (within_checkRequestStates hframe.cluster hframe.currentRequest).bind_inv hrun hne
  match a with
  | (true, _) =>
    cases hrun₁
    exact absurd hv₁ hne
  | (false, err) =>
    have hsteps : Within Deprovisioning MachineVars.finalizers
        (runSteps (fun _ => return ()) (deleteSequence ms)) :=
      within_runSteps (fun _ => .pure _) (within_deleteSequence hframe)
    obtain ⟨b, v₂, tr₃, tr₄, rfl, hrun₂, hend, hv₂⟩ := hsteps.bind_inv hrun₁ (by rw [hv₁]; exact hne)
    cases b with
    | some outcome =>
      cases hend
      exact absurd (hv₂.trans hv₁) hne
    | none =>
      cases hend
      exact ⟨_, v₁, v₂, tr₁, tr₃, by simp, rfl, hcheck, runSteps_none hrun₂, rfl⟩

end Controller.Machine

end Capic
