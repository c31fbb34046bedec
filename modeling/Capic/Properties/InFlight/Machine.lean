import Capic.Properties.InFlight.Rule

/-!
# One change at a time: the runs of machines

One lemma for each step of `reconcileNormal` and `reconcileDelete`: what the step sends is in the
status (`Leaves`), and a step that is done has sent nothing, so that the next one starts afresh.
Only the failover step may be done after a change, the patch of the NIC, which it has waited for.
-/

namespace Capic.Properties.InFlight

open Effect Effect.Go Cloud Controller

/-- What a step of a machine's run leaves: the request in flight is in its place, and where the
step is done, the run is in a phase from which it goes on. -/
def Leaves (P : Phase → Prop) (q : Phase) (r : Outcome) (v : MachineVars) : Prop :=
  Recorded MachineVars.Has q v ∧ (r = (false, none) → P q)

theorem Leaves.of_idle {P : Phase → Prop} {q : Phase} (hq : q.left = none) (hP : P q) (r : Outcome)
    (v : MachineVars) : Leaves P q r v :=
  ⟨.of_none hq v, fun _ => hP⟩

theorem Leaves.of_error {P : Phase → Prop} {q : Phase} {v : MachineVars}
    (h : Recorded MachineVars.Has q v) (requeue : Bool) (e : Err) :
    Leaves P q (requeue, some e) v :=
  ⟨h, fun heq => by cases heq⟩

theorem Leaves.of_requeue {P : Phase → Prop} {q : Phase} {v : MachineVars}
    (h : Recorded MachineVars.Has q v) (err : Option Err) : Leaves P q (true, err) v :=
  ⟨h, fun heq => by cases heq⟩

/-! ## The steps of a machine's run -/

section

variable {A : (c : Call) → Call.Ans c → Prop} {ms : MachineScope} {v : MachineVars} {α : Type}

/-! ### LANs -/

/-- A section under the lock of the request map. -/
theorem wp_underRequestLock {β : Type} {cs : ClusterScope} {q : Phase} {body : ClusterM β}
    {Q : Phase → β → MachineVars → Prop} (hbody : body.wp (monitor .machine A)
      (fun q' b c => Q q' b { v with cluster := c }) q v.cluster) :
    (onCluster (cs.underRequestLock body)).wp (monitor .machine A) Q q v := by
  unfold onCluster ClusterScope.underRequestLock
  rw [wp_zoom, wp_bind, wp_perform]
  refine ⟨ok_lockBackground _ _, fun _ _ => ?_⟩
  rw [next_quiet (quiet_lockBackground _)]
  refine wp_deferring (fun q' hq' => ⟨ok_unlock q' _, fun _ _ => ?_⟩) ?_
  · rw [next_quiet (quiet_unlock _)]
    exact hq'
  refine wp_mono hbody fun q' b c h => ⟨ok_unlock _ _, fun _ _ => ?_⟩
  rw [next_quiet (quiet_unlock _)]
  exact h

theorem wp_patchCluster {q : Phase} {Q : Phase → Option Err → MachineVars → Prop}
    (hnames : ∀ request, q.left = some request → request.names (.patchCluster v.cluster))
    (hQ : ∀ r, Q q r v) :
    (onCluster ClusterScope.patchObject).wp (monitor .machine A) Q q v := by
  unfold onCluster ClusterScope.patchObject
  rw [wp_zoom, wp_bind, wp_vars, wp_bind, wp_perform]
  refine ⟨ok_recording trivial hnames, fun a _ => ?_⟩
  rw [next_quiet (quiet_patchCluster _), wp_pure]
  exact hQ _

/-- What `createLAN` and `deleteLAN` do once the request was accepted. -/
theorem wp_recordDatacenter {id path : String} {method : Method} {k : Option Err → MachineM α}
    {Q : Phase → α → MachineVars → Prop}
    (hk : ∀ r v', MachineVars.Has v' (.datacenter id method path) →
      (k r).wp (monitor .machine A) Q (.sent (some (.datacenter id method path))) v') :
    (do
      onCluster (ms.clusterScope.setCurrentRequestByDatacenter id method .queued path)
      k (← onCluster ClusterScope.patchObject)).wp (monitor .machine A) Q
        (.sent (some (.datacenter id method path))) v := by
  refine (wp_bind _ _).mpr (wp_underRequestLock ((wp_assign _).mpr ?_))
  -- the map has the request from here on
  refine (wp_bind _ _).mpr (wp_patchCluster (fun request h => ?_) fun r => hk r _ (if_pos rfl))
  cases h
  exact if_pos rfl

theorem wp_createLAN : (createLAN ms).wp (monitor .machine A)
    (fun q _ v' => Recorded MachineVars.Has q v') .fresh v := by
  unfold createLAN Client.createLAN
  refine ((sends_located rfl rfl (fun _ => rfl) (fun _ _ h => (Client.located_ok h).2)
    (.inl rfl)).withParams rfl).bind (fun q' e hq' => ?_) fun path _ => ?_
  · exact (wp_pure _).mpr (.of_none hq' v)
  · refine wp_recordDatacenter fun r v' hv' => ?_
    cases r <;> exact (wp_pure _).mpr (.of_some rfl hv')

theorem wp_deleteLAN (lanID : String) : (deleteLAN ms lanID).wp (monitor .machine A)
    (fun q _ v' => Recorded MachineVars.Has q v') .fresh v := by
  unfold deleteLAN Client.deleteLAN
  refine ((sends_located rfl rfl (fun _ => rfl) (fun _ _ h => (Client.located_ok h).2)
    (.inl rfl)).withParams rfl).bind (fun q' e hq' => ?_) fun path _ => ?_
  · exact (wp_pure _).mpr (.of_none hq' v)
  · refine wp_recordDatacenter fun r v' hv' => ?_
    cases r <;> exact (wp_pure _).mpr (.of_some rfl hv')

theorem wp_reconcileLAN :
    (reconcileLAN ms).wp (monitor .machine A) (Leaves (· = .fresh)) .fresh v := by
  have hfind : Within (fun c => changes c = false) (fun _ => ())
      (findResource (getLAN ms) (getLatestLANCreationRequest ms)) :=
    within_findResource (within_getLAN fun _ => rfl) (within_getMatchingRequest fun _ => rfl)
  refine wp_section (.inl rfl) (fun e => .of_idle rfl rfl _ _) ?_
  unfold reconcileLANLocked
  refine (wp_bind _ _).mpr (wp_reading hfind (.inl rfl) fun r v₁ => ?_)
  cases r with
  | error e => exact (wp_pure _).mpr (.of_idle rfl rfl _ _)
  | ok r =>
    obtain ⟨lan, request⟩ := r
    dsimp only
    rw [wp_ite]
    split
    next => exact (wp_pure _).mpr (.of_idle rfl rfl _ _)
    next =>
      cases lan with
      | some lan => exact (wp_pure _).mpr (.of_idle rfl rfl _ _)
      | none =>
        refine (wp_bind _ _).mpr (wp_mono wp_createLAN fun q₂ r v₂ h₂ => ?_)
        cases r with
        | some e => exact (wp_pure _).mpr (.of_error h₂ _ _)
        | none => exact (wp_pure _).mpr (.of_requeue h₂ _)

theorem wp_reconcileLANDeletion :
    (reconcileLANDeletion ms).wp (monitor .machine A) (Leaves (· = .fresh)) .fresh v := by
  have hfind : Within (fun c => changes c = false) (fun _ => ())
      (findResource (getLAN ms) (getLatestLANCreationRequest ms)) :=
    within_findResource (within_getLAN fun _ => rfl) (within_getMatchingRequest fun _ => rfl)
  have hremove : Within (fun c => changes c = false) (fun _ => ())
      (removeLANPendingRequestFromCluster ms) :=
    within_removeLANPendingRequest unit_frame.cluster (fun _ => rfl) (fun _ => rfl) fun _ => rfl
  refine wp_section (.inl rfl) (fun e => .of_idle rfl rfl _ _) ?_
  unfold reconcileLANDeletionLocked
  refine (wp_bind _ _).mpr (wp_reading hfind (.inl rfl) fun r v₁ => ?_)
  cases r with
  | error e => exact (wp_pure _).mpr (.of_idle rfl rfl _ _)
  | ok r =>
    obtain ⟨lan, request⟩ := r
    dsimp only
    rw [wp_ite]
    split
    next => exact (wp_pure _).mpr (.of_idle rfl rfl _ _)
    next =>
      cases lan with
      | none =>
        refine (wp_bind _ _).mpr (wp_reading hremove (.inl rfl) fun r v₂ => ?_)
        cases r <;> exact (wp_pure _).mpr (.of_idle rfl rfl _ _)
      | some lan =>
        dsimp only
        unfold reconcileFoundLANDeletion
        split
        next => exact (wp_panicking _).mpr rfl
        next lanID _ =>
          refine (wp_bind _ _).mpr (wp_reading
            (within_getMatchingRequest fun _ => rfl) (.inl rfl) fun r v₂ => ?_)
          cases r with
          | error e => exact (wp_pure _).mpr (.of_idle rfl rfl _ _)
          | ok request =>
            dsimp only
            rw [wp_ite]
            split
            next => exact (wp_pure _).mpr (.of_idle rfl rfl _ _)
            next =>
              split
              next => exact (wp_panicking _).mpr rfl
              next => exact (wp_pure _).mpr (.of_idle rfl rfl _ _)
              next =>
                refine (wp_bind _ _).mpr (wp_mono (wp_deleteLAN lanID) fun q₃ r v₃ h₃ => ?_)
                cases r with
                | some e => exact (wp_pure _).mpr (.of_error h₃ _ _)
                | none => exact (wp_pure _).mpr (.of_requeue h₃ _)

/-! ### Requests of the machine's own -/

/-- The usual way to record a request. -/
theorem wp_recordOwn {method : Method} {path : String} {r : α} {q : Phase}
    (hq : q.left = some (.own .machine method path)) :
    (do
      MachineScope.setCurrentRequest method .queued path
      return r).wp (monitor .machine A) (fun q' _ v' => Recorded MachineVars.Has q' v') q v := by
  unfold MachineScope.setCurrentRequest
  rw [wp_bind, wp_assign, wp_pure]
  exact .of_some hq rfl

/-- Waiting for the request in flight. -/
theorem wp_waiting {σ : Type} {s : σ} {owner : Owner} {at_ : Option Tracked → Phase}
    {method : Method} {path : String} {Q : Phase → Except Err Unit → σ → Prop}
    (hat : at_ = .sent ∨ at_ = .nic) (hpath : path ≠ "")
    (herror : ∀ e, Q (at_ (some (.own owner method path))) (.error e) s)
    (hdone : Q (at_ none) (.ok ()) s) :
    (Client.waitForRequest path).wp (monitor owner A) Q (at_ (some (.own owner method path))) s := by
  refine Client.wp_waitForRequest (M := monitor owner A) (fun h => absurd h hpath)
    fun _ => ⟨⟨?_, ?_⟩, fun a _ => ?_⟩
  · rcases hat with rfl | rfl
    · trivial
    · exact fun h => by cases h
  · intro request h
    rcases hat with rfl | rfl <;> cases h <;> cases owner <;> trivial
  · cases a with
    | error e =>
      rcases hat with rfl | rfl
      · exact herror _
      · exact herror _
    | ok u =>
      have hnext : (monitor owner A).next (at_ (some (.own owner method path)))
          (.waitForRequest path) (.ok u) = at_ none := by
        rcases hat with rfl | rfl <;>
          simp [Phase.next, Phase.unsettled, settles, Tracked.path, changes]
      rw [hnext]
      exact hdone

/-! ### Servers -/

theorem wp_postServer (data : String) (lanID : Int) (imageID : String) :
    (postServer ms data lanID imageID).wp (monitor .machine A)
      (fun q _ v' => Recorded MachineVars.Has q v') .fresh v := by
  unfold postServer Client.createServer
  refine (wp_bind _ _).mpr (wp_vars.mpr ((wp_bind _ _).mpr (wp_conclude rfl fun nics _ => ?_)))
  refine (wp_bind _ _).mpr (Client.wp_withParams (fun p _ _ => ?_) ?_)
  · exact (wp_pure _).mpr (.of_none rfl _)
  rw [wp_bind, wp_perform]
  refine ⟨⟨fun h => (by cases h), fun request h => (by cases h)⟩, fun a _ => ?_⟩
  cases a with
  | error e => exact (wp_pure _).mpr ((wp_pure _).mpr (.of_none rfl _))
  | ok a =>
    obtain ⟨server, location⟩ := a
    dsimp only
    rw [wp_ite]
    split
    next hempty =>
      refine (wp_pure _).mpr ((wp_pure _).mpr (.of_none ?_ _))
      simp [Phase.next, changes, isNICPatch, accepted, Client.located, Phase.left, hempty,
        Except.map, Except.toOption]
    next hne =>
      have hleft : (Phase.next .machine .fresh (.serversPost ms.datacenterID
          (buildServer ms (buildBootVolume ms (renderUserData ms data) imageID) nics))
          (.ok (server, location))).left = some (.own .machine .post location) := by
        simp [Phase.next, changes, isNICPatch, accepted, Client.located, Phase.left, hne,
          Except.map, Except.toOption]
      refine (wp_pure _).mpr ((wp_bind _ _).mpr ((wp_assign _).mpr ?_))
      rw [wp_ite]
      split
      next => exact (wp_pure _).mpr (.of_some hleft rfl)
      next => exact (wp_bind _ _).mpr ((wp_assign _).mpr ((wp_pure _).mpr (.of_some hleft rfl)))

theorem wp_createServer (secret : Secret) : (createServer secret ms).wp (monitor .machine A)
    (fun q _ v' => Recorded MachineVars.Has q v') .fresh v := by
  unfold createServer
  split
  next => exact (wp_pure _).mpr (.of_none rfl _)
  next data _ =>
    refine (wp_bind _ _).mpr (wp_reading (within_getLAN fun _ => rfl)
      (.inl rfl) fun r v₁ => ?_)
    cases r with
    | error e => exact (wp_pure _).mpr (.of_none rfl _)
    | ok lan =>
      dsimp only
      split
      next => exact (wp_pure _).mpr (.of_none rfl _)
      next lanID _ =>
        refine (wp_bind _ _).mpr (wp_reading (within_lookupImageID unit_frame rfl (fun _ => rfl)
          (fun _ => rfl) fun _ => rfl) (.inl rfl) fun r v₂ => ?_)
        cases r with
        | error e => exact (wp_pure _).mpr (.of_none rfl _)
        | ok imageID => exact wp_postServer data lanID imageID

theorem wp_startServer (id : String) : (startServer ms id).wp (monitor .machine A)
    (fun q _ v' => Recorded MachineVars.Has q v') .fresh v := by
  unfold startServer Client.startServer
  refine ((sends_located rfl rfl (fun _ => rfl) (fun _ _ h => (Client.located_ok h).2)
    (.inl rfl)).withParams rfl).bind (fun q' e hq' => ?_) fun path _ => ?_
  · exact (wp_pure _).mpr (.of_none hq' v)
  · exact wp_recordOwn rfl

theorem wp_reconcileFoundServer (server : Server) :
    (reconcileFoundServer ms server).wp (monitor .machine A) (Leaves (· = .fresh)) .fresh v := by
  have havailable : (ensureServerAvailable ms server).wp (monitor .machine A)
      (Leaves (· = .fresh)) .fresh v := by
    unfold ensureServerAvailable
    rw [wp_ite]
    split
    next => exact (wp_pure _).mpr (.of_idle rfl rfl _ _)
    next =>
      rw [wp_ite]
      split
      next =>
        split
        next => exact (wp_panicking _).mpr rfl
        next id _ =>
          exact (wp_bind _ _).mpr (wp_mono (wp_startServer id) fun q r v' h =>
            (wp_pure _).mpr (.of_requeue h _))
      next => exact (wp_pure _).mpr (.of_idle rfl rfl _ _)
  unfold reconcileFoundServer
  refine (wp_bind _ _).mpr (wp_mono havailable fun q r v' h => ?_)
  split
  next =>
    obtain rfl := h.2 rfl
    exact (wp_bind _ _).mpr ((wp_assign _).mpr ((wp_pure _).mpr (.of_idle rfl rfl _ _)))
  next => exact (wp_pure _).mpr h

theorem wp_reconcileServer :
    (reconcileServer ms).wp (monitor .machine A) (Leaves (· = .fresh)) .fresh v := by
  have hfind : Within (fun c => changes c = false) (fun _ => ())
      (findResource (getServer ms) (getLatestServerCreationRequest ms)) :=
    within_findResource (within_getServer (fun _ _ => rfl) (fun _ _ => rfl) fun _ => rfl)
      (within_getMatchingRequest fun _ => rfl)
  unfold reconcileServer
  refine (wp_bind _ _).mpr (wp_reading
    (within_getBootstrapDataSecret fun _ _ => rfl) (.inl rfl) fun r v₁ => ?_)
  cases r with
  | error e =>
    dsimp only
    rw [wp_ite]
    split <;> exact (wp_pure _).mpr (.of_idle rfl rfl _ _)
  | ok secret =>
    refine (wp_bind _ _).mpr (wp_reading hfind (.inl rfl) fun r v₂ => ?_)
    cases r with
    | error e => exact (wp_pure _).mpr (.of_idle rfl rfl _ _)
    | ok r =>
      obtain ⟨server, request⟩ := r
      dsimp only
      rw [wp_ite]
      split
      next => exact (wp_pure _).mpr (.of_idle rfl rfl _ _)
      next =>
        cases server with
        | some server => exact wp_reconcileFoundServer server
        | none =>
          refine (wp_bind _ _).mpr (wp_mono (wp_createServer secret) fun q₃ r v₃ h₃ => ?_)
          cases r with
          | some e => exact (wp_pure _).mpr (.of_error h₃ _ _)
          | none => exact (wp_pure _).mpr (.of_requeue h₃ _)

theorem wp_deleteServer (server : Server) : (deleteServer ms server).wp (monitor .machine A)
    (fun q _ v' => Recorded MachineVars.Has q v') .fresh v := by
  unfold deleteServer Client.deleteVolume Client.deleteServer
  dsimp only
  split
  next =>
    refine ((sends_located rfl rfl (fun _ => rfl) (fun _ _ h => (Client.located_ok h).2)
      (.inl rfl)).withParams rfl).bind (fun q' e hq' => ?_) fun path _ => ?_
    · exact (wp_pure _).mpr (.of_none hq' v)
    · exact wp_recordOwn rfl
  next =>
    refine ((sends_located rfl rfl (fun _ => rfl) (fun _ _ h => (Client.located_ok h).2)
      (.inl rfl)).withParams rfl).bind (fun q' e hq' => ?_) fun path _ => ?_
    · exact (wp_pure _).mpr (.of_none hq' v)
    · exact wp_recordOwn rfl

theorem wp_requestServerDeletion (server : Server) :
    (requestServerDeletion ms server).wp (monitor .machine A) (Leaves (· = .fresh)) .fresh v := by
  unfold requestServerDeletion
  refine (wp_bind _ _).mpr (wp_mono (wp_deleteServer server) fun q r v' h => ?_)
  cases r with
  | some e => exact (wp_pure _).mpr (.of_error h _ _)
  | none => exact (wp_pure _).mpr (.of_requeue h _)

theorem wp_reconcileServerDeletion :
    (reconcileServerDeletion ms).wp (monitor .machine A) (Leaves (· = .fresh)) .fresh v := by
  have hfind : Within (fun c => changes c = false) (fun _ => ())
      (findResource (getServer ms) (getLatestServerCreationRequest ms)) :=
    within_findResource (within_getServer (fun _ _ => rfl) (fun _ _ => rfl) fun _ => rfl)
      (within_getMatchingRequest fun _ => rfl)
  unfold reconcileServerDeletion
  refine (wp_bind _ _).mpr (wp_reading hfind (.inl rfl) fun r v₁ => ?_)
  cases r with
  | error e => exact (wp_pure _).mpr (.of_idle rfl rfl _ _)
  | ok r =>
    obtain ⟨server, request⟩ := r
    dsimp only
    split
    next => exact (wp_bind _ _).mpr ((wp_assign _).mpr ((wp_pure _).mpr (.of_idle rfl rfl _ _)))
    next => exact (wp_bind _ _).mpr ((wp_assign _).mpr ((wp_pure _).mpr (.of_idle rfl rfl _ _)))
    next server _ =>
      unfold reconcileFoundServerDeletion
      split
      next => exact (wp_panicking _).mpr rfl
      next id _ =>
        refine (wp_bind _ _).mpr (wp_reading
          (within_getMatchingRequest fun _ => rfl) (.inl rfl) fun r v₂ => ?_)
        rcases r with e | _ | request
        · exact (wp_pure _).mpr (.of_idle rfl rfl _ _)
        · exact wp_requestServerDeletion server
        · dsimp only
          rw [wp_ite]
          split
          next =>
            exact (wp_bind _ _).mpr ((wp_assign _).mpr ((wp_pure _).mpr (.of_idle rfl rfl _ _)))
          next =>
            rw [wp_ite]
            split
            next =>
              exact (wp_bind _ _).mpr ((wp_assign _).mpr ((wp_pure _).mpr (.of_idle rfl rfl _ _)))
            next => exact wp_requestServerDeletion server

/-! ### Failover IPs -/

/-- What is known when `retrieveFailoverIPForMachine` returns: with an IP, nothing was sent. -/
def FoundIP (q : Phase) (r : FailoverIPOutcome) (v : MachineVars) : Prop :=
  Recorded MachineVars.Has q v ∧ (r.1 = false → r.2.2 = none → q = .fresh)

theorem FoundIP.of_fresh (r : FailoverIPOutcome) (v : MachineVars) : FoundIP .fresh r v :=
  ⟨.of_none rfl v, fun _ _ => rfl⟩

theorem wp_retrieveFailoverIPForMachine :
    (retrieveFailoverIPForMachine ms).wp (monitor .machine A) FoundIP .fresh v := by
  have hfind : Within (fun c => changes c = false) (fun _ => ())
      (findResource (getFailoverIPBlock ms) (getLatestFailoverIPBlockCreateRequest ms)) :=
    within_findResource (within_getFailoverIPBlock unit_frame rfl fun _ => rfl)
      (within_getLatestFailoverIPBlockCreateRequest unit_frame (fun _ _ => rfl) fun _ => rfl)
  have hreserve : ∀ v, (reserveMachineDeploymentFailoverIPBlock ms).wp (monitor .machine A)
      (fun q _ v' => Recorded MachineVars.Has q v') .fresh v := by
    intro v
    unfold reserveMachineDeploymentFailoverIPBlock
    refine (wp_bind _ _).mpr (wp_reading (within_getLocation unit_frame fun _ => rfl) (.inl rfl)
      fun r v₁ => ?_)
    cases r with
    | error e => exact (wp_pure _).mpr (.of_none rfl _)
    | ok location =>
      refine (wp_bind _ _).mpr ((wp_assign _).mpr ?_)
      unfold reserveIPBlock
      refine (sends_reserveIPBlock _ _ _).bind (fun q' e hq' => ?_) fun path _ => ?_
      · exact (wp_pure _).mpr (.of_none hq' _)
      · exact wp_recordOwn rfl
  unfold retrieveFailoverIPForMachine
  rw [wp_ite]
  split
  next =>
    have hip : Within (fun c => changes c = false) (fun _ => ())
        (onCluster ms.clusterScope.getControlPlaneEndpointIP) := by
      have hip : Within Resolving (fun _ => ()) ms.clusterScope.getControlPlaneEndpointIP :=
        within_getControlPlaneEndpointIP _
      refine within_onCluster (fun _ _ _ => rfl) (hip.mono fun c hc => ?_)
      cases c with
      | lookupNetIP host => rfl
      | _ => exact False.elim hc
    refine (wp_bind _ _).mpr (wp_reading hip (.inl rfl) fun r v₁ => ?_)
    cases r <;> exact (wp_pure _).mpr (.of_fresh _ _)
  next =>
    dsimp only
    rw [wp_ite]
    split
    next => exact (wp_pure _).mpr (.of_fresh _ _)
    next =>
      rw [wp_ite]
      split
      next =>
        refine wp_section (.inl rfl) (fun e => .of_fresh _ _) ?_
        unfold retrieveAutoFailoverIPLocked
        refine (wp_bind _ _).mpr (wp_reading hfind (.inl rfl) fun r v₁ => ?_)
        rcases r with e | ⟨_ | block, info⟩
        · exact (wp_pure _).mpr (.of_fresh _ _)
        · dsimp only
          rw [wp_ite]
          split
          next => exact (wp_pure _).mpr (.of_fresh _ _)
          next =>
            exact (wp_bind _ _).mpr (wp_mono (hreserve v₁) fun q r v₂ h =>
              (wp_pure _).mpr ⟨h, fun hfalse => by cases hfalse⟩)
        · dsimp only
          rw [wp_ite]
          split
          next => exact (wp_pure _).mpr (.of_fresh _ _)
          next =>
            split
            next => exact (wp_panicking _).mpr rfl
            next => exact (wp_panicking _).mpr rfl
            next => exact (wp_pure _).mpr (.of_fresh _ _)
      next => exact (wp_pure _).mpr (.of_fresh _ _)

/-- `patchNIC` waits for its request, and is done once that has ended. -/
theorem wp_patchNIC (serverID : String) (nic : Nic) (ips : List String) :
    (patchNIC ms serverID nic ips).wp (monitor .machine A)
      (fun q r v' => Recorded MachineVars.Has q v' ∧ (r = none → q = .nic none)) .fresh v := by
  unfold patchNIC Client.patchNIC
  refine (wp_bind _ _).mpr (Client.wp_withParams (fun p _ _ => ?_) ?_)
  · exact (wp_pure _).mpr ⟨.of_none rfl _, fun h => by cases h⟩
  rw [wp_bind, wp_perform]
  refine ⟨⟨fun _ => rfl, fun request h => (by cases h)⟩, fun a _ => (wp_pure _).mpr ?_⟩
  cases h : Client.located a with
  | error e =>
    refine (wp_pure _).mpr ⟨.of_none ?_ _, fun h => by cases h⟩
    simp [Phase.next, changes, isNICPatch, accepted, Phase.left, h, Except.toOption]
  | ok path =>
    have hnext : (monitor .machine A).next .fresh
        (.nicsPatch ms.datacenterID serverID (deref nic.id "") ips) a =
          .nic (some (.own .machine .patch path)) := by
      simp [Phase.next, changes, isNICPatch, accepted, h, Except.toOption]
    rw [hnext]
    refine (wp_bind _ _).mpr ((wp_assign _).mpr ((wp_bind _ _).mpr ?_))
    refine wp_waiting (.inr rfl) (Client.located_ok h).2 (fun e => ?_) ?_
    · exact (wp_pure _).mpr ⟨.own rfl rfl, fun h => by cases h⟩
    · exact (wp_pure _).mpr ⟨.of_none rfl _, fun _ => rfl⟩

theorem wp_reconcileNICConfig (failoverIP : String) :
    (reconcileNICConfig ms failoverIP).wp (monitor .machine A)
      (fun q r v' => Recorded MachineVars.Has q v' ∧ (∀ nic, r = .ok nic → q.Idle)) .fresh v := by
  have hfresh : ∀ (r : Except Err Nic) v', Recorded MachineVars.Has .fresh v' ∧
      (∀ nic, r = .ok nic → Phase.Idle .fresh) :=
    fun r v' => ⟨.of_none rfl v', fun _ _ => .inl rfl⟩
  unfold reconcileNICConfig
  refine (wp_bind _ _).mpr (wp_reading
    (within_getServer (fun _ _ => rfl) (fun _ _ => rfl) fun _ => rfl) (.inl rfl) fun r v₁ => ?_)
  cases r with
  | error e => exact (wp_pure _).mpr (hfresh _ _)
  | ok server =>
    dsimp only
    split
    next => exact (wp_pure _).mpr (hfresh _ _)
    next nic _ =>
      rw [wp_ite]
      split
      next => exact (wp_pure _).mpr (hfresh _ _)
      next =>
        unfold addFailoverIP
        refine (wp_bind _ _).mpr (wp_reading
          (within_getMatchingRequest fun _ => rfl) (.inl rfl) fun r v₂ => ?_)
        cases r with
        | error e => exact (wp_pure _).mpr (hfresh _ _)
        | ok ri =>
          dsimp only
          split
          next ri _ =>
            -- the request of an earlier run is waited for, with nothing in flight here
            refine (wp_bind _ _).mpr (wp_reading
              (within_waitForRequest (fun _ => rfl) _) (.inl rfl) fun r v₃ => ?_)
            cases r <;> exact (wp_pure _).mpr (hfresh _ _)
          next =>
            refine (wp_bind _ _).mpr (wp_mono (wp_patchNIC _ _ _) fun q r v₃ h => ?_)
            cases r with
            | some e => exact (wp_pure _).mpr ⟨h.1, fun _ heq => by cases heq⟩
            | none =>
              obtain rfl := h.2 rfl
              exact (wp_bind _ _).mpr ((wp_assign _).mpr ((wp_pure _).mpr
                ⟨.of_none rfl _, fun _ _ => .inr rfl⟩))

/-- `patchLAN` waits for its request, which is in its place until it ended. -/
theorem wp_patchLAN {q : Phase} (hq : q.Idle) (lanID : String) (config : List IPFailover) :
    (patchLAN ms lanID config).wp (monitor .machine A)
      (fun q' _ v' => Recorded MachineVars.Has q' v') q v := by
  have hlan : q = .fresh ∨
      q = .nic none ∧ isLANPatch (.lansPatch ms.datacenterID lanID config) = true :=
    hq.imp_right fun h => ⟨h, rfl⟩
  unfold patchLAN Client.patchLAN
  refine ((sends_located rfl rfl (fun _ => rfl) (fun _ _ h => (Client.located_ok h).2)
    hlan).withParams hq.left).bind (fun q' e hq' => ?_) fun path hpath => ?_
  · exact (wp_pure _).mpr (.of_none hq' v)
  · refine (wp_bind _ _).mpr ((wp_assign _).mpr ((wp_bind _ _).mpr ?_))
    refine wp_waiting (.inl rfl) hpath (fun e => ?_) ?_
    · exact (wp_pure _).mpr (.own rfl rfl)
    · exact (wp_bind _ _).mpr ((wp_assign _).mpr ((wp_pure _).mpr (.of_none rfl _)))

theorem wp_reconcileIPFailoverGroup {q : Phase} (hq : q.Idle) (nicID failoverIP : String) :
    (reconcileIPFailoverGroup ms nicID failoverIP).wp (monitor .machine A) (Leaves Phase.Idle)
      q v := by
  unfold reconcileIPFailoverGroup
  rw [wp_ite]
  split
  next => exact (wp_pure _).mpr (.of_idle hq.left hq _ _)
  next =>
    refine wp_section hq (fun e => .of_idle hq.left hq _ _) ?_
    unfold reconcileIPFailoverGroupLocked
    refine (wp_bind _ _).mpr (wp_reading
      (within_retrieveLANFailoverConfig (fun _ => rfl) fun _ _ => rfl) hq fun r v₁ => ?_)
    cases r with
    | error outcome => exact (wp_pure _).mpr (.of_idle hq.left hq _ _)
    | ok r =>
      obtain ⟨lan, config⟩ := r
      dsimp only
      split
      next => exact (wp_pure _).mpr (.of_idle hq.left hq _ _)
      next config _ =>
        exact (wp_bind _ _).mpr (wp_mono (wp_patchLAN hq _ config) fun q' r v₂ h =>
          (wp_pure _).mpr (.of_requeue h _))

theorem wp_reconcileIPFailover :
    (reconcileIPFailover ms).wp (monitor .machine A) (Leaves Phase.Idle) .fresh v := by
  unfold reconcileIPFailover
  rw [wp_ite]
  split
  next => exact (wp_pure _).mpr (.of_idle rfl (.inl rfl) _ _)
  next =>
    refine (wp_bind _ _).mpr (wp_mono wp_retrieveFailoverIPForMachine fun q r v₁ h => ?_)
    split
    next failoverIP =>
      obtain rfl := h.2 rfl rfl
      refine (wp_bind _ _).mpr (wp_mono (wp_reconcileNICConfig failoverIP) fun q₂ r v₂ h₂ => ?_)
      cases r with
      | error e => exact (wp_pure _).mpr (.of_error h₂.1 _ _)
      | ok nic => exact wp_reconcileIPFailoverGroup (h₂.2 nic rfl) _ _
    next requeue ip err hne =>
      refine (wp_pure _).mpr ⟨h.1, fun heq => ?_⟩
      obtain ⟨rfl, rfl⟩ := Prod.mk.inj heq
      exact (hne rfl rfl).elim

theorem wp_reconcileIPFailoverDeletion :
    (reconcileIPFailoverDeletion ms).wp (monitor .machine A) (Leaves (· = .fresh)) .fresh v := by
  have hnicID : Within (fun c => changes c = false) (fun _ => ()) (getServerNICID ms) :=
    within_getServerNICID (fun _ _ => rfl) (fun _ _ => rfl) fun _ => rfl
  have hconfig : Within (fun c => changes c = false) (fun _ => ())
      (retrieveLANFailoverConfig ms) :=
    within_retrieveLANFailoverConfig (fun _ => rfl) fun _ _ => rfl
  -- every end after a patch of the LAN asks for another run
  have hpatch : ∀ lanID config v, ((patchLAN ms lanID config) >>= fun r =>
      (return (true, r) : MachineM Outcome)).wp (monitor .machine A) (Leaves (· = .fresh))
        .fresh v :=
    fun lanID config v => (wp_bind _ _).mpr (wp_mono (wp_patchLAN (.inl rfl) lanID config)
      fun q r v' h => (wp_pure _).mpr (.of_requeue h _))
  unfold reconcileIPFailoverDeletion
  rw [wp_ite]
  split
  next => exact (wp_pure _).mpr (.of_idle rfl rfl _ _)
  next =>
    have hcount : Within (fun c => changes c = false) (fun _ => ())
        (ms.countMachines (failoverMatchLabels ms)) :=
      .bind (.perform rfl) fun _ => .pure _
    refine (wp_bind _ _).mpr (wp_reading hcount (.inl rfl) fun r v₁ => ?_)
    rcases r with e | _ | _ | n
    · exact (wp_pure _).mpr (.of_idle rfl rfl _ _)
    · exact (wp_pure _).mpr (.of_idle rfl rfl _ _)
    · dsimp only
      unfold ensureFailoverDeletion
      refine (wp_bind _ _).mpr (wp_reading hnicID (.inl rfl) fun r v₂ => ?_)
      cases r with
      | error e => exact (wp_pure _).mpr (.of_idle rfl rfl _ _)
      | ok nicID =>
        dsimp only
        rw [wp_ite]
        split
        next => exact (wp_pure _).mpr (.of_idle rfl rfl _ _)
        next =>
          refine wp_section (.inl rfl) (fun e => .of_idle rfl rfl _ _) ?_
          unfold removeNICFromFailoverGroupLocked
          refine (wp_bind _ _).mpr (wp_reading hconfig (.inl rfl) fun r v₃ => ?_)
          rcases r with outcome | ⟨lan, config⟩
          · exact (wp_pure _).mpr (.of_idle rfl rfl _ _)
          · dsimp only
            split
            next => exact (wp_panicking _).mpr rfl
            next =>
              split
              next => exact (wp_pure _).mpr (.of_idle rfl rfl _ _)
              next => exact hpatch _ _ _
    · dsimp only
      unfold swapNICInFailoverGroup
      refine (wp_bind _ _).mpr (wp_reading hnicID (.inl rfl) fun r v₂ => ?_)
      cases r with
      | error e => exact (wp_pure _).mpr (.of_idle rfl rfl _ _)
      | ok nicID =>
        refine wp_section (.inl rfl) (fun e => .of_idle rfl rfl _ _) ?_
        unfold swapNICInFailoverGroupLocked
        refine (wp_bind _ _).mpr (wp_reading hconfig (.inl rfl) fun r v₃ => ?_)
        rcases r with outcome | ⟨lan, config⟩
        · exact (wp_pure _).mpr (.of_idle rfl rfl _ _)
        · dsimp only
          split
          next => exact (wp_pure _).mpr (.of_idle rfl rfl _ _)
          next index _ =>
            unfold swapForLatest
            have hlatest : Within (fun c => changes c = false) (fun _ => ())
                (ms.findLatestMachine (failoverMatchLabels ms)) :=
              .bind (.perform rfl) fun _ => .pure _
            refine (wp_bind _ _).mpr (wp_reading hlatest (.inl rfl) fun r v₄ => ?_)
            rcases r with e | _ | machine
            · exact (wp_pure _).mpr (.of_idle rfl rfl _ _)
            · exact (wp_pure _).mpr (.of_idle rfl rfl _ _)
            · refine (wp_bind _ _).mpr (wp_reading
                (within_getServerByServerID fun _ _ => rfl) (.inl rfl) fun r v₅ => ?_)
              cases r with
              | error e => exact (wp_pure _).mpr (.of_idle rfl rfl _ _)
              | ok server =>
                dsimp only
                split
                next => exact (wp_pure _).mpr (.of_idle rfl rfl _ _)
                next =>
                  rw [wp_ite]
                  split
                  next => exact (wp_pure _).mpr (.of_idle rfl rfl _ _)
                  next => exact hpatch _ _ _

theorem wp_deleteUnusedFailoverIPBlock (block : IpBlock) (id : String) :
    (deleteUnusedFailoverIPBlock ms block id).wp (monitor .machine A) (Leaves (· = .fresh))
      .fresh v := by
  unfold deleteUnusedFailoverIPBlock
  refine (wp_bind _ _).mpr (wp_reading (within_getLAN fun _ => rfl) (.inl rfl) fun r v₁ => ?_)
  cases r with
  | error e => exact (wp_pure _).mpr (.of_idle rfl rfl _ _)
  | ok lan =>
    dsimp only
    rw [wp_ite]
    split
    next => exact (wp_pure _).mpr (.of_idle rfl rfl _ _)
    next =>
      have hdelete : (deleteFailoverIPBlock id).wp (monitor .machine A)
          (fun q _ v' => Recorded MachineVars.Has q v') .fresh v₁ := by
        unfold deleteFailoverIPBlock deleteIPBlock
        refine (sends_deleteIPBlock id).bind (fun q' e hq' => ?_) fun path _ => ?_
        · exact (wp_pure _).mpr (.of_none hq' _)
        · exact wp_recordOwn rfl
      exact (wp_bind _ _).mpr (wp_mono hdelete fun q r v₂ h => (wp_pure _).mpr (.of_requeue h _))

theorem wp_reconcileFailoverIPBlockDeletion :
    (reconcileFailoverIPBlockDeletion ms).wp (monitor .machine A) (Leaves (· = .fresh))
      .fresh v := by
  have hfind : Within (fun c => changes c = false) (fun _ => ())
      (findResource (getFailoverIPBlock ms) (getLatestFailoverIPBlockCreateRequest ms)) :=
    within_findResource (within_getFailoverIPBlock unit_frame rfl fun _ => rfl)
      (within_getLatestFailoverIPBlockCreateRequest unit_frame (fun _ _ => rfl) fun _ => rfl)
  -- the ends that write or clear a request of an earlier run
  have hassign : ∀ (f : MachineVars → MachineVars) (r : Outcome) v,
      ((assign f >>= fun _ => pure r : MachineM Outcome)).wp (monitor .machine A)
        (Leaves (· = .fresh)) .fresh v :=
    fun f r v => (wp_bind _ _).mpr ((wp_assign _).mpr ((wp_pure _).mpr (.of_idle rfl rfl _ _)))
  unfold reconcileFailoverIPBlockDeletion
  rw [wp_ite]
  split
  next => exact (wp_pure _).mpr (.of_idle rfl rfl _ _)
  next =>
    refine wp_section (.inl rfl) (fun e => .of_idle rfl rfl _ _) ?_
    unfold reconcileFailoverIPBlockDeletionLocked
    refine (wp_bind _ _).mpr (wp_reading hfind (.inl rfl) fun r v₁ => ?_)
    cases r with
    | error e => exact (wp_pure _).mpr (.of_idle rfl rfl _ _)
    | ok r =>
      obtain ⟨block, request⟩ := r
      dsimp only
      split
      next => exact hassign _ _ _
      next => exact hassign _ _ _
      next block _ =>
        unfold reconcileFoundFailoverIPBlockDeletion
        split
        next => exact (wp_panicking _).mpr rfl
        next id _ =>
          refine (wp_bind _ _).mpr (wp_reading (within_getMatchingRequest fun _ => rfl)
            (.inl rfl) fun r v₂ => ?_)
          rcases r with e | _ | request
          · exact (wp_pure _).mpr (.of_idle rfl rfl _ _)
          · exact wp_deleteUnusedFailoverIPBlock block id
          · dsimp only
            rw [wp_ite]
            split
            next => exact hassign _ _ _
            next =>
              rw [wp_ite]
              split
              next => exact hassign _ _ _
              next => exact wp_deleteUnusedFailoverIPBlock block id

/-! ### The steps together -/

/-- A step that only reads, or writes to Kubernetes. -/
theorem wp_quietStep {p : MachineM Outcome} {E : Call → Prop}
    (hp : Within E (fun _ => ()) p) (hE : ∀ c, E c → changes c = false) :
    p.wp (monitor .machine A) (Leaves (· = .fresh)) .fresh v :=
  wp_reading (hp.mono hE) (.inl rfl) fun r v' => .of_idle rfl rfl r v'

theorem changes_reconcilingClaims (c : Call) (h : K8s.ReconcilingClaims c) : changes c = false := by
  cases c with
  | getIPAddressClaim ns name => rfl
  | createOrUpdateIPAddressClaim claim => rfl
  | getIPAddress ns name => rfl
  | _ => exact False.elim h

theorem changes_releasingClaims (c : Call) (h : K8s.ReleasingClaims c) : changes c = false := by
  cases c with
  | getIPAddressClaim ns name => rfl
  | updateIPAddressClaim claim => rfl
  | _ => exact False.elim h

/-- One step and then the others, where the step leaves a run that goes on as it found it. -/
theorem wp_stepThen {onError : Err → MachineM Unit} {P : Phase → Prop}
    {step : ServiceReconcileStep MachineVars} {steps : List (ServiceReconcileStep MachineVars)}
    {q : Phase}
    (herror : ∀ e q v, Recorded MachineVars.Has q v →
      (onError e).wp (monitor .machine A) (fun q' _ v' => Recorded MachineVars.Has q' v') q v)
    (hstep : step.fn.wp (monitor .machine A) (Leaves P) q v)
    (hrest : ∀ q v, P q → (runSteps onError steps).wp (monitor .machine A)
      (fun q' _ v' => Recorded MachineVars.Has q' v') q v) :
    (runSteps onError (step :: steps)).wp (monitor .machine A)
      (fun q' _ v' => Recorded MachineVars.Has q' v') q v := by
  refine wp_runSteps_cons (M := monitor .machine A) (wp_mono hstep fun q' r v' h => ?_)
  obtain ⟨requeue, err⟩ := r
  cases err with
  | some e => exact herror _ _ _ h.1
  | none =>
    cases requeue with
    | true => exact h.1
    | false => exact hrest q' v' (h.2 rfl)

theorem wp_provisioningCondition (err : Option Err) {q : Phase}
    (h : Recorded MachineVars.Has q v) : (Machine.setProvisioningCondition ms err).wp
      (monitor .machine A) (fun q' _ v' => q' = q ∧ Recorded MachineVars.Has q' v') q v := by
  unfold Machine.setProvisioningCondition
  rw [wp_bind, wp_vars, wp_ite]
  split
  next => exact (wp_pure _).mpr ⟨rfl, h⟩
  next =>
    -- a request's place is not among the conditions
    have hcondition : ∀ c, Recorded MachineVars.Has q { v with conditions := c } := by
      intro c request hrequest
      have hhas := h request hrequest
      cases request with
      | own owner method path => cases owner <;> exact hhas
      | datacenter id method path => exact hhas
    cases err <;> exact (wp_assign _).mpr ⟨rfl, hcondition _⟩

theorem wp_normalSteps :
    (runSteps (fun e => Machine.setProvisioningCondition ms (some e)) (Machine.normalSequence ms)).wp
      (monitor .machine A) (fun q' _ v' => Recorded MachineVars.Has q' v') .fresh v := by
  have herror : ∀ e q v, Recorded MachineVars.Has q v →
      (Machine.setProvisioningCondition ms (some e)).wp (monitor .machine A)
        (fun q' _ v' => Recorded MachineVars.Has q' v') q v :=
    fun e q v h => wp_mono (wp_provisioningCondition (some e) h) fun _ _ _ h' => h'.2
  refine wp_stepThen herror wp_reconcileLAN ?_
  rintro _ v₁ rfl
  refine wp_stepThen herror (wp_quietStep (K8s.within_reconcileIPAddresses fun _ _ => rfl)
    changes_reconcilingClaims) ?_
  rintro _ v₂ rfl
  refine wp_stepThen herror wp_reconcileServer ?_
  rintro _ v₃ rfl
  refine wp_stepThen herror wp_reconcileIPFailover ?_
  intro q v₄ hq
  have hfinalize : (finalizeMachineProvisioning ms).wp (monitor .machine A) (Leaves Phase.Idle) q v₄ :=
    (wp_bind _ _).mpr ((wp_assign _).mpr ((wp_pure _).mpr (.of_idle hq.left hq _ _)))
  refine wp_stepThen herror hfinalize ?_
  intro q v₅ hq
  exact wp_runSteps_nil (M := monitor .machine A) (.of_none hq.left _)

theorem wp_deleteSteps :
    (runSteps (fun _ => return ()) (Machine.deleteSequence ms)).wp (monitor .machine A)
      (fun q' _ v' => Recorded MachineVars.Has q' v') .fresh v := by
  have herror : ∀ (e : Err) q v, Recorded MachineVars.Has q v →
      (return () : MachineM Unit).wp (monitor .machine A)
        (fun q' _ v' => Recorded MachineVars.Has q' v') q v :=
    fun _ _ _ h => (wp_pure _).mpr h
  refine wp_stepThen herror wp_reconcileIPFailoverDeletion ?_
  rintro _ v₁ rfl
  refine wp_stepThen herror wp_reconcileServerDeletion ?_
  rintro _ v₂ rfl
  refine wp_stepThen herror wp_reconcileLANDeletion ?_
  rintro _ v₃ rfl
  refine wp_stepThen herror wp_reconcileFailoverIPBlockDeletion ?_
  rintro _ v₄ rfl
  refine wp_stepThen herror (wp_quietStep K8s.within_reconcileIPAddressClaimsDeletion
    changes_releasingClaims) ?_
  rintro _ v₅ rfl
  exact wp_runSteps_nil (M := monitor .machine A) (.of_none rfl _)

end

section

variable {A : (c : Call) → Call.Ans c → Prop} {ms : MachineScope} {v : MachineVars} {q : Phase}

theorem ok_patchMachine (h : Recorded MachineVars.Has q v) :
    (monitor .machine A).ok q (.patchMachine v) := by
  refine ok_recording trivial fun request hrequest => ?_
  have hhas := h request hrequest
  cases request with
  | own owner method path => cases owner <;> first | exact hhas | trivial
  | datacenter id method path => trivial

theorem wp_patchMachine (h : Recorded MachineVars.Has q v) :
    MachineScope.patchObject.wp (monitor .machine A) (fun q' _ v' => q' = q ∧ v' = v) q v := by
  unfold MachineScope.patchObject
  rw [wp_bind, wp_vars, wp_bind, wp_perform]
  refine ⟨ok_patchMachine h, fun a _ => ?_⟩
  rw [next_quiet (quiet_patchMachine _)]
  exact (wp_pure _).mpr ⟨rfl, rfl⟩

/-- The data center's request is asked for while the machine's own is awaited. Both may have the
same URL, so that the end of the machine's own is reported on the way. -/
theorem wp_checkDatacenterRequest {method : Method} {path : String} :
    (Machine.checkDatacenterRequest ms).wp (monitor .machine A)
      (fun q' _ v' => (q' = .awaiting (.own .machine method path) ∨ q' = .fresh) ∧
        v'.currentRequest = v.currentRequest) (.awaiting (.own .machine method path)) v := by
  have hnames : ∀ q : Phase, (q = .awaiting (.own .machine method path) ∨ q = .fresh) →
      ∀ request obj, q.left = some request → request.names (.patchCluster obj) := by
    intro q hq request obj h
    rcases hq with rfl | rfl <;> cases h
    trivial
  unfold Machine.checkDatacenterRequest ClusterScope.getCurrentRequestByDatacenter
  refine (wp_bind _ _).mpr (wp_underRequestLock ((wp_bind _ _).mpr (wp_vars.mpr
    ((wp_pure _).mpr ?_))))
  cases v.cluster.currentRequestByDatacenter ms.datacenterID with
  | none => exact (wp_pure _).mpr ⟨.inl rfl, rfl⟩
  | some req =>
    refine (wp_bind _ _).mpr (wp_getRequestStatus (M := monitor .machine A) (fun _ e => ?_)
      (fun _ => ⟨rfl, fun request' _ => request'.names_of rfl⟩) fun _ a _ r _ => ?_)
    · exact (wp_pure _).mpr ⟨.inl rfl, rfl⟩
    · have hq : (monitor .machine A).next (Phase.awaiting (.own .machine method path))
          (.getRequestStatus req.requestPath) a = Phase.awaiting (.own .machine method path) ∨
          (monitor .machine A).next (Phase.awaiting (.own .machine method path))
            (.getRequestStatus req.requestPath) a = Phase.fresh := by
        by_cases h : settles path (.getRequestStatus req.requestPath) a = true
        · exact .inr (if_pos h)
        · exact .inl (if_neg h)
      generalize (monitor .machine A).next (Phase.awaiting (.own .machine method path))
        (.getRequestStatus req.requestPath) a = q at hq ⊢
      rcases r with e | ⟨status, message⟩
      · exact (wp_pure _).mpr ⟨hq, rfl⟩
      · have hforget : (do
            onCluster (ms.clusterScope.deleteCurrentRequestByDatacenter ms.datacenterID)
            onCluster ClusterScope.patchObject).wp (monitor .machine A) (fun q' _ v' =>
              (q' = Phase.awaiting (.own .machine method path) ∨ q' = Phase.fresh) ∧
                v'.currentRequest = v.currentRequest) q v := by
          refine (wp_bind _ _).mpr (wp_underRequestLock ((wp_assign _).mpr ?_))
          exact wp_patchCluster (fun request h => hnames q hq request _ h) fun _ => ⟨hq, rfl⟩
        unfold withStatus
        cases status with
        | queued => exact (wp_pure _).mpr ⟨hq, rfl⟩
        | running => exact (wp_pure _).mpr ⟨hq, rfl⟩
        | failed => exact (wp_bind _ _).mpr (wp_mono hforget fun _ _ _ h => (wp_pure _).mpr h)
        | done => exact (wp_bind _ _).mpr (wp_mono hforget fun _ _ _ h => (wp_pure _).mpr h)
        | other text => exact (wp_pure _).mpr ⟨hq, rfl⟩

theorem changes_checkingRequests (c : Call) (h : Machine.CheckingRequests c) :
    changes c = false := by
  cases c with
  | lockBackground key => rfl
  | unlock key => rfl
  | getRequestStatus url => rfl
  | patchCluster obj => rfl
  | patchMachine obj => rfl
  | _ => exact False.elim h

/-- A run that goes on has nothing in flight, if the status of its own request is one the code
knows. -/
theorem wp_checkRequestStates (hq : Starts .machine MachineVars.Has q v)
    (hA : q ≠ .fresh → ∀ url a, A (.getRequestStatus url) a → Known a) :
    (Machine.checkRequestStates ms).wp (monitor .machine A)
      (fun q' r v' => Recorded MachineVars.Has q' v' ∧ (r.1 = false → q' = .fresh)) q v := by
  rcases hq with rfl | ⟨method, path, hpath, rfl, hhas⟩
  · have hcheck : Within Machine.CheckingRequests (fun _ => ()) (Machine.checkRequestStates ms) :=
      Machine.within_checkRequestStates (fun _ _ _ => rfl) fun _ _ => rfl
    exact wp_reading (hcheck.mono changes_checkingRequests) (.inl rfl)
      fun r v' => ⟨.of_none rfl v', fun _ => rfl⟩
  have hknown := hA (fun h => by cases h)
  unfold Machine.checkRequestStates
  refine (wp_bind _ _).mpr (wp_mono wp_checkDatacenterRequest fun q₁ r₁ v₁ h₁ => ?_)
  obtain ⟨hq₁, hv₁⟩ := h₁
  have hrequest : v₁.currentRequest = some ⟨method, path, .queued⟩ := hv₁.trans hhas
  refine (wp_bind _ _).mpr (wp_vars.mpr ?_)
  rw [hrequest]
  -- what is left to do does not depend on how the status was read
  have hend : ∀ requeue q₂ v₂, Recorded MachineVars.Has q₂ v₂ → (requeue = false → q₂ = .fresh) →
      (if ms.deleted then (do return (true, ← MachineScope.patchObject))
        else return (requeue, r₁.2) : MachineM Outcome).wp (monitor .machine A)
        (fun q' r v' => Recorded MachineVars.Has q' v' ∧ (r.1 = false → q' = .fresh)) q₂ v₂ := by
    intro requeue q₂ v₂ hv₂ hq₂
    rw [wp_ite]
    split
    next =>
      refine (wp_bind _ _).mpr (wp_mono (wp_patchMachine hv₂) fun q₃ r v₃ h₃ => ?_)
      obtain ⟨rfl, rfl⟩ := h₃
      exact (wp_pure _).mpr ⟨hv₂, fun h => by cases h⟩
    next => exact (wp_pure _).mpr ⟨hv₂, hq₂⟩
  have hv₁ : Recorded MachineVars.Has q₁ v₁ := by
    rcases hq₁ with rfl | rfl
    · exact .own rfl hrequest
    · exact .of_none rfl _
  have hpath' : Tracked.path (.own .machine method path) ≠ "" := hpath
  refine (wp_bind _ _).mpr (wp_askStatus hq₁ hpath' (fun status message hstatus => ?_)
    fun a ha r hr hopen => ?_)
  · rcases hstatus with rfl | rfl
    · exact (wp_bind _ _).mpr ((wp_bind _ _).mpr ((wp_bind _ _).mpr ((wp_assign _).mpr
        ((wp_pure _).mpr ((wp_pure _).mpr (hend _ _ _ (.of_none rfl _) fun _ => rfl))))))
    · exact (wp_bind _ _).mpr ((wp_bind _ _).mpr ((wp_bind _ _).mpr ((wp_assign _).mpr
        ((wp_pure _).mpr ((wp_pure _).mpr (hend _ _ _ (.of_none rfl _) fun _ => rfl))))))
  · obtain ⟨info, status, rfl, hstatus, hother⟩ := hknown _ a ha
    have hmap : r.toOption.map Prod.fst = some status := hr.trans hstatus
    rcases r with e | ⟨status', message⟩
    · cases hmap
    · obtain rfl : status' = status := Option.some.inj hmap
      cases status' with
      | queued => exact (wp_bind _ _).mpr ((wp_pure _).mpr (hend _ _ _ hv₁ fun h => by cases h))
      | running => exact (wp_bind _ _).mpr ((wp_pure _).mpr (hend _ _ _ hv₁ fun h => by cases h))
      | done => exact absurd ⟨_, _, rfl, .inl rfl⟩ hopen
      | failed => exact absurd ⟨_, _, rfl, .inr rfl⟩ hopen
      | other text => exact absurd rfl (hother text)

/-! ## A machine's run -/

theorem Starts.congr (h : Starts .machine MachineVars.Has q v) {v' : MachineVars}
    (hv : v'.currentRequest = v.currentRequest) : Starts .machine MachineVars.Has q v' := by
  rcases h with rfl | ⟨method, path, hpath, rfl, hhas⟩
  · exact .inl rfl
  · exact .inr ⟨method, path, hpath, rfl, hv.trans hhas⟩

theorem wp_isInfrastructureReady : (Machine.isInfrastructureReady ms).wp (monitor .machine A)
    (fun q' _ v' => q' = q ∧ v'.currentRequest = v.currentRequest) q v := by
  unfold Machine.isInfrastructureReady
  rw [wp_ite]
  split
  next => exact (wp_bind _ _).mpr ((wp_assign _).mpr ((wp_pure _).mpr ⟨rfl, rfl⟩))
  next =>
    rw [wp_ite]
    split
    next => exact (wp_bind _ _).mpr ((wp_assign _).mpr ((wp_pure _).mpr ⟨rfl, rfl⟩))
    next => exact (wp_pure _).mpr ⟨rfl, rfl⟩

section

variable (hq : Starts .machine MachineVars.Has q v)
  (hA : q ≠ .fresh → ∀ url a, A (.getRequestStatus url) a → Known a)
include hq hA

theorem wp_reconcileFinalized : (Machine.reconcileFinalized ms).wp (monitor .machine A)
    (fun q' _ v' => Recorded MachineVars.Has q' v') q v := by
  unfold Machine.reconcileFinalized
  refine (wp_bind _ _).mpr (wp_mono (wp_checkRequestStates hq hA) fun q₁ r v₁ h₁ => ?_)
  obtain ⟨requeue, err⟩ := r
  cases requeue with
  | true => exact (wp_pure _).mpr h₁.1
  | false =>
    obtain rfl := h₁.2 rfl
    refine (wp_bind _ _).mpr (wp_mono (wp_provisioningCondition none (.of_none rfl _)) ?_)
    intro q₂ _ v₂ h₂
    obtain ⟨rfl, -⟩ := h₂
    refine (wp_bind _ _).mpr (wp_mono wp_normalSteps fun q₃ r v₃ h₃ => ?_)
    cases r <;> exact (wp_pure _).mpr h₃

theorem wp_reconcileNormal : (Machine.reconcileNormal ms).wp (monitor .machine A)
    (fun q' _ v' => Recorded MachineVars.Has q' v') q v := by
  unfold Machine.reconcileNormal
  refine (wp_bind _ _).mpr (wp_mono wp_isInfrastructureReady fun q₁ ready v₁ h₁ => ?_)
  obtain ⟨rfl, hv₁⟩ := h₁
  have hq₁ := hq.congr hv₁
  cases ready with
  | false => exact (wp_pure _).mpr hq₁.recorded
  | true =>
    refine (wp_bind _ _).mpr (wp_vars.mpr ?_)
    split
    next => exact wp_reconcileFinalized hq₁ hA
    next finalizers _ =>
      have hq₂ : Starts .machine MachineVars.Has q₁ { v₁ with finalizers := finalizers } :=
        hq₁.congr rfl
      refine (wp_bind _ _).mpr ((wp_assign _).mpr ((wp_bind _ _).mpr
        (wp_mono (wp_patchMachine hq₂.recorded) fun q₃ r v₃ h₃ => ?_)))
      obtain ⟨rfl, rfl⟩ := h₃
      cases r with
      | some e => exact (wp_pure _).mpr hq₂.recorded
      | none => exact wp_reconcileFinalized hq₂ hA

theorem wp_reconcileDelete : (Machine.reconcileDelete ms).wp (monitor .machine A)
    (fun q' _ v' => Recorded MachineVars.Has q' v') q v := by
  unfold Machine.reconcileDelete
  refine (wp_bind _ _).mpr (wp_mono (wp_checkRequestStates hq hA) fun q₁ r v₁ h₁ => ?_)
  obtain ⟨requeue, err⟩ := r
  cases requeue with
  | true => exact (wp_pure _).mpr h₁.1
  | false =>
    obtain rfl := h₁.2 rfl
    refine (wp_bind _ _).mpr (wp_mono wp_deleteSteps fun q₂ r v₂ h₂ => ?_)
    cases r with
    | some outcome => exact (wp_pure _).mpr h₂
    | none =>
      refine (wp_bind _ _).mpr ((wp_assign _).mpr ((wp_pure _).mpr ?_))
      -- a request's place is not among the finalizers
      intro request hrequest
      have hhas := h₂ request hrequest
      cases request with
      | own owner method path => cases owner <;> exact hhas
      | datacenter id method path => exact hhas

/-- A machine's run keeps to the rule, and its request is in its place at the end. A panic leaves
nothing in flight. -/
theorem wp_machineReconcile : (Machine.reconcile ms).wp (monitor .machine A)
    (fun q' _ v' => Recorded MachineVars.Has q' v') q v := by
  have hpatch : ∀ q v, Recorded MachineVars.Has q v → ms.finalize.wp (monitor .machine A)
      (fun q' _ v' => q' = q ∧ Recorded MachineVars.Has q' v') q v := by
    intro q₀ v₀ h₀
    refine wp_retryOnError (M := monitor .machine A)
      (I := fun q' v' => q' = q₀ ∧ Recorded MachineVars.Has q' v') ?_ _ ⟨rfl, h₀⟩
    intro q₁ v₁ h₁
    refine wp_mono (wp_patchMachine h₁.2) fun q₂ r v₂ h₂ => ?_
    obtain ⟨rfl, rfl⟩ := h₂
    exact h₁
  unfold Machine.reconcile reconcileWithService
  refine wp_finalized (M := monitor .machine A)
    (B := fun q' _ v' => Recorded MachineVars.Has q' v') ?_
    (fun q' r v' h => wp_mono (hpatch q' v' h) fun _ _ _ h' => h'.2)
    fun q' v' hq' => wp_mono (hpatch q' v' (.of_none hq' v')) fun q'' _ _ h' => ?_
  · refine (wp_bind _ _).mpr (wp_mono (wp_createService hq _) fun q₁ r v₁ h₁ => ?_)
    obtain ⟨rfl, rfl⟩ := h₁
    cases r with
    | some e =>
      dsimp only
      rw [wp_ite]
      split <;> exact (wp_pure _).mpr hq.recorded
    | none =>
      dsimp only
      rw [wp_ite]
      split
      next => exact wp_reconcileDelete hq hA
      next => exact wp_reconcileNormal hq hA
  · obtain ⟨rfl, -⟩ := h'
    exact hq'

end

end

end Capic.Properties.InFlight
