import Capic.Properties.Finalizers
import Capic.Properties.InFlight.Rule

/-!
# One change at a time: the runs of clusters

A cluster has one step at most in either direction, which reserves or deletes the block of the
endpoint. Unlike a machine's run, a cluster's run ends if the status of its request cannot be
read (`wp_awaitRequest`).
-/

namespace Capic.Properties.InFlight

open Effect Effect.Go Cloud Controller

section

variable {A : (c : Call) → Call.Ans c → Prop} {cs : ClusterScope} {v : ClusterVars} {q : Phase}

/-- What the step of a cluster's run leaves. -/
def ClusterLeaves (q : Phase) (r : Outcome) (v : ClusterVars) : Prop :=
  Recorded ClusterVars.Has q v ∧ (r = (false, none) → q = .fresh)

theorem ClusterLeaves.of_fresh (r : Outcome) (v : ClusterVars) : ClusterLeaves .fresh r v :=
  ⟨.of_none rfl v, fun _ => rfl⟩

/-- The usual way to record a request of the cluster. -/
theorem wp_recordCluster {method : Method} {path : String} {r : Option Err} :
    (do
      ClusterScope.setCurrentClusterRequest method .queued path
      return r).wp (monitor .cluster A) (fun q' _ v' => Recorded ClusterVars.Has q' v')
        (.sent (some (.own .cluster method path))) v := by
  unfold ClusterScope.setCurrentClusterRequest
  rw [wp_bind, wp_assign, wp_pure]
  have hhas : ClusterVars.Has { v with currentClusterRequest := some ⟨method, path, .queued⟩ }
      (.own .cluster method path) := rfl
  exact .of_some rfl hhas

/-- What `wp_recordCluster` leaves, as the outcome of a step. -/
theorem wp_requestStep {p : ClusterM (Option Err)}
    (hp : p.wp (monitor .cluster A) (fun q' _ v' => Recorded ClusterVars.Has q' v') .fresh v) :
    (do
      match ← p with
      | some e => return (false, some e)
      | none => return (true, none) : ClusterM Outcome).wp (monitor .cluster A) ClusterLeaves
        .fresh v := by
  refine (wp_bind _ _).mpr (wp_mono hp fun q' r v' h => ?_)
  cases r with
  | some e => exact (wp_pure _).mpr ⟨h, fun heq => by cases heq⟩
  | none => exact (wp_pure _).mpr ⟨h, fun heq => by cases heq⟩

theorem within_findEndpointBlock : Within (fun c => changes c = false) (fun _ => ())
    (findResource (getControlPlaneEndpointIPBlock cs)
      (getLatestControlPlaneEndpointIPBlockCreationRequest cs)) :=
  within_findResource (within_getControlPlaneEndpointIPBlock (fun _ => rfl) rfl fun _ => rfl)
    (within_getMatchingRequest fun _ => rfl)

theorem within_adoptBlock (block : IpBlock) : Within (fun c => changes c = false) (fun _ => ())
    (adoptControlPlaneEndpointIPBlock block) := by
  have hstore : Within (fun c => changes c = false) (fun _ => ())
      (storeControlPlaneEndpointIPBlock block) :=
    .bind (.assign fun _ => rfl) fun _ => within_recordBlockID _
  rw [adoptControlPlaneEndpointIPBlock_eq]
  refine .ite (.pure _) (.bind .vars fun v => .ite ?_ hstore)
  split
  next => exact .bind (.panicking _) fun _ => hstore
  next => exact .bind (.panicking _) fun _ => hstore
  next => exact .bind (.assign fun _ => rfl) fun _ => hstore

theorem wp_reconcileControlPlaneEndpoint :
    (reconcileControlPlaneEndpoint cs).wp (monitor .cluster A) ClusterLeaves .fresh v := by
  unfold reconcileControlPlaneEndpoint
  refine (wp_bind _ _).mpr (wp_reading within_findEndpointBlock (.inl rfl) fun r v₁ => ?_)
  rcases r with e | ⟨_ | block, request⟩
  · exact (wp_pure _).mpr (.of_fresh _ _)
  · dsimp only
    split
    next => exact (wp_bind _ _).mpr ((wp_assign _).mpr ((wp_pure _).mpr (.of_fresh _ _)))
    next =>
      refine wp_requestStep ?_
      unfold reserveControlPlaneEndpointIPBlock reserveIPBlock
      refine (sends_reserveIPBlock _ _ _).bind (fun q' e hq' => ?_) fun path _ => ?_
      · exact (wp_pure _).mpr (.of_none hq' _)
      · exact wp_recordCluster
  · exact wp_reading (within_adoptBlock block) (.inl rfl) fun r v' => .of_fresh r v'

theorem wp_reconcileControlPlaneEndpointDeletion :
    (reconcileControlPlaneEndpointDeletion cs).wp (monitor .cluster A) ClusterLeaves .fresh v := by
  have hassign : ∀ (f : ClusterVars → ClusterVars) (r : Outcome) v,
      ((assign f >>= fun _ => pure r : ClusterM Outcome)).wp (monitor .cluster A) ClusterLeaves
        .fresh v :=
    fun f r v => (wp_bind _ _).mpr ((wp_assign _).mpr ((wp_pure _).mpr (.of_fresh _ _)))
  have hfound : ∀ block request v, (reconcileFoundControlPlaneEndpointDeletion cs block request).wp
      (monitor .cluster A) ClusterLeaves .fresh v := by
    intro block request v
    unfold reconcileFoundControlPlaneEndpointDeletion
    rw [wp_ite]
    split
    next => exact hassign _ _ _
    next =>
      rw [wp_ite]
      split
      next => exact (wp_pure _).mpr (.of_fresh _ _)
      next =>
        split
        next => exact hassign _ _ _
        next =>
          unfold deleteFoundControlPlaneEndpointIPBlock
          split
          next => exact (wp_panicking _).mpr rfl
          next id _ =>
            refine (wp_bind _ _).mpr (wp_reading (within_getMatchingRequest fun _ => rfl)
              (.inl rfl) fun r v₂ => ?_)
            cases r with
            | error e => exact (wp_pure _).mpr (.of_fresh _ _)
            | ok request =>
              dsimp only
              split
              next => exact hassign _ _ _
              next =>
                refine wp_requestStep ?_
                unfold deleteControlPlaneEndpointIPBlock deleteIPBlock
                refine (sends_deleteIPBlock id).bind (fun q' e hq' => ?_) fun path _ => ?_
                · exact (wp_pure _).mpr (.of_none hq' _)
                · exact wp_recordCluster
  unfold reconcileControlPlaneEndpointDeletion
  refine (wp_bind _ _).mpr (wp_reading within_findEndpointBlock (.inl rfl) fun r v₁ => ?_)
  cases r with
  | error e =>
    dsimp only
    rw [wp_ite]
    split
    next => exact hfound none none v₁
    next =>
      rw [wp_ite]
      split
      next => exact hassign _ _ _
      next => exact (wp_pure _).mpr (.of_fresh _ _)
  | ok r => exact hfound r.1 r.2 v₁

/-- The steps of a cluster's run, of which there is one at most. -/
theorem wp_clusterSteps {steps : List (ServiceReconcileStep ClusterVars)}
    (hsteps : ∀ step ∈ steps, ∀ v, step.fn.wp (monitor .cluster A) ClusterLeaves .fresh v) :
    ∀ v, (runSteps (fun _ => return ()) steps).wp (monitor .cluster A)
      (fun q' r v' => Recorded ClusterVars.Has q' v' ∧ (r = none → q' = .fresh)) .fresh v := by
  induction steps with
  | nil => exact fun v => wp_runSteps_nil (M := monitor .cluster A) ⟨.of_none rfl v, fun _ => rfl⟩
  | cons step steps ih =>
    intro v
    refine wp_runSteps_cons (M := monitor .cluster A)
      (wp_mono (hsteps step (List.mem_cons_self ..) v) fun q' r v' h => ?_)
    obtain ⟨requeue, err⟩ := r
    cases err with
    | some e => exact (wp_pure _).mpr ⟨h.1, fun heq => by cases heq⟩
    | none =>
      cases requeue with
      | true => exact ⟨h.1, fun heq => by cases heq⟩
      | false =>
        obtain rfl := h.2 rfl
        exact ih (fun step' hstep => hsteps step' (List.mem_cons_of_mem _ hstep)) v'

theorem Starts.congrCluster (h : Starts .cluster ClusterVars.Has q v) {v' : ClusterVars}
    (hv : v'.currentClusterRequest = v.currentClusterRequest) :
    Starts .cluster ClusterVars.Has q v' := by
  rcases h with rfl | ⟨method, path, hpath, rfl, hhas⟩
  · exact .inl rfl
  · exact .inr ⟨method, path, hpath, rfl, hv.trans hhas⟩

theorem ok_patchClusterVars (h : Recorded ClusterVars.Has q v) :
    (monitor .cluster A).ok q (.patchCluster v) := by
  refine ok_recording trivial fun request hrequest => ?_
  have hhas := h request hrequest
  cases request with
  | own owner method path => cases owner <;> first | exact hhas | trivial
  | datacenter id method path => exact hhas

section

variable (hq : Starts .cluster ClusterVars.Has q v)
include hq

/-- A cluster's run goes on only with nothing in flight: it ends if the status of the request
cannot be read. -/
theorem wp_awaitRequest : Cluster.awaitRequest.wp (monitor .cluster A)
    (fun q' r v' => Recorded ClusterVars.Has q' v' ∧ (r = none → q' = .fresh)) q v := by
  rcases hq with rfl | ⟨method, path, hpath, rfl, hhas⟩
  · have hawait : Within (fun c => changes c = false) (fun _ => ()) Cluster.awaitRequest :=
      within_awaitRequest fun _ => rfl
    exact wp_reading hawait (.inl rfl) fun r v' => ⟨.of_none rfl v', fun _ => rfl⟩
  · have hrequest : v.currentClusterRequest = some ⟨method, path, .queued⟩ := hhas
    have hrecorded : Recorded ClusterVars.Has (.awaiting (.own .cluster method path)) v :=
      .of_some rfl hhas
    unfold Cluster.awaitRequest Cluster.checkRequestStatus
    refine (wp_bind _ _).mpr ((wp_bind _ _).mpr (wp_vars.mpr ?_))
    rw [hrequest]
    have hpath' : Tracked.path (.own .cluster method path) ≠ "" := hpath
    refine (wp_bind _ _).mpr (wp_askStatus (.inl rfl) hpath' (fun status message hstatus => ?_)
      fun a ha r hr hopen => ?_)
    · rcases hstatus with rfl | rfl
      · exact (wp_bind _ _).mpr ((wp_bind _ _).mpr ((wp_assign _).mpr ((wp_pure _).mpr
          ((wp_pure _).mpr ((wp_pure _).mpr ⟨.of_none rfl _, fun _ => rfl⟩)))))
      · exact (wp_bind _ _).mpr ((wp_bind _ _).mpr ((wp_assign _).mpr ((wp_pure _).mpr
          ((wp_pure _).mpr ((wp_pure _).mpr ⟨.of_none rfl _, fun _ => rfl⟩)))))
    · rcases r with e | ⟨status, message⟩
      · exact (wp_pure _).mpr ((wp_pure _).mpr ⟨hrecorded, fun heq => by cases heq⟩)
      · cases status with
        | queued => exact (wp_pure _).mpr ((wp_pure _).mpr ⟨hrecorded, fun heq => by cases heq⟩)
        | running => exact (wp_pure _).mpr ((wp_pure _).mpr ⟨hrecorded, fun heq => by cases heq⟩)
        | done => exact absurd ⟨_, _, rfl, .inl rfl⟩ hopen
        | failed => exact absurd ⟨_, _, rfl, .inr rfl⟩ hopen
        | other text => exact (wp_pure _).mpr ((wp_pure _).mpr ⟨hrecorded, fun heq => by cases heq⟩)

theorem wp_clusterNormal : (Cluster.reconcileNormal cs).wp (monitor .cluster A)
    (fun q' _ v' => Recorded ClusterVars.Has q' v') q v := by
  have hsteps : ∀ step ∈ Cluster.normalSequence cs, ∀ v,
      step.fn.wp (monitor .cluster A) ClusterLeaves .fresh v := by
    intro step hstep v
    unfold Cluster.normalSequence at hstep
    split at hstep
    next => cases hstep
    next =>
      obtain rfl := List.mem_singleton.mp hstep
      exact wp_reconcileControlPlaneEndpoint
  unfold Cluster.reconcileNormal
  refine (wp_bind _ _).mpr ((wp_assign _).mpr ((wp_bind _ _).mpr ?_))
  refine wp_mono (wp_awaitRequest (hq.congrCluster rfl)) fun q₁ r v₁ h₁ => ?_
  cases r with
  | some outcome => exact (wp_pure _).mpr h₁.1
  | none =>
    obtain rfl := h₁.2 rfl
    refine (wp_bind _ _).mpr (wp_mono (wp_clusterSteps hsteps v₁) fun q₂ r v₂ h₂ => ?_)
    cases r with
    | some outcome => exact (wp_pure _).mpr h₂.1
    | none =>
      obtain rfl := h₂.2 rfl
      exact (wp_bind _ _).mpr ((wp_assign _).mpr ((wp_pure _).mpr (.of_none rfl _)))

theorem wp_clusterDelete : (Cluster.reconcileDelete cs).wp (monitor .cluster A)
    (fun q' _ v' => Recorded ClusterVars.Has q' v') q v := by
  have hsteps : ∀ step ∈ Cluster.deleteSequence cs, ∀ v,
      step.fn.wp (monitor .cluster A) ClusterLeaves .fresh v := by
    intro step hstep v
    unfold Cluster.deleteSequence at hstep
    split at hstep
    next => cases hstep
    next =>
      obtain rfl := List.mem_singleton.mp hstep
      exact wp_reconcileControlPlaneEndpointDeletion
  have hcredentials : Within (fun c => changes c = false) (fun _ => ())
      (removeCredentialsFinalizer cs : ClusterM _) := by
    refine .bind (.perform rfl) fun r => ?_
    cases r with
    | error e => exact .ite (.pure _) (.pure _)
    | ok secret => exact .bind (.perform rfl) fun _ => .pure _
  have hlist : Within (fun c => changes c = false) (fun _ => ())
      (cs.listMachines [] : ClusterM _) := .perform rfl
  unfold Cluster.reconcileDelete
  rw [wp_ite]
  split
  next => exact (wp_pure _).mpr hq.recorded
  next =>
    refine (wp_bind _ _).mpr (wp_mono (wp_awaitRequest hq) fun q₁ r v₁ h₁ => ?_)
    cases r with
    | some outcome => exact (wp_pure _).mpr h₁.1
    | none =>
      obtain rfl := h₁.2 rfl
      refine (wp_bind _ _).mpr (wp_reading hlist (.inl rfl) fun r v₂ => ?_)
      rcases r with e | _ | ⟨machine, machines⟩
      · exact (wp_pure _).mpr (.of_none rfl _)
      · dsimp only
        unfold Cluster.deleteCluster
        refine (wp_bind _ _).mpr (wp_mono (wp_clusterSteps hsteps v₂) fun q₃ r v₃ h₃ => ?_)
        cases r with
        | some outcome => exact (wp_pure _).mpr h₃.1
        | none =>
          obtain rfl := h₃.2 rfl
          refine (wp_bind _ _).mpr (wp_reading hcredentials (.inl rfl) fun r v₄ => ?_)
          cases r with
          | some e => exact (wp_pure _).mpr (.of_none rfl _)
          | none => exact (wp_bind _ _).mpr ((wp_assign _).mpr ((wp_pure _).mpr (.of_none rfl _)))
      · exact (wp_pure _).mpr (.of_none rfl _)

/-- A cluster's run keeps to the rule, and its request is in its place at the end. A panic leaves
nothing in flight. -/
theorem wp_clusterReconcile : (Cluster.reconcile cs).wp (monitor .cluster A)
    (fun q' _ v' => Recorded ClusterVars.Has q' v') q v := by
  have hpatch : ∀ q v, Recorded ClusterVars.Has q v → cs.finalize.wp (monitor .cluster A)
      (fun q' _ v' => q' = q ∧ Recorded ClusterVars.Has q' v') q v := by
    intro q₀ v₀ h₀
    refine wp_retryOnError (M := monitor .cluster A)
      (I := fun q' v' => q' = q₀ ∧ Recorded ClusterVars.Has q' v') ?_ _ ⟨rfl, h₀⟩
    intro q₁ v₁ h₁
    unfold ClusterScope.patchObject
    rw [wp_bind, wp_vars, wp_bind, wp_perform]
    refine ⟨ok_patchClusterVars h₁.2, fun a _ => ?_⟩
    rw [next_quiet (quiet_patchCluster _)]
    exact (wp_pure _).mpr h₁
  unfold Cluster.reconcile reconcileWithService
  refine wp_finalized (M := monitor .cluster A)
    (B := fun q' _ v' => Recorded ClusterVars.Has q' v') ?_
    (fun q' r v' h => wp_mono (hpatch q' v' h) fun _ _ _ h' => h'.2)
    fun q' v' hq' => wp_mono (hpatch q' v' (.of_none hq' v')) fun q'' _ _ h' => ?_
  · refine (wp_bind _ _).mpr (wp_mono (wp_createService hq _) fun q₁ r v₁ h₁ => ?_)
    obtain ⟨rfl, rfl⟩ := h₁
    cases r with
    | some e =>
      dsimp only
      rw [wp_ite]
      split <;> exact (wp_pure _).mpr hq.recorded
    | none =>
      dsimp only
      rw [wp_ite]
      split
      next => exact wp_clusterDelete hq
      next => exact wp_clusterNormal hq
  · obtain ⟨rfl, -⟩ := h'
    exact hq'

end

end

end Capic.Properties.InFlight
