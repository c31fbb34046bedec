import Capic.Properties.InFlight.Rule

/-!
# One change at a time: the requests for LANs

The request for a LAN has its place in the status of the cluster. A machine's run does not store
the cluster when it ends; `createLAN` and `deleteLAN` do it as soon as the request was accepted,
and if that fails, the step fails and the run ends with its error.

`lanMonitor` watches this: its phase says whether a request for a LAN was accepted and the cluster
not stored since. `Stores` is what every step keeps, `lan_stored` what follows for the calls of a
run.
-/

namespace Capic.Properties.InFlight

open Effect Effect.Go Cloud Controller

/-- The call asks for a LAN, or for its deletion. -/
def asksForLAN : Call → Bool
  | .lansPost _ _ | .lansDelete _ _ => true
  | _ => false

/-- A request for a LAN was accepted. -/
def lanAccepted : (c : Call) → Call.Ans c → Bool
  | .lansPost _ _, a => (Client.located a).toBool
  | .lansDelete _ _, a => (Client.located a).toBool
  | _, _ => false

/-- The cluster was stored. -/
def clusterStored : (c : Call) → Call.Ans c → Bool
  | .patchCluster obj, a => patched (.patchCluster obj) a
  | _, _ => false

/-- Whether a request for a LAN was accepted and the cluster not stored since. A panic may pass
only where it was. -/
@[reducible] def lanMonitor : Monitor Call Call.Ans where
  Phase := Bool
  ok _ _ := True
  adm _ _ _ := True
  next q c a := lanAccepted c a || q && !clusterStored c a
  panic q := q = false

theorem lanAccepted_of_not_asks {c : Call} (h : asksForLAN c = false) (a : Call.Ans c) :
    lanAccepted c a = false := by
  cases c with
  | lansPost dc lan => cases h
  | lansDelete dc id => cases h
  | _ => rfl

theorem next_lan_quiet {c : Call} (h : asksForLAN c = false) (a : Call.Ans c) :
    lanMonitor.next false c a = false := by
  simp [lanAccepted_of_not_asks h]

section

variable {σ α : Type} {s : σ} {ms : MachineScope} {v : MachineVars}

/-- What asks for no LAN has nothing to store. -/
theorem wp_noLAN {E : Call → Prop} {p : Go Call Call.Ans σ α} {Q : Bool → α → σ → Prop}
    (hp : Within E (fun _ => ()) p) (hE : ∀ c, E c → asksForLAN c = false)
    (hQ : ∀ a s', Q false a s') : p.wp lanMonitor Q false s := by
  refine wp_mono (hp.wp (M := lanMonitor) (fun c hc => ?_) rfl) fun q' a s' h => ?_
  · exact ⟨trivial, fun a _ => next_lan_quiet (hE c hc) a⟩
  · obtain ⟨rfl, -⟩ := h
    exact hQ a s'

/-- A step that ends without an error has stored the cluster. -/
def Stores (q : Bool) (err : Option Err) : Prop := err = none → q = false

/-- What `createLAN` and `deleteLAN` do once the request was accepted: an error of the patch is
returned. -/
theorem wp_storeRequest {method : Method} {path : String} {wrap : Err → Err} :
    (do
      onCluster (ms.clusterScope.setCurrentRequestByDatacenter ms.datacenterID method .queued path)
      match ← onCluster ClusterScope.patchObject with
      | some e => return some (wrap e)
      | none => return none : MachineM (Option Err)).wp lanMonitor (fun q r _ => Stores q r)
        true v := by
  have hpatch : ∀ q v, (onCluster ClusterScope.patchObject).wp lanMonitor
      (fun q' r _ => r = none → q' = false) q v := by
    intro q v
    unfold onCluster ClusterScope.patchObject
    rw [wp_zoom, wp_bind, wp_vars, wp_bind, wp_perform]
    refine ⟨trivial, fun a _ => (wp_pure _).mpr fun h => ?_⟩
    cases a with
    | error e => cases h
    | ok u => simp [lanAccepted, clusterStored, patched]
  refine (wp_bind _ _).mpr ?_
  unfold ClusterScope.setCurrentRequestByDatacenter ClusterScope.underRequestLock onCluster
  rw [wp_zoom, wp_bind, wp_perform]
  refine ⟨trivial, fun _ _ => wp_deferring (fun q' hq' => ⟨trivial, fun _ _ => ?_⟩) ?_⟩
  · obtain rfl : q' = false := hq'
    rfl
  refine (wp_assign _).mpr ⟨trivial, fun _ _ => ?_⟩
  refine (wp_bind _ _).mpr (wp_mono (hpatch _ _) fun q' r _ hr => ?_)
  cases r with
  | some e => exact (wp_pure _).mpr fun h => by cases h
  | none => exact (wp_pure _).mpr fun _ => hr rfl

/-- A request for a LAN is refused, or accepted and not stored yet. -/
theorem wp_askForLAN {required : List (String × Err)} {c : Call}
    {ask : Call.Ans c → Except Err String} {k : Except Err String → MachineM α}
    {Q : Bool → α → MachineVars → Prop} (haccepted : ∀ a, lanAccepted c a = (ask a).toBool)
    (hfail : ∀ e, (k (.error e)).wp lanMonitor Q false v)
    (hsent : ∀ path, (k (.ok path)).wp lanMonitor Q true v) :
    (Client.withParams required (do return ask (← perform c)) >>= k).wp lanMonitor Q false v := by
  refine (wp_bind _ _).mpr (Client.wp_withParams (fun p _ _ => hfail p.2) ?_)
  rw [wp_bind, wp_perform]
  refine ⟨trivial, fun a _ => (wp_pure _).mpr ?_⟩
  have hnext : lanMonitor.next false c a = (ask a).toBool := by simp [haccepted]
  rw [hnext]
  cases ask a with
  | error e => exact hfail e
  | ok path => exact hsent path

theorem createLAN_stores : (createLAN ms).wp lanMonitor (fun q r _ => Stores q r) false v := by
  unfold createLAN Client.createLAN
  exact wp_askForLAN (fun _ => rfl) (fun e => (wp_pure _).mpr fun h => by cases h)
    fun path => wp_storeRequest

theorem deleteLAN_stores (lanID : String) :
    (deleteLAN ms lanID).wp lanMonitor (fun q r _ => Stores q r) false v := by
  unfold deleteLAN Client.deleteLAN
  exact wp_askForLAN (fun _ => rfl) (fun e => (wp_pure _).mpr fun h => by cases h)
    fun path => wp_storeRequest

/-- A section under a lock. -/
theorem wp_lanSection {key : String} {fail : Err → Outcome} {body : MachineM Outcome}
    (hbody : body.wp lanMonitor (fun q r _ => Stores q r.2) false v) :
    (locked key fail body).wp lanMonitor (fun q r _ => Stores q r.2) false v := by
  refine wp_locked (M := lanMonitor) trivial (fun q' hq' => ⟨trivial, fun _ => ?_⟩)
    (fun e _ => fun _ => next_lan_quiet rfl _) fun _ => ?_
  · obtain rfl : q' = false := hq'
    rfl
  · rw [next_lan_quiet rfl]
    refine wp_mono hbody fun q' r v' h => ⟨trivial, fun _ herr => ?_⟩
    rw [h herr]
    rfl

theorem reconcileLAN_stores :
    (reconcileLAN ms).wp lanMonitor (fun q r _ => Stores q r.2) false v := by
  have hfind : Within (fun c => asksForLAN c = false) (fun _ => ())
      (findResource (getLAN ms) (getLatestLANCreationRequest ms)) :=
    within_findResource (within_getLAN fun _ => rfl) (within_getMatchingRequest fun _ => rfl)
  refine wp_lanSection ?_
  unfold reconcileLANLocked
  refine (wp_bind _ _).mpr (wp_noLAN hfind (fun _ hc => hc) fun r v₁ => ?_)
  cases r with
  | error e => exact (wp_pure _).mpr fun _ => rfl
  | ok r =>
    obtain ⟨lan, request⟩ := r
    dsimp only
    rw [wp_ite]
    split
    next => exact (wp_pure _).mpr fun _ => rfl
    next =>
      cases lan with
      | some lan => exact (wp_pure _).mpr fun _ => rfl
      | none =>
        refine (wp_bind _ _).mpr (wp_mono createLAN_stores fun q₂ r v₂ h₂ => ?_)
        cases r with
        | some e => exact (wp_pure _).mpr fun h => by cases h
        | none => exact (wp_pure _).mpr fun _ => h₂ rfl

theorem reconcileLANDeletion_stores :
    (reconcileLANDeletion ms).wp lanMonitor (fun q r _ => Stores q r.2) false v := by
  have hfind : Within (fun c => asksForLAN c = false) (fun _ => ())
      (findResource (getLAN ms) (getLatestLANCreationRequest ms)) :=
    within_findResource (within_getLAN fun _ => rfl) (within_getMatchingRequest fun _ => rfl)
  have hremove : Within (fun c => asksForLAN c = false) (fun _ => ())
      (removeLANPendingRequestFromCluster ms) :=
    within_removeLANPendingRequest (fun _ _ _ => rfl) (fun _ => rfl) (fun _ => rfl) fun _ => rfl
  refine wp_lanSection ?_
  unfold reconcileLANDeletionLocked
  refine (wp_bind _ _).mpr (wp_noLAN hfind (fun _ hc => hc) fun r v₁ => ?_)
  cases r with
  | error e => exact (wp_pure _).mpr fun _ => rfl
  | ok r =>
    obtain ⟨lan, request⟩ := r
    dsimp only
    rw [wp_ite]
    split
    next => exact (wp_pure _).mpr fun _ => rfl
    next =>
      cases lan with
      | none =>
        refine (wp_bind _ _).mpr (wp_noLAN hremove (fun _ hc => hc) fun r v₂ => ?_)
        cases r <;> exact (wp_pure _).mpr fun _ => rfl
      | some lan =>
        dsimp only
        unfold reconcileFoundLANDeletion
        split
        next => exact (wp_panicking _).mpr rfl
        next lanID _ =>
          have hpending : Within (fun c => asksForLAN c = false) (fun _ => ())
              (getLatestLANDeletionRequest ms lanID) := within_getMatchingRequest fun _ => rfl
          refine (wp_bind _ _).mpr (wp_noLAN hpending (fun _ hc => hc) fun r v₂ => ?_)
          cases r with
          | error e => exact (wp_pure _).mpr fun _ => rfl
          | ok request =>
            dsimp only
            rw [wp_ite]
            split
            next => exact (wp_pure _).mpr fun _ => rfl
            next =>
              split
              next => exact (wp_panicking _).mpr rfl
              next => exact (wp_pure _).mpr fun _ => rfl
              next =>
                refine (wp_bind _ _).mpr (wp_mono (deleteLAN_stores lanID) fun q₃ r v₃ h₃ => ?_)
                cases r with
                | some e => exact (wp_pure _).mpr fun h => by cases h
                | none => exact (wp_pure _).mpr fun _ => h₃ rfl

/-! ## A machine's run -/

/-- Steps that store what they asked for: the loop ends without an error only if the last of them
did. -/
theorem runSteps_stores {onError : Err → MachineM Unit}
    (herror : ∀ e q v, (onError e).wp lanMonitor (fun _ _ _ => True) q v)
    {steps : List (ServiceReconcileStep MachineVars)}
    (hsteps : ∀ step ∈ steps, ∀ v,
      step.fn.wp lanMonitor (fun q r _ => Stores q r.2) false v) :
    ∀ v, (runSteps onError steps).wp lanMonitor
      (fun q r _ => Stores q (r.bind Prod.snd)) false v := by
  induction steps with
  | nil =>
    intro v
    exact wp_runSteps_nil (M := lanMonitor) fun _ => rfl
  | cons step steps ih =>
    intro v
    refine wp_runSteps_cons (M := lanMonitor)
      (wp_mono (hsteps step (List.mem_cons_self ..) v) fun q' r v' h => ?_)
    match r with
    | (_, some e) => exact wp_mono (herror _ _ _) fun _ _ _ _ heq => by cases heq
    | (true, none) => exact fun _ => h rfl
    | (false, none) =>
      obtain rfl : q' = false := h rfl
      exact ih (fun step' hmem => hsteps step' (List.mem_cons_of_mem _ hmem)) v'

theorem condition_noLAN (err : Option Err) {q : Bool} :
    (Machine.setProvisioningCondition ms err).wp lanMonitor (fun q' _ _ => q' = q) q v := by
  unfold Machine.setProvisioningCondition
  rw [wp_bind, wp_vars, wp_ite]
  split
  next => exact (wp_pure _).mpr rfl
  next => cases err <;> exact (wp_assign _).mpr rfl

/-- A step that asks for no LAN. -/
theorem wp_otherStep {E : Call → Prop} {p : MachineM Outcome} (hp : Within E (fun _ => ()) p)
    (hpost : ∀ dc lan, ¬ E (.lansPost dc lan)) (hdelete : ∀ dc id, ¬ E (.lansDelete dc id)) :
    p.wp lanMonitor (fun q r _ => Stores q r.2) false v := by
  refine wp_noLAN hp (fun c hc => ?_) fun _ _ _ => rfl
  cases c with
  | lansPost dc lan => exact absurd hc (hpost dc lan)
  | lansDelete dc id => exact absurd hc (hdelete dc id)
  | _ => rfl

theorem normalSteps_store :
    (runSteps (fun e => Machine.setProvisioningCondition ms (some e)) (Machine.normalSequence ms)).wp
      lanMonitor (fun q r _ => Stores q (r.bind Prod.snd)) false v := by
  refine runSteps_stores (fun e q v => wp_mono (condition_noLAN (some e)) fun _ _ _ _ => trivial)
    (fun step hstep v => ?_) v
  simp only [Machine.normalSequence, List.mem_cons, List.not_mem_nil, or_false] at hstep
  rcases hstep with rfl | rfl | rfl | rfl | rfl
  · exact reconcileLAN_stores
  · exact wp_otherStep (K8s.within_reconcileIPAddresses fun _ _ => rfl) (fun _ _ h => h)
      fun _ _ h => h
  · exact wp_otherStep (within_reconcileServer unit_frame fun _ _ => rfl) (fun _ _ h => h)
      fun _ _ h => h
  · exact wp_otherStep (within_reconcileIPFailover unit_frame) (fun _ _ h => h) fun _ _ h => h
  · exact (wp_bind _ _).mpr ((wp_assign _).mpr ((wp_pure _).mpr fun _ => rfl))

theorem deleteSteps_store :
    (runSteps (fun _ => return ()) (Machine.deleteSequence ms)).wp lanMonitor
      (fun q r _ => Stores q (r.bind Prod.snd)) false v := by
  refine runSteps_stores (fun _ _ _ => (wp_pure _).mpr trivial) (fun step hstep v => ?_) v
  simp only [Machine.deleteSequence, List.mem_cons, List.not_mem_nil, or_false] at hstep
  rcases hstep with rfl | rfl | rfl | rfl | rfl
  · exact wp_otherStep (within_reconcileIPFailoverDeletion unit_frame) (fun _ _ h => h)
      fun _ _ h => h
  · exact wp_otherStep (within_reconcileServerDeletion unit_frame.currentRequest
      unit_frame.providerID) (fun _ _ h => h) fun _ _ h => h
  · exact reconcileLANDeletion_stores
  · exact wp_otherStep (within_reconcileFailoverIPBlockDeletion unit_frame) (fun _ _ h => h)
      fun _ _ h => h
  · exact wp_otherStep K8s.within_reconcileIPAddressClaimsDeletion (fun _ _ h => h) fun _ _ h => h

/-- What a run does in front of its steps asks for no LAN. -/
theorem wp_preparing {p : Go Call Call.Ans σ α} {E : Call → Prop}
    {Q : Bool → α → σ → Prop} (hp : Within E (fun _ => ()) p)
    (hE : ∀ c, E c → Machine.Preparing c) (hQ : ∀ a s', Q false a s') :
    p.wp lanMonitor Q false s := by
  refine wp_noLAN hp (fun c hc => ?_) hQ
  have hpreparing := hE c hc
  cases c with
  | lansPost dc lan => exact False.elim hpreparing
  | lansDelete dc id => exact False.elim hpreparing
  | _ => rfl

theorem wp_checked {Q : Bool → Outcome → MachineVars → Prop} (hQ : ∀ r v', Q false r v') :
    (Machine.checkRequestStates ms).wp lanMonitor Q false v := by
  have hcheck : Within Machine.CheckingRequests (fun _ => ()) (Machine.checkRequestStates ms) :=
    Machine.within_checkRequestStates unit_frame.cluster unit_frame.currentRequest
  refine wp_preparing hcheck (fun c hc => ?_) hQ
  cases c <;> trivial

theorem reconcileFinalized_stores : (Machine.reconcileFinalized ms).wp lanMonitor
    (fun q r _ => Stores q r.2) false v := by
  unfold Machine.reconcileFinalized
  refine (wp_bind _ _).mpr (wp_checked fun r v₁ => ?_)
  obtain ⟨requeue, err⟩ := r
  cases requeue with
  | true => exact (wp_pure _).mpr fun _ => rfl
  | false =>
    refine (wp_bind _ _).mpr (wp_mono (condition_noLAN none) fun q₂ _ v₂ h₂ => ?_)
    obtain rfl : q₂ = false := h₂
    refine (wp_bind _ _).mpr (wp_mono normalSteps_store fun q₃ r v₃ h₃ => ?_)
    cases r with
    | some outcome => exact (wp_pure _).mpr h₃
    | none => exact (wp_pure _).mpr h₃

theorem reconcileNormal_stores : (Machine.reconcileNormal ms).wp lanMonitor
    (fun q r _ => Stores q r.2) false v := by
  have hready : Within (fun _ => False) (fun _ => ()) (Machine.isInfrastructureReady ms) :=
    Machine.within_isInfrastructureReady fun _ _ => rfl
  have hpatch : Within Machine.Preparing (fun _ => ()) MachineScope.patchObject :=
    .bind .vars fun _ => .bind (.perform trivial) fun _ => .pure _
  unfold Machine.reconcileNormal
  refine (wp_bind _ _).mpr (wp_preparing hready (fun _ h => h.elim) fun ready v₁ => ?_)
  rw [wp_ite]
  split
  next => exact (wp_pure _).mpr fun _ => rfl
  next =>
    refine (wp_bind _ _).mpr (wp_vars.mpr ?_)
    split
    next => exact reconcileFinalized_stores
    next =>
      refine (wp_bind _ _).mpr ((wp_assign _).mpr ((wp_bind _ _).mpr ?_))
      refine wp_preparing hpatch (fun _ hc => hc) fun r v₂ => ?_
      cases r with
      | some e => exact (wp_pure _).mpr fun h => by cases h
      | none => exact reconcileFinalized_stores

theorem reconcileDelete_stores : (Machine.reconcileDelete ms).wp lanMonitor
    (fun q r _ => Stores q r.2) false v := by
  unfold Machine.reconcileDelete
  refine (wp_bind _ _).mpr (wp_checked fun r v₁ => ?_)
  obtain ⟨requeue, err⟩ := r
  cases requeue with
  | true => exact (wp_pure _).mpr fun _ => rfl
  | false =>
    refine (wp_bind _ _).mpr (wp_mono deleteSteps_store fun q₂ r v₂ h₂ => ?_)
    cases r with
    | some outcome => exact (wp_pure _).mpr h₂
    | none => exact (wp_bind _ _).mpr ((wp_assign _).mpr ((wp_pure _).mpr h₂))

/-- A run that ends without an error, or in a panic, has stored the cluster after the request for
a LAN was accepted. -/
theorem machineReconcile_stores : (Machine.reconcile ms).wp lanMonitor
    (fun q r _ => Stores q r.2) false v := by
  have hservice : Within Machine.Preparing (fun _ => ())
      (createServiceFromCluster ms.clusterScope : MachineM _) :=
    within_createServiceFromCluster (fun _ _ => trivial) (fun _ => trivial) _
  have hfinalize : ∀ q v, ms.finalize.wp lanMonitor (fun q' _ _ => q' = q) q v := by
    intro q v
    refine wp_retryOnError (M := lanMonitor) (I := fun q' _ => q' = q) (fun q₁ v₁ h₁ => ?_) _ rfl
    unfold MachineScope.patchObject
    rw [wp_bind, wp_vars, wp_bind, wp_perform]
    refine ⟨trivial, fun a _ => (wp_pure _).mpr ?_⟩
    subst h₁
    cases q₁ <;> rfl
  unfold Machine.reconcile reconcileWithService
  refine wp_finalized (M := lanMonitor) (B := fun q r _ => Stores q r.2) ?_ (fun q r v h => ?_)
    fun q v hq => wp_mono (hfinalize q v) fun q' _ _ h' => ?_
  · refine (wp_bind _ _).mpr (wp_preparing hservice (fun _ hc => hc) fun r v₁ => ?_)
    cases r with
    | some e =>
      dsimp only
      rw [wp_ite]
      split <;> exact (wp_pure _).mpr fun _ => rfl
    | none =>
      dsimp only
      rw [wp_ite]
      split
      next => exact reconcileDelete_stores
      next => exact reconcileNormal_stores
  · refine wp_mono (hfinalize q v) fun q' f _ hq' herr => ?_
    rw [hq']
    exact h (finalized_none herr).1
  · rw [h']
    exact hq

end

/-! ## Traces -/

/-- After a request for a LAN was accepted, the phase goes back only when the cluster is stored. -/
theorem exists_clusterStored {q : Bool} {tr : List (Event Call Call.Ans)}
    (h : lanMonitor.after q tr = false) (hq : q = true) :
    ∃ e ∈ tr, clusterStored e.call e.answer = true := by
  induction tr generalizing q with
  | nil =>
    rw [hq] at h
    cases h
  | cons e tr ih =>
    by_cases hstored : clusterStored e.call e.answer = true
    · exact ⟨e, List.mem_cons_self .., hstored⟩
    · have hnext : lanMonitor.next q e.call e.answer = true := by simp [hq, hstored]
      obtain ⟨e', hmem, hstored'⟩ := ih h hnext
      exact ⟨e', List.mem_cons_of_mem _ hmem, hstored'⟩

/-- A machine's run that got a request for a LAN accepted stores the cluster, or ends with an
error. -/
theorem lan_stored {ms : MachineScope} {v v' : MachineVars} {tr₁ tr₂ : List (Event Call Call.Ans)}
    {e : Event Call Call.Ans} {r : Res (Result × Option Err)}
    (hr : Runs (Machine.reconcile ms) v (tr₁ ++ e :: tr₂) r v')
    (he : lanAccepted e.call e.answer = true) :
    (∃ e' ∈ tr₂, clusterStored e'.call e'.answer = true) ∨
      ∃ result err, r = .val (result, some err) := by
  have hadmits : ∀ tr, lanMonitor.Admits false tr :=
    fun tr => Monitor.admits_of_forall (M := lanMonitor) (fun _ _ _ => trivial) _
  -- the phase is true after the request, and has to be false at the end
  have hback : lanMonitor.after false (tr₁ ++ e :: tr₂) = false →
      ∃ e' ∈ tr₂, clusterStored e'.call e'.answer = true := by
    intro h
    rw [Monitor.after_append] at h
    exact exists_clusterStored h (by simp [he])
  cases r with
  | panic text => exact .inl (hback (wp_runs_panic machineReconcile_stores hr (hadmits _)))
  | val r =>
    obtain ⟨result, err⟩ := r
    cases err with
    | some err => exact .inr ⟨result, err, rfl⟩
    | none => exact .inl (hback (wp_runs machineReconcile_stores hr (hadmits _) rfl))

end Capic.Properties.InFlight
