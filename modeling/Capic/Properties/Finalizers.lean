import Capic.Controller.Cluster
import Capic.Controller.Frame

/-!
# The finalizer comes before the cloud resource

An object whose cloud resources are to be cleaned up has to carry its finalizer before
the first of them is requested: a run may end after any call, and what is deleted from
the API server without a finalizer is gone at once.

`storedMachine` and `storedCluster` are the finalizers of the object as the API server
has it, along the calls of a run: a successful patch stores those of the object in
memory, any other call changes nothing. `finalizer_first` follows every prefix of every
`reconcileNormal` run.

* The machine's run stores the finalizer before it does anything else.
* The cluster's run adds the finalizer in memory and leaves it to the deferred `Finalize`
  to store it, after `ReserveIPBlock` was sent. The result is an equivalence: only a cluster
  that has its finalizer already, or never gets as far as reserving a block, is safe.

`finalizer_late` is a run of a new cluster.
-/

namespace Capic.Properties

open Effect Effect.Go Cloud

/-- The requests that create something in the cloud. -/
def creates : Call → Bool
  | .lansPost _ _ | .serversPost _ _ | .ipblocksPost _ _ _ => true
  | _ => false

/-- The finalizers of the machine in the API server, after one more call. -/
def storedMachine (finalizers : List String) : (c : Call) → Call.Ans c → List String
  | .patchMachine obj, .ok _ => obj.finalizers
  | _, _ => finalizers

/-- The finalizers of the cluster in the API server, after one more call. -/
def storedCluster (finalizers : List String) : (c : Call) → Call.Ans c → List String
  | .patchCluster obj, .ok _ => obj.finalizers
  | _, _ => finalizers

/-- The stored finalizers after the calls of a run. -/
def afterCalls (store : List String → (c : Call) → Call.Ans c → List String)
    (finalizers : List String) (tr : List (Event Call Call.Ans)) : List String :=
  tr.foldl (fun fs e => store fs e.call e.answer) finalizers

/-! ## A monitor for the order -/

/-- The stored finalizers, and whether something was created. -/
structure Stored where
  finalizers : List String
  created : Bool

/-- Nothing was created without the finalizer. -/
def Stored.Safe (finalizer : String) (q : Stored) : Prop :=
  q.created = true → finalizer ∈ q.finalizers

/-- The order, as a discipline on the calls of a run. -/
abbrev storeMonitor (store : List String → (c : Call) → Call.Ans c → List String)
    (finalizer : String) : Monitor Call Call.Ans where
  Phase := Stored
  ok q c := q.Safe finalizer ∧ (creates c = true → finalizer ∈ q.finalizers)
  adm _ _ _ := True
  next q c a := ⟨store q.finalizers c a, q.created || creates c⟩
  panic q := q.Safe finalizer

section

variable {store : List String → (c : Call) → Call.Ans c → List String} {finalizer : String}

theorem after_store (fs : List String) (b : Bool) (tr : List (Event Call Call.Ans)) :
    (storeMonitor store finalizer).after ⟨fs, b⟩ tr =
      ⟨afterCalls store fs tr, b || tr.any fun e => creates e.call⟩ := by
  induction tr generalizing fs b with
  | nil => simp [Monitor.after, afterCalls]
  | cons e tr ih =>
    rw [Monitor.after, ih, List.any_cons, ← Bool.or_assoc]
    rfl

theorem admits_store (q : Stored) (tr : List (Event Call Call.Ans)) :
    (storeMonitor store finalizer).Admits q tr := by
  induction tr generalizing q with
  | nil => trivial
  | cons e tr ih => exact ⟨trivial, ih _⟩

/-- A run that keeps to the order has the finalizer stored once something is created. -/
theorem stored_of_wp {σ α : Type} {p : Go Call Call.Ans σ α} {s : σ} {fs : List String}
    (h : p.wp (storeMonitor store finalizer) (fun q _ _ => q.Safe finalizer) ⟨fs, false⟩ s)
    {tr : List (Event Call Call.Ans)} (hr : Prefix p s tr)
    (hcreated : ∃ e ∈ tr, creates e.call = true) : finalizer ∈ afterCalls store fs tr := by
  have hsafe : ((storeMonitor store finalizer).after ⟨fs, false⟩ tr).Safe finalizer :=
    wp_along (P := Stored.Safe finalizer) h hr (admits_store _ tr) (fun _ _ hok => hok.1)
      (fun _ _ _ hq => hq) fun _ hq => hq
  rw [after_store] at hsafe
  refine hsafe ?_
  obtain ⟨e, he, hc⟩ := hcreated
  simpa using ⟨e, he, hc⟩

/-- With the finalizer stored, a function that does not touch the store is safe. -/
theorem stored_within {σ α κ : Type} {E : Call → Prop} {keep : σ → κ} {p : Go Call Call.Ans σ α}
    (hp : Within E keep p) (hE : ∀ c, E c → ∀ fs a, store fs c a = fs) {q : Stored} {s : σ}
    (hq : finalizer ∈ q.finalizers) :
    p.wp (storeMonitor store finalizer)
      (fun q' _ s' => finalizer ∈ q'.finalizers ∧ keep s' = keep s) q s := by
  refine hp.wp_inv (M := storeMonitor store finalizer) (fun q => finalizer ∈ q.finalizers)
    (fun q c hq hc => ?_) (fun q hq _ => hq) hq
  refine ⟨⟨fun _ => hq, fun _ => hq⟩, fun a _ => ?_⟩
  show finalizer ∈ store q.finalizers c a
  rw [hE c hc]
  exact hq

end

/-! ## The machine -/

section

open Controller Controller.Machine

variable {ms : MachineScope}

theorem storedMachine_of_ne {c : Call} (h : ∀ obj, c ≠ .patchMachine obj) (fs : List String)
    (a : Call.Ans c) : storedMachine fs c a = fs := by
  unfold storedMachine
  split
  next obj _ => exact absurd rfl (h obj)
  next => rfl

/-- A step of the run, with the finalizer stored. -/
theorem stored_step {E : Call → Prop} {step : ServiceReconcileStep MachineVars}
    {steps : List (ServiceReconcileStep MachineVars)} {onError : Err → MachineM Unit}
    (hp : Within E (·.finalizers) step.fn) (hE : ∀ c, E c → ∀ obj, c ≠ .patchMachine obj)
    (herror : ∀ e, Within (fun _ => False) (·.finalizers) (onError e))
    (hrest : ∀ (q : Stored) (s : MachineVars), machineFinalizer ∈ q.finalizers →
      machineFinalizer ∈ s.finalizers → (runSteps onError steps).wp
        (storeMonitor storedMachine machineFinalizer) (fun q' _ _ => q'.Safe machineFinalizer) q s)
    (q : Stored) (s : MachineVars) (hq : machineFinalizer ∈ q.finalizers)
    (hs : machineFinalizer ∈ s.finalizers) :
    (runSteps onError (step :: steps)).wp (storeMonitor storedMachine machineFinalizer)
      (fun q' _ _ => q'.Safe machineFinalizer) q s := by
  refine wp_runSteps_cons (wp_mono (stored_within hp
    (fun c hc fs a => storedMachine_of_ne (hE c hc) fs a) hq) fun q' r s' hr => ?_)
  obtain ⟨hq', hs'⟩ := hr
  match r with
  | (_, some e) =>
    exact wp_mono (stored_within (herror _) (fun _ hc => hc.elim) hq') fun _ _ _ h _ => h.1
  | (true, none) => exact fun _ => hq'
  | (false, none) => exact hrest q' s' hq' (hs' ▸ hs)

/-- The steps of the run, none of which stores the machine. -/
theorem stored_steps (q : Stored) (s : MachineVars) (hq : machineFinalizer ∈ q.finalizers)
    (hs : machineFinalizer ∈ s.finalizers) :
    (runSteps (fun e => setProvisioningCondition ms (some e)) (normalSequence ms)).wp
      (storeMonitor storedMachine machineFinalizer) (fun q' _ _ => q'.Safe machineFinalizer) q s := by
  have herror : ∀ e, Within (fun _ => False) (·.finalizers) (setProvisioningCondition ms (some e)) :=
    fun e => within_setProvisioningCondition (fun _ _ => rfl) (some e)
  unfold normalSequence
  refine stored_step (within_reconcileLAN finalizers_frame.cluster) ?_ herror ?_ q s hq hs
  · intro c hc obj heq
    subst heq
    exact hc
  refine stored_step (K8s.within_reconcileIPAddresses fun _ _ => rfl) ?_ herror ?_
  · intro c hc obj heq
    subst heq
    exact hc
  refine stored_step (within_reconcileServer finalizers_frame fun _ _ => rfl) ?_ herror ?_
  · intro c hc obj heq
    subst heq
    exact hc
  refine stored_step (within_reconcileIPFailover finalizers_frame) ?_ herror ?_
  · intro c hc obj heq
    subst heq
    exact hc
  have hend : Within (fun _ => False) (·.finalizers) (finalizeMachineProvisioning ms) :=
    .bind (.assign fun _ => rfl) fun _ => .pure _
  refine stored_step hend (fun _ hc => hc.elim) herror ?_
  intro q s hq _
  exact wp_runSteps_nil fun _ => hq

theorem stored_reconcileFinalized (q : Stored) (s : MachineVars)
    (hq : machineFinalizer ∈ q.finalizers) (hs : machineFinalizer ∈ s.finalizers) :
    (reconcileFinalized ms).wp (storeMonitor storedMachine machineFinalizer)
      (fun q' _ _ => q'.Safe machineFinalizer) q s := by
  unfold reconcileFinalized
  have hcheck : (checkRequestStates ms).wp (storeMonitor storedMachine machineFinalizer)
      (fun q' _ s' => machineFinalizer ∈ q'.finalizers ∧ s'.finalizers = s.finalizers) q s := by
    refine wp_checkRequestStates (M := storeMonitor storedMachine machineFinalizer)
      (fun q => machineFinalizer ∈ q.finalizers) finalizers_frame.cluster
      finalizers_frame.currentRequest (fun q c hq hc => ?_) (fun q obj hq hobj => ?_) (fun q hq _ => hq) hq
    · refine ⟨⟨fun _ => hq, fun _ => hq⟩, fun a _ => ?_⟩
      show machineFinalizer ∈ storedMachine q.finalizers c a
      rw [storedMachine_of_ne (fun obj heq => by rw [heq] at hc; exact hc)]
      exact hq
    · -- the machine is stored with the finalizers it has in memory
      refine ⟨⟨fun _ => hq, fun _ => hq⟩, fun a _ => ?_⟩
      match a with
      | .error e => exact hq
      | .ok _ =>
        show machineFinalizer ∈ obj.finalizers
        rw [show obj.finalizers = s.finalizers from hobj]
        exact hs
  refine (wp_bind _ _).mpr (wp_mono hcheck fun q₁ r₁ s₁ h₁ => ?_)
  obtain ⟨hq₁, hs₁⟩ := h₁
  match r₁ with
  | (true, _) => exact (wp_pure _).mpr fun _ => hq₁
  | (false, _) =>
    have hcondition : Within (fun _ => False) (·.finalizers) (setProvisioningCondition ms none) :=
      within_setProvisioningCondition (fun _ _ => rfl) none
    refine (wp_bind _ _).mpr (wp_mono (stored_within hcondition (fun _ hc => hc.elim) hq₁)
      fun q₂ _ s₂ h₂ => ?_)
    obtain ⟨hq₂, hs₂⟩ := h₂
    have hs₂' : machineFinalizer ∈ s₂.finalizers := by
      rw [hs₂, hs₁]
      exact hs
    refine (wp_bind _ _).mpr (wp_mono (stored_steps q₂ s₂ hq₂ hs₂') fun q₃ r₃ s₃ h₃ => ?_)
    cases r₃ <;> exact (wp_pure _).mpr h₃

/-- The machine's run, on the object as it is stored. -/
theorem stored_machineNormal (s : MachineVars) :
    (reconcileNormal ms).wp (storeMonitor storedMachine machineFinalizer)
      (fun q' _ _ => q'.Safe machineFinalizer) ⟨s.finalizers, false⟩ s := by
  have hready : Within (fun _ => False) (·.finalizers) (isInfrastructureReady ms) := by
    unfold isInfrastructureReady setMachineCondition
    refine .ite (.bind (.assign fun _ => rfl) fun _ => .pure _) (.ite ?_ (.pure _))
    exact .bind (.assign fun _ => rfl) fun _ => .pure _
  unfold reconcileNormal
  refine (wp_bind _ _).mpr (wp_mono (hready.wp (fun _ hc => hc.elim) fun h => nomatch h)
    fun q r s' hr => ?_)
  obtain ⟨rfl, hs'⟩ := hr
  rw [wp_ite]
  split
  next => exact (wp_pure _).mpr fun h => nomatch h
  next =>
    refine (wp_bind _ _).mpr (wp_vars.mpr ?_)
    by_cases hmem : machineFinalizer ∈ s'.finalizers
    · rw [ms.libs.addFinalizer_of_mem hmem]
      have hstored : machineFinalizer ∈ s.finalizers := hs' ▸ hmem
      exact stored_reconcileFinalized _ _ hstored hmem
    · have hadded := ms.libs.mem_addFinalizer s'.finalizers machineFinalizer
      rw [show ms.libs.addFinalizer s'.finalizers machineFinalizer = (_, true) from
        Prod.ext rfl (ms.libs.addFinalizer_of_notMem hmem).2]
      refine (wp_bind _ _).mpr ((wp_assign _).mpr ?_)
      unfold MachineScope.patchObject
      rw [wp_bind, wp_bind, wp_vars, wp_bind, wp_perform]
      refine ⟨⟨fun h => (nomatch h), fun h => (nomatch h)⟩, fun a _ => ?_⟩
      match a with
      | .error e => exact (wp_pure _).mpr ((wp_pure _).mpr fun h => nomatch h)
      | .ok _ =>
        exact (wp_pure _).mpr (stored_reconcileFinalized ⟨_, false⟩ _ hadded hadded)

end

/-! ## The cluster -/

section

open Controller Controller.Cluster

variable {cs : ClusterScope} {E : Call → Prop}

theorem within_awaitRequest (hstatus : ∀ url, E (.getRequestStatus url)) :
    Within E (fun _ => ()) awaitRequest := by
  unfold awaitRequest checkRequestStatus
  refine .bind (.bind .vars fun v => ?_) fun r => ?_
  · split
    next => exact .pure _
    next req _ =>
      refine .bind (Machine.within_getRequestStatus hstatus _) fun r => ?_
      match r with
      | .error e => exact .pure _
      | .ok (status, _) =>
        exact Machine.within_withStatus (.bind (.assign fun _ => rfl) fun _ => .pure _)
  · match r with
    | (_, some e) => exact .pure _
    | (true, none) => exact .pure _
    | (false, none) => exact .pure _

theorem within_getControlPlaneEndpointIPBlock (hfind : ∀ id, E (.ipblocksFindById id))
    (hget : E .ipblocksGet) (hlookup : ∀ host, E (.lookupNetIP host)) :
    Within E (fun _ => ()) (getControlPlaneEndpointIPBlock cs) := by
  have hlist : ∀ err, Within E (fun _ => ()) (listControlPlaneEndpointIPBlock cs err) := by
    intro err
    unfold listControlPlaneEndpointIPBlock Client.listIPBlocks
    refine .bind (.bind (.perform hget) fun _ => .pure _) fun r => ?_
    cases r with
    | error e => exact .pure _
    | ok blocks =>
      refine .bind ((within_getControlPlaneEndpointIP cs).mono fun _ hc => hc.elim hlookup)
        fun r => ?_
      cases r <;> exact .pure _
  unfold getControlPlaneEndpointIPBlock getIPBlockByID Client.getIPBlock
  refine .bind .vars fun v => .bind (.ite (.pure _) (.bind ?_ fun r => ?_)) fun r => ?_
  · exact Client.Within.withParams (.bind (.perform (hfind _)) fun _ => .pure _)
  · cases r <;> exact .pure _
  · match r with
    | .ok (some block) => exact .pure _
    | .ok none => exact hlist none
    | .error e => exact .ite (hlist _) (.pure _)

/-- The ID of the block found is written down. -/
theorem within_recordBlockID (id : Option String) : Within E (fun _ => ()) (match id with
    | none => panicking "nil pointer dereference"
    | some id => do
      ClusterScope.setControlPlaneEndpointIPBlockID id
      return (false, none) : ClusterM Outcome) := by
  cases id with
  | none => exact .panicking _
  | some id => exact .bind (.assign fun _ => rfl) fun _ => .pure _

/-- The endpoint's step reserves a block only in a location. -/
theorem within_reconcileControlPlaneEndpoint (hfind : ∀ id, E (.ipblocksFindById id))
    (hget : E .ipblocksGet) (hlookup : ∀ host, E (.lookupNetIP host))
    (hrequests : ∀ method url, E (.requestsGet method url))
    (hpost : cs.location ≠ "" → ∀ name location size, E (.ipblocksPost name location size)) :
    Within E (fun _ => ()) (reconcileControlPlaneEndpoint cs) := by
  unfold reconcileControlPlaneEndpoint getLatestControlPlaneEndpointIPBlockCreationRequest
  refine .bind (within_findResource (within_getControlPlaneEndpointIPBlock hfind hget hlookup)
    (within_getMatchingRequest fun _ => hrequests _ _)) fun r => ?_
  rcases r with e | ⟨_ | block, request⟩
  · exact .pure _
  · dsimp only
    split
    next => exact .bind (.assign fun _ => rfl) fun _ => .pure _
    next =>
      refine .bind ?_ fun r => by cases r <;> exact .pure _
      unfold reserveControlPlaneEndpointIPBlock reserveIPBlock Client.reserveIPBlock
      refine .bind ?_ fun r => ?_
      · split
        next => exact .pure _
        next hlocation =>
          exact .ite (.pure _) (.ite (.pure _)
            (.bind (.perform (hpost hlocation _ _ _)) fun _ => .pure _))
      · cases r with
        | error e => exact .pure _
        | ok path => exact .bind (.assign fun _ => rfl) fun _ => .pure _
  · have hend := within_recordBlockID (E := E)
    unfold adoptControlPlaneEndpointIPBlock
    refine .ite (.pure _) (.bind .vars fun v => .ite ?_ ?_)
    · split
      next => exact .bind (.panicking _) fun _ => .bind (.assign fun _ => rfl) fun _ => hend _
      next => exact .bind (.panicking _) fun _ => .bind (.assign fun _ => rfl) fun _ => hend _
      next => exact .bind (.assign fun _ => rfl) fun _ => .bind (.assign fun _ => rfl) fun _ => hend _
    · exact .bind (.assign fun _ => rfl) fun _ => hend _

/-- The cluster's run reserves a block only for a load balancer and in a location. -/
theorem within_clusterNormal (hstatus : ∀ url, E (.getRequestStatus url))
    (hfind : ∀ id, E (.ipblocksFindById id)) (hget : E .ipblocksGet)
    (hlookup : ∀ host, E (.lookupNetIP host)) (hrequests : ∀ method url, E (.requestsGet method url))
    (hpost : cs.loadBalancerProviderRef ≠ none → cs.location ≠ "" →
      ∀ name location size, E (.ipblocksPost name location size)) :
    Within E (fun _ => ()) (reconcileNormal cs) := by
  unfold reconcileNormal
  refine .bind (.assign fun _ => rfl) fun _ => .bind (within_awaitRequest hstatus) fun r => ?_
  cases r with
  | some outcome => exact .pure _
  | none =>
    refine .bind ?_ fun r => ?_
    · unfold normalSequence
      split
      next => exact .pure _
      next href =>
        unfold runSteps
        refine .bind (within_reconcileControlPlaneEndpoint hfind hget hlookup hrequests
          (hpost href)) fun r => ?_
        rcases r with ⟨_ | _, _ | e⟩
        · exact .pure _
        · exact .bind (.pure _) fun _ => .pure _
        · exact .pure _
        · exact .bind (.pure _) fun _ => .pure _
    · cases r with
      | some outcome => exact .pure _
      | none => exact .bind (.assign fun _ => rfl) fun _ => .pure _

/-- No call of the run stores the cluster. -/
theorem clusterNormal_stores_nothing {v : ClusterVars} {tr : List (Event Call Call.Ans)}
    (hr : Prefix (reconcileNormal cs) v tr) (fs : List String) :
    afterCalls storedCluster fs tr = fs := by
  have hwithin : Within (fun c => ∀ obj, c ≠ .patchCluster obj) (fun _ => ())
      (reconcileNormal cs) := by
    apply within_clusterNormal
    · exact fun _ _ h => nomatch h
    · exact fun _ _ h => nomatch h
    · exact fun _ h => nomatch h
    · exact fun _ _ h => nomatch h
    · exact fun _ _ _ h => nomatch h
    · exact fun _ _ _ _ _ _ h => nomatch h
  have hcalls := hwithin.calls hr
  clear hr
  induction tr with
  | nil => rfl
  | cons e tr ih =>
    have hstore : storedCluster fs e.call e.answer = fs := by
      unfold storedCluster
      split
      next obj _ hcall _ => exact absurd hcall (hcalls e (List.mem_cons_self ..) obj)
      next => rfl
    show afterCalls storedCluster (storedCluster fs e.call e.answer) tr = fs
    rw [hstore]
    exact ih fun e' he' => hcalls e' (List.mem_cons_of_mem _ he')

/-- Without a load balancer, or without a location, nothing is created. -/
theorem clusterNormal_creates_nothing (h : cs.loadBalancerProviderRef = none ∨ cs.location = "")
    {v : ClusterVars} {tr : List (Event Call Call.Ans)} (hr : Prefix (reconcileNormal cs) v tr) :
    ∀ e ∈ tr, creates e.call = false := by
  have hwithin : Within (fun c => creates c = false) (fun _ => ()) (reconcileNormal cs) := by
    apply within_clusterNormal
    · exact fun _ => rfl
    · exact fun _ => rfl
    · rfl
    · exact fun _ => rfl
    · exact fun _ _ => rfl
    · intro href hlocation
      exact absurd h (not_or.mpr ⟨href, hlocation⟩)
  exact hwithin.calls hr

/-- With a request that cannot be asked for, the run ends at once. -/
theorem clusterNormal_stuck {v : ClusterVars} {req : ProvisioningRequest}
    (hreq : v.currentClusterRequest = some req) (hpath : req.requestPath = "")
    {tr : List (Event Call Call.Ans)} (hr : Prefix (reconcileNormal cs) v tr) : tr = [] := by
  obtain ⟨p, hr⟩ := hr
  have hend : ∃ r, reconcileNormal cs v = .ret r := by
    simp [reconcileNormal, awaitRequest, checkRequestStatus, getRequestStatus,
      Client.checkRequestStatus, Client.withParams, Go.bind_def, Go.pure_def, vars, assign,
      after, hreq, hpath]
  obtain ⟨r, hend⟩ := hend
  rw [hend] at hr
  cases hr
  rfl

/-- Nothing is in flight, or it is done. -/
theorem runs_awaitRequest {v : ClusterVars}
    (hreq : ∀ req, v.currentClusterRequest = some req → req.requestPath ≠ "") :
    ∃ tr v', Runs awaitRequest v tr (.val none) v' := by
  cases hv : v.currentClusterRequest with
  | none =>
    refine ⟨[], v, ?_⟩
    have hend : awaitRequest v = .ret (.val none, v) := by
      simp [awaitRequest, checkRequestStatus, Go.bind_def, Go.pure_def, vars, hv]
    unfold Runs
    rw [hend]
    exact .refl _
  | some req =>
    have hpath := hreq req hv
    refine ⟨[⟨.getRequestStatus req.requestPath, .ok ⟨some .done, none⟩⟩],
      { v with currentClusterRequest := none }, ?_⟩
    unfold Runs
    simp only [awaitRequest, checkRequestStatus, getRequestStatus, Client.checkRequestStatus,
      Client.withParams, Go.bind_def, Go.pure_def, vars, hv, perform, Prog.ret_bind, after_val,
      List.find?_cons, List.find?_nil, hpath, decide_false, Prog.call_bind]
    exact .step (.refl _)

/-- The API knows no block of the cluster. -/
theorem runs_getControlPlaneEndpointIPBlock (cs : ClusterScope) (v : ClusterVars) :
    ∃ tr e, Runs (getControlPlaneEndpointIPBlock cs) v tr (.val (.error e)) v ∧
      isNotFound e = true := by
  have hlist : ∀ err, ∃ tr e, Runs (listControlPlaneEndpointIPBlock cs err) v tr
      (.val (.error e)) v ∧ isNotFound e = true := by
    intro err
    refine ⟨_, _, Runs.bind (Runs.bind (Runs.perform Call.ipblocksGet
      (.error (.openAPI 404 "404 Not Found")) v) (Runs.pure _ v)) (Runs.pure _ v), rfl⟩
  by_cases hid : v.controlPlaneEndpointIPBlockID = ""
  · obtain ⟨tr, e, hrun, he⟩ := hlist none
    have hnone : Runs (getIPBlockByID v.controlPlaneEndpointIPBlockID) v [] (.val (.ok none)) v := by
      unfold getIPBlockByID
      rw [if_pos hid]
      exact Runs.pure _ v
    exact ⟨_, e, Runs.bind (Runs.vars v) (Runs.bind hnone hrun), he⟩
  · -- the recorded ID leads nowhere either
    have hgone : Runs (getIPBlockByID v.controlPlaneEndpointIPBlockID) v
        ([⟨.ipblocksFindById v.controlPlaneEndpointIPBlockID,
          .error (.openAPI 404 "404 Not Found")⟩] ++ [] ++ [])
        (.val (.error (.wrap "could not get IP block by ID using the API: "
          (Client.apiCallErr (.openAPI 404 "404 Not Found"))))) v := by
      unfold getIPBlockByID Client.getIPBlock Client.withParams
      rw [if_neg hid, List.find?_cons_of_neg (by simpa using hid)]
      exact Runs.bind (Runs.bind (Runs.perform _ _ v) (Runs.pure _ v)) (Runs.pure _ v)
    obtain ⟨tr, e, hrun, he⟩ := hlist (some (.wrap "could not get IP block by ID using the API: "
      (Client.apiCallErr (.openAPI 404 "404 Not Found"))))
    exact ⟨_, e, Runs.bind (Runs.vars v) (Runs.bind hgone hrun), he⟩

/-- A run that gets to `ReserveIPBlock`: nothing is in flight, and no block is found. -/
theorem clusterNormal_reserves {v : ClusterVars} (href : cs.loadBalancerProviderRef ≠ none)
    (hlocation : cs.location ≠ "")
    (hreq : ∀ req, v.currentClusterRequest = some req → req.requestPath ≠ "") :
    ∃ tr, Prefix (reconcileNormal cs) v tr ∧ ∃ e ∈ tr, creates e.call = true := by
  obtain ⟨tr₁, v₁, hawait⟩ := runs_awaitRequest (v := { v with
    finalizers := (cs.libs.addFinalizer v.finalizers clusterFinalizer).1 }) hreq
  obtain ⟨tr₂, e, hlook, he⟩ := runs_getControlPlaneEndpointIPBlock cs v₁
  -- the request queue has nothing either
  have hqueue : Runs (getLatestControlPlaneEndpointIPBlockCreationRequest cs) v₁
      [⟨.requestsGet .post "ipblocks", .ok none⟩] (.val (.ok none)) v₁ :=
    Prog.Reaches.step (.refl _)
  have hfind : Runs (findResource (getControlPlaneEndpointIPBlock cs)
      (getLatestControlPlaneEndpointIPBlockCreationRequest cs)) v₁
      (tr₂ ++ ([⟨.requestsGet .post "ipblocks", .ok none⟩] ++ []))
      (.val (.ok (none, none))) v₁ := by
    refine Runs.bind hlook ?_
    unfold findResource.notFoundIsNone
    dsimp only
    rw [if_pos he]
    exact Runs.bind hqueue (Runs.pure _ v₁)
  have hpost : Prefix (reserveControlPlaneEndpointIPBlock cs) v₁
      [⟨.ipblocksPost (controlPlaneEndpointIPBlockName cs) cs.location 1, .ok "request"⟩] := by
    unfold reserveControlPlaneEndpointIPBlock reserveIPBlock Client.reserveIPBlock
    refine Prefix.bind_left ?_
    have hname : controlPlaneEndpointIPBlockName cs ≠ "" := by
      intro h
      have hlen := congrArg String.length h
      simp [controlPlaneEndpointIPBlockName] at hlen
    rw [if_neg hlocation, if_neg (by decide), if_neg hname]
    exact Prefix.bind_left ⟨_, Runs.perform _ _ v₁⟩
  have hstep : ∃ tr₃, Prefix (reconcileControlPlaneEndpoint cs) v₁ tr₃ ∧
      ∃ e ∈ tr₃, creates e.call = true :=
    ⟨_, Prefix.bind hfind (Prefix.bind_left hpost), _,
      List.mem_append_right _ (List.mem_singleton_self _), rfl⟩
  obtain ⟨tr₃, hstep, e, he, hcreates⟩ := hstep
  have hsteps : Prefix (runSteps (fun _ => return ()) (normalSequence cs)) v₁ tr₃ := by
    unfold normalSequence
    rw [if_neg href]
    exact Prefix.bind_left hstep
  have hrun : Prefix (reconcileNormal cs) v ([] ++ (tr₁ ++ tr₃)) :=
    Prefix.bind (Runs.assign _ v) (Prefix.bind hawait (Prefix.bind_left hsteps))
  exact ⟨_, hrun, e, List.mem_append_right _ (List.mem_append_right _ he), hcreates⟩

/-- A cluster that does not reserve a block before its finalizer is stored: it has it
already, or gets no block at all. -/
def ReservesSafely (cs : ClusterScope) (v : ClusterVars) : Prop :=
  clusterFinalizer ∈ v.finalizers ∨ cs.loadBalancerProviderRef = none ∨ cs.location = "" ∨
    ∃ req, v.currentClusterRequest = some req ∧ req.requestPath = ""

theorem clusterNormal_iff (cs : ClusterScope) (v : ClusterVars) :
    (∀ tr, Prefix (reconcileNormal cs) v tr → (∃ e ∈ tr, creates e.call = true) →
      clusterFinalizer ∈ afterCalls storedCluster v.finalizers tr) ↔ ReservesSafely cs v := by
  constructor
  · intro h
    by_contra hno
    unfold ReservesSafely at hno
    simp only [not_or, not_exists, not_and] at hno
    obtain ⟨hfin, href, hlocation, hreq⟩ := hno
    obtain ⟨tr, hr, hcreates⟩ := clusterNormal_reserves href hlocation hreq
    have hstored := h tr hr hcreates
    rw [clusterNormal_stores_nothing hr] at hstored
    exact hfin hstored
  · intro h tr hr hcreates
    obtain ⟨e, he, hc⟩ := hcreates
    have hnothing : cs.loadBalancerProviderRef = none ∨ cs.location = "" →
        clusterFinalizer ∈ afterCalls storedCluster v.finalizers tr := by
      intro h
      rw [clusterNormal_creates_nothing h hr e he] at hc
      exact nomatch hc
    rcases h with hfin | href | hlocation | ⟨req, hreq, hpath⟩
    · rw [clusterNormal_stores_nothing hr]
      exact hfin
    · exact hnothing (.inl href)
    · exact hnothing (.inr hlocation)
    · rw [clusterNormal_stuck hreq hpath hr] at he
      exact nomatch he

end

/-! ## The result -/

/-- Along every prefix of every run of `reconcileNormal`: a machine for which something was
created is stored with its finalizer; for a cluster this holds exactly if the cluster has its
finalizer from the start, or never reserves a block. -/
theorem finalizer_first (ms : MachineScope) (v : MachineVars) (cs : ClusterScope)
    (w : ClusterVars) :
    (∀ tr, Prefix (Controller.Machine.reconcileNormal ms) v tr →
      (∃ e ∈ tr, creates e.call = true) →
      machineFinalizer ∈ afterCalls storedMachine v.finalizers tr) ∧
    ((∀ tr, Prefix (Controller.Cluster.reconcileNormal cs) w tr →
      (∃ e ∈ tr, creates e.call = true) →
      clusterFinalizer ∈ afterCalls storedCluster w.finalizers tr) ↔ ReservesSafely cs w) :=
  ⟨fun _ hr hcreates => stored_of_wp (stored_machineNormal v) hr hcreates, clusterNormal_iff cs w⟩

/-- A new cluster with a load balancer reserves its block before its finalizer is stored. -/
theorem finalizer_late :
    ∃ (cs : ClusterScope) (v : ClusterVars) (tr : List (Event Call Call.Ans)),
      Prefix (Controller.Cluster.reconcileNormal cs) v tr ∧ (∃ e ∈ tr, creates e.call = true) ∧
      clusterFinalizer ∉ afterCalls storedCluster v.finalizers tr := by
  let cs : ClusterScope :=
    { (default : ClusterScope) with
      location := "de/txl"
      loadBalancerProviderRef := some "loadbalancer" }
  refine ⟨cs, default, _, ⟨_, Prog.reaches_play Call.plain
    (Controller.Cluster.reconcileNormal cs default)⟩, ?_, ?_⟩
  · exact ⟨_, List.mem_cons_of_mem _ (List.mem_cons_of_mem _ (List.mem_cons_self ..)), rfl⟩
  · decide

end Capic.Properties
