import Capic.Properties.Provisioned

/-!
# Network info across runs

`ReconcileServer` records the server's NICs in the machine's network info once the server is
available. Two steps before it, in every run, `ReconcileIPAddresses` writes the addresses that are
planned: one entry for each NIC of the spec, with or without pool references, and with network ID 0.
A run that ends between the two leaves the plan.

* `AddressesWritten`: in the run, `ReconcileIPAddresses` came to its end without an error;
* `planned_of_written`, `info_kept`: a run that ends before `ReconcileServer` is done leaves a plan if
  it has got there, and the network info as it was if not;
* `network_info_survives`: what a run has recorded is still there after any later runs that end before
  `ReconcileServer` is done again if, and only if, none of them has got there.
-/

namespace Capic.Properties

open Effect Effect.Go Cloud K8s Controller Controller.Machine

/-! ## Steps of a run -/

section

variable (ms : MachineScope) (v : MachineVars) (tr : List (Event Call Call.Ans))

/-- In the run, the LAN step was done, and `ReconcileIPAddresses` came to its end without an
error. -/
def AddressesWritten : Prop :=
  ∃ v₁ v₂ v₃ tr₁ tr₂ tr₃ tr₄ requeue, tr = tr₁ ++ (tr₂ ++ (tr₃ ++ tr₄)) ∧ ReachesSteps ms v tr₁ v₁ ∧
    Runs (reconcileLAN ms) v₁ tr₂ (.val (false, none)) v₂ ∧
    Runs (reconcileIPAddresses ms) v₂ tr₃ (.val (requeue, none)) v₃

/-- In the run, the server step and those before it were done. -/
def ServerRecorded : Prop :=
  ∃ v₁ v₂ tr₁ tr₂ tr₃, tr = tr₁ ++ (tr₂ ++ tr₃) ∧ ReachesSteps ms v tr₁ v₁ ∧
    StepsDone ((normalSequence ms).take 3) v₁ tr₂ v₂

end

/-- The network info is a plan: its first entry is on no network. -/
def Planned (info : Option (List NICInfo)) : Prop :=
  ∃ first rest, info = some (first :: rest) ∧ first.networkID = 0

section

variable {ms : MachineScope} {s s' : MachineVars} {tr : List (Event Call Call.Ans)}

theorem handlePrimaryNIC_unnumbered {wait : Bool} {info : NICInfo}
    (hrun : Runs (handlePrimaryNIC ms) s tr (.val (.ok (wait, info))) s') : info.networkID = 0 := by
  unfold handlePrimaryNIC at hrun
  rcases hrun.bind_inv with ⟨r₄, s₁, tr₄, tr', rfl, -, hrest⟩ | ⟨msg, hr, -⟩
  · cases r₄ with
    | error e => cases hrest
    | ok ipv4 =>
      rcases hrest.bind_inv with ⟨r₆, s₂, tr₆, tr'', rfl, -, hend⟩ | ⟨msg, hr, -⟩
      · cases r₆ with
        | error e => cases hend
        | ok ipv6 =>
          cases hend
          rfl
      · cases hr
  · cases hr

/-- `ReconcileIPAddresses` writes a plan, or it fails and leaves the network info alone. -/
theorem reconcileIPAddresses_info {r : Res Outcome}
    (hrun : Runs (reconcileIPAddresses ms) s tr r s') :
    (∀ requeue, r = .val (requeue, none) → Planned s'.machineNetworkInfo) ∧
      ((∀ requeue, r ≠ .val (requeue, none)) → s'.machineNetworkInfo = s.machineNetworkInfo) := by
  have hpool : ∀ nic ∈ nics ms, ∀ f, Within (fun _ => True) MachineVars.machineNetworkInfo
      (poolAddresses ms nic.1 f (poolRefOf nic.2 f)) :=
    fun _ _ _ => within_poolAddresses (fun _ => trivial) (fun _ _ _ _ => trivial) fun _ => trivial
  have hnets : ∀ net ∈ ms.spec.additionalNetworks, net ∈ ms.spec.additionalNetworks :=
    fun _ hnet => hnet
  unfold reconcileIPAddresses at hrun
  rcases hrun.bind_inv with ⟨r₁, s₁, tr₁, tr', rfl, h₁, hrest⟩ | ⟨msg, rfl, h₁⟩
  · have hs₁ := (within_handlePrimaryNIC hpool).keeps h₁
    match r₁ with
    | .error e =>
      cases hrest
      exact ⟨fun _ heq => (nomatch heq), fun _ => hs₁⟩
    | .ok (wait, info) =>
      rcases hrest.bind_inv with ⟨r₂, s₂, tr₂, tr'', rfl, h₂, hend⟩ | ⟨msg, rfl, h₂⟩
      · have hs₂ := (within_handleAdditionalNICs hpool hnets).keeps h₂
        match r₂ with
        | .error e =>
          cases hend
          exact ⟨fun _ heq => (nomatch heq), fun _ => hs₂.trans hs₁⟩
        | .ok (wait', infos) =>
          cases hend
          exact ⟨fun _ _ => ⟨info, infos, rfl, handlePrimaryNIC_unnumbered h₁⟩,
            fun hne => absurd rfl (hne _)⟩
      · have hs₂ := (within_handleAdditionalNICs hpool hnets).keeps h₂
        exact ⟨fun _ heq => (nomatch heq), fun _ => hs₂.trans hs₁⟩
  · exact ⟨fun _ heq => (nomatch heq), fun _ => (within_handlePrimaryNIC hpool).keeps h₁⟩

/-- The outcome of a step that leaves the network info alone unless it is done. -/
def KeepsUnlessDone (info : Option (List NICInfo)) (r : Res Outcome) (s' : MachineVars) : Prop :=
  r ≠ .val (false, none) → s'.machineNetworkInfo = info

theorem reconcileFoundServer_info (server : Server) :
    Finishes (reconcileFoundServer ms server) s (KeepsUnlessDone s.machineNetworkInfo) := by
  unfold reconcileFoundServer
  have hensure : Within (fun _ => True) MachineVars.machineNetworkInfo
      (ensureServerAvailable ms server) :=
    within_ensureServerAvailable machineNetworkInfo_frame (fun _ _ => trivial) server
  refine .bind (.of_within hensure fun r s₁ hs₁ => ?_)
  match r with
  | .panic msg => exact fun _ => hs₁
  | .val (false, none) => exact fun hne => absurd rfl hne
  | .val (true, none) => exact .pure fun _ => hs₁
  | .val (false, some e) => exact .pure fun _ => hs₁
  | .val (true, some e) => exact .pure fun _ => hs₁

/-- The server step records the NICs when it is done, and leaves the network info alone if not. -/
theorem reconcileServer_info :
    Finishes (reconcileServer ms) s (KeepsUnlessDone s.machineNetworkInfo) := by
  unfold reconcileServer
  have hsecret : Within (fun _ => True) MachineVars.machineNetworkInfo
      ms.getBootstrapDataSecret := within_getBootstrapDataSecret fun _ _ => trivial
  refine .bind (.of_within hsecret fun r s₁ hs₁ => ?_)
  match r with
  | .panic msg => exact fun _ => hs₁
  | .val (.error e) =>
    exact .ite (fun _ => .pure fun _ => hs₁) fun _ => .pure fun _ => hs₁
  | .val (.ok secret) =>
    rw [← hs₁]
    have hfind : Within (fun _ => True) MachineVars.machineNetworkInfo
        (findResource (getServer ms) (getLatestServerCreationRequest ms)) :=
      within_findResource (within_getServer machineNetworkInfo_frame.providerID (fun _ _ => trivial)
        fun _ => trivial) (within_getMatchingRequest fun _ => trivial)
    refine .bind (.of_within hfind fun r s₂ hs₂ => ?_)
    match r with
    | .panic msg => exact fun _ => hs₂
    | .val (.error e) => exact .pure fun _ => hs₂
    | .val (.ok (server, request)) =>
      rw [← hs₂]
      refine .ite (fun _ => .pure fun _ => rfl) fun _ => ?_
      cases server with
      | some server => exact reconcileFoundServer_info server
      | none =>
        refine .of_within (Within.bind (within_createServer machineNetworkInfo_frame secret)
          fun r => ?_) fun _ _ hs₃ _ => hs₃
        cases r <;> exact .pure _

end

/-! ## A run -/

section

variable {ms : MachineScope} {v v' : MachineVars} {tr : List (Event Call Call.Ans)}

/-- Steps that end before the server step is done leave the network info as `ReconcileIPAddresses`
has left it, if they get there. -/
theorem steps_info {r : Res (Option (Result × Option Err))}
    (hsteps : Runs (runSteps (fun e => setProvisioningCondition ms (some e)) (normalSequence ms)) v tr r v')
    (hstop : ∀ v₂ tr₁ tr₂, tr = tr₁ ++ tr₂ → ¬ StepsDone ((normalSequence ms).take 3) v tr₁ v₂) :
    ∃ v₁ tr₁ tr₂ r₁, tr = tr₁ ++ tr₂ ∧ Runs (reconcileLAN ms) v tr₁ r₁ v₁ ∧
      v₁.machineNetworkInfo = v.machineNetworkInfo ∧
      (r₁ ≠ .val (false, none) ∧ v'.machineNetworkInfo = v₁.machineNetworkInfo ∨
        r₁ = .val (false, none) ∧ ∃ v₂ tr₃ tr₄ r₂, tr₂ = tr₃ ++ tr₄ ∧
          Runs (reconcileIPAddresses ms) v₁ tr₃ r₂ v₂ ∧
          v'.machineNetworkInfo = v₂.machineNetworkInfo) := by
  have herror : ∀ e, Within (fun _ => True) MachineVars.machineNetworkInfo
      (setProvisioningCondition ms (some e)) :=
    fun e => within_setProvisioningCondition (fun _ _ => rfl) (some e)
  have hkept : ∀ {r₁ tr₁ v₁}, Runs (reconcileLAN ms) v tr₁ r₁ v₁ →
      v₁.machineNetworkInfo = v.machineNetworkInfo :=
    fun h => (within_reconcileLAN machineNetworkInfo_frame.cluster).keeps h
  obtain ⟨v₁, tr₁, tr₂, rfl, hlan⟩ := runSteps_cons_inv herror hsteps
  rcases hlan with ⟨hlan, hrest⟩ | ⟨r₁, hlan, hr₁, hend⟩
  · refine ⟨v₁, tr₁, tr₂, _, rfl, hlan, hkept hlan, .inr ⟨rfl, ?_⟩⟩
    obtain ⟨v₂, tr₃, tr₄, rfl, haddresses⟩ := runSteps_cons_inv herror hrest
    rcases haddresses with ⟨haddresses, hrest⟩ | ⟨r₂, haddresses, -, hend⟩
    · -- the server step is not done, and changes nothing
      obtain ⟨v₃, tr₅, tr₆, rfl, hserver⟩ := runSteps_cons_inv herror hrest
      refine ⟨v₂, tr₃, tr₅ ++ tr₆, _, rfl, haddresses, ?_⟩
      rcases hserver with ⟨hserver, -⟩ | ⟨r₃, hserver, hr₃, hend⟩
      · exact absurd (.cons hlan (.cons haddresses (.cons hserver (.nil v₃))))
          (hstop v₃ (tr₁ ++ (tr₃ ++ (tr₅ ++ []))) tr₆ (by simp))
      · exact hend.trans (reconcileServer_info.run hserver hr₃)
    · exact ⟨v₂, tr₃, tr₄, r₂, rfl, haddresses, hend⟩
  · exact ⟨v₁, tr₁, tr₂, r₁, rfl, hlan, hkept hlan, .inl ⟨hr₁, hend⟩⟩

/-- A run that ends before `ReconcileServer` is done leaves a plan if it has come to the end of
`ReconcileIPAddresses`. -/
theorem planned_of_written {r : Res (Result × Option Err)} (hrun : Runs (reconcileNormal ms) v tr r v')
    (hstop : ¬ ServerRecorded ms v tr) (hwritten : AddressesWritten ms v tr) :
    Planned v'.machineNetworkInfo := by
  obtain ⟨v₁, v₂, v₃, tr₁, tr₂, tr₃, tr₄, requeue, rfl, hreach, hlan, haddresses⟩ := hwritten
  obtain ⟨r', hsteps, -⟩ := fromSteps_inv (hreach.resume hrun)
  obtain ⟨w₁, tr₅, tr₆, r₁, htr, hlan', -, hend⟩ := steps_info hsteps
    fun w tr₅ tr₆ htr hdone => hstop ⟨v₁, w, tr₁, tr₅, tr₆, by rw [htr], hreach, hdone⟩
  -- the run makes its steps on the answers that it has
  obtain ⟨rfl, rfl, rfl, rfl⟩ := hlan.unique hlan' htr
  rcases hend with ⟨hne, -⟩ | ⟨-, w₂, tr₇, tr₈, r₂, htr, haddresses', hend⟩
  · exact absurd rfl hne
  · obtain ⟨rfl, rfl, rfl, -⟩ := haddresses.unique haddresses' htr
    rw [hend]
    exact (reconcileIPAddresses_info haddresses).1 requeue rfl

/-- If it has not, it leaves the network info as it was. -/
theorem info_kept {r : Res (Result × Option Err)} (hrun : Runs (reconcileNormal ms) v tr r v')
    (hstop : ¬ ServerRecorded ms v tr) (hwritten : ¬ AddressesWritten ms v tr) :
    v'.machineNetworkInfo = v.machineNetworkInfo := by
  by_cases hkept : v'.machineNetworkInfo = v.machineNetworkInfo
  · exact hkept
  obtain ⟨v₁, tr₁, tr', rfl, hreach, hv₁, hfrom⟩ := reconcileNormal_inv
    machineNetworkInfo_frame.cluster (fun _ _ => rfl) (fun _ _ => rfl) (fun _ _ => rfl) hrun hkept
  obtain ⟨r', hsteps, -⟩ := fromSteps_inv hfrom
  obtain ⟨v₂, tr₂, tr₃, r₁, rfl, hlan, hv₂, hend⟩ := steps_info hsteps
    fun w tr₅ tr₆ htr hdone => hstop ⟨v₁, w, tr₁, tr₅, tr₆, by rw [htr], hreach, hdone⟩
  rcases hend with ⟨-, hend⟩ | ⟨rfl, v₃, tr₄, tr₅, r₂, rfl, haddresses, hend⟩
  · exact hend.trans (hv₂.trans hv₁)
  · refine hend.trans (((reconcileIPAddresses_info haddresses).2 ?_).trans (hv₂.trans hv₁))
    rintro requeue rfl
    exact hwritten ⟨v₁, v₂, v₃, tr₁, tr₂, tr₄, tr₅, requeue, rfl, hreach, hlan, haddresses⟩

end

/-! ## Later runs -/

/-- A run that ends before `ReconcileServer` is done. -/
structure LaterRun where
  ms : MachineScope
  before : MachineVars
  trace : List (Event Call Call.Ans)
  result : Res (Result × Option Err)
  after : MachineVars
  runs : Runs (reconcileNormal ms) before trace result after
  stopped : ¬ ServerRecorded ms before trace

/-- `ReconcileIPAddresses` came to its end in the run. -/
def LaterRun.Writes (run : LaterRun) : Prop := AddressesWritten run.ms run.before run.trace

/-- The runs follow one another. Between two of them everything but the network info may change. -/
def Follow : Option (List NICInfo) → List LaterRun → Prop
  | _, [] => True
  | info, run :: runs =>
    run.before.machineNetworkInfo = info ∧ Follow run.after.machineNetworkInfo runs

/-- The network info after the last run. -/
def leftInfo : Option (List NICInfo) → List LaterRun → Option (List NICInfo)
  | info, [] => info
  | _, run :: runs => leftInfo run.after.machineNetworkInfo runs

theorem leftInfo_kept {info : Option (List NICInfo)} {runs : List LaterRun} (h : Follow info runs)
    (hwrites : ∀ run ∈ runs, ¬ run.Writes) : leftInfo info runs = info := by
  induction runs generalizing info with
  | nil => rfl
  | cons run runs ih =>
    obtain ⟨hfirst, hrest⟩ := List.forall_mem_cons.mp hwrites
    obtain ⟨rfl, hfollow⟩ := h
    rw [leftInfo, ih hfollow hrest]
    exact info_kept run.runs run.stopped hfirst

/-- A plan is followed by plans. -/
theorem leftInfo_planned {info : Option (List NICInfo)} {runs : List LaterRun} (h : Follow info runs)
    (hplanned : Planned info ∨ ∃ run ∈ runs, run.Writes) : Planned (leftInfo info runs) := by
  induction runs generalizing info with
  | nil =>
    rcases hplanned with hplanned | ⟨run, hrun, -⟩
    · exact hplanned
    · cases hrun
  | cons run runs ih =>
    obtain ⟨rfl, hfollow⟩ := h
    refine ih hfollow ?_
    by_cases hwrites : run.Writes
    · exact .inl (planned_of_written run.runs run.stopped hwrites)
    · rw [info_kept run.runs run.stopped hwrites]
      rcases hplanned with hplanned | ⟨run', hmem, hwrites'⟩
      · exact .inl hplanned
      · rcases List.mem_cons.mp hmem with rfl | hmem
        · exact absurd hwrites' hwrites
        · exact .inr ⟨run', hmem, hwrites'⟩

/-- Every NIC of the server is on a LAN. -/
def Attached (server : Server) : Prop := ∀ nic ∈ deref server.nics [], deref nic.lan 0 ≠ 0

/-- The servers of an answer have their NICs on LANs. -/
def ShowsAttached : Event Call Call.Ans → Prop
  | ⟨.serversFindById _ _, .ok server⟩ => Attached server
  | ⟨.serversGet _, .ok items⟩ => ∀ server ∈ deref items [], Attached server
  | _ => True

/-- The network info that a run has recorded is no plan. -/
theorem recorded_not_planned {ms : MachineScope} {v v' : MachineVars}
    {tr : List (Event Call Call.Ans)} {r : Res (Result × Option Err)}
    (hrun : Runs (reconcileNormal ms) v tr r v') (hrecorded : ServerRecorded ms v tr)
    (hlans : ∀ e ∈ tr, ShowsAttached e) : ¬ Planned v'.machineNetworkInfo := by
  obtain ⟨v₁, v₂, tr₁, tr₂, tr₃, rfl, hreach, hdone⟩ := hrecorded
  obtain ⟨r', hsteps, -⟩ := fromSteps_inv (hreach.resume hrun)
  -- the steps after the server step leave the network info alone
  have hrest : Within (fun _ => True) MachineVars.machineNetworkInfo
      (runSteps (fun e => setProvisioningCondition ms (some e)) ((normalSequence ms).drop 3)) := by
    refine within_runSteps (fun e => within_setProvisioningCondition (fun _ _ => rfl) (some e)) ?_
    refine List.forall_mem_cons.mpr ⟨?_, List.forall_mem_singleton.mpr ?_⟩
    · exact (within_reconcileIPFailover machineNetworkInfo_frame).mono fun _ _ => trivial
    · exact .bind (.assign fun _ => rfl) fun _ => .pure _
  rw [hrest.keeps (runSteps_resume hdone hsteps)]
  cases hdone with
  | cons hlan hdone =>
  cases hdone with
  | cons haddresses hdone =>
  cases hdone with
  | @cons _ _ v₂ v₃ _ tr₄ _ hserver hdone =>
  cases hdone
  obtain ⟨server, id, hseen, -, -, rfl⟩ := wp_history reconcileServer_seen hserver rfl
  have hshown : ∀ e ∈ tr₄, ShowsAttached e := fun e he => hlans e (by simp [he])
  have hattached : Attached server := by
    rcases hseen with hseen | ⟨items, hseen, hfound⟩
    · exact hshown _ hseen
    · exact hshown _ hseen server (findServer_mem hfound)
  rintro ⟨first, rest, hinfo, hfirst⟩
  have hmem : first ∈ networkInfo ms server := by
    rw [Option.some.inj hinfo]
    exact List.mem_cons_self ..
  obtain ⟨nic, hnic, rfl⟩ := List.mem_map.mp hmem
  exact hattached nic hnic hfirst

/-- What a run has recorded is still there after any later runs that end before `ReconcileServer` is
done again, if none of them has come to the end of `ReconcileIPAddresses`; and only then, if the NICs
that were recorded are on LANs. -/
theorem network_info_survives (ms : MachineScope) (v v' : MachineVars)
    (tr : List (Event Call Call.Ans)) (r : Res (Result × Option Err))
    (hrun : Runs (reconcileNormal ms) v tr r v') (hrecorded : ServerRecorded ms v tr)
    (runs : List LaterRun) (hfollow : Follow v'.machineNetworkInfo runs) :
    ((∀ run ∈ runs, ¬ run.Writes) → leftInfo v'.machineNetworkInfo runs = v'.machineNetworkInfo) ∧
    ((∀ e ∈ tr, ShowsAttached e) → leftInfo v'.machineNetworkInfo runs = v'.machineNetworkInfo →
      ∀ run ∈ runs, ¬ run.Writes) := by
  refine ⟨leftInfo_kept hfollow, fun hlans hkept run hmem hwrites => ?_⟩
  refine recorded_not_planned hrun hrecorded hlans ?_
  rw [← hkept]
  exact leftInfo_planned hfollow (.inr ⟨run, hmem, hwrites⟩)

/-! ### A server that is busy -/

/-- The answer does not show an available server of the machine. -/
def showsNoServer (ms : MachineScope) : Event Call Call.Ans → Bool
  | ⟨.serversFindById _ _, .ok server⟩ => !isServerAvailable server
  | ⟨.serversGet _, .ok items⟩ =>
    match findServer ms.name (deref items []) with
    | .val (some server) => !isServerAvailable server
    | _ => true
  | _ => true

/-- The server step is not done without an available server. -/
theorem not_recorded {ms : MachineScope} {v : MachineVars} {tr : List (Event Call Call.Ans)}
    (h : tr.all (showsNoServer ms) = true) : ¬ ServerRecorded ms v tr := by
  intro hrecorded
  obtain ⟨v₁, v', tr₁, tr₂, tr₃, rfl, -, hdone⟩ := hrecorded
  unfold normalSequence at hdone
  cases hdone with
  | cons hlan hdone =>
  cases hdone with
  | cons haddresses hdone =>
  cases hdone with
  | @cons _ _ v₂ v₃ _ tr₄ _ hserver hdone =>
  obtain ⟨server, _, hseen, havailable, -⟩ := wp_history reconcileServer_seen hserver rfl
  have hall : ∀ e ∈ tr₄, showsNoServer ms e = true :=
    fun e he => List.all_eq_true.mp h e (by simp [he])
  rcases hseen with hseen | ⟨items, hseen, hfound⟩
  · have hshown := hall _ hseen
    simp [showsNoServer, havailable] at hshown
  · have hshown := hall _ hseen
    simp [showsNoServer, hfound, havailable] at hshown

/-- The answer does not show an available LAN of the machine. -/
def showsNoLAN (ms : MachineScope) : Event Call Call.Ans → Bool
  | ⟨.lansGet _, .ok (some lans)⟩ =>
    match findLAN ms.spec.networkID (lanName ms.clusterScope) 0 none lans with
    | .ok (some lan) => !isAvailable (getState lan.state)
    | _ => true
  | _ => true

/-- The LAN step is not done without an available LAN, and no step after it. -/
theorem not_written {ms : MachineScope} {v : MachineVars} {tr : List (Event Call Call.Ans)}
    (h : tr.all (showsNoLAN ms) = true) : ¬ ServerRecorded ms v tr ∧ ¬ AddressesWritten ms v tr := by
  have hlan : ∀ {w w' tr'}, (∀ e ∈ tr', e ∈ tr) →
      ¬ Runs (reconcileLAN ms) w tr' (.val (false, none)) w' := by
    intro w w' tr' hpart hdone
    obtain ⟨lan, ⟨lans, hmem, hfound⟩, havailable⟩ := wp_history reconcileLAN_seen hdone rfl
    have hshown := List.all_eq_true.mp h _ (hpart _ hmem)
    simp [showsNoLAN, hfound, havailable] at hshown
  constructor
  · intro hrecorded
    obtain ⟨v₁, v₂, tr₁, tr₂, tr₃, rfl, -, hdone⟩ := hrecorded
    cases hdone with
    | cons hdone _ => exact hlan (fun e he => by simp [he]) hdone
  · intro hwritten
    obtain ⟨v₁, v₂, v₃, tr₁, tr₂, tr₃, tr₄, requeue, rfl, -, hdone, -⟩ := hwritten
    exact hlan (fun e he => by simp [he]) hdone

/-- A worker without pool references. -/
def unpooledMachine : MachineScope :=
  { readyMachine with
    spec := { (default : MachineSpec) with datacenterID := "dc" } }

/-- What `readyAnswers` says, with the server in this state. -/
def serverAnswers (state : String) : ∀ c : Call, Call.Ans c
  | .serversGet _ => .ok (some [⟨some "server", some state,
      some ⟨some "m", some "RUNNING", none⟩,
      some [⟨some "nic", some (nicName "m"), some ["203.0.113.1"], none, some 1⟩]⟩])
  | .serversFindById _ _ => .ok ⟨some "server", some state,
      some ⟨some "m", some "RUNNING", none⟩,
      some [⟨some "nic", some (nicName "m"), some ["203.0.113.1"], none, some 1⟩]⟩
  | c => readyAnswers c


/-- The same, with the LAN in this state. -/
def lanStateAnswers (state : String) : ∀ c : Call, Call.Ans c
  | .lansGet _ => .ok (some [⟨some "1", some (lanName readyMachine.clusterScope), some state,
      some [⟨some "203.0.113.1", some "nic"⟩], some ["nic"]⟩])
  | c => serverAnswers "AVAILABLE" c

/-- The calls of a run that finds the server in this state. -/
def serverCalls (state : String) (v : MachineVars) : List (Event Call Call.Ans) :=
  ((reconcileNormal unpooledMachine v).play (serverAnswers state)).1

/-- What such a run leaves. -/
def serverLeft (state : String) (v : MachineVars) : MachineVars :=
  ((reconcileNormal unpooledMachine v).play (serverAnswers state)).2.2

/-- A run for the machine that ends at `ReconcileLAN`, because the LAN is busy. -/
def busyRun : LaterRun where
  ms := unpooledMachine
  before := serverLeft "AVAILABLE" default
  trace := _
  result := _
  after := _
  runs := runs_play (reconcileNormal unpooledMachine) _ (lanStateAnswers "BUSY")
  stopped := (not_written rfl).1

/-- What the first run leaves is neither what was there nor a plan. -/
theorem unpooled_recorded :
    ServerRecorded unpooledMachine default (serverCalls "AVAILABLE" default) := by
  have hrun := runs_play (reconcileNormal unpooledMachine) default (serverAnswers "AVAILABLE")
  by_contra hstop
  by_cases hwritten : AddressesWritten unpooledMachine default (serverCalls "AVAILABLE" default)
  · obtain ⟨first, rest, hinfo, hfirst⟩ := planned_of_written hrun hstop hwritten
    cases hinfo
    cases hfirst
  · cases info_kept hrun hstop hwritten

/-- The server's NIC is recorded in one run. The next one ends at `ReconcileLAN`, and the address of
the NIC is still there. -/
theorem network_info_survives_busy_lan :
    ∃ v₁, Runs (reconcileNormal unpooledMachine) default (serverCalls "AVAILABLE" default)
        (.val (⟨0⟩, none)) v₁ ∧
      ServerRecorded unpooledMachine default (serverCalls "AVAILABLE" default) ∧
      v₁.machineNetworkInfo = some [⟨["203.0.113.1"], [], 1, true⟩] ∧
      busyRun.before = v₁ ∧ busyRun.result = .val (⟨defaultReconcileDuration⟩, none) ∧
      busyRun.after.machineNetworkInfo = some [⟨["203.0.113.1"], [], 1, true⟩] := by
  have hrun := runs_play (reconcileNormal unpooledMachine) default (serverAnswers "AVAILABLE")
  have hsurvives := (network_info_survives unpooledMachine _ _ _ _ hrun unpooled_recorded [busyRun]
    ⟨rfl, trivial⟩).1
  refine ⟨_, hrun, unpooled_recorded, rfl, rfl, rfl, hsurvives ?_⟩
  exact List.forall_mem_singleton.mpr (not_written rfl).2

/-- The server's NIC is recorded in one run. In the next one the server is busy, and the address of
the NIC is gone. -/
theorem network_info_lost :
    ∃ tr₁ v₁ tr₂ v₂, Runs (reconcileNormal unpooledMachine) default tr₁ (.val (⟨0⟩, none)) v₁ ∧
      ServerRecorded unpooledMachine default tr₁ ∧
      v₁.machineNetworkInfo = some [⟨["203.0.113.1"], [], 1, true⟩] ∧
      Runs (reconcileNormal unpooledMachine) v₁ tr₂ (.val (⟨defaultReconcileDuration⟩, none)) v₂ ∧
      ¬ ServerRecorded unpooledMachine v₁ tr₂ ∧
      v₂.machineNetworkInfo = some [⟨[], [], 0, true⟩] :=
  ⟨_, _, _, _, runs_play (reconcileNormal unpooledMachine) default (serverAnswers "AVAILABLE"),
    unpooled_recorded, rfl,
    runs_play (reconcileNormal unpooledMachine) _ (serverAnswers "BUSY"), not_recorded rfl, rfl⟩

end Capic.Properties
