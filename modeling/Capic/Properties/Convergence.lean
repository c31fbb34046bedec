import Capic.Properties.Convergence.Run

/-!
# A machine gets what it needs

What the machine controller is for: runs of the controller, one after the other, lead to a machine
that has everything it needs, and then change nothing.

* `reconcile_advances`: a run waits for the request in flight, or asks for the first thing that is
  missing, or finds the machine complete and says so. It does not fail and does not panic.
* `reconcile_converges`: if what was asked for arrives again and again, then from some run on the
  machine is complete and provisioned. If it has always arrived before the next run, then as many
  runs are enough as there are steps left at the beginning, and one more.
* `reconcile_rests`: a run for a complete machine asks for nothing, and does not come back.

All this is about runs in `Place.monitor`, a world without failures that nobody else changes.
-/

namespace Capic.Properties.Convergence

open Effect Effect.Go Cloud Controller K8s

namespace Place

variable {ms : MachineScope} {P : Place ms} {site site' : Site} {v v' : MachineVars} {r : Result}

/-! ## The end of a run -/

theorem RunEnds.sound (h : P.RunEnds site site' r v') : P.Sound site' v' := by
  cases h with
  | waits _ hsound => exact hsound
  | asks _ _ hsound => exact hsound
  | completes _ _ hsound _ => exact hsound

/-- Nothing is missing at a complete site. -/
theorem Complete.no_advance (h : P.Complete site) : ¬ P.Advance site site' := by
  intro hadvance
  cases hadvance with
  | lan path habsent => cases h.serves.lan.symm.trans habsent
  | claims hlan hmissing => exact hmissing h.serves.claims
  | server path hlan hclaims habsent => cases h.serves.server.symm.trans habsent
  | vm path hlan hclaims hserver habsent => cases h.serves.vm.symm.trans habsent
  | block path hserves hauto habsent => cases (h.block hauto).symm.trans habsent
  | group ips config hserves hrequired hblock hip hips hjoin =>
    cases (h.joined hrequired).symm.trans hjoin

/-- At a complete site a run leaves everything as it is. -/
theorem RunEnds.rests (h : P.RunEnds site site' r v') (hcomplete : P.Complete site) :
    site' = site ∧ r = ⟨0⟩ ∧ v'.provisioned = some true := by
  cases h with
  | waits hflying _ => exact absurd hflying hcomplete.idle
  | asks _ hadvance _ => exact absurd hadvance hcomplete.no_advance
  | completes _ hcompletes _ hprovisioned =>
    refine ⟨?_, rfl, hprovisioned⟩
    rcases hcompletes.2 with hsame | ⟨hmissing, hrequired, -⟩
    · exact hsame
    · exact absurd (hcomplete.nic hrequired) hmissing

/-- A run does not add to what is left, and takes something from it if nothing is under way. -/
theorem RunEnds.left_le (h : P.RunEnds site site' r v') :
    (P.Complete site' ∧ v'.provisioned = some true) ∨
      P.left site' ≤ P.left site ∧ (P.Settled site → P.left site' < P.left site) := by
  cases h with
  | waits hflying _ => exact .inr ⟨Nat.le_refl _, fun hsettled => absurd hflying hsettled.1⟩
  | asks _ hadvance _ =>
    rcases hadvance.left_lt with hlt | ⟨hunsettled, hle⟩
    · exact .inr ⟨Nat.le_of_lt hlt, fun _ => hlt⟩
    · exact .inr ⟨hle, fun hsettled => absurd hsettled hunsettled⟩
  | completes _ hcompletes _ hprovisioned => exact .inl ⟨hcompletes.1, hprovisioned⟩

/-! ## Rounds -/

/-- What the variables say about a site stays true while things arrive. -/
theorem Sound.arrives (h : P.Sound site v) (harrives : site.Arrives site') : P.Sound site' v where
  fits := h.fits
  network hne := harrives.lan.stays (h.network hne)
  datacenter hcoming := by
    rw [harrives.request]
    exact h.datacenter (harrives.lan.coming hcoming)
  own hcoming := by
    rw [harrives.request]
    refine h.own ?_
    rcases hcoming with hserver | hvm | hblock
    · exact .inl (harrives.server.coming hserver)
    · exact .inr (.inl (harrives.vm_coming hvm))
    · exact .inr (.inr (harrives.block.coming hblock))
  datacenterPath := h.datacenterPath
  ownPath := h.ownPath

/-- A run of the controller, and what arrives after it. -/
def Round (P : Place ms) (x y : Site × MachineVars) : Prop :=
  Go.Round P.monitor (Machine.reconcile ms) Site.Arrives x y

/-- Nothing is missing, and the machine is provisioned. -/
def Done (P : Place ms) (x : Site × MachineVars) : Prop :=
  P.Complete x.1 ∧ x.2.provisioned = some true

theorem Round.ends (himage : P.HasImage) {x y : Site × MachineVars} (h : P.Round x y)
    (hsound : P.Sound x.1 x.2) :
    ∃ site r, P.RunEnds x.1 site r y.2 ∧ site.Arrives y.1 := by
  obtain ⟨site, r, ⟨-, hends⟩, harrives⟩ :=
    Go.Round.of_wp h (wp_reconcile himage hsound) fun _ hpanic => hpanic
  exact ⟨site, r.1, hends, harrives⟩

/-- What is left decreases in rounds that begin when nothing is under way. -/
theorem ranked (himage : P.HasImage) :
    Ranked P.Round (fun x => P.Sound x.1 x.2) (fun x => P.Settled x.1) P.Done
      (fun x => P.left x.1) where
  keeps hsound h := by
    obtain ⟨site, r, hends, harrives⟩ := h.ends himage hsound
    exact hends.sound.arrives harrives
  stays hsound h hdone := by
    obtain ⟨site, r, hends, harrives⟩ := h.ends himage hsound
    obtain ⟨rfl, -, hprovisioned⟩ := hends.rests hdone.1
    exact ⟨hdone.1.arrives harrives, hprovisioned⟩
  le hsound h := by
    obtain ⟨site, r, hends, harrives⟩ := h.ends himage hsound
    rcases hends.left_le with hdone | ⟨hle, -⟩
    · exact .inl ⟨hdone.1.arrives harrives, hdone.2⟩
    · exact .inr (Nat.le_trans (left_arrives harrives) hle)
  lt hsound h hsettled := by
    obtain ⟨site, r, hends, harrives⟩ := h.ends himage hsound
    rcases hends.left_le with hdone | ⟨-, hlt⟩
    · exact .inl ⟨hdone.1.arrives harrives, hdone.2⟩
    · exact .inr (Nat.lt_of_le_of_lt (left_arrives harrives) (hlt hsettled))

/-! ## Orders -/

/-- Only an order changes the site. -/
theorem moved_of_not_orders {c : Call} (h : orders c = false) (a : Call.Ans c) :
    P.moved site c a = site := by
  cases c <;> first | rfl | cases h

/-- Calls that are allowed at a complete site leave it complete, so that all of them are no
orders. -/
theorem Complete.orders_nothing {tr : List (Event Call Call.Ans)} (h : P.Complete site)
    (hallows : P.monitor.Allows site tr) :
    P.monitor.after site tr = site ∧ ∀ e ∈ tr, orders e.call = false := by
  induction tr with
  | nil => exact ⟨rfl, fun _ he => absurd he List.not_mem_nil⟩
  | cons e tr ih =>
    obtain ⟨hfirst, hrest⟩ := hallows
    have hmoved : P.moved site e.call e.answer = site := moved_of_not_orders (hfirst h) _
    unfold Monitor.after
    rw [show P.monitor.next site e.call e.answer = site from hmoved] at hrest ⊢
    obtain ⟨hsame, horders⟩ := ih hrest
    exact ⟨hsame, List.forall_mem_cons.mpr ⟨hfirst h, horders⟩⟩

/-! ## The world can answer -/

theorem exists_lans (P : Place ms) (site : Site) : ∃ lans, P.ShowsLANs site lans := by
  unfold ShowsLANs
  cases site.lan with
  | absent => exact ⟨[], rfl⟩
  | coming => exact ⟨[], trivial⟩
  | there =>
    let lan : Lan :=
      ⟨some P.lanID, some (lanName ms.clusterScope), some "AVAILABLE", some site.group, none⟩
    refine ⟨[lan], lan, ⟨rfl, rfl, rfl⟩, ?_⟩
    cases hnetwork : ms.spec.networkID with
    | none => simp [hasName, lan]
    | some id =>
      exact ⟨[], [], rfl, congrArg some (P.network id hnetwork).symm,
        fun _ h => absurd h List.not_mem_nil, Nat.zero_le _⟩

theorem exists_isServer (P : Place ms) (site : Site) : ∃ server, P.IsServer site server := by
  let nic : Nic := ⟨some P.nicID, some (nicName ms.name), some site.nicIPs, none, none⟩
  refine ⟨⟨some P.serverID, some "AVAILABLE",
    some ⟨some ms.name, if site.vm = .there then some "RUNNING" else none, none⟩,
    some [nic]⟩, rfl, rfl, rfl, ?_, nic, by simp [deref, isPrimaryNIC, nic], rfl, rfl⟩
  by_cases hvm : site.vm = .there <;> simp [getVMState, deref, hvm]

theorem exists_servers (P : Place ms) (site : Site) :
    ∃ items : Option (List Server), P.ShowsServers site (deref items []) := by
  unfold ShowsServers
  cases site.server with
  | absent => exact ⟨none, ⟨fun _ h => absurd h List.not_mem_nil, rfl⟩⟩
  | coming => exact ⟨none, ⟨fun _ h => absurd h List.not_mem_nil, trivial⟩⟩
  | there =>
    obtain ⟨server, hserver⟩ := P.exists_isServer site
    have hname := hserver.name
    refine ⟨some [server], ⟨fun s hs properties hproperties hnone => ?_, server, hserver, ?_⟩⟩
    · obtain rfl := List.mem_singleton.mp hs
      simp [nameOf, hproperties, hnone] at hname
    · simp [deref, hname]

theorem exists_blocks (P : Place ms) (site : Site) :
    ∃ blocks : Option (List IpBlock), P.ShowsBlocks site (deref blocks []) := by
  unfold ShowsBlocks
  cases site.block with
  | absent => exact ⟨none, rfl⟩
  | coming => exact ⟨none, trivial⟩
  | there =>
    let block : IpBlock :=
      ⟨none, some (failoverIPBlockName ms), some P.location, some [P.failoverIP], some "AVAILABLE"⟩
    exact ⟨some [block], block, [], rfl, rfl, by simp [deref, isNamedBlock, block]⟩

theorem exists_status (site : Site) (url : String) : ∃ status, Reports site url status := by
  unfold Reports
  split
  next => exact ⟨_, .inl rfl⟩
  next => exact ⟨_, .inl rfl⟩

/-- Every call has an answer, if the failover IP is one that a name can stand for. -/
theorem exists_answer (hip : ∃ ip, ClusterScope.addrText ip = P.failoverIP) (site : Site)
    (c : Call) : ∃ a, P.Answers site c a := by
  cases c with
  | lansGet dc =>
    obtain ⟨lans, hlans⟩ := P.exists_lans site
    exact ⟨.ok (some lans), fun _ => ⟨lans, rfl, hlans⟩⟩
  | serversGet dc =>
    obtain ⟨items, hitems⟩ := P.exists_servers site
    exact ⟨.ok items, fun _ => ⟨items, rfl, hitems⟩⟩
  | serversFindById dc id =>
    obtain ⟨server, hserver⟩ := P.exists_isServer site
    have hmissing : ∃ e, (Except.error (.openAPI 404 "") : Except Err Server) = .error e ∧
        isNotFound e = true := ⟨_, rfl, rfl⟩
    unfold Answers
    cases site.server with
    | absent => exact ⟨_, fun _ => hmissing⟩
    | coming => exact ⟨.ok server, fun _ => trivial⟩
    | there =>
      by_cases hid : id = P.serverID
      · exact ⟨.ok server, fun _ => by simpa only [if_pos hid] using ⟨server, rfl, hserver⟩⟩
      · exact ⟨_, fun _ => by simpa only [if_neg hid] using hmissing⟩
  | ipblocksGet =>
    obtain ⟨blocks, hblocks⟩ := P.exists_blocks site
    exact ⟨.ok blocks, blocks, rfl, hblocks⟩
  | serversPost dc server =>
    exact ⟨.ok ({ (default : Server) with id := some P.serverID }, "request"), _, _, rfl, rfl,
      by decide⟩
  | lansPost dc lan => exact ⟨.ok "request", _, rfl, by decide⟩
  | lansPatch dc lan config => exact ⟨.ok "request", _, rfl, by decide⟩
  | serversStartPost dc id => exact ⟨.ok "request", _, rfl, by decide⟩
  | nicsPatch dc server nic ips => exact ⟨.ok "request", _, rfl, by decide⟩
  | ipblocksPost name location size => exact ⟨.ok "request", _, rfl, by decide⟩
  | requestsGet method url => exact ⟨.ok none, _, rfl, fun _ h => by cases h⟩
  | getRequestStatus url =>
    obtain ⟨status, hstatus⟩ := exists_status site url
    exact ⟨.ok ⟨some status, none⟩, _, status, rfl, rfl, hstatus⟩
  | waitForRequest url => exact ⟨.ok (), rfl⟩
  | patchMachine obj => exact ⟨.ok (), rfl⟩
  | patchCluster obj => exact ⟨.ok (), rfl⟩
  | createOrUpdateIPAddressClaim claim => exact ⟨.ok (), rfl⟩
  | updateCredentials secret => exact ⟨.ok (), rfl⟩
  | lock key => exact ⟨.ok (), rfl⟩
  | getSecret ns name => exact ⟨.ok ⟨some ""⟩, _, rfl⟩
  | getIPAddressClaim ns name =>
    unfold Answers
    dsimp only
    cases site.claims name with
    | absent => exact ⟨.error (.k8sNotFound ""), fun _ => ⟨_, rfl, rfl⟩⟩
    | coming => exact ⟨.ok ⟨ns, name, [], ""⟩, fun _ => ⟨_, rfl, rfl⟩⟩
    | there => exact ⟨.ok ⟨ns, name, [], "address"⟩, fun _ => ⟨_, rfl, by simp⟩⟩
  | getIPAddress ns name => exact ⟨.ok "10.0.0.1", _, rfl, by decide⟩
  | getCredentials ns name => exact ⟨.ok ⟨ns, name, 0, [], [], "token", ""⟩, _, rfl, rfl⟩
  | lookupNetIP host =>
    obtain ⟨ip, hip⟩ := hip
    exact ⟨.ok [ip], [ip], ip, [], rfl, rfl, hip⟩
  | datacentersFindById dc => exact ⟨_, rfl⟩
  | imagesFindById id => exact ⟨_, rfl⟩
  | labelsGet => exact ⟨_, rfl⟩
  | _ => exact ⟨Call.plain _, trivial⟩

/-- There are runs without an end in which everything asked for has arrived before the next
run. -/
theorem exists_settled_rounds (hip : ∃ ip, ClusterScope.addrText ip = P.failoverIP)
    (hsettled : P.Settled site) (v : MachineVars) :
    ∃ x : Nat → Site × MachineVars, x 0 = (site, v) ∧ (∀ n, P.Round (x n) (x (n + 1))) ∧
      ∀ n, P.Settled (x n).1 := by
  have hround : ∀ x, ∃ y, Go.Round P.monitor (Machine.reconcile ms)
      (fun site site' => Site.settle site = site') x y := by
    intro x
    exact exists_round (exists_answer hip) (fun site => ⟨Site.settle site, rfl⟩) _ x
  obtain ⟨x, hx₀, hrounds⟩ := exists_rounds hround (site, v)
  refine ⟨x, hx₀, fun n => ?_, fun n => ?_⟩
  · obtain ⟨tr, r, hruns, hadmits, hmoves⟩ := hrounds n
    exact ⟨tr, r, hruns, hadmits, hmoves ▸ Site.arrives_settle _⟩
  · cases n with
    | zero =>
      rw [hx₀]
      exact hsettled
    | succ n =>
      obtain ⟨tr, r, -, -, hmoves⟩ := hrounds n
      rw [← hmoves]
      exact settled_settle _

end Place

open Place

/-! ## A worker that joins a failover group -/

/-- A worker with an address from a pool, and a failover IP of its own. -/
def workerMachine : MachineScope :=
  { (default : MachineScope) with
    name := "worker"
    dataSecretName := some "bootstrap"
    spec := { (default : MachineSpec) with
      datacenterID := "dc"
      failoverIP := some cloudResourceConfigAuto
      ipam := ⟨some ⟨some "ipam.cluster.x-k8s.io", "InClusterIPPool", "pool"⟩, none⟩
      disk := { (default : Volume) with image := ⟨"image", none⟩ } }
    clusterScope := { (default : ClusterScope) with
      infrastructureProvisioned := some true
      parseAddr := some }
    uuidValidate := fun _ => none }

def workerPlace : Place workerMachine where
  lanID := "1"
  serverID := "server"
  nicID := "nic"
  location := "de/fra"
  failoverIP := "10.0.0.9"
  images := fun id => ⟨some id, none, none, 0⟩
  labels := []
  live := rfl
  infrastructure := rfl
  bootstrap := ⟨"bootstrap", rfl, by decide⟩
  owned _ := ⟨_, rfl⟩
  datacenter := ⟨by decide, by decide, by decide, by decide⟩
  pools := by
    intro nic hnic family ref href
    obtain rfl := List.mem_singleton.mp hnic
    cases family with
    | ipv4 =>
      obtain rfl := Option.some.inj href
      exact Option.some_ne_none _
    | ipv6 => cases href
  network := by
    intro id hid
    cases hid
  failover := by
    intro _ ip hip
    obtain rfl := Option.some.inj hip
    exact ⟨by decide, fun h => absurd rfl h⟩
  lanClean := ⟨by decide, by decide, by decide, by decide⟩
  lanNumber := ⟨1, rfl⟩
  serverClean := ⟨by decide, by decide, by decide, by decide⟩
  serverValid := rfl
  nicClean := ⟨by decide, by decide, by decide, by decide⟩
  locationGiven := by decide

/-- Nothing is there, and nothing was asked for. -/
def emptySite : Site := ⟨.absent, fun _ => .absent, .absent, .absent, .absent, [], [], ""⟩

/-- Everything is there. -/
def fullSite : Site :=
  ⟨.there, fun _ => .there, .there, .there, .there, ["10.0.0.9"],
    [⟨some "10.0.0.9", some "nic"⟩], ""⟩

theorem worker_fits : workerPlace.Fits default where
  server := .inr rfl
  location := .inl rfl
  endpoint h := by cases h

theorem worker_sound {site : Site} (h : ¬ site.InFlight) : workerPlace.Sound site default where
  fits := worker_fits
  network hne := absurd rfl hne
  datacenter hcoming := absurd (.inl hcoming) h
  own hcoming := absurd (.inr hcoming) h
  datacenterPath req hreq := by cases hreq
  ownPath req hreq := by cases hreq

theorem worker_hasImage : workerPlace.HasImage := .inl (by decide)

theorem worker_failoverIP : ∃ ip, ClusterScope.addrText ip = workerPlace.failoverIP :=
  ⟨0x0a000009, by decide⟩

/-! ## The main results -/

section

variable {ms : MachineScope} {P : Place ms} {site : Site} {v v' : MachineVars}
  {tr : List (Event Call Call.Ans)} {r : Res (Result × Option Err)}

/-- A run does one step towards what the machine needs: it waits for the request in flight, asks
for the first thing that is missing, or finds nothing missing. It never fails. -/
theorem reconcile_advances (himage : P.HasImage) (hsound : P.Sound site v)
    (hruns : Runs (Machine.reconcile ms) v tr r v') (hadmits : P.monitor.Admits site tr) :
    ∃ result, r = .val (result, none) ∧
      P.RunEnds site (P.monitor.after site tr) result v' := by
  have hwp := wp_reconcile himage hsound
  cases r with
  | panic msg => exact (wp_runs_panic hwp hruns hadmits).elim
  | val a =>
    obtain ⟨result, err⟩ := a
    obtain ⟨herr, hends⟩ := wp_runs hwp hruns hadmits
    obtain rfl : err = none := herr
    exact ⟨result, rfl, hends⟩

/-- The worker's first run. -/
theorem worker_advances : ∃ tr r v', Runs (Machine.reconcile workerMachine) default tr r v' ∧
    workerPlace.monitor.Admits emptySite tr ∧ ∃ result, r = .val (result, none) ∧
      workerPlace.RunEnds emptySite (workerPlace.monitor.after emptySite tr) result v' := by
  obtain ⟨tr, r, v', hruns, hadmits⟩ := exists_run (M := workerPlace.monitor)
    (workerPlace.exists_answer worker_failoverIP) (Machine.reconcile workerMachine) emptySite default
  exact ⟨tr, r, v', hruns, hadmits,
    reconcile_advances worker_hasImage (worker_sound (by decide)) hruns hadmits⟩

/-- If what was asked for arrives again and again, the runs lead to a machine that has everything
and is provisioned, and it stays so. If everything arrives before the next run, as many runs are
enough as there were steps left at the beginning, and one more, in which the machine is found
complete. -/
theorem reconcile_converges (himage : P.HasImage) {x : Nat → Site × MachineVars}
    (hsound : P.Sound (x 0).1 (x 0).2) (hrounds : ∀ n, P.Round (x n) (x (n + 1)))
    (hfair : ∀ n, ∃ m, n ≤ m ∧ P.Settled (x m).1) :
    (∃ N, ∀ n, N ≤ n → P.Complete (x n).1 ∧ (x n).2.provisioned = some true) ∧
      ((∀ n, P.Settled (x n).1) → ∀ n, P.left (x 0).1 < n →
        P.Complete (x n).1 ∧ (x n).2.provisioned = some true) :=
  ⟨(ranked himage).eventually hrounds hsound hfair,
    fun hsettled _ hn => (ranked himage).within hrounds hsound hsettled hn⟩

/-- The worker has everything after at most twelve runs, for eleven steps that are left. -/
theorem worker_converges : ∃ x : Nat → Site × MachineVars, x 0 = (emptySite, default) ∧
    (∀ n, workerPlace.Round (x n) (x (n + 1))) ∧
    ∀ n, 12 ≤ n → workerPlace.Complete (x n).1 ∧ (x n).2.provisioned = some true := by
  have hstart : workerPlace.Settled emptySite := ⟨by decide, fun _ _ => Progress.noConfusion⟩
  have hleft : workerPlace.left emptySite = 11 := by decide
  obtain ⟨x, hx₀, hrounds, hsettled⟩ := exists_settled_rounds worker_failoverIP hstart default
  have hsound : workerPlace.Sound (x 0).1 (x 0).2 := by
    rw [hx₀]
    exact worker_sound (by decide)
  have hconverges := reconcile_converges worker_hasImage hsound hrounds
    fun n => ⟨n, Nat.le_refl n, hsettled n⟩
  refine ⟨x, hx₀, hrounds, fun n hn => hconverges.2 hsettled n ?_⟩
  rw [hx₀, hleft]
  exact hn

/-- A run for a complete machine asks for nothing, leaves everything as it is, and does not come
back. -/
theorem reconcile_rests (himage : P.HasImage) (hsound : P.Sound site v)
    (hcomplete : P.Complete site) (hruns : Runs (Machine.reconcile ms) v tr r v')
    (hadmits : P.monitor.Admits site tr) :
    r = .val (⟨0⟩, none) ∧ v'.provisioned = some true ∧ P.monitor.after site tr = site ∧
      ∀ e ∈ tr, orders e.call = false := by
  have hwp := wp_reconcile himage hsound
  obtain ⟨hsame, horders⟩ := hcomplete.orders_nothing (wp_runs_allows hwp hruns hadmits)
  cases r with
  | panic msg => exact (wp_runs_panic hwp hruns hadmits).elim
  | val a =>
    obtain ⟨result, err⟩ := a
    obtain ⟨herr, hends⟩ := wp_runs hwp hruns hadmits
    obtain ⟨-, hresult, hprovisioned⟩ := hends.rests hcomplete
    obtain rfl : err = none := herr
    obtain rfl : result = ⟨0⟩ := hresult
    exact ⟨rfl, hprovisioned, hsame, horders⟩

theorem full_complete : workerPlace.Complete fullSite where
  serves := ⟨rfl, fun _ _ => rfl, rfl, rfl⟩
  idle := by decide
  block _ := rfl
  nic _ := List.mem_singleton.mpr rfl
  joined _ := rfl

/-- A run for a worker that has everything. -/
theorem worker_rests : ∃ tr r v', Runs (Machine.reconcile workerMachine) default tr r v' ∧
    workerPlace.monitor.Admits fullSite tr ∧ r = .val (⟨0⟩, none) ∧
    v'.provisioned = some true ∧ ∀ e ∈ tr, orders e.call = false := by
  obtain ⟨tr, r, v', hruns, hadmits⟩ := exists_run (M := workerPlace.monitor)
    (exists_answer worker_failoverIP) (Machine.reconcile workerMachine) fullSite default
  obtain ⟨hr, hprovisioned, -, horders⟩ := reconcile_rests worker_hasImage
    (worker_sound full_complete.idle) full_complete hruns hadmits
  exact ⟨tr, r, v', hruns, hadmits, hr, hprovisioned, horders⟩

end

end Capic.Properties.Convergence
