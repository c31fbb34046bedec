import Capic.Effect.Panics
import Capic.Properties.Provisioned

/-!
# Planned addresses reach the right NIC

`ReconcileIPAddresses` writes one entry for each NIC into the machine's network info, in the order of
the networks in the spec. `buildServerEntities`, one step later, takes its addresses from there by
position. The two lists go together because the server step runs in the same sequence, on the
variables that the IP step left (`reconcileIPAddresses_seen`), and nothing in between touches the
network info.

`server_planned` says what every server that a run of `reconcileNormal` asks for looks like, and that
the accesses to the network info are in bounds: the server step, run after the steps before it, does
not end in the panic they would raise.
-/

namespace Capic.Properties

open Effect Effect.Go Cloud K8s Controller Controller.Machine

/-! ## What is to be created -/

section

variable (ms : MachineScope) (tr : List (Event Call Call.Ans))

/-- The NIC has the addresses of its own claims, and no others. -/
def NICPlanned (nic : String) (ipam : IPAMConfig) (post : NicPost) : Prop :=
  ∃ info, NICServed ms tr nic ipam info ∧ post.ips = some info.ipv4Addresses ∧
    post.ipv6Ips = some info.ipv6Addresses

/-- The NIC of an additional network. -/
structure NICAttached (net : Network) (post : NicPost) : Prop where
  lan : post.lan = net.networkID
  vnet : post.vnet = net.vnet
  dhcp : post.dhcp = net.dhcp
  addresses : NICPlanned ms tr (additionalNIC ms.name net.networkID) net.ipam post

/-- The NICs of the server: the primary one on the LAN that was found, and one for each additional
network. -/
def ServerPlanned (server : ServerPost) : Prop :=
  server.nics.length = 1 + ms.spec.additionalNetworks.length ∧
  ∃ primary additional lan, server.nics = primary :: additional ∧ LANSeen ms tr lan ∧
    Text.parseInt32 (deref lan.id "invalid") = .ok primary.lan ∧
    NICPlanned ms tr (primaryNIC ms.name) ms.spec.ipam primary ∧
    List.Forall₂ (NICAttached ms tr) ms.spec.additionalNetworks additional

end

section

variable {ms : MachineScope} {tr : List (Event Call Call.Ans)}

/-- The loop over the additional networks finds the entries of the networks, from the position after
the one it is at. -/
theorem additionalNICs_attached {all infos : List NICInfo} {nets : List Network} {i : Nat}
    (hdrop : all.drop (i + 1) = infos) (hserved : NetworksServed ms tr nets infos) :
    ∃ nics, additionalNICs (some all) i nets = .val nics ∧
      List.Forall₂ (NICAttached ms tr) nets nics := by
  induction nets generalizing i infos with
  | nil => exact ⟨[], rfl, .nil⟩
  | cons net nets ih =>
    cases infos with
    | nil => exact hserved.elim
    | cons info infos =>
      have hentry : all[i + 1]? = some info := by
        have hhead : (all.drop (i + 1))[0]? = some info := by rw [hdrop]; rfl
        simpa using hhead
      have hrest : all.drop (i + 1 + 1) = infos := by
        rw [← List.drop_drop, hdrop]
        rfl
      obtain ⟨nics, hnics, hattached⟩ := ih hrest hserved.2
      refine ⟨⟨net.networkID, none, net.dhcp, net.vnet, some info.ipv4Addresses,
        some info.ipv6Addresses⟩ :: nics, ?_,
        .cons ⟨rfl, rfl, rfl, info, hserved.1, rfl, rfl⟩ hattached⟩
      rw [additionalNICs, nicAddresses, hentry]
      dsimp only
      rw [hnics]

/-- With an entry for each NIC, `buildServerEntities` stays in bounds and gives each its own. -/
theorem buildNICs_attached {infos : List NICInfo}
    (hserved : NetworksServed ms tr ms.spec.additionalNetworks infos) (info : NICInfo)
    (lanID : Int) :
    ∃ nics, buildNICs ms (some (info :: infos)) lanID =
        .val (⟨lanID, some (nicName ms.name), some true, none, some info.ipv4Addresses,
          some info.ipv6Addresses⟩ :: nics) ∧
      List.Forall₂ (NICAttached ms tr) ms.spec.additionalNetworks nics := by
  have hdrop : (info :: infos).drop (0 + 1) = infos := rfl
  obtain ⟨nics, hbuilt, hattached⟩ := additionalNICs_attached hdrop hserved
  refine ⟨nics, ?_, hattached⟩
  unfold buildNICs nicAddresses
  dsimp only [List.getElem?_cons_zero]
  rw [hbuilt]

theorem buildNICs_planned {info : NICInfo} {infos : List NICInfo} {lan : Lan} {lanID : Int}
    (hnic : NICServed ms tr (primaryNIC ms.name) ms.spec.ipam info)
    (hserved : NetworksServed ms tr ms.spec.additionalNetworks infos) (hlan : LANSeen ms tr lan)
    (hid : Text.parseInt32 (deref lan.id "invalid") = .ok lanID) :
    ∃ nics, buildNICs ms (some (info :: infos)) lanID = .val nics ∧
      ∀ bootVolume, ServerPlanned ms tr (buildServer ms bootVolume nics) := by
  obtain ⟨nics, hbuilt, hattached⟩ := buildNICs_attached hserved info lanID
  refine ⟨_, hbuilt, fun bootVolume => ⟨?_, ?_⟩⟩
  · show nics.length + 1 = _
    rw [hattached.length_eq, Nat.add_comm]
  · exact ⟨_, nics, lan, rfl, hlan, hid, ⟨info, hnic, rfl, rfl⟩, hattached⟩

end

/-! ## The calls of a run -/

/-- Servers are asked for as planned, where the run has got to. -/
def Planning (ms : MachineScope) (h : List (Event Call Call.Ans)) (c : Call) : Prop :=
  ∀ dc server, c = .serversPost dc server → dc = ms.datacenterID ∧ ServerPlanned ms h server

section

variable {ms : MachineScope} {h : List (Event Call Call.Ans)} {s : MachineVars}

/-- The addresses that were read are in the network info, NIC by NIC. -/
def AddressesKnown (ms : MachineScope) (h : List (Event Call Call.Ans)) (s : MachineVars) : Prop :=
  ∃ info infos, s.machineNetworkInfo = some (info :: infos) ∧
    NICServed ms h (primaryNIC ms.name) ms.spec.ipam info ∧
    NetworksServed ms h ms.spec.additionalNetworks infos

theorem AddressesKnown.later {h' : List (Event Call Call.Ans)} {s' : MachineVars}
    (hknown : AddressesKnown ms h s) (hh : h <+: h')
    (hs : s'.machineNetworkInfo = s.machineNetworkInfo) : AddressesKnown ms h' s' := by
  obtain ⟨info, infos, hinfo, hnic, hnics⟩ := hknown
  exact ⟨info, infos, hs.trans hinfo, hnic.grow hh.subset, hnics.grow hh.subset⟩

/-- The call does not ask for a server. -/
def OtherCall (c : Call) : Prop := ∀ dc server, c ≠ .serversPost dc server

/-- A function that asks for no server only adds to the history. -/
theorem planning_within {α κ : Type} {keep : MachineVars → κ} {p : MachineM α}
    (hp : Within OtherCall keep p) :
    p.wp (guarded (Planning ms)) (fun h' _ s' => h <+: h' ∧ keep s' = keep s) h s :=
  hp.wp_guarded (fun _ _ hc dc server heq => absurd heq (hc dc server)) (hp.wp_history h s)

theorem createServer_planned (secret : Secret) (hknown : AddressesKnown ms h s) :
    (createServer secret ms).wp (guarded (Planning ms)) (fun _ _ _ => True) h s := by
  refine wp_createServer (fun _ => trivial) machineNetworkInfo_frame
    (fun n h info => ∃ s lan, s.machineNetworkInfo = info ∧ AddressesKnown ms h s ∧
      LANSeen ms h lan ∧ Text.parseInt32 (deref lan.id "invalid") = .ok n)
    (fun _ _ heq => nomatch heq) ?_ ?_ ?_ secret
  · intro lans lan n _ hlan hn
    exact ⟨s, lan, rfl, hknown.later (List.prefix_append _ _) rfl, ⟨lans, by simp, hlan⟩, hn⟩
  · rintro n h info c ⟨s', lan, hs', hknown', hlan, hn⟩ hc
    refine ⟨fun dc server heq => ?_, fun a _ => ?_⟩
    · subst heq
      exact False.elim hc
    · exact ⟨s', lan, hs', hknown'.later (List.prefix_append _ _) rfl,
        hlan.grow (List.prefix_append _ _).subset, hn⟩
  · rintro n h s₁ nics volume ⟨s', lan, hs', ⟨info, infos, hinfo, hnic, hnics⟩, hlan, hn⟩ hbuilt
    obtain ⟨nics', hbuilt', hplanned⟩ := buildNICs_planned hnic hnics hlan hn
    rw [← hs', hinfo, hbuilt'] at hbuilt
    obtain rfl := Res.val.inj hbuilt
    intro dc server heq
    obtain ⟨rfl, rfl⟩ := Call.serversPost.inj heq
    exact ⟨rfl, hplanned _⟩

theorem reconcileServer_planned (hknown : AddressesKnown ms h s) :
    (reconcileServer ms).wp (guarded (Planning ms)) (fun _ _ _ => True) h s := by
  refine wp_reconcileServer (fun _ => trivial) machineNetworkInfo_frame
    (fun h info => ∃ s, s.machineNetworkInfo = info ∧ AddressesKnown ms h s)
    ?_ (fun _ _ _ _ _ heq => nomatch heq) ?_ ⟨s, rfl, hknown⟩
  · rintro h info c ⟨s', hs', hknown'⟩ hc
    refine ⟨fun dc server heq => ?_, fun a _ => ?_⟩
    · subst heq
      exact False.elim hc
    · exact ⟨s', hs', hknown'.later (List.prefix_append _ _) rfl⟩
  · rintro secret h s₁ ⟨s', hs', hknown'⟩
    exact createServer_planned secret (hknown'.later (List.prefix_refl _) hs'.symm)

/-- The steps: the server step comes right after the addresses are known. -/
theorem normalSequence_planned :
    (runSteps (fun e => setProvisioningCondition ms (some e)) (normalSequence ms)).wp
      (guarded (Planning ms)) (fun _ _ _ => True) h s := by
  have herror : ∀ (e : Err) (h : List (Event Call Call.Ans)) (s : MachineVars),
      (setProvisioningCondition ms (some e)).wp (guarded (Planning ms)) (fun _ _ _ => True) h s :=
    fun e h s => wp_mono (wp_setProvisioningCondition (fun _ => trivial) _) fun _ _ _ _ => trivial
  have hend : ∀ (_ : List (Event Call Call.Ans)) (_ : Result × Option Err) (_ : MachineVars), True :=
    fun _ _ _ => trivial
  have hlan : Within OtherCall (fun _ => ()) (reconcileLAN ms) :=
    (within_reconcileLAN unit_frame.cluster).mono fun c hc dc server heq => by
      subst heq
      exact hc
  have hclaims : Within OtherCall (fun _ => ()) (reconcileIPAddresses ms) :=
    (within_reconcileIPAddresses fun _ _ => rfl).mono fun c hc dc server heq => by
      subst heq
      exact hc
  have hfailover : Within OtherCall (fun _ => ()) (reconcileIPFailover ms) :=
    (within_reconcileIPFailover unit_frame).mono fun c hc dc server heq => by
      subst heq
      exact hc
  unfold normalSequence
  refine wp_runSteps_step herror hend (wp_mono (planning_within hlan) fun h₁ _ s₁ _ _ => ?_)
  refine wp_runSteps_step herror hend (wp_mono (hclaims.wp_guarded (fun _ _ hc dc server heq =>
    absurd heq (hc dc server)) reconcileIPAddresses_seen) fun h₂ r s₂ hknown hr => ?_)
  refine wp_runSteps_step herror hend (wp_mono (reconcileServer_planned (hknown hr))
    fun h₃ _ s₃ _ _ => ?_)
  refine wp_runSteps_step herror hend (wp_mono (planning_within hfailover) fun h₄ _ s₄ _ _ => ?_)
  refine wp_runSteps_step herror hend ((wp_bind _ _).mpr ((wp_assign _).mpr ((wp_pure _).mpr ?_)))
  exact fun _ => wp_runSteps_nil trivial

theorem reconcileNormal_planned :
    (reconcileNormal ms).wp (guarded (Planning ms)) (fun _ _ _ => True) h s := by
  refine wp_reconcileNormal (I := fun _ => True) ?_ (fun _ => trivial)
    (fun _ _ _ => normalSequence_planned) trivial
  intro h c _ hc
  refine ⟨fun dc server heq => ?_, fun _ _ => trivial⟩
  subst heq
  exact False.elim hc

end

/-! ## In bounds -/

/-- The panics of the server step other than those of an access to the network info. -/
def NilPointer (msg : String) : Prop := msg = "nil pointer dereference"

section

variable {ms : MachineScope} {s : MachineVars}

theorem panics_conclude {α σ : Type} {P : String → Prop} {r : Res α} {s : σ}
    (h : ∀ msg, r = .panic msg → P msg) : Panics P (conclude r : Go Call Call.Ans σ α) s := by
  cases r with
  | val a => exact .pure a
  | panic msg => exact .panicking (h msg rfl)

theorem panics_withParams {α σ : Type} {P : String → Prop} {required : List (String × Err)}
    {body : Go Call Call.Ans σ (Except Err α)} {s : σ} (h : Panics P body s) :
    Panics P (Client.withParams required body) s := by
  unfold Client.withParams
  split
  · exact .pure _
  · exact h

theorem panics_findResource {α σ : Type} {P : String → Prop}
    {lookup : Go Call Call.Ans σ (Except Err (Option α))}
    {check : Go Call Call.Ans σ (Except Err (Option RequestInfo))} {s : σ}
    (hlookup : ∀ s, Panics P lookup s) (hcheck : ∀ s, Panics P check s) :
    Panics P (findResource lookup check) s := by
  unfold findResource
  refine .bind (hlookup s) fun r s₁ => ?_
  split
  next => exact .pure _
  next => exact .pure _
  next =>
    refine .bind (hcheck s₁) fun r s₂ => ?_
    match r with
    | .error e => exact .pure _
    | .ok none => exact .pure _
    | .ok (some request) =>
      refine .ite (.bind (hlookup s₂) fun r s₃ => ?_) (.pure _)
      split <;> exact .pure _

theorem panics_getMatchingRequest {σ : Type} {type : ResourceType} {method : Method} {url : String}
    {matchers : List Matcher} {s : σ} :
    Panics NilPointer (getMatchingRequest type method url matchers) s := by
  unfold getMatchingRequest Client.getRequests
  refine .bind (panics_withParams (.bind (.perform _) fun a s₁ => ?_)) fun r s₁ => ?_
  · match a with
    | .error e => exact .pure _
    | .ok none => exact .pure _
    | .ok (some items) => exact .pure _
  · cases r with
    | error e => exact .pure _
    | ok requests => exact panics_conclude fun msg => matchRequest_panic

theorem panics_getServerByName {err : Option Err} :
    Panics NilPointer (getServerByName ms err) s := by
  unfold getServerByName Client.listServers
  refine .bind (panics_withParams (.bind (.perform _) fun a s₁ => .pure _)) fun r s₁ => ?_
  cases r with
  | error e => exact .pure _
  | ok items =>
    refine .bind (panics_conclude fun msg => findServer_panic) fun server s₂ => ?_
    cases server with
    | some server => exact .bind (.assign _) fun _ _ => .pure _
    | none => cases err <;> exact .pure _

theorem panics_getServer : Panics NilPointer (getServer ms) s := by
  unfold getServer getServerByServerID Client.getServer
  refine .bind .vars fun v s₁ => .bind (.ite (.pure _) ?_) fun r s₂ => ?_
  · split
    · exact .pure _
    · refine .bind (panics_withParams (.bind (.perform _) fun a s₂ => .pure _)) fun r s₂ => ?_
      cases r <;> exact .pure _
  · match r with
    | .ok (some server) => exact .pure _
    | .ok none => exact panics_getServerByName
    | .error e => exact .ite panics_getServerByName (.pure _)

theorem panics_reconcileFoundServer (server : Server) :
    Panics NilPointer (reconcileFoundServer ms server) s := by
  unfold reconcileFoundServer ensureServerAvailable startServer Client.startServer
  refine .bind (.ite (.pure _) (.ite ?_ (.pure _))) fun r s₁ => ?_
  · split
    · exact .panicking rfl
    · refine .bind (.bind (panics_withParams (.bind (.perform _) fun a s₁ => .pure _))
        fun r s₁ => ?_) fun r s₁ => .pure _
      cases r with
      | error e => exact .pure _
      | ok location => exact .bind (.assign _) fun _ _ => .pure _
  · split
    · exact .bind (.assign _) fun _ _ => .pure _
    · exact .pure _

theorem panics_getLAN : Panics NilPointer (getLAN ms) s := by
  unfold getLAN Client.listLANs
  refine .bind (panics_withParams (.bind (.perform _) fun a s₁ => .pure _)) fun r s₁ => ?_
  match r with
  | .error e => exact .pure _
  | .ok none => exact .panicking rfl
  | .ok (some lans) => exact .pure _

theorem panics_getLocation : Panics NilPointer (getLocation ms) s := by
  unfold getLocation Client.getDatacenterLocationByID
  refine .bind .vars fun v s₁ => .ite (.bind (panics_withParams (.bind (.perform _)
    fun a s₂ => ?_)) fun r s₂ => ?_) (.pure _)
  · match a with
    | .error e => exact .pure _
    | .ok none => exact .panicking rfl
    | .ok (some location) => exact .pure _
  · cases r with
    | error e => exact .pure _
    | ok location => exact .bind (.assign _) fun _ _ => .pure _

theorem panics_getImages {σ : Type} {s : σ} (location : String) (ids : List String) :
    Panics NilPointer (getImages location ids) s := by
  induction ids generalizing s with
  | nil => exact .pure _
  | cons id ids ih =>
    unfold getImages Client.getImage
    refine .bind (.bind (.perform _) fun a s₁ => .pure _) fun r s₁ => ?_
    cases r with
    | error e => exact .pure _
    | ok image =>
      refine .bind ih fun r s₂ => ?_
      cases r with
      | error e => exact .pure _
      | ok images => exact .ite (.pure _) (.pure _)

theorem panics_lookupImageID : Panics NilPointer (lookupImageID ms) s := by
  unfold lookupImageID
  refine .ite (.pure _) (.bind panics_getLocation fun r s₁ => ?_)
  cases r with
  | error e => exact .pure _
  | ok location =>
    unfold imageAt
    refine .bind ?_ fun r s₂ => ?_
    · unfold lookupImagesBySelector Client.listLabels
      refine .bind (.bind (.perform _) fun a s₂ => ?_) fun r s₂ => ?_
      · match a with
        | .error e => exact .pure _
        | .ok none => exact .panicking rfl
        | .ok (some labels) => exact .pure _
      · cases r with
        | error e => exact .pure _
        | ok labels =>
          dsimp only
          split
          · exact .ite (.pure _) (.panicking rfl)
          · exact .bind (.perform _) fun _ _ => panics_getImages _ _
    · cases r with
      | error e => exact .pure _
      | ok images =>
        dsimp only
        split
        · exact .panicking rfl
        · exact panics_conclude fun msg => resolveImage_panic

/-- With an entry for each NIC in the network info, there is no panic. -/
theorem panics_postServer {data imageID : String} {lanID : Int} {nics : List NicPost}
    (hbuilt : buildNICs ms s.machineNetworkInfo lanID = .val nics) :
    Panics NilPointer (postServer ms data lanID imageID) s := by
  unfold postServer Client.createServer
  refine .vars_bind ?_
  rw [hbuilt]
  refine .bind (.pure nics) fun nics s₁ => ?_
  refine .bind (panics_withParams (.bind (.perform _) fun a s₂ => ?_)) fun r s₂ => ?_
  · match a with
    | .error e => exact .pure _
    | .ok (server, location) => exact .ite (.pure _) (.pure _)
  · match r with
    | .error e => exact .pure _
    | .ok (server, location) =>
      exact .bind (.assign _) fun _ _ => .ite (.pure _) (.bind (.assign _) fun _ _ => .pure _)

/-- An entry for each NIC: every NIC can be built, whatever the LAN. -/
def EntriesKnown (ms : MachineScope) (info : Option (List NICInfo)) : Prop :=
  ∀ lanID, ∃ nics, buildNICs ms info lanID = .val nics

theorem panics_createServer (secret : Secret) (hknown : EntriesKnown ms s.machineNetworkInfo) :
    Panics NilPointer (createServer secret ms) s := by
  have hlan : Within (fun _ => True) MachineVars.machineNetworkInfo (getLAN ms) :=
    within_getLAN fun _ => trivial
  have himage : Within (fun _ => True) MachineVars.machineNetworkInfo (lookupImageID ms) :=
    within_lookupImageID machineNetworkInfo_frame trivial (fun _ => trivial) (fun _ => trivial)
      fun _ => trivial
  unfold createServer
  split
  · exact .pure _
  · refine panics_getLAN.bind_kept hlan fun r s₁ hs₁ => ?_
    cases r with
    | error e => exact .pure _
    | ok lan =>
      dsimp only
      split
      · exact .pure _
      next lanID _ =>
        refine panics_lookupImageID.bind_kept himage fun r s₂ hs₂ => ?_
        cases r with
        | error e => exact .pure _
        | ok imageID =>
          obtain ⟨nics, hbuilt⟩ := hknown lanID
          rw [← hs₁, ← hs₂] at hbuilt
          exact panics_postServer hbuilt

theorem panics_reconcileServer (hknown : EntriesKnown ms s.machineNetworkInfo) :
    Panics NilPointer (reconcileServer ms) s := by
  have hsecret : Within (fun _ => True) MachineVars.machineNetworkInfo ms.getBootstrapDataSecret :=
    within_getBootstrapDataSecret fun _ _ => trivial
  have hfind : Within (fun _ => True) MachineVars.machineNetworkInfo
      (findResource (getServer ms) (getLatestServerCreationRequest ms)) :=
    within_findResource (within_getServer (fun _ _ => rfl) (fun _ _ => trivial) fun _ => trivial)
      (within_getMatchingRequest fun _ => trivial)
  have hread : Panics NilPointer ms.getBootstrapDataSecret s := by
    unfold MachineScope.getBootstrapDataSecret
    exact .ite (.pure _) (.perform _)
  unfold reconcileServer
  refine hread.bind_kept hsecret fun r s₁ hs₁ => ?_
  cases r with
  | error e => exact .ite (.pure _) (.pure _)
  | ok secret =>
    refine Panics.bind_kept (panics_findResource (fun _ => panics_getServer)
      fun _ => panics_getMatchingRequest) hfind fun r s₂ hs₂ => ?_
    match r with
    | .error e => exact .pure _
    | .ok (server, request) =>
      refine .ite (.pure _) ?_
      cases server with
      | some server => exact panics_reconcileFoundServer server
      | none =>
        rw [← hs₁, ← hs₂] at hknown
        refine .bind (panics_createServer secret hknown) fun r s₃ => ?_
        cases r <;> exact .pure _

/-- The IP step leaves an entry for each NIC. -/
theorem entriesKnown_of_steps {v v' : MachineVars} {tr : List (Event Call Call.Ans)}
    (hdone : StepsDone ((normalSequence ms).take 2) v tr v') :
    EntriesKnown ms v'.machineNetworkInfo := by
  cases hdone with
  | cons _ hdone =>
  cases hdone with
  | cons haddresses hdone =>
  cases hdone
  obtain ⟨info, infos, hinfo, -, hnics⟩ := wp_history reconcileIPAddresses_seen haddresses rfl
  intro lanID
  obtain ⟨nics, hbuilt, -⟩ := buildNICs_attached hnics info lanID
  rw [hinfo]
  exact ⟨_, hbuilt⟩

end

/-! ## The server of a run -/

/-- Every server a run of `reconcileNormal` asks for is as planned. The server step, run on what the
steps before it left, panics at most at a pointer of an answer: the accesses to the network info are
in bounds. -/
theorem server_planned (ms : MachineScope) :
    (∀ v tr₁ dc server a tr₂ r v',
      Runs (reconcileNormal ms) v (tr₁ ++ ⟨.serversPost dc server, a⟩ :: tr₂) r v' →
      dc = ms.datacenterID ∧ ServerPlanned ms tr₁ server) ∧
    ∀ v tr v₁ tr' msg v', StepsDone ((normalSequence ms).take 2) v tr v₁ →
      Runs (reconcileServer ms) v₁ tr' (.panic msg) v' → NilPointer msg := by
  refine ⟨fun v tr₁ dc server a tr₂ r v' hruns => ?_, fun v tr v₁ tr' msg v' hdone hruns => ?_⟩
  · exact guarded_calls reconcileNormal_planned ⟨_, hruns⟩ dc server rfl
  · exact (panics_reconcileServer (entriesKnown_of_steps hdone)).of_run hruns

/-- A machine with an additional network, both NICs with an IPv4 pool. -/
def plannedMachine : MachineScope :=
  { readyMachine with spec := { readyMachine.spec with
    disk := { readyMachine.spec.disk with image := ⟨"image", none⟩ }
    additionalNetworks := [⟨7, none, some false, ⟨some ⟨some "ipam", "Pool", "pool"⟩, none⟩⟩] } }

/-- There is no server yet; every claim has an address of its own. -/
def plannedAnswers : ∀ c : Call, Call.Ans c
  | .getIPAddressClaim ns name => .ok ⟨ns, name, [machineFinalizer], name⟩
  | .getIPAddress _ name => .ok ("address of " ++ name)
  | .serversGet _ => .ok (some [])
  | c => readyAnswers c

/-- The server is asked for with the address of its own claim on each NIC. -/
theorem server_planned_run :
    ∃ tr₁ server a r v', Runs (reconcileNormal plannedMachine) default
        (tr₁ ++ [⟨.serversPost "dc" server, a⟩]) r v' ∧ ServerPlanned plannedMachine tr₁ server ∧
      server.nics.map (·.ips) =
        [some ["address of nic-m-ipv4"], some ["address of nic-m-7-ipv4"]] := by
  let nics : List NicPost :=
    [⟨1, some (nicName "m"), some true, none, some ["address of nic-m-ipv4"], some []⟩,
      ⟨7, none, some false, none, some ["address of nic-m-7-ipv4"], some []⟩]
  let server := buildServer plannedMachine
    (buildBootVolume plannedMachine (renderUserData plannedMachine "#cloud-config") "image") nics
  let tr := ((reconcileNormal plannedMachine default).play plannedAnswers).1
  have htr : tr = tr.dropLast ++
      [⟨.serversPost "dc" server, plannedAnswers (.serversPost "dc" server)⟩] := rfl
  have hruns := runs_play (reconcileNormal plannedMachine) default plannedAnswers
  rw [show ((reconcileNormal plannedMachine default).play plannedAnswers).1 = tr from rfl, htr]
    at hruns
  exact ⟨_, _, _, _, _, hruns, ((server_planned plannedMachine).1 _ _ _ _ _ _ _ _ hruns).2, rfl⟩

end Capic.Properties
