import Capic.Controller.Frame

/-!
# A machine is provisioned only if it was seen to be ready

`reconcileNormal` sets `Provisioned` in the last of its steps, and a step is followed by
the next only if it is done: no error, nothing to wait for. What a step being done says
about the answers it got is proved step by step, over the history of the run:

* `reconcileLAN_seen` — the LAN of the machine is available;
* `reconcileIPAddresses_seen` — every pool reference has its address;
* `reconcileServer_seen` — the server is available and running;
* `reconcileIPFailover_seen` — the failover IP is in the group.

`provisioned_sound` puts them together for a whole run.
-/

namespace Capic.Properties

open Effect Effect.Go Cloud K8s Controller Controller.Machine

/-! ## What a run has seen -/

section

variable (ms : MachineScope) (tr : List (Event Call Call.Ans))

/-- The LAN `getLAN` finds in a list that was read. -/
def LANSeen (lan : Lan) : Prop :=
  ∃ lans, ⟨.lansGet ms.datacenterID, .ok (some lans)⟩ ∈ tr ∧
    findLAN ms.spec.networkID (lanName ms.clusterScope) 0 none lans = .ok (some lan)

/-- The claim of a NIC was read and refers to an address that was read. -/
def AddressSeen (nic : String) (suffix : Family) (ip : String) : Prop :=
  ∃ claim, ⟨.getIPAddressClaim ms.ns (claimName nic suffix), .ok claim⟩ ∈ tr ∧
    ⟨.getIPAddress ms.ns claim.addressRefName, .ok ip⟩ ∈ tr

/-- A pool reference has its address, which is all the NIC gets of this family. -/
def Served (nic : String) (suffix : Family) (poolRef : Option PoolRef) (ips : List String) :
    Prop :=
  match poolRef with
  | none => ips = []
  | some _ => ∃ ip, ip ≠ "" ∧ ips = [ip] ∧ AddressSeen ms tr nic suffix ip

/-- The pool references of a NIC have their addresses, which are those of the entry. -/
structure NICServed (nic : String) (ipam : IPAMConfig) (info : NICInfo) : Prop where
  ipv4 : Served ms tr nic .ipv4 ipam.ipv4PoolRef info.ipv4Addresses
  ipv6 : Served ms tr nic .ipv6 ipam.ipv6PoolRef info.ipv6Addresses

/-- The NICs of the additional networks have their addresses, network by network. -/
def NetworksServed : List Network → List NICInfo → Prop
  | [], [] => True
  | net :: nets, info :: infos =>
    NICServed ms tr (additionalNIC ms.name net.networkID) net.ipam info ∧
      NetworksServed nets infos
  | _, _ => False

/-- The server of the machine was read: by the ID in its provider ID, or in the list. -/
def ServerSeen (providerID : String) (server : Server) : Prop :=
  ⟨.serversFindById ms.datacenterID (extractServerID providerID), .ok server⟩ ∈ tr ∨
    ∃ items, ⟨.serversGet ms.datacenterID, .ok items⟩ ∈ tr ∧
      findServer ms.name (deref items []) = .val (some server)

/-- The location of the data center: known before, or read. -/
def LocationSeen (known location : String) : Prop :=
  location = known ∨ ⟨.datacentersFindById ms.datacenterID, .ok (some location)⟩ ∈ tr

/-- A block `getFailoverIPBlock` finds in a list that was read. -/
def BlockSeen (known : String) (block : IpBlock) : Prop :=
  ∃ blocks location, ⟨.ipblocksGet, .ok blocks⟩ ∈ tr ∧ LocationSeen ms tr known location ∧
    ((deref blocks []).find? fun block => deref block.location "" = location ∧
      deref block.name "" = failoverIPBlockName ms) = some block

/-- The failover IP of the machine, with the host of the endpoint and the location it knew. -/
inductive FailoverIP (host known : String) : String → Prop
  /-- The endpoint has no host yet. -/
  | unset : ms.isControlPlane = true → host = "" → FailoverIP host known ""
  /-- The host of the endpoint is an address. -/
  | endpoint {ip : String} : ms.isControlPlane = true → host ≠ "" →
      ms.clusterScope.parseAddr host = some ip → FailoverIP host known ip
  /-- The host of the endpoint is a name: the least of its addresses. -/
  | resolved {ips rest : List UInt32} {ip : UInt32} : ms.isControlPlane = true → host ≠ "" →
      ms.clusterScope.parseAddr host = none → ⟨.lookupNetIP host, .ok ips⟩ ∈ tr →
      ips.insertionSort (fun a b => a.toNat ≤ b.toNat) = ip :: rest →
      FailoverIP host known (ClusterScope.addrText ip)
  /-- The address is given. -/
  | given {ip : String} : ms.isControlPlane = false → ms.spec.failoverIP = some ip → ip ≠ "" →
      ip ≠ cloudResourceConfigAuto → FailoverIP host known ip
  /-- The address is the first of the reserved block. -/
  | auto {block : IpBlock} {ip : String} {rest : List String} : ms.isControlPlane = false →
      ms.spec.failoverIP = some cloudResourceConfigAuto → BlockSeen ms tr known block →
      isAvailable (getState block.state) = true → block.ips = some (ip :: rest) →
      FailoverIP host known ip

/-- The LAN was read with an entry of the IP, and no PATCH of it was pending then. (The code reads
a missing IP as `unknownValue`, which is not an IP.) -/
def GroupSeen (ip : String) : Prop :=
  ∃ lans lan a ri, [⟨.lansGet ms.datacenterID, .ok (some lans)⟩,
      ⟨.requestsGet .patch
        (Text.cut (lanURL ms.datacenterID (deref lan.id "")) "?").1, a⟩] <:+: tr ∧
    findLAN ms.spec.networkID (lanName ms.clusterScope) 0 none lans = .ok (some lan) ∧
    matchAnswer .lan (lanURL ms.datacenterID (deref lan.id "")) [] a = .val (.ok ri) ∧
    ri.any (·.isPending) = false ∧
    ∃ entry ∈ deref lan.ipFailover [], ip ≠ unknownValue → entry.ip = some ip

end

/-! ## What a step that is done has seen -/

section

variable {ms : MachineScope} {h : List (Event Call Call.Ans)} {s : MachineVars}

theorem getMatchingRequest_seen {type : ResourceType} {method : Method} {url : String}
    {matchers : List Matcher} : (getMatchingRequest type method url matchers).wp
      (history Call Call.Ans) (fun h' _ s' => h <+: h' ∧ s' = s) h s := by
  have hwithin : Within (fun _ => True) (id : MachineVars → MachineVars)
      (getMatchingRequest type method url matchers) := within_getMatchingRequest fun _ => trivial
  exact hwithin.wp_history h s

theorem LANSeen.grow {lan : Lan} {h' : List (Event Call Call.Ans)} (hseen : LANSeen ms h lan)
    (hh : h ⊆ h') : LANSeen ms h' lan := by
  obtain ⟨lans, hmem, hfound⟩ := hseen
  exact ⟨lans, hh hmem, hfound⟩

/-- `ReconcileLAN` is done if the LAN is available. -/
theorem reconcileLAN_seen : (reconcileLAN ms).wp (history Call Call.Ans) (fun h' r _ =>
    r = (false, none) → ∃ lan, LANSeen ms h' lan ∧ isAvailable (getState lan.state) = true)
    h s := by
  unfold reconcileLAN
  refine wp_locked trivial (fun _ _ => ⟨trivial, fun _ => trivial⟩) (fun e _ heq => nomatch heq)
    (fun _ => ?_)
  unfold reconcileLANLocked
  refine (wp_bind _ _).mpr (wp_mono (wp_findResource_found (fun _ _ => True)
    (fun h' lan _ => LANSeen ms h' lan) trivial ?_ ?_) fun h₁ r₁ s₁ hfound => ?_)
  · intro h s _
    refine wp_getLAN ?_ trivial ?_ ?_ (fun _ => trivial)
    · intro e _
      exact ⟨fun _ heq => (nomatch heq), fun _ => trivial⟩
    · intro e e' _ _
      exact ⟨fun _ heq => (nomatch heq), fun _ => trivial⟩
    · intro lans _
      exact ⟨fun lan hlan => ⟨lans, by simp, hlan⟩, fun _ => trivial⟩
  · intro h s _
    exact wp_mono ((Within.any _).wp_history h s) fun _ _ _ _ => trivial
  · match r₁ with
    | .error e => exact (wp_pure _).mpr ⟨trivial, fun _ heq => nomatch heq⟩
    | .ok (lan, request) =>
      dsimp only
      rw [wp_ite]
      by_cases hpending : request.any (·.isPending)
      · rw [if_pos hpending]
        exact (wp_pure _).mpr ⟨trivial, fun _ heq => nomatch heq⟩
      · rw [if_neg hpending]
        cases lan with
        | some lan =>
          refine (wp_pure _).mpr ⟨trivial, fun _ heq => ?_⟩
          refine ⟨lan, (hfound.1 lan request rfl).1.grow (List.subset_append_left ..), ?_⟩
          simpa using heq
        | none =>
          refine (wp_bind _ _).mpr (wp_mono ((Within.any _).wp_history _ _) fun h₂ r₂ s₂ _ => ?_)
          cases r₂ with
          | some e => exact (wp_pure _).mpr ⟨trivial, fun _ heq => nomatch heq⟩
          | none => exact (wp_pure _).mpr ⟨trivial, fun _ heq => nomatch heq⟩

theorem Served.grow {nic : String} {suffix : Family} {poolRef : Option PoolRef} {ips : List String}
    {h' : List (Event Call Call.Ans)} (hserved : Served ms h nic suffix poolRef ips)
    (hh : h ⊆ h') : Served ms h' nic suffix poolRef ips := by
  cases poolRef with
  | none => exact hserved
  | some ref =>
    obtain ⟨ip, hne, hips, claim, hclaim, haddress⟩ := hserved
    exact ⟨ip, hne, hips, claim, hh hclaim, hh haddress⟩

theorem poolAddresses_seen (nic : String) (suffix : Family) (poolRef : Option PoolRef) :
    (poolAddresses ms nic suffix poolRef).wp (history Call Call.Ans) (fun h' r _ =>
      ∀ ips, r = .ok (false, ips) → Served ms h' nic suffix poolRef ips) h s := by
  unfold poolAddresses
  cases poolRef with
  | none =>
    refine (wp_pure _).mpr fun ips heq => ?_
    cases heq
    exact rfl
  | some ref =>
    -- the answer is an address only if the claim refers to it
    have haddress : (handleIPAddressForNIC ms nic suffix ref).wp (history Call Call.Ans)
        (fun h' r _ => ∀ ip, r = .ok ip → ip ≠ "" → AddressSeen ms h' nic suffix ip) h s := by
      unfold handleIPAddressForNIC
      rw [wp_bind, wp_perform]
      refine ⟨trivial, fun a _ => ?_⟩
      match a with
      | .error e =>
        dsimp only
        rw [wp_ite]
        split
        next => exact (wp_pure _).mpr fun _ heq => nomatch heq
        next =>
          refine (wp_bind _ _).mpr (wp_mono ((Within.any _).wp_history _ _) fun h₁ r₁ s₁ _ => ?_)
          cases r₁ with
          | some e => exact (wp_pure _).mpr fun _ heq => nomatch heq
          | none => exact (wp_pure _).mpr fun ip heq hne => absurd (Except.ok.inj heq).symm hne
      | .ok claim =>
        dsimp only
        rw [wp_ite]
        split
        next => exact (wp_pure _).mpr fun ip heq hne => absurd (Except.ok.inj heq).symm hne
        next =>
          rw [wp_bind, wp_perform]
          refine ⟨trivial, fun a _ => ?_⟩
          match a with
          | .error e => exact (wp_pure _).mpr fun _ heq => nomatch heq
          | .ok ip =>
            refine (wp_pure _).mpr fun ip' heq _ => ?_
            cases heq
            exact ⟨claim, by simp, by simp⟩
    refine (wp_bind _ _).mpr (wp_mono haddress fun h₁ r₁ s₁ h₁' => ?_)
    cases r₁ with
    | error e => exact (wp_pure _).mpr fun _ heq => nomatch heq
    | ok ip =>
      dsimp only
      rw [wp_ite]
      by_cases hip : ip = ""
      · rw [if_pos hip]
        exact (wp_pure _).mpr fun _ heq => nomatch heq
      · rw [if_neg hip]
        refine (wp_pure _).mpr fun ips heq => ?_
        cases heq
        exact ⟨ip, hip, rfl, h₁' ip rfl hip⟩

/-- The two families of one NIC, whatever is made of an error. -/
theorem nicAddresses_seen (nic : String) (ipam : IPAMConfig) (primary : Bool)
    (fail4 fail6 : Err → Err) :
    (do
      match ← poolAddresses ms nic .ipv4 ipam.ipv4PoolRef with
      | .error e => return .error (fail4 e)
      | .ok (wait4, ipv4) =>
        match ← poolAddresses ms nic .ipv6 ipam.ipv6PoolRef with
        | .error e => return .error (fail6 e)
        | .ok (wait6, ipv6) =>
          return .ok (wait4 || wait6, ⟨ipv4, ipv6, 0, primary⟩) :
      MachineM (Except Err (Bool × NICInfo))).wp (history Call Call.Ans) (fun h' r _ =>
        h <+: h' ∧ ∀ info, r = .ok (false, info) → NICServed ms h' nic ipam info) h s := by
  refine wp_and (wp_mono ((Within.any _).wp_history _ _) fun _ _ _ hh => hh.1) ?_
  refine (wp_bind _ _).mpr (wp_mono (poolAddresses_seen nic .ipv4 _) fun h₁ r₁ s₁ h₄ => ?_)
  match r₁ with
  | .error e => exact (wp_pure _).mpr fun _ heq => nomatch heq
  | .ok (wait4, ipv4) =>
    refine (wp_bind _ _).mpr (wp_mono (wp_and ((Within.any _).wp_history _ _)
      (poolAddresses_seen nic .ipv6 _)) fun h₂ r₂ s₂ h₆ => ?_)
    match r₂ with
    | .error e => exact (wp_pure _).mpr fun _ heq => nomatch heq
    | .ok (wait6, ipv6) =>
      refine (wp_pure _).mpr fun info heq => ?_
      -- neither family waits
      obtain ⟨hwait, rfl⟩ := Prod.mk.inj (Except.ok.inj heq)
      obtain ⟨rfl, rfl⟩ := Bool.or_eq_false_iff.mp hwait
      exact ⟨(h₄ ipv4 rfl).grow h₆.1.1.subset, h₆.2 ipv6 rfl⟩

theorem handlePrimaryNIC_seen : (handlePrimaryNIC ms).wp (history Call Call.Ans) (fun h' r _ =>
    h <+: h' ∧ ∀ info, r = .ok (false, info) →
      NICServed ms h' (primaryNIC ms.name) ms.spec.ipam info) h s :=
  nicAddresses_seen (primaryNIC ms.name) ms.spec.ipam true id id

theorem handleAdditionalNIC_seen (net : Network) :
    (handleAdditionalNIC ms net).wp (history Call Call.Ans) (fun h' r _ =>
      h <+: h' ∧ ∀ info, r = .ok (false, info) →
        NICServed ms h' (additionalNIC ms.name net.networkID) net.ipam info) h s :=
  nicAddresses_seen (additionalNIC ms.name net.networkID) net.ipam false _ _

theorem NICServed.grow {nic : String} {ipam : IPAMConfig} {info : NICInfo}
    {h' : List (Event Call Call.Ans)} (hserved : NICServed ms h nic ipam info) (hh : h ⊆ h') :
    NICServed ms h' nic ipam info :=
  ⟨hserved.ipv4.grow hh, hserved.ipv6.grow hh⟩

theorem NetworksServed.grow {nets : List Network} {infos : List NICInfo}
    {h' : List (Event Call Call.Ans)} (hserved : NetworksServed ms h nets infos) (hh : h ⊆ h') :
    NetworksServed ms h' nets infos := by
  induction nets generalizing infos with
  | nil => cases infos <;> exact hserved
  | cons net nets ih =>
    cases infos with
    | nil => exact hserved
    | cons info infos => exact ⟨hserved.1.grow hh, ih hserved.2⟩

theorem handleAdditionalNICs_seen (nets : List Network) :
    (handleAdditionalNICs ms nets).wp (history Call Call.Ans) (fun h' r _ =>
      h <+: h' ∧ ∀ infos, r = .ok (false, infos) → NetworksServed ms h' nets infos) h s := by
  induction nets generalizing h s with
  | nil =>
    refine (wp_pure _).mpr ⟨List.prefix_refl h, fun infos heq => ?_⟩
    cases heq
    trivial
  | cons net nets ih =>
    rw [handleAdditionalNICs]
    refine (wp_bind _ _).mpr (wp_mono (handleAdditionalNIC_seen net) fun h₁ r₁ s₁ hnic => ?_)
    match r₁ with
    | .error e => exact (wp_pure _).mpr ⟨hnic.1, fun _ heq => nomatch heq⟩
    | .ok (wait, info) =>
      refine (wp_bind _ _).mpr (wp_mono ih fun h₂ r₂ s₂ hnics => ?_)
      match r₂ with
      | .error e => exact (wp_pure _).mpr ⟨hnic.1.trans hnics.1, fun _ heq => nomatch heq⟩
      | .ok (waitRest, infos) =>
        refine (wp_pure _).mpr ⟨hnic.1.trans hnics.1, fun infos' heq => ?_⟩
        obtain ⟨hwait, rfl⟩ := Prod.mk.inj (Except.ok.inj heq)
        obtain ⟨rfl, rfl⟩ := Bool.or_eq_false_iff.mp hwait
        exact ⟨(hnic.2 info rfl).grow hnics.1.subset, hnics.2 infos rfl⟩

/-- `ReconcileIPAddresses` is done if every pool reference has its address, and the machine's
network info then consists of these addresses. -/
theorem reconcileIPAddresses_seen :
    (reconcileIPAddresses ms).wp (history Call Call.Ans) (fun h' r s' => r = (false, none) →
      ∃ info infos, s'.machineNetworkInfo = some (info :: infos) ∧
        NICServed ms h' (primaryNIC ms.name) ms.spec.ipam info ∧
        NetworksServed ms h' ms.spec.additionalNetworks infos) h s := by
  unfold reconcileIPAddresses
  refine (wp_bind _ _).mpr (wp_mono handlePrimaryNIC_seen fun h₁ r₁ s₁ hnic => ?_)
  match r₁ with
  | .error e => exact (wp_pure _).mpr fun heq => nomatch heq
  | .ok (requeue, info) =>
    refine (wp_bind _ _).mpr (wp_mono (handleAdditionalNICs_seen _) fun h₂ r₂ s₂ hnics => ?_)
    match r₂ with
    | .error e => exact (wp_pure _).mpr fun heq => nomatch heq
    | .ok (wait, infos) =>
      refine (wp_bind _ _).mpr ((wp_assign _).mpr ((wp_pure _).mpr fun heq => ?_))
      obtain ⟨rfl, rfl⟩ := Bool.or_eq_false_iff.mp (Prod.mk.inj heq).1
      exact ⟨info, infos, rfl, (hnic.2 info rfl).grow hnics.1.subset, hnics.2 infos rfl⟩

/-- `getServer` changes the provider ID only if it finds the server in the list. -/
theorem getServer_seen : (getServer ms).wp (history Call Call.Ans) (fun h' r s' =>
    (∀ server, r = .ok (some server) → ServerSeen ms h' s.providerID server ∧
      ∃ id, s' = { s with providerID := id }) ∧
    ((∀ server, r ≠ .ok (some server)) → s' = s)) h s := by
  refine wp_getServer_found (M := history Call Call.Ans) (fun _ s' => s' = s)
    (fun h' server s' => ServerSeen ms h' s.providerID server ∧
      ∃ id, s' = { s with providerID := id }) rfl ?_
    (fun _ => trivial) (fun _ _ _ => rfl) ?_ (fun _ _ => trivial) fun _ _ _ _ => rfl
  · intro id hid _ server _
    subst hid
    exact ⟨.inl (by simp), s.providerID, rfl⟩
  · intro h items _ _
    refine ⟨fun server hfound => ⟨.inr ⟨items, by simp, hfound⟩, _, rfl⟩, fun _ => rfl, trivial⟩

theorem ServerSeen.grow {id : String} {server : Server} {h' : List (Event Call Call.Ans)}
    (hseen : ServerSeen ms h id server) (hh : h ⊆ h') : ServerSeen ms h' id server := by
  rcases hseen with hfind | ⟨items, hget, hfound⟩
  · exact .inl (hh hfind)
  · exact .inr ⟨items, hh hget, hfound⟩

/-- `ReconcileServer` is done if the server is available and running, and the machine's network
info is then that of the server. -/
theorem reconcileServer_seen : (reconcileServer ms).wp (history Call Call.Ans) (fun h' r s' =>
    r = (false, none) → ∃ server id, ServerSeen ms h' s.providerID server ∧
      isServerAvailable server = true ∧ isRunning (getVMState server) = true ∧
      s' = { s with providerID := id, machineNetworkInfo := some (networkInfo ms server) })
    h s := by
  unfold reconcileServer
  have hsecret : Within (fun _ => True) id ms.getBootstrapDataSecret :=
    within_getBootstrapDataSecret fun _ _ => trivial
  refine (wp_bind _ _).mpr (wp_mono (hsecret.wp_history h s) fun h₁ r₁ s₁ hsecret => ?_)
  obtain rfl : s₁ = s := hsecret.2
  cases r₁ with
  | error e =>
    dsimp only
    rw [wp_ite]
    split
    next => exact (wp_pure _).mpr fun heq => nomatch heq
    next => exact (wp_pure _).mpr fun heq => nomatch heq
  | ok secret =>
    refine (wp_bind _ _).mpr (wp_mono (wp_findResource_found (fun _ s' => s' = s₁)
      (fun h' server s' => ServerSeen ms h' s₁.providerID server ∧
        ∃ id, s' = { s₁ with providerID := id }) rfl ?_ ?_) fun h₂ r₂ s₂ hfound => ?_)
    · intro h s hs
      subst hs
      exact getServer_seen
    · intro h s hs
      exact wp_mono getMatchingRequest_seen fun _ _ _ hh => hh.2.trans hs
    · match r₂ with
      | .error e => exact (wp_pure _).mpr fun heq => nomatch heq
      | .ok (server, request) =>
        dsimp only
        rw [wp_ite]
        split
        next => exact (wp_pure _).mpr fun heq => nomatch heq
        next =>
          cases server with
          | none =>
            refine (wp_bind _ _).mpr (wp_mono ((Within.any _).wp_history _ _) fun h₃ r₃ s₃ _ => ?_)
            cases r₃ with
            | some e => exact (wp_pure _).mpr fun heq => nomatch heq
            | none => exact (wp_pure _).mpr fun heq => nomatch heq
          | some server =>
            obtain ⟨⟨hseen, id, rfl⟩, _⟩ := hfound.1 server request rfl
            unfold reconcileFoundServer ensureServerAvailable
            rw [wp_bind, wp_ite]
            split
            next => exact (wp_pure _).mpr ((wp_pure _).mpr fun heq => nomatch heq)
            next havailable =>
              rw [wp_ite]
              split
              next =>
                split
                next => exact (wp_panicking _).mpr trivial
                next =>
                  refine (wp_bind _ _).mpr
                    (wp_mono ((Within.any _).wp_history _ _) fun h₃ r₃ s₃ _ => ?_)
                  exact (wp_pure _).mpr ((wp_pure _).mpr fun heq => nomatch heq)
              next hrunning =>
                refine (wp_pure _).mpr ((wp_bind _ _).mpr ((wp_assign _).mpr
                  ((wp_pure _).mpr fun _ => ?_)))
                exact ⟨server, id, hseen, by simpa using havailable, by simpa using hrunning, rfl⟩

/-- The endpoint's IP, whether the host is an address or a name. -/
theorem getControlPlaneEndpointIP_seen (hcontrol : ms.isControlPlane = true) :
    (onCluster ms.clusterScope.getControlPlaneEndpointIP).wp (history Call Call.Ans)
      (fun h' r _ => ∀ ip, r = .ok ip → FailoverIP ms h' s.cluster.host s.location ip) h s := by
  unfold onCluster ClusterScope.getControlPlaneEndpointIP
  rw [wp_zoom, wp_bind, wp_vars]
  dsimp only
  rw [wp_ite]
  split
  next hhost =>
    refine (wp_pure _).mpr fun ip heq => ?_
    cases heq
    exact .unset hcontrol hhost
  next hhost =>
    split
    next ip hparse =>
      refine (wp_pure _).mpr fun ip' heq => ?_
      cases heq
      exact .endpoint hcontrol hhost hparse
    next hparse =>
      rw [wp_bind, wp_perform]
      refine ⟨trivial, fun a _ => ?_⟩
      match a with
      | .error e => exact (wp_pure _).mpr fun _ heq => nomatch heq
      | .ok ips =>
        dsimp only
        split
        next => exact (wp_panicking _).mpr trivial
        next ip rest hsorted =>
          refine (wp_pure _).mpr fun ip' heq => ?_
          cases heq
          exact .resolved hcontrol hhost hparse (by simp) hsorted

theorem LocationSeen.grow {known location : String} {h' : List (Event Call Call.Ans)}
    (hseen : LocationSeen ms h known location) (hh : h ⊆ h') :
    LocationSeen ms h' known location :=
  hseen.imp_right fun hmem => hh hmem

theorem getLocation_seen {known : String} (hknown : LocationSeen ms h known s.location) :
    (getLocation ms).wp (history Call Call.Ans) (fun h' r s' => h <+: h' ∧
      LocationSeen ms h' known s'.location ∧
      ∀ location, r = .ok location → LocationSeen ms h' known location) h s := by
  refine wp_and (wp_mono ((Within.any _).wp_history h s) fun _ _ _ hh => hh.1) ?_
  refine wp_getLocation ?_ ?_ trivial ?_ ?_ trivial
  · intro _
    refine ⟨hknown, fun location heq => ?_⟩
    cases heq
    exact hknown
  · intro _ e
    exact ⟨hknown, fun _ heq => nomatch heq⟩
  · intro _ e e' _
    exact ⟨hknown.grow (List.subset_append_left ..), fun _ heq => nomatch heq⟩
  · intro _ location _
    have hread : LocationSeen ms (h ++ [⟨.datacentersFindById ms.datacenterID,
        .ok (some location)⟩]) known location := .inr (by simp)
    refine ⟨hread, fun location' heq => ?_⟩
    cases heq
    exact hread

theorem getFailoverIPBlock_seen {known : String} (hknown : LocationSeen ms h known s.location) :
    (getFailoverIPBlock ms).wp (history Call Call.Ans) (fun h' r s' =>
      (∀ block, r = .ok (some block) → BlockSeen ms h' known block) ∧
      ((∀ block, r ≠ .ok (some block)) → LocationSeen ms h' known s'.location)) h s := by
  unfold getFailoverIPBlock Client.listIPBlocks
  rw [wp_bind, wp_bind, wp_perform]
  refine ⟨trivial, fun a _ => ?_⟩
  have hgrown : LocationSeen ms (h ++ [⟨.ipblocksGet, a⟩]) known s.location :=
    hknown.grow (List.subset_append_left ..)
  match a with
  | .error e => exact (wp_pure _).mpr ((wp_pure _).mpr ⟨fun _ heq => (nomatch heq), fun _ => hgrown⟩)
  | .ok blocks =>
    refine (wp_pure _).mpr ((wp_bind _ _).mpr (wp_mono (getLocation_seen hgrown)
      fun h₁ r₁ s₁ hlocation => ?_))
    obtain ⟨hh, hkept, hread⟩ := hlocation
    cases r₁ with
    | error e => exact (wp_pure _).mpr ⟨fun _ heq => (nomatch heq), fun _ => hkept⟩
    | ok location =>
      refine (wp_pure _).mpr ⟨fun block heq => ?_, fun _ => hkept⟩
      exact ⟨blocks, location, hh.subset (by simp), hread location rfl, Except.ok.inj heq⟩

theorem FailoverIP.grow {host known ip : String} {h' : List (Event Call Call.Ans)}
    (hip : FailoverIP ms h host known ip) (hh : h ⊆ h') : FailoverIP ms h' host known ip := by
  cases hip with
  | unset hcontrol hhost => exact .unset hcontrol hhost
  | endpoint hcontrol hhost hparse => exact .endpoint hcontrol hhost hparse
  | resolved hcontrol hhost hparse hread hsorted =>
    exact .resolved hcontrol hhost hparse (hh hread) hsorted
  | given hworker hspec hne hauto => exact .given hworker hspec hne hauto
  | auto hworker hspec hseen havailable hips =>
    obtain ⟨blocks, location, hread, hlocation, hfound⟩ := hseen
    exact .auto hworker hspec ⟨blocks, location, hh hread, hlocation.grow hh, hfound⟩ havailable
      hips

/-- The IP a run goes on with is the machine's failover IP. -/
theorem retrieveFailoverIPForMachine_seen :
    (retrieveFailoverIPForMachine ms).wp (history Call Call.Ans) (fun h' r _ =>
      ∀ ip, r = (false, ip, none) → FailoverIP ms h' s.cluster.host s.location ip) h s := by
  unfold retrieveFailoverIPForMachine
  rw [wp_ite]
  split
  next hcontrol =>
    refine (wp_bind _ _).mpr (wp_mono (getControlPlaneEndpointIP_seen hcontrol)
      fun h₁ r₁ s₁ hip => ?_)
    cases r₁ with
    | error e => exact (wp_pure _).mpr fun _ heq => nomatch heq
    | ok ip =>
      refine (wp_pure _).mpr fun ip' heq => ?_
      cases heq
      exact hip ip rfl
  next hworker =>
    have hworker : ms.isControlPlane = false := by simpa using hworker
    dsimp only
    rw [wp_ite]
    split
    next => exact (wp_pure _).mpr fun _ heq => nomatch heq
    next hne =>
      -- the address is not empty, so it is there
      have hspec : ms.spec.failoverIP = some (deref ms.spec.failoverIP "") := by
        cases hip : ms.spec.failoverIP with
        | none =>
          rw [hip] at hne
          exact absurd rfl hne
        | some ip => rfl
      rw [wp_ite]
      split
      next hauto =>
        rw [hauto] at hspec
        refine wp_locked trivial (fun _ _ => ⟨trivial, fun _ => trivial⟩)
          (fun e _ _ heq => nomatch heq) (fun _ => ?_)
        unfold retrieveAutoFailoverIPLocked
        refine (wp_bind _ _).mpr (wp_mono (wp_findResource_found
          (fun h' s' => LocationSeen ms h' s.location s'.location)
          (fun h' block _ => BlockSeen ms h' s.location block) (.inl rfl)
          (fun _ _ hknown => getFailoverIPBlock_seen hknown) ?_) fun h₁ r₁ s₁ hfound => ?_)
        · intro h₁ s₁ hknown
          unfold getLatestFailoverIPBlockCreateRequest getLatestIPBlockRequestByNameAndLocation
          refine (wp_bind _ _).mpr (wp_mono (getLocation_seen hknown) fun h₂ r₂ s₂ hlocation => ?_)
          cases r₂ with
          | error e => exact (wp_pure _).mpr hlocation.2.1
          | ok location =>
            refine wp_mono getMatchingRequest_seen fun h₃ r₃ s₃ hh => ?_
            rw [hh.2]
            exact hlocation.2.1.grow hh.1.subset
        · match r₁ with
          | .error e => exact (wp_pure _).mpr ⟨trivial, fun _ _ heq => nomatch heq⟩
          | .ok (none, info) =>
            dsimp only
            rw [wp_ite]
            split
            next => exact (wp_pure _).mpr ⟨trivial, fun _ _ heq => nomatch heq⟩
            next =>
              refine (wp_bind _ _).mpr
                (wp_mono ((Within.any _).wp_history _ _) fun h₂ r₂ s₂ _ => ?_)
              exact (wp_pure _).mpr ⟨trivial, fun _ _ heq => nomatch heq⟩
          | .ok (some block, info) =>
            dsimp only
            rw [wp_ite]
            split
            next => exact (wp_pure _).mpr ⟨trivial, fun _ _ heq => nomatch heq⟩
            next havailable =>
              split
              next => exact (wp_panicking _).mpr trivial
              next => exact (wp_panicking _).mpr trivial
              next ip rest hips =>
                refine (wp_pure _).mpr ⟨trivial, fun _ ip' heq => ?_⟩
                cases heq
                have hip : FailoverIP ms h₁ s.cluster.host s.location ip :=
                  .auto hworker hspec (hfound.1 block info rfl).1 (by simpa using havailable) hips
                exact hip.grow (List.subset_append_left ..)
      next hauto =>
        refine (wp_pure _).mpr fun ip heq => ?_
        cases heq
        exact .given hworker hspec hne hauto

theorem GroupSeen.grow {ip : String} {h' : List (Event Call Call.Ans)} (hseen : GroupSeen ms h ip)
    (hh : h <:+: h') : GroupSeen ms h' ip := by
  obtain ⟨lans, lan, a, ri, hread, hrest⟩ := hseen
  exact ⟨lans, lan, a, ri, hread.trans hh, hrest⟩

theorem reconcileIPFailoverGroup_seen (nicID ip : String) :
    (reconcileIPFailoverGroup ms nicID ip).wp (history Call Call.Ans) (fun h' r _ =>
      r = (false, none) → GroupSeen ms h' ip) h s := by
  unfold reconcileIPFailoverGroup
  rw [wp_ite]
  split
  next => exact (wp_pure _).mpr fun heq => by cases heq
  next =>
    refine wp_locked trivial (fun _ _ => ⟨trivial, fun _ => trivial⟩) (fun e _ heq => by cases heq)
      (fun _ => ?_)
    unfold reconcileIPFailoverGroupLocked
    rw [wp_bind]
    refine wp_retrieveLANFailoverConfig (M := history Call Call.Ans) (fun _ => True) trivial
      (fun _ _ => trivial) (fun _ _ _ _ => trivial) ?_ (fun _ _ => trivial) trivial
      (fun _ _ => trivial) ?_
    · intro h₁ outcome _ hne
      exact (wp_pure _).mpr ⟨trivial, fun _ heq => absurd heq hne⟩
    · intro lans found _ hfound url hurl a ri _ hri hpending
      dsimp only
      split
      next hjoined =>
        refine (wp_pure _).mpr ⟨trivial, fun _ _ => ?_⟩
        obtain ⟨entry, hentry, rfl⟩ := joinGroup_none hjoined
        cases found with
        | none => cases hentry
        | some lan =>
          subst hurl
          refine ⟨lans, lan, a, ri, ?_, hfound, hri, hpending, entry, hentry,
            IPFailover.ip_of_addr⟩
          exact ⟨h ++ [⟨.lock (lanLockKey ms), .ok ()⟩], [⟨.unlock (lanLockKey ms), ()⟩],
            by simp [deref]⟩
      next config _ =>
        refine (wp_bind _ _).mpr (wp_mono ((Within.any _).wp_history _ _) fun h₂ r₂ s₂ _ => ?_)
        exact (wp_pure _).mpr ⟨trivial, fun _ heq => by cases heq⟩

/-- `ReconcileIPFailover` is done if the failover IP is in the group. -/
theorem reconcileIPFailover_seen (hrequired : ms.failoverRequired = true) :
    (reconcileIPFailover ms).wp (history Call Call.Ans) (fun h' r _ => r = (false, none) →
      ∃ ip, FailoverIP ms h' s.cluster.host s.location ip ∧ GroupSeen ms h' ip) h s := by
  unfold reconcileIPFailover
  rw [wp_ite, if_neg (by rw [hrequired]; exact Bool.noConfusion)]
  refine (wp_bind _ _).mpr (wp_mono retrieveFailoverIPForMachine_seen fun h₁ r₁ s₁ hip => ?_)
  split
  next ip =>
    refine (wp_bind _ _).mpr (wp_mono ((Within.any _).wp_history _ _) fun h₂ r₂ s₂ hh => ?_)
    cases r₂ with
    | error e => exact (wp_pure _).mpr fun heq => nomatch heq
    | ok nic =>
      refine wp_mono (wp_and ((Within.any _).wp_history _ _) (reconcileIPFailoverGroup_seen _ ip))
        fun h₃ r₃ s₃ hgroup heq => ?_
      exact ⟨ip, (hip ip rfl).grow (hh.1.trans hgroup.1.1).subset, hgroup.2 heq⟩
  next hne =>
    refine (wp_pure _).mpr fun heq => ?_
    cases heq
    exact (hne rfl rfl).elim

end

/-! ## A whole run -/

/-- What has to be seen before a machine is provisioned. -/
structure Ready (ms : MachineScope) (v : MachineVars) (tr : List (Event Call Call.Ans)) : Prop where
  /-- A LAN for the machine is available. -/
  lan : ∃ lan, LANSeen ms tr lan ∧ isAvailable (getState lan.state) = true
  /-- Every pool reference, of the primary NIC and of every additional network, has yielded an
  address. -/
  addresses : ∃ info infos, NICServed ms tr (primaryNIC ms.name) ms.spec.ipam info ∧
    NetworksServed ms tr ms.spec.additionalNetworks infos
  /-- A server for the machine is available and running. -/
  server : ∃ server, ServerSeen ms tr v.providerID server ∧ isServerAvailable server = true ∧
    isRunning (getVMState server) = true
  /-- The machine's failover IP, if it needs one, is in the failover group of the LAN, and no
  PATCH of the LAN is pending. -/
  failover : ms.failoverRequired = true → ∃ ip, FailoverIP ms tr v.cluster.host v.location ip ∧
    GroupSeen ms tr ip

/-- Only the last of the steps sets `Provisioned`. -/
theorem normalSequence_changed {ms : MachineScope} {v v' : MachineVars}
    {tr : List (Event Call Call.Ans)} {r : Res (Option (Result × Option Err))}
    (hrun : Runs (runSteps (fun e => setProvisioningCondition ms (some e)) (normalSequence ms)) v tr r
      v') (hne : v'.provisioned ≠ v.provisioned) : r = .val none := by
  have hframe : Frame MachineVars.provisioned :=
    ⟨fun _ _ => rfl, fun _ _ => rfl, fun _ _ => rfl, fun _ _ _ => rfl⟩
  have hsteps : ∀ step ∈ (normalSequence ms).take 4,
      Within (fun _ => True) MachineVars.provisioned step.fn := by
    intro step hstep
    simp only [normalSequence, List.take_succ_cons, List.take_zero, List.mem_cons,
      List.not_mem_nil, or_false] at hstep
    rcases hstep with rfl | rfl | rfl | rfl
    · exact (within_reconcileLAN hframe.cluster).mono fun _ _ => trivial
    · exact (within_reconcileIPAddresses fun _ _ => rfl).mono fun _ _ => trivial
    · exact (within_reconcileServer hframe fun _ _ => rfl).mono fun _ _ => trivial
    · exact (within_reconcileIPFailover hframe).mono fun _ _ => trivial
  refine runSteps_changed ⟨"FinalizeMachineProvisioning", finalizeMachineProvisioning ms⟩
    (fun e => within_setProvisioningCondition (fun _ _ => rfl) (some e)) hsteps ?_ hrun hne
  intro s tr r s' hr
  cases hr
  rfl

/-- What the start of a run and its first steps keep of what `Ready` is about. -/
def readied (v : MachineVars) : Option Bool × String × String × String :=
  (v.provisioned, v.providerID, v.cluster.host, v.location)

theorem readied_leavesRequests : LeavesRequests readied := by
  intro v c hc
  have hhost : c.settled.host = v.cluster.settled.host := congrArg ClusterVars.host hc
  exact congrArg (fun host => (v.provisioned, v.providerID, host, v.location)) hhost

theorem readied_eq {v v₁ : MachineVars} (h : readied v₁ = readied v) :
    v₁.providerID = v.providerID ∧ v₁.cluster.host = v.cluster.host ∧ v₁.location = v.location := by
  have h' := (Prod.mk.inj h).2
  exact ⟨(Prod.mk.inj h').1, Prod.mk.inj (Prod.mk.inj h').2⟩

/-- All steps done: in a run that contains them the machine was seen to be ready. -/
theorem ready_of_done {ms : MachineScope} {v v₁ v' : MachineVars}
    {tr tr' : List (Event Call Call.Ans)} (h : StepsDone (normalSequence ms) v₁ tr' v')
    (hv₁ : readied v₁ = readied v) (htr : tr' <:+: tr) : Ready ms v tr := by
  unfold normalSequence at h
  cases h with
  | @cons _ _ _ v₂ _ tr₁ _ hlan h =>
  cases h with
  | @cons _ _ _ v₃ _ tr₂ _ haddresses h =>
  cases h with
  | @cons _ _ _ v₄ _ tr₃ _ hserver h =>
  cases h with
  | @cons _ _ _ v₅ _ tr₄ tr₅ hfailover h =>
  -- the part of each step in the run, and what the steps before it have kept
  have hpart₁ : tr₁ ⊆ tr := fun e he => htr.subset (by simp [he])
  have hpart₂ : tr₂ ⊆ tr := fun e he => htr.subset (by simp [he])
  have hpart₃ : tr₃ ⊆ tr := fun e he => htr.subset (by simp [he])
  have hpart₄ : tr₄ <:+: tr := .trans ⟨tr₁ ++ tr₂ ++ tr₃, tr₅, by simp⟩ htr
  have hv₂ : readied v₂ = readied v₁ := (within_reconcileLAN readied_leavesRequests).keeps hlan
  have hv₃ : readied v₃ = readied v₂ :=
    (within_reconcileIPAddresses fun _ _ => rfl).keeps haddresses
  obtain ⟨hid, hhost, hlocation⟩ := readied_eq (hv₃.trans (hv₂.trans hv₁))
  obtain ⟨lan, hseen, havailable⟩ := wp_history reconcileLAN_seen hlan rfl
  obtain ⟨info, infos, _, hnic, hnics⟩ := wp_history reconcileIPAddresses_seen haddresses rfl
  obtain ⟨server, id, hfound, hup, hrunning, rfl⟩ := wp_history reconcileServer_seen hserver rfl
  refine ⟨⟨lan, hseen.grow hpart₁, havailable⟩,
    ⟨info, infos, hnic.grow hpart₂, hnics.grow hpart₂⟩,
    ⟨server, hid ▸ hfound.grow hpart₃, hup, hrunning⟩, fun hrequired => ?_⟩
  obtain ⟨ip, hip, hgroup⟩ := wp_history (reconcileIPFailover_seen hrequired) hfailover rfl
  refine ⟨ip, ?_, hgroup.grow hpart₄⟩
  rw [← hhost, ← hlocation]
  exact hip.grow hpart₄.subset

/-- If a run of `reconcileNormal` sets `Provisioned`, then it ends well, every one of its steps
was done, and all that makes a machine ready was seen in it. -/
theorem provisioned_sound (ms : MachineScope) (v v' : MachineVars) (tr : List (Event Call Call.Ans))
    (r : Res (Result × Option Err)) (hrun : Runs (reconcileNormal ms) v tr r v')
    (hunset : v.provisioned ≠ some true) (hset : v'.provisioned = some true) :
    r = .val (⟨0⟩, none) ∧ Ready ms v tr ∧
      ∃ v₁ tr₁ tr₂, tr = tr₁ ++ tr₂ ∧ StepsDone (normalSequence ms) v₁ tr₂ v' := by
  have hchanged : v'.provisioned ≠ v.provisioned := by
    rw [hset]
    exact hunset.symm
  obtain ⟨v₁, tr₁, tr₂, rfl, -, hv₁, hfrom⟩ :=
    reconcileNormal_inv readied_leavesRequests (fun _ _ => rfl) (fun _ _ => rfl) (fun _ _ => rfl)
      hrun fun heq => hchanged (congrArg (·.1) heq)
  obtain ⟨r₁, hsteps, hr⟩ := fromSteps_inv hfrom
  have hprovisioned : v₁.provisioned = v.provisioned := congrArg (·.1) hv₁
  obtain rfl := normalSequence_changed hsteps (hprovisioned ▸ hchanged)
  have hdone := runSteps_none hsteps
  exact ⟨hr rfl, ready_of_done hdone hv₁ (List.suffix_append tr₁ tr₂).isInfix, v₁, tr₁, tr₂, rfl,
    hdone⟩

/-- A worker with a pool reference, an additional network and a failover IP. -/
def readyMachine : MachineScope :=
  { (default : MachineScope) with
    name := "m"
    ns := "ns"
    clusterScope := { (default : ClusterScope) with infrastructureProvisioned := some true }
    dataSecretName := some "bootstrap"
    uuidValidate := fun _ => none
    spec := { (default : MachineSpec) with
      datacenterID := "dc"
      failoverIP := some "203.0.113.1"
      ipam := ⟨some ⟨some "ipam", "Pool", "pool"⟩, none⟩
      additionalNetworks := [⟨7, none, none, default⟩] } }

/-- Everything the worker asks for is there. -/
def readyAnswers : ∀ c : Call, Call.Ans c
  | .lansGet _ => .ok (some [⟨some "1", some (lanName readyMachine.clusterScope), some "AVAILABLE",
      some [⟨some "203.0.113.1", some "nic"⟩], some ["nic"]⟩])
  | .getIPAddressClaim ns name => .ok ⟨ns, name, [machineFinalizer], "address"⟩
  | .getIPAddress _ _ => .ok "10.0.0.2"
  | .getSecret _ _ => .ok ⟨some "#cloud-config"⟩
  | .serversGet _ => .ok (some [⟨some "server", some "AVAILABLE",
      some ⟨some "m", some "RUNNING", none⟩,
      some [⟨some "nic", some (nicName "m"), some ["203.0.113.1"], none, some 1⟩]⟩])
  | c => Call.plain c

/-- The worker becomes provisioned. -/
theorem provisioned_sound_run :
    ∃ tr v', Runs (reconcileNormal readyMachine) default tr (.val (⟨0⟩, none)) v' ∧
      v'.provisioned = some true ∧ readyMachine.failoverRequired = true ∧
      Ready readyMachine default tr := by
  have hrun := runs_play (reconcileNormal readyMachine) default readyAnswers
  have hset : ((reconcileNormal readyMachine default).play readyAnswers).2.2.provisioned =
      some true := rfl
  obtain ⟨hr, hready, _⟩ := provisioned_sound readyMachine default _ _ _ hrun (by decide) hset
  rw [hr] at hrun
  exact ⟨_, _, hrun, hset, rfl, hready⟩

end Capic.Properties
