import Capic.Properties.Convergence.Site
import Capic.Properties.InFlight.Rule

/-!
# A world that provides what a machine needs

`Place.monitor` is a cloud and an API server that accept every change, show what is there, and
carry out a request at some time after it was accepted. The answers are as free as that allows:
lists may hold resources of others in any order, what is under way may be shown or not, and a
change only has an effect if it is addressed to the machine's own resources.

The second half is about the lookups of a run in such a world. `Fits` is what the variables of a
machine have to meet, and every lookup keeps it (`Kept`).
-/

namespace Capic.Properties.Convergence

open Effect Effect.Go Cloud Controller K8s

/-- The call asks for something that is not there. -/
def orders : Call → Bool
  | .createOrUpdateIPAddressClaim _ => true
  | c => InFlight.changes c

namespace Place

variable {ms : MachineScope} (P : Place ms)

/-! ## Answers -/

/-- The machine's LAN, as it is shown. -/
structure IsLAN (site : Site) (lan : Lan) : Prop where
  id : lan.id = some P.lanID
  state : lan.state = some "AVAILABLE"
  group : deref lan.ipFailover [] = site.group

/-- The LANs of the data center. -/
def ShowsLANs (site : Site) (lans : List Lan) : Prop :=
  match site.lan with
  | .absent => lans.filter (hasName (lanName ms.clusterScope)) = []
  | .coming => True
  | .there => ∃ lan, P.IsLAN site lan ∧
    match ms.spec.networkID with
    | none => lans.filter (hasName (lanName ms.clusterScope)) = [lan]
    | some id => FirstWithID id (lanName ms.clusterScope) 0 lans lan

/-- The machine's server, as it is shown. -/
structure IsServer (site : Site) (server : Server) : Prop where
  id : server.id = some P.serverID
  state : server.state = some "AVAILABLE"
  name : nameOf server = some ms.name
  vm : getVMState server = "RUNNING" ↔ site.vm = .there
  nic : ∃ nic, (deref server.nics []).find? (isPrimaryNIC ms.name) = some nic ∧
    nic.id = some P.nicID ∧ deref nic.ips [] = site.nicIPs

/-- The servers of the data center. -/
def ShowsServers (site : Site) (servers : List Server) : Prop :=
  (∀ server ∈ servers, ∀ properties, server.properties = some properties → properties.name ≠ none) ∧
  match site.server with
  | .absent => servers.filter (nameOf · = some ms.name) = []
  | .coming => True
  | .there => ∃ server, P.IsServer site server ∧ servers.filter (nameOf · = some ms.name) = [server]

/-- The IP blocks of the contract. -/
def ShowsBlocks (site : Site) (blocks : List IpBlock) : Prop :=
  match site.block with
  | .absent => blocks.filter (isNamedBlock (failoverIPBlockName ms) P.location) = []
  | .coming => True
  | .there => ∃ block ips, block.state = some "AVAILABLE" ∧ block.ips = some (P.failoverIP :: ips) ∧
    blocks.filter (isNamedBlock (failoverIPBlockName ms) P.location) = [block]

/-- The status of a request: it has not come to an end only if it is the one in flight. -/
def Reports (site : Site) (url : String) (status : RequestStatus) : Prop :=
  if site.InFlight ∧ url = site.request then status = .queued ∨ status = .running
  else status = .done ∨ status = .failed

/-- The answers about images, which do not depend on the site. -/
def Offers : (c : Call) → Call.Ans c → Prop
  | .datacentersFindById _, a => a = .ok (some P.location)
  | .imagesFindById id, a => a = .ok (P.images id)
  | .labelsGet, a => a = .ok (some P.labels)
  | _, _ => True

/-- The answers of the world. What a run for a live machine never asks for is left open. -/
def Answers (site : Site) : (c : Call) → Call.Ans c → Prop
  | .lansGet dc, a => dc = ms.datacenterID → ∃ lans, a = .ok (some lans) ∧ P.ShowsLANs site lans
  | .serversGet dc, a =>
    dc = ms.datacenterID → ∃ items, a = .ok items ∧ P.ShowsServers site (deref items [])
  | .serversFindById dc id, a => dc = ms.datacenterID →
    match site.server with
    | .absent => ∃ e, a = .error e ∧ isNotFound e = true
    | .coming => True
    | .there =>
      if id = P.serverID then ∃ server, a = .ok server ∧ P.IsServer site server
      else ∃ e, a = .error e ∧ isNotFound e = true
  | .ipblocksGet, a => ∃ blocks, a = .ok blocks ∧ P.ShowsBlocks site (deref blocks [])
  | .serversPost _ _, a =>
    ∃ server path, a = .ok (server, path) ∧ server.id = some P.serverID ∧ path ≠ ""
  | .lansPost _ _, a | .lansPatch _ _ _, a | .serversStartPost _ _, a | .nicsPatch _ _ _ _, a
  | .ipblocksPost _ _ _, a => ∃ path, a = .ok path ∧ path ≠ ""
  | .requestsGet _ _, a => ∃ items, a = .ok items ∧ ∀ req ∈ deref items [], Finished req
  | .getRequestStatus url, a =>
    ∃ info status, a = .ok info ∧ info.status = some status ∧ Reports site url status
  | .waitForRequest _, a | .patchMachine _, a | .patchCluster _, a
  | .createOrUpdateIPAddressClaim _, a | .updateCredentials _, a | .lock _, a => a = .ok ()
  | .getSecret _ _, a => ∃ data, a = .ok ⟨some data⟩
  | .getIPAddressClaim ns name, a => ns = ms.ns →
    match site.claims name with
    | .absent => ∃ e, a = .error e ∧ e.isK8sNotFound = true
    | .coming => ∃ claim, a = .ok claim ∧ claim.addressRefName = ""
    | .there => ∃ claim, a = .ok claim ∧ claim.addressRefName ≠ ""
  | .getIPAddress _ _, a => ∃ ip, a = .ok ip ∧ ip ≠ ""
  | .getCredentials _ _, a => ∃ secret, a = .ok secret ∧ newClient ms.clusterScope secret = none
  | .lookupNetIP _, a => ∃ ips ip rest, a = .ok ips ∧
    ips.insertionSort (fun a b => a.toNat ≤ b.toNat) = ip :: rest ∧
    ClusterScope.addrText ip = P.failoverIP
  | c, a => P.Offers c a

/-- What an accepted call changes. A NIC or LAN that is patched has changed when the request is
reported as done, which a run waits for. -/
def moved (site : Site) : (c : Call) → Call.Ans c → Site
  | .lansPost dc lan, .ok path =>
    if dc = ms.datacenterID ∧ lan.name = lanName ms.clusterScope then
      { site with lan := .coming, request := path }
    else site
  | .serversPost dc server, .ok (_, path) =>
    if dc = ms.datacenterID ∧ server.name = ms.name then
      { site with server := .coming, request := path }
    else site
  | .serversStartPost dc id, .ok path =>
    if dc = ms.datacenterID ∧ id = P.serverID then { site with vm := .coming, request := path }
    else site
  | .ipblocksPost name location _, .ok path =>
    if name = failoverIPBlockName ms ∧ location = P.location then
      { site with block := .coming, request := path }
    else site
  | .nicsPatch dc server nic ips, .ok _ =>
    if dc = ms.datacenterID ∧ server = P.serverID ∧ nic = P.nicID then { site with nicIPs := ips }
    else site
  | .lansPatch dc lan config, .ok _ =>
    if dc = ms.datacenterID ∧ lan = P.lanID then { site with group := config } else site
  | .createOrUpdateIPAddressClaim claim, .ok () =>
    if claim.ns = ms.ns then site.claim claim.name else site
  | _, _ => site

/-- The world, which a complete site leaves without orders. -/
@[reducible] def monitor : Monitor Call Call.Ans where
  Phase := Site
  ok site c := P.Complete site → orders c = false
  adm := P.Answers
  next := P.moved
  panic _ := False

/-! ## Variables -/

/-- The variables of a machine's run agree with the place. -/
structure Fits (v : MachineVars) : Prop where
  server : extractServerID v.providerID = "" ∨ ms.uuidValidate (extractServerID v.providerID) = none
  location : v.location = "" ∨ v.location = P.location
  endpoint : ms.isControlPlane = true → v.cluster.host ≠ "" ∧
    (ms.clusterScope.parseAddr v.cluster.host = none ∨
      ms.clusterScope.parseAddr v.cluster.host = some P.failoverIP)

variable {P}

theorem Fits.congr {v v' : MachineVars} (h : P.Fits v) (hprovider : v'.providerID = v.providerID)
    (hlocation : v'.location = v.location) (hhost : v'.cluster.host = v.cluster.host) :
    P.Fits v' where
  server := by
    rw [hprovider]
    exact h.server
  location := by
    rw [hlocation]
    exact h.location
  endpoint := by
    rw [hhost]
    exact h.endpoint

/-- The provider ID of the machine's server fits. -/
theorem Fits.setProviderID {v : MachineVars} (h : P.Fits v) :
    P.Fits { v with providerID := "ionos://" ++ P.serverID } where
  server := .inr (by
    rw [extractServerID_append]
    exact P.serverValid)
  location := h.location
  endpoint := h.endpoint

variable (P)

/-- A lookup may find out the provider ID and the location. -/
structure Kept (v v' : MachineVars) : Prop where
  fits : P.Fits v'
  currentRequest : v'.currentRequest = v.currentRequest
  cluster : v'.cluster = v.cluster
  networkInfo : v'.machineNetworkInfo = v.machineNetworkInfo

variable {P} {site : Site} {v v₁ v₂ : MachineVars}

theorem Kept.refl (h : P.Fits v) : P.Kept v v := ⟨h, rfl, rfl, rfl⟩

theorem Kept.trans (h₁ : P.Kept v v₁) (h₂ : P.Kept v₁ v₂) : P.Kept v v₂ :=
  ⟨h₂.fits, h₂.currentRequest.trans h₁.currentRequest, h₂.cluster.trans h₁.cluster,
    h₂.networkInfo.trans h₁.networkInfo⟩

/-! ## Rules -/

section

variable {α β : Type} {Q : Site → β → MachineVars → Prop}

/-- A call that changes nothing. -/
theorem wp_read {σ : Type} {s : σ} {Q : Site → β → σ → Prop} {c : Call}
    {k : Call.Ans c → Go Call Call.Ans σ β}
    (horders : orders c = false) (hmoved : ∀ a, P.moved site c a = site)
    (h : ∀ a, P.Answers site c a → (k a).wp P.monitor Q site s) :
    (perform c >>= k).wp P.monitor Q site s := by
  rw [wp_bind, wp_perform]
  refine ⟨fun _ => horders, fun a ha => ?_⟩
  rw [show P.monitor.next site c a = site from hmoved a]
  exact h a ha

/-- A lock is free. -/
theorem wp_underLock {key : String} {fail : Err → β} {body : MachineM β}
    (h : body.wp P.monitor Q site v) : (locked key fail body).wp P.monitor Q site v := by
  refine wp_locked (fun _ => rfl) (fun _ hpanic => hpanic.elim) (fun e ha => ?_) fun _ => ?_
  · cases (show (Except.error e : Except Err Unit) = .ok () from ha)
  · exact wp_mono h fun _ _ _ hQ => ⟨fun _ => rfl, fun _ => hQ⟩

end

/-! ## Lookups -/

/-- A list that shows what there is of a name. -/
theorem findLAN_shown {name : String} {lans : List Lan} {shown : Option Lan}
    (h : lans.filter (hasName name) = shown.toList) :
    findLAN none name 0 none lans = .ok shown := by
  have hscan : findLAN none name 0 none lans =
      lanAnswer none name (Data.scan (hasNetworkID none) (hasName name) none lans) :=
    findLAN_eq_scan none lans
  have hstop : ∀ l ∈ lans, hasNetworkID none l = false := fun l _ => by simp [hasNetworkID]
  rw [hscan, Data.scan_none hstop, h]
  cases shown <;> rfl

theorem wp_getLAN_there (hlan : site.lan = .there) :
    (getLAN ms).wp P.monitor (fun site' r v' =>
      ∃ lan, r = .ok (some lan) ∧ P.IsLAN site lan ∧ site' = site ∧ v' = v) site v := by
  unfold getLAN Client.listLANs
  rw [wp_bind, Client.withParams_given (by simpa using P.datacenter.1)]
  refine wp_read rfl (fun _ => rfl) fun a ha => ?_
  obtain ⟨lans, rfl, hshown⟩ := ha rfl
  unfold ShowsLANs at hshown
  rw [hlan] at hshown
  obtain ⟨lan, hlan, hshown⟩ := hshown
  refine (wp_pure _).mpr ((wp_pure _).mpr ⟨lan, ?_, hlan, rfl, rfl⟩)
  cases hnetwork : ms.spec.networkID with
  | none =>
    rw [hnetwork] at hshown
    exact findLAN_shown hshown
  | some id =>
    rw [hnetwork] at hshown
    exact (findLAN_byID (Nat.zero_le 1)).mpr hshown

theorem wp_getLAN_absent (hnetwork : ms.spec.networkID = none) (hlan : site.lan = .absent) :
    (getLAN ms).wp P.monitor (fun site' r v' => r = .ok none ∧ site' = site ∧ v' = v) site v := by
  unfold getLAN Client.listLANs
  rw [wp_bind, Client.withParams_given (by simpa using P.datacenter.1)]
  refine wp_read rfl (fun _ => rfl) fun a ha => ?_
  obtain ⟨lans, rfl, hshown⟩ := ha rfl
  unfold ShowsLANs at hshown
  rw [hlan] at hshown
  refine (wp_pure _).mpr ((wp_pure _).mpr ⟨?_, rfl, rfl⟩)
  rw [hnetwork]
  exact findLAN_shown hshown

/-- The first server with the name. -/
theorem findServer_filter {name : String} {servers : List Server}
    (h : ∀ server ∈ servers, ∀ properties, server.properties = some properties →
      properties.name ≠ none) :
    findServer name servers = .val (servers.filter (nameOf · = some name)).head? := by
  induction servers with
  | nil => rfl
  | cons server servers ih =>
    have ih := ih fun s hs => h s (List.mem_cons_of_mem _ hs)
    have hserver := h server (List.mem_cons_self ..)
    rw [findServer]
    cases hproperties : server.properties with
    | none => simpa [nameOf, hproperties] using ih
    | some properties =>
      cases hname : properties.name with
      | none => exact absurd hname (hserver properties hproperties)
      | some n =>
        by_cases hn : n = name
        · simp [nameOf, hproperties, hname, hn]
        · simpa [nameOf, hproperties, hname, hn] using ih

theorem wp_getServerByName_there (hfits : P.Fits v) (hserver : site.server = .there)
    (err : Option Err) :
    (getServerByName ms err).wp P.monitor (fun site' r v' =>
      ∃ server, r = .ok (some server) ∧ P.IsServer site server ∧ site' = site ∧ P.Kept v v')
      site v := by
  unfold getServerByName Client.listServers
  rw [wp_bind, Client.withParams_given (by simpa using P.datacenter.1)]
  refine wp_read rfl (fun _ => rfl) fun a ha => (wp_pure _).mpr ?_
  obtain ⟨items, rfl, hnamed, hshown⟩ := ha rfl
  rw [hserver] at hshown
  obtain ⟨server, his, hfilter⟩ := hshown
  dsimp only [Client.answered]
  rw [findServer_filter hnamed, hfilter, wp_bind, wp_conclude_iff]
  refine (wp_bind _ _).mpr ((wp_assign _).mpr ((wp_pure _).mpr ⟨server, rfl, his, rfl, ?_⟩))
  rw [his.id]
  exact ⟨hfits.setProviderID, rfl, rfl, rfl⟩

theorem wp_getServerByName_absent (hserver : site.server = .absent) (err : Option Err) :
    (getServerByName ms err).wp P.monitor (fun site' r v' =>
      r = err.elim (.ok none) .error ∧ site' = site ∧ v' = v) site v := by
  unfold getServerByName Client.listServers
  rw [wp_bind, Client.withParams_given (by simpa using P.datacenter.1)]
  refine wp_read rfl (fun _ => rfl) fun a ha => (wp_pure _).mpr ?_
  obtain ⟨items, rfl, hnamed, hshown⟩ := ha rfl
  rw [hserver] at hshown
  dsimp only [Client.answered]
  rw [findServer_filter hnamed, hshown, wp_bind, wp_conclude_iff]
  cases err <;> exact (wp_pure _).mpr ⟨rfl, rfl, rfl⟩

/-- A lookup by the provider ID asks for the server of that ID, or there is none to ask for. -/
theorem wp_getServerByServerID_known {Q : Site → Except Err (Option Server) → MachineVars → Prop}
    (hfits : P.Fits v) (hnone : Q site (.ok none) v)
    (hcall : ∀ a e', P.Answers site (.serversFindById ms.datacenterID
        (extractServerID v.providerID)) a →
      match a with
      | .ok server => Q site (.ok (some server)) v
      | .error e => isNotFound e' = isNotFound e → Q site (.error e') v) :
    (getServerByServerID ms ms.datacenterID (extractServerID v.providerID)).wp P.monitor Q
      site v := by
  unfold getServerByServerID
  rw [wp_ite]
  split
  next => exact (wp_pure _).mpr hnone
  next hid =>
    rw [hfits.server.resolve_left hid]
    unfold Client.getServer
    rw [wp_bind, Client.withParams_given (by simpa using ⟨P.datacenter.1, hid⟩)]
    refine wp_read rfl (fun _ => rfl) fun a ha => (wp_pure _).mpr ?_
    cases a with
    | ok server => exact (wp_pure _).mpr (hcall _ (.new "") ha)
    | error e => exact (wp_pure _).mpr (hcall _ _ ha rfl)

theorem wp_getServer_there (hfits : P.Fits v) (hserver : site.server = .there) :
    (getServer ms).wp P.monitor (fun site' r v' =>
      ∃ server, r = .ok (some server) ∧ P.IsServer site server ∧ site' = site ∧ P.Kept v v')
      site v := by
  refine wp_getServer (wp_getServerByServerID_known hfits
    (wp_getServerByName_there hfits hserver none) fun a e' ha => ?_)
  have ha := ha rfl
  rw [hserver] at ha
  dsimp only at ha
  split at ha
  next =>
    obtain ⟨server, rfl, his⟩ := ha
    exact ⟨server, rfl, his, rfl, .refl hfits⟩
  next =>
    obtain ⟨e, rfl, he⟩ := ha
    intro heq
    dsimp only
    rw [if_pos (heq.trans he)]
    exact wp_getServerByName_there hfits hserver _

theorem wp_getServer_absent (hfits : P.Fits v) (hserver : site.server = .absent) :
    (getServer ms).wp P.monitor (fun site' r v' =>
      findResource.notFoundIsNone r = .ok none ∧ site' = site ∧ v' = v) site v := by
  refine wp_getServer (wp_getServerByServerID_known hfits ?_ fun a e' ha => ?_)
  · refine wp_mono (wp_getServerByName_absent hserver none) fun _ _ _ h => ?_
    exact ⟨by rw [h.1]; rfl, h.2⟩
  · have ha := ha rfl
    rw [hserver] at ha
    obtain ⟨e, rfl, he⟩ := ha
    intro heq
    dsimp only
    rw [if_pos (heq.trans he)]
    refine wp_mono (wp_getServerByName_absent hserver (some e')) fun _ _ _ h => ⟨?_, h.2⟩
    rw [h.1]
    exact if_pos (heq.trans he)

/-- Where every request came to an end, none is found pending. -/
theorem matchRequest_finished {type : ResourceType} {url : String} {matchers : List Matcher}
    {reqs : List Request} (h : ∀ req ∈ reqs, Finished req) :
    ∃ ri, matchRequest type url matchers reqs = .val (.ok ri) ∧
      ri.any (·.isPending) = false := by
  induction reqs with
  | nil => exact ⟨none, rfl, rfl⟩
  | cons req reqs ih =>
    have hreq := h req (List.mem_cons_self ..)
    rcases matchRequest_cons type url matchers req reqs with
      ⟨-, -, heq⟩ | ⟨-, heq⟩ | ⟨-, hurl, -⟩ | ⟨⟨-, -, e, he⟩, -⟩
    · rw [heq]
      exact ih fun r hr => h r (List.mem_cons_of_mem _ hr)
    · rw [heq, matchRequest.found]
      cases hhref : req.href with
      | none => exact absurd hhref hreq.href
      | some href =>
        refine ⟨_, rfl, ?_⟩
        rcases hreq.status with hstatus | hstatus <;> simp [RequestInfo.isPending, hstatus]
    · exact absurd hurl hreq.url
    · obtain ⟨properties, hbody⟩ := hreq.body
      cases hbody.symm.trans he

theorem wp_latest {type : ResourceType} {method : Method} {url : String} {matchers : List Matcher}
    (hurl : (Text.cut url "?").1 ≠ "") :
    (getMatchingRequest type method url matchers : MachineM _).wp P.monitor (fun site' r v' =>
      (∃ ri, r = .ok ri ∧ ri.any (·.isPending) = false) ∧ site' = site ∧ v' = v) site v := by
  refine wp_getMatchingRequest_post (fun hempty => absurd hempty hurl) fun _ =>
    ⟨fun _ => rfl, fun a ha => ?_⟩
  obtain ⟨items, rfl, hfinished⟩ := ha
  have hsorted : ∀ req ∈ Client.sortRequests (deref items []), Finished req := fun req hreq =>
    hfinished req ((Client.sortRequests_perm _).mem_iff.mp hreq)
  obtain ⟨ri, hri, hpending⟩ := matchRequest_finished hsorted
  rw [matchAnswer, hri]
  exact ⟨⟨ri, rfl, hpending⟩, rfl, rfl⟩

/-- A path below the data centers is not empty. -/
theorem url_given {elems : List String} (h : ∀ e ∈ elems, Text.isClean e) :
    (Text.cut (Text.pathJoin ("datacenters" :: elems)) "?").1 ≠ "" := by
  have hclean : ∀ e ∈ "datacenters" :: elems, Text.isClean e :=
    List.forall_mem_cons.mpr ⟨⟨by decide, by decide, by decide, by decide⟩, h⟩
  rw [Text.pathJoin_of_clean (List.cons_ne_nil _ _) hclean]
  have hhead : ∃ cs, ("/".intercalate ("datacenters" :: elems)).toList = 'd' :: cs := by
    rw [String.toList_intercalate]
    cases elems with
    | nil => exact ⟨_, rfl⟩
    | cons e elems => exact ⟨_, rfl⟩
  obtain ⟨cs, hcs⟩ := hhead
  exact Text.cut_ne_empty hcs rfl (by decide)

theorem wp_getLocation_known (hfits : P.Fits v) :
    (getLocation ms).wp P.monitor (fun site' r v' =>
      r = .ok P.location ∧ site' = site ∧ P.Kept v v') site v := by
  unfold getLocation
  rw [wp_bind, wp_vars]
  dsimp only
  rw [wp_ite]
  split
  next =>
    unfold Client.getDatacenterLocationByID
    rw [wp_bind, Client.withParams_given (by simpa using P.datacenter.1)]
    refine wp_read rfl (fun _ => rfl) fun a ha => ?_
    obtain rfl : a = .ok (some P.location) := ha
    refine (wp_pure _).mpr ((wp_bind _ _).mpr ((wp_assign _).mpr ((wp_pure _).mpr ⟨rfl, rfl, ?_⟩)))
    exact ⟨⟨hfits.server, .inr rfl, hfits.endpoint⟩, rfl, rfl, rfl⟩
  next hne =>
    rw [hfits.location.resolve_left hne]
    exact (wp_pure _).mpr ⟨rfl, rfl, .refl hfits⟩

theorem wp_getFailoverIPBlock_there (hfits : P.Fits v) (hblock : site.block = .there) :
    (getFailoverIPBlock ms).wp P.monitor (fun site' r v' =>
      ∃ block, r = .ok (some block) ∧
        (block.state = some "AVAILABLE" ∧ ∃ ips, block.ips = some (P.failoverIP :: ips)) ∧
        site' = site ∧ P.Kept v v') site v := by
  unfold getFailoverIPBlock Client.listIPBlocks
  rw [wp_bind]
  refine wp_read rfl (fun _ => rfl) fun a ha => (wp_pure _).mpr ?_
  obtain ⟨blocks, rfl, hshown⟩ := ha
  unfold ShowsBlocks at hshown
  rw [hblock] at hshown
  obtain ⟨block, ips, hstate, hips, hfilter⟩ := hshown
  refine (wp_bind _ _).mpr (wp_mono (wp_getLocation_known hfits) fun site' r v' h => ?_)
  obtain ⟨rfl, rfl, hkept⟩ := h
  refine (wp_pure _).mpr ⟨block, ?_, ⟨hstate, ips, hips⟩, rfl, hkept⟩
  have hfind : (deref blocks []).find? (isNamedBlock (failoverIPBlockName ms) P.location) =
      some block := by
    rw [← List.head?_filter, hfilter]
    rfl
  exact congrArg Except.ok hfind

theorem wp_getFailoverIPBlock_absent (hfits : P.Fits v) (hblock : site.block = .absent) :
    (getFailoverIPBlock ms).wp P.monitor (fun site' r v' =>
      findResource.notFoundIsNone r = .ok none ∧ site' = site ∧ P.Kept v v') site v := by
  unfold getFailoverIPBlock Client.listIPBlocks
  rw [wp_bind]
  refine wp_read rfl (fun _ => rfl) fun a ha => (wp_pure _).mpr ?_
  obtain ⟨blocks, rfl, hshown⟩ := ha
  unfold ShowsBlocks at hshown
  rw [hblock] at hshown
  refine (wp_bind _ _).mpr (wp_mono (wp_getLocation_known hfits) fun site' r v' h => ?_)
  obtain ⟨rfl, rfl, hkept⟩ := h
  refine (wp_pure _).mpr ⟨?_, rfl, hkept⟩
  have hfind : (deref blocks []).find? (isNamedBlock (failoverIPBlockName ms) P.location) =
      none := by
    rw [← List.head?_filter, hshown]
    rfl
  exact congrArg Except.ok hfind

end Place

end Capic.Properties.Convergence
