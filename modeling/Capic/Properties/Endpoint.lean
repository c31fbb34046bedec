import Capic.Cloud.IPBlock
import Mathlib.Data.List.Nodup

/-!
# Deleting the control plane endpoint

`ReconcileControlPlaneEndpointDeletion` looks for the block of the endpoint and for the request
that is to create it, and has to tell apart what it found: the cluster's own block, a user's
block, a request, or nothing.

`IPBlockCloud` is what a run may meet: the blocks, the requests of the past, what the host of the
endpoint resolves to, and the errors the calls may fail with. The answers of a run are those the
cloud `Serves`. Two things can happen that should not.

- `endpoint_deletion_returns`: a creation request that is not pending, without a block, leads to
  the use of a block that is not there, if the endpoint has no IP. A cloud in which this can
  happen is `Dangling`.
- `endpoint_block_kept`: a user's block, or a host whose IP is in no block, ends the search with
  success, whether the cluster has a block of its own or not. A cloud in which a run can end with
  success (`Passes`) while there is a block of the cluster, or one is about to be created, leaks.

Both are equivalences: `deletion_spec` follows every run (`wp`), and the converse builds the run
(`Can`).
-/

namespace Capic.Properties

open Effect Effect.Go Cloud

/-! ## The cloud -/

/-- What a run of the deletion may meet. -/
structure IPBlockCloud where
  blocks : List IpBlock
  /-- The `POST` requests of the last day. -/
  creations : List Request
  /-- The `DELETE` requests of the last day, by URL. -/
  deletions : String → List Request
  /-- What a host may resolve to. -/
  resolves : String → List UInt32 → Prop
  /-- The errors a call may fail with. -/
  fails : Call → Err → Prop
  blocks_id : ∀ block ∈ blocks, block.id.isSome
  creations_wf : ∀ req ∈ creations,
    req.url.isSome ∧ req.href.isSome ∧ ∃ properties, req.body = .ok properties
  deletions_wf : ∀ url, ∀ req ∈ deletions url, req.url.isSome ∧ req.href.isSome
  resolves_ne : ∀ host ips, resolves host ips → ips ≠ []
  /-- The API does not know the provider's own errors. -/
  fails_foreign : ∀ c e, fails c e → e.isUserSetIPNotFound = false
  /-- A resolver is not an API. -/
  fails_resolve : ∀ host e, fails (.lookupNetIP host) e → isNotFound e = false

namespace IPBlockCloud

variable (C : IPBlockCloud)

/-- The answers a call may get. -/
def Serves : (c : Call) → Call.Ans c → Prop
  | .ipblocksGet, .ok items => deref items [] = C.blocks
  | .ipblocksGet, .error e => C.fails .ipblocksGet e
  | .ipblocksFindById id, .ok block => block ∈ C.blocks ∧ block.id = some id
  | .ipblocksFindById id, .error e =>
    (isNotFound e = true ∧ ∀ block ∈ C.blocks, block.id ≠ some id) ∨
      C.fails (.ipblocksFindById id) e
  | .requestsGet .post _, .ok items => deref items [] = C.creations
  | .requestsGet .delete url, .ok items => deref items [] = C.deletions url
  | .requestsGet method url, .error e => C.fails (.requestsGet method url) e
  | .lookupNetIP host, .ok ips => C.resolves host ips
  | .lookupNetIP host, .error e => C.fails (.lookupNetIP host) e
  | _, _ => True

end IPBlockCloud

section

variable (cs : ClusterScope) (v : ClusterVars) (C : IPBlockCloud)

/-- The matchers for a creation of the cluster's block. -/
def creationMatchers : List Matcher :=
  [matchByName (controlPlaneEndpointIPBlockName cs),
    fun properties => deref (properties.bind (·.location)) unknownValue = cs.location]

/-- The request creates the cluster's block. -/
def CreatesBlock (req : Request) : Prop := IsMatch .ipBlock ipBlocksPath (creationMatchers cs) req

/-- A creation of the cluster's block is pending. -/
def CreationPending : Prop :=
  ∃ req ∈ C.creations, CreatesBlock cs req ∧ (req.status = .queued ∨ req.status = .running)

/-- The newest creation of the cluster's block. -/
def newestCreation : Res (Except Err (Option RequestInfo)) :=
  matchRequest .ipBlock ipBlocksPath (creationMatchers cs) (Client.sortRequests C.creations)

/-- The cluster's block is there. -/
def BlockExists : Prop :=
  ∃ block ∈ C.blocks,
    isNamedBlock (controlPlaneEndpointIPBlockName cs) cs.location block = true

/-- What the endpoint's IP may turn out to be. -/
def MayBeIP (ip : String) : Prop :=
  (v.host = "" ∧ ip = "") ∨ (v.host ≠ "" ∧ cs.parseAddr v.host = some ip) ∨
    (v.host ≠ "" ∧ cs.parseAddr v.host = none ∧ ∃ ips first rest, C.resolves v.host ips ∧
      ips.insertionSort (fun a b => a.toNat ≤ b.toNat) = first :: rest ∧
      ip = ClusterScope.addrText first)

/-- The recorded ID may lead to no block. -/
def MayMissID : Prop :=
  v.controlPlaneEndpointIPBlockID = "" ∨
    (∀ block ∈ C.blocks, block.id ≠ some v.controlPlaneEndpointIPBlockID) ∨
    ∃ e, C.fails (.ipblocksFindById v.controlPlaneEndpointIPBlockID) e ∧ isNotFound e = true

/-- A lookup may find nothing: there is no block of the cluster and the endpoint has no IP, or
the list of blocks is said not to exist. -/
def MayFindNothing : Prop :=
  MayMissID v C ∧ ((MayBeIP cs v C "" ∧ ¬ BlockExists cs C) ∨
    ∃ e, C.fails .ipblocksGet e ∧ isNotFound e = true)

/-- Nothing may be found but a creation that is not pending any more. -/
def Dangling : Prop :=
  MayFindNothing cs v C ∧ ∃ ri, newestCreation cs C = .val (.ok (some ri)) ∧ ri.isPending = false

/-- A block with the endpoint's IP and another name is reached: at most one block of the cluster
is listed before it. -/
def UserBlockFirst (ip : String) : Prop :=
  ∃ before block after, C.blocks = before ++ block :: after ∧
    isUserSetBlock (controlPlaneEndpointIPBlockName cs) cs.location ip block = true ∧
    (before.filter (isNamedBlock (controlPlaneEndpointIPBlockName cs) cs.location)).length ≤ 1

/-- The search through the blocks for an endpoint with this IP. -/
abbrev blockSearch (ip : String) : Data.Outcome IpBlock :=
  Data.scan (isUserSetBlock (controlPlaneEndpointIPBlockName cs) cs.location ip)
    (isNamedBlock (controlPlaneEndpointIPBlockName cs) cs.location) none C.blocks

/-- The recorded block has another name. -/
def UserBlockRecorded : Prop :=
  v.controlPlaneEndpointIPBlockID ≠ "" ∧ ∃ block ∈ C.blocks,
    block.id = some v.controlPlaneEndpointIPBlockID ∧
    block.name ≠ some (controlPlaneEndpointIPBlockName cs)

/-- The deletion may be over: the recorded block is a user's; or the endpoint has an IP, and that
is in a user's block that is reached, or there is no block of the cluster; or nothing is found,
neither a block nor a request. -/
def Passes : Prop :=
  UserBlockRecorded cs v C ∨
    (MayMissID v C ∧ ∃ ip, ip ≠ "" ∧ MayBeIP cs v C ip ∧
      (UserBlockFirst cs C ip ∨ ¬ BlockExists cs C)) ∨
    (MayFindNothing cs v C ∧ (newestCreation cs C = .val (.ok none) ∨
      ∃ e, C.fails (.requestsGet .post ipBlocksPath) e ∧ isNotFound e = true))

/-- Something speaks against success: an error, or a block with the cluster's name. -/
def MayFail : Prop :=
  (∃ c e, C.fails c e) ∨
    ∃ block ∈ C.blocks, block.name = some (controlPlaneEndpointIPBlockName cs)

end

/-! ## Names -/

section

variable {cs : ClusterScope} {v : ClusterVars} {C : IPBlockCloud}

theorem blockName_ne_empty : controlPlaneEndpointIPBlockName cs ≠ "" := by
  intro h
  have hlength := congrArg String.length h
  simp [controlPlaneEndpointIPBlockName] at hlength

theorem blockName_ne_unknown : controlPlaneEndpointIPBlockName cs ≠ unknownValue := by
  intro h
  have hchars := congrArg String.toList h
  simp [controlPlaneEndpointIPBlockName, unknownValue] at hchars

/-- A block without a name does not have the cluster's, whatever a missing one is read as. -/
theorem deref_name_eq {name : Option String} {d : String}
    (hd : controlPlaneEndpointIPBlockName cs ≠ d) :
    deref name d = controlPlaneEndpointIPBlockName cs ↔
      name = some (controlPlaneEndpointIPBlockName cs) := by
  cases name with
  | none => exact ⟨fun h => absurd h.symm hd, fun h => nomatch h⟩
  | some n => exact ⟨fun h => congrArg some h, fun h => Option.some.inj h⟩

theorem name_of_named {location : String} {block : IpBlock}
    (h : isNamedBlock (controlPlaneEndpointIPBlockName cs) location block = true) :
    block.name = some (controlPlaneEndpointIPBlockName cs) :=
  (deref_name_eq blockName_ne_empty).mp (of_decide_eq_true h).2

theorem name_of_userSet {location ip : String} {block : IpBlock}
    (h : isUserSetBlock (controlPlaneEndpointIPBlockName cs) location ip block = true) :
    block.name ≠ some (controlPlaneEndpointIPBlockName cs) := by
  intro hname
  exact (of_decide_eq_true h).2.1 ((deref_name_eq blockName_ne_empty).mpr hname)

theorem ip_of_userSet {name location ip : String} {block : IpBlock}
    (h : isUserSetBlock name location ip block = true) : ip ≠ "" :=
  (of_decide_eq_true (of_decide_eq_true h).2.2).1

/-! ## Requests -/

/-- Requests with all they should have lead to an answer. -/
theorem matchRequest_wf {type : ResourceType} {url : String} {matchers : List Matcher}
    {reqs : List Request} (h : ∀ req ∈ reqs, req.url.isSome ∧ req.href.isSome ∧
      (matchers ≠ [] → ∃ properties, req.body = .ok properties)) :
    ∃ o, matchRequest type url matchers reqs = .val (.ok o) := by
  induction reqs with
  | nil => exact ⟨none, rfl⟩
  | cons req reqs ih =>
    obtain ⟨hurl, hhref, hbody⟩ := h req (List.mem_cons_self ..)
    obtain ⟨url', hurl⟩ := Option.isSome_iff_exists.mp hurl
    obtain ⟨href, hhref⟩ := Option.isSome_iff_exists.mp hhref
    have hrest := ih fun req' hreq' => h req' (List.mem_cons_of_mem _ hreq')
    have hfound : ∃ o, matchRequest.found req = .val (.ok o) := by
      rw [matchRequest.found, hhref]
      exact ⟨_, rfl⟩
    rw [matchRequest, hurl]
    simp only
    split_ifs with htype hsuffix hmatchers
    · exact hrest
    · exact hrest
    · exact hfound
    · obtain ⟨properties, hbody⟩ := hbody hmatchers
      rw [hbody]
      simp only
      split_ifs
      · exact hfound
      · exact hrest

theorem newestCreation_wf (cs : ClusterScope) (C : IPBlockCloud) :
    ∃ o, newestCreation cs C = .val (.ok o) := by
  refine matchRequest_wf fun req hreq => ?_
  obtain ⟨hurl, hhref, hbody⟩ :=
    C.creations_wf req ((Client.sortRequests_perm _).mem_iff.mp hreq)
  exact ⟨hurl, hhref, fun _ => hbody⟩

theorem deletions_matched (C : IPBlockCloud) (url url' : String) :
    ∃ o, matchRequest .ipBlock url' [] (Client.sortRequests (C.deletions url)) =
      .val (.ok o) := by
  refine matchRequest_wf fun req hreq => ?_
  obtain ⟨hurl, hhref⟩ := C.deletions_wf url req ((Client.sortRequests_perm _).mem_iff.mp hreq)
  exact ⟨hurl, hhref, fun h => absurd rfl h⟩

/-- No creation that was found is pending if none is. -/
theorem creationPending_of_newest {ri : RequestInfo}
    (h : newestCreation cs C = .val (.ok (some ri))) (hri : ri.isPending = true) :
    CreationPending cs C := by
  obtain ⟨before, req, after, hsplit, -, hmatch, hstatus, -⟩ := matchRequest_some h
  refine ⟨req, (Client.sortRequests_perm _).mem_iff.mp ?_, hmatch, ?_⟩
  · rw [hsplit]
    exact List.mem_append_right _ (List.mem_cons_self ..)
  · rw [hstatus]
    simpa [RequestInfo.isPending] using hri

/-! ## One lookup -/

/-- The answers are those the cloud serves, and the monitor has no more to say about calls that
delete no block. -/
structure Attends (M : Monitor Call Call.Ans) (C : IPBlockCloud) : Prop where
  ok : ∀ q c, (∀ id, c ≠ .ipblocksDelete id) → M.ok q c
  adm : ∀ {q c a}, M.adm q c a → C.Serves c a
  next : ∀ q c a, M.next q c a = q

/-- The ways a lookup may end. -/
inductive LookedFor (cs : ClusterScope) (v : ClusterVars) (C : IPBlockCloud) :
    Except Err (Option IpBlock) → Prop where
  /-- The recorded ID is that of a block. -/
  | recorded {block : IpBlock} : v.controlPlaneEndpointIPBlockID ≠ "" → block ∈ C.blocks →
      block.id = some v.controlPlaneEndpointIPBlockID → LookedFor cs v C (.ok (some block))
  /-- The list of blocks was searched. -/
  | listed {ip : String} {notFoundError : Option Err} : MayMissID v C →
      (∀ e ∈ notFoundError, isNotFound e = true) → MayBeIP cs v C ip →
      LookedFor cs v C (blockAnswer (controlPlaneEndpointIPBlockName cs) ip notFoundError
        (blockSearch cs C ip))
  /-- There was no list. -/
  | unlisted {e : Err} : MayMissID v C → C.fails .ipblocksGet e →
      LookedFor cs v C (.error (.wrap "failed to list IP blocks: " (Client.apiCallErr e)))
  /-- Another call failed. -/
  | failed {e : Err} : isNotFound e = false → e.isUserSetIPNotFound = false →
      (∃ c e, C.fails c e) → LookedFor cs v C (.error e)

section

variable {M : Monitor Call Call.Ans} {q : M.Phase}

theorem endpointIP_run (hM : Attends M C) {Q : M.Phase → Except Err String → ClusterVars → Prop}
    (hok : ∀ ip, MayBeIP cs v C ip → Q q (.ok ip) v)
    (herror : ∀ e, isNotFound e = false → e.isUserSetIPNotFound = false →
      (∃ c e, C.fails c e) → Q q (.error e) v) :
    cs.getControlPlaneEndpointIP.wp M Q q v := by
  unfold ClusterScope.getControlPlaneEndpointIP
  rw [wp_bind, wp_vars]
  by_cases hhost : v.host = ""
  · simp only [hhost, if_true]
    exact (wp_pure _).mpr (hok "" (.inl ⟨hhost, rfl⟩))
  · simp only [hhost, if_false]
    cases hparse : cs.parseAddr v.host with
    | some ip => exact (wp_pure _).mpr (hok ip (.inr (.inl ⟨hhost, hparse⟩)))
    | none =>
      rw [wp_bind, wp_perform]
      refine ⟨hM.ok _ _ fun _ h => (nomatch h), fun a ha => ?_⟩
      have hserved := hM.adm ha
      rw [hM.next]
      match a with
      | .error e =>
        exact (wp_pure _).mpr (herror _ (C.fails_resolve v.host e hserved)
          (C.fails_foreign _ e hserved) ⟨_, e, hserved⟩)
      | .ok ips =>
        simp only
        split
        next hsort =>
          have hperm := List.perm_insertionSort (fun a b : UInt32 => a.toNat ≤ b.toNat) ips
          rw [hsort] at hperm
          exact absurd (List.nil_perm.mp hperm) (C.resolves_ne _ _ hserved)
        next first rest hsort =>
          exact (wp_pure _).mpr (hok _ (.inr (.inr ⟨hhost, hparse, ips, first, rest, hserved,
            hsort, rfl⟩)))

theorem list_run (hM : Attends M C) {notFoundError : Option Err} (hid : MayMissID v C)
    (herr : ∀ e ∈ notFoundError, isNotFound e = true) :
    (listControlPlaneEndpointIPBlock cs notFoundError).wp M
      (fun q' r s => q' = q ∧ s = v ∧ LookedFor cs v C r) q v := by
  unfold listControlPlaneEndpointIPBlock Client.listIPBlocks
  rw [wp_bind, wp_bind, wp_perform]
  refine ⟨hM.ok _ _ fun _ h => (nomatch h), fun a ha => ?_⟩
  have hserved := hM.adm ha
  rw [hM.next]
  match a with
  | .error e => exact (wp_pure _).mpr ((wp_pure _).mpr ⟨rfl, rfl, .unlisted hid hserved⟩)
  | .ok items =>
    refine (wp_pure _).mpr ((wp_bind _ _).mpr (endpointIP_run hM ?_ ?_))
    · intro ip hip
      refine (wp_pure _).mpr ⟨rfl, rfl, ?_⟩
      have hitems : deref items [] = C.blocks := hserved
      have hscan : findIPBlock (controlPlaneEndpointIPBlockName cs) cs.location ip notFoundError 0
          none C.blocks = blockAnswer _ _ _ (blockSearch cs C ip) :=
        findIPBlock_eq_scan none C.blocks
      rw [hitems, hscan]
      exact .listed hid herr hip
    · intro e hnotFound hforeign hfails
      exact (wp_pure _).mpr ⟨rfl, rfl, .failed hnotFound hforeign hfails⟩

theorem lookup_run (hM : Attends M C) :
    (getControlPlaneEndpointIPBlock cs).wp M (fun q' r s => q' = q ∧ s = v ∧ LookedFor cs v C r)
      q v := by
  unfold getControlPlaneEndpointIPBlock getIPBlockByID
  rw [wp_bind, wp_vars]
  by_cases hid : v.controlPlaneEndpointIPBlockID = ""
  · rw [if_pos hid]
    exact list_run hM (.inl hid) fun e he => nomatch he
  · unfold Client.getIPBlock
    rw [if_neg hid, Client.withParams_given (by simpa using hid), wp_bind, wp_bind, wp_bind,
      wp_perform]
    refine ⟨hM.ok _ _ fun _ h => (nomatch h), fun a ha => ?_⟩
    have hserved := hM.adm ha
    rw [hM.next]
    match a with
    | .ok block =>
      exact (wp_pure _).mpr ((wp_pure _).mpr ((wp_pure _).mpr
        ⟨rfl, rfl, .recorded hid hserved.1 hserved.2⟩))
    | .error e =>
      refine (wp_pure _).mpr ((wp_pure _).mpr ((wp_ite _ _ _).mpr ?_))
      split
      next hnotFound =>
        refine list_run hM (.inr (hserved.imp (fun h => h.2) fun h => ⟨e, h, hnotFound⟩)) ?_
        intro e' he'
        obtain rfl := Option.some.inj he'
        exact hnotFound
      next hnotFound =>
        have hfails : C.fails _ e := hserved.resolve_left fun h => hnotFound h.1
        exact (wp_pure _).mpr ⟨rfl, rfl, .failed (Bool.eq_false_iff.mpr hnotFound)
          (C.fails_foreign _ e hfails) ⟨_, e, hfails⟩⟩

/-- The request for the creation. -/
theorem queue_run (hM : Attends M C) :
    (getLatestControlPlaneEndpointIPBlockCreationRequest cs).wp M
      (fun q' r s => q' = q ∧ s = v ∧
        match r with
        | .ok request => newestCreation cs C = .val (.ok request)
        | .error e => e.isUserSetIPNotFound = false ∧
          ∃ e', C.fails (.requestsGet .post ipBlocksPath) e' ∧ isNotFound e' = isNotFound e)
      q v := by
  unfold getLatestControlPlaneEndpointIPBlockCreationRequest
    getLatestIPBlockRequestByNameAndLocation
  refine wp_getMatchingRequest_post (fun h => absurd h (by decide)) fun _ =>
    ⟨hM.ok _ _ fun _ h => (nomatch h), fun a ha => ?_⟩
  have hserved := hM.adm ha
  rw [hM.next]
  match a with
  | .error e => exact ⟨rfl, rfl, C.fails_foreign _ e hserved, e, hserved, rfl⟩
  | .ok items =>
    obtain ⟨request, hrequest⟩ := newestCreation_wf cs C
    have hitems : deref items [] = C.creations := hserved
    have hmatch : matchAnswer .ipBlock ipBlocksPath (creationMatchers cs) (.ok items) =
        .val (.ok request) := by
      rw [matchAnswer, hitems]
      exact hrequest
    exact hmatch ▸ ⟨rfl, rfl, hrequest⟩

end

/-! ## Every run -/

/-- The answers are those the cloud serves, blocks are deleted only if they have the cluster's
name, and a panic needs a cloud that is dangling. -/
abbrev endpointMonitor (cs : ClusterScope) (v : ClusterVars) (C : IPBlockCloud) :
    Monitor Call Call.Ans where
  Phase := Unit
  ok _ c := ∀ id, c = .ipblocksDelete id → ∃ block ∈ C.blocks, block.id = some id ∧
    block.name = some (controlPlaneEndpointIPBlockName cs)
  adm _ c a := C.Serves c a
  next _ _ _ := ()
  panic _ := Dangling cs v C

/-- What a lookup may lead to, with "not found" taken for nothing. -/
def Looked (cs : ClusterScope) (v : ClusterVars) (C : IPBlockCloud) :
    Except Err (Option IpBlock) → Prop
  | .ok (some block) => block ∈ C.blocks ∧
    (block.name ≠ some (controlPlaneEndpointIPBlockName cs) → Passes cs v C)
  | .ok none => MayFindNothing cs v C
  | .error e => isNotFound e = false ∧
    if e.isUserSetIPNotFound then Passes cs v C else MayFail cs C

theorem Looked.failed {e : Err} (hnotFound : isNotFound e = false)
    (hforeign : e.isUserSetIPNotFound = false) (h : MayFail cs C) : Looked cs v C (.error e) := by
  refine ⟨hnotFound, ?_⟩
  rw [hforeign]
  exact h

/-- An error of the API, as a lookup passes it on. -/
theorem Looked.of_fails {c : Call} {e : Err} (text : String) (h : C.fails c e)
    (hnothing : isNotFound e = true → MayFindNothing cs v C) :
    Looked cs v C (findResource.notFoundIsNone (.error (.wrap text (Client.apiCallErr e)))) := by
  by_cases hnotFound : isNotFound e = true
  · have hnone : findResource.notFoundIsNone (.error (.wrap text (Client.apiCallErr e)) :
        Except Err (Option IpBlock)) = .ok none := if_pos hnotFound
    rw [hnone]
    exact hnothing hnotFound
  · have herror : findResource.notFoundIsNone (.error (.wrap text (Client.apiCallErr e)) :
        Except Err (Option IpBlock)) = .error _ := if_neg hnotFound
    rw [herror]
    exact .failed (Bool.eq_false_iff.mpr hnotFound) (C.fails_foreign c e h) (.inl ⟨c, e, h⟩)

/-- What the search found at its end is a block of the cluster. -/
theorem search_found {ip : String} {block : IpBlock}
    (h : blockSearch cs C ip = .ended (some block)) :
    block ∈ C.blocks ∧
      isNamedBlock (controlPlaneEndpointIPBlockName cs) cs.location block = true := by
  rw [← List.mem_filter, (Data.scan_ended_inv h).2]
  exact List.mem_cons_self ..

/-- What is made of the list of blocks. -/
theorem blockAnswer_looked {notFoundError : Option Err} {ip : String} (hid : MayMissID v C)
    (herr : ∀ e ∈ notFoundError, isNotFound e = true) (hip : MayBeIP cs v C ip) :
    Looked cs v C (findResource.notFoundIsNone
      (blockAnswer (controlPlaneEndpointIPBlockName cs) ip notFoundError
        (blockSearch cs C ip))) := by
  match hout : blockSearch cs C ip with
  | .stopped block =>
    obtain ⟨before, after, hsplit, huser, hle⟩ := Data.scan_stopped_inv hout
    refine ⟨?_, fun _ => .inr (.inl ⟨hid, ip, ip_of_userSet huser, hip,
      .inl ⟨before, block, after, hsplit, huser, hle⟩⟩)⟩
    rw [hsplit]
    exact List.mem_append_right _ (List.mem_cons_self ..)
  | .tooMany =>
    obtain ⟨block, hblock, hnamed⟩ := Data.scan_tooMany_inv hout
    exact .failed rfl rfl (.inr ⟨block, hblock, name_of_named hnamed⟩)
  | .ended (some block) =>
    obtain ⟨hblock, hnamed⟩ := search_found hout
    exact ⟨hblock, fun hname => absurd (name_of_named hnamed) hname⟩
  | .ended none =>
    have hnone : ¬ BlockExists cs C := by
      rintro ⟨block, hblock, hnamed⟩
      exact (List.filter_eq_nil_iff.mp (Data.scan_ended_inv hout).2) block hblock hnamed
    by_cases hempty : ip = ""
    · subst hempty
      have hnothing : MayFindNothing cs v C := ⟨hid, .inl ⟨hip, hnone⟩⟩
      match notFoundError with
      | none => exact hnothing
      | some e =>
        have hlooked : findResource.notFoundIsNone (.error e : Except Err (Option IpBlock)) =
            .ok none := if_pos (herr e rfl)
        show Looked cs v C (findResource.notFoundIsNone (.error e))
        rw [hlooked]
        exact hnothing
    · simp only [blockAnswer, ne_eq, hempty, not_false_eq_true, if_true]
      exact ⟨rfl, .inr (.inl ⟨hid, ip, hempty, hip, .inr hnone⟩)⟩

/-- A lookup ends for a reason. -/
theorem LookedFor.looked {r : Except Err (Option IpBlock)} (h : LookedFor cs v C r) :
    Looked cs v C (findResource.notFoundIsNone r) := by
  cases h with
  | @recorded block hid hblock hsame =>
    exact ⟨hblock, fun hname => .inl ⟨hid, block, hblock, hsame, hname⟩⟩
  | listed hid herr hip => exact blockAnswer_looked hid herr hip
  | @unlisted e hid hfails =>
    exact .of_fails _ hfails fun hnotFound => ⟨hid, .inr ⟨e, hfails, hnotFound⟩⟩
  | @failed e hnotFound hforeign hfails =>
    have hlooked : findResource.notFoundIsNone (.error e : Except Err (Option IpBlock)) =
        .error e := if_neg (by simp [hnotFound])
    rw [hlooked]
    exact .failed hnotFound hforeign (.inl hfails)

theorem attends_endpointMonitor (cs : ClusterScope) (v : ClusterVars) (C : IPBlockCloud) :
    Attends (endpointMonitor cs v C) C where
  ok _ _ h id hcall := absurd hcall (h id)
  adm h := h
  next _ _ _ := rfl

/-- What a run may end with: success for a reason, or no success for one. -/
def EndedFor (cs : ClusterScope) (v : ClusterVars) (C : IPBlockCloud) (o : Outcome) : Prop :=
  (o = (false, none) → Passes cs v C) ∧
    (o ≠ (false, none) → CreationPending cs C ∨ MayFail cs C)

theorem EndedFor.success (h : Passes cs v C) : EndedFor cs v C (false, none) :=
  ⟨fun _ => h, fun hne => absurd rfl hne⟩

theorem EndedFor.other {o : Outcome} (ho : o ≠ (false, none))
    (h : CreationPending cs C ∨ MayFail cs C) : EndedFor cs v C o :=
  ⟨fun heq => absurd heq ho, fun _ => h⟩

/-- The cluster's block is deleted. -/
theorem deleteFound_run {block : IpBlock} {s : ClusterVars} (hblock : block ∈ C.blocks)
    (hname : block.name = some (controlPlaneEndpointIPBlockName cs)) :
    (deleteFoundControlPlaneEndpointIPBlock (some block)).wp (endpointMonitor cs v C)
      (fun _ o _ => EndedFor cs v C o) () s := by
  have hother : ∀ {o : Outcome}, o ≠ (false, none) → EndedFor cs v C o := fun ho =>
    .other ho (.inr (.inr ⟨block, hblock, hname⟩))
  obtain ⟨id, hid⟩ := Option.isSome_iff_exists.mp (C.blocks_id block hblock)
  unfold deleteFoundControlPlaneEndpointIPBlock getLatestIPBlockDeletionRequest
  simp only [Option.bind_some, hid]
  rw [wp_bind]
  refine wp_getMatchingRequest_post (fun _ e _ => (wp_pure _).mpr (hother (by simp))) fun _ =>
    ⟨fun _ h => (nomatch h), fun a ha => ?_⟩
  match a with
  | .error e => exact (wp_pure _).mpr (hother (by simp))
  | .ok items =>
    obtain ⟨request, hrequest⟩ := deletions_matched C
      (Text.cut (Text.pathJoin [ipBlocksPath, id]) "?").1 (Text.pathJoin [ipBlocksPath, id])
    have hitems : deref items [] = C.deletions _ := ha
    have hmatch : matchAnswer .ipBlock (Text.pathJoin [ipBlocksPath, id]) [] (.ok items) =
        .val (.ok request) := by
      rw [matchAnswer, hitems]
      exact hrequest
    rw [hmatch]
    show wp _ _ _ _ _
    simp only
    split
    next request _ =>
      exact (wp_bind _ _).mpr ((wp_assign _).mpr ((wp_pure _).mpr (hother (by simp))))
    next =>
      unfold deleteControlPlaneEndpointIPBlock deleteIPBlock Client.deleteIPBlock
      rw [wp_bind, wp_bind]
      refine Client.wp_withParams (fun p hp _ => ?_) ?_
      · exact (wp_pure _).mpr ((wp_pure _).mpr (hother (by simp)))
      rw [wp_bind, wp_perform]
      refine ⟨fun id' h => ?_, fun a _ => ?_⟩
      · obtain rfl := Call.ipblocksDelete.inj h
        exact ⟨block, hblock, hid, hname⟩
      · refine (wp_pure _).mpr ?_
        cases Client.located a with
        | error e => exact (wp_pure _).mpr ((wp_pure _).mpr (hother (by simp)))
        | ok path =>
          exact (wp_bind _ _).mpr ((wp_assign _).mpr ((wp_pure _).mpr
            ((wp_pure _).mpr (hother (by simp)))))

/-- The block that was found is a user's or the cluster's. -/
theorem foundBlock_run {block : IpBlock} {s : ClusterVars} (hblock : block ∈ C.blocks)
    (hpasses : block.name ≠ some (controlPlaneEndpointIPBlockName cs) → Passes cs v C) :
    (reconcileFoundControlPlaneEndpointDeletion cs (some block) none).wp (endpointMonitor cs v C)
      (fun _ o _ => EndedFor cs v C o) () s := by
  unfold reconcileFoundControlPlaneEndpointDeletion
  rw [if_neg (fun h => nomatch h.1)]
  by_cases hname : block.name = some (controlPlaneEndpointIPBlockName cs)
  · have hown : ¬ (some block).any (fun b =>
        deref b.name unknownValue ≠ controlPlaneEndpointIPBlockName cs) = true := by
      simpa using (deref_name_eq blockName_ne_unknown).mpr hname
    rw [if_neg hown]
    exact deleteFound_run hblock hname
  · have hother : (some block).any (fun b =>
        deref b.name unknownValue ≠ controlPlaneEndpointIPBlockName cs) = true := by
      simpa using fun h => hname ((deref_name_eq blockName_ne_unknown).mp h)
    rw [if_pos hother]
    exact (wp_pure _).mpr (.success (hpasses hname))

/-- Only a request was found. -/
theorem foundRequest_run {request : RequestInfo} {s : ClusterVars}
    (hnothing : MayFindNothing cs v C) (hrequest : newestCreation cs C = .val (.ok (some request))) :
    (reconcileFoundControlPlaneEndpointDeletion cs none (some request)).wp (endpointMonitor cs v C)
      (fun _ o _ => EndedFor cs v C o) () s := by
  unfold reconcileFoundControlPlaneEndpointDeletion
  rw [if_neg (fun h => nomatch h.2), if_neg (by simp)]
  cases hpending : request.isPending with
  | true =>
    rw [Option.filter_some_pos (by simpa using hpending)]
    refine (wp_bind _ _).mpr ((wp_assign _).mpr ((wp_pure _).mpr (.other (by simp) (.inl ?_))))
    exact creationPending_of_newest hrequest hpending
  | false =>
    rw [Option.filter_some_neg (by simpa using hpending)]
    exact (wp_panicking _).mpr ⟨hnothing, request, hrequest, hpending⟩

/-- A lookup that decides, with what follows from it. -/
theorem lookedUp_deletion {r : Except Err (Option IpBlock)} {rest : Unit → ClusterVars → Prop}
    (hr : Looked cs v C (findResource.notFoundIsNone r))
    (hrest : MayFindNothing cs v C → rest () v) :
    lookedUp (M := endpointMonitor cs v C) (fun q r s =>
      wp (endpointMonitor cs v C) (match r with
        | .error e =>
          if isNotFound e then reconcileFoundControlPlaneEndpointDeletion cs none none
          else if e.isUserSetIPNotFound then do
            ClusterScope.deleteCurrentClusterRequest
            return (false, none)
          else return (false, some e)
        | .ok (block, request) => reconcileFoundControlPlaneEndpointDeletion cs block request)
        (fun _ o _ => EndedFor cs v C o) q s) rest () r v := by
  unfold lookedUp
  rcases hresult : findResource.notFoundIsNone r with e | _ | block
  · rw [hresult] at hr
    obtain ⟨hnotFound, hreason⟩ := hr
    simp only [hnotFound, Bool.false_eq_true, if_false]
    split at hreason
    next huser =>
      rw [if_pos huser]
      exact (wp_bind _ _).mpr ((wp_assign _).mpr ((wp_pure _).mpr (.success hreason)))
    next huser =>
      rw [if_neg huser]
      exact (wp_pure _).mpr (.other (by simp) (.inr hreason))
  · rw [hresult] at hr
    exact hrest hr
  · rw [hresult] at hr
    exact foundBlock_run hr.1 hr.2

/-- Every run: it ends for a reason, it deletes blocks with the cluster's name only, and it
panics only in a dangling cloud. -/
theorem deletion_spec (cs : ClusterScope) (v : ClusterVars) (C : IPBlockCloud) :
    (reconcileControlPlaneEndpointDeletion cs).wp (endpointMonitor cs v C)
      (fun _ o _ => EndedFor cs v C o) () v := by
  unfold reconcileControlPlaneEndpointDeletion
  rw [wp_bind]
  have hM := attends_endpointMonitor cs v C
  refine wp_findResource (wp_mono (lookup_run hM) ?_)
  rintro _ r _ ⟨rfl, rfl, hr⟩
  refine lookedUp_deletion hr.looked fun hnothing => wp_mono (queue_run hM) ?_
  rintro _ answer _ ⟨rfl, rfl, hqueue⟩
  rcases answer with e | _ | request
  · obtain ⟨hforeign, e', he', hsame⟩ := hqueue
    simp only
    by_cases hnotFound : isNotFound e = true
    · rw [if_pos hnotFound]
      refine (wp_bind _ _).mpr ((wp_assign _).mpr ((wp_pure _).mpr (.success ?_)))
      exact .inr (.inr ⟨hnothing, .inr ⟨e', he', hsame.trans hnotFound⟩⟩)
    · rw [if_neg hnotFound, if_neg (by simp [hforeign])]
      exact (wp_pure _).mpr (.other (by simp) (.inr (.inl ⟨_, e', he'⟩)))
  · refine (wp_bind _ _).mpr ((wp_assign _).mpr ((wp_pure _).mpr (.success ?_)))
    exact .inr (.inr ⟨hnothing, .inl hqueue⟩)
  · simp only
    split
    next =>
      refine wp_mono (lookup_run hM) ?_
      rintro _ r' _ ⟨rfl, rfl, hr'⟩
      exact lookedUp_deletion hr'.looked fun _ => foundRequest_run hnothing hqueue
    next => exact foundRequest_run hnothing hqueue

/-! ## Some runs -/

theorem can_foundByID {block : IpBlock} (hid : v.controlPlaneEndpointIPBlockID ≠ "")
    (hblock : block ∈ C.blocks) (hsame : block.id = some v.controlPlaneEndpointIPBlockID) :
    Can C.Serves (getControlPlaneEndpointIPBlock cs) v (.val (.ok (some block))) v := by
  have hanswer : C.Serves (.ipblocksFindById v.controlPlaneEndpointIPBlockID) (.ok block) :=
    ⟨hblock, hsame⟩
  unfold getControlPlaneEndpointIPBlock getIPBlockByID Client.getIPBlock
  refine Can.vars.bind ?_
  rw [if_neg hid, Client.withParams_given (by simpa using hid)]
  exact ((((Can.perform hanswer).bind (.pure _)).bind (.pure _)).bind (.pure _))

/-- Where the ID may lead to no block, the list decides. -/
theorem can_missID (cs : ClusterScope) (h : MayMissID v C) :
    ∃ notFoundError : Option Err, (∀ e ∈ notFoundError, isNotFound e = true) ∧
      ∀ {r s'}, Can C.Serves (listControlPlaneEndpointIPBlock cs notFoundError) v r s' →
        Can C.Serves (getControlPlaneEndpointIPBlock cs) v r s' := by
  unfold getControlPlaneEndpointIPBlock getIPBlockByID
  by_cases hid : v.controlPlaneEndpointIPBlockID = ""
  · refine ⟨none, fun e he => (nomatch he), fun hlist => Can.vars.bind ?_⟩
    rw [if_pos hid]
    exact (Can.pure _).bind hlist
  · have hanswer : ∃ e, C.Serves (.ipblocksFindById v.controlPlaneEndpointIPBlockID) (.error e) ∧
        isNotFound e = true := by
      rcases h.resolve_left hid with hnone | ⟨e, hfails, hnotFound⟩
      · exact ⟨.openAPI 404 "404 Not Found", .inl ⟨rfl, hnone⟩, rfl⟩
      · exact ⟨e, .inr hfails, hnotFound⟩
    obtain ⟨e, hanswer, hnotFound⟩ := hanswer
    have hnotFound' : isNotFound (.wrap "could not get IP block by ID using the API: "
      (Client.apiCallErr e)) = true := hnotFound
    refine ⟨some (.wrap "could not get IP block by ID using the API: " (Client.apiCallErr e)),
      fun e' he' => ?_, fun hlist => Can.vars.bind ?_⟩
    · obtain rfl := Option.some.inj he'
      exact hnotFound'
    · unfold Client.getIPBlock
      rw [if_neg hid, Client.withParams_given (by simpa using hid)]
      refine (((Can.perform hanswer).bind (.pure _)).bind (.pure _)).bind ?_
      show Can _ (if isNotFound _ then _ else _) _ _ _
      rw [if_pos hnotFound']
      exact hlist

theorem can_endpointIP {ip : String} (h : MayBeIP cs v C ip) :
    Can C.Serves cs.getControlPlaneEndpointIP v (.val (.ok ip)) v := by
  unfold ClusterScope.getControlPlaneEndpointIP
  refine Can.vars.bind ?_
  rcases h with ⟨hhost, rfl⟩ | ⟨hhost, hparse⟩ | ⟨hhost, hparse, ips, first, rest, hips, hsort, rfl⟩
  · rw [if_pos hhost]
    exact .pure _
  · rw [if_neg hhost, hparse]
    exact .pure _
  · rw [if_neg hhost, hparse]
    have hanswer : C.Serves (.lookupNetIP v.host) (.ok ips) := hips
    refine (Can.perform hanswer).bind ?_
    simp only [hsort]
    exact .pure _

theorem can_list {ip : String} (notFoundError : Option Err) (h : MayBeIP cs v C ip) :
    Can C.Serves (listControlPlaneEndpointIPBlock cs notFoundError) v
      (.val (blockAnswer (controlPlaneEndpointIPBlockName cs) ip notFoundError
        (blockSearch cs C ip))) v := by
  have hanswer : C.Serves .ipblocksGet (.ok (some C.blocks)) := rfl
  have hlist : Can C.Serves Client.listIPBlocks v (.val (.ok (some C.blocks))) v :=
    (Can.perform hanswer).bind (.pure _)
  rw [← findIPBlock_eq_scan]
  refine hlist.bind ?_
  show Can _ (cs.getControlPlaneEndpointIP >>= _) _ _ _
  exact (can_endpointIP h).bind (.pure _)

/-- Without a block of the cluster, the search ends at a user's block or with nothing. -/
theorem search_of_not_exists (ip : String) (h : ¬ BlockExists cs C) :
    (∃ block, blockSearch cs C ip = .stopped block) ∨ blockSearch cs C ip = .ended none := by
  match hout : blockSearch cs C ip with
  | .stopped block => exact .inl ⟨block, rfl⟩
  | .tooMany => exact absurd (Data.scan_tooMany_inv hout) h
  | .ended none => exact .inr rfl
  | .ended (some block) => exact absurd (search_found hout) fun hfound => h ⟨block, hfound⟩

theorem can_findNothing (h : MayFindNothing cs v C) :
    ∃ r, findResource.notFoundIsNone r = .ok none ∧
      Can C.Serves (getControlPlaneEndpointIPBlock cs) v (.val r) v := by
  obtain ⟨hid, h⟩ := h
  obtain ⟨notFoundError, herr, hlist⟩ := can_missID cs hid
  rcases h with ⟨hip, hnone⟩ | ⟨e, hfails, hnotFound⟩
  · have hrun := hlist (can_list notFoundError hip)
    rcases search_of_not_exists "" hnone with ⟨block, hout⟩ | hout
    · obtain ⟨-, -, -, huser, -⟩ := Data.scan_stopped_inv hout
      exact absurd rfl (ip_of_userSet huser)
    · rw [hout] at hrun
      refine ⟨_, ?_, hrun⟩
      cases notFoundError with
      | none => rfl
      | some e => exact if_pos (herr e rfl)
  · have hanswer : C.Serves .ipblocksGet (.error e) := hfails
    have hrun : Can C.Serves (listControlPlaneEndpointIPBlock cs notFoundError) v
        (.val (.error (.wrap "failed to list IP blocks: " (Client.apiCallErr e)))) v :=
      ((Can.perform hanswer).bind (.pure _)).bind (.pure _)
    refine ⟨_, ?_, hlist hrun⟩
    exact if_pos hnotFound

theorem can_queue (cs : ClusterScope) (v : ClusterVars) (C : IPBlockCloud) :
    Can C.Serves (getLatestControlPlaneEndpointIPBlockCreationRequest cs) v (newestCreation cs C)
      v := by
  have hurl : (Text.cut ipBlocksPath "?").1 ≠ "" := by decide
  have hanswer : C.Serves (.requestsGet .post (Text.cut ipBlocksPath "?").1)
    (.ok (some C.creations)) := rfl
  exact can_getMatchingRequest hurl hanswer

/-- A user's block that is found is success. -/
theorem can_passUserBlock {block : IpBlock}
    (hname : block.name ≠ some (controlPlaneEndpointIPBlockName cs))
    (h : Can C.Serves (getControlPlaneEndpointIPBlock cs) v (.val (.ok (some block))) v) :
    Can C.Serves (reconcileControlPlaneEndpointDeletion cs) v (.val (false, none)) v := by
  refine (can_findResource_found h).bind ?_
  show Can _ (reconcileFoundControlPlaneEndpointDeletion cs (some block) none) v _ v
  unfold reconcileFoundControlPlaneEndpointDeletion
  have hother : (some block).any (fun b =>
      deref b.name unknownValue ≠ controlPlaneEndpointIPBlockName cs) = true := by
    simpa using fun h => hname ((deref_name_eq blockName_ne_unknown).mp h)
  rw [if_neg (fun h => nomatch h.1), if_pos hother]
  exact .pure _

/-- A run may end with success where the deletion may be over. -/
theorem can_pass (h : Passes cs v C) :
    ∃ v', Can C.Serves (reconcileControlPlaneEndpointDeletion cs) v (.val (false, none)) v' := by
  rcases h with ⟨hid, block, hblock, hsame, hname⟩ | ⟨hid, ip, hne, hip, h⟩ | ⟨hnothing, h⟩
  · exact ⟨v, can_passUserBlock hname (can_foundByID hid hblock hsame)⟩
  · -- the list decides: a user's block, or no block at all
    obtain ⟨notFoundError, -, hlist⟩ := can_missID cs hid
    have hrun := hlist (can_list notFoundError hip)
    have hout : (∃ block, blockSearch cs C ip = .stopped block) ∨
        blockSearch cs C ip = .ended none := by
      rcases h with ⟨before, block, after, hsplit, huser, hle⟩ | hnone
      · rw [blockSearch, hsplit]
        refine .inl (Data.exists_scan_stopped huser ?_)
        rwa [Option.toList_none, List.length_nil, Nat.zero_add]
      · exact search_of_not_exists ip hnone
    rcases hout with ⟨block, hout⟩ | hout
    · obtain ⟨-, -, -, huser, -⟩ := Data.scan_stopped_inv hout
      rw [hout] at hrun
      exact ⟨v, can_passUserBlock (name_of_userSet huser) hrun⟩
    · rw [hout] at hrun
      simp only [blockAnswer, ne_eq, hne, not_false_eq_true, if_true] at hrun
      exact ⟨_, (can_findResource_error hrun rfl).bind ((Can.assign _).bind (.pure _))⟩
  · obtain ⟨r, hnone, hlookup⟩ := can_findNothing hnothing
    rcases h with hri | ⟨e, hfails, hnotFound⟩
    · have hqueue := can_queue cs v C
      rw [hri] at hqueue
      exact ⟨_, (can_findResource_check hlookup hnone hqueue).bind ((Can.assign _).bind (.pure _))⟩
    · have hurl : (Text.cut ipBlocksPath "?").1 ≠ "" := by decide
      have hanswer : C.Serves (.requestsGet .post (Text.cut ipBlocksPath "?").1) (.error e) :=
        hfails
      have hqueue : Can C.Serves (getLatestControlPlaneEndpointIPBlockCreationRequest cs) v
          (.val (.error (.wrap "could not get requests: " (Client.apiCallErr e)))) v :=
        can_getMatchingRequest hurl hanswer
      have hnotFound' : isNotFound (.wrap "could not get requests: " (Client.apiCallErr e)) =
        true := hnotFound
      refine ⟨{ v with currentClusterRequest := none },
        (can_findResource_check hlookup hnone hqueue).bind ?_⟩
      show Can _ (if isNotFound _ then _ else _) _ _ _
      rw [if_pos hnotFound']
      exact (Can.assign _).bind (.pure _)

end

/-! ## The two properties -/

theorem admits_served {cs : ClusterScope} {v : ClusterVars} {C : IPBlockCloud}
    {tr : List (Event Call Call.Ans)} (h : ∀ e ∈ tr, C.Serves e.call e.answer) :
    (endpointMonitor cs v C).Admits () tr :=
  Monitor.admits_of_forall (M := endpointMonitor cs v C) (fun e he _ => h e he) ()

/-- A cluster that is called `default/c` and is in Frankfurt. -/
def frankfurtCluster : ClusterScope :=
  { (default : ClusterScope) with
    ns := "default", name := "c", location := "de/fra", parseAddr := some }

/-- When a run reports success, the cluster has no block and none is about to be created. -/
def LeaksNothing (cs : ClusterScope) (v : ClusterVars) (C : IPBlockCloud) : Prop :=
  ∀ tr v', Runs (reconcileControlPlaneEndpointDeletion cs) v tr (.val (false, none)) v' →
    (∀ e ∈ tr, C.Serves e.call e.answer) → ¬ BlockExists cs C ∧ ¬ CreationPending cs C

/-- No block with another name is deleted, wherever a run may stop. -/
def DeletesOwnBlocks (cs : ClusterScope) (v : ClusterVars) (C : IPBlockCloud) : Prop :=
  ∀ tr, Prefix (reconcileControlPlaneEndpointDeletion cs) v tr →
    (∀ e ∈ tr, C.Serves e.call e.answer) → ∀ e ∈ tr, ∀ id, e.call = .ipblocksDelete id →
    ∀ block ∈ C.blocks, block.id = some id →
      block.name = some (controlPlaneEndpointIPBlockName cs)

theorem leaksNothing_iff {cs : ClusterScope} {v : ClusterVars} {C : IPBlockCloud} :
    LeaksNothing cs v C ↔ ¬ (Passes cs v C ∧ (BlockExists cs C ∨ CreationPending cs C)) := by
  constructor
  · rintro hleaks ⟨hpasses, hleft⟩
    obtain ⟨v', tr, hruns, hserved⟩ := can_pass hpasses
    obtain ⟨hblock, hpending⟩ := hleaks tr v' hruns hserved
    exact hleft.elim hblock hpending
  · intro hnot tr v' hruns hserved
    have hended : EndedFor cs v C (false, none) :=
      wp_runs (deletion_spec cs v C) hruns (admits_served hserved)
    have hpasses := hended.1 rfl
    exact ⟨fun h => hnot ⟨hpasses, .inl h⟩, fun h => hnot ⟨hpasses, .inr h⟩⟩

/-- The deletion leaks nothing unless it may be over for another reason while the cluster has a
block or will have one. It never touches a block with another name. -/
theorem endpoint_block_kept (cs : ClusterScope) (v : ClusterVars) (C : IPBlockCloud)
    (hids : (C.blocks.map (·.id)).Nodup) :
    (LeaksNothing cs v C ↔
      ¬ (Passes cs v C ∧ (BlockExists cs C ∨ CreationPending cs C))) ∧
    DeletesOwnBlocks cs v C := by
  refine ⟨leaksNothing_iff, ?_⟩
  intro tr hprefix hserved e he id hcall block hblock hid
  obtain ⟨tr₁, tr₂, rfl⟩ := List.append_of_mem he
  have hadmits : (endpointMonitor cs v C).Admits () tr₁ :=
    admits_served fun e' he' => hserved e' (List.mem_append_left _ he')
  have hok := wp_call_ok (deletion_spec cs v C) hprefix hadmits
  obtain ⟨block', hblock', hid', hname⟩ := hok id hcall
  -- the ID belongs to one block only
  have hsame : block = block' :=
    List.inj_on_of_nodup_map hids hblock hblock' (hid.trans hid'.symm)
  rw [hsame]
  exact hname

/-- A cloud in which nothing fails, with these blocks. -/
def quietCloud (blocks : List IpBlock) (h : ∀ block ∈ blocks, block.id.isSome) :
    IPBlockCloud where
  blocks := blocks
  creations := []
  deletions _ := []
  resolves _ _ := False
  fails _ _ := False
  blocks_id := h
  creations_wf _ h := nomatch h
  deletions_wf _ _ h := nomatch h
  resolves_ne _ _ h := h.elim
  fails_foreign _ _ h := h.elim
  fails_resolve _ _ h := h.elim

/-- The cluster's block. -/
def ownBlock : IpBlock :=
  { (default : IpBlock) with
    id := some "own", name := some "ipb-default-c", location := some "de/fra" }

/-- A user's block. -/
def userBlock : IpBlock :=
  { (default : IpBlock) with
    id := some "user", name := some "mine", location := some "de/fra", ips := some ["10.0.0.1"] }

/-- With its own block and no endpoint nothing is leaked. -/
theorem endpoint_block_kept_own :
    LeaksNothing frankfurtCluster default (quietCloud [ownBlock] (by decide)) := by
  refine (endpoint_block_kept _ _ (quietCloud [ownBlock] (by decide)) (by decide)).1.mpr ?_
  have hexists : BlockExists frankfurtCluster (quietCloud [ownBlock] (by decide)) :=
    ⟨ownBlock, List.mem_cons_self .., by decide⟩
  rintro ⟨⟨hid, -⟩ | ⟨-, ip, hne, ⟨-, rfl⟩ | ⟨hhost, -⟩ | ⟨hhost, -⟩, -⟩ |
    ⟨⟨-, ⟨-, hnone⟩ | ⟨e, hfails, -⟩⟩, -⟩, -⟩
  · exact hid rfl
  · exact hne rfl
  · exact hhost rfl
  · exact hhost rfl
  · exact hnone hexists
  · exact hfails

/-- The host is set to an IP of a user's block, and the cluster's block stays. -/
theorem endpoint_block_leaked :
    let C := quietCloud [userBlock, ownBlock] (by decide)
    (C.blocks.map (·.id)).Nodup ∧
      ¬ LeaksNothing frankfurtCluster { (default : ClusterVars) with host := "10.0.0.1" } C := by
  intro C
  refine ⟨by decide, fun hleaks => ?_⟩
  refine leaksNothing_iff.mp hleaks ⟨.inr (.inl ⟨.inl rfl, "10.0.0.1", by decide, ?_, .inl ?_⟩),
    .inl ⟨ownBlock, by decide, by decide⟩⟩
  · exact .inr (.inl ⟨by decide, rfl⟩)
  · exact ⟨[], userBlock, [ownBlock], rfl, by decide, by decide⟩

end Capic.Properties
