import Capic.Properties.Endpoint

/-!
# Is the endpoint's IP reserved?

`ReconcileControlPlaneEndpoint` takes a block for the endpoint and reports that it is done. The
block is looked for in three ways: by the recorded ID, by the IP of the endpoint, by name. Only
the second looks at the IPs of the block. A block that is found by one of the others is
`TakenUnseen`: if the host was set by the user, or changed, the block need not have its IP.

- `endpoint_spec`: what a run may end with, for a cloud as in `Endpoint.lean`;
- `endpoint_reserved`: after success the endpoint's IP is one of the IPs of the block that was
  stored iff the blocks that may be taken unseen have it, and an IP that is in no block of the
  location is an error iff no block may be taken unseen and the list of blocks is not said to be
  missing.

An endpoint without a host gets the first IP of the block, so there the block has the IP if that
is read back as it was written (`adoptedHost`).
-/

namespace Capic.Properties

open Effect Effect.Go Cloud

section

variable (cs : ClusterScope) (v : ClusterVars) (C : IPBlockCloud)

/-- The block may be taken without a look at its IPs: it has the recorded ID; or it is the only
one with the cluster's name, and no other block is found to have the endpoint's IP. -/
def TakenUnseen (block : IpBlock) : Prop :=
  (v.controlPlaneEndpointIPBlockID ≠ "" ∧ block ∈ C.blocks ∧
      block.id = some v.controlPlaneEndpointIPBlockID) ∨
    (MayMissID v C ∧
      C.blocks.filter (isNamedBlock (controlPlaneEndpointIPBlockName cs) cs.location) = [block] ∧
      ∃ ip, MayBeIP cs v C ip ∧ ∀ block' ∈ C.blocks,
        isUserSetBlock (controlPlaneEndpointIPBlockName cs) cs.location ip block' = false)

/-- The block may be taken since it has the endpoint's IP. -/
def TakenForIP (block : IpBlock) : Prop :=
  ∃ ip, MayBeIP cs v C ip ∧ block ∈ C.blocks ∧
    isUserSetBlock (controlPlaneEndpointIPBlockName cs) cs.location ip block = true

/-- The host of the endpoint once the block is taken. -/
def adoptedHost (block : IpBlock) : Option String :=
  if v.host = "" then (deref block.ips []).head? else some v.host

/-- The host stands for one IP. -/
def HostSettled : Prop := ∀ ip ip', MayBeIP cs v C ip → MayBeIP cs v C ip' → ip = ip'

/-- The endpoint has an IP, and no block of the location has it. -/
def Outside : Prop :=
  ∃ ip, ip ≠ "" ∧ MayBeIP cs v C ip ∧
    ∀ block ∈ C.blocks, deref block.location "" = cs.location → ip ∉ deref block.ips []

/-- A block may be created, or be on its way: nothing is found, and a creation is pending or can
be asked for. -/
def MayCreate : Prop :=
  MayFindNothing cs v C ∧ (cs.location ≠ "" ∨
    ∃ ri, newestCreation cs C = .val (.ok (some ri)) ∧ ri.isPending = true)

/-- What a run may end with. -/
inductive EndpointEnd : Outcome → ClusterVars → Prop where
  | error (e : Err) (v' : ClusterVars) : EndpointEnd (false, some e) v'
  /-- The block is not available yet. -/
  | waits {block : IpBlock} {v' : ClusterVars} :
      TakenUnseen cs v C block ∨ TakenForIP cs v C block → EndpointEnd (true, none) v'
  | adopted {block : IpBlock} {v' : ClusterVars} :
      TakenUnseen cs v C block ∨ TakenForIP cs v C block → block ∈ C.blocks →
      isAvailable (getState block.state) = true → adoptedHost v block = some v'.host →
      block.id = some v'.controlPlaneEndpointIPBlockID → EndpointEnd (false, none) v'
  /-- A block is being created. -/
  | created {v' : ClusterVars} : MayCreate cs v C → EndpointEnd (true, none) v'

end

/-! ## Every run -/

section

variable {cs : ClusterScope} {v : ClusterVars} {C : IPBlockCloud}

/-- The answers are those the cloud serves, and a panic needs an endpoint without a host. -/
abbrev servedMonitor (v : ClusterVars) (C : IPBlockCloud) : Monitor Call Call.Ans where
  Phase := Unit
  ok _ _ := True
  adm _ c a := C.Serves c a
  next _ _ _ := ()
  panic _ := v.host = ""

theorem attends_servedMonitor (v : ClusterVars) (C : IPBlockCloud) :
    Attends (servedMonitor v C) C where
  ok _ _ _ := trivial
  adm h := h
  next _ _ _ := rfl

theorem admits_servedMonitor {tr : List (Event Call Call.Ans)}
    (h : ∀ e ∈ tr, C.Serves e.call e.answer) : (servedMonitor v C).Admits () tr :=
  Monitor.admits_of_forall (M := servedMonitor v C) (fun e he _ => h e he) ()

/-- The search takes the only block with the name if it finds no user's block. -/
theorem search_unseen {ip : String} {block : IpBlock} :
    blockSearch cs C ip = .ended (some block) ↔
      (∀ block' ∈ C.blocks,
        isUserSetBlock (controlPlaneEndpointIPBlockName cs) cs.location ip block' = false) ∧
      C.blocks.filter (isNamedBlock (controlPlaneEndpointIPBlockName cs) cs.location) =
        [block] := by
  constructor
  · exact Data.scan_ended_inv
  · intro ⟨hstop, hfilter⟩
    rw [blockSearch, Data.scan_none hstop, hfilter]

/-- What a lookup may lead to, as far as the endpoint is concerned. -/
def Found (cs : ClusterScope) (v : ClusterVars) (C : IPBlockCloud) :
    Except Err (Option IpBlock) → Prop
  | .ok (some block) => block ∈ C.blocks ∧ (TakenUnseen cs v C block ∨ TakenForIP cs v C block)
  | .ok none => MayFindNothing cs v C
  | .error _ => True

theorem LookedFor.found {r : Except Err (Option IpBlock)} (h : LookedFor cs v C r) :
    Found cs v C (findResource.notFoundIsNone r) := by
  -- without a block, what is known of the lookup for the deletion will do
  have hlooked := h.looked
  have hrest : (∀ block, findResource.notFoundIsNone r ≠ .ok (some block)) →
      Found cs v C (findResource.notFoundIsNone r) := by
    intro hnone
    match hr : findResource.notFoundIsNone r with
    | .ok (some block) => exact absurd hr (hnone block)
    | .ok none =>
      rw [hr] at hlooked
      exact hlooked
    | .error e => trivial
  have herror : ∀ {e : Err} {block}, findResource.notFoundIsNone (.error e) ≠
      (.ok (some block) : Except Err (Option IpBlock)) := by
    intro e block
    show (if isNotFound e then _ else _) ≠ _
    split <;> simp
  cases h with
  | recorded hid hblock hsame => exact ⟨hblock, .inl (.inl ⟨hid, hblock, hsame⟩)⟩
  | @listed ip notFoundError hid herr hip =>
    match hout : blockSearch cs C ip with
    | .stopped block =>
      obtain ⟨before, after, hsplit, huser, -⟩ := Data.scan_stopped_inv hout
      have hblock : block ∈ C.blocks := by
        rw [hsplit]
        exact List.mem_append_right _ (List.mem_cons_self ..)
      exact ⟨hblock, .inr ⟨ip, hip, hblock, huser⟩⟩
    | .ended (some block) =>
      obtain ⟨hstop, hfilter⟩ := search_unseen.mp hout
      exact ⟨(search_found hout).1, .inl (.inr ⟨hid, hfilter, ip, hip, hstop⟩)⟩
    | .tooMany => trivial
    | .ended none =>
      rw [hout] at hrest
      refine hrest fun block => ?_
      show findResource.notFoundIsNone (if ip ≠ "" then _ else _) ≠ _
      split
      · exact herror
      · cases notFoundError with
        | none => simp [findResource.notFoundIsNone]
        | some e => exact herror
  | unlisted hid hfails => exact hrest fun _ => herror
  | failed hnotFound hforeign hfails => exact hrest fun _ => herror

theorem store_run {block : IpBlock} {s : ClusterVars} (hblock : block ∈ C.blocks)
    (htaken : TakenUnseen cs v C block ∨ TakenForIP cs v C block)
    (havailable : isAvailable (getState block.state) = true)
    (hhost : adoptedHost v block = some s.host) :
    (storeControlPlaneEndpointIPBlock block).wp (servedMonitor v C)
      (fun _ o v' => EndpointEnd cs v C o v') () s := by
  unfold storeControlPlaneEndpointIPBlock
  rw [wp_bind, wp_assign]
  obtain ⟨id, hid⟩ := Option.isSome_iff_exists.mp (C.blocks_id block hblock)
  rw [hid]
  refine (wp_bind _ _).mpr ((wp_assign _).mpr ((wp_pure _).mpr ?_))
  refine .adopted htaken hblock havailable ?_ hid
  rw [hhost]
  split <;> rfl

/-- The block that was found is adopted, once it is available. -/
theorem adopt_run {block : IpBlock} (hblock : block ∈ C.blocks)
    (htaken : TakenUnseen cs v C block ∨ TakenForIP cs v C block) :
    (adoptControlPlaneEndpointIPBlock block).wp (servedMonitor v C)
      (fun _ o v' => EndpointEnd cs v C o v') () v := by
  rw [adoptControlPlaneEndpointIPBlock_eq, wp_ite]
  split
  next => exact (wp_pure _).mpr (.waits htaken)
  next havailable =>
    have havailable : isAvailable (getState block.state) = true := by simpa using havailable
    rw [wp_bind, wp_vars, wp_ite]
    split
    next hhost =>
      match hips : block.ips with
      | none => exact (wp_bind _ _).mpr ((wp_panicking _).mpr hhost)
      | some [] => exact (wp_bind _ _).mpr ((wp_panicking _).mpr hhost)
      | some (ip :: _) =>
        refine (wp_bind _ _).mpr ((wp_assign _).mpr (store_run hblock htaken havailable ?_))
        rw [adoptedHost, if_pos hhost, hips]
        rfl
    next hhost => exact store_run hblock htaken havailable (if_neg hhost)

/-- A location is needed to reserve a block. -/
theorem reserve_run {s : ClusterVars} :
    (reserveControlPlaneEndpointIPBlock cs).wp (servedMonitor v C)
      (fun _ r _ => r = none → cs.location ≠ "") () s := by
  unfold reserveControlPlaneEndpointIPBlock reserveIPBlock Client.reserveIPBlock
  by_cases hlocation : cs.location = ""
  · rw [if_pos hlocation]
    exact (wp_bind _ _).mpr ((wp_pure _).mpr ((wp_pure _).mpr fun h => nomatch h))
  · rw [if_neg hlocation, if_neg (by decide), if_neg blockName_ne_empty, wp_bind, wp_bind,
      wp_perform]
    refine ⟨trivial, fun a _ => (wp_pure _).mpr ?_⟩
    cases Client.located a with
    | error e => exact (wp_pure _).mpr fun _ => hlocation
    | ok path =>
      exact (wp_bind _ _).mpr ((wp_assign _).mpr ((wp_pure _).mpr fun _ => hlocation))

/-- A block is created, or has been asked for. -/
theorem await_run {request : Option RequestInfo} {s : ClusterVars} (h : MayFindNothing cs v C)
    (hrequest : newestCreation cs C = .val (.ok request)) :
    (awaitControlPlaneEndpointIPBlock cs request).wp (servedMonitor v C)
      (fun _ o v' => EndpointEnd cs v C o v') () s := by
  unfold awaitControlPlaneEndpointIPBlock
  split
  next ri hfilter =>
    obtain ⟨rfl, hpending⟩ := Option.filter_eq_some_iff.mp hfilter
    refine (wp_bind _ _).mpr ((wp_assign _).mpr ((wp_pure _).mpr (.created ⟨h, .inr ?_⟩)))
    exact ⟨ri, hrequest, hpending⟩
  next =>
    refine (wp_bind _ _).mpr (wp_mono reserve_run fun _ r s' hlocation => ?_)
    cases r with
    | some e => exact (wp_pure _).mpr (.error e s')
    | none => exact (wp_pure _).mpr (.created ⟨h, .inl (hlocation rfl)⟩)

/-- A lookup that decides, with what follows from it. -/
theorem lookedUp_endpoint {r : Except Err (Option IpBlock)} {rest : Unit → ClusterVars → Prop}
    (hr : LookedFor cs v C r) (hrest : MayFindNothing cs v C → rest () v) :
    lookedUp (M := servedMonitor v C) (fun q r s =>
      wp (servedMonitor v C) (match r with
        | .error e => return (false, some e)
        | .ok (some block, _) => adoptControlPlaneEndpointIPBlock block
        | .ok (none, request) => awaitControlPlaneEndpointIPBlock cs request)
        (fun _ o v' => EndpointEnd cs v C o v') q s) rest () r v := by
  have hr := hr.found
  unfold lookedUp
  rcases hresult : findResource.notFoundIsNone r with e | _ | block
  · exact (wp_pure _).mpr (.error e v)
  · rw [hresult] at hr
    exact hrest hr
  · rw [hresult] at hr
    exact adopt_run hr.1 hr.2

theorem endpoint_spec (cs : ClusterScope) (v : ClusterVars) (C : IPBlockCloud) :
    (reconcileControlPlaneEndpoint cs).wp (servedMonitor v C)
      (fun _ o v' => EndpointEnd cs v C o v') () v := by
  rw [reconcileControlPlaneEndpoint_eq, wp_bind]
  have hM := attends_servedMonitor v C
  refine wp_findResource (wp_mono (lookup_run hM) ?_)
  rintro _ r _ ⟨_, rfl, hr⟩
  refine lookedUp_endpoint hr fun hnothing => wp_mono (queue_run hM) ?_
  rintro _ answer _ ⟨_, rfl, hqueue⟩
  rcases answer with e | _ | request
  · exact (wp_pure _).mpr (.error e _)
  · exact await_run hnothing hqueue
  · simp only
    split
    next =>
      refine wp_mono (lookup_run hM) ?_
      rintro _ r' _ ⟨_, rfl, hr'⟩
      exact lookedUp_endpoint hr' fun _ => await_run hnothing hqueue
    next => exact await_run hnothing hqueue

/-! ## Some runs -/

theorem TakenUnseen.mem {block : IpBlock} (h : TakenUnseen cs v C block) : block ∈ C.blocks := by
  obtain ⟨-, hblock, -⟩ | ⟨-, hfilter, -⟩ := h
  · exact hblock
  · have hmem : block ∈ C.blocks.filter
        (isNamedBlock (controlPlaneEndpointIPBlockName cs) cs.location) := by
      rw [hfilter]
      exact List.mem_cons_self ..
    exact (List.mem_filter.mp hmem).1

theorem can_take {block : IpBlock} (h : TakenUnseen cs v C block) :
    Can C.Serves (getControlPlaneEndpointIPBlock cs) v (.val (.ok (some block))) v := by
  obtain ⟨hid, hblock, hsame⟩ | ⟨hid, hfilter, ip, hip, hstop⟩ := h
  · exact can_foundByID hid hblock hsame
  · obtain ⟨notFoundError, -, hlist⟩ := can_missID cs hid
    have hrun := hlist (can_list notFoundError hip)
    rw [search_unseen.mpr ⟨hstop, hfilter⟩] at hrun
    exact hrun

/-- An available block is adopted if there is a host. -/
theorem can_adopt {block : IpBlock} {host : String} (h : TakenUnseen cs v C block)
    (havailable : isAvailable (getState block.state) = true)
    (hhost : adoptedHost v block = some host) :
    ∃ v', Can C.Serves (reconcileControlPlaneEndpoint cs) v (.val (false, none)) v' ∧
      v'.host = host ∧ block.id = some v'.controlPlaneEndpointIPBlockID := by
  obtain ⟨id, hid⟩ := Option.isSome_iff_exists.mp (C.blocks_id block h.mem)
  have hstore : ∀ s : ClusterVars, s.host = host →
      ∃ v', Can C.Serves (storeControlPlaneEndpointIPBlock block) s (.val (false, none)) v' ∧
        v'.host = host ∧ block.id = some v'.controlPlaneEndpointIPBlockID := by
    intro s hs
    unfold storeControlPlaneEndpointIPBlock
    rw [hid]
    refine ⟨_, (Can.assign _).bind ((Can.assign _).bind (.pure _)), ?_, rfl⟩
    rw [← hs]
    split <;> rfl
  have hadopt : ∃ v', Can C.Serves (adoptControlPlaneEndpointIPBlock block) v
      (.val (false, none)) v' ∧ v'.host = host ∧
      block.id = some v'.controlPlaneEndpointIPBlockID := by
    rw [adoptControlPlaneEndpointIPBlock_eq, if_neg (by simpa using havailable)]
    by_cases hempty : v.host = ""
    · rw [adoptedHost, if_pos hempty] at hhost
      obtain ⟨v', hcan, hv'⟩ := hstore { v with host := host } rfl
      refine ⟨v', Can.vars.bind ?_, hv'⟩
      rw [if_pos hempty]
      match hips : block.ips with
      | none =>
        rw [hips] at hhost
        exact nomatch hhost
      | some [] =>
        rw [hips] at hhost
        exact nomatch hhost
      | some (ip :: _) =>
        rw [hips] at hhost
        obtain rfl := Option.some.inj hhost
        exact (Can.assign _).bind hcan
    · rw [adoptedHost, if_neg hempty] at hhost
      obtain ⟨v', hcan, hv'⟩ := hstore v (Option.some.inj hhost)
      refine ⟨v', Can.vars.bind ?_, hv'⟩
      rw [if_neg hempty]
      exact hcan
  obtain ⟨v', hcan, hv'⟩ := hadopt
  exact ⟨v', (can_findResource_found (can_take h)).bind hcan, hv'⟩

/-- With a host and a block that is taken unseen, a run may end without an error. -/
theorem can_accept {block : IpBlock} (h : TakenUnseen cs v C block) (hhost : v.host ≠ "") :
    ∃ requeue v', Can C.Serves (reconcileControlPlaneEndpoint cs) v (.val (requeue, none)) v' := by
  by_cases havailable : isAvailable (getState block.state) = true
  · obtain ⟨v', hcan, -⟩ := can_adopt h havailable (if_neg hhost)
    exact ⟨false, v', hcan⟩
  · refine ⟨true, v, (can_findResource_found (can_take h)).bind ?_⟩
    show Can _ (adoptControlPlaneEndpointIPBlock block) _ _ _
    rw [adoptControlPlaneEndpointIPBlock_eq, if_pos (by simpa using havailable)]
    exact .pure _

theorem can_create (h : MayCreate cs v C) :
    ∃ v', Can C.Serves (reconcileControlPlaneEndpoint cs) v (.val (true, none)) v' := by
  obtain ⟨hnothing, hcreate⟩ := h
  obtain ⟨r, hnone, hlookup⟩ := can_findNothing hnothing
  obtain ⟨request, hrequest⟩ := newestCreation_wf cs C
  have hqueue := can_queue cs v C
  rw [hrequest] at hqueue
  have hawait : ∃ v', Can C.Serves (awaitControlPlaneEndpointIPBlock cs request) v
      (.val (true, none)) v' := by
    unfold awaitControlPlaneEndpointIPBlock
    match hfilter : request.filter (·.isPending) with
    | some ri =>
      rw [hfilter]
      exact ⟨_, (Can.assign _).bind (.pure _)⟩
    | none =>
      have hlocation : cs.location ≠ "" := by
        obtain hlocation | ⟨ri, hri, hpending⟩ := hcreate
        · exact hlocation
        · rw [hrequest] at hri
          obtain rfl := Except.ok.inj (Res.val.inj hri)
          rw [Option.filter_some_pos (by simpa using hpending)] at hfilter
          exact nomatch hfilter
      have hanswer : C.Serves (.ipblocksPost (controlPlaneEndpointIPBlockName cs) cs.location 1)
        (.ok "request") := trivial
      have hreserve : ∃ v', Can C.Serves (reserveControlPlaneEndpointIPBlock cs) v (.val none)
          v' := by
        have hpost : Can C.Serves
            (Client.reserveIPBlock (controlPlaneEndpointIPBlockName cs) cs.location 1) v
            (.val (.ok "request")) v := by
          unfold Client.reserveIPBlock
          rw [if_neg hlocation, if_neg (by decide), if_neg blockName_ne_empty]
          exact (Can.perform hanswer).bind (.pure _)
        exact ⟨_, hpost.bind ((Can.assign _).bind (.pure _))⟩
      obtain ⟨v', hcan⟩ := hreserve
      rw [hfilter]
      exact ⟨v', hcan.bind (.pure _)⟩
  obtain ⟨v', hcan⟩ := hawait
  exact ⟨v', (can_findResource_check hlookup hnone hqueue).bind hcan⟩

theorem mayBeIP_congr {v' : ClusterVars} (h : v'.host = v.host) {ip : String} :
    MayBeIP cs v' C ip ↔ MayBeIP cs v C ip := by
  unfold MayBeIP
  rw [h]

/-- The IPs that may be given are those the endpoint may turn out to have. -/
theorem endpointIP_iff {ip : String} :
    Can C.Serves cs.getControlPlaneEndpointIP v (.val (.ok ip)) v ↔ MayBeIP cs v C ip := by
  constructor
  · intro ⟨tr, hruns, hserved⟩
    have hspec : cs.getControlPlaneEndpointIP.wp (servedMonitor v C)
        (fun _ r _ => ∀ ip, r = .ok ip → MayBeIP cs v C ip) () v := by
      refine endpointIP_run (attends_servedMonitor v C) ?_ ?_
      · intro ip hip ip' heq
        obtain rfl := Except.ok.inj heq
        exact hip
      · intro e _ _ _ ip heq
        exact nomatch heq
    exact wp_runs hspec hruns (admits_servedMonitor hserved) ip rfl
  · exact can_endpointIP

end

/-! ## The property -/

/-- When a run reports success, the endpoint's IP is one of the IPs of the block whose ID was
stored. -/
def StoresReserved (cs : ClusterScope) (v : ClusterVars) (C : IPBlockCloud) : Prop :=
  ∀ tr v', Runs (reconcileControlPlaneEndpoint cs) v tr (.val (false, none)) v' →
    (∀ e ∈ tr, C.Serves e.call e.answer) →
    ∃ block ∈ C.blocks, block.id = some v'.controlPlaneEndpointIPBlockID ∧
      ∀ ip, Can C.Serves cs.getControlPlaneEndpointIP v' (.val (.ok ip)) v' →
        ip ∈ deref block.ips []

/-- An endpoint with an IP that is in no block of the location is an error. -/
def RejectsOutside (cs : ClusterScope) (v : ClusterVars) (C : IPBlockCloud) : Prop :=
  Outside cs v C → ∀ tr r v', Runs (reconcileControlPlaneEndpoint cs) v tr r v' →
    (∀ e ∈ tr, C.Serves e.call e.answer) → ∃ e, r = .val (false, some e)

/-- The block has the IP the endpoint has once the block is taken. -/
def HasEndpointIP (cs : ClusterScope) (v : ClusterVars) (C : IPBlockCloud) (block : IpBlock) :
    Prop :=
  ∀ host ip, adoptedHost v block = some host → MayBeIP cs { v with host := host } C ip →
    ip ∈ deref block.ips []

section

variable {cs : ClusterScope} {v : ClusterVars} {C : IPBlockCloud}

/-- Every run with the answers of the cloud. -/
theorem endpoint_ends {tr : List (Event Call Call.Ans)} {o : Outcome} {v' : ClusterVars}
    (hruns : Runs (reconcileControlPlaneEndpoint cs) v tr (.val o) v')
    (hserved : ∀ e ∈ tr, C.Serves e.call e.answer) : EndpointEnd cs v C o v' :=
  wp_runs (endpoint_spec cs v C) hruns (admits_servedMonitor hserved)

/-- An IP comes from a host. -/
theorem MayBeIP.host {ip : String} (h : MayBeIP cs v C ip) (hip : ip ≠ "") : v.host ≠ "" := by
  obtain ⟨-, rfl⟩ | ⟨hhost, -⟩ | ⟨hhost, -⟩ := h
  · exact absurd rfl hip
  · exact hhost
  · exact hhost

theorem Outside.host (h : Outside cs v C) : v.host ≠ "" := by
  obtain ⟨ip, hne, hip, -⟩ := h
  exact hip.host hne

/-- A block that is taken for its IP has the IP. -/
theorem TakenForIP.hasIP {block : IpBlock} (hsettled : HostSettled cs v C)
    (h : TakenForIP cs v C block) : HasEndpointIP cs v C block := by
  obtain ⟨ip, hip, -, huser⟩ := h
  have huser := of_decide_eq_true huser
  have hcheck := of_decide_eq_true huser.2.2
  intro host ip' hadopted hip'
  rw [adoptedHost, if_neg (hip.host hcheck.1)] at hadopted
  obtain rfl := Option.some.inj hadopted
  rw [hsettled ip' ip hip' hip]
  exact hcheck.2

theorem storesReserved_iff (hids : (C.blocks.map (·.id)).Nodup) (hsettled : HostSettled cs v C) :
    StoresReserved cs v C ↔ ∀ block, TakenUnseen cs v C block →
      isAvailable (getState block.state) = true → HasEndpointIP cs v C block := by
  constructor
  · intro hstores block htaken havailable host ip hhost hip
    obtain ⟨v', ⟨tr, hruns, hserved⟩, hv', hid⟩ := can_adopt htaken havailable hhost
    obtain ⟨block', hblock', hid', hhas⟩ := hstores tr v' hruns hserved
    -- the ID belongs to one block only
    have hsame : block = block' :=
      List.inj_on_of_nodup_map hids htaken.mem hblock' (hid.trans hid'.symm)
    rw [hsame]
    exact hhas ip (endpointIP_iff.mpr ((mayBeIP_congr hv').mpr hip))
  · intro hhas tr v' hruns hserved
    cases endpoint_ends hruns hserved with
    | @adopted block _ htaken hblock havailable hhost hid =>
      refine ⟨block, hblock, hid, fun ip hip => ?_⟩
      have hblockIP : HasEndpointIP cs v C block := by
        obtain hunseen | hforIP := htaken
        · exact hhas block hunseen havailable
        · exact hforIP.hasIP hsettled
      have hgiven : MayBeIP cs v' C ip := endpointIP_iff.mp hip
      exact hblockIP v'.host ip hhost ((mayBeIP_congr (v := v') rfl).mpr hgiven)

theorem rejectsOutside_iff (hsettled : HostSettled cs v C) :
    RejectsOutside cs v C ↔
      (Outside cs v C → (∀ block, ¬ TakenUnseen cs v C block) ∧ ¬ MayCreate cs v C) := by
  constructor
  · intro hrejects houtside
    refine ⟨fun block htaken => ?_, fun hcreate => ?_⟩
    · obtain ⟨requeue, v', tr, hruns, hserved⟩ := can_accept htaken houtside.host
      obtain ⟨e, he⟩ := hrejects houtside tr _ v' hruns hserved
      exact nomatch he
    · obtain ⟨v', tr, hruns, hserved⟩ := can_create hcreate
      obtain ⟨e, he⟩ := hrejects houtside tr _ v' hruns hserved
      exact nomatch he
  · intro hcond houtside tr r v' hruns hserved
    obtain ⟨hunseen, hcreate⟩ := hcond houtside
    have hnot : ∀ block, ¬ (TakenUnseen cs v C block ∨ TakenForIP cs v C block) := by
      intro block htaken
      obtain htaken | ⟨ip', hip', hblock, huser⟩ := htaken
      · exact hunseen block htaken
      · obtain ⟨ip, -, hip, hout⟩ := houtside
        have huser := of_decide_eq_true huser
        refine hout block hblock huser.1 ?_
        rw [hsettled ip ip' hip hip']
        exact (of_decide_eq_true huser.2.2).2
    match r with
    | .panic msg =>
      exact absurd (wp_runs_panic (endpoint_spec cs v C) hruns (admits_servedMonitor hserved))
        houtside.host
    | .val o =>
      cases endpoint_ends hruns hserved with
      | error e => exact ⟨e, rfl⟩
      | waits htaken => exact absurd htaken (hnot _)
      | adopted htaken => exact absurd htaken (hnot _)
      | created h => exact absurd h hcreate

end

/-- Success means a reserved IP iff every available block that may be taken unseen has the
endpoint's IP. An IP in no block of the location is an error iff no block may be taken unseen and
none may be created instead. -/
theorem endpoint_reserved (cs : ClusterScope) (v : ClusterVars) (C : IPBlockCloud)
    (hids : (C.blocks.map (·.id)).Nodup) (hsettled : HostSettled cs v C) :
    (StoresReserved cs v C ↔ ∀ block, TakenUnseen cs v C block →
      isAvailable (getState block.state) = true → HasEndpointIP cs v C block) ∧
    (RejectsOutside cs v C ↔
      (Outside cs v C → (∀ block, ¬ TakenUnseen cs v C block) ∧ ¬ MayCreate cs v C)) :=
  ⟨storesReserved_iff hids hsettled, rejectsOutside_iff hsettled⟩

/-- The cluster's block with one IP. -/
def reservedBlock : IpBlock :=
  { ownBlock with state := some "AVAILABLE", ips := some ["10.0.0.1"] }

/-- The endpoint is at this address. -/
def endpointAt (host : String) : ClusterVars := { (default : ClusterVars) with host := host }

theorem mayBeIP_frankfurt {v : ClusterVars} {blocks : List IpBlock}
    {h : ∀ block ∈ blocks, block.id.isSome} {ip : String}
    (hip : MayBeIP frankfurtCluster v (quietCloud blocks h) ip) : ip = v.host := by
  obtain ⟨hhost, rfl⟩ | ⟨-, hparse⟩ | ⟨-, -, ips, first, rest, hips, -⟩ := hip
  · exact hhost.symm
  · exact (Option.some.inj hparse).symm
  · exact hips.elim

theorem hostSettled_frankfurt (v : ClusterVars) {blocks : List IpBlock}
    (h : ∀ block ∈ blocks, block.id.isSome) :
    HostSettled frankfurtCluster v (quietCloud blocks h) :=
  fun _ _ hip hip' => (mayBeIP_frankfurt hip).trans (mayBeIP_frankfurt hip').symm

/-- The endpoint is at the address of the cluster's block, or at one that is nowhere. -/
theorem endpoint_reserved_own :
    StoresReserved frankfurtCluster (endpointAt "10.0.0.1")
      (quietCloud [reservedBlock] (by decide)) ∧
    Outside frankfurtCluster (endpointAt "10.0.0.9") (quietCloud [userBlock] (by decide)) ∧
    RejectsOutside frankfurtCluster (endpointAt "10.0.0.9")
      (quietCloud [userBlock] (by decide)) := by
  refine ⟨?_, ?_, ?_⟩
  · refine (endpoint_reserved _ _ (quietCloud [reservedBlock] (by decide)) (by decide)
      (hostSettled_frankfurt _ _)).1.mpr ?_
    intro block htaken _ host ip hhost hip
    have hblock : block = reservedBlock := List.mem_singleton.mp htaken.mem
    have hip : ip = host := mayBeIP_frankfurt hip
    obtain rfl := Option.some.inj hhost
    rw [hblock, hip]
    exact List.mem_singleton_self _
  · exact ⟨"10.0.0.9", by decide, .inr (.inl ⟨by decide, rfl⟩), by decide⟩
  · refine (endpoint_reserved _ _ (quietCloud [userBlock] (by decide)) (by decide)
      (hostSettled_frankfurt _ _)).2.mpr ?_
    intro _
    refine ⟨?_, ?_⟩
    · intro block htaken
      obtain ⟨hid, -⟩ | ⟨-, hfilter, -⟩ := htaken
      · exact hid rfl
      · exact nomatch hfilter
    · intro ⟨⟨_, hnothing⟩, _⟩
      obtain ⟨hip, -⟩ | ⟨e, hfails, -⟩ := hnothing
      · exact nomatch mayBeIP_frankfurt hip
      · exact hfails

/-- The endpoint is at an address that is in no block. Whether the cluster's block is found by
name or by its recorded ID, it is taken. -/
theorem endpoint_unreserved :
    let C := quietCloud [reservedBlock] (by decide)
    let v := endpointAt "10.0.0.9"
    let w := { v with controlPlaneEndpointIPBlockID := "own" }
    (C.blocks.map (·.id)).Nodup ∧ HostSettled frankfurtCluster v C ∧
      HostSettled frankfurtCluster w C ∧ Outside frankfurtCluster v C ∧
      ¬ StoresReserved frankfurtCluster v C ∧ ¬ StoresReserved frankfurtCluster w C ∧
      ¬ RejectsOutside frankfurtCluster v C ∧ ¬ RejectsOutside frankfurtCluster w C := by
  intro C v w
  have hids : (C.blocks.map (·.id)).Nodup := by decide
  have hv : HostSettled frankfurtCluster v C := hostSettled_frankfurt _ _
  have hw : HostSettled frankfurtCluster w C := hostSettled_frankfurt _ _
  have hip : MayBeIP frankfurtCluster v C "10.0.0.9" := .inr (.inl ⟨by decide, rfl⟩)
  have hout : Outside frankfurtCluster v C := ⟨"10.0.0.9", by decide, hip, by decide⟩
  have hnamed : TakenUnseen frankfurtCluster v C reservedBlock :=
    .inr ⟨.inl rfl, by decide, "10.0.0.9", hip, by decide⟩
  have hrecorded : TakenUnseen frankfurtCluster w C reservedBlock :=
    .inl ⟨by decide, by decide, rfl⟩
  have hno : "10.0.0.9" ∉ deref reservedBlock.ips [] := by decide
  refine ⟨hids, hv, hw, hout, ?_, ?_, ?_, ?_⟩
  · intro hstores
    exact hno ((storesReserved_iff hids hv).mp hstores _ hnamed rfl "10.0.0.9" "10.0.0.9" rfl hip)
  · intro hstores
    exact hno ((storesReserved_iff hids hw).mp hstores _ hrecorded rfl "10.0.0.9" "10.0.0.9" rfl
      hip)
  · intro hrejects
    exact ((rejectsOutside_iff hv).mp hrejects hout).1 _ hnamed
  · intro hrejects
    exact ((rejectsOutside_iff hw).mp hrejects hout).1 _ hrecorded

end Capic.Properties
