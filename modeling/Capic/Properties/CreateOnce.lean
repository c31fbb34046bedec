import Capic.Properties.Creation

/-!
# The LAN and the failover IP block are not created twice

`lan_wp` and `block_wp` say that `ReconcileLAN` and `retrieveFailoverIPForMachine`
follow the pattern: a creation is posted only under the lock and only when the newest
creation is known to be dead. `creation_unique` is what this means for all workers
together.
-/

namespace Capic.Properties

open Effect Effect.Go Effect.Once Cloud

/-! ## The LAN -/

variable {ms ms₀ : MachineScope}

/-- The LAN of a cluster in a data center. -/
def lanResource (ms₀ : MachineScope) : Resource where
  key := lanLockKey ms₀
  type := .lan
  url := lansURL ms₀.datacenterID
  matchers := [matchByName (lanName ms₀.clusterScope)]
  isPost
    | .lansPost dc lan => dc = ms₀.datacenterID ∧ lan.name = lanName ms₀.clusterScope
    | _ => false
  look
    | .lansGet dc, .ok (some lans) =>
      if dc = ms₀.datacenterID then some (lans.any (·.name = some (lanName ms₀.clusterScope)))
      else none
    | .lansGet dc, .error e =>
      -- a data center that is not there has no LANs
      if dc = ms₀.datacenterID ∧ isNotFound e then some false else none
    | _, _ => none
  answers _ _ := True

/-- Runs of `ReconcileLAN` for machines of the cluster in the data center. -/
def lanJob (ms₀ : MachineScope) (p : Prog Call Call.Ans Unit) : Prop :=
  ∃ ms s, SharesLAN ms ms₀ ∧ p = (reconcileLAN ms s).forget

/-- A list of LANs in which the LAN is not found is a look in vain. -/
theorem lan_look_list (h : SharesLAN ms ms₀) {lans : List Lan}
    (hr : findResource.notFoundIsNone
      (findLAN ms.spec.networkID (lanName ms.clusterScope) 0 none lans) = .ok none) :
    (lanResource ms₀).look (.lansGet ms.datacenterID) (.ok (some lans)) = some false := by
  have hnone : findLAN ms.spec.networkID (lanName ms.clusterScope) 0 none lans = .ok none := by
    cases hf : findLAN ms.spec.networkID (lanName ms.clusterScope) 0 none lans with
    | error e =>
      rw [hf, findResource.notFoundIsNone, findLAN_error hf] at hr
      cases hr
    | ok r =>
      rw [hf] at hr
      exact hr
  have hany : lans.any (·.name = some (lanName ms₀.clusterScope)) = false := by
    rw [List.any_eq_false]
    intro l hl
    rw [← h.lanName]
    simpa using (findLAN_none hnone).2.2 l hl
  exact (if_pos h.datacenterID).trans (congrArg some hany)

/-- So is the answer that there is no such data center. -/
theorem lan_look_missing (h : SharesLAN ms ms₀) {e e' : Err} (he : isNotFound e' = isNotFound e)
    (hr : findResource.notFoundIsNone (.error e' : Except Err (Option Lan)) = .ok none) :
    (lanResource ms₀).look (.lansGet ms.datacenterID) (.error e) = some false := by
  have h404 : isNotFound e = true := by
    rw [findResource.notFoundIsNone] at hr
    split at hr
    next h' => rw [← he, h']
    next => cases hr
  exact if_pos ⟨h.datacenterID, h404⟩

theorem kind_lansGet {dc : String} {a : Call.Ans (.lansGet dc)} {found : Bool}
    (h : (lanResource ms₀).look (.lansGet dc) a = some found) :
    (lanResource ms₀).kind (.lansGet dc) a = .look found := by
  show Resource.lookKind ((lanResource ms₀).look (.lansGet dc) a) = _
  rw [h]
  rfl

/-- A look for the LAN, in the locked section. -/
theorem lan_look (h : SharesLAN ms ms₀) (q : Phase) (s : MachineVars) :
    (getLAN ms).wp (lanResource ms₀).monitor
      (fun q' r _ => (q = .locked → q' = .locked) ∧
        (q = .sawDone → findResource.notFoundIsNone r = .ok none → q' = .clear)) q s := by
  have hlook : ∀ a, (lanResource ms₀).look (.lansGet ms.datacenterID) a = some false →
      (lanResource ms₀).monitor.next q (.lansGet ms.datacenterID) a = q.looked false := by
    intro a ha
    show q.next _ ((lanResource ms₀).obs ((lanResource ms₀).kind _ a)) = _
    rw [kind_lansGet ha]
    rfl
  have hlocked : ∀ a, q = .locked →
      (lanResource ms₀).monitor.next q (.lansGet ms.datacenterID) a = .locked := by
    rintro a rfl
    show Phase.next _ .locked ((lanResource ms₀).obs
      (Resource.lookKind ((lanResource ms₀).look (.lansGet ms.datacenterID) a))) = .locked
    cases (lanResource ms₀).look (.lansGet ms.datacenterID) a <;> rfl
  refine wp_getLAN (fun e he => ⟨id, fun _ hr => ?_⟩) (fun hp => by cases hp)
    (fun e e' _ he => ⟨hlocked _, fun hq hr => ?_⟩) (fun lans _ => ⟨hlocked _, fun hq hr => ?_⟩)
    fun _ => trivial
  · rw [findResource.notFoundIsNone, he] at hr
    cases hr
  · rw [hlook (.error e) (lan_look_missing h he hr), hq]
    rfl
  · rw [hlook (.ok (some lans)) (lan_look_list h hr), hq]
    rfl

/-- Creating the LAN is allowed in phase `clear`; the rest is bookkeeping. -/
theorem lan_create (s : MachineVars) :
    (createLAN ms).wp (lanResource ms₀).monitor (fun _ _ _ => True) .clear s := by
  unfold createLAN Client.createLAN
  rw [wp_bind]
  refine Client.wp_withParams (fun _ _ _ => (wp_pure _).mpr trivial) ?_
  rw [wp_bind, wp_perform]
  refine ⟨fun _ => rfl, fun a _ => ?_⟩
  rw [wp_pure]
  split
  next => exact (wp_pure _).mpr trivial
  next =>
    refine (within_recordRequest (fun _ _ _ => rfl) fun r => ?_ : Within _ (fun _ => ()) _).wp_of_ok
      (fun q c hc => hc.elim (fun _ hp => nomatch hp) (fun _ hp => nomatch hp) fun _ hp => nomatch hp)
      fun _ => trivial
    cases r <;> exact .pure _

theorem lan_locked (h : SharesLAN ms ms₀) (s : MachineVars) :
    (reconcileLANLocked ms).wp (lanResource ms₀).monitor (fun _ _ _ => True) .locked s := by
  unfold reconcileLANLocked
  rw [wp_bind]
  have hurl : lansURL ms.datacenterID = (lanResource ms₀).url := congrArg lansURL h.datacenterID
  have hfind : (findResource (getLAN ms) (getLatestLANCreationRequest ms)).wp
      (lanResource ms₀).monitor (fun q r _ => (∀ request, r = .ok (none, request) →
        request.any (·.isPending) = false → q = .clear) ∧ True) .locked s := by
    refine Resource.wp_findResource_once (J := fun _ => True) rfl trivial (fun s _ => ?_)
      (fun s _ => ?_) fun s _ _ => ?_
    · exact wp_mono (lan_look h _ s) fun _ _ _ hl => ⟨hl.1 rfl, trivial⟩
    · unfold getLatestLANCreationRequest
      rw [hurl, h.lanName]
      have hask := Resource.wp_ask (R := lanResource ms₀) (s := s) fun _ => rfl
      exact wp_mono hask fun _ _ _ ha => ⟨ha.1, trivial, fun _ _ => trivial⟩
    · exact wp_mono (lan_look h _ s) fun _ _ _ hl => ⟨hl.2 rfl, trivial⟩
  refine wp_mono hfind ?_
  rintro q r s' ⟨hclear, -⟩
  match r with
  | .error e => exact (wp_pure _).mpr trivial
  | .ok (some lan, request) =>
    dsimp only
    rw [wp_ite]
    split <;> exact (wp_pure _).mpr trivial
  | .ok (none, request) =>
    dsimp only
    rw [wp_ite]
    split
    next => exact (wp_pure _).mpr trivial
    next hp =>
      rw [hclear request rfl (by simpa using hp), wp_bind]
      refine wp_mono (lan_create s') fun q' r _ _ => ?_
      cases r <;> exact (wp_pure _).mpr trivial

theorem lan_wp (h : SharesLAN ms ms₀) (s : MachineVars) :
    (reconcileLAN ms).wp (lanResource ms₀).monitor (fun _ _ _ => True) .out s := by
  unfold reconcileLAN
  refine wp_locked (fun hp => nomatch hp) (fun _ _ => ⟨fun hp => (nomatch hp), fun _ => trivial⟩)
    (fun _ _ => trivial) fun _ => ?_
  have hphase : (lanResource ms₀).monitor.next .out (.lock (lanLockKey ms)) (.ok ()) =
      Phase.locked := if_pos h.lanLockKey
  rw [hphase]
  exact wp_mono (lan_locked h s) fun _ _ _ _ => ⟨fun hp => (nomatch hp), fun _ => trivial⟩

/-! ## The failover IP block -/

/-- Machines of one `MachineDeployment` in one location. -/
structure SharesBlock (locationOf : String → String) (ms ms₀ : MachineScope) : Prop where
  ns : ms.ns = ms₀.ns
  deployment : labelValue ms.labels machineDeploymentNameLabel =
    labelValue ms₀.labels machineDeploymentNameLabel
  location : locationOf ms.datacenterID = locationOf ms₀.datacenterID

variable {locationOf : String → String}

theorem SharesBlock.failoverIPBlockName (h : SharesBlock locationOf ms ms₀) :
    Cloud.failoverIPBlockName ms = Cloud.failoverIPBlockName ms₀ := by
  unfold Cloud.failoverIPBlockName
  rw [h.ns, h.deployment]

theorem SharesBlock.failoverIPBlockLockKey (h : SharesBlock locationOf ms ms₀) :
    Cloud.failoverIPBlockLockKey ms = Cloud.failoverIPBlockLockKey ms₀ := by
  unfold Cloud.failoverIPBlockLockKey
  rw [h.ns, h.deployment]

/-- The failover IP block of a `MachineDeployment` in a location. -/
def blockResource (locationOf : String → String) (ms₀ : MachineScope) : Resource where
  key := failoverIPBlockLockKey ms₀
  type := .ipBlock
  url := ipBlocksPath
  matchers := [matchByName (failoverIPBlockName ms₀), fun properties =>
    deref (properties.bind (·.location)) unknownValue = locationOf ms₀.datacenterID]
  isPost
    | .ipblocksPost name location _ =>
      name = failoverIPBlockName ms₀ ∧ location = locationOf ms₀.datacenterID
    | _ => false
  look
    | .ipblocksGet, .ok blocks => some ((deref blocks []).any fun block =>
      deref block.location "" = locationOf ms₀.datacenterID ∧
        deref block.name "" = failoverIPBlockName ms₀)
    | .ipblocksGet, .error e => if isNotFound e then some false else none
    | _, _ => none
  answers
    | .datacentersFindById dc, .ok (some location) => location = locationOf dc
    | _, _ => True

/-- The location in the machine's status is not set, or right. -/
def Located (location : String) (s : MachineVars) : Prop :=
  s.location = "" ∨ s.location = location

/-- Runs of `retrieveFailoverIPForMachine` for machines of the `MachineDeployment`. -/
def blockJob (locationOf : String → String) (ms₀ : MachineScope) (p : Prog Call Call.Ans Unit) :
    Prop :=
  ∃ ms s, SharesBlock locationOf ms ms₀ ∧ Located (locationOf ms₀.datacenterID) s ∧
    p = (retrieveFailoverIPForMachine ms s).forget

/-- `getLocation` gives the location, and leaves the phase alone. -/
theorem block_location (h : SharesBlock locationOf ms ms₀) (q : Phase) {s : MachineVars}
    (hs : Located (locationOf ms₀.datacenterID) s) :
    (getLocation ms).wp (blockResource locationOf ms₀).monitor
      (fun q' r s' => q' = q ∧ Located (locationOf ms₀.datacenterID) s' ∧
        (∀ l, r = .ok l → l = locationOf ms₀.datacenterID ∧ s'.location = l) ∧
        (s.location ≠ "" → r = .ok s.location)) q s := by
  refine wp_getLocation (fun hne => ⟨rfl, hs, ?_, fun _ => rfl⟩) (fun hempty e => ?_)
    (fun hp => nomatch hp) (fun hempty e e' _ => ?_) (fun hempty l hl => ?_) trivial
  · rintro l hl
    obtain rfl := Except.ok.inj hl
    exact ⟨hs.resolve_left hne, rfl⟩
  · exact ⟨rfl, hs, fun _ hr => (nomatch hr), fun hne => absurd hempty hne⟩
  · exact ⟨rfl, hs, fun _ hr => (nomatch hr), fun hne => absurd hempty hne⟩
  · have hloc : l = locationOf ms₀.datacenterID := hl.1.trans h.location
    refine ⟨rfl, .inr hloc, fun l' hl' => ?_, fun hne => absurd hempty hne⟩
    obtain rfl := Except.ok.inj hl'
    exact ⟨hloc, rfl⟩

/-- A look for the block, in the locked section. The second one knows the location, if
there is any. -/
theorem block_look (h : SharesBlock locationOf ms ms₀) (q : Phase) {s : MachineVars}
    (hs : Located (locationOf ms₀.datacenterID) s) :
    (getFailoverIPBlock ms).wp (blockResource locationOf ms₀).monitor
      (fun q' r s' => (q = .locked → q' = .locked) ∧
        (q = .sawDone → s.location ≠ "" →
          findResource.notFoundIsNone r = .ok none → q' = .clear) ∧
        Located (locationOf ms₀.datacenterID) s') q s := by
  unfold getFailoverIPBlock Client.listIPBlocks
  rw [wp_bind, wp_bind, wp_perform]
  refine ⟨fun hp => (by cases hp), fun a _ => ?_⟩
  rw [wp_pure]
  cases a with
  | error e =>
    refine (wp_pure _).mpr ⟨?_, fun hq _ hr => ?_, hs⟩
    · rintro rfl
      show Phase.next _ .locked ((blockResource locationOf ms₀).obs
        (Resource.lookKind (if isNotFound e then some false else none))) = .locked
      split <;> rfl
    · have h404 : isNotFound e = true := by
        rw [findResource.notFoundIsNone] at hr
        split at hr
        next h' => exact h'
        next => cases hr
      show Phase.next _ q ((blockResource locationOf ms₀).obs
        (Resource.lookKind (if isNotFound e then some false else none))) = .clear
      rw [if_pos h404, hq]
      rfl
  | ok blocks =>
    refine (wp_bind _ _).mpr (wp_mono (block_location h _ hs) ?_)
    rintro q' r s' ⟨rfl, hs', hok, hknown⟩
    cases r with
    | error e =>
      refine (wp_pure _).mpr ⟨?_, fun _ hne => ?_, hs'⟩
      · rintro rfl
        rfl
      · cases hknown hne
    | ok l =>
      obtain ⟨rfl, -⟩ := hok _ rfl
      refine (wp_pure _).mpr ⟨?_, fun hq _ hr => ?_, hs'⟩
      · rintro rfl
        rfl
      · have hnone := List.find?_eq_none.mp (Except.ok.inj hr)
        have hany : ((deref blocks []).any fun block =>
            deref block.location "" = locationOf ms₀.datacenterID ∧
              deref block.name "" = failoverIPBlockName ms₀) = false := by
          rw [List.any_eq_false, ← h.failoverIPBlockName]
          exact hnone
        show Phase.next (blockResource locationOf ms₀).key q
          (.look ((deref blocks []).any _)) = .clear
        rw [hany, hq]
        rfl

/-- Asking for the newest reservation. An answer means that the location is known. -/
theorem block_ask (h : SharesBlock locationOf ms ms₀) {s : MachineVars}
    (hs : Located (locationOf ms₀.datacenterID) s) :
    (getLatestFailoverIPBlockCreateRequest ms).wp (blockResource locationOf ms₀).monitor
      (fun q r s' => Resource.Asked q r ∧ Located (locationOf ms₀.datacenterID) s' ∧
        ∀ ri, r = .ok (some ri) → s'.location = locationOf ms₀.datacenterID) .locked s := by
  unfold getLatestFailoverIPBlockCreateRequest
  refine (wp_bind _ _).mpr (wp_mono (block_location h _ hs) ?_)
  rintro q r s' ⟨rfl, hs', hok, -⟩
  match r with
  | .error e => exact (wp_pure _).mpr ⟨trivial, hs', fun _ hr => (nomatch hr)⟩
  | .ok l =>
    obtain ⟨rfl, hl⟩ := hok _ rfl
    have hask := Resource.wp_ask (R := blockResource locationOf ms₀) (s := s') fun _ => rfl
    unfold getLatestIPBlockRequestByNameAndLocation
    rw [h.failoverIPBlockName]
    refine wp_mono hask ?_
    rintro q r s'' ⟨hasked, rfl⟩
    exact ⟨hasked, hs', fun _ _ => hl⟩

/-- A reservation is allowed in phase `clear`, and not attempted without a location. -/
theorem block_reserve (h : SharesBlock locationOf ms ms₀) {q : Phase} {s : MachineVars}
    (hq : q = .clear ∨ locationOf ms₀.datacenterID = "")
    (hs : Located (locationOf ms₀.datacenterID) s) :
    (reserveMachineDeploymentFailoverIPBlock ms).wp (blockResource locationOf ms₀).monitor
      (fun _ _ _ => True) q s := by
  unfold reserveMachineDeploymentFailoverIPBlock
  refine (wp_bind _ _).mpr (wp_mono (block_location h _ hs) ?_)
  rintro q' r s' ⟨rfl, hs', hok, -⟩
  match r with
  | .error e => exact (wp_pure _).mpr trivial
  | .ok l =>
    obtain ⟨rfl, -⟩ := hok _ rfl
    refine (wp_bind _ _).mpr ((wp_assign _).mpr ?_)
    unfold Cloud.reserveIPBlock Client.reserveIPBlock
    rw [wp_bind, wp_ite]
    split
    next => exact (wp_pure _).mpr ((wp_pure _).mpr trivial)
    next hne =>
      obtain rfl := hq.resolve_right hne
      rw [if_neg (by decide), wp_ite]
      split
      next => exact (wp_pure _).mpr ((wp_pure _).mpr trivial)
      next =>
        rw [wp_bind, wp_perform]
        refine ⟨fun _ => rfl, fun a _ => ?_⟩
        rw [wp_pure]
        split
        next => exact (wp_pure _).mpr trivial
        next => exact (wp_bind _ _).mpr ((wp_assign _).mpr ((wp_pure _).mpr trivial))

theorem block_locked (h : SharesBlock locationOf ms ms₀) {s : MachineVars}
    (hs : Located (locationOf ms₀.datacenterID) s) :
    (retrieveAutoFailoverIPLocked ms).wp (blockResource locationOf ms₀).monitor
      (fun _ _ _ => True) .locked s := by
  unfold retrieveAutoFailoverIPLocked
  rw [wp_bind]
  have hfind : (findResource (getFailoverIPBlock ms)
      (getLatestFailoverIPBlockCreateRequest ms)).wp (blockResource locationOf ms₀).monitor
      (fun q r s' => (∀ request, r = .ok (none, request) →
        request.any (·.isPending) = false → q = .clear ∨ locationOf ms₀.datacenterID = "") ∧
        Located (locationOf ms₀.datacenterID) s') .locked s := by
    refine Resource.wp_findResource_once
      (J := fun s => s.location = locationOf ms₀.datacenterID) (.inl rfl) hs (fun s hs => ?_)
      (fun s hs => block_ask h hs) fun s hl hs => ?_
    · exact wp_mono (block_look h _ hs) fun _ _ _ hb => ⟨hb.1 rfl, hb.2.2⟩
    · refine wp_mono (block_look h _ hs) fun q r s' hb => ⟨fun hr => ?_, hb.2.2⟩
      by_cases hempty : locationOf ms₀.datacenterID = ""
      · exact .inr hempty
      · exact .inl (hb.2.1 rfl (hl ▸ hempty) hr)
  refine wp_mono hfind ?_
  rintro q r s' ⟨hclear, hs'⟩
  match r with
  | .error e => exact (wp_pure _).mpr trivial
  | .ok (some ipBlock, request) =>
    dsimp only
    rw [wp_ite]
    split
    next => exact (wp_pure _).mpr trivial
    next =>
      split
      next => exact (wp_panicking _).mpr trivial
      next => exact (wp_panicking _).mpr trivial
      next => exact (wp_pure _).mpr trivial
  | .ok (none, request) =>
    dsimp only
    rw [wp_ite]
    split
    next => exact (wp_pure _).mpr trivial
    next hp =>
      rw [wp_bind]
      exact wp_mono (block_reserve h (hclear request rfl (by simpa using hp)) hs') fun _ _ _ _ =>
        (wp_pure _).mpr trivial

theorem block_wp (h : SharesBlock locationOf ms ms₀) {s : MachineVars}
    (hs : Located (locationOf ms₀.datacenterID) s) :
    (retrieveFailoverIPForMachine ms).wp (blockResource locationOf ms₀).monitor
      (fun _ _ _ => True) .out s := by
  unfold retrieveFailoverIPForMachine
  rw [wp_ite]
  split
  next =>
    have hip : Within Resolving ClusterVars.settled ms.clusterScope.getControlPlaneEndpointIP :=
      within_getControlPlaneEndpointIP _
    have hw : Within Resolving (fun _ => ()) (onCluster ms.clusterScope.getControlPlaneEndpointIP) :=
      within_onCluster (fun _ _ _ => rfl) hip
    refine (wp_bind _ _).mpr (wp_mono (hw.wp_of_ok (fun q c hc =>
      hc.elim fun _ hp => nomatch hp) fun _ => trivial) fun _ r _ _ => ?_)
    cases r <;> exact (wp_pure _).mpr trivial
  next =>
    dsimp only
    rw [wp_ite]
    split
    next => exact (wp_pure _).mpr trivial
    next =>
      rw [wp_ite]
      split
      next =>
        refine wp_locked (fun hp => nomatch hp)
          (fun _ _ => ⟨fun hp => (nomatch hp), fun _ => trivial⟩) (fun _ _ => trivial) fun _ => ?_
        have hphase : (blockResource locationOf ms₀).monitor.next .out
            (.lock (failoverIPBlockLockKey ms)) (.ok ()) = Phase.locked :=
          if_pos h.failoverIPBlockLockKey
        rw [hphase]
        exact wp_mono (block_locked h hs) fun _ _ _ _ =>
          ⟨fun hp => (nomatch hp), fun _ => trivial⟩
      next => exact (wp_pure _).mpr trivial

/-! ## The result -/

/-- At every moment at most one accepted creation of the LAN, and of the failover IP block,
still counts: whatever the cloud does between two calls, however many workers there are,
wherever they fail and however often the process dies. -/
theorem creation_unique (T : Type) [DecidableEq T] (ms₀ : MachineScope)
    (locationOf : String → String) (w : World T String) (hw : w.Settled) :
    (∀ s, ((lanResource ms₀).system T (lanJob ms₀)).Reach (fun _ _ _ => True) w s →
      (s.world.creations.filter fun c => c.Live).length ≤ 1) ∧
    ∀ s, ((blockResource locationOf ms₀).system T (blockJob locationOf ms₀)).Reach
        (fun _ _ _ => True) w s →
      (s.world.creations.filter fun c => c.Live).length ≤ 1 := by
  constructor
  · intro s hs
    have hsound : ((lanResource ms₀).system T (lanJob ms₀)).Sound (fun _ _ _ => True) _ _ :=
      Resource.sound (by
        rintro p ⟨ms, v, h, rfl⟩
        exact wp_forget (lan_wp h v) fun _ _ => trivial)
    exact (hsound.reach hw.inv hs).1.atMostOne
  · intro s hs
    have hsound : ((blockResource locationOf ms₀).system T (blockJob locationOf ms₀)).Sound
        (fun _ _ _ => True) _ _ :=
      Resource.sound (by
        rintro p ⟨ms, v, h, hv, rfl⟩
        exact wp_forget (block_wp h hv) fun _ _ => trivial)
    exact (hsound.reach hw.inv hs).1.atMostOne

/-- A machine in the data center `dc` of a cluster without a name. -/
def plainMachine : MachineScope :=
  { (default : MachineScope) with spec := { (default : MachineSpec) with datacenterID := "dc" } }

/-- A machine there whose failover IP is reserved for its deployment. -/
def autoMachine : MachineScope :=
  { plainMachine with
    labels := [(machineDeploymentNameLabel, "md")]
    spec := { plainMachine.spec with failoverIP := some cloudResourceConfigAuto } }

/-- The creation of the LAN. -/
def lanOrder : Request :=
  ⟨0, [some .lan], some "datacenters/dc/lans", .ok (some ⟨some "lan--", none⟩), .queued,
    some "request"⟩

/-- The creation of the failover IP block. -/
def blockOrder : Request :=
  ⟨0, [some .ipBlock], some "ipblocks", .ok (some ⟨some "fo-ipb--md", some "de/fra"⟩), .queued,
    some "request"⟩

/-- Nothing is there yet, and these requests are known. -/
def creationAnswers (requests : List Request) : ∀ c : Call, Call.Ans c
  | .requestsGet _ _ => .ok (some requests)
  | .datacentersFindById _ => .ok (some "de/fra")
  | c => Call.plain c

/-- One creation is on its way. -/
def underway : List Creation := [⟨0, .queued, false⟩]

/-- A request that matches shows the creation. -/
theorem shows_one {R : Resource} {req : Request} {c : Creation} (h : R.IsCreation req)
    (hdate : req.createdDate = c.date) (hstatus : req.status = requestStatus c.status) :
    R.Shows [c] [req] := by
  constructor
  · intro x hx
    obtain rfl := List.mem_singleton.mp hx
    exact ⟨req, List.mem_singleton_self _, h, hdate, hstatus⟩
  · intro req' hreq _
    obtain rfl := List.mem_singleton.mp hreq
    exact ⟨_, List.mem_singleton_self _, hdate, hstatus⟩

theorem underway_unseen : ∀ c ∈ underway, ¬ c.Visible := by
  intro c hc hvisible
  obtain rfl := List.mem_singleton.mp hc
  exact nomatch hvisible.1

/-- A worker finds neither LAN nor request and has a creation accepted, and the process dies. The
next worker does not find the LAN either, but the request. -/
theorem lan_created_once :
    ∃ s, ((lanResource plainMachine).system Bool (lanJob plainMachine)).Reach
        (fun _ _ _ => True) ⟨[], fun _ => none⟩ s ∧
      s.prog false = .ret () ∧ s.world.creations = underway := by
  let S := (lanResource plainMachine).system Bool (lanJob plainMachine)
  have hjob : S.job true .out (reconcileLAN plainMachine default).forget :=
    ⟨rfl, plainMachine, default, ⟨rfl, rfl, rfl, rfl⟩, rfl⟩
  have hmatch : (lanResource plainMachine).IsCreation lanOrder :=
    ⟨⟨by decide, _, rfl, by decide⟩, fun _ => ⟨_, rfl, by decide⟩⟩
  have h₀ : S.Reach (fun _ _ _ => True) ⟨[], fun _ => none⟩ _ := .init
  have h₁ := h₀.start true rfl hjob trivial
  -- the lock, the list of LANs, the requests, the creation
  have h₂ := h₁.answer true (creationAnswers []) rfl ⟨trivial, rfl, rfl⟩ trivial
  have h₃ := h₂.answer true (creationAnswers []) rfl ⟨trivial, rfl, fun _ _ h => nomatch h⟩ trivial
  have h₄ := h₃.answer true (creationAnswers []) rfl
    ⟨trivial, rfl, fun _ h => (nomatch h), fun _ h => (nomatch h)⟩ trivial
  have h₅ := h₄.answer true (creationAnswers []) rfl
    ⟨trivial, .inr ⟨0, fun _ h => (nomatch h), rfl⟩⟩ trivial
  have h₆ : S.Reach (fun _ _ _ => True) ⟨[], fun _ => none⟩
      ⟨⟨underway, fun _ => none⟩, fun _ => .ret (), fun _ => .out⟩ := .step h₅ (.crash rfl) trivial
  have h₇ := h₆.start false rfl hjob trivial
  -- the lock, the list of LANs, the requests, the lock again
  have h₈ := h₇.answer false (creationAnswers [lanOrder]) rfl ⟨trivial, rfl, rfl⟩ trivial
  have h₉ := h₈.answer false (creationAnswers [lanOrder]) rfl
    ⟨trivial, rfl, fun _ => underway_unseen⟩ trivial
  have h₁₀ := h₉.answer false (creationAnswers [lanOrder]) rfl
    ⟨trivial, rfl, shows_one hmatch rfl rfl⟩ trivial
  have h₁₁ := h₁₀.answer false (creationAnswers [lanOrder]) rfl ⟨trivial, rfl⟩ trivial
  exact ⟨_, h₁₁, rfl, rfl⟩

/-- The same for the failover IP block, where the first worker gives the lock up. -/
theorem block_created_once :
    ∃ s, ((blockResource (fun _ => "de/fra") autoMachine).system Bool
        (blockJob (fun _ => "de/fra") autoMachine)).Reach (fun _ _ _ => True)
        ⟨[], fun _ => none⟩ s ∧
      s.prog false = .ret () ∧ s.world.creations = underway := by
  let S := (blockResource (fun _ => "de/fra") autoMachine).system Bool
    (blockJob (fun _ => "de/fra") autoMachine)
  have hjob : S.job true .out (retrieveFailoverIPForMachine autoMachine default).forget :=
    ⟨rfl, autoMachine, default, ⟨rfl, rfl, rfl⟩, .inl rfl, rfl⟩
  have hmatch : (blockResource (fun _ => "de/fra") autoMachine).IsCreation blockOrder :=
    ⟨⟨by decide, _, rfl, by decide⟩, fun _ => ⟨_, rfl, by decide⟩⟩
  have h₀ : S.Reach (fun _ _ _ => True) ⟨[], fun _ => none⟩ _ := .init
  have h₁ := h₀.start true rfl hjob trivial
  -- the lock, the blocks, the location, the requests, the reservation, the lock again
  have h₂ := h₁.answer true (creationAnswers []) rfl ⟨trivial, rfl, rfl⟩ trivial
  have h₃ := h₂.answer true (creationAnswers []) rfl ⟨trivial, rfl, fun _ _ h => nomatch h⟩ trivial
  have h₄ := h₃.answer true (creationAnswers []) rfl ⟨rfl, rfl⟩ trivial
  have h₅ := h₄.answer true (creationAnswers []) rfl
    ⟨trivial, rfl, fun _ h => (nomatch h), fun _ h => (nomatch h)⟩ trivial
  have h₆ := h₅.answer true (creationAnswers []) rfl
    ⟨trivial, .inr ⟨0, fun _ h => (nomatch h), rfl⟩⟩ trivial
  have h₇ := h₆.answer true (creationAnswers []) rfl ⟨trivial, rfl⟩ trivial
  have h₈ := h₇.start false rfl hjob trivial
  -- the lock, the blocks, the location, the requests, the lock again
  have h₉ := h₈.answer false (creationAnswers [blockOrder]) rfl ⟨trivial, rfl, rfl⟩ trivial
  have h₁₀ := h₉.answer false (creationAnswers [blockOrder]) rfl
    ⟨trivial, rfl, fun _ => underway_unseen⟩ trivial
  have h₁₁ := h₁₀.answer false (creationAnswers [blockOrder]) rfl ⟨rfl, rfl⟩ trivial
  have h₁₂ := h₁₁.answer false (creationAnswers [blockOrder]) rfl
    ⟨trivial, rfl, shows_one hmatch rfl rfl⟩ trivial
  have h₁₃ := h₁₂.answer false (creationAnswers [blockOrder]) rfl ⟨trivial, rfl⟩ trivial
  exact ⟨_, h₁₃, rfl, rfl⟩

/-- Two workers after each other: one creation of the LAN, and one of the failover IP block. -/
theorem creation_unique_run :
    (∃ s, ((lanResource plainMachine).system Bool (lanJob plainMachine)).Reach
        (fun _ _ _ => True) ⟨[], fun _ => none⟩ s ∧
      s.prog false = .ret () ∧ s.world.creations = underway ∧
      (s.world.creations.filter fun c => c.Live).length ≤ 1) ∧
    ∃ s, ((blockResource (fun _ => "de/fra") autoMachine).system Bool
        (blockJob (fun _ => "de/fra") autoMachine)).Reach (fun _ _ _ => True)
        ⟨[], fun _ => none⟩ s ∧
      s.prog false = .ret () ∧ s.world.creations = underway ∧
      (s.world.creations.filter fun c => c.Live).length ≤ 1 := by
  have hw : World.Settled (⟨[], fun _ => none⟩ : World Bool String) :=
    ⟨fun _ h => (nomatch h), .nil⟩
  obtain ⟨s, hs, hdone, hcreations⟩ := lan_created_once
  obtain ⟨s', hs', hdone', hcreations'⟩ := block_created_once
  exact ⟨⟨s, hs, hdone, hcreations, (creation_unique Bool plainMachine id _ hw).1 s hs⟩,
    ⟨s', hs', hdone', hcreations', (creation_unique Bool autoMachine _ _ hw).2 s' hs'⟩⟩

end Capic.Properties
