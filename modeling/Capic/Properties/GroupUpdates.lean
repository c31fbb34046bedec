import Capic.Cloud.Failover
import Capic.Effect.Rewrite
import Capic.Properties.CreateOnce

/-!
# Updates of a failover group

Machines of one cluster in one data center edit the list of IP failover pairs of their
LAN: `reconcileIPFailoverGroup`, `removeNICFromFailoverGroup` and
`swapNICInFailoverGroup`. The list is only written as a whole, so the edits go by the
pattern of `Capic.Effect.Rewrite`: under the LAN's lock, read the list, ask whether a
PATCH is pending, and send a PATCH computed from what was read. The lock may be given
up with the PATCH still pending, if waiting for it fails.

`groupSystem` is the system of any number of such runs against the cloud. An accepted
PATCH is executed at any later time, and only then counts as done; lists show the
current entries; `GetRequests` shows every accepted PATCH. Everything else is free: any
call may fail, also after a PATCH was accepted, and the process may die.

The pattern has a gap: the list is read before the question is asked, and not read again
after it. `group_updates_kept` says that no entry is lost while no PATCH is executed
between the two; `group_update_lost` is a run that loses one.
-/

namespace Capic.Properties

open Effect Effect.Go Effect.Rewrite Cloud

/-! ## The system -/

/-- The list of the LAN, every PATCH of it, and the locks. A PATCH is written down with the
NIC on whose behalf it was sent. -/
abbrev GroupWorld (T : Type) := World T String String (List IPFailover)

/-- How far the run of a machine has got, and whose NIC it works for. -/
structure GroupRun where
  machine : String
  nic : String
  stage : Phase (List IPFailover)

/-- What a call with its answer is about. -/
inductive GroupKind where
  | acquired (key : String)
  | released (key : String)
  | lans (lans : List Lan)
  /-- The requests to PATCH the LAN were asked for. -/
  | requests (items : List Request)
  | patch (body : List IPFailover)
  | quiet

section

variable (ms₀ : MachineScope) (lanID : String)

/-- The path of the LAN. -/
def groupURL : String := lanURL ms₀.datacenterID lanID

/-- What a call with its answer is about. -/
def groupKind : (c : Call) → Call.Ans c → GroupKind
  | .lock key, .ok _ => .acquired key
  | .lockBackground key, _ => .acquired key
  | .unlock key, _ => .released key
  | .lansGet dc, .ok (some lans) => if dc = ms₀.datacenterID then .lans lans else .quiet
  | .requestsGet method url, .ok items =>
    if method = .patch ∧ url = (Text.cut (groupURL ms₀ lanID) "?").1 then
      .requests (deref items [])
    else .quiet
  | .lansPatch dc id body, _ => if dc = ms₀.datacenterID ∧ id = lanID then .patch body else .quiet
  | _, _ => .quiet

/-- What the status of a PATCH may be. -/
def Tells (x : Write String (List IPFailover)) (status : RequestStatus) : Prop :=
  if x.executed then status = .done else status = .queued ∨ status = .running

/-- What the world does, and may answer. A PATCH may be accepted or not, whatever the
answer says. -/
def groupEffect {T : Type} [DecidableEq T] (t : T) (nic : String) (w : GroupWorld T) :
    GroupKind → GroupWorld T → Prop
  | .acquired key, w' => w.owner key = none ∧ w' = { w with owner := w.owner.acquire t key }
  | .released key, w' => w' = { w with owner := w.owner.unlock t key }
  | .lans lans, w' => w' = w ∧ ∀ lan ∈ lans, lan.id = some lanID → deref lan.ipFailover [] = w.value
  | .requests items, w' =>
    w' = w ∧ Shows .lan (groupURL ms₀ lanID) [] Write.date Tells w.writes items
  | .patch body, w' => w' = w ∨ w.Accepts nic body w'
  | .quiet, w' => w' = w

/-- What this means for the pattern. -/
def groupObs (nic : String) : GroupKind → Obs String String (List IPFailover)
  | .acquired key => .acquired key
  | .released key => .released key
  | .lans lans =>
    match lans.find? (·.id = some lanID) with
    | some lan => .read (deref lan.ipFailover [])
    | none => .quiet
  | .requests items =>
    match matchRequest .lan (groupURL ms₀ lanID) [] (Client.sortRequests items) with
    | .val (.ok ri) => .asked (ri.any (·.isPending))
    | _ => .quiet
  | .patch body => .write nic body
  | .quiet => .quiet

/-- The NIC a run works for: outside the locked section, that of its machine's server. -/
def GroupRun.nextNIC (q : GroupRun) (c : Call) (a : Call.Ans c) : String :=
  match q.stage with
  | .out => (serverSeen q.machine c a).elim q.nic (nicSeen q.machine)
  | _ => q.nic

def GroupRun.next (q : GroupRun) (c : Call) (a : Call.Ans c) : GroupRun where
  machine := q.machine
  nic := q.nextNIC c a
  stage := q.stage.next (lanLockKey ms₀) (groupObs ms₀ lanID q.nic (groupKind ms₀ lanID c a))

/-- The runs that edit the list. `swapNICInFailoverGroup` finds out about the NIC itself. -/
inductive GroupJob : GroupRun → Prog Call Call.Ans Unit → Prop
  | join {ms : MachineScope} (s : MachineVars) (nicID failoverIP : String) : SharesLAN ms ms₀ →
      GroupJob ⟨ms.name, nicID, .out⟩ (reconcileIPFailoverGroup ms nicID failoverIP s).forget
  | leave {ms : MachineScope} (s : MachineVars) (nicID : String) : SharesLAN ms ms₀ →
      GroupJob ⟨ms.name, nicID, .out⟩ (removeNICFromFailoverGroup ms nicID s).forget
  | swap {ms : MachineScope} (s : MachineVars) (labels : List (String × String)) :
      SharesLAN ms ms₀ →
      GroupJob ⟨ms.name, "", .out⟩ (swapNICInFailoverGroup ms labels s).forget

/-- The runs, and the cloud. -/
@[reducible] def groupSystem (T : Type) [DecidableEq T] : System T Call Call.Ans where
  World := GroupWorld T
  Phase := GroupRun
  idle := ⟨"", "", .out⟩
  next q c a := q.next ms₀ lanID c a
  exec t q w c a w' := groupEffect ms₀ lanID t q.nic w (groupKind ms₀ lanID c a) w'
  env := Env
  crash := Crash
  job _ q p := GroupJob ms₀ q p

/-- The calls a run may make where. -/
def GroupOk (q : GroupRun) (c : Call) : Prop :=
  ∀ body, c = .lansPatch ms₀.datacenterID lanID body →
    ∃ v, q.stage = .idle v ∧ EditFor q.nic v body

/-- The answers a run may count on: a list shows one state of the LAN. -/
def GroupAdm (c : Call) (a : Call.Ans c) : Prop :=
  ∀ lans, groupKind ms₀ lanID c a = .lans lans →
    ∃ v, ∀ lan ∈ lans, lan.id = some lanID → deref lan.ipFailover [] = v

end

/-! ## The instance of the pattern -/

section

variable {ms₀ : MachineScope} {lanID : String} {T : Type} {w w' : GroupWorld T} {t : T}
  {nic : String}

/-- Whether the newest PATCH is pending, as `isLANPatchPending` finds out. -/
theorem waiting_of_shows {items : List Request} {ri : Option RequestInfo}
    (h : Shows .lan (groupURL ms₀ lanID) [] Write.date Tells w.writes items)
    (hd : w.writes.Pairwise fun x x' => x'.date < x.date)
    (hm : matchRequest .lan (groupURL ms₀ lanID) [] (Client.sortRequests items) = .val (.ok ri)) :
    ri.any (·.isPending) = w.waiting := by
  unfold World.waiting
  cases ri with
  | none =>
    rw [h.of_none hm]
    rfl
  | some ri =>
    obtain ⟨x, older, hx, htells⟩ := h.of_some hd hm
    rw [hx]
    show ri.isPending = !x.executed
    unfold Tells at htells
    unfold RequestInfo.isPending
    split at htells
    next he =>
      rw [he, htells]
      rfl
    next he =>
      rw [Bool.not_eq_true] at he
      rw [he]
      rcases htells with htells | htells <;> rw [htells] <;> rfl

variable [DecidableEq T]

/-- What the world does is what the pattern allows. -/
theorem groupEffect_happens {k : GroupKind} (hd : w.writes.Pairwise fun x x' => x'.date < x.date)
    (h : groupEffect ms₀ lanID t nic w k w') : Happens w t (groupObs ms₀ lanID nic k) w' := by
  cases k with
  | acquired key => exact h
  | released key => exact h
  | patch body => exact h
  | quiet => exact h
  | lans lans =>
    obtain ⟨rfl, hlans⟩ := h
    unfold groupObs
    dsimp only
    split
    next lan hlan =>
      have hid : lan.id = some lanID := by simpa using List.find?_some hlan
      exact ⟨rfl, hlans lan (List.mem_of_find?_eq_some hlan) hid⟩
    next => exact rfl
  | requests items =>
    obtain ⟨rfl, hshows⟩ := h
    unfold groupObs
    dsimp only
    split
    next ri hm => exact ⟨rfl, waiting_of_shows hshows hd hm⟩
    next => exact rfl

theorem groupKind_patch {c : Call} {a : Call.Ans c} {body : List IPFailover}
    (h : groupKind ms₀ lanID c a = .patch body) : c = .lansPatch ms₀.datacenterID lanID body := by
  unfold groupKind at h
  split at h
  next => exact nomatch h
  next => exact nomatch h
  next => exact nomatch h
  next => split at h <;> exact nomatch h
  next => split at h <;> exact nomatch h
  next =>
    split at h
    next heq =>
      obtain rfl := GroupKind.patch.inj h
      rw [heq.1, heq.2]
    next => exact nomatch h
  next => exact nomatch h

theorem GroupOk.observed {q : GroupRun} {c : Call} (h : GroupOk ms₀ lanID q c) (a : Call.Ans c) :
    q.stage.Ok EditFor (groupObs ms₀ lanID q.nic (groupKind ms₀ lanID c a)) := by
  cases hk : groupKind ms₀ lanID c a with
  | patch body => exact h body (groupKind_patch hk)
  | acquired key => trivial
  | released key => trivial
  | quiet => trivial
  | lans lans =>
    unfold groupObs
    dsimp only
    split <;> trivial
  | requests items =>
    unfold groupObs
    dsimp only
    split <;> trivial

theorem groupEffect_adm {c : Call} {a : Call.Ans c}
    (h : groupEffect ms₀ lanID t nic w (groupKind ms₀ lanID c a) w') : GroupAdm ms₀ lanID c a := by
  intro lans hk
  rw [hk] at h
  exact ⟨w.value, h.2⟩

/-- No PATCH is executed while a run has read the list without having asked yet. -/
def Undisturbed (ms₀ : MachineScope) (lanID : String) (T : Type) [DecidableEq T] :
    (groupSystem ms₀ lanID T).Rule :=
  fun _ ph l => l = .env → ∀ t v, (ph t).stage ≠ .read v

/-- Runs that send a PATCH in phase `idle` only, and as an edit of what they read, keep the
invariant of the pattern. -/
theorem group_sound
    (hjob : ∀ q p, GroupJob ms₀ q p → p.wp ((groupSystem ms₀ lanID T).monitor
      { ok := GroupOk ms₀ lanID, adm := fun _ => GroupAdm ms₀ lanID }) (fun _ _ => True) q) :
    (groupSystem ms₀ lanID T).Sound (Undisturbed ms₀ lanID T)
      { ok := GroupOk ms₀ lanID, adm := fun _ => GroupAdm ms₀ lanID }
      (fun w ph => Inv EditFor (lanLockKey ms₀) w (GroupRun.stage ∘ ph)) where
  answers _ h _ := groupEffect_adm h
  jobs h := hjob _ _ h
  idle := trivial
  call hI hok hexec _ := by
    rw [Function.comp_update]
    exact hI.happens (hok.observed _) (groupEffect_happens hI.dates hexec)
  start hI _ hj := by
    rw [Function.comp_update]
    cases hj <;> exact hI.start
  env hI h hC := hI.env h (hC rfl)
  crash hI h := hI.crash h

end

/-! ## The runs -/

section

variable {ms ms₀ : MachineScope} {lanID : String} {s : MachineVars} {q : GroupRun}

/-- The monitor of a run. -/
abbrev groupMonitor (ms₀ : MachineScope) (lanID : String) : Monitor Call Call.Ans :=
  ⟨GroupRun, GroupOk ms₀ lanID, fun _ => GroupAdm ms₀ lanID, fun q c a => q.next ms₀ lanID c a,
    fun _ => True⟩

/-- Inside the locked section a run goes on working for the same NIC. -/
theorem GroupRun.next_nic (hq : q.stage ≠ .out) (c : Call) (a : Call.Ans c) :
    (q.next ms₀ lanID c a).nic = q.nic := by
  unfold GroupRun.next GroupRun.nextNIC
  dsimp only
  split
  next h => exact absurd h hq
  next => rfl

/-- Working for `nic`, with the entries `config` of the LAN in hand, if it is the one. -/
structure InHand (ms₀ : MachineScope) (lanID : String) (nic : String) (lan : Lan)
    (config : List IPFailover) (q : GroupRun) : Prop where
  nic : q.nic = nic
  inside : q.stage ≠ .out
  idle : lan.id = some lanID → q.stage = .idle config

/-- Where the list of LANs leads. -/
theorem next_lansGet (h : SharesLAN ms ms₀) (hq : q.stage = .locked) (lans : List Lan) :
    (q.next ms₀ lanID (.lansGet ms.datacenterID) (.ok (some lans))).stage =
      match lans.find? (·.id = some lanID) with
      | some lan => .read (deref lan.ipFailover [])
      | none => .locked := by
  have hkind : groupKind ms₀ lanID (.lansGet ms.datacenterID) (.ok (some lans)) = .lans lans :=
    if_pos h.datacenterID
  unfold GroupRun.next
  rw [hkind, hq]
  unfold groupObs
  dsimp only
  split <;> rfl

/-- Where the question leads. -/
theorem next_requestsGet {v : List IPFailover} (hq : q.stage = .read v)
    {a : Except Err (Option (List Request))} {ri : Option RequestInfo}
    (ha : matchAnswer .lan (groupURL ms₀ lanID) [] a = .val (.ok ri))
    (hri : ri.any (·.isPending) = false) :
    (q.next ms₀ lanID (.requestsGet .patch (Text.cut (groupURL ms₀ lanID) "?").1) a).stage =
      .idle v := by
  match a with
  | .error e => exact nomatch ha
  | .ok items =>
    have hkind : groupKind ms₀ lanID
        (.requestsGet .patch (Text.cut (groupURL ms₀ lanID) "?").1) (.ok items) =
        .requests (deref items []) := if_pos ⟨rfl, rfl⟩
    have hmatch : matchRequest .lan (groupURL ms₀ lanID) []
        (Client.sortRequests (deref items [])) = .val (.ok ri) := ha
    have hobs : groupObs ms₀ lanID q.nic (.requests (deref items [])) = .asked false := by
      unfold groupObs
      dsimp only
      rw [hmatch, ← hri]
    unfold GroupRun.next
    rw [hkind, hobs, hq]
    rfl

theorem next_requestsGet_inside (hq : q.stage ≠ .out) {method : Method} {url : String}
    (a : Except Err (Option (List Request))) :
    (q.next ms₀ lanID (.requestsGet method url) a).stage ≠ .out := by
  refine Phase.next_inside (fun key hk => ?_) hq
  match a with
  | .error e => exact nomatch hk
  | .ok items =>
    unfold groupKind at hk
    dsimp only at hk
    split at hk
    · unfold groupObs at hk
      dsimp only at hk
      split at hk <;> exact nomatch hk
    · exact nomatch hk

/-- Where reading the list leads. -/
theorem group_config (h : SharesLAN ms ms₀) (hq : q.stage = .locked) :
    (retrieveLANFailoverConfig ms).wp (groupMonitor ms₀ lanID)
      (fun q' r _ => ∀ lan config, r = .ok (lan, config) →
        InHand ms₀ lanID q.nic lan config q') q s := by
  refine wp_retrieveLANFailoverConfig (fun _ => True) trivial (fun _ _ => trivial)
    (fun _ _ _ _ => trivial) (fun _ _ _ _ _ _ hr => nomatch hr) (fun _ _ => trivial)
    (fun _ hc => nomatch hc) (fun _ _ _ hc => nomatch hc) ?_
  intro lans found hlans hfound url hurl a ri _ hri hpending lan config hr
  obtain ⟨rfl, rfl⟩ := Prod.mk.inj (Except.ok.inj hr)
  have hstage : (q.next ms₀ lanID (.lansGet ms.datacenterID) (.ok (some lans))).stage = _ :=
    next_lansGet h hq lans
  have hin : q.stage ≠ .out := by
    rw [hq]
    exact fun h' => nomatch h'
  have hin₁ : (q.next ms₀ lanID (.lansGet ms.datacenterID) (.ok (some lans))).stage ≠ .out := by
    rw [hstage]
    split <;> exact fun h' => nomatch h'
  refine ⟨?_, next_requestsGet_inside hin₁ a, fun hid => ?_⟩
  · exact (GroupRun.next_nic hin₁ _ _).trans (GroupRun.next_nic hin _ _)
  · -- the LAN is in the list, so the list was read
    cases found with
    | none => exact nomatch hid
    | some lan =>
      have hid' : lan.id = some lanID := hid
      have hmem : lan ∈ lans := (findLAN_mem hfound).resolve_right fun h' => nomatch h'
      obtain ⟨v, hv⟩ := hlans lans (if_pos h.datacenterID)
      have hurl' : url = groupURL ms₀ lanID := by
        rw [hurl]
        show lanURL ms.datacenterID (deref lan.id "") = _
        rw [hid', h.datacenterID]
        rfl
      subst hurl'
      refine next_requestsGet ?_ hri hpending
      rw [hstage]
      split
      next lan' hlan' =>
        have hlan : lan'.id = some lanID := by simpa using List.find?_some hlan'
        rw [hv lan' (List.mem_of_find?_eq_some hlan') hlan]
        exact congrArg Phase.read (hv lan hmem hid').symm
      next hnone => exact absurd hid' (by simpa using List.find?_eq_none.mp hnone lan hmem)

/-- A PATCH of what was read, edited on behalf of the NIC. -/
theorem group_patch {nic id : String} {lan : Lan} {config config' : List IPFailover}
    (hlan : id = lanID → lan.id = some lanID) (hq : InHand ms₀ lanID nic lan config q)
    (he : EditFor nic config config') {Q : GroupRun → Option Err → MachineVars → Prop}
    (hQ : ∀ q' r s', Q q' r s') :
    (patchLAN ms id config').wp (groupMonitor ms₀ lanID) Q q s := by
  refine wp_patchLAN (fun body hc => ?_) (fun _ => hQ _ _ _) (fun _ _ _ _ => hQ _ _ _)
    fun _ _ _ _ _ => ⟨fun _ hc => (nomatch hc), fun _ _ => hQ _⟩
  obtain ⟨-, rfl, rfl⟩ := Call.lansPatch.inj hc
  exact ⟨config, hq.idle (hlan rfl), by rw [hq.nic]; exact he⟩

/-- Taking the LAN's lock. -/
theorem group_lock (h : SharesLAN ms ms₀) {body : MachineM Outcome} {nic : String}
    (hbody : ∀ q : GroupRun, q.nic = nic → q.stage = .locked →
      body.wp (groupMonitor ms₀ lanID) (fun _ _ _ => True) q s)
    (hq : q.nic = nic) (hstage : q.stage = .out) :
    (locked (lanLockKey ms) (fun e => (false, some e)) body).wp (groupMonitor ms₀ lanID)
      (fun _ _ _ => True) q s := by
  refine wp_locked (fun _ hc => nomatch hc) (fun _ _ => ⟨fun _ hc => (nomatch hc), fun _ => trivial⟩)
    (fun _ _ => trivial) fun _ => wp_mono (hbody _ ?_ ?_) fun _ _ _ _ =>
      ⟨fun _ hc => (nomatch hc), fun _ => trivial⟩
  · show q.nextNIC (.lock (lanLockKey ms)) (.ok ()) = nic
    unfold GroupRun.nextNIC
    rw [hstage]
    exact hq
  · exact if_pos h.lanLockKey

theorem group_join (hlan : lanID ≠ unknownValue) (h : SharesLAN ms ms₀) (nicID failoverIP : String) :
    (reconcileIPFailoverGroup ms nicID failoverIP).wp (groupMonitor ms₀ lanID)
      (fun _ _ _ => True) ⟨ms.name, nicID, .out⟩ s := by
  unfold reconcileIPFailoverGroup
  rw [wp_ite]
  split
  next => exact (wp_pure _).mpr trivial
  next =>
    refine group_lock h (fun q hnic hstage => ?_) rfl rfl
    unfold reconcileIPFailoverGroupLocked
    refine (wp_bind _ _).mpr (wp_mono (group_config h hstage) fun q' r s' hr => ?_)
    match r with
    | .error outcome => exact (wp_pure _).mpr trivial
    | .ok (lan, config) =>
      have hq := hr lan config rfl
      rw [hnic] at hq
      dsimp only
      split
      next => exact (wp_pure _).mpr trivial
      next config' hjoin =>
        exact (wp_bind _ _).mpr (group_patch (fun h => eq_some_of_deref h hlan) hq
          (joinGroup_edit hjoin) fun _ _ _ => (wp_pure _).mpr trivial)

theorem group_leave (h : SharesLAN ms ms₀) (nicID : String) :
    (removeNICFromFailoverGroup ms nicID).wp (groupMonitor ms₀ lanID)
      (fun _ _ _ => True) ⟨ms.name, nicID, .out⟩ s := by
  refine group_lock h (fun q hnic hstage => ?_) rfl rfl
  unfold removeNICFromFailoverGroupLocked
  refine (wp_bind _ _).mpr (wp_mono (group_config h hstage) fun q' r s' hr => ?_)
  match r with
  | .error outcome => exact (wp_pure _).mpr trivial
  | .ok (lan, config) =>
    have hq := hr lan config rfl
    rw [hnic] at hq
    dsimp only
    split
    next => exact (wp_panicking _).mpr trivial
    next id hid =>
      split
      next => exact (wp_pure _).mpr trivial
      next index hindex =>
        exact (wp_bind _ _).mpr (group_patch (fun heq => heq ▸ hid) hq (leaveGroup_edit hindex)
          fun _ _ _ => (wp_pure _).mpr trivial)

/-- Calls that are about something else leave what is in hand. -/
theorem InHand.quiet {nic : String} {lan : Lan} {config : List IPFailover} {c : Call}
    {a : Call.Ans c} (hq : InHand ms₀ lanID nic lan config q)
    (hc : groupKind ms₀ lanID c a = .quiet) :
    InHand ms₀ lanID nic lan config (q.next ms₀ lanID c a) := by
  have hstage : (q.next ms₀ lanID c a).stage = q.stage := by
    unfold GroupRun.next
    rw [hc]
    rfl
  refine ⟨(GroupRun.next_nic hq.inside c a).trans hq.nic, ?_, fun hid => ?_⟩
  · rw [hstage]
    exact hq.inside
  · rw [hstage]
    exact hq.idle hid

theorem group_swapForLatest (hlan : lanID ≠ unknownValue) {nic : String} {lan : Lan}
    {config : List IPFailover} {index : Nat} (labels : List (String × String))
    (hindex : nicIndex nic config = some index) (hq : InHand ms₀ lanID nic lan config q) :
    (swapForLatest ms labels lan config index).wp (groupMonitor ms₀ lanID)
      (fun _ _ _ => True) q s := by
  unfold swapForLatest MachineScope.findLatestMachine ClusterScope.listMachines
  rw [wp_bind, wp_bind, wp_perform]
  refine ⟨fun _ hc => (nomatch hc), fun a _ => (wp_pure _).mpr ?_⟩
  split
  next => exact (wp_pure _).mpr trivial
  next => exact (wp_pure _).mpr trivial
  next machine _ =>
    have hq₁ := hq.quiet (c := .listMachines _ _) (a := a) rfl
    rw [wp_bind]
    refine wp_getServerByServerID (fun _ => ?_) (fun _ _ => (wp_pure _).mpr trivial)
      (fun _ hc => nomatch hc) (fun _ _ _ _ => (wp_pure _).mpr trivial) fun _ server _ => ?_
    · exact (wp_pure _).mpr trivial
    · dsimp only
      split
      next => exact (wp_pure _).mpr trivial
      next nic' _ =>
        rw [wp_ite]
        split
        next => exact (wp_pure _).mpr trivial
        next =>
          exact (wp_bind _ _).mpr (group_patch (fun h => eq_some_of_deref h hlan)
            (hq₁.quiet rfl) (swapNIC_edit hindex _) fun _ _ _ => (wp_pure _).mpr trivial)

/-- What a lookup of the machine's server says about the run. -/
def Sees (machine : String) (q : GroupRun) : Except Err (Option Server) → Prop
  | .ok server => q = ⟨machine, nicSeen machine server, .out⟩
  | .error e => isNotFound e = true → q = ⟨machine, "", .out⟩

/-- Where the list of servers leads. -/
theorem next_serversGet {machine dc : String} {items : Option (List Server)}
    {r : Option Server} (h : findServer machine (deref items []) = .val r) :
    GroupRun.next ms₀ lanID ⟨machine, "", .out⟩ (.serversGet dc) (.ok items) =
      ⟨machine, nicSeen machine r, .out⟩ := by
  show GroupRun.mk machine ((serverSeen machine _ _).elim "" (nicSeen machine)) .out = _
  rw [serverSeen_serversGet h]
  rfl

theorem group_getServer :
    (getServer ms).wp (groupMonitor ms₀ lanID) (fun q r _ => Sees ms.name q r)
      ⟨ms.name, "", .out⟩ s := by
  have hname : ∀ err, (getServerByName ms err).wp (groupMonitor ms₀ lanID)
      (fun q r _ => Sees ms.name q r) ⟨ms.name, "", .out⟩ s := by
    intro err
    refine wp_getServerByName (fun _ _ _ => rfl) (fun _ hc => nomatch hc) (fun _ _ _ _ _ => rfl)
      (fun items server _ hfind => next_serversGet hfind) (fun items _ hfind => ?_)
      fun _ _ => trivial
    cases err with
    | none => exact next_serversGet hfind
    | some e => exact fun _ => next_serversGet hfind
  refine wp_getServer (wp_getServerByServerID (fun _ => hname none) (fun e he => ?_)
    (fun _ hc => nomatch hc) (fun e e' _ _ => ?_) fun _ server _ => rfl)
  · dsimp only
    rw [if_neg (by simp [he])]
    exact fun _ => rfl
  · dsimp only
    split
    next => exact hname (some e')
    next hno => exact fun h404 => absurd h404 hno

/-- What `getServerNICID` returns is the NIC the run works for. -/
theorem group_serverNIC :
    (getServerNICID ms).wp (groupMonitor ms₀ lanID)
      (fun q r _ => ∀ nicID, r = .ok nicID → q = ⟨ms.name, nicID, .out⟩)
      ⟨ms.name, "", .out⟩ s := by
  unfold getServerNICID
  refine (wp_bind _ _).mpr (wp_mono group_getServer fun q r s' hr => ?_)
  match r with
  | .error e =>
    dsimp only
    rw [wp_ite]
    split
    next h404 =>
      refine (wp_pure _).mpr fun nicID hr' => ?_
      obtain rfl := Except.ok.inj hr'
      exact hr h404
    next => exact (wp_pure _).mpr fun _ hr' => (nomatch hr')
  | .ok server =>
    obtain rfl : q = ⟨ms.name, nicSeen ms.name server, .out⟩ := hr
    dsimp only
    cases hnic : findPrimaryNIC ms.name server with
    | error e =>
      refine (wp_pure _).mpr fun nicID hr' => ?_
      obtain rfl := Except.ok.inj hr'
      rw [nicSeen, hnic]
    | ok nic =>
      refine (wp_pure _).mpr fun nicID hr' => ?_
      obtain rfl := Except.ok.inj hr'
      rw [nicSeen, hnic]

theorem group_swap (hlan : lanID ≠ unknownValue) (h : SharesLAN ms ms₀)
    (labels : List (String × String)) :
    (swapNICInFailoverGroup ms labels).wp (groupMonitor ms₀ lanID)
      (fun _ _ _ => True) ⟨ms.name, "", .out⟩ s := by
  unfold swapNICInFailoverGroup
  refine (wp_bind _ _).mpr (wp_mono group_serverNIC fun q' r s' hr => ?_)
  match r with
  | .error e => exact (wp_pure _).mpr trivial
  | .ok nicID =>
    obtain rfl := hr nicID rfl
    refine group_lock h (fun q hnic hstage => ?_) rfl rfl
    unfold swapNICInFailoverGroupLocked
    refine (wp_bind _ _).mpr (wp_mono (group_config h hstage) fun q' r s' hr => ?_)
    match r with
    | .error outcome => exact (wp_pure _).mpr trivial
    | .ok (lan, config) =>
      have hq := hr lan config rfl
      rw [hnic] at hq
      dsimp only
      split
      next => exact (wp_pure _).mpr trivial
      next index hindex => exact group_swapForLatest hlan labels hindex hq

end

/-! ## The result -/

section

variable {ms₀ : MachineScope} {lanID : String} {T : Type} [DecidableEq T]

theorem group_jobs (hlan : lanID ≠ unknownValue) {q : GroupRun} {p : Prog Call Call.Ans Unit}
    (h : GroupJob ms₀ q p) : p.wp (groupMonitor ms₀ lanID) (fun _ _ => True) q := by
  cases h with
  | join s nicID failoverIP h =>
    exact wp_forget (group_join hlan h nicID failoverIP) fun _ _ => trivial
  | leave s nicID h => exact wp_forget (group_leave h nicID) fun _ _ => trivial
  | swap s labels h => exact wp_forget (group_swap hlan h labels) fun _ _ => trivial

/-- No call changes the list. -/
theorem groupEffect_value {t : T} {nic : String} {k : GroupKind} {w w' : GroupWorld T}
    (h : groupEffect ms₀ lanID t nic w k w') : w'.value = w.value := by
  cases k with
  | acquired key => rw [h.2]
  | released key => rw [show w' = _ from h]
  | lans lans => rw [h.1]
  | requests items => rw [h.1]
  | quiet => rw [show w' = w from h]
  | patch body =>
    rcases h with rfl | ⟨_, _, rfl⟩
    · rfl
    · rfl

/-- Along every run in which no PATCH is executed between a run's reading of the list and
its question: an entry that is lost from the list is lost to a PATCH that was sent on
behalf of the entry's own NIC. -/
theorem group_updates_kept (T : Type) [DecidableEq T] (ms₀ : MachineScope) (lanID : String)
    (hlan : lanID ≠ unknownValue) (w : GroupWorld T) (hw : w.Settled)
    (s s' : (groupSystem ms₀ lanID T).Conf) (l : System.Label T Call Call.Ans)
    (hs : (groupSystem ms₀ lanID T).Reach (Undisturbed ms₀ lanID T) w s)
    (hstep : (groupSystem ms₀ lanID T).Step s l s') (entry : IPFailover)
    (hentry : entry ∈ s.world.value) (hlost : entry ∉ s'.world.value) :
    ∃ patch ∈ s.world.writes, patch.executed = false ∧ s'.world.value = patch.body ∧
      IPFailover.nic entry = patch.author := by
  have hI := ((group_sound fun _ _ h => group_jobs hlan h).reach hw.inv hs).1
  cases hstep with
  | call _ hexec =>
    rw [groupEffect_value hexec] at hlost
    exact absurd hentry hlost
  | start _ _ => exact absurd hentry hlost
  | crash hcrash =>
    rw [show _ = _ from hcrash] at hlost
    exact absurd hentry hlost
  | env henv =>
    obtain ⟨patch, hmem, hwaiting, hbody, hedit⟩ := hI.executed henv
    exact ⟨patch, hmem, hwaiting, hbody, hedit entry hentry hlost⟩

end

/-! ## Two runs -/

/-- The LAN with the ID `1`, as it stands with these entries. -/
def lanOne (entries : List IPFailover) : Lan where
  id := some "1"
  name := some (lanName plainMachine.clusterScope)
  state := none
  ipFailover := some entries
  nics := none

/-- The answer to a list of LANs. -/
def listing (entries : List IPFailover) : ∀ c : Call, Call.Ans c
  | .lansGet _ => .ok (some [lanOne entries])
  | c => Call.plain c

/-- Waiting fails. -/
def deadline : ∀ c : Call, Call.Ans c
  | .waitForRequest _ => .error (.ctx "context deadline exceeded")
  | c => Call.plain c

/-- `nicA` leaves the group: its entry is lost to its own PATCH. -/
theorem group_updates_kept_leave :
    ∃ (s s' : (groupSystem plainMachine "1" Bool).Conf) (entry : IPFailover),
      (groupSystem plainMachine "1" Bool).Reach (Undisturbed plainMachine "1" Bool)
        ⟨[⟨some "203.0.113.1", some "nicA"⟩], [], fun _ => none⟩ s ∧
      (groupSystem plainMachine "1" Bool).Step s .env s' ∧
      entry ∈ s.world.value ∧ entry ∉ s'.world.value ∧
      ∃ patch ∈ s.world.writes, patch.executed = false ∧ s'.world.value = patch.body ∧
        IPFailover.nic entry = patch.author := by
  let S := groupSystem plainMachine "1" Bool
  have h₀ : S.Reach (Undisturbed plainMachine "1" Bool)
    ⟨[⟨some "203.0.113.1", some "nicA"⟩], [], fun _ => none⟩ _ := .init
  have h₁ := h₀.start true rfl (.leave default "nicA" ⟨rfl, rfl, rfl, rfl⟩) fun h => nomatch h
  -- lock, list, question, PATCH
  have h₂ := h₁.answer true Call.plain rfl ⟨rfl, rfl⟩ fun h => nomatch h
  have h₃ := h₂.answer true (listing [⟨some "203.0.113.1", some "nicA"⟩]) rfl
    ⟨rfl, by simp [lanOne]; rfl⟩ fun h => nomatch h
  have h₄ := h₃.answer true Call.plain rfl
    ⟨rfl, fun _ h => (nomatch h), fun _ h => (nomatch h)⟩ fun h => nomatch h
  have h₅ := h₄.answer true Call.plain rfl (.inr ⟨0, fun _ h => (nomatch h), rfl⟩)
    fun h => nomatch h
  have hmem : (⟨some "203.0.113.1", some "nicA"⟩ : IPFailover) ∈
    [(⟨some "203.0.113.1", some "nicA"⟩ : IPFailover)] := List.mem_cons_self ..
  have hsettled : (⟨[⟨some "203.0.113.1", some "nicA"⟩], [], fun _ => none⟩ :
    GroupWorld Bool).Settled := ⟨fun _ h => (nomatch h), .nil⟩
  refine ⟨_, _, _, h₅, .env ⟨[], _, [], rfl, rfl, rfl⟩, hmem, List.not_mem_nil, ?_⟩
  exact group_updates_kept Bool plainMachine "1" (by decide) _ hsettled _ _ _
    h₅ (.env ⟨[], _, [], rfl, rfl, rfl⟩) _ hmem List.not_mem_nil

/-- The first PATCH of the LAN, done. -/
def patchDone : Request where
  createdDate := 0
  targets := [some .lan]
  url := some "/datacenters/dc/lans/1"
  body := .ok none
  status := .done
  href := some "request"

/-- This is what `GetRequests` shows of it. -/
theorem patchDone_shown (author : String) (body : List IPFailover) :
    Shows .lan (groupURL plainMachine "1") [] Write.date Tells [⟨0, author, body, true⟩]
      [patchDone] := by
  have hmatch : IsMatch .lan (groupURL plainMachine "1") [] patchDone :=
    ⟨⟨rfl, _, rfl, by decide⟩, fun h => absurd rfl h⟩
  refine ⟨fun x hx => ?_, fun req hreq _ => ?_⟩
  · obtain rfl := List.mem_singleton.mp hx
    exact ⟨patchDone, List.mem_singleton.mpr rfl, hmatch, rfl, rfl⟩
  · obtain rfl := List.mem_singleton.mp hreq
    exact ⟨_, List.mem_singleton.mpr rfl, rfl, rfl⟩

/-- The answer to the question. -/
def showing : ∀ c : Call, Call.Ans c
  | .requestsGet _ _ => .ok (some [patchDone])
  | c => Call.plain c

/-- `nicA` joins the group and gives up waiting; `nicB` reads the list; the PATCH of `nicA` is
executed; `nicB` asks, finds nothing pending, and replaces the list by one without the entry
of `nicA`. -/
theorem group_update_lost :
    ∃ (s s' : (groupSystem plainMachine "1" Bool).Conf) (entry : IPFailover),
      (groupSystem plainMachine "1" Bool).Reach (fun _ _ _ => True) ⟨[], [], fun _ => none⟩ s ∧
      (groupSystem plainMachine "1" Bool).Step s .env s' ∧
      (∃ patch ∈ s.world.writes, patch.executed = true ∧ entry ∈ patch.body) ∧
      entry ∈ s.world.value ∧ entry ∉ s'.world.value ∧
      ∀ patch ∈ s.world.writes, patch.executed = false → IPFailover.nic entry ≠ patch.author := by
  let S := groupSystem plainMachine "1" Bool
  have hshares : SharesLAN plainMachine plainMachine := ⟨rfl, rfl, rfl, rfl⟩
  have h₀ : S.Reach (fun _ _ _ => True) ⟨[], [], fun _ => none⟩ _ := .init
  -- `nicA`: lock, list, question, PATCH, a wait in vain, unlock
  have h₁ := h₀.start true rfl (.join default "nicA" "203.0.113.1" hshares) trivial
  have h₂ := h₁.answer true Call.plain rfl ⟨rfl, rfl⟩ trivial
  have h₃ := h₂.answer true (listing []) rfl ⟨rfl, by simp [lanOne]; rfl⟩ trivial
  have h₄ := h₃.answer true Call.plain rfl
    ⟨rfl, fun _ h => (nomatch h), fun _ h => (nomatch h)⟩ trivial
  have h₅ := h₄.answer true Call.plain rfl (.inr ⟨0, fun _ h => (nomatch h), rfl⟩) trivial
  have h₆ := h₅.answer true deadline rfl rfl trivial
  have h₇ := h₆.answer true Call.plain rfl rfl trivial
  -- `nicB`: lock, list
  have h₈ := h₇.start false rfl (.join default "nicB" "203.0.113.2" hshares) trivial
  have h₉ := h₈.answer false Call.plain rfl ⟨rfl, rfl⟩ trivial
  have h₁₀ := h₉.answer false (listing []) rfl ⟨rfl, by simp [lanOne]; rfl⟩ trivial
  -- the PATCH of `nicA` is executed; then the question, and the other PATCH
  have h₁₁ := h₁₀.env ⟨[], _, [], rfl, rfl, rfl⟩ trivial
  have h₁₂ := h₁₁.answer false showing rfl ⟨rfl, patchDone_shown _ _⟩ trivial
  have h₁₃ := h₁₂.answer false Call.plain rfl
    (.inr ⟨1, fun x hx => by obtain rfl := List.mem_singleton.mp hx; decide, rfl⟩) trivial
  refine ⟨_, _, ⟨some "203.0.113.1", some "nicA"⟩, h₁₃, .env ⟨[], _, _, rfl, rfl, rfl⟩,
    ⟨_, List.mem_cons_of_mem _ (List.mem_cons_self ..), rfl, List.mem_cons_self ..⟩,
    List.mem_cons_self .., fun hmem => ?_, fun patch hpatch hwaiting => ?_⟩
  · exact absurd (List.mem_singleton.mp hmem) (by decide)
  · rcases List.mem_cons.mp hpatch with rfl | hpatch
    · decide
    · obtain rfl := List.mem_singleton.mp hpatch
      exact nomatch hwaiting

end Capic.Properties
