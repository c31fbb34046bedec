import Capic.Data.Scan
import Capic.Cloud.Request
import Capic.Scope.Scope

/-!
# LANs

The LAN part of `internal/service/cloud/network.go`: finding the LAN of a machine,
creating it, and deleting it when nothing is attached to it any more. All machines
of a cluster in one data center share a LAN, so both reconcile steps run under the
LAN's lock.
-/

namespace Capic.Cloud

open Effect Effect.Go

/-- `lanName`. -/
def lanName (cs : ClusterScope) : String := "lan-" ++ cs.ns ++ "-" ++ cs.name

/-- `lanLockKey`. -/
def lanLockKey (ms : MachineScope) : String :=
  "cluster/" ++ ms.clusterScope.uid ++ "/dc/" ++ ms.datacenterID ++ "/lan"

/-- Machines of one cluster in one data center. -/
structure SharesLAN (ms ms₀ : MachineScope) : Prop where
  ns : ms.clusterScope.ns = ms₀.clusterScope.ns
  name : ms.clusterScope.name = ms₀.clusterScope.name
  uid : ms.clusterScope.uid = ms₀.clusterScope.uid
  datacenterID : ms.datacenterID = ms₀.datacenterID

theorem SharesLAN.lanName {ms ms₀ : MachineScope} (h : SharesLAN ms ms₀) :
    Cloud.lanName ms.clusterScope = Cloud.lanName ms₀.clusterScope := by
  unfold Cloud.lanName
  rw [h.ns, h.name]

theorem SharesLAN.lanLockKey {ms ms₀ : MachineScope} (h : SharesLAN ms ms₀) :
    Cloud.lanLockKey ms = Cloud.lanLockKey ms₀ := by
  unfold Cloud.lanLockKey
  rw [h.uid, h.datacenterID]

/-- `lanURL`. -/
def lanURL (datacenterID id : String) : String :=
  Text.pathJoin ["datacenters", datacenterID, "lans", id]

/-- `lansURL`. -/
def lansURL (datacenterID : String) : String := Text.pathJoin ["datacenters", datacenterID, "lans"]

/-- What the client asks for before it sends a call about the LAN: the IDs make up URLs. -/
structure Addressable (ms : MachineScope) (lanID : String) : Prop where
  datacenterID : ms.datacenterID ≠ ""
  lan : lanID ≠ ""
  path : (Text.cut (lanURL ms.datacenterID lanID) "?").1 ≠ ""

/-- `Locker.Lock(ctx, key)`, and the rest with the `Unlock` deferred. -/
def locked {α : Type} (key : String) (fail : Err → α) (body : MachineM α) : MachineM α := do
  match ← perform (Call.lock key) with
  | .error e => return fail e
  | .ok () => deferring (Call.unlock key) body

/-- The loop of `getLAN`, with the number of LANs of the expected name so far and the
last of them. -/
def findLAN (networkID : Option String) (expectedName : String) :
    Nat → Option Lan → List Lan → Except Err (Option Lan)
  | _, foundLAN, [] =>
    match networkID with
    | some id => .error (.new ("LAN with ID " ++ id ++ " not found"))
    | none => .ok foundLAN
  | lanCount, foundLAN, l :: ls =>
    if networkID.isSome ∧ l.id = networkID then .ok (some l)
    else if l.name = some expectedName then
      if lanCount + 1 > 1 then
        .error (.new ("found multiple LANs with the name: " ++ expectedName))
      else findLAN networkID expectedName (lanCount + 1) (some l) ls
    else findLAN networkID expectedName lanCount foundLAN ls

/-- `getLAN`. -/
def getLAN (ms : MachineScope) : MachineM (Except Err (Option Lan)) := do
  match ← Client.listLANs ms.datacenterID with
  | .error e =>
    return .error (.wrap ("could not list LANs in data center " ++ ms.datacenterID ++ ": ") e)
  | .ok none => panicking "nil pointer dereference"
  | .ok (some lans) => return findLAN ms.spec.networkID (lanName ms.clusterScope) 0 none lans

/-- `createLAN`. -/
def createLAN (ms : MachineScope) : MachineM (Option Err) := do
  match ← Client.createLAN ms.datacenterID ⟨lanName ms.clusterScope, true, "AUTO"⟩ with
  | .error e =>
    return some (.wrap ("unable to create LAN in data center " ++ ms.datacenterID ++ ": ") e)
  | .ok requestPath =>
    onCluster (ms.clusterScope.setCurrentRequestByDatacenter ms.datacenterID .post .queued
      requestPath)
    match ← onCluster ClusterScope.patchObject with
    | some e => return some (.wrap "unable to patch the cluster: " e)
    | none => return none

/-- `deleteLAN`. -/
def deleteLAN (ms : MachineScope) (lanID : String) : MachineM (Option Err) := do
  match ← Client.deleteLAN ms.datacenterID lanID with
  | .error e => return some (.wrap "unable to request LAN deletion in data center: " e)
  | .ok requestPath =>
    onCluster (ms.clusterScope.setCurrentRequestByDatacenter ms.datacenterID .delete .queued
      requestPath)
    match ← onCluster ClusterScope.patchObject with
    | some e => return some (.wrap "unable to patch cluster: " e)
    | none => return none

/-- `getLatestLANCreationRequest`. -/
def getLatestLANCreationRequest (ms : MachineScope) :
    MachineM (Except Err (Option RequestInfo)) :=
  getMatchingRequest .lan .post (lansURL ms.datacenterID) [matchByName (lanName ms.clusterScope)]

/-- `getLatestLANDeletionRequest`. -/
def getLatestLANDeletionRequest (ms : MachineScope) (lanID : String) :
    MachineM (Except Err (Option RequestInfo)) :=
  getMatchingRequest .lan .delete (lanURL ms.datacenterID lanID) []

/-- `getLatestLANPatchRequest`. -/
def getLatestLANPatchRequest (ms : MachineScope) (lanID : String) :
    MachineM (Except Err (Option RequestInfo)) :=
  getMatchingRequest .lan .patch (lanURL ms.datacenterID lanID) []

/-- `removeLANPendingRequestFromCluster`. -/
def removeLANPendingRequestFromCluster (ms : MachineScope) : MachineM (Option Err) := do
  onCluster (ms.clusterScope.deleteCurrentRequestByDatacenter ms.datacenterID)
  match ← onCluster ClusterScope.patchObject with
  | some e => return some (.wrap "could not remove stale LAN pending request from cluster: " e)
  | none => return none

/-- `ReconcileLAN` with the lock taken. -/
def reconcileLANLocked (ms : MachineScope) : MachineM Outcome := do
  match ← findResource (getLAN ms) (getLatestLANCreationRequest ms) with
  | .error e => return (false, some e)
  | .ok (lan, request) =>
    if request.any (·.isPending) then return (true, none)
    else
      match lan with
      | some lan => return (!isAvailable (getState lan.state), none)
      | none =>
        match ← createLAN ms with
        | some e => return (false, some e)
        | none => return (true, none)

/-- `ReconcileLAN`. -/
def reconcileLAN (ms : MachineScope) : MachineM Outcome :=
  locked (lanLockKey ms) (fun e => (false, some e)) (reconcileLANLocked ms)

/-- `ReconcileLANDeletion` for the LAN that was found. -/
def reconcileFoundLANDeletion (ms : MachineScope) (lan : Lan) : MachineM Outcome := do
  match lan.id with
  | none => panicking "nil pointer dereference"
  | some lanID =>
    match ← getLatestLANDeletionRequest ms lanID with
    | .error e => return (false, some e)
    | .ok request =>
      if request.any (·.isPending) then return (true, none)
      else
        match lan.nics with
        | none => panicking "nil pointer dereference"
        | some (_ :: _) => return (false, none)
        | some [] =>
          match ← deleteLAN ms lanID with
          | some e => return (false, some e)
          | none => return (true, none)

/-- `ReconcileLANDeletion` with the lock taken. -/
def reconcileLANDeletionLocked (ms : MachineScope) : MachineM Outcome := do
  match ← findResource (getLAN ms) (getLatestLANCreationRequest ms) with
  | .error e => return (false, some e)
  | .ok (lan, request) =>
    if request.any (·.isPending) then return (true, none)
    else
      match lan with
      | none =>
        match ← removeLANPendingRequestFromCluster ms with
        | some e => return (true, some e)
        | none => return (false, none)
      | some lan => reconcileFoundLANDeletion ms lan

/-- `ReconcileLANDeletion`. -/
def reconcileLANDeletion (ms : MachineScope) : MachineM Outcome :=
  locked (lanLockKey ms) (fun e => (false, some e)) (reconcileLANDeletionLocked ms)

/-! ## What the lookup finds -/

/-- The errors of `getLAN`'s loop are its own, and none of them says "not found" the way
the API does. -/
theorem findLAN_error {networkID : Option String} {name : String} {count : Nat}
    {found : Option Lan} {lans : List Lan} {e : Err}
    (h : findLAN networkID name count found lans = .error e) : isNotFound e = false := by
  induction lans generalizing count found with
  | nil =>
    unfold findLAN at h
    split at h
    next =>
      obtain rfl := Except.error.inj h
      rfl
    next => exact nomatch h
  | cons l ls ih =>
    rw [findLAN] at h
    split at h
    next => exact nomatch h
    next =>
      split at h
      next =>
        split at h
        next =>
          obtain rfl := Except.error.inj h
          rfl
        next => exact ih h
      next => exact ih h

/-- No LAN is found only if none is asked for by ID and none has the name. -/
theorem findLAN_none {networkID : Option String} {name : String} {count : Nat}
    {found : Option Lan} {lans : List Lan}
    (h : findLAN networkID name count found lans = .ok none) :
    networkID = none ∧ found = none ∧ ∀ l ∈ lans, l.name ≠ some name := by
  induction lans generalizing count found with
  | nil =>
    unfold findLAN at h
    split at h
    next => exact nomatch h
    next => exact ⟨rfl, Except.ok.inj h, fun _ hl => (nomatch hl)⟩
  | cons l ls ih =>
    rw [findLAN] at h
    split at h
    next => exact nomatch h
    next =>
      split at h
      next =>
        split at h
        next => exact nomatch h
        -- the LAN just counted would have been found
        next => exact nomatch (ih h).2.1
      next hname =>
        obtain ⟨hid, hfound, hls⟩ := ih h
        refine ⟨hid, hfound, fun l' hl' => ?_⟩
        rcases List.mem_cons.mp hl' with rfl | hl'
        · exact hname
        · exact hls l' hl'

/-- A LAN that is found is one of the list. -/
theorem findLAN_mem {networkID : Option String} {name : String} {count : Nat}
    {found : Option Lan} {lans : List Lan} {lan : Lan}
    (h : findLAN networkID name count found lans = .ok (some lan)) :
    lan ∈ lans ∨ found = some lan := by
  induction lans generalizing count found with
  | nil =>
    unfold findLAN at h
    split at h
    next => exact nomatch h
    next => exact .inr (Except.ok.inj h)
  | cons l ls ih =>
    rw [findLAN] at h
    split at h
    next =>
      obtain rfl := Option.some.inj (Except.ok.inj h)
      exact .inl (List.mem_cons_self ..)
    next =>
      split at h
      next =>
        split at h
        next => exact nomatch h
        next =>
          rcases ih h with hmem | heq
          · exact .inl (List.mem_cons_of_mem _ hmem)
          · obtain rfl := Option.some.inj heq
            exact .inl (List.mem_cons_self ..)
      next => exact (ih h).imp_left (List.mem_cons_of_mem _)

/-- Without an ID to look for, the LAN that is found has the name. -/
theorem findLAN_name {name : String} {count : Nat} {found : Option Lan} {lans : List Lan} {lan : Lan}
    (hfound : ∀ l, found = some l → l.name = some name)
    (h : findLAN none name count found lans = .ok (some lan)) : lan.name = some name := by
  induction lans generalizing count found with
  | nil => exact hfound lan (Except.ok.inj h)
  | cons l ls ih =>
    rw [findLAN, if_neg (by simp)] at h
    split at h
    next hname =>
      split at h
      next => exact nomatch h
      next =>
        refine ih ?_ h
        intro l' hl'
        cases hl'
        exact hname
    next => exact ih hfound h

/-- The machine asks for this LAN by ID. -/
def hasNetworkID (networkID : Option String) (l : Lan) : Bool :=
  networkID.isSome ∧ l.id = networkID

/-- The LAN has the name. -/
def hasName (name : String) (l : Lan) : Bool := l.name = some name

/-- The answer of `getLAN` by the outcome of its search. -/
def lanAnswer (networkID : Option String) (name : String) :
    Data.Outcome Lan → Except Err (Option Lan)
  | .stopped l => .ok (some l)
  | .tooMany => .error (.new ("found multiple LANs with the name: " ++ name))
  | .ended found =>
    match networkID with
    | some id => .error (.new ("LAN with ID " ++ id ++ " not found"))
    | none => .ok found

/-- `getLAN`'s loop is a search that stops at the LAN with the ID and counts those with the
name. -/
theorem findLAN_eq_scan {networkID : Option String} {name : String} (found : Option Lan)
    (lans : List Lan) :
    findLAN networkID name (if found.isSome then 1 else 0) found lans =
      lanAnswer networkID name
        (Data.scan (hasNetworkID networkID) (hasName name) found lans) := by
  induction lans generalizing found with
  | nil => cases networkID <;> rfl
  | cons l ls ih =>
    rw [findLAN, Data.scan_cons]
    by_cases hid : networkID.isSome ∧ l.id = networkID
    · have hstop : hasNetworkID networkID l = true := decide_eq_true hid
      rw [if_pos hid, if_pos hstop]
      rfl
    · have hstop : ¬ hasNetworkID networkID l = true := fun h => hid (of_decide_eq_true h)
      rw [if_neg hid, if_neg hstop]
      by_cases hname : l.name = some name
      · have hcounts : hasName name l = true := decide_eq_true hname
        rw [if_pos hname, if_pos hcounts]
        cases found with
        | some _ => rfl
        | none => exact ih (some l)
      · have hcounts : ¬ hasName name l = true := fun h => hname (of_decide_eq_true h)
        rw [if_neg hname, if_neg hcounts]
        exact ih found

/-- A LAN that is found by its name is the only one with it. -/
theorem findLAN_unique {name : String} {lans : List Lan} {lan l : Lan}
    (h : findLAN none name 0 none lans = .ok (some lan)) (hl : l ∈ lans)
    (hname : l.name = some name) : l = lan := by
  have hscan : findLAN none name 0 none lans =
      lanAnswer none name (Data.scan (hasNetworkID none) (hasName name) none lans) :=
    findLAN_eq_scan none lans
  rw [hscan] at h
  cases hout : Data.scan (hasNetworkID none) (hasName name) none lans with
  | stopped u =>
    obtain ⟨_, _, _, hstop, _⟩ := Data.scan_stopped_inv hout
    exact nomatch (of_decide_eq_true hstop).1
  | tooMany =>
    rw [hout] at h
    exact nomatch h
  | ended found =>
    rw [hout] at h
    obtain rfl : found = some lan := Except.ok.inj h
    have hmem : l ∈ lans.filter (hasName name) :=
      List.mem_filter.mpr ⟨hl, decide_eq_true hname⟩
    rw [(Data.scan_ended_inv hout).2] at hmem
    exact List.mem_singleton.mp hmem

/-- The LAN is the first in the list with the ID, and there is at most one LAN with the name before
it, with those counted so far. -/
def FirstWithID (id name : String) (count : Nat) (lans : List Lan) (lan : Lan) : Prop :=
  ∃ before after, lans = before ++ lan :: after ∧ lan.id = some id ∧
    (∀ l ∈ before, l.id ≠ some id) ∧ count + before.countP (fun l => l.name = some name) ≤ 1

theorem firstWithID_cons {id name : String} {count : Nat} {l : Lan} {ls : List Lan} {lan : Lan}
    (hid : l.id ≠ some id) : FirstWithID id name count (l :: ls) lan ↔
      FirstWithID id name (count + if l.name = some name then 1 else 0) ls lan := by
  constructor
  · rintro ⟨before, after, h, hlan, hbefore, hle⟩
    cases before with
    | nil =>
      cases h
      exact absurd hlan hid
    | cons b before =>
      obtain ⟨rfl, rfl⟩ := List.cons.inj h
      refine ⟨before, after, rfl, hlan, fun l' hl' => hbefore l' (List.mem_cons_of_mem _ hl'), ?_⟩
      rw [List.countP_cons] at hle
      simp only [decide_eq_true_eq] at hle
      omega
  · rintro ⟨before, after, rfl, hlan, hbefore, hle⟩
    refine ⟨l :: before, after, rfl, hlan, ?_, ?_⟩
    · intro l' hl'
      rcases List.mem_cons.mp hl' with rfl | hl'
      · exact hid
      · exact hbefore l' hl'
    · rw [List.countP_cons]
      simp only [decide_eq_true_eq]
      omega

/-- The LAN with the ID is found if it is in the list, unless the list has two LANs with the name
before it. -/
theorem findLAN_byID {id name : String} {count : Nat} {found : Option Lan} {lans : List Lan}
    {lan : Lan} (hcount : count ≤ 1) :
    findLAN (some id) name count found lans = .ok (some lan) ↔
      FirstWithID id name count lans lan := by
  induction lans generalizing count found with
  | nil =>
    constructor
    · intro h
      exact nomatch h
    · rintro ⟨before, after, h, _⟩
      simp at h
  | cons l ls ih =>
    rw [findLAN]
    by_cases hid : l.id = some id
    · -- the search ends here
      rw [if_pos ⟨rfl, hid⟩]
      constructor
      · intro h
        cases h
        exact ⟨[], ls, rfl, hid, fun _ hl => (nomatch hl), by simpa using hcount⟩
      · rintro ⟨before, after, h, hlan, hbefore, _⟩
        cases before with
        | nil =>
          cases h
          rfl
        | cons b before =>
          obtain ⟨rfl, _⟩ := List.cons.inj h
          exact absurd hid (hbefore l (List.mem_cons_self ..))
    · rw [if_neg (fun h => hid h.2), firstWithID_cons hid]
      by_cases hname : l.name = some name
      · rw [if_pos hname, if_pos hname]
        by_cases hmany : count + 1 > 1
        · -- the second LAN with the name
          rw [if_pos hmany]
          constructor
          · intro h
            exact nomatch h
          · rintro ⟨before, after, _, _, _, hle⟩
            omega
        · rw [if_neg hmany]
          exact ih (by omega)
      · rw [if_neg hname, if_neg hname]
        exact ih hcount

/-! ## Rules -/

section

variable {M : Monitor Call Call.Ans} {q : M.Phase} {s : MachineVars} {α κ : Type}
  {keep : MachineVars → κ}

/-- The lock is taken, or its error is all there is. -/
theorem wp_locked {key : String} {fail : Err → α} {body : MachineM α}
    {Q : M.Phase → α → MachineVars → Prop} (hlock : M.ok q (.lock key))
    (hpanic : ∀ q', M.panic q' → M.ok q' (.unlock key) ∧
      (M.adm q' (.unlock key) () → M.panic (M.next q' (.unlock key) ())))
    (hfail : ∀ e, M.adm q (.lock key) (.error e) →
      Q (M.next q (.lock key) (.error e)) (fail e) s)
    (hbody : M.adm q (.lock key) (.ok ()) →
      body.wp M (fun q' a s' => M.ok q' (.unlock key) ∧
        (M.adm q' (.unlock key) () → Q (M.next q' (.unlock key) ()) a s'))
        (M.next q (.lock key) (.ok ())) s) :
    (locked key fail body).wp M Q q s := by
  unfold locked
  rw [wp_bind, wp_perform]
  refine ⟨hlock, fun a ha => ?_⟩
  match a with
  | .error e => exact (wp_pure _).mpr (hfail e ha)
  | .ok () =>
    refine wp_deferring (fun q' hq' => ⟨(hpanic q' hq').1, fun _ => (hpanic q' hq').2⟩) ?_
    exact wp_mono (hbody ha) fun q' b s' hb => ⟨hb.1, fun _ => hb.2⟩

/-- A complete run under the lock takes it first and gives it up last, or ends with the lock's
error. -/
theorem runs_locked_inv {α : Type} {key : String} {fail : Err → α} {body : MachineM α}
    {s s' : MachineVars} {r : Res α} {tr : List (Event Call Call.Ans)}
    (h : Runs (locked key fail body) s tr r s') :
    (∃ e, r = .val (fail e)) ∨
      ∃ tr', tr = ⟨.lock key, .ok ()⟩ :: tr' ++ [⟨.unlock key, ()⟩] ∧ Runs body s tr' r s' := by
  unfold locked at h
  obtain ⟨a, tr₁, rfl, h₁⟩ := h.perform_bind_inv
  match a with
  | .error e =>
    obtain ⟨-, rfl, -⟩ := h₁.pure_inv
    exact .inl ⟨e, rfl⟩
  | .ok () =>
    obtain ⟨tr', _, rfl, h'⟩ := h₁.deferring_inv
    exact .inr ⟨tr', rfl, h'⟩

/-- `getLAN` lists the LANs, or fails without a call. -/
theorem wp_getLAN {ms : MachineScope} {Q : M.Phase → Except Err (Option Lan) → MachineVars → Prop}
    (hfail : ∀ e, isNotFound e = false → Q q (.error e) s) (hok : M.ok q (.lansGet ms.datacenterID))
    (herror : ∀ e e', M.adm q (.lansGet ms.datacenterID) (.error e) → isNotFound e' = isNotFound e →
      Q (M.next q (.lansGet ms.datacenterID) (.error e)) (.error e') s)
    (hlans : ∀ lans, M.adm q (.lansGet ms.datacenterID) (.ok (some lans)) →
      Q (M.next q (.lansGet ms.datacenterID) (.ok (some lans)))
        (findLAN ms.spec.networkID (lanName ms.clusterScope) 0 none lans) s)
    (hpanic : M.adm q (.lansGet ms.datacenterID) (.ok none) →
      M.panic (M.next q (.lansGet ms.datacenterID) (.ok none))) :
    (getLAN ms).wp M Q q s := by
  unfold getLAN Client.listLANs
  rw [wp_bind]
  refine Client.wp_withParams (fun p hp _ => ?_) ?_
  · obtain rfl := List.mem_singleton.mp hp
    exact (wp_pure _).mpr (hfail _ rfl)
  rw [wp_bind, wp_perform]
  refine ⟨hok, fun a ha => ?_⟩
  rw [wp_pure]
  match a with
  | .error e => exact (wp_pure _).mpr (herror e _ ha rfl)
  | .ok none => exact (wp_panicking _).mpr (hpanic ha)
  | .ok (some lans) => exact (wp_pure _).mpr (hlans lans ha)

/-- What `createLAN` and `deleteLAN` do once the request was accepted. -/
theorem within_recordRequest {cs : ClusterScope} {dc path : String} {method : Method}
    {status : RequestStatus} {k : Option Err → MachineM α}
    (hkeep : ∀ v c, c.settled = v.cluster.settled → keep { v with cluster := c } = keep v)
    (hk : ∀ r, Within Bookkeeping keep (k r)) :
    Within Bookkeeping keep (do
      onCluster (cs.setCurrentRequestByDatacenter dc method status path)
      k (← onCluster ClusterScope.patchObject)) :=
  .bind (within_onCluster hkeep (within_setRequest cs dc method status path)) fun _ =>
    .bind (within_onCluster hkeep within_patchCluster) hk

end

end Capic.Cloud
