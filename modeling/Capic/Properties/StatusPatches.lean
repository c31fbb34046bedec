import Mathlib.Data.Fintype.Pi
import Mathlib.Logic.Relation
import Capic.Data.MergePatch
import Capic.Scope.Scope

/-!
# Status patches

The requests of a cluster are kept in memory, in `Status.CurrentRequestByDatacenter`, and are stored
by `PatchObject`. The patch helper remembers the object as it was when the scope was made and sends,
every time, the merge patch from this snapshot to the object as it is now.

What is now as it was in the snapshot is not in the patch. That is right for the first patch. Later
it is wrong for what has been patched to something else in between: it stays that way.

- `requestObject`, `requestMap`, `currentRequest`: the requests as JSON;
- `patched`: what is stored after a patch;
- `Unreturned`: nothing that has its snapshot's value now had another at the last patch;
- `requests_stored`: as long as this holds, every patch stores what is in memory, and the first
  patch for which it does not hold stores something else (`request_stored_partially`).
-/

namespace Capic.Properties.Patching

open Effect Effect.Go Data Data.MergePatch

/-! ## Requests as JSON -/

/-- The fields of `ProvisioningRequest`. -/
inductive RequestField where
  | method | requestPath | state
  deriving DecidableEq

instance : Fintype RequestField where
  elems := {.method, .requestPath, .state}
  complete f := by cases f <;> decide

abbrev RequestObject := RequestField → Option String

abbrev RequestMap := String → Option RequestObject

/-- A request as JSON. An empty `state` is omitted. -/
def requestObject (request : ProvisioningRequest) : RequestObject
  | .method => some request.method.text
  | .requestPath => some request.requestPath
  | .state => if request.state.text = "" then none else some request.state.text

/-- The entries of `currentRequest`. -/
def requestMap (v : ClusterVars) : RequestMap := fun dc =>
  (v.currentRequestByDatacenter dc).map requestObject

open Classical in
/-- `currentRequest`. Without entries it is omitted. -/
noncomputable def currentRequest (v : ClusterVars) : Option RequestMap :=
  if requestMap v = fun _ => none then none else some (requestMap v)

/-- Entries are merged field by field. -/
def entryFormat : Format RequestObject (RequestField → Change String) := object leaf

open Classical in
/-- The map is merged entry by entry. -/
noncomputable def mapFormat : Format RequestMap (String → Change (RequestField → Change String)) :=
  object entryFormat

/-- `currentRequest` in the API server after the patch from the snapshot to the object `v`. -/
noncomputable def patched (snapshot v : ClusterVars) (stored : Option RequestMap) :
    Option RequestMap :=
  mapFormat.apply (mapFormat.change (currentRequest snapshot) (currentRequest v)) stored

/-- The schema: method and path are required, and the state is one of four. -/
def IsValid (stored : Option RequestMap) : Prop :=
  ∀ dc entry, fields stored dc = some entry →
    (entry .method).isSome ∧ (entry .requestPath).isSome ∧
      ∀ state, entry .state = some state → state ∈ ["QUEUED", "RUNNING", "DONE", "FAILED"]

theorem fields_currentRequest (v : ClusterVars) (dc : String) :
    fields (currentRequest v) dc = requestMap v dc := by
  unfold currentRequest
  split
  next hempty => rw [hempty, fields_none]
  next => rfl

theorem currentRequest_eq_none {v : ClusterVars} :
    currentRequest v = none ↔ requestMap v = fun _ => none := by
  unfold currentRequest
  split
  next hempty => exact iff_of_true rfl hempty
  next hentry => exact iff_of_false (fun h => nomatch h) hentry

/-- Every entry has a method. -/
theorem requestMap_method (v : ClusterVars) (dc : String) (h : (requestMap v dc).isSome) :
    (fields (requestMap v dc) .method).isSome := by
  unfold requestMap at h ⊢
  cases hrequest : v.currentRequestByDatacenter dc with
  | none =>
    rw [hrequest] at h
    exact nomatch h
  | some request => rfl

/-! ## Runs of a scope -/

/-- A scope, the memory at its last patch (the snapshot before the first), and what is stored. -/
structure State where
  memory : ClusterVars
  last : ClusterVars
  stored : Option RequestMap

/-- `NewCluster`: memory, snapshot and store have the same requests. -/
structure IsNew (snapshot : ClusterVars) (s : State) : Prop where
  memory : s.memory.currentRequestByDatacenter = snapshot.currentRequestByDatacenter
  last : s.last = snapshot
  stored : s.stored = currentRequest snapshot

/-- The store after a call. -/
noncomputable def serve (snapshot : ClusterVars) (stored : Option RequestMap) :
    Event Call Call.Ans → Option RequestMap
  | ⟨.patchCluster v, answer⟩ =>
    match answer with
    | .ok () => patched snapshot v stored
    | .error _ => stored
  | _ => stored

/-- A request is set or deleted. -/
inductive Edits (cs : ClusterScope) (v v' : ClusterVars) : Prop where
  | set (datacenterID : String) (method : Method) (status : RequestStatus) (requestPath : String)
      {tr : List (Event Call Call.Ans)}
      (h : Runs (cs.setCurrentRequestByDatacenter datacenterID method status requestPath) v tr
        (.val ()) v') : Edits cs v v'
  | delete (datacenterID : String) {tr : List (Event Call Call.Ans)}
      (h : Runs (cs.deleteCurrentRequestByDatacenter datacenterID) v tr (.val ()) v') :
      Edits cs v v'

/-- `PatchObject` succeeds; what does not follow the schema is not stored. -/
def Patches (snapshot : ClusterVars) (s s' : State) : Prop :=
  ∃ tr, Runs ClusterScope.patchObject s.memory tr (.val none) s'.memory ∧ s'.last = s.memory ∧
    s'.stored = tr.foldl (serve snapshot) s.stored ∧ IsValid s'.stored

theorem Patches.inv {snapshot : ClusterVars} {s s' : State} (h : Patches snapshot s s') :
    s'.memory = s.memory ∧ s'.last = s.memory ∧
      s'.stored = patched snapshot s.memory s.stored := by
  obtain ⟨tr, hrun, hlast, hstored, -⟩ := h
  obtain ⟨answer, rfl, hanswer, hmemory⟩ := ClusterScope.runs_patchObject_inv hrun
  cases answer with
  | error e => nomatch hanswer
  | ok u => exact ⟨hmemory, hlast, hstored⟩

/-! ## What is stored -/

/-- What has the same value in `v` as in the snapshot had it in `last` as well: entries that are in
neither, and fields. Entries that are removed are in the patch as a whole, and so is the map. -/
def Unreturned (snapshot last v : ClusterVars) : Prop :=
  ((requestMap snapshot ≠ fun _ => none) ∧ requestMap v = fun _ => none) ∨
    ∀ dc, ((requestMap snapshot dc).isSome ∧ requestMap v dc = none) ∨
      ∀ f, fields (requestMap snapshot dc) f = fields (requestMap v dc) f →
        fields (requestMap last dc) f = fields (requestMap v dc) f

/-- The store has the requests of `v`, entry by entry. -/
def Holds (stored : Option RequestMap) (v : ClusterVars) : Prop :=
  ∀ dc, fields stored dc = requestMap v dc

open Classical in
/-- As long as there are requests, they are patched entry by entry. -/
theorem fields_patched (snapshot : ClusterVars) {v : ClusterVars}
    (h : requestMap v ≠ fun _ => none) (stored : Option RequestMap) (dc : String) :
    fields (patched snapshot v stored) dc =
      entryFormat.apply (entryFormat.change (requestMap snapshot dc) (requestMap v dc))
        (fields stored dc) := by
  have hsome : (currentRequest v).isSome := by
    rw [Option.isSome_iff_ne_none, Ne, currentRequest_eq_none]
    exact h
  unfold patched mapFormat
  rw [fields_apply_change fun _ => hsome, fields_currentRequest, fields_currentRequest]

open Classical in
/-- A patch stores what is in memory if nothing has returned to its snapshot's value. -/
theorem patched_holds_iff {snapshot last v : ClusterVars} {stored : Option RequestMap}
    (h : Holds stored last) :
    Holds (patched snapshot v stored) v ↔ Unreturned snapshot last v := by
  have hmap : (currentRequest snapshot).isSome ∧ currentRequest v = none ↔
      (requestMap snapshot ≠ fun _ => none) ∧ requestMap v = fun _ => none := by
    rw [Option.isSome_iff_ne_none, Ne, currentRequest_eq_none, currentRequest_eq_none]
  have hentry : ∀ dc, entryFormat.Restores (requestMap snapshot dc) (requestMap v dc)
      (requestMap last dc) ↔ ((requestMap snapshot dc).isSome ∧ requestMap v dc = none) ∨
        ∀ f, fields (requestMap snapshot dc) f = fields (requestMap v dc) f →
          fields (requestMap last dc) f = fields (requestMap v dc) f := by
    intro dc
    refine (object_restores_iff (requestMap_method v dc) (requestMap_method last dc)).trans ?_
    simp only [leaf_restores_iff]
  have hfields : Holds (patched snapshot v stored) v ↔
      ∀ dc, fields (patched snapshot v stored) dc = fields (currentRequest v) dc := by
    simp only [Holds, fields_currentRequest]
  rw [hfields]
  unfold patched mapFormat
  rw [fields_restored_iff, hmap]
  simp only [fields_currentRequest, show ∀ dc, fields stored dc = requestMap last dc from h,
    hentry]
  rfl

/-- A step of the scope: an edit, or a patch for which nothing has returned to its snapshot's
value. -/
inductive Step (cs : ClusterScope) (snapshot : ClusterVars) : State → State → Prop where
  | edit {s : State} {v : ClusterVars} (h : Edits cs s.memory v) :
      Step cs snapshot s { s with memory := v }
  | patch {s s' : State} (h : Patches snapshot s s')
      (hunreturned : Unreturned snapshot s.last s.memory) : Step cs snapshot s s'

section

variable {cs : ClusterScope} {snapshot : ClusterVars} {s₀ s s' : State}

theorem IsNew.holds (h : IsNew snapshot s) : Holds s.stored s.last := by
  intro dc
  rw [h.stored, h.last, fields_currentRequest]

theorem Patches.holds_iff (h : Patches snapshot s s') (hs : Holds s.stored s.last) :
    Holds s'.stored s'.memory ↔ Unreturned snapshot s.last s.memory := by
  obtain ⟨hmemory, -, hstored⟩ := h.inv
  rw [hmemory, hstored]
  exact patched_holds_iff hs

/-- A step keeps what was in memory at the last patch in the store. -/
theorem Step.holds (h : Step cs snapshot s s') (hs : Holds s.stored s.last) :
    Holds s'.stored s'.last := by
  cases h with
  | edit _ => exact hs
  | patch h hunreturned =>
    have hpatched := (h.holds_iff hs).mpr hunreturned
    obtain ⟨hmemory, hlast, -⟩ := h.inv
    rwa [hmemory, ← hlast] at hpatched

theorem run_holds (hnew : IsNew snapshot s₀)
    (hrun : Relation.ReflTransGen (Step cs snapshot) s₀ s) : Holds s.stored s.last := by
  induction hrun with
  | refl => exact hnew.holds
  | tail _ hstep ih => exact hstep.holds ih

/-- The first patch is always right. -/
theorem unreturned_first (snapshot v : ClusterVars) : Unreturned snapshot snapshot v :=
  .inr fun _ => .inr fun _ h => h

/-- In a run in which nothing has returned to its snapshot's value at a patch, the store has what
was in memory at the last patch; and the next patch stores what is in memory exactly if nothing has
returned again. -/
theorem requests_stored (hnew : IsNew snapshot s₀)
    (hrun : Relation.ReflTransGen (Step cs snapshot) s₀ s) :
    Holds s.stored s.last ∧ ∀ s', Patches snapshot s s' →
      (Holds s'.stored s'.memory ↔ Unreturned snapshot s.last s.memory) :=
  ⟨run_holds hnew hrun, fun _ h => h.holds_iff (run_holds hnew hrun)⟩

end

/-! ## A request that is followed by another -/

/-- A cluster with these requests. -/
def withRequests (requests : String → Option ProvisioningRequest) : ClusterVars :=
  { (default : ClusterVars) with currentRequestByDatacenter := requests }

/-- A cluster with at most one request, in the data center `dc`. -/
def tracking (request : Option ProvisioningRequest) : ClusterVars :=
  withRequests fun dc => if dc = "dc" then request else none

section

variable (cs : ClusterScope) (request : Option ProvisioningRequest)

theorem requestMap_tracking (dc : String) :
    requestMap (tracking request) dc = if dc = "dc" then request.map requestObject else none := by
  show Option.map requestObject (if dc = "dc" then request else none) = _
  split <;> rfl

theorem tracking_update (request' : Option ProvisioningRequest) :
    tracking request' = withRequests fun dc =>
      if dc = "dc" then request' else (tracking request).currentRequestByDatacenter dc := by
  refine congrArg withRequests (funext fun dc => ?_)
  split
  next => rfl
  next hdc => exact (if_neg hdc).symm

theorem edits_set (method : Method) (status : RequestStatus) (requestPath : String) :
    Edits cs (tracking request) (tracking (some ⟨method, requestPath, status⟩)) := by
  have hrun := runs_play (cs.setCurrentRequestByDatacenter "dc" method status requestPath)
    (tracking request) Call.plain
  rw [tracking_update request (some ⟨method, requestPath, status⟩)]
  exact .set "dc" method status requestPath hrun

theorem edits_delete : Edits cs (tracking request) (tracking none) := by
  have hrun := runs_play (cs.deleteCurrentRequestByDatacenter "dc") (tracking request) Call.plain
  rw [tracking_update request none]
  exact .delete "dc" hrun

end

/-- The state after a patch that is accepted. -/
noncomputable def afterPatch (snapshot : ClusterVars) (s : State) : State :=
  ⟨s.memory, s.memory, patched snapshot s.memory s.stored⟩

theorem patches_of_valid {snapshot : ClusterVars} {s : State}
    (h : IsValid (patched snapshot s.memory s.stored)) :
    Patches snapshot s (afterPatch snapshot s) :=
  ⟨_, runs_play ClusterScope.patchObject s.memory Call.plain, rfl, rfl, h⟩

/-- What is stored of at most one request is valid if its entry is. -/
theorem isValid_of_tracking {stored : Option RequestMap} {request : Option ProvisioningRequest}
    (h : Holds stored (tracking request))
    (hstate : ∀ r ∈ request, r.state.text ∈ ["QUEUED", "RUNNING", "DONE", "FAILED"]) :
    IsValid stored := by
  intro dc entry hentry
  rw [h] at hentry
  obtain ⟨r, hr, rfl⟩ := Option.map_eq_some_iff.mp hentry
  have hmem : r ∈ request := by
    change (if dc = "dc" then request else none) = some r at hr
    split at hr
    · exact hr
    · exact nomatch hr
  refine ⟨rfl, rfl, fun state hs => ?_⟩
  have htext : state = r.state.text := by
    change (if r.state.text = "" then none else some r.state.text) = some state at hs
    split at hs
    · exact nomatch hs
    · exact (Option.some.inj hs).symm
  rw [htext]
  exact hstate r hmem

/-- A scope that was made when a request for the creation of a LAN was tracked. -/
noncomputable def created : State :=
  ⟨tracking (some ⟨.post, "create", .queued⟩), tracking (some ⟨.post, "create", .queued⟩),
    currentRequest (tracking (some ⟨.post, "create", .queued⟩))⟩

theorem isNew_created : IsNew created.memory created := ⟨rfl, rfl, rfl⟩

/-- The request is running, which is to be patched. -/
noncomputable def running : State :=
  { created with memory := tracking (some ⟨.post, "create", .running⟩) }

theorem patches_running : Patches created.memory running (afterPatch created.memory running) := by
  have hholds : Holds (afterPatch created.memory running).stored running.memory :=
    (patched_holds_iff isNew_created.holds).mpr (unreturned_first _ _)
  refine patches_of_valid (isValid_of_tracking hholds fun r hr => ?_)
  obtain rfl := Option.some.inj hr
  decide

/-- It is done, which is to be patched as well. -/
noncomputable def done : State :=
  { afterPatch created.memory running with memory := tracking (some ⟨.post, "create", .done⟩) }

/-- Method and path are those of the snapshot, but so they were at the last patch. The state has
been another one all the time. -/
theorem unreturned_done : Unreturned created.memory done.last done.memory := by
  refine .inr fun dc => .inr fun f hf => ?_
  rw [show requestMap done.memory dc = _ from requestMap_tracking _ dc] at hf ⊢
  rw [show requestMap created.memory dc = _ from requestMap_tracking _ dc] at hf
  rw [show requestMap done.last dc = _ from requestMap_tracking _ dc]
  by_cases hdc : dc = "dc"
  · simp only [if_pos hdc] at hf ⊢
    cases f with
    | state => exact absurd hf (by decide)
    | _ => rfl
  · rw [if_neg hdc, if_neg hdc]

/-- Both are stored. -/
theorem requests_stored_twice :
    Patches created.memory running (afterPatch created.memory running) ∧
      ∃ s', Patches created.memory done s' ∧ Holds s'.stored s'.memory := by
  have hrun : Relation.ReflTransGen (Step default created.memory) created done :=
    ((Relation.ReflTransGen.single (.edit (edits_set default _ .post .running "create"))).tail
      (.patch patches_running (unreturned_first _ _))).tail
      (.edit (edits_set default _ .post .done "create"))
  have hholds : Holds (afterPatch created.memory done).stored done.memory :=
    (patched_holds_iff (run_holds isNew_created hrun)).mpr unreturned_done
  have hpatches : Patches created.memory done (afterPatch created.memory done) := by
    refine patches_of_valid (isValid_of_tracking hholds fun r hr => ?_)
    obtain rfl := Option.some.inj hr
    decide
  exact ⟨patches_running, _, hpatches,
    ((requests_stored isNew_created hrun).2 _ hpatches).mpr unreturned_done⟩

/-- The LAN is there: its request is deleted, which is to be patched. -/
noncomputable def finished : State := { created with memory := tracking none }

theorem patched_finished : Holds (afterPatch created.memory finished).stored (tracking none) :=
  (patched_holds_iff isNew_created.holds).mpr (unreturned_first _ _)

theorem patches_finished : Patches created.memory finished (afterPatch created.memory finished) :=
  patches_of_valid (isValid_of_tracking patched_finished fun _ h => nomatch h)

/-- The LAN is to be deleted: this is the new request, which is to be patched as well. -/
noncomputable def requested : State :=
  { afterPatch created.memory finished with memory := tracking (some ⟨.delete, "delete", .queued⟩) }

/-- The state is in the snapshot, so it is not in the patch. -/
theorem patched_requested (dc : String) :
    fields (afterPatch created.memory requested).stored dc =
      if dc = "dc" then some fun f => if f = .state then none else
        requestObject ⟨.delete, "delete", .queued⟩ f
      else none := by
  have hentry : requestMap requested.memory ≠ fun _ => none := fun h => nomatch congrFun h "dc"
  have hpatched := fields_patched created.memory hentry requested.stored dc
  rw [show fields requested.stored dc = requestMap (tracking none) dc from patched_finished dc]
    at hpatched
  refine hpatched.trans ?_
  by_cases hdc : dc = "dc"
  · subst hdc
    rw [if_pos rfl]
    have hobjects : entryFormat.apply (entryFormat.change
        (some (requestObject ⟨.post, "create", .queued⟩))
        (some (requestObject ⟨.delete, "delete", .queued⟩))) none =
        some fun f => if f = .state then none else
          requestObject ⟨.delete, "delete", .queued⟩ f := by
      decide
    exact hobjects
  · have hno : ∀ request, requestMap (tracking request) dc = none := fun request => by
      rw [requestMap_tracking, if_neg hdc]
    rw [if_neg hdc, hno, show requestMap requested.memory dc = none from hno _,
      show requestMap created.memory dc = none from hno _]
    rfl

/-- The new request is stored without its state: both were queued when they were tracked. -/
theorem request_stored_partially :
    IsNew created.memory created ∧
      Edits default created.memory finished.memory ∧
      Patches created.memory finished (afterPatch created.memory finished) ∧
      Edits default (afterPatch created.memory finished).memory requested.memory ∧
      Patches created.memory requested (afterPatch created.memory requested) ∧
      fields (fields (afterPatch created.memory requested).stored "dc") .state = none ∧
      fields (requestMap (afterPatch created.memory requested).memory "dc") .state =
        some "QUEUED" := by
  have hvalid : IsValid (afterPatch created.memory requested).stored := by
    intro dc entry hentry
    rw [patched_requested] at hentry
    split at hentry
    · obtain rfl := Option.some.inj hentry
      exact ⟨rfl, rfl, fun _ h => nomatch h⟩
    · exact nomatch hentry
  refine ⟨isNew_created, edits_delete _ _, patches_finished, edits_set _ _ _ _ _,
    patches_of_valid hvalid, ?_, rfl⟩
  rw [patched_requested]
  rfl

end Capic.Properties.Patching
