import Capic.Cloud.Server
import Capic.Controller.Frame
import Capic.Effect.Threads
import Capic.Properties.CreateOnce

/-!
# Which volumes go with a server

A machine that is replaced leaves its data volumes behind, to be attached to the next node.
So `ReconcileServerDeletion` deletes the boot volume by itself, waits until the server has
none any more, and then deletes the server without its volumes. If the cluster goes as well,
the server is deleted with all its volumes at once. This takes several runs, and the cluster
may be marked as deleted between any two of them, or during one.

`MachineServer.system` is the system of any number of runs of `ReconcileServerDeletion` for
one machine, and of the cloud: deletions that were accepted are done or fail, in any order
and at any time, other volumes are attached and detached, and the cluster may be marked. Any
call may fail, and may have been accepted nevertheless. The server may be shown as it was.

`volumes_accounted`: as long as the cluster is not marked, no volume but the boot volume is
deleted; and a server that is deleted has no boot volume left. What carries it is that the
boot volume's reference is never set again (`VolumeInv.reference`): a run that has once seen
the server without a boot volume may delete the server alone, however late it does.
-/

namespace Capic.Properties

open Effect Effect.Go Cloud
open Function (update)

/-! ## The server and its volumes -/

/-- An accepted deletion: of a volume, or of the server. -/
inductive Deletion where
  | volume (id : String)
  | server (deleteVolumes : Bool)
  deriving DecidableEq

/-- The server, its `BootVolume` reference and its volumes, the volumes that were deleted,
whether the cluster is marked as deleted, and the accepted deletions that are not finished. -/
structure VolumeWorld where
  present : Bool
  reference : Option String
  attached : List String
  deleted : List String
  marked : Bool
  requests : List Deletion
  deriving DecidableEq

/-- A deletion is done. -/
def Deletion.execute (w : VolumeWorld) : Deletion → VolumeWorld
  | volume id => { w with
    attached := w.attached.filter (· ≠ id)
    deleted := id :: w.deleted
    reference := if w.reference = some id then none else w.reference }
  | server deleteVolumes => { w with
    present := false
    attached := []
    deleted := if deleteVolumes then w.attached ++ w.deleted else w.deleted }

/-- A run: whether it takes the cluster for deleted, and whether it has seen the server without
a boot volume. -/
structure VolumeRun where
  marked : Bool
  cleared : Bool
  deriving DecidableEq

/-- A machine's server and its boot volume. -/
structure MachineServer where
  datacenterID : String
  name : String
  serverID : String
  boot : Option String

def bootVolume (server : Server) : Option String := server.properties.bind (·.bootVolumeID)

namespace MachineServer

variable (G : MachineServer)

/-- What the cloud does. -/
inductive Moves (w : VolumeWorld) : VolumeWorld → Prop where
  | mark : Moves w { w with marked := true }
  /-- Other volumes are attached and detached. -/
  | attach (attached : List String) : w.present = true →
      (∀ v, G.boot = some v → (v ∈ attached ↔ v ∈ w.attached)) →
      Moves w { w with attached := attached }
  | failed (before after : List Deletion) (d : Deletion) :
      w.requests = before ++ d :: after → Moves w { w with requests := before ++ after }
  | done (before after : List Deletion) (d : Deletion) :
      w.requests = before ++ d :: after →
      Moves w (d.execute { w with requests := before ++ after })

/-- The answer shows the machine's server. -/
def shown : (c : Call) → Call.Ans c → List Server
  | .serversFindById dc id, .ok server =>
    if dc = G.datacenterID ∧ id = G.serverID then [server] else []
  | .serversGet dc, .ok items =>
    if dc = G.datacenterID then (deref items []).filter (nameOf · = some G.name) else []
  | _, _ => []

/-- The server is shown as it is, or as it was. -/
def Answers (w : VolumeWorld) (c : Call) (a : Call.Ans c) : Prop :=
  ∀ server ∈ G.shown c a, server.id = some G.serverID ∧
    (bootVolume server = w.reference ∨ bootVolume server = G.boot)

/-- A deletion may be accepted, whatever the answer says. -/
def Accepts (w : VolumeWorld) : Call → VolumeWorld → Prop
  | .volumesDelete dc id, w' => w' = w ∨
    (dc = G.datacenterID ∧ w' = { w with requests := w.requests ++ [.volume id] })
  | .serversDelete dc id deleteVolumes, w' => w' = w ∨
    (dc = G.datacenterID ∧ id = G.serverID ∧
      w' = { w with requests := w.requests ++ [.server deleteVolumes] })
  | _, w' => w' = w

def next (q : VolumeRun) (c : Call) (a : Call.Ans c) : VolumeRun :=
  { q with cleared := q.cleared || (G.shown c a).any (bootVolume · = none) }

/-- A scope of the machine. -/
structure IsMachine (ms : MachineScope) : Prop where
  datacenterID : ms.datacenterID = G.datacenterID
  name : ms.name = G.name

/-- The provider ID is not set, or leads to the server. -/
def Owns (providerID : String) : Prop :=
  extractServerID providerID = "" ∨ extractServerID providerID = G.serverID

/-- Runs of `ReconcileServerDeletion`. -/
def Job (q : VolumeRun) (p : Prog Call Call.Ans Unit) : Prop :=
  ∃ ms s, G.IsMachine ms ∧ G.Owns s.providerID ∧ q = ⟨ms.clusterScope.isDeleted, false⟩ ∧
    p = (reconcileServerDeletion ms s).forget

/-- The runs, and the cloud. A run takes the cluster for deleted only if it is. -/
@[reducible] def system (T : Type) : System T Call Call.Ans where
  World := VolumeWorld
  Phase := VolumeRun
  idle := ⟨false, false⟩
  next := G.next
  exec _ q w c a w' := (q.marked = true → w.marked = true) ∧ G.Answers w c a ∧ G.Accepts w c w'
  env := G.Moves
  crash w w' := w' = w
  job _ := G.Job

/-- The server with its boot volume, before anything was deleted. -/
structure Starts (w : VolumeWorld) : Prop where
  present : w.present = true
  reference : w.reference = G.boot
  attached : ∀ v, G.boot = some v → v ∈ w.attached
  deleted : w.deleted = []
  requests : w.requests = []

/-- What a run may ask for. -/
def Ok (q : VolumeRun) : Call → Prop
  | .volumesDelete _ id => G.boot = some id
  | .serversDelete _ _ deleteVolumes => if deleteVolumes then q.marked = true else q.cleared = true
  | _ => True

/-- What a run may count on. -/
def Adm (c : Call) (a : Call.Ans c) : Prop :=
  ∀ server ∈ G.shown c a, server.id = some G.serverID ∧ ∀ v, bootVolume server = some v →
    G.boot = some v

end MachineServer

/-! ## The invariant -/

/-- A deletion that may be done at any time. -/
def Deletion.Fine (boot : Option String) (w : VolumeWorld) : Deletion → Prop
  | volume id => boot = some id
  | server true => w.marked = true
  | server false => w.reference = none

/-- What is fine stays fine, since the cluster stays marked and the reference cleared. -/
theorem Deletion.Fine.mono {boot : Option String} {w w' : VolumeWorld} {d : Deletion}
    (h : d.Fine boot w) (hmarked : w.marked = true → w'.marked = true)
    (hcleared : w.reference = none → w'.reference = none) : d.Fine boot w' := by
  cases d with
  | volume id => exact h
  | server deleteVolumes =>
    cases deleteVolumes with
    | true => exact hmarked h
    | false => exact hcleared h

/-- The invariant (module doc). -/
structure VolumeInv {T : Type} (boot : Option String) (w : VolumeWorld) (ph : T → VolumeRun) :
    Prop where
  reference : w.reference = boot ∨ w.reference = none
  cleared : w.reference = none → ∀ v, boot = some v → v ∈ w.deleted
  attached : w.present = true → ∀ v, boot = some v → v ∈ w.attached ∨ v ∈ w.deleted
  requests : ∀ d ∈ w.requests, d.Fine boot w
  /-- Only the boot volume is deleted as long as the cluster is not. -/
  kept : w.marked = false → ∀ v ∈ w.deleted, boot = some v
  /-- The boot volume is not left behind. -/
  gone : w.present = false → ∀ v, boot = some v → v ∈ w.deleted
  runs : ∀ t, (ph t).cleared = true → w.reference = none

namespace VolumeInv

variable {T : Type} {boot : Option String} {w : VolumeWorld} {ph : T → VolumeRun}

theorem starts {G : MachineServer} (h : G.Starts w) : VolumeInv G.boot w
    fun _ : T => ⟨false, false⟩ where
  reference := .inl h.reference
  cleared hnone v hv := by
    rw [h.reference, hv] at hnone
    exact nomatch hnone
  attached _ v hv := .inl (h.attached v hv)
  requests d hd := by
    rw [h.requests] at hd
    exact nomatch hd
  kept _ v hv := by
    rw [h.deleted] at hv
    exact nomatch hv
  gone hgone := by
    rw [h.present] at hgone
    exact nomatch hgone
  runs _ hcleared := nomatch hcleared

/-- What the runs know may change as long as it is true. -/
theorem phases (h : VolumeInv boot w ph) {ph' : T → VolumeRun}
    (hruns : ∀ t, (ph' t).cleared = true → w.reference = none) : VolumeInv boot w ph' where
  reference := h.reference
  cleared := h.cleared
  attached := h.attached
  requests := h.requests
  kept := h.kept
  gone := h.gone
  runs := hruns

/-- The accepted deletions may change as long as they are fine. -/
theorem asks (h : VolumeInv boot w ph) {requests : List Deletion}
    (hrequests : ∀ d ∈ requests, d.Fine boot w) :
    VolumeInv boot { w with requests := requests } ph where
  reference := h.reference
  cleared := h.cleared
  attached := h.attached
  requests d hd := (hrequests d hd).mono (fun h => h) fun h => h
  kept := h.kept
  gone := h.gone
  runs := h.runs

theorem accept (h : VolumeInv boot w ph) {d : Deletion} (hd : d.Fine boot w) :
    VolumeInv boot { w with requests := w.requests ++ [d] } ph := by
  refine h.asks fun d' hd' => ?_
  rcases List.mem_append.mp hd' with hd' | hd'
  · exact h.requests d' hd'
  · obtain rfl := List.mem_singleton.mp hd'
    exact hd

/-- A deletion is finished, one way or the other. -/
theorem finish (h : VolumeInv boot w ph) {before after : List Deletion} {d : Deletion}
    (heq : w.requests = before ++ d :: after) :
    d.Fine boot w ∧ VolumeInv boot { w with requests := before ++ after } ph := by
  have hmem : ∀ d', d' ∈ before ++ after → d' ∈ w.requests := by
    intro d' hd'
    rw [heq]
    rcases List.mem_append.mp hd' with hd' | hd'
    · exact List.mem_append_left _ hd'
    · exact List.mem_append_right _ (List.mem_cons_of_mem _ hd')
  have hd : d ∈ w.requests := by
    rw [heq]
    exact List.mem_append_right _ List.mem_cons_self
  exact ⟨h.requests d hd, h.asks fun d' hd' => h.requests d' (hmem d' hd')⟩

/-- The boot volume is deleted. -/
theorem executeVolume (h : VolumeInv boot w ph) {id : String} (hboot : boot = some id) :
    VolumeInv boot (Deletion.execute w (.volume id)) ph := by
  have hid : ∀ v, boot = some v → v = id := fun v hv => Option.some.inj (hv.symm.trans hboot)
  have hnone : (Deletion.execute w (.volume id)).reference = none := by
    show (if w.reference = some id then none else w.reference) = none
    rcases h.reference with href | href <;> rw [href]
    · rw [if_pos hboot]
    · rfl
  refine ⟨.inr hnone, ?_, ?_, ?_, ?_, ?_, fun _ _ => hnone⟩
  · intro _ v hv
    rw [hid v hv]
    exact List.mem_cons_self
  · intro _ v hv
    rw [hid v hv]
    exact .inr List.mem_cons_self
  · intro d hd
    exact (h.requests d hd).mono (fun h => h) fun _ => hnone
  · intro hmarked v hv
    rcases List.mem_cons.mp hv with rfl | hv
    · exact hboot
    · exact h.kept hmarked v hv
  · intro _ v hv
    rw [hid v hv]
    exact List.mem_cons_self

/-- The server is deleted: all its volumes go if the cluster does, and otherwise its boot volume
was gone before. -/
theorem executeServer (h : VolumeInv boot w ph) {deleteVolumes : Bool}
    (hfine : (Deletion.server deleteVolumes).Fine boot w) :
    VolumeInv boot (Deletion.execute w (.server deleteVolumes)) ph := by
  have hdeleted : ∀ v ∈ w.deleted,
      v ∈ (Deletion.execute w (.server deleteVolumes)).deleted := by
    intro v hv
    cases deleteVolumes with
    | true => exact List.mem_append_right _ hv
    | false => exact hv
  refine ⟨h.reference, fun hnone v hv => hdeleted v (h.cleared hnone v hv), ?_, ?_, ?_, ?_, h.runs⟩
  · exact fun hpresent => nomatch hpresent
  · intro d hd
    exact (h.requests d hd).mono (fun h => h) fun h => h
  · intro hmarked v hv
    cases deleteVolumes with
    | true =>
      have hmark : w.marked = true := hfine
      rw [show w.marked = false from hmarked] at hmark
      exact nomatch hmark
    | false => exact h.kept hmarked v hv
  · intro _ v hv
    by_cases hpresent : w.present = true
    · rcases h.attached hpresent v hv with hattached | hgone
      · cases deleteVolumes with
        | true => exact List.mem_append_left _ hattached
        | false => exact h.cleared hfine v hv
      · exact hdeleted v hgone
    · exact hdeleted v (h.gone (by simpa using hpresent) v hv)

/-- The cloud moves. -/
theorem moves {G : MachineServer} (h : VolumeInv G.boot w ph) {w' : VolumeWorld}
    (hmoves : G.Moves w w') : VolumeInv G.boot w' ph := by
  cases hmoves with
  | mark =>
    refine ⟨h.reference, h.cleared, h.attached, fun d hd => ?_, fun hmarked => (nomatch hmarked),
      h.gone, h.runs⟩
    exact (h.requests d hd).mono (fun _ => rfl) fun h => h
  | attach attached hpresent hboot =>
    refine ⟨h.reference, h.cleared, fun _ v hv => ?_, fun d hd => ?_, h.kept, h.gone, h.runs⟩
    · exact (h.attached hpresent v hv).imp_left (hboot v hv).mpr
    · exact (h.requests d hd).mono (fun h => h) fun h => h
  | failed before after d heq => exact (h.finish heq).2
  | done before after d heq =>
    obtain ⟨hfine, h'⟩ := h.finish heq
    cases d with
    | volume id => exact h'.executeVolume hfine
    | server deleteVolumes => exact h'.executeServer (hfine.mono (fun h => h) fun h => h)

/-- A run gets an answer. -/
theorem answer [DecidableEq T] {G : MachineServer} (h : VolumeInv G.boot w ph) (t : T) {c : Call}
    {a : Call.Ans c} (ha : G.Answers w c a) :
    VolumeInv G.boot w (update ph t (G.next (ph t) c a)) := by
  refine h.phases fun u hu => ?_
  by_cases hut : u = t
  · rw [hut, Function.update_self] at hu
    rcases Bool.or_eq_true_iff.mp hu with hcleared | hseen
    · exact h.runs t hcleared
    · obtain ⟨server, hmem, hnone⟩ := List.any_eq_true.mp hseen
      have hnone : bootVolume server = none := of_decide_eq_true hnone
      -- a server that never had a boot volume has none now
      rcases (ha server hmem).2 with hshown | hshown
      · exact hshown.symm.trans hnone
      · rcases h.reference with href | href
        · exact href.trans (hshown.symm.trans hnone)
        · exact href
  · rw [Function.update_of_ne hut] at hu
    exact h.runs u hu

end VolumeInv

/-! ## The runs -/

namespace MachineServer

variable {G : MachineServer} {ms : MachineScope} {q : VolumeRun} {s : MachineVars}

abbrev monitor (G : MachineServer) : Monitor Call Call.Ans :=
  ⟨VolumeRun, G.Ok, fun _ => G.Adm, G.next, fun _ => True⟩

/-- A run that takes the cluster for what its scope says. -/
def Runs (G : MachineServer) (ms : MachineScope) (q : VolumeRun) (s : MachineVars) : Prop :=
  q.marked = ms.clusterScope.isDeleted ∧ G.Owns s.providerID

/-- The server was found as it is, or was. -/
structure Found (G : MachineServer) (ms : MachineScope) (q : VolumeRun) (server : Server)
    (s : MachineVars) : Prop where
  runs : G.Runs ms q s
  boot : ∀ v, bootVolume server = some v → G.boot = some v
  cleared : bootVolume server = none → q.cleared = true

theorem found_of_shown {c : Call} {a : Call.Ans c} (ha : G.Adm c a) {server : Server}
    (hmem : server ∈ G.shown c a) (hq : G.Runs ms (G.next q c a) s) :
    G.Found ms (G.next q c a) server s where
  runs := hq
  boot := (ha server hmem).2
  cleared hnone := by
    refine Bool.or_eq_true_iff.mpr (.inr (List.any_eq_true.mpr ⟨server, hmem, ?_⟩))
    exact decide_eq_true hnone

theorem run_getServer (hms : G.IsMachine ms) (hq : G.Runs ms q s) :
    (getServer ms).wp G.monitor (fun q' r s' =>
      (∀ server, r = .ok (some server) → G.Found ms q' server s') ∧
      ((∀ server, r ≠ .ok (some server)) → G.Runs ms q' s')) q s := by
  refine wp_getServer_found (M := G.monitor) (G.Runs ms) (G.Found ms) hq ?_ (fun _ => trivial)
    (fun _ _ _ => hq) ?_ (fun _ _ => trivial) fun _ _ h _ => h
  · intro id hid hne server ha
    have hown : id = G.serverID := by
      rw [hid]
      exact hq.2.resolve_left (hid ▸ hne)
    refine found_of_shown ha ?_ hq
    rw [shown, if_pos ⟨hms.datacenterID, hown⟩]
    exact List.mem_singleton_self _
  · intro q items hq ha
    refine ⟨fun server hfound => ?_, fun _ => hq, trivial⟩
    obtain ⟨properties, hproperties, hname⟩ := findServer_name hfound
    have hmem : server ∈ G.shown (.serversGet ms.datacenterID) (.ok items) := by
      rw [shown, if_pos hms.datacenterID]
      refine List.mem_filter.mpr ⟨findServer_mem hfound, decide_eq_true ?_⟩
      rw [nameOf, hproperties, ← hms.name]
      exact hname
    refine found_of_shown ha hmem ⟨hq.1, .inr ?_⟩
    rw [(ha server hmem).1]
    exact extractServerID_append _

/-- `deleteServer` deletes the boot volume, or the server. -/
theorem run_deleteServer {server : Server} (hfound : G.Found ms q server s) :
    (deleteServer ms server).wp G.monitor (fun _ _ _ => True) q s := by
  unfold deleteServer Client.deleteVolume Client.deleteServer
  dsimp only
  split
  next v hboot hdeleted =>
    refine (wp_bind _ _).mpr (Client.wp_withParams (fun _ _ _ => (wp_pure _).mpr trivial) ?_)
    refine (wp_bind _ _).mpr ((wp_perform _).mpr ⟨hfound.boot v hboot, fun a _ => ?_⟩)
    refine (wp_pure _).mpr ?_
    cases Client.located a with
    | error e => exact (wp_pure _).mpr trivial
    | ok location => exact (wp_bind _ _).mpr ((wp_assign _).mpr ((wp_pure _).mpr trivial))
  next hother =>
    have hok : G.Ok q (.serversDelete ms.datacenterID (deref server.id "")
        ms.clusterScope.isDeleted) := by
      unfold Ok
      dsimp only
      split
      next hdeleted => exact hfound.runs.1.trans hdeleted
      next hdeleted =>
        refine hfound.cleared ?_
        cases hboot : bootVolume server with
        | none => rfl
        | some v => exact absurd (Bool.eq_false_iff.mpr hdeleted) (hother v hboot)
    refine (wp_bind _ _).mpr (Client.wp_withParams (fun _ _ _ => (wp_pure _).mpr trivial) ?_)
    refine (wp_bind _ _).mpr ((wp_perform _).mpr ⟨hok, fun a _ => ?_⟩)
    refine (wp_pure _).mpr ?_
    cases Client.located a with
    | error e => exact (wp_pure _).mpr trivial
    | ok location => exact (wp_bind _ _).mpr ((wp_assign _).mpr ((wp_pure _).mpr trivial))

/-- Asking for requests does not tell anything about the server. -/
theorem run_requests {α : Type} {p : MachineM α} {I : VolumeRun → MachineVars → Prop}
    (hp : Within (fun c => ∃ method url, c = .requestsGet method url) id p) (hq : I q s) :
    p.wp G.monitor (fun q' _ s' => I q' s') q s := by
  refine wp_mono (hp.wp_inv (M := G.monitor) (fun q' => q' = q) ?_ (fun _ _ => trivial) rfl) ?_
  · rintro q' c rfl ⟨method, url, rfl⟩
    exact ⟨trivial, fun _ _ => by simp [next, shown]⟩
  · rintro q' _ s' ⟨rfl, hs⟩
    rwa [show s' = s from hs]

theorem run_foundServerDeletion {server : Server} (hfound : G.Found ms q server s) :
    (reconcileFoundServerDeletion ms server).wp G.monitor (fun _ _ _ => True) q s := by
  have hdelete : ∀ {q s}, G.Found ms q server s →
      (requestServerDeletion ms server).wp G.monitor (fun _ _ _ => True) q s := by
    intro q s hfound
    refine (wp_bind _ _).mpr (wp_mono (run_deleteServer hfound) fun _ r _ _ => ?_)
    cases r <;> exact (wp_pure _).mpr trivial
  unfold reconcileFoundServerDeletion
  split
  next => exact (wp_panicking _).mpr trivial
  next id _ =>
    have hask : (getLatestServerDeletionRequest ms.datacenterID id).wp G.monitor
        (fun q' _ s' => G.Found ms q' server s') q s :=
      run_requests (I := fun q' s' => G.Found ms q' server s')
        (within_getMatchingRequest fun _ => ⟨_, _, rfl⟩) hfound
    refine (wp_bind _ _).mpr (wp_mono hask fun q₁ r s₁ hfound₁ => ?_)
    match r with
    | .error e => exact (wp_pure _).mpr trivial
    | .ok none => exact hdelete hfound₁
    | .ok (some request) =>
      dsimp only
      rw [wp_ite, wp_ite]
      split
      next => exact (wp_bind _ _).mpr ((wp_assign _).mpr ((wp_pure _).mpr trivial))
      next =>
        split
        next => exact (wp_bind _ _).mpr ((wp_assign _).mpr ((wp_pure _).mpr trivial))
        next => exact hdelete hfound₁

/-- A run of `ReconcileServerDeletion` asks only for what it may. -/
theorem run_serverDeletion (hms : G.IsMachine ms) (hq : G.Runs ms q s) :
    (reconcileServerDeletion ms).wp G.monitor (fun _ _ _ => True) q s := by
  unfold reconcileServerDeletion getLatestServerCreationRequest
  refine (wp_bind _ _).mpr (wp_mono (wp_findResource_found (M := G.monitor) (G.Runs ms)
    (G.Found ms) hq ?_ ?_) fun q₁ r s₁ h => ?_)
  · intro q s hq
    exact run_getServer hms hq
  · intro q s hq
    exact run_requests (within_getMatchingRequest fun _ => ⟨_, _, rfl⟩) hq
  · match r with
    | .error e => exact (wp_pure _).mpr trivial
    | .ok (server, request) =>
      dsimp only
      split
      next => exact (wp_bind _ _).mpr ((wp_assign _).mpr ((wp_pure _).mpr trivial))
      next => exact (wp_bind _ _).mpr ((wp_assign _).mpr ((wp_pure _).mpr trivial))
      next server _ => exact run_foundServerDeletion (h.1 server request rfl).1

theorem run_job {p : Prog Call Call.Ans Unit} (h : G.Job q p) :
    p.wp G.monitor (fun _ _ => True) q := by
  obtain ⟨ms, s, hms, hs, rfl, rfl⟩ := h
  have hq : G.Runs ms ⟨ms.clusterScope.isDeleted, false⟩ s := ⟨rfl, hs⟩
  exact wp_forget (run_serverDeletion hms hq) fun _ _ => trivial

variable {T : Type} [DecidableEq T]

/-- The discipline of the runs. -/
def discipline (G : MachineServer) (T : Type) [DecidableEq T] : (G.system T).Discipline where
  ok := G.Ok
  adm _ := G.Adm

omit [DecidableEq T] in
/-- What a run that keeps to the discipline asks for is fine. -/
theorem accepted_fine {w w' : VolumeWorld} {ph : T → VolumeRun} {t : T} {c : Call}
    (h : VolumeInv G.boot w ph) (hok : G.Ok (ph t) c)
    (hmarked : (ph t).marked = true → w.marked = true) (haccepts : G.Accepts w c w') :
    w' = w ∨ ∃ d : Deletion, d.Fine G.boot w ∧ w' = { w with requests := w.requests ++ [d] } := by
  cases c with
  | volumesDelete dc id =>
    rcases haccepts with heq | ⟨_, heq⟩
    · exact .inl heq
    · exact .inr ⟨.volume id, hok, heq⟩
  | serversDelete dc id deleteVolumes =>
    rcases haccepts with heq | ⟨_, _, heq⟩
    · exact .inl heq
    · refine .inr ⟨.server deleteVolumes, ?_, heq⟩
      cases deleteVolumes with
      | true => exact hmarked hok
      | false => exact h.runs t hok
  | _ => exact .inl haccepts

theorem sound (G : MachineServer) :
    (G.system T).Sound (fun _ _ _ => True) (G.discipline T) (VolumeInv G.boot) where
  answers hI hexec _ server hmem := by
    obtain ⟨hid, hboot⟩ := hexec.2.1 server hmem
    refine ⟨hid, fun v hv => ?_⟩
    rw [hv] at hboot
    rcases hboot with hshown | hshown
    · rcases hI.reference with href | href
      · exact (hshown.trans href).symm
      · exact nomatch hshown.trans href
    · exact hshown.symm
  jobs := run_job
  idle := trivial
  call := by
    intro w ph t c a w' hI hok hexec _
    have hanswer := hI.answer t hexec.2.1
    rcases accepted_fine hI hok hexec.1 hexec.2.2 with heq | ⟨d, hfine, heq⟩
    · rw [heq]
      exact hanswer
    · rw [heq]
      exact hanswer.accept hfine
  start := by
    rintro w ph t _ _ hI - ⟨ms, s, _, _, rfl, rfl⟩
    refine hI.phases fun u hu => ?_
    by_cases hut : u = t
    · rw [hut, Function.update_self] at hu
      exact nomatch hu
    · rw [Function.update_of_ne hut] at hu
      exact hI.runs u hu
  env hI henv _ := hI.moves henv
  crash hI hcrash := by
    rw [hcrash]
    exact hI.phases fun _ hcleared => nomatch hcleared

end MachineServer

/-- As long as the cluster is not marked as deleted, no volume but the boot volume is deleted; and
when the server is deleted, its boot volume is gone. -/
theorem volumes_accounted (G : MachineServer) (T : Type) [DecidableEq T] (w : VolumeWorld)
    (hw : G.Starts w) (s : (G.system T).Conf) (hs : (G.system T).Reach (fun _ _ _ => True) w s) :
    (s.world.marked = false → ∀ v ∈ s.world.deleted, G.boot = some v) ∧
      (s.world.present = false → ∀ v, G.boot = some v → v ∈ s.world.deleted) := by
  have hI := ((MachineServer.sound G).reach (.starts hw) hs).1
  exact ⟨hI.kept, hI.gone⟩

/-! ### A machine that is replaced -/

def replaced : MachineScope := { plainMachine with name := "m" }

def replacedServer : MachineServer := ⟨"dc", "m", "id", some "boot"⟩

/-- The server is listed with its boot volume. -/
def replacedAnswers (reference : Option String) : ∀ c : Call, Call.Ans c
  | .serversGet _ => .ok (some [⟨some "id", none, some ⟨some "m", none, reference⟩, none⟩])
  | .serversFindById _ _ => .ok ⟨some "id", none, some ⟨some "m", none, reference⟩, none⟩
  | c => Call.plain c

/-- Every deletion is accepted. -/
def replacedEffect (_ : VolumeRun) (w : VolumeWorld) : Call → VolumeWorld
  | .volumesDelete dc id =>
    if dc = "dc" then { w with requests := w.requests ++ [.volume id] } else w
  | .serversDelete dc id deleteVolumes =>
    if dc = "dc" ∧ id = "id" then { w with requests := w.requests ++ [.server deleteVolumes] }
    else w
  | _ => w

theorem replacedAnswers_shown (reference : Option String) (c : Call) :
    ∀ server ∈ replacedServer.shown c (replacedAnswers reference c),
      server.id = some "id" ∧ bootVolume server = reference := by
  intro server hserver
  cases c with
  | serversGet dc =>
    unfold MachineServer.shown replacedAnswers at hserver
    dsimp only at hserver
    split at hserver
    next =>
      obtain rfl := List.mem_singleton.mp (List.mem_of_mem_filter hserver)
      exact ⟨rfl, rfl⟩
    next => exact nomatch hserver
  | serversFindById dc id =>
    unfold MachineServer.shown replacedAnswers at hserver
    dsimp only at hserver
    split at hserver
    next =>
      obtain rfl := List.mem_singleton.mp hserver
      exact ⟨rfl, rfl⟩
    next => exact nomatch hserver
  | _ => exact nomatch hserver

theorem replacedEffect_accepts (q : VolumeRun) (w : VolumeWorld) (c : Call) :
    replacedServer.Accepts w c (replacedEffect q w c) ∧
      (replacedEffect q w c).reference = w.reference := by
  cases c with
  | volumesDelete dc id =>
    unfold replacedEffect MachineServer.Accepts
    dsimp only
    split
    next hdc => exact ⟨.inr ⟨hdc, rfl⟩, rfl⟩
    next => exact ⟨.inl rfl, rfl⟩
  | serversDelete dc id deleteVolumes =>
    unfold replacedEffect MachineServer.Accepts
    dsimp only
    split
    next h => exact ⟨.inr ⟨h.1, h.2, rfl⟩, rfl⟩
    next => exact ⟨.inl rfl, rfl⟩
  | _ => exact ⟨rfl, rfl⟩

/-- Where a run ends. -/
def replacedEnd (w : VolumeWorld) : Prog Call Call.Ans Unit × VolumeRun × VolumeWorld :=
  (replacedServer.system Unit).play (replacedAnswers w.reference) replacedEffect 20
    ((reconcileServerDeletion replaced default).forget, ⟨false, false⟩, w)

theorem replaced_round {w₀ w : VolumeWorld} (w' : VolumeWorld) {ph : Unit → VolumeRun}
    (h : (replacedServer.system Unit).Reach (fun _ _ _ => True) w₀ ⟨w, fun _ => .ret (), ph⟩)
    (hret : (replacedEnd w).1.next?.isNone = true) (hworld : (replacedEnd w).2.2 = w') :
    ∃ ph', (replacedServer.system Unit).Reach (fun _ _ _ => True) w₀
      ⟨w', fun _ => .ret (), ph'⟩ := by
  have hjob : replacedServer.Job ⟨false, false⟩ (reconcileServerDeletion replaced default).forget :=
    ⟨replaced, default, ⟨rfl, rfl⟩, .inl (by decide), rfl, rfl⟩
  have hexec : ∀ (q : VolumeRun) (w' : VolumeWorld) (c : Call),
      q.marked = false ∧ w'.reference = w.reference →
      ((q.marked = true → w'.marked = true) ∧
        replacedServer.Answers w' c (replacedAnswers w.reference c) ∧
        replacedServer.Accepts w' c (replacedEffect q w' c)) ∧
      (replacedServer.next q c (replacedAnswers w.reference c)).marked = false ∧
        (replacedEffect q w' c).reference = w.reference := by
    intro q w' c ⟨hmarked, href⟩
    obtain ⟨haccepts, hsame⟩ := replacedEffect_accepts q w' c
    refine ⟨⟨fun h => ?_, fun server hserver => ?_, haccepts⟩, hmarked, hsame.trans href⟩
    · rw [hmarked] at h
      exact nomatch h
    · obtain ⟨hid, hboot⟩ := replacedAnswers_shown w.reference c server hserver
      exact ⟨hid, .inl (hboot.trans href.symm)⟩
  have hend : (replacedServer.system Unit).play (replacedAnswers w.reference) replacedEffect 20
      ((reconcileServerDeletion replaced default).forget, ⟨false, false⟩, w) = replacedEnd w := rfl
  have hstart := h.start () rfl hjob trivial
  have hfinish := hstart.finish (replacedAnswers w.reference) replacedEffect
    (fun (q : VolumeRun) (w' : VolumeWorld) => q.marked = false ∧ w'.reference = w.reference) hexec
    (fun _ _ _ _ => trivial) 20 ⟨rfl, rfl⟩
  have hreach := (hfinish (replacedEnd w) hend hret).1
  have hidle : update (fun _ : Unit => (Prog.ret () : Prog Call Call.Ans Unit)) () (.ret ()) =
      fun _ => .ret () := funext fun _ => rfl
  rw [hworld, hidle] at hreach
  exact ⟨_, hreach⟩

/-- The boot volume is deleted, then the server; the other volume stays. -/
theorem volumes_accounted_run : ∃ s, (replacedServer.system Unit).Reach (fun _ _ _ => True)
    ⟨true, some "boot", ["boot", "data"], [], false, []⟩ s ∧
      s.world = ⟨false, none, [], ["boot"], false, []⟩ ∧
      (∀ v ∈ s.world.deleted, replacedServer.boot = some v) ∧
      ∀ v, replacedServer.boot = some v → v ∈ s.world.deleted := by
  have hstarts : replacedServer.Starts ⟨true, some "boot", ["boot", "data"], [], false, []⟩ := by
    refine ⟨rfl, rfl, fun v hv => ?_, rfl, rfl⟩
    obtain rfl := Option.some.inj hv
    exact List.mem_cons_self
  have hboot : replacedServer.Moves
      ⟨true, some "boot", ["boot", "data"], [], false, [.volume "boot"]⟩
      ⟨true, none, ["data"], ["boot"], false, []⟩ := .done [] [] (.volume "boot") rfl
  have hserver : replacedServer.Moves ⟨true, none, ["data"], ["boot"], false, [.server false]⟩
      ⟨false, none, [], ["boot"], false, []⟩ := .done [] [] (.server false) rfl
  obtain ⟨_, h₁⟩ := replaced_round
    ⟨true, some "boot", ["boot", "data"], [], false, [.volume "boot"]⟩
    (.init : (replacedServer.system Unit).Reach (fun _ _ _ => True)
      ⟨true, some "boot", ["boot", "data"], [], false, []⟩ _) (by decide +kernel)
    (by decide +kernel)
  obtain ⟨_, h₂⟩ := replaced_round ⟨true, none, ["data"], ["boot"], false, [.server false]⟩
    (h₁.env hboot trivial) (by decide +kernel) (by decide +kernel)
  have h₃ := h₂.env hserver trivial
  obtain ⟨hkept, hgone⟩ := volumes_accounted replacedServer Unit _ hstarts _ h₃
  exact ⟨_, h₃, rfl, hkept rfl, hgone rfl⟩

end Capic.Properties
