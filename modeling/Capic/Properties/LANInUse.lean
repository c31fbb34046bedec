import Capic.Controller.Frame
import Capic.Effect.Threads
import Capic.Properties.CreateOnce
import Capic.Properties.Deadlock

/-!
# Servers on a LAN that goes away

The machines of a cluster in a data center share a LAN. `ReconcileLAN` waits until it is available,
and `ReconcileLANDeletion` requests its deletion when nothing is attached to it, both under the lock
of the LAN. The LAN is used two steps after `ReconcileLAN`, by `createServer`, which looks it up once
more: without the lock, and whatever its state.

`system` has any number of runs of machines of one cluster in one data center, the locks, and the
LANs of the data center. LANs come and go between any two calls, and the number of one that is gone
may be given to another one. Which deletions the provider has requested is kept for good.

- `Run.Finds`: the LANs that a run may put its server on, from where `ReconcileLAN` has found the LAN
  to the request for the server;
- `Careful`: no LAN is shown as available after its deletion was requested, and no deletion is
  requested of a LAN that some run may put its server on, whether the LAN is still there or not;
- `server_on_kept_lan`: as long as all steps are careful, a server is only asked for on a LAN whose
  deletion was not requested;
- `server_on_deleted_lan`: a run of two machines that is not, and in which the server of one of them
  is asked for on the LAN whose deletion the other one has requested.

What carries the proof is that a lookup by name, or by ID, leads to a LAN that `ReconcileLAN` has seen
or to one that did not exist then (`Run.finds_listed`).
-/

namespace Capic.Properties.LANInUse

open Effect Effect.Go Cloud Controller Controller.Machine
open Function (update)

/-! ## The LANs of a data center -/

/-- The LANs of a data center. A LAN is known by its number and by how many LANs have had the number
so far. -/
structure LANs where
  /-- The name of the LAN that has the number now, if there is one. -/
  name : Int → Option (Option String)
  /-- How many LANs have had the number. -/
  turn : Int → Nat
  /-- The provider has requested the deletion of the LAN that had the number at this turn. -/
  requested : Int → Nat → Bool
  /-- No deletion was requested of a LAN that is yet to come. -/
  past : ∀ n i, requested n i = true → i ≤ turn n

namespace LANs

variable (lans : LANs)

/-- The deletion was requested of the LAN that has the number, or that had it last. -/
def deleting (n : Int) : Bool := lans.requested n (lans.turn n)

/-- A LAN comes into being. -/
def create (n : Int) (name : Option String) : LANs where
  name := update lans.name n (some name)
  turn := update lans.turn n (lans.turn n + 1)
  requested := lans.requested
  past := by
    intro m i h
    have hle := lans.past m i h
    by_cases hm : m = n
    · rw [hm] at hle ⊢
      rw [Function.update_self]
      exact Nat.le_succ_of_le hle
    · rw [Function.update_of_ne hm]
      exact hle

/-- A LAN is gone. -/
def remove (n : Int) : LANs := { lans with name := update lans.name n none }

/-- The deletion of a LAN is requested. -/
def request (n : Int) : LANs where
  name := lans.name
  turn := lans.turn
  requested m i := decide (m = n ∧ i = lans.turn n) || lans.requested m i
  past := by
    intro m i h
    rcases (Bool.or_eq_true _ _).mp h with h | h
    · obtain ⟨rfl, rfl⟩ := of_decide_eq_true h
      exact Nat.le_refl _
    · exact lans.past m i h

/-- The same by the ID that a call has, whatever the answer and whether the LAN is still there. -/
def requestDeletion (id : String) : LANs :=
  match Text.parseInt32 id with
  | .ok n => lans.request n
  | .error _ => lans

variable {lans}

/-- A LAN that has just come into being is not being deleted. -/
theorem deleting_create (n : Int) (name : Option String) : (lans.create n name).deleting n = false := by
  refine Bool.eq_false_iff.mpr fun h => ?_
  have hle := lans.past n _ h
  rw [show (lans.create n name).turn n = lans.turn n + 1 from Function.update_self ..] at hle
  exact Nat.not_succ_le_self _ hle

theorem deleting_create_of_ne {m n : Int} (h : m ≠ n) (name : Option String) :
    (lans.create n name).deleting m = lans.deleting m :=
  congrArg (lans.requested m) (Function.update_of_ne h ..)

theorem deleting_request_of_ne {m n : Int} (h : m ≠ n) :
    (lans.request n).deleting m = lans.deleting m := by
  simp [deleting, request, h]

end LANs

/-- The locks, and the LANs. -/
structure World (T : Type) where
  owner : Owners T String
  lans : LANs

/-- What a call does to the LANs. A LAN that is asked for comes into being later. -/
def afterCall (lans : LANs) : Call → LANs
  | .lansDelete _ id => lans.requestDeletion id
  | _ => lans

/-- The list has the LANs that there are, under their names. -/
structure Lists (lans : LANs) (list : List Lan) : Prop where
  complete : ∀ n name, lans.name n = some name →
    ∃ l ∈ list, ∃ id, l.id = some id ∧ Text.parseInt32 id = .ok n ∧ l.name = name
  sound : ∀ l ∈ list, ∀ id n, l.id = some id → Text.parseInt32 id = .ok n →
    lans.name n = some l.name

/-- The answer of a call is current. -/
def Shows (lans : LANs) : (c : Call) → Call.Ans c → Prop
  | .lansGet _, .ok (some list) => Lists lans list
  | _, _ => True

/-- A LAN comes into being under a number that is free, or is gone. -/
inductive Moves (lans : LANs) : LANs → Prop where
  | created (n : Int) (name : Option String) : lans.name n = none → Moves lans (lans.create n name)
  | gone (n : Int) : Moves lans (lans.remove n)

/-! ## Runs -/

/-- How far a run has got: `ReconcileLAN` has not found the LAN available, it has, or `createServer`
has looked the LAN up as well. -/
inductive Stage where
  | out
  | ready
  | used (lan : Lan)

/-- A run for a machine. -/
structure Run where
  ms : MachineScope
  stage : Stage

/-- The run is given the list of LANs. -/
def Run.listed (q : Run) (lans : List Lan) : Run :=
  match q.stage, findLAN q.ms.spec.networkID (lanName q.ms.clusterScope) 0 none lans with
  | .out, .ok (some lan) =>
    if q.ms.deleted = false ∧ isAvailable (getState lan.state) = true then ⟨q.ms, .ready⟩ else q
  | .ready, .ok (some lan) => ⟨q.ms, .used lan⟩
  | _, _ => q

/-- A call of the run is answered. With the server asked for, or the machine stored in the end, the
run is done with the LAN. -/
def Run.next (q : Run) : (c : Call) → Call.Ans c → Run
  | .lansGet _, .ok (some lans) => q.listed lans
  | .serversPost _ _, _ | .patchMachine _, _ => ⟨q.ms, .out⟩
  | _, _ => q

/-- The run may put its server on the LAN with this number. -/
def Run.Finds (q : Run) (lans : LANs) (n : Int) : Prop :=
  match q.stage with
  | .out => False
  | .ready => (∀ id, q.ms.spec.networkID = some id → Text.parseInt32 id = .ok n) ∧
    (q.ms.spec.networkID = none → lans.name n = some (some (lanName q.ms.clusterScope)))
  | .used lan => ∃ id, lan.id = some id ∧ Text.parseInt32 id = .ok n

/-- The runs of machines that share the LAN of `ms₀`. -/
@[reducible] def system (T : Type) [DecidableEq T] (ms₀ : MachineScope) :
    System T Call Call.Ans where
  World := World T
  Phase := Run
  idle := ⟨ms₀, .out⟩
  next := Run.next
  exec t _ w c a w' :=
    Locks t w.owner c a w'.owner ∧ Shows w.lans c a ∧ w'.lans = afterCall w.lans c
  env w w' := w'.owner = w.owner ∧ Moves w.lans w'.lans
  crash w w' := w' = ⟨fun _ => none, w.lans⟩
  job _ q p := ∃ ms s, SharesLAN ms ms₀ ∧ q = ⟨ms, .out⟩ ∧ p = (reconcile ms s).forget

/-- No LAN is shown as available whose deletion was requested. -/
def ShowsDeletion (lans : LANs) (list : List Lan) : Prop :=
  ∀ l ∈ list, isAvailable (getState l.state) = true → ∀ id n, l.id = some id →
    Text.parseInt32 id = .ok n → lans.deleting n = false

/-- The step is careful (module doc). -/
def Careful {T : Type} (w : World T) (ph : T → Run) : System.Label T Call Call.Ans → Prop
  | .call _ ⟨.lansGet _, .ok (some list)⟩ => ShowsDeletion w.lans list
  | .call _ ⟨.lansDelete _ id, _⟩ => ∀ n, Text.parseInt32 id = .ok n → ∀ u, ¬ (ph u).Finds w.lans n
  | _ => True

/-- A server is asked for with its first NIC on the LAN that was looked up. -/
def Ok (q : Run) : Call → Prop
  | .serversPost _ server => ∃ lan id nic nics, q.stage = .used lan ∧ lan.id = some id ∧
      server.nics = nic :: nics ∧ Text.parseInt32 id = .ok nic.lan
  | _ => True

/-! ## What one run does -/

/-- The runs as a monitor. -/
def monitor : Monitor Call Call.Ans := ⟨Run, Ok, fun _ _ _ => True, Run.next, fun _ => True⟩

/-- Calls that leave the run where it is. -/
def Quiet : Call → Prop
  | .lansGet _ | .serversPost _ _ | .patchMachine _ => False
  | _ => True

theorem quiet_of {E : Call → Prop} {c : Call} (hc : E c) (hlans : ∀ dc, ¬ E (.lansGet dc))
    (hserver : ∀ dc server, ¬ E (.serversPost dc server)) (hpatch : ∀ obj, ¬ E (.patchMachine obj)) :
    Quiet c := by
  cases c with
  | lansGet dc => exact hlans dc hc
  | serversPost dc server => exact hserver dc server hc
  | patchMachine obj => exact hpatch obj hc
  | _ => trivial

theorem quiet_next {q : Run} {c : Call} (h : Quiet c) :
    Ok q c ∧ ∀ a : Call.Ans c, True → q.next c a = q := by
  cases c with
  | lansGet dc => exact h.elim
  | serversPost dc server => exact h.elim
  | patchMachine obj => exact h.elim
  | _ => exact ⟨trivial, fun _ _ => rfl⟩

/-- Calls that ask for no server are always allowed. -/
theorem ok_of_ne {q : Run} {c : Call} (h : ∀ dc server, c ≠ .serversPost dc server) : Ok q c := by
  cases c with
  | serversPost dc server => exact absurd rfl (h dc server)
  | _ => trivial

section

variable {ms : MachineScope} {s : MachineVars}

/-- The first NIC of a server is on the LAN it is built with. -/
theorem buildNICs_head {info : Option (List NICInfo)} {n : Int} {nics : List NicPost}
    (h : buildNICs ms info n = .val nics) : ∃ nic rest, nics = nic :: rest ∧ nic.lan = n := by
  unfold buildNICs at h
  split at h
  next => exact nomatch h
  next =>
    split at h
    next => exact nomatch h
    next =>
      obtain rfl := Res.val.inj h
      exact ⟨_, _, rfl, rfl⟩

/-- `ReconcileLAN` is done only if it has found the LAN available. -/
theorem reconcileLANLocked_ready (hms : ms.deleted = false) :
    (reconcileLANLocked ms).wp monitor (fun q r _ => r = (false, none) → q = ⟨ms, .ready⟩)
      ⟨ms, .out⟩ s := by
  unfold reconcileLANLocked getLatestLANCreationRequest
  refine (wp_bind _ _).mpr (wp_mono (wp_findResource_found (M := monitor)
    (fun q _ => q = ⟨ms, .out⟩)
    (fun q lan _ => isAvailable (getState lan.state) = true → q = ⟨ms, .ready⟩) rfl ?_ ?_)
    fun q₁ r s₁ h₁ => ?_)
  · intro q s hq
    obtain rfl := hq
    refine wp_getLAN (fun e _ => ⟨fun _ heq => (nomatch heq), fun _ => rfl⟩) trivial
      (fun e e' _ _ => ⟨fun _ heq => (nomatch heq), fun _ => rfl⟩) (fun lans _ => ?_) fun _ => trivial
    constructor
    · intro lan hlan havailable
      show Run.listed ⟨ms, .out⟩ lans = ⟨ms, .ready⟩
      simp only [Run.listed, hlan, hms, havailable, and_self, if_true]
    · intro hnone
      show Run.listed ⟨ms, .out⟩ lans = ⟨ms, .out⟩
      unfold Run.listed
      split
      next lan _ hlan => exact absurd hlan (hnone lan)
      next heq _ => exact nomatch heq
      next => rfl
  · intro q s hq
    obtain rfl := hq
    have hask : Within Quiet (fun _ => ())
        (getMatchingRequest .lan .post (lansURL ms.datacenterID)
          [matchByName (lanName ms.clusterScope)] : MachineM _) :=
      within_getMatchingRequest fun _ => trivial
    exact wp_mono (hask.wp (M := monitor) (fun _ hc => quiet_next hc) trivial) fun _ _ _ h => h.1
  · match r with
    | .error e => exact (wp_pure _).mpr fun heq => nomatch heq
    | .ok (lan, request) =>
      dsimp only
      rw [wp_ite]
      split
      next => exact (wp_pure _).mpr fun heq => nomatch heq
      next =>
        cases lan with
        | some lan =>
          refine (wp_pure _).mpr fun heq => (h₁.1 lan request rfl).1 ?_
          simpa using congrArg Prod.fst heq
        | none =>
          have hcreate : Within ReconcilingLAN (fun _ => ()) (createLAN ms) :=
            within_createLAN (fun _ _ _ => rfl) (fun _ _ => trivial) (fun _ => trivial)
              (fun _ => trivial) fun _ => trivial
          refine (wp_bind _ _).mpr (wp_mono (hcreate.wp_of_ok (M := monitor) (fun q c hc =>
            ok_of_ne fun dc server heq => ?_) fun _ => trivial) fun _ r _ _ => ?_)
          · subst heq
            exact hc
          · cases r <;> exact (wp_pure _).mpr fun heq => nomatch heq

theorem reconcileLAN_ready (hms : ms.deleted = false) :
    (reconcileLAN ms).wp monitor (fun q r _ => r = (false, none) → q = ⟨ms, .ready⟩)
      ⟨ms, .out⟩ s :=
  wp_locked trivial (fun _ _ => ⟨trivial, fun _ => trivial⟩) (fun _ _ heq => nomatch heq)
    fun _ => wp_mono (reconcileLANLocked_ready hms) fun _ _ _ h => ⟨trivial, fun _ => h⟩

/-- From there on, `createServer` asks for a server on the LAN that it looks up. -/
theorem createServer_used (secret : Secret) :
    (createServer secret ms).wp monitor (fun _ _ _ => True) ⟨ms, .ready⟩ s := by
  refine wp_createServer (M := monitor) (fun _ => trivial)
    unit_frame
    (fun n q _ => ∃ lan id, q = ⟨ms, .used lan⟩ ∧ lan.id = some id ∧ Text.parseInt32 id = .ok n)
    trivial ?_ ?_ ?_ secret
  · intro lans lan n _ hlan hn
    refine ⟨lan, ?_⟩
    have hlisted : Run.listed ⟨ms, .ready⟩ lans = ⟨ms, .used lan⟩ := by
      simp only [Run.listed, hlan]
    cases hid : lan.id with
    | none =>
      rw [hid] at hn
      exact nomatch hn
    | some id =>
      rw [hid] at hn
      exact ⟨id, hlisted, rfl, hn⟩
  · intro n q _ c hq hc
    have hquiet : Quiet c := quiet_of hc (fun _ h => h) (fun _ _ h => h) fun _ h => h
    refine ⟨(quiet_next hquiet).1, fun a _ => ?_⟩
    rw [show monitor.next q c a = q from (quiet_next hquiet).2 a trivial]
    exact hq
  · intro n q s nics bootVolume hq hnics
    obtain ⟨lan, id, rfl, hid, hn⟩ := hq
    obtain ⟨nic, rest, rfl, rfl⟩ := buildNICs_head hnics
    exact ⟨lan, id, nic, rest, rfl, hid, rfl, hn⟩

theorem reconcileServer_used :
    (reconcileServer ms).wp monitor (fun _ _ _ => True) ⟨ms, .ready⟩ s := by
  refine wp_reconcileServer (M := monitor) (fun _ => trivial)
    unit_frame
    (fun q _ => q = ⟨ms, .ready⟩) ?_ (fun _ _ _ => trivial) ?_ rfl
  · intro q _ c hq hc
    have hquiet : Quiet c := quiet_of hc (fun _ h => h) (fun _ _ h => h) fun _ h => h
    exact ⟨(quiet_next hquiet).1, fun a _ => ((quiet_next hquiet).2 a trivial).trans hq⟩
  · intro secret q s hq
    obtain rfl := hq
    exact createServer_used secret

theorem normalSequence_used (hms : ms.deleted = false) :
    (runSteps (fun e => setProvisioningCondition ms (some e)) (normalSequence ms)).wp monitor
      (fun _ _ _ => True) ⟨ms, .out⟩ s := by
  have herror : ∀ (e : Err) (q : Run) (s : MachineVars),
      (setProvisioningCondition ms (some e)).wp monitor (fun _ _ _ => True) q s := by
    intro e q s
    exact wp_mono (wp_setProvisioningCondition (M := monitor) (fun _ => trivial) _)
      fun _ _ _ _ => trivial
  have hclaims : Within Quiet (fun _ => ()) (K8s.reconcileIPAddresses ms) :=
    (K8s.within_reconcileIPAddresses fun _ _ => rfl).mono fun _ hc =>
      quiet_of hc (fun _ h => h) (fun _ _ h => h) fun _ h => h
  have hfailover : Within ReconcilingFailover (fun _ => ()) (reconcileIPFailover ms) :=
    within_reconcileIPFailover ⟨fun _ _ => rfl, fun _ _ => rfl, fun _ _ => rfl, fun _ _ _ => rfl⟩
  unfold normalSequence
  refine wp_runSteps_step herror (fun _ _ _ => trivial) (wp_mono (reconcileLAN_ready hms)
    fun q₁ r s₁ hq₁ hr => ?_)
  obtain rfl := hq₁ hr
  refine wp_runSteps_step herror (fun _ _ _ => trivial) (wp_mono (hclaims.wp (M := monitor)
    (fun _ hc => quiet_next hc) trivial) fun q₂ _ s₂ hq₂ _ => ?_)
  obtain ⟨rfl, -⟩ := hq₂
  refine wp_runSteps_step herror (fun _ _ _ => trivial) (wp_mono reconcileServer_used
    fun q₃ _ s₃ _ _ => ?_)
  -- the steps that are left ask for no server
  refine wp_runSteps_step herror (fun _ _ _ => trivial) (wp_mono (hfailover.wp_of_ok (M := monitor)
    (fun q c hc => ok_of_ne fun dc server heq => ?_) fun _ => trivial) fun q₄ _ s₄ _ _ => ?_)
  · subst heq
    exact hc
  refine wp_runSteps_step herror (fun _ _ _ => trivial) ((wp_bind _ _).mpr ((wp_assign _).mpr
    ((wp_pure _).mpr fun _ => ?_)))
  exact wp_runSteps_nil trivial

theorem deleteSequence_used {q : Run} :
    (runSteps (fun _ => return ()) (deleteSequence ms)).wp monitor (fun _ _ _ => True) q s := by
  have hsteps : Within Deprovisioning (fun _ => ())
      (runSteps (fun _ => return ()) (deleteSequence ms)) :=
    within_runSteps (fun _ => .pure _)
      (within_deleteSequence ⟨fun _ _ => rfl, fun _ _ => rfl, fun _ _ => rfl, fun _ _ _ => rfl⟩)
  refine hsteps.wp_of_ok (M := monitor) (fun q c hc => ok_of_ne fun dc server heq => ?_)
    fun _ => trivial
  subst heq
  rcases hc with hc | hc | hc | hc | hc <;> exact hc

/-- Every run keeps to `Ok`. -/
theorem reconcile_used :
    (reconcile ms s).forget.wp monitor (fun _ _ => True) ⟨ms, .out⟩ := by
  refine wp_reconcile (M := monitor) (I := fun q => q = ⟨ms, .out⟩) ?_ (fun _ => trivial)
    (fun _ _ => trivial) ?_ ?_ rfl
  · intro q c hq hc
    subst hq
    cases c with
    | lansGet dc => exact hc.elim
    | serversPost dc server => exact hc.elim
    | patchMachine obj => exact ⟨trivial, fun _ _ => rfl⟩
    | _ => exact ⟨trivial, fun _ _ => rfl⟩
  · intro hms q s hq
    subst hq
    exact normalSequence_used hms
  · intro _ q s _
    exact deleteSequence_used

end

/-! ## What the runs do to one another -/

/-- The deletion of no LAN was requested that some run may put its server on. -/
def Inv {T : Type} (w : World T) (ph : T → Run) : Prop :=
  ∀ u n, (ph u).Finds w.lans n → w.lans.deleting n = false

section

variable {T : Type} {w w' : World T} {ph : T → Run} {t : T}

/-- A run finds a LAN by its number, or by its number and its name. -/
theorem Run.Finds.congr {q : Run} {lans lans' : LANs} {n : Int} (h : q.Finds lans n)
    (hname : ∀ name, lans.name n = some name → lans'.name n = some name) : q.Finds lans' n := by
  obtain ⟨ms, stage⟩ := q
  cases stage with
  | out => exact h
  | ready => exact ⟨h.1, fun hid => hname _ (h.2 hid)⟩
  | used lan => exact h

/-- The list that a run is given leads it to no LAN whose deletion was requested. -/
theorem Run.finds_listed {q : Run} {lans : LANs} {list : List Lan}
    (hlists : Lists lans list) (hshows : ShowsDeletion lans list) {n : Int}
    (hinv : q.Finds lans n → lans.deleting n = false)
    (hfinds : (q.listed list).Finds lans n) : lans.deleting n = false := by
  obtain ⟨ms, stage⟩ := q
  unfold Run.listed at hfinds
  dsimp only at hfinds
  split at hfinds
  next found hfound =>
    split at hfinds
    next havailable =>
      -- `ReconcileLAN`: the LAN is available, so that its deletion was not requested
      obtain ⟨hbyID, hbyName⟩ := hfinds
      cases hid : ms.spec.networkID with
      | some id =>
        rw [hid] at hfound
        obtain ⟨before, after, hsplit, hfoundID, _⟩ := (findLAN_byID (Nat.zero_le 1)).mp hfound
        have hmem : found ∈ list := by simp [hsplit]
        exact hshows found hmem havailable.2 id n hfoundID (hbyID id hid)
      | none =>
        rw [hid] at hfound
        obtain ⟨l, hl, id, hlid, hn, hname⟩ := hlists.complete n _ (hbyName hid)
        obtain rfl := findLAN_unique hfound hl hname
        exact hshows l hl havailable.2 id n hlid hn
    next => exact hinv hfinds
  next found hfound =>
    -- `createServer`: what it finds could have been found before
    obtain ⟨id, hfoundID, hn⟩ := hfinds
    refine hinv ⟨fun id' hid => ?_, fun hid => ?_⟩
    · rw [hid] at hfound
      obtain ⟨_, _, _, hfoundID', _⟩ := (findLAN_byID (Nat.zero_le 1)).mp hfound
      obtain rfl := Option.some.inj (hfoundID'.symm.trans hfoundID)
      exact hn
    · rw [hid] at hfound
      have hmem : found ∈ list := (findLAN_mem hfound).resolve_right fun heq => nomatch heq
      rw [hlists.sound found hmem id n hfoundID hn]
      refine congrArg some (findLAN_name ?_ hfound)
      intro _ heq
      exact nomatch heq
  next => exact hinv hfinds

/-- A deletion is requested of no LAN that some run may put its server on. -/
theorem Inv.requestDeletion {id : String} (h : Inv w ph)
    (hcareful : ∀ n, Text.parseInt32 id = .ok n → ∀ u, ¬ (ph u).Finds w.lans n)
    (hw' : w'.lans = w.lans.requestDeletion id) : Inv w' ph := by
  intro u n hfinds
  rw [hw'] at hfinds ⊢
  unfold LANs.requestDeletion at hfinds ⊢
  split at hfinds
  next m hid =>
    have hfinds : (ph u).Finds w.lans n := hfinds.congr fun _ hname => hname
    by_cases hn : n = m
    · subst hn
      exact absurd hfinds (hcareful n hid u)
    · rw [LANs.deleting_request_of_ne hn]
      exact h u n hfinds
  next => exact h u n hfinds

/-- A LAN that comes into being is another one than those before it, and one that is gone is found
by no more runs than before. -/
theorem Inv.env (h : Inv w ph) (hmoves : Moves w.lans w'.lans) : Inv w' ph := by
  intro u n hfinds
  generalize w'.lans = lans' at hmoves hfinds
  cases hmoves with
  | created m name hfree =>
    by_cases hn : n = m
    · subst hn
      exact LANs.deleting_create n name
    · rw [LANs.deleting_create_of_ne hn]
      refine h u n (hfinds.congr fun name hname => ?_)
      exact (Function.update_of_ne hn ..).symm.trans hname
  | gone m =>
    refine h u n (hfinds.congr fun name hname => ?_)
    have hn : n ≠ m := by
      rintro rfl
      rw [show (w.lans.remove n).name n = none from Function.update_self ..] at hname
      cases hname
    exact (Function.update_of_ne hn ..).symm.trans hname

variable [DecidableEq T]

/-- A run moves, and finds no LAN whose deletion was requested. -/
theorem Inv.move {q : Run} (h : Inv w ph) (hw' : w'.lans = w.lans)
    (hq : ∀ n, q.Finds w.lans n → w.lans.deleting n = false) : Inv w' (update ph t q) := by
  intro u n hfinds
  rw [hw'] at hfinds ⊢
  by_cases hu : u = t
  · rw [hu, Function.update_self] at hfinds
    exact hq n hfinds
  · rw [Function.update_of_ne hu] at hfinds
    exact h u n hfinds

theorem Inv.call {ms₀ : MachineScope} {c : Call} {a : Call.Ans c} (h : Inv w ph)
    (hexec : (system T ms₀).exec t (ph t) w c a w') (hC : Careful w ph (.call t ⟨c, a⟩)) :
    Inv w' (update ph t ((ph t).next c a)) := by
  obtain ⟨-, hshows, hlans⟩ := hexec
  -- the run stays where it is, or is done with the LAN
  have hstay : w'.lans = w.lans → (ph t).next c a = ph t →
      Inv w' (update ph t ((ph t).next c a)) := by
    intro hlans hnext
    rw [hnext]
    exact h.move hlans fun n => h t n
  have hdone : w'.lans = w.lans → (ph t).next c a = ⟨(ph t).ms, .out⟩ →
      Inv w' (update ph t ((ph t).next c a)) := by
    intro hlans hnext
    rw [hnext]
    exact h.move hlans fun n hfinds => hfinds.elim
  cases c with
  | lansGet dc =>
    match a with
    | .error e => exact hstay hlans rfl
    | .ok none => exact hstay hlans rfl
    | .ok (some list) =>
      refine h.move hlans fun n hfinds => ?_
      exact Run.finds_listed hshows hC (h t n) hfinds
  | lansDelete dc id =>
    show Inv w' (update ph t (ph t))
    rw [Function.update_eq_self]
    exact h.requestDeletion hC hlans
  | serversPost dc server => exact hdone hlans rfl
  | patchMachine obj => exact hdone hlans rfl
  | _ => exact hstay hlans rfl

theorem sound (ms₀ : MachineScope) : (system T ms₀).Sound Careful
    { ok := Ok, adm := fun _ _ _ => True } Inv where
  answers _ _ _ := trivial
  jobs := by
    intro t q p hjob
    obtain ⟨ms, s, _, rfl, rfl⟩ := hjob
    exact reconcile_used
  idle := trivial
  call hI _ hexec hC := hI.call hexec hC
  start := by
    intro w ph t q p hI _ hjob
    obtain ⟨ms, s, _, rfl, _⟩ := hjob
    exact hI.move rfl fun n hfinds => hfinds.elim
  env hI henv _ := hI.env henv.2
  crash := by
    intro w w' ph _ _ u n hfinds
    exact hfinds.elim

end

/-! ## The result -/

/-- As long as all steps are careful, a server is asked for with its first NIC on a LAN whose deletion
was not requested, also if the LAN is gone by then. -/
theorem server_on_kept_lan (T : Type) [DecidableEq T] (ms₀ : MachineScope) (w : World T)
    (s : (system T ms₀).Conf) (hs : (system T ms₀).Reach Careful w s) (t : T) (dc : String)
    (server : ServerPost) (hcall : (s.prog t).next? = some (.serversPost dc server)) :
    ∃ nic nics, server.nics = nic :: nics ∧ s.world.lans.deleting nic.lan = false := by
  have hinit : Inv w fun _ : T => ⟨ms₀, .out⟩ := fun _ _ hfinds => hfinds.elim
  have hinv := ((sound ms₀).reach hinit hs).1
  have hok : Ok (s.phase t) (.serversPost dc server) := by
    cases hprog : s.prog t with
    | ret a =>
      rw [hprog] at hcall
      exact nomatch hcall
    | call c k =>
      rw [hprog] at hcall
      obtain rfl := Option.some.inj hcall
      exact (sound ms₀).call_ok hinit hs hprog
  obtain ⟨lan, id, nic, nics, hstage, hid, hnics, hn⟩ := hok
  refine ⟨nic, nics, hnics, hinv t nic.lan ?_⟩
  unfold Run.Finds
  rw [hstage]
  exact ⟨id, hid, hn⟩

/-! ## Two machines -/

/-- A machine that is to be created. -/
def newMachine : MachineScope :=
  { plainMachine with
    name := "new"
    clusterScope := { plainMachine.clusterScope with infrastructureProvisioned := some true }
    dataSecretName := some "bootstrap"
    spec := { plainMachine.spec with
      disk := { plainMachine.spec.disk with
        image := { plainMachine.spec.disk.image with id := "image" } } } }

/-- Another machine of the cluster, which is deleted. -/
def oldMachine : MachineScope := { plainMachine with name := "old", deleted := true }

/-- The only LAN of the data center has the number 1. -/
def oneLAN : LANs where
  name n := if n = 1 then some (some "lan--") else none
  turn n := if n = 1 then 1 else 0
  requested _ _ := false
  past := by
    intro n i h
    cases h

/-- The LAN is in this state, and nothing is attached to it. -/
def lanAnswers (state : String) : ∀ c : Call, Call.Ans c
  | .lansGet _ => .ok (some [⟨some "1", some "lan--", some state, none, some []⟩])
  | .getCredentials _ _ => .ok ⟨"", "", 0, [], [], "token", ""⟩
  | .getSecret _ _ => .ok ⟨some "#cloud-config"⟩
  | c => Call.plain c

/-- What the calls of a run do to that world. -/
def lanEffect (t : Bool) (_ : Run) (w : World Bool) : Call → Option (World Bool)
  | .lock key | .lockBackground key =>
    if w.owner key = none then some { w with owner := w.owner.acquire t key } else none
  | .unlock key => some { w with owner := w.owner.unlock t key }
  | .lansDelete _ id => some { w with lans := w.lans.requestDeletion id }
  | _ => some w

theorem lists_oneLAN {lans : LANs} (hlans : lans.name = oneLAN.name) (state : String) :
    Lists lans [⟨some "1", some "lan--", some state, none, some []⟩] where
  complete := by
    intro n name h
    rw [hlans] at h
    obtain ⟨rfl, h⟩ := Option.ite_none_right_eq_some.mp h
    exact ⟨_, List.mem_singleton_self _, "1", rfl, by decide, Option.some.inj h⟩
  sound := by
    intro l hl id n hid hn
    obtain rfl := List.mem_singleton.mp hl
    obtain rfl := Option.some.inj hid
    obtain rfl : 1 = n := Except.ok.inj hn
    rw [hlans]
    rfl

theorem name_requestDeletion (lans : LANs) (id : String) :
    (lans.requestDeletion id).name = lans.name := by
  unfold LANs.requestDeletion
  split <;> rfl

theorem lanEffect_exec (state : String) {t : Bool} {q : Run} {w w' : World Bool} {c : Call}
    (hw : w.lans.name = oneLAN.name) (h : lanEffect t q w c = some w') :
    (system Bool newMachine).exec t q w c (lanAnswers state c) w' ∧
      w'.lans.name = oneLAN.name := by
  cases c with
  | lock key =>
    obtain ⟨hfree, h⟩ := Option.ite_none_right_eq_some.mp h
    obtain rfl := Option.some.inj h
    exact ⟨⟨⟨hfree, rfl⟩, trivial, rfl⟩, hw⟩
  | lockBackground key =>
    obtain ⟨hfree, h⟩ := Option.ite_none_right_eq_some.mp h
    obtain rfl := Option.some.inj h
    exact ⟨⟨⟨hfree, rfl⟩, trivial, rfl⟩, hw⟩
  | lansGet dc =>
    obtain rfl := Option.some.inj h
    exact ⟨⟨rfl, lists_oneLAN hw state, rfl⟩, hw⟩
  | lansDelete dc id =>
    obtain rfl := Option.some.inj h
    exact ⟨⟨rfl, trivial, rfl⟩, (name_requestDeletion _ _).trans hw⟩
  | _ =>
    obtain rfl := Option.some.inj h
    exact ⟨⟨rfl, trivial, rfl⟩, hw⟩

/-- The new machine finds the LAN available. Then the old one requests the deletion of the LAN, to
which nothing is attached, and the new one, which is shown that the LAN is busy now, asks for its
server on it. -/
theorem server_on_deleted_lan : ∃ s dc server, (system Bool newMachine).Reach (fun _ _ _ => True)
      ⟨fun _ => none, oneLAN⟩ s ∧
    (s.prog true).next? = some (.serversPost dc server) ∧
    ∃ nic nics, server.nics = nic :: nics ∧ s.world.lans.deleting nic.lan = true := by
  have hexec : ∀ (state : String) (t : Bool) (ph : Bool → Run) (w : World Bool) (c : Call)
      (w' : World Bool), w.lans.name = oneLAN.name → lanEffect t (ph t) w c = some w' →
      (system Bool newMachine).exec t (ph t) w c (lanAnswers state c) w' ∧ True ∧
        w'.lans.name = oneLAN.name := by
    intro state t ph w c w' hw h
    obtain ⟨hstep, hw'⟩ := lanEffect_exec state hw h
    exact ⟨hstep, trivial, hw'⟩
  have h₀ : (system Bool newMachine).Reach (fun _ _ _ => True) ⟨fun _ => none, oneLAN⟩ _ := .init
  have h₁ := h₀.start true rfl ⟨newMachine, default, ⟨rfl, rfl, rfl, rfl⟩, rfl, rfl⟩ trivial
  obtain ⟨h₂, hw₂⟩ := h₁.follow (lanAnswers "AVAILABLE") (lanEffect true)
    (fun w : World Bool => w.lans.name = oneLAN.name) (hexec "AVAILABLE" true) 8 rfl rfl
  have h₃ := h₂.start false rfl ⟨oldMachine, default, ⟨rfl, rfl, rfl, rfl⟩, rfl, rfl⟩ trivial
  obtain ⟨h₄, hw₄⟩ := h₃.follow (lanAnswers "AVAILABLE") (lanEffect false) _
    (hexec "AVAILABLE" false) 15 hw₂ rfl
  have h₅ := ((h₄.switch (by decide)).follow (lanAnswers "BUSY") (lanEffect true) _
    (hexec "BUSY" true) 4 hw₄ rfl).1
  exact ⟨_, _, _, h₅, rfl, _, _, rfl, rfl⟩

/-- What the calls do to the world where no deletion is requested, and the LAN is not listed while it
is being deleted. -/
def keepingEffect (t : Bool) (q : Run) (w : World Bool) : Call → Option (World Bool)
  | .lansDelete _ _ => none
  | .lansGet _ => if w.lans.deleting 1 = false then some w else none
  | c => lanEffect t q w c

/-- Such calls are careful. -/
theorem keepingEffect_exec {lans : LANs} (hname : lans.name = oneLAN.name) {t : Bool}
    {ph : Bool → Run} {w w' : World Bool} {c : Call} (hw : w.lans = lans)
    (h : keepingEffect t (ph t) w c = some w') :
    (system Bool newMachine).exec t (ph t) w c (lanAnswers "AVAILABLE" c) w' ∧
      Careful w ph (.call t ⟨c, lanAnswers "AVAILABLE" c⟩) ∧ w'.lans = lans := by
  have hstep : lanEffect t (ph t) w c = some w' →
      (system Bool newMachine).exec t (ph t) w c (lanAnswers "AVAILABLE" c) w' :=
    fun heff => (lanEffect_exec "AVAILABLE" (hw ▸ hname) heff).1
  cases c with
  | lansDelete dc id => cases h
  | lansGet dc =>
    obtain ⟨hkept, h⟩ := Option.ite_none_right_eq_some.mp h
    refine ⟨hstep h, ?_, (hstep h).2.2.trans hw⟩
    intro l hl _ id n hid hn
    obtain rfl := List.mem_singleton.mp hl
    obtain rfl := Option.some.inj hid
    obtain rfl : 1 = n := Except.ok.inj hn
    exact hkept
  | _ => exact ⟨hstep h, trivial, (hstep h).2.2.trans hw⟩

/-- After the first LAN was deleted, its number was given to another one. -/
def secondLAN : LANs := ((oneLAN.request 1).remove 1).create 1 (some "lan--")

theorem secondLAN_name : secondLAN.name = oneLAN.name := by
  funext n
  by_cases hn : n = 1
  · subst hn
    rfl
  · show update (update oneLAN.name 1 none) 1 _ n = _
    rw [Function.update_of_ne hn, Function.update_of_ne hn]

/-- The old machine requests the deletion of the LAN while no other run is there, and the LAN goes
away. Another one comes into being, with the same number, and the new machine asks for its server on
that one. -/
theorem server_on_kept_lan_run : ∃ s dc server,
    (system Bool newMachine).Reach Careful ⟨fun _ => none, oneLAN⟩ s ∧
    s.world.lans.requested 1 1 = true ∧
    (s.prog true).next? = some (.serversPost dc server) ∧
    ∃ nic nics, server.nics = nic :: nics ∧ s.world.lans.deleting nic.lan = false := by
  have h₀ : (system Bool newMachine).Reach Careful ⟨fun _ => none, oneLAN⟩ _ := .init
  have h₁ := h₀.start false rfl ⟨oldMachine, default, ⟨rfl, rfl, rfl, rfl⟩, rfl, rfl⟩ trivial
  obtain ⟨h₂, hw₂⟩ := h₁.follow (lanAnswers "AVAILABLE") (keepingEffect false)
    (fun w : World Bool => w.lans = oneLAN) (fun _ _ _ _ => keepingEffect_exec rfl) 9 rfl rfl
  -- the deletion is requested: nobody else runs, and the old machine is not about to get a server
  have hrequest : ∀ q (w : World Bool), (system Bool newMachine).exec false q w
      (.lansDelete "dc" "1") (.ok "request") ⟨w.owner, w.lans.request 1⟩ :=
    fun _ _ => ⟨rfl, trivial, rfl⟩
  have h₃ := h₂.again (lanAnswers "AVAILABLE") rfl (hrequest _ _) fun n _ u hfinds => by
    cases u <;> exact hfinds
  have h₄ := (h₃.follow (lanAnswers "AVAILABLE") (keepingEffect false)
    (fun w : World Bool => w.lans = oneLAN.request 1)
    (fun _ _ _ _ => keepingEffect_exec (show (oneLAN.request 1).name = oneLAN.name from rfl)) 5
    (hw₂ ▸ rfl) rfl).1
  -- the LAN goes away, and its number is given to another one
  have hmove : ∀ (w : World Bool) lans, Moves w.lans lans →
      (system Bool newMachine).env w ⟨w.owner, lans⟩ := fun _ _ h => ⟨rfl, h⟩
  have h₅ := (h₄.env (hmove _ _ (.gone 1)) trivial).env (hmove _ _ (.created 1 (some "lan--") rfl))
    trivial
  have h₆ := h₅.start true rfl ⟨newMachine, default, ⟨rfl, rfl, rfl, rfl⟩, rfl, rfl⟩ trivial
  have h₇ := (h₆.follow (lanAnswers "AVAILABLE") (keepingEffect true)
    (fun w : World Bool => w.lans = secondLAN)
    (fun _ _ _ _ => keepingEffect_exec secondLAN_name) 12 rfl rfl).1
  exact ⟨_, _, _, h₇, rfl, rfl, server_on_kept_lan Bool newMachine _ _ h₇ true _ _ rfl⟩

end Capic.Properties.LANInUse
