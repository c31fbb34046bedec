import Capic.Controller.Frame
import Capic.Properties.CreateOnce

/-!
# The LAN goes with the last machine

A machine that is deleted has its server deleted first, and then a look at the LAN: if there
is a NIC in it, somebody else still needs it, and the machine goes without it; if there is
none, the LAN is deleted and the machine waits. Nobody is told to be the last one.

`Site.system` is the system of any number of workers that run `Reconcile` for machines of one
cluster in one data center, all of them being deleted. Servers and the LAN are created by
requests that may still be pending when it starts (`Capic.Effect.Once`); nothing is created
any more. A server's NIC is in the LAN only as long as the server is, or is on its way, and
its deletion is not done (`ServerState.Sane`). Which NIC belongs to which deletion does not
matter to the cloud: LANs, servers and NICs come and go at any time, within these bounds.

`lan_cleaned`: once every machine has lost its finalizer, the LAN is gone. The reason is
`Inv.last`: as long as the LAN is there, some machine has not passed it yet. Whoever passes it
by saw a NIC of a server that is still there, hence of a machine that has not got that far.
The LAN's lock is not needed.
-/

namespace Capic.Properties

open Effect Effect.Go Effect.Once Cloud Controller Controller.Machine
open Function (update)

/-! ## The data center -/

/-- The server of a machine, by name. -/
def serverResource (datacenterID name : String) : Resource where
  key := ""
  type := .server
  url := serversURL datacenterID
  matchers := [matchByName name]
  isPost _ := false
  look
    | .serversGet dc, .ok items =>
      if dc = datacenterID then some ((deref items []).any (nameOf · = some name)) else none
    | .serversGet dc, .error e => if dc = datacenterID ∧ isNotFound e then some false else none
    | _, _ => none
  answers _ _ := True

/-- A machine's server: the accepted creations of it, whether a NIC of it is in the LAN, and
whether a deletion of it is done. -/
structure ServerState where
  creations : List Creation
  attached : Bool
  deleted : Bool

/-- The NIC is there only as long as the server is, or may be, and is not deleted. -/
def ServerState.Sane (s : ServerState) : Prop :=
  s.attached = true → s.deleted = false ∧ ∃ c ∈ s.creations, c.Live

/-- The server is not there any more, or is deleted. -/
def ServerState.Gone (s : ServerState) : Prop :=
  s.deleted = true ∨ ∀ c ∈ s.creations, ¬ c.Live

/-- What the cloud does to a server. -/
structure ServerState.Moves (s s' : ServerState) : Prop where
  progress : Progress s.creations s'.creations
  deleted : s.deleted = true → s'.deleted = true
  sane : s'.Sane

/-- The accepted creations of the LAN, the servers, and the machines whose finalizer has been
removed. -/
structure CleanupWorld (T : Type) where
  lan : List Creation
  server : T → ServerState
  released : T → Bool

/-- What the cloud does. -/
structure CleanupWorld.Moves {T : Type} (w w' : CleanupWorld T) : Prop where
  lan : Progress w.lan w'.lan
  server : ∀ t, (w.server t).Moves (w'.server t)
  released : w'.released = w.released

/-- The run of a machine: what it has found out about the machine's server and the LAN, and
whether it has seen a NIC in the LAN after its own server was gone. -/
structure CleanupRun (T : Type) where
  machine : T
  server : Phase
  deleted : Bool
  lan : Phase
  left : Bool

namespace CleanupRun

variable {T : Type}

/-- The machine's server is known to be gone. -/
def gone (q : CleanupRun T) : Bool := q.server = .clear || q.deleted

/-- The machine may go. -/
def done (q : CleanupRun T) : Bool := q.gone && (q.left || q.lan = .clear)

/-- Nothing is known. -/
def fresh (t : T) : CleanupRun T := ⟨t, .locked, false, .locked, false⟩

end CleanupRun

/-- The machines of a cluster in a data center, and their servers. -/
structure Site (T : Type) where
  /-- A machine's scope, for the cluster and the data center. -/
  scope : MachineScope
  first : T
  name : T → String
  serverID : T → String
  /-- The IDs the machine's servers have had. -/
  hadID : T → String → Prop
  hadID_serverID : ∀ t, hadID t (serverID t)

namespace Site

variable {T : Type} (G : Site T)

def lan : Resource := lanResource G.scope

def server (t : T) : Resource := serverResource G.scope.datacenterID (G.name t)

def serverURL (t : T) : String :=
  Text.pathJoin ["datacenters", G.scope.datacenterID, "servers", G.serverID t]

/-- The LAN is the cluster's, and there is a NIC in it. -/
def nicLeft (lan : Lan) : Bool :=
  lan.name = some (lanName G.scope.clusterScope) && !(deref lan.nics []).isEmpty

/-- The answer shows a NIC in the LAN. -/
def nicSeen : (c : Call) → Call.Ans c → Bool
  | .lansGet dc, .ok (some lans) => dc = G.scope.datacenterID && lans.any G.nicLeft
  | _, _ => false

/-- The answer shows that the newest deletion of the server is done. -/
def deletionSeen (t : T) : (c : Call) → Call.Ans c → Bool
  | .requestsGet .delete _, .ok items =>
    match matchRequest .server (G.serverURL t) [] (Client.sortRequests (deref items [])) with
    | .val (.ok (some ri)) => ri.isDone
    | _ => false
  | _, _ => false

/-- Servers are shown with their IDs: the servers with a machine's name, and those found by
an ID that the machine has had, are the machine's server. -/
def Identifies : (c : Call) → Call.Ans c → Prop
  | .serversGet dc, .ok items => dc = G.scope.datacenterID → ∀ server ∈ deref items [],
    ∀ t, nameOf server = some (G.name t) → server.id = some (G.serverID t)
  | .serversFindById dc id, .ok server => dc = G.scope.datacenterID →
    ∀ t, G.hadID t id → server.id = some (G.serverID t)
  | _, _ => True

/-- The answers of the cloud are current. -/
structure Answers (w : CleanupWorld T) (c : Call) (a : Call.Ans c) : Prop where
  lan : G.lan.Tells w.lan c a
  server : ∀ t, (G.server t).Tells (w.server t).creations c a
  identifies : G.Identifies c a
  /-- All NICs in the LAN are NICs of the machines' servers. -/
  nics : G.nicSeen c a = true → ∃ t, (w.server t).attached = true
  deletion : ∀ t, G.deletionSeen t c a = true → (w.server t).deleted = true

/-- What a run knows after a call. -/
def next (q : CleanupRun T) (c : Call) (a : Call.Ans c) : CleanupRun T where
  machine := q.machine
  server := q.server.watch ((G.server q.machine).obs ((G.server q.machine).kind c a))
  deleted := q.deleted || G.deletionSeen q.machine c a
  lan := q.lan.watch (G.lan.obs (G.lan.kind c a))
  left := q.left || (q.gone && G.nicSeen c a)

/-- A machine of the site that is being deleted. -/
structure IsMachine (t : T) (ms : MachineScope) : Prop extends SharesLAN ms G.scope where
  machine : ms.name = G.name t
  networkID : ms.spec.networkID = none
  deleted : ms.deleted = true

/-- The provider ID is not set, or leads to a server the machine has had. -/
def Owns (t : T) (providerID : String) : Prop :=
  extractServerID providerID = "" ∨ G.hadID t (extractServerID providerID)

/-- Runs of `Reconcile` for a machine that still has its finalizer. -/
def Job (q : CleanupRun T) (p : Prog Call Call.Ans Unit) : Prop :=
  ∃ t ms s, q = .fresh t ∧ G.IsMachine t ms ∧ machineFinalizer ∈ s.finalizers ∧
    G.Owns t s.providerID ∧ p = (reconcile ms s).forget

variable [DecidableEq T]

/-- Storing the machine without its finalizer may have an effect, whatever the answer says. -/
def Stores (q : CleanupRun T) (w : CleanupWorld T) : Call → CleanupWorld T → Prop
  | .patchMachine obj, w' => w' = w ∨ (machineFinalizer ∉ obj.finalizers ∧
    w' = { w with released := update w.released q.machine true })
  | _, w' => w' = w

/-- The workers, and the cloud. -/
@[reducible] def system (W : Type) [DecidableEq W] : System W Call Call.Ans where
  World := CleanupWorld T
  Phase := CleanupRun T
  idle := .fresh G.first
  next := G.next
  exec _ q w c a w' := G.Answers w c a ∧ Stores q w c w'
  env := CleanupWorld.Moves
  crash w w' := w' = w
  job _ := G.Job

/-- The machine is stored without its finalizer only when it may go. -/
def Ok (q : CleanupRun T) : Call → Prop
  | .patchMachine obj => machineFinalizer ∈ obj.finalizers ∨ q.done = true
  | _ => True

/-- What a run may count on. -/
structure Adm (c : Call) (a : Call.Ans c) : Prop where
  lan : G.lan.Adm c a
  server : ∀ t, (G.server t).Adm c a
  identifies : G.Identifies c a

end Site

/-! ## The invariant -/

/-- What a run knows is true. -/
structure CleanupRun.Knows {T : Type} (w : CleanupWorld T) (q : CleanupRun T) : Prop where
  lan : Watches w.lan q.lan
  server : Watches (w.server q.machine).creations q.server
  deleted : q.deleted = true → (w.server q.machine).deleted = true
  left : q.left = true → q.gone = true

/-- The invariant (module doc). -/
structure CleanupInv {W T : Type} (w : CleanupWorld T) (ph : W → CleanupRun T) : Prop where
  lan : (watched w.lan).Settled
  servers : ∀ t, (watched (w.server t).creations).Settled
  sane : ∀ t, (w.server t).Sane
  knows : ∀ x, (ph x).Knows w
  released : ∀ t, w.released t = true → (w.server t).Gone
  last : (∀ c ∈ w.lan, ¬ c.Live) ∨
    ∃ t, w.released t = false ∧ ∀ x, (ph x).machine = t → (ph x).left = false

section

variable {W T : Type} {w w' : CleanupWorld T} {ph : W → CleanupRun T}

theorem ServerState.Gone.not_attached {s : ServerState} (h : s.Gone) (hs : s.Sane) :
    s.attached = false := by
  by_contra hattached
  obtain ⟨hdeleted, c, hc, hlive⟩ := hs (by simpa using hattached)
  rcases h with h | h
  · rw [hdeleted] at h
    exact nomatch h
  · exact h c hc hlive

/-- What is gone stays gone. -/
theorem ServerState.Gone.moves {s s' : ServerState} (h : s.Gone)
    (hs : (watched s.creations).Settled) (hmoves : s.Moves s') : s'.Gone := by
  rcases h with h | h
  · exact .inl (hmoves.deleted h)
  · exact .inr ((Watches.of_dead hs h).progress hmoves.progress).dead

namespace CleanupRun

variable {q : CleanupRun T}

theorem Knows.gone (h : q.Knows w) (hgone : q.gone = true) : (w.server q.machine).Gone := by
  rcases Bool.or_eq_true_iff.mp hgone with hclear | hdeleted
  · have hserver := h.server
    rw [of_decide_eq_true hclear] at hserver
    exact .inr hserver.dead
  · exact .inl (h.deleted hdeleted)

theorem Knows.fresh (hlan : (watched w.lan).Settled)
    (hservers : ∀ t, (watched (w.server t).creations).Settled) (t : T) :
    (CleanupRun.fresh t).Knows w where
  lan := .of_settled hlan
  server := .of_settled (hservers t)
  deleted h := nomatch h
  left h := nomatch h

theorem Knows.moves (h : q.Knows w) (hmoves : w.Moves w') : q.Knows w' where
  lan := h.lan.progress hmoves.lan
  server := h.server.progress (hmoves.server q.machine).progress
  deleted hd := (hmoves.server q.machine).deleted (h.deleted hd)
  left := h.left

/-- What is known to be gone is known for the rest of the run. -/
theorem gone_next (G : Site T) (c : Call) (a : Call.Ans c) (h : q.gone = true) :
    (G.next q c a).gone = true := by
  unfold CleanupRun.gone at h ⊢
  rcases Bool.or_eq_true_iff.mp h with hclear | hdeleted
  · simp [Site.next, of_decide_eq_true hclear, Phase.watch_clear]
  · simp [Site.next, hdeleted]

theorem done_next (G : Site T) (c : Call) (a : Call.Ans c) (h : q.done = true) :
    (G.next q c a).done = true := by
  unfold CleanupRun.done at h ⊢
  obtain ⟨hgone, hlan⟩ := Bool.and_eq_true_iff.mp h
  rw [gone_next G c a hgone]
  rcases Bool.or_eq_true_iff.mp hlan with hleft | hclear
  · simp [Site.next, hleft]
  · simp [Site.next, of_decide_eq_true hclear, Phase.watch_clear]

theorem done_of (hgone : q.gone = true) (h : q.left = true ∨ q.lan = .clear) : q.done = true := by
  rcases h with h | h <;> simp [done, hgone, h]

/-- What an answer tells is true. -/
theorem Knows.next {G : Site T} (h : q.Knows w) {c : Call} {a : Call.Ans c}
    (ha : G.Answers w c a) : (G.next q c a).Knows w where
  lan := ha.lan.watches h.lan
  server := (ha.server q.machine).watches h.server
  deleted hd := (Bool.or_eq_true_iff.mp hd).elim h.deleted (ha.deletion q.machine)
  left hl := by
    rcases Bool.or_eq_true_iff.mp hl with hl | hl
    · exact gone_next G c a (h.left hl)
    · exact gone_next G c a (Bool.and_eq_true_iff.mp hl).1

end CleanupRun

namespace CleanupInv

/-- A machine whose server's NIC is in the LAN has not passed the LAN. -/
theorem of_attached (h : CleanupInv w ph) {t : T} (ht : (w.server t).attached = true) :
    w.released t = false ∧ ∀ x, (ph x).machine = t → (ph x).left = false := by
  have hgone : ¬ (w.server t).Gone := by
    intro hgone
    rw [hgone.not_attached (h.sane t)] at ht
    exact nomatch ht
  constructor
  · by_contra hreleased
    exact hgone (h.released t (by simpa using hreleased))
  · intro x hx
    by_contra hleft
    have hknown := (h.knows x).gone ((h.knows x).left (by simpa using hleft))
    rw [hx] at hknown
    exact hgone hknown

variable [DecidableEq W]

/-- A run starts. -/
theorem start (h : CleanupInv w ph) (x : W) (t : T) :
    CleanupInv w (update ph x (.fresh t)) where
  lan := h.lan
  servers := h.servers
  sane := h.sane
  knows y := by
    by_cases hy : y = x
    · rw [hy, Function.update_self]
      exact .fresh h.lan h.servers t
    · rw [Function.update_of_ne hy]
      exact h.knows y
  released := h.released
  last := by
    refine h.last.imp_right fun ⟨u, hu, hleft⟩ => ⟨u, hu, fun y hy => ?_⟩
    by_cases hyx : y = x
    · rw [hyx, Function.update_self]
      rfl
    · rw [Function.update_of_ne hyx] at hy ⊢
      exact hleft y hy

/-- A run gets an answer. -/
theorem answer (h : CleanupInv w ph) {G : Site T} {x : W} {c : Call} {a : Call.Ans c}
    (ha : G.Answers w c a) : CleanupInv w (update ph x (G.next (ph x) c a)) where
  lan := h.lan
  servers := h.servers
  sane := h.sane
  knows y := by
    by_cases hy : y = x
    · rw [hy, Function.update_self]
      exact (h.knows x).next ha
    · rw [Function.update_of_ne hy]
      exact h.knows y
  released := h.released
  last := by
    rcases h.last with hdead | ⟨t, ht, hleft⟩
    · exact .inl hdead
    -- the run passes the LAN by: it has seen a NIC of a machine that has not got that far
    by_cases hpasses : (ph x).gone = true ∧ G.nicSeen c a = true
    · obtain ⟨hgone, hseen⟩ := hpasses
      obtain ⟨u, hu⟩ := ha.nics hseen
      obtain ⟨hreleased, hothers⟩ := h.of_attached hu
      refine .inr ⟨u, hreleased, fun y hy => ?_⟩
      by_cases hyx : y = x
      · rw [hyx, Function.update_self] at hy
        have hknown := ((h.knows x).gone hgone).not_attached (h.sane (ph x).machine)
        rw [show (ph x).machine = u from hy, hu] at hknown
        exact nomatch hknown
      · rw [Function.update_of_ne hyx] at hy ⊢
        exact hothers y hy
    · refine .inr ⟨t, ht, fun y hy => ?_⟩
      by_cases hyx : y = x
      · rw [hyx, Function.update_self] at hy ⊢
        have hx := hleft x hy
        have hnot : ((ph x).gone && G.nicSeen c a) = false := by
          simpa using hpasses
        show ((ph x).left || ((ph x).gone && G.nicSeen c a)) = false
        rw [hx, hnot]
        rfl
      · rw [Function.update_of_ne hyx] at hy ⊢
        exact hleft y hy

omit [DecidableEq W] in
/-- A machine that may go is released. -/
theorem release [DecidableEq T] (h : CleanupInv w ph) {x : W} (hdone : (ph x).done = true) :
    CleanupInv { w with released := update w.released (ph x).machine true } ph where
  lan := h.lan
  servers := h.servers
  sane := h.sane
  knows y := ⟨(h.knows y).lan, (h.knows y).server, (h.knows y).deleted, (h.knows y).left⟩
  released t ht := by
    by_cases htx : t = (ph x).machine
    · rw [htx]
      exact (h.knows x).gone (Bool.and_eq_true_iff.mp hdone).1
    · refine h.released t ?_
      rw [← ht]
      exact (Function.update_of_ne htx ..).symm
  last := by
    rcases h.last with hdead | ⟨t, ht, hleft⟩
    · exact .inl hdead
    rcases Bool.or_eq_true_iff.mp (Bool.and_eq_true_iff.mp hdone).2 with hl | hclear
    · -- it is not this machine that the LAN waits for
      have htx : t ≠ (ph x).machine := by
        rintro rfl
        rw [hleft x rfl] at hl
        exact nomatch hl
      refine .inr ⟨t, ?_, hleft⟩
      rw [← ht]
      exact Function.update_of_ne htx ..
    · have hlan := (h.knows x).lan
      rw [of_decide_eq_true hclear] at hlan
      exact .inl hlan.dead

omit [DecidableEq W] in
/-- The cloud moves. -/
theorem moves (h : CleanupInv w ph) (hmoves : w.Moves w') : CleanupInv w' ph where
  lan := (Watches.progress (.of_settled h.lan) hmoves.lan).settled
  servers t := (Watches.progress (.of_settled (h.servers t)) (hmoves.server t).progress).settled
  sane t := (hmoves.server t).sane
  knows x := (h.knows x).moves hmoves
  released t ht := by
    rw [hmoves.released] at ht
    exact (h.released t ht).moves (h.servers t) (hmoves.server t)
  last := by
    rcases h.last with hdead | ⟨t, ht, hleft⟩
    · exact .inl ((Watches.of_dead h.lan hdead).progress hmoves.lan).dead
    · refine .inr ⟨t, ?_, hleft⟩
      rw [hmoves.released]
      exact ht

end CleanupInv

end

namespace Site

variable {T : Type} {G : Site T}

/-! ## The runs -/

/-- The runs' monitor. -/
abbrev monitor (G : Site T) : Monitor Call Call.Ans :=
  ⟨CleanupRun T, Ok, fun _ => G.Adm, G.next, fun _ => True⟩

/-- A run for the machine whose provider ID leads to the machine's server. -/
def Serves (G : Site T) (t : T) (q : CleanupRun T) (s : MachineVars) : Prop :=
  q.machine = t ∧ G.Owns t s.providerID

variable {t : T} {ms : MachineScope} {q : CleanupRun T} {s : MachineVars}

theorem watched_server (t : T) :
    (G.server t).Watched G.monitor (·.machine = t) CleanupRun.server where
  asks _ _ := trivial
  adm _ _ _ ha := ha.server t
  next q c a hq _ := by
    show q.server.watch ((G.server q.machine).obs ((G.server q.machine).kind c a)) = _
    rw [hq]
  panic _ := trivial

theorem watched_lan : G.lan.Watched G.monitor (fun _ => True) CleanupRun.lan where
  asks _ _ := trivial
  adm _ _ _ ha := ha.lan
  next _ _ _ _ _ := rfl
  panic _ := trivial

/-- After an answer about the newest creation that is done, a look in vain is enough. -/
def Seen (q : Phase) : Prop := q = .sawDone ∨ q = .clear

theorem Seen.looked {q : Phase} (h : Seen q) : q.looked false = .clear := by
  rcases h with h | h <;> rw [h] <;> rfl

/-- A list of servers is a look for the machine's. -/
theorem kind_serversGet {dc name : String} {a : Call.Ans (.serversGet dc)} {found : Bool}
    (h : (serverResource dc name).look (.serversGet dc) a = some found) :
    (serverResource dc name).kind (.serversGet dc) a = .look found := by
  show Resource.lookKind ((serverResource dc name).look (.serversGet dc) a) = _
  rw [h]
  rfl

theorem server_lookedFor (hms : G.IsMachine t ms) (hq : q.machine = t)
    {a : Call.Ans (.serversGet ms.datacenterID)}
    (h : (serverResource ms.datacenterID (G.name t)).look (.serversGet ms.datacenterID) a =
      some false) (hseen : Seen q.server) :
    (G.next q (.serversGet ms.datacenterID) a).server = .clear := by
  show q.server.watch ((G.server q.machine).obs ((G.server q.machine).kind _ a)) = .clear
  rw [hq]
  unfold Site.server
  rw [← hms.datacenterID, kind_serversGet h]
  exact hseen.looked

/-- What a look for the machine's server finds out. -/
def ServerLooked (G : Site T) (t : T) (seen : Prop) (q : CleanupRun T)
    (r : Except Err (Option Server)) (s : MachineVars) : Prop :=
  (∀ server, r = .ok (some server) → G.Serves t q s ∧ server.id = some (G.serverID t)) ∧
    ((∀ server, r ≠ .ok (some server)) → G.Serves t q s) ∧
    (seen → findResource.notFoundIsNone r = .ok none → q.server = .clear)

theorem serverLooked_error {seen : Prop} (hq : G.Serves t q s) {e : Err}
    (he : isNotFound e = true → seen → q.server = .clear) :
    G.ServerLooked t seen q (.error e) s := by
  refine ⟨fun _ heq => (by cases heq), fun _ => hq, fun hseen hr => he ?_ hseen⟩
  by_contra hno
  rw [findResource.notFoundIsNone, if_neg hno] at hr
  cases hr

theorem server_lookByName (hms : G.IsMachine t ms) (hq : G.Serves t q s) (err : Option Err) :
    (getServerByName ms err).wp G.monitor (G.ServerLooked t (Seen q.server)) q s := by
  refine wp_getServerByName ?_ trivial ?_ ?_ ?_ fun _ _ => trivial
  · intro e he
    exact serverLooked_error hq fun h => by rw [he] at h; cases h
  · intro e e' ha he
    have hserves : G.Serves t (G.next q (.serversGet ms.datacenterID) (.error e)) s := hq
    refine serverLooked_error hserves fun h hseen => server_lookedFor hms hq.1 ?_ hseen
    exact if_pos ⟨rfl, he.symm.trans h⟩
  · intro items server ha hfind
    obtain ⟨properties, hproperties, hname⟩ := findServer_name hfind
    have hid : server.id = some (G.serverID t) := by
      refine ha.identifies hms.datacenterID server (findServer_mem hfind) t ?_
      rw [nameOf, hproperties, ← hms.machine]
      exact hname
    have hserves : G.Serves t (G.next q (.serversGet ms.datacenterID) (.ok items))
        { s with providerID := "ionos://" ++ deref server.id "" } := by
      refine ⟨hq.1, .inr ?_⟩
      rw [hid]
      show G.hadID t (extractServerID ("ionos://" ++ G.serverID t))
      rw [extractServerID_append]
      exact G.hadID_serverID t
    refine ⟨?_, fun hne => absurd rfl (hne server), fun _ hr => by cases hr⟩
    intro server' heq
    cases heq
    exact ⟨hserves, hid⟩
  · intro items ha hfind
    have hlook : (serverResource ms.datacenterID (G.name t)).look (.serversGet ms.datacenterID)
        (.ok items) = some false := by
      show (if ms.datacenterID = ms.datacenterID then
        some ((deref items []).any (nameOf · = some (G.name t))) else none) = some false
      rw [if_pos rfl, Option.some.injEq, List.any_eq_false]
      intro server hserver
      rw [← hms.machine]
      have hne : nameOf server ≠ some ms.name := findServer_none hfind server hserver
      simp [hne]
    have hserves : G.Serves t (G.next q (.serversGet ms.datacenterID) (.ok items)) s := hq
    cases err with
    | none =>
      exact ⟨fun _ heq => (by cases heq), fun _ => hserves, fun hseen _ =>
        server_lookedFor hms hq.1 hlook hseen⟩
    | some e =>
      exact serverLooked_error hserves fun _ hseen => server_lookedFor hms hq.1 hlook hseen

theorem server_look (hms : G.IsMachine t ms) (hq : G.Serves t q s) :
    (getServer ms).wp G.monitor (G.ServerLooked t (Seen q.server)) q s := by
  refine wp_getServer (wp_getServerByServerID ?_ ?_ trivial ?_ ?_)
  · intro _
    exact server_lookByName hms hq none
  · intro e he
    dsimp only
    rw [he]
    exact serverLooked_error hq fun h => by rw [he] at h; exact nomatch h
  · -- a look by ID tells nothing but that there is no such server
    intro e e' _ _
    have hserves : G.Serves t (G.next q (.serversFindById ms.datacenterID
        (extractServerID s.providerID)) (.error e)) s := hq
    dsimp only
    split
    next => exact server_lookByName hms hserves (some e')
    next hno => exact serverLooked_error hserves fun h => absurd h hno
  · intro hne server ha
    refine ⟨?_, fun h => absurd rfl (h server), fun _ hr => nomatch hr⟩
    intro server' heq
    cases heq
    exact ⟨hq, ha.identifies hms.datacenterID t (hq.2.resolve_left hne)⟩

/-- The lookup of the machine's server finds the server, or what became of it. -/
theorem server_find (hms : G.IsMachine t ms) (hq : G.Serves t q s) :
    (findResource (getServer ms) (getLatestServerCreationRequest ms)).wp G.monitor
      (fun q' r s' => (∀ server ri, r = .ok (some server, ri) →
          (G.Serves t q' s' ∧ server.id = some (G.serverID t)) ∧ ri = none) ∧
        ((∀ server ri, r ≠ .ok (some server, ri)) → G.Serves t q' s') ∧
        ∀ ri, r = .ok (none, ri) → ri.any (·.isPending) = false → q'.server = .clear) q s := by
  refine wp_findResource_gone (M := G.monitor) (G.Serves t)
    (fun q' (server : Server) s' => G.Serves t q' s' ∧ server.id = some (G.serverID t))
    (fun q' _ => Seen q'.server) (fun q' _ => q'.server = .clear) hq ?_ ?_
  · intro q s hq
    exact server_look hms hq
  · intro q s hq
    have hask := (watched_server t).wp_ask (I := G.Serves t) (fun _ _ _ _ h _ => h) hq hq.1
    have hquery : getLatestServerCreationRequest ms = getMatchingRequest (G.server t).type .post
        (G.server t).url (G.server t).matchers := by
      unfold getLatestServerCreationRequest
      rw [hms.datacenterID, hms.machine]
      rfl
    rw [hquery]
    exact hask

/-- A deletion of the machine's server that is done is seen. -/
theorem server_deletionAsked (hms : G.IsMachine t ms) (hq : G.Serves t q s) :
    (getLatestServerDeletionRequest ms.datacenterID (G.serverID t)).wp G.monitor
      (fun q' r s' => G.Serves t q' s' ∧
        ∀ ri, r = .ok (some ri) → ri.isDone = true → q'.deleted = true) q s := by
  unfold getLatestServerDeletionRequest
  refine wp_getMatchingRequest ?_ trivial fun a _ => ⟨trivial, fun r hr => ⟨hq, ?_⟩⟩
  · intro e _
    exact ⟨hq, fun _ heq => nomatch heq⟩
  · intro ri heq hdone
    subst heq
    match a with
    | .error e => exact nomatch hr
    | .ok items =>
      have hmatch : matchRequest .server (G.serverURL t) []
          (Client.sortRequests (deref items [])) = .val (.ok (some ri)) := by
        unfold serverURL
        rw [← hms.datacenterID]
        exact hr
      show (q.deleted || G.deletionSeen q.machine (.requestsGet .delete _) (.ok items)) = true
      rw [hq.1]
      have hseen : ∀ url, G.deletionSeen t (.requestsGet .delete url) (.ok items) = true := by
        intro url
        unfold deletionSeen
        dsimp only
        rw [hmatch]
        exact hdone
      rw [hseen, Bool.or_true]

/-- Calls that leave the machine alone. -/
theorem serves_within {α κ : Type} {E : Call → Prop} {keep : MachineVars → κ} {p : MachineM α}
    (hp : Within E keep p) (hE : ∀ obj, ¬ E (.patchMachine obj))
    (hkeep : ∀ s', keep s' = keep s → s'.providerID = s.providerID) (hq : G.Serves t q s) :
    p.wp G.monitor (fun q' _ s' => G.Serves t q' s') q s := by
  have hmachine := hp.wp_inv (M := G.monitor) (s := s) (fun q' => q'.machine = t)
    (fun q' c hq' hc => ⟨?_, fun _ _ => hq'⟩) (fun _ _ => trivial) hq.1
  · refine wp_mono hmachine fun q' _ s' h => ⟨h.1, ?_⟩
    rw [hkeep s' h.2]
    exact hq.2
  · cases c with
    | patchMachine obj => exact absurd hc (hE obj)
    | _ => trivial

/-- `ReconcileServerDeletion` is done only when the server is gone. -/
theorem server_deletion (hms : G.IsMachine t ms) (hq : G.Serves t q s) :
    (reconcileServerDeletion ms).wp G.monitor (fun q' r s' => r = (false, none) →
      G.Serves t q' s' ∧ q'.gone = true) q s := by
  unfold reconcileServerDeletion
  refine (wp_bind _ _).mpr (wp_mono (server_find hms hq) fun q₁ r s₁ h => ?_)
  obtain ⟨hfound, hnot, hgone⟩ := h
  match r with
  | .error e => exact (wp_pure _).mpr fun heq => nomatch heq
  | .ok (none, request) =>
    have hserves := hnot fun _ _ heq => nomatch heq
    dsimp only
    cases hpending : request.filter (·.isPending) with
    | some ri =>
      exact (wp_bind _ _).mpr ((wp_assign _).mpr ((wp_pure _).mpr fun heq => nomatch heq))
    | none =>
      refine (wp_bind _ _).mpr ((wp_assign _).mpr ((wp_pure _).mpr fun _ => ⟨hserves, ?_⟩))
      have hno : request.any (·.isPending) = false := by
        cases request with
        | none => rfl
        | some ri =>
          simp only [Option.filter_eq_none_iff] at hpending
          simpa using hpending
      simp [CleanupRun.gone, hgone request rfl hno]
  | .ok (some server, request) =>
    obtain ⟨⟨hserves, hid⟩, rfl⟩ := hfound server request rfl
    show (reconcileFoundServerDeletion ms server).wp _ _ _ _
    unfold reconcileFoundServerDeletion
    rw [hid]
    refine (wp_bind _ _).mpr (wp_mono (server_deletionAsked hms hserves) fun q₂ r₂ s₂ h₂ => ?_)
    obtain ⟨hserves₂, hdone⟩ := h₂
    -- a deletion that is requested is waited for
    have hrequest : (requestServerDeletion ms server).wp G.monitor
        (fun q' r s' => r = (false, none) → G.Serves t q' s' ∧ q'.gone = true) q₂ s₂ := by
      have hdelete : Within DeletingServer (fun _ => ()) (deleteServer ms server) :=
        within_deleteServer (fun _ _ => rfl) server
      refine (wp_bind _ _).mpr (wp_mono (hdelete.wp_of_ok (M := G.monitor) ?_ fun _ => trivial)
        fun _ r _ _ => ?_)
      · intro q' c hc
        exact hc.elim (fun _ _ => trivial) (fun _ => trivial) (fun _ _ => trivial)
          (fun _ _ _ => trivial) fun _ _ => trivial
      · cases r <;> exact (wp_pure _).mpr fun heq => nomatch heq
    match r₂ with
    | .error e => exact (wp_pure _).mpr fun heq => nomatch heq
    | .ok none => exact hrequest
    | .ok (some ri) =>
      dsimp only
      rw [wp_ite]
      split
      next =>
        exact (wp_bind _ _).mpr ((wp_assign _).mpr ((wp_pure _).mpr fun heq => nomatch heq))
      next =>
        rw [wp_ite]
        split
        next hd =>
          refine (wp_bind _ _).mpr ((wp_assign _).mpr ((wp_pure _).mpr fun _ => ⟨hserves₂, ?_⟩))
          simp [CleanupRun.gone, hdone ri rfl hd]
        next => exact hrequest

theorem serverNIC_serves (hms : G.IsMachine t ms) (hq : G.Serves t q s) :
    (getServerNICID ms).wp G.monitor (fun q' _ s' => G.Serves t q' s') q s := by
  unfold getServerNICID
  refine (wp_bind _ _).mpr (wp_mono (server_look hms hq) fun q' r s' h => ?_)
  have hserves : G.Serves t q' s' := by
    by_cases hsome : ∃ server, r = .ok (some server)
    · obtain ⟨server, heq⟩ := hsome
      exact (h.1 server heq).1
    · exact h.2.1 fun server heq => hsome ⟨server, heq⟩
  match r with
  | .error e =>
    dsimp only
    rw [wp_ite]
    split <;> exact (wp_pure _).mpr hserves
  | .ok server =>
    dsimp only
    split <;> exact (wp_pure _).mpr hserves

/-- `ReconcileIPFailoverDeletion` does not lose the machine's server. -/
theorem failoverDeletion_serves (hms : G.IsMachine t ms) (hq : G.Serves t q s) :
    (reconcileIPFailoverDeletion ms).wp G.monitor (fun q' _ s' => G.Serves t q' s') q s := by
  -- the sections under the lock do not touch the provider ID
  have hlocked : ∀ {p : MachineM Outcome} {q s}, Within DeletingFailover MachineVars.providerID p →
      G.Serves t q s → p.wp G.monitor (fun q' _ s' => G.Serves t q' s') q s :=
    fun hp hq => serves_within hp (fun _ h => h) (fun _ h => h) hq
  unfold reconcileIPFailoverDeletion MachineScope.countMachines ClusterScope.listMachines
  rw [wp_ite]
  split
  next => exact (wp_pure _).mpr hq
  next =>
    rw [wp_bind, wp_bind, wp_perform]
    refine ⟨trivial, fun a _ => ?_⟩
    have hq₁ : G.Serves t (G.next q (.listMachines ms.clusterScope.ns (failoverMatchLabels ms)) a)
        s := hq
    rw [wp_pure]
    split
    next => exact (wp_pure _).mpr hq₁
    next => exact (wp_pure _).mpr hq₁
    next =>
      unfold ensureFailoverDeletion
      refine (wp_bind _ _).mpr (wp_mono (serverNIC_serves hms hq₁) fun q₂ r s₂ hq₂ => ?_)
      cases r with
      | error e => exact (wp_pure _).mpr hq₂
      | ok nicID =>
        dsimp only
        rw [wp_ite]
        split
        next => exact (wp_pure _).mpr hq₂
        next => exact hlocked (within_removeNICFromFailoverGroup (fun _ _ => rfl) nicID) hq₂
    next =>
      unfold swapNICInFailoverGroup
      refine (wp_bind _ _).mpr (wp_mono (serverNIC_serves hms hq₁) fun q₂ r s₂ hq₂ => ?_)
      cases r with
      | error e => exact (wp_pure _).mpr hq₂
      | ok nicID =>
        exact hlocked (within_locked (fun _ => trivial) (fun _ => trivial)
          ((within_swapNICInFailoverGroupLocked (fun _ _ => rfl) _ nicID).mono fun _ hc => hc.1)) hq₂

theorem lan_lookedFor {dc : String} {a : Call.Ans (.lansGet dc)}
    (h : G.lan.look (.lansGet dc) a = some false) (hseen : Seen q.lan) :
    (G.next q (.lansGet dc) a).lan = .clear := by
  show q.lan.watch (G.lan.obs (G.lan.kind _ a)) = .clear
  unfold Site.lan at h ⊢
  rw [kind_lansGet h]
  exact hseen.looked

/-- A LAN that is found with a NIC in it is left to somebody else. -/
theorem lan_passed (hms : G.IsMachine t ms) (hgone : q.gone = true) {lans : List Lan} {lan : Lan}
    (hfound : findLAN ms.spec.networkID (lanName ms.clusterScope) 0 none lans = .ok (some lan))
    {nic : String} {nics : List String} (hnics : lan.nics = some (nic :: nics)) :
    (G.next q (.lansGet ms.datacenterID) (.ok (some lans))).left = true := by
  have hmem : lan ∈ lans := (findLAN_mem hfound).resolve_right fun h => nomatch h
  have hname : lan.name = some (lanName G.scope.clusterScope) := by
    rw [hms.networkID, hms.lanName] at hfound
    refine findLAN_name ?_ hfound
    intro l hl
    exact nomatch hl
  have hleft : G.nicLeft lan = true := by
    simp [nicLeft, hname, hnics, deref]
  have hany : lans.any G.nicLeft = true := List.any_eq_true.mpr ⟨lan, hmem, hleft⟩
  show (q.left || (q.gone && (decide (ms.datacenterID = G.scope.datacenterID) &&
    lans.any G.nicLeft))) = true
  rw [hgone, hany, hms.datacenterID]
  simp

/-- The lookup of the LAN finds the LAN, or what became of it. -/
theorem lan_find (hms : G.IsMachine t ms) (hgone : q.gone = true) :
    (findResource (getLAN ms) (getLatestLANCreationRequest ms)).wp G.monitor
      (fun q' r _ => (∀ lan ri, r = .ok (some lan, ri) → (q'.gone = true ∧
          ∀ nic nics, lan.nics = some (nic :: nics) → q'.left = true) ∧ ri = none) ∧
        ((∀ lan ri, r ≠ .ok (some lan, ri)) → q'.gone = true) ∧
        ∀ ri, r = .ok (none, ri) → ri.any (·.isPending) = false → q'.lan = .clear) q s := by
  refine wp_findResource_gone (M := G.monitor) (fun q' _ => q'.gone = true)
    (fun q' (lan : Lan) _ => q'.gone = true ∧
      ∀ nic nics, lan.nics = some (nic :: nics) → q'.left = true)
    (fun q' _ => Seen q'.lan) (fun q' _ => q'.lan = .clear) hgone ?_ ?_
  · intro q s hgone
    refine wp_getLAN ?_ trivial ?_ ?_ fun _ => trivial
    · intro e he
      refine ⟨fun _ heq => (by cases heq), fun _ => hgone, fun _ hr => ?_⟩
      rw [findResource.notFoundIsNone, he] at hr
      cases hr
    · intro e e' _ he
      exact ⟨fun _ heq => (by cases heq), fun _ => CleanupRun.gone_next G _ _ hgone, fun hseen hr =>
        lan_lookedFor (lan_look_missing hms.toSharesLAN he hr) hseen⟩
    · intro lans _
      refine ⟨?_, fun _ => CleanupRun.gone_next G _ _ hgone, fun hseen hr =>
        lan_lookedFor (lan_look_list hms.toSharesLAN hr) hseen⟩
      intro lan hfound
      exact ⟨CleanupRun.gone_next G _ _ hgone, fun nic nics hnics => lan_passed hms hgone hfound hnics⟩
  · intro q s hgone
    have hask := watched_lan (G := G) |>.wp_ask (s := s) (I := fun q' _ => q'.gone = true)
      (fun _ _ _ _ h _ => CleanupRun.gone_next G _ _ h) hgone trivial
    have hquery : getLatestLANCreationRequest ms = getMatchingRequest G.lan.type .post
        G.lan.url G.lan.matchers := by
      unfold getLatestLANCreationRequest
      rw [hms.datacenterID, hms.lanName]
      rfl
    rw [hquery]
    exact hask

/-- Calls that do not store the machine keep what is known. -/
theorem keeps_within {α κ : Type} {E : Call → Prop} {keep : MachineVars → κ} {p : MachineM α}
    (hp : Within E keep p) (hE : ∀ obj, ¬ E (.patchMachine obj)) (known : CleanupRun T → Prop)
    (hknown : ∀ q c (a : Call.Ans c), known q → known (G.next q c a)) (hq : known q) :
    p.wp G.monitor (fun q' _ s' => known q' ∧ keep s' = keep s) q s := by
  refine hp.wp_inv (M := G.monitor) known (fun q' c hq' hc => ⟨?_, fun a _ => hknown q' c a hq'⟩)
    (fun _ _ => trivial) hq
  cases c with
  | patchMachine obj => exact absurd hc (hE obj)
  | _ => trivial

/-- `ReconcileLANDeletion` is done only when the LAN is gone, or a NIC is in it. -/
theorem lan_deletion (hms : G.IsMachine t ms) (hgone : q.gone = true) :
    (reconcileLANDeletion ms).wp G.monitor (fun q' r _ => r = (false, none) → q'.done = true)
      q s := by
  unfold reconcileLANDeletion
  refine wp_locked trivial (fun _ _ => ⟨trivial, fun _ => trivial⟩)
    (fun _ _ heq => nomatch heq) fun _ => ?_
  have hgone₁ : (G.next q (.lock (lanLockKey ms)) (.ok ())).gone = true :=
    CleanupRun.gone_next G _ _ hgone
  refine wp_mono (?_ : (reconcileLANDeletionLocked ms).wp G.monitor
    (fun q' r _ => r = (false, none) → q'.done = true) _ _)
    fun q' r s' h => ⟨trivial, fun _ heq => CleanupRun.done_next G _ _ (h heq)⟩
  unfold reconcileLANDeletionLocked
  refine (wp_bind _ _).mpr (wp_mono (lan_find hms hgone₁) fun q₂ r s₂ h => ?_)
  obtain ⟨hfound, hnot, hclear⟩ := h
  match r with
  | .error e => exact (wp_pure _).mpr fun heq => nomatch heq
  | .ok (none, request) =>
    dsimp only
    rw [wp_ite]
    split
    next => exact (wp_pure _).mpr fun heq => nomatch heq
    next hp =>
      have hdone : q₂.done = true :=
        CleanupRun.done_of (hnot fun _ _ heq => nomatch heq) (.inr (hclear request rfl (by simpa using hp)))
      have hbooks : Within Bookkeeping (fun _ => ()) (removeLANPendingRequestFromCluster ms) :=
        within_removeLANPendingRequest (fun _ _ _ => rfl) (fun _ => trivial) (fun _ => trivial)
          fun _ => trivial
      refine (wp_bind _ _).mpr (wp_mono (keeps_within hbooks (fun _ h => h) (·.done = true)
        (fun _ _ _ => CleanupRun.done_next G _ _) hdone) fun q₃ r s₃ h₃ => ?_)
      cases r with
      | some e => exact (wp_pure _).mpr fun heq => nomatch heq
      | none => exact (wp_pure _).mpr fun _ => h₃.1
  | .ok (some lan, request) =>
    obtain ⟨⟨hgone₂, hnics⟩, rfl⟩ := hfound lan request rfl
    dsimp only
    rw [wp_ite, if_neg (by exact Bool.false_ne_true)]
    unfold reconcileFoundLANDeletion
    cases hid : lan.id with
    | none => exact (wp_panicking _).mpr trivial
    | some lanID =>
      unfold getLatestLANDeletionRequest
      have hask : Within (fun c => ∃ url, c = .requestsGet .delete url) (fun _ => ())
          (getMatchingRequest .lan .delete (lanURL ms.datacenterID lanID) [] : MachineM _) :=
        within_getMatchingRequest fun url => ⟨url, rfl⟩
      refine (wp_bind _ _).mpr (wp_mono (keeps_within hask (fun _ ⟨_, h⟩ => nomatch h)
        (fun q' => q'.gone = true ∧ ∀ nic nics, lan.nics = some (nic :: nics) → q'.left = true)
        (fun q' c a h => ⟨CleanupRun.gone_next G _ _ h.1, fun nic nics hn => ?_⟩)
        ⟨hgone₂, hnics⟩) fun q₃ r s₃ h₃ => ?_)
      · show (q'.left || _) = true
        rw [h.2 nic nics hn]
        rfl
      obtain ⟨⟨hgone₃, hleft⟩, -⟩ := h₃
      cases r with
      | error e => exact (wp_pure _).mpr fun heq => nomatch heq
      | ok request =>
        dsimp only
        rw [wp_ite]
        split
        next => exact (wp_pure _).mpr fun heq => nomatch heq
        next =>
          match hnics : lan.nics with
          | none => exact (wp_panicking _).mpr trivial
          | some (nic :: nics) =>
            exact (wp_pure _).mpr fun _ =>
              CleanupRun.done_of hgone₃ (.inl (hleft nic nics hnics))
          | some [] =>
            -- the deletion is waited for
            have hdelete : Within DeletingLAN (fun _ => ()) (deleteLAN ms lanID) :=
              within_deleteLAN (fun _ _ _ => rfl) lanID (fun _ _ => trivial) (fun _ => trivial)
                (fun _ => trivial) fun _ => trivial
            refine (wp_bind _ _).mpr (wp_mono (keeps_within hdelete (fun _ h => h) (fun _ => True)
              (fun _ _ _ _ => trivial) trivial) fun _ r _ _ => ?_)
            cases r <;> exact (wp_pure _).mpr fun heq => nomatch heq

/-- A step of the run: it ends the run, or the rest follows. -/
theorem wp_step {step : ServiceReconcileStep MachineVars}
    {steps : List (ServiceReconcileStep MachineVars)}
    (h : step.fn.wp G.monitor (fun q' r s' => r = (false, none) →
      (runSteps (fun _ => return ()) steps).wp G.monitor
        (fun q'' r _ => r = none → q''.done = true) q' s') q s) :
    (runSteps (fun _ => return ()) (step :: steps)).wp G.monitor
      (fun q' r _ => r = none → q'.done = true) q s :=
  wp_runSteps_step (fun _ _ _ => (wp_pure _).mpr trivial) (fun _ _ _ heq => nomatch heq) h

/-- All steps are done only when the machine may go. -/
theorem steps_done (hms : G.IsMachine t ms) (hq : G.Serves t q s) :
    (runSteps (fun _ => return ()) (deleteSequence ms)).wp G.monitor
      (fun q' r _ => r = none → q'.done = true) q s := by
  unfold deleteSequence
  refine wp_step (wp_mono (failoverDeletion_serves hms hq) fun q₁ _ s₁ hq₁ _ => ?_)
  refine wp_step (wp_mono (server_deletion hms hq₁) fun q₂ _ s₂ h₂ hr => ?_)
  refine wp_step (wp_mono (lan_deletion hms (h₂ hr).2) fun q₃ _ s₃ h₃ hr => ?_)
  have hblock : Within DeletingIPBlock (fun _ => ()) (reconcileFailoverIPBlockDeletion ms) :=
    within_reconcileFailoverIPBlockDeletion ⟨fun _ _ => rfl, fun _ _ => rfl, fun _ _ => rfl,
      fun _ _ _ => rfl⟩
  refine wp_step (wp_mono (keeps_within hblock (fun _ h => h) (·.done = true)
    (fun _ _ _ => CleanupRun.done_next G _ _) (h₃ hr)) fun q₄ _ s₄ h₄ _ => ?_)
  have hclaims : Within K8s.ReleasingClaims (fun _ => ()) (K8s.reconcileIPAddressClaimsDeletion ms) :=
    K8s.within_reconcileIPAddressClaimsDeletion
  refine wp_step (wp_mono (keeps_within hclaims (fun _ h => h) (·.done = true)
    (fun _ _ _ => CleanupRun.done_next G _ _) h₄.1) fun q₅ _ s₅ h₅ _ => ?_)
  exact wp_runSteps_nil fun _ => h₅.1

/-- The machine still has its finalizer, or may go. -/
def Kept (q : CleanupRun T) (s : MachineVars) : Prop :=
  machineFinalizer ∈ s.finalizers ∨ q.done = true

/-- `checkRequestStates` stores the machine with its finalizer. -/
theorem check_serves (hq : G.Serves t q s) (hs : machineFinalizer ∈ s.finalizers) :
    (checkRequestStates ms).wp G.monitor (fun q' _ s' => G.Serves t q' s') q s := by
  let keep : MachineVars → List String × String := fun v => (v.finalizers, v.providerID)
  have hcheck : (checkRequestStates ms).wp G.monitor
      (fun q' _ s' => q'.machine = t ∧ keep s' = keep s) q s := by
    refine wp_checkRequestStates (M := G.monitor) (·.machine = t) (fun _ _ _ => rfl)
      (fun _ _ => rfl) (fun q' c hq' hc => ⟨?_, fun _ _ => hq'⟩)
      (fun q' obj hq' hobj => ⟨.inl ?_, fun _ _ => hq'⟩) (fun _ _ => trivial) hq.1
    · cases c with
      | patchMachine obj => exact False.elim hc
      | _ => trivial
    · rw [show obj.finalizers = s.finalizers from congrArg Prod.fst hobj]
      exact hs
  refine wp_mono hcheck fun q' _ s' h => ⟨h.1, ?_⟩
  rw [show s'.providerID = s.providerID from congrArg Prod.snd h.2]
  exact hq.2

theorem deletion_kept (hms : G.IsMachine t ms) (hq : G.Serves t q s)
    (hs : machineFinalizer ∈ s.finalizers) : (reconcileDelete ms).wpEnd G.monitor Kept q s := by
  unfold reconcileDelete
  refine wpEnd_bind (within_checkRequestStates finalizers_frame.cluster
    finalizers_frame.currentRequest) (check_serves hq hs) (fun q₁ r s₁ hq₁ hs₁ => ?_)
    fun _ s' _ hs' => .inl (hs' ▸ hs)
  have hheld : machineFinalizer ∈ s₁.finalizers := hs₁ ▸ hs
  match r with
  | (true, _) => exact wpEnd_pure (.inl hheld)
  | (false, _) =>
    refine wpEnd_bind (within_runSteps (fun _ => .pure _) (within_deleteSequence finalizers_frame))
      (steps_done hms hq₁) (fun q₂ r s₂ h₂ hs₂ => ?_) fun _ s' _ hs' => .inl (hs' ▸ hheld)
    cases r with
    | some outcome => exact wpEnd_pure (.inl (hs₂ ▸ hheld))
    | none => exact wpEnd_assign (wpEnd_pure (.inr (h₂ rfl)))

/-- Every run of the site keeps the rule. -/
theorem run_job {p : Prog Call Call.Ans Unit} (h : G.Job q p) :
    p.wp G.monitor (fun _ _ => True) q := by
  obtain ⟨t, ms, s, rfl, hms, hs, howns, rfl⟩ := h
  refine wp_withFinalize (J := Kept) ?_ ?_ fun _ _ => trivial
  · rw [hms.deleted]
    have hservice : Within (fun c => (∃ ns name, c = .getCredentials ns name) ∨
        ∃ secret, c = .updateCredentials secret) (fun v : MachineVars => v)
        (createServiceFromCluster ms.clusterScope) :=
      within_createServiceFromCluster (fun ns name => .inl ⟨ns, name, rfl⟩)
        (fun secret => .inr ⟨secret, rfl⟩) _
    refine wpEnd_bind hservice (serves_within hservice ?_ (fun _ h => by rw [h]) ⟨rfl, howns⟩)
      (fun q₁ r s₁ hq₁ hs₁ => ?_) fun _ s' _ hs' => .inl (hs' ▸ hs)
    · rintro obj (⟨_, _, h⟩ | ⟨_, h⟩) <;> exact nomatch h
    have hheld : machineFinalizer ∈ s₁.finalizers := hs₁ ▸ hs
    cases r with
    | some e =>
      dsimp only
      split <;> exact wpEnd_pure (.inl hheld)
    | none => exact deletion_kept hms hq₁ hheld
  · intro q' s' hkept
    unfold MachineScope.finalize
    refine wp_mono (wp_retryOnError (I := Kept) (fun q s hk => ?_) _ hkept) fun _ _ _ _ => trivial
    unfold MachineScope.patchObject
    rw [wp_bind, wp_vars, wp_bind, wp_perform]
    refine ⟨hk, fun a _ => (wp_pure _).mpr ?_⟩
    exact hk.imp_right (CleanupRun.done_next G _ _)

/-! ## The result -/

variable [DecidableEq T] {W : Type} [DecidableEq W]

theorem site_sound (G : Site T) : (G.system W).Sound (fun _ _ _ => True)
    { ok := Ok, adm := fun _ => G.Adm } CleanupInv where
  answers _ h _ := ⟨⟨trivial, h.1.lan.known⟩, fun t => ⟨trivial, (h.1.server t).known⟩,
    h.1.identifies⟩
  jobs h := run_job h
  idle := trivial
  call := by
    intro w ph x c a w' hI hok hexec _
    obtain ⟨hanswers, hstores⟩ := hexec
    cases c with
    | patchMachine obj =>
      rcases hstores with rfl | ⟨hremoved, rfl⟩
      · exact hI.answer hanswers
      · -- the finalizer is gone: the run has found out what it takes
        have hreleased := hI.release (hok.resolve_left hremoved)
        exact hreleased.answer ⟨hanswers.lan, hanswers.server, hanswers.identifies,
          hanswers.nics, hanswers.deletion⟩
    | _ =>
      obtain rfl := hstores
      exact hI.answer hanswers
  start := by
    rintro w ph x q p hI - ⟨t, _, _, rfl, _⟩
    exact hI.start x t
  env hI h _ := hI.moves h
  crash := by
    rintro w w' ph hI rfl
    refine ⟨hI.lan, hI.servers, hI.sane, fun _ => .fresh hI.lan hI.servers _, hI.released, ?_⟩
    exact hI.last.imp_right fun ⟨t, ht, _⟩ => ⟨t, ht, fun _ _ => rfl⟩

end Site

/-- A world to begin with: at most the newest creations still count, and every machine has its
finalizer. -/
structure CleanupWorld.Starts {T : Type} (w : CleanupWorld T) : Prop where
  lan : (watched w.lan).Settled
  servers : ∀ t, (watched (w.server t).creations).Settled
  sane : ∀ t, (w.server t).Sane
  released : ∀ t, w.released t = false

/-- When the last machine has lost its finalizer, the LAN is gone, and none is on its way. -/
theorem lan_cleaned {T : Type} [DecidableEq T] (G : Site T) (W : Type) [DecidableEq W]
    (w : CleanupWorld T) (hw : w.Starts) (s : (G.system W).Conf)
    (hs : (G.system W).Reach (fun _ _ _ => True) w s)
    (hreleased : ∀ t, s.world.released t = true) :
    ∀ c ∈ s.world.lan, ¬ c.Live := by
  have hstart : CleanupInv w fun _ : W => CleanupRun.fresh G.first :=
    ⟨hw.lan, hw.servers, hw.sane, fun _ => .fresh hw.lan hw.servers _,
      fun t ht => absurd ht (by simp [hw.released t]),
      .inr ⟨G.first, hw.released _, fun _ _ => rfl⟩⟩
  have hinv := (Site.site_sound G).reach hstart hs
  rcases hinv.1.last with hdead | ⟨t, ht, _⟩
  · exact hdead
  · rw [hreleased t] at ht
    exact nomatch ht

/-- Two machines in the data center `dc`: `a` (`true`) and `b` (`false`). -/
def pairSite : Site Bool where
  scope := plainMachine
  first := true
  name t := if t then "a" else "b"
  serverID t := if t then "server-a" else "server-b"
  hadID t id := id = if t then "server-a" else "server-b"
  hadID_serverID _ := rfl

/-- The LAN and the server of `b` have been created; each is there, or not any more. The server
of `a` is gone for longer. -/
def pairWorld (lan server : Bool) (released : Bool → Bool) : CleanupWorld Bool where
  lan := [⟨0, .done, lan⟩]
  server t := if t then ⟨[], false, false⟩ else ⟨[⟨0, .done, server⟩], server, false⟩
  released := released

/-- The request that created the LAN. -/
def lanDone : Request :=
  ⟨0, [some .lan], some "datacenters/dc/lans", .ok (some ⟨some "lan--", none⟩), .done,
    some "lan-request"⟩

/-- The request that created the server of `b`. -/
def serverDone : Request :=
  ⟨0, [some .server], some "datacenters/dc/servers", .ok (some ⟨some "b", none⟩), .done,
    some "server-request"⟩

/-- The requests, by the URL they are looked for. -/
def pairRequests (url : String) : Option (List Request) :=
  if url = "datacenters/dc/lans" then some [lanDone]
  else if url = "datacenters/dc/servers" then some [serverDone]
  else none

/-- The answers in that world. The NIC in the LAN is the one of the server of `b`. -/
def pairAnswers (lan server : Bool) : ∀ c : Call, Call.Ans c
  | .lansGet _ =>
    .ok (some (if lan then
      [⟨some "7", some "lan--", none, none, some (if server then ["nic-b"] else [])⟩] else []))
  | .serversGet _ =>
    .ok (some (if server then
      [⟨some "server-b", none, some ⟨some "b", none, none⟩, none⟩] else []))
  | .requestsGet _ url => .ok (pairRequests url)
  | .getCredentials _ _ => .ok ⟨"", "", 0, [], [], "token", ""⟩
  | c => Call.plain c

/-- What a run does to the world. -/
def pairEffect (q : CleanupRun Bool) (w : CleanupWorld Bool) : Call → CleanupWorld Bool
  | .patchMachine obj =>
    if machineFinalizer ∈ obj.finalizers then w
    else { w with released := update w.released q.machine true }
  | _ => w

theorem pairAnswers_lan (lan server : Bool) (c : Call) :
    pairSite.lan.Tells [⟨0, .done, lan⟩] c (pairAnswers lan server c) := by
  by_cases hc : ∃ method url, c = .requestsGet method url
  · obtain ⟨method, url, rfl⟩ := hc
    refine Resource.tells_requests fun _ hurl => ?_
    obtain rfl : url = "datacenters/dc/lans" := hurl
    exact shows_one ⟨⟨by decide, _, rfl, by decide⟩, fun _ => ⟨_, rfl, by decide⟩⟩ rfl rfl
  · refine Resource.tells_of_look (fun method url h => hc ⟨method, url, h⟩) ?_
    cases c with
    | lansGet dc =>
      intro hlook x hx hvisible
      obtain rfl := List.mem_singleton.mp hx
      obtain rfl : lan = true := hvisible.2
      by_cases hdc : dc = "dc"
      · rw [hdc] at hlook
        exact absurd hlook (by cases server <;> decide)
      · exact nomatch (if_neg hdc).symm.trans hlook
    | _ => exact fun h => nomatch h

theorem pairAnswers_server (lan server : Bool) (released : Bool → Bool) (t : Bool) (c : Call) :
    (pairSite.server t).Tells ((pairWorld lan server released).server t).creations c
      (pairAnswers lan server c) := by
  by_cases hc : ∃ method url, c = .requestsGet method url
  · obtain ⟨method, url, rfl⟩ := hc
    refine Resource.tells_requests fun _ hurl => ?_
    obtain rfl : url = "datacenters/dc/servers" := by cases t <;> exact hurl
    cases t with
    | false =>
      exact shows_one ⟨⟨by decide, _, rfl, by decide⟩, fun _ => ⟨_, rfl, by decide⟩⟩ rfl rfl
    | true =>
      -- the only request is for a server with another name
      refine ⟨fun _ h => (nomatch h), fun req hreq hmatch => ?_⟩
      obtain rfl := List.mem_singleton.mp hreq
      obtain ⟨properties, hbody, hnamed⟩ := hmatch.2 (List.cons_ne_nil _ _)
      obtain rfl : some ⟨some "b", none⟩ = properties := Except.ok.inj hbody
      exact absurd hnamed (by decide)
  · refine Resource.tells_of_look (fun method url h => hc ⟨method, url, h⟩) ?_
    cases t with
    | true => exact fun _ _ h => nomatch h
    | false =>
      cases c with
      | serversGet dc =>
        intro hlook x hx hvisible
        obtain rfl := List.mem_singleton.mp hx
        obtain rfl : server = true := hvisible.2
        by_cases hdc : dc = "dc"
        · rw [hdc] at hlook
          exact absurd hlook (by cases lan <;> decide)
        · exact nomatch (if_neg hdc).symm.trans hlook
      | _ => exact fun h => nomatch h

theorem pairRequests_cases (url : String) : pairRequests url = some [lanDone] ∨
    pairRequests url = some [serverDone] ∨ pairRequests url = none := by
  unfold pairRequests
  split
  next => exact .inl rfl
  next =>
    split
    next => exact .inr (.inl rfl)
    next => exact .inr (.inr rfl)

theorem pairAnswers_current (lan server : Bool) (released : Bool → Bool) (c : Call) :
    pairSite.Answers (pairWorld lan server released) c (pairAnswers lan server c) where
  lan := pairAnswers_lan lan server c
  server t := pairAnswers_server lan server released t c
  identifies := by
    cases c with
    | serversGet dc =>
      intro _ x hx t hname
      cases server with
      | false => exact nomatch hx
      | true =>
        obtain rfl := List.mem_singleton.mp hx
        cases t with
        | false => rfl
        | true => exact absurd hname (by decide)
    | _ => trivial
  nics h := by
    cases c with
    | lansGet dc =>
      refine ⟨false, ?_⟩
      cases server with
      | true => rfl
      | false =>
        have hseen : (decide (dc = "dc") && false) = true := by cases lan <;> exact h
        rw [Bool.and_false] at hseen
        exact nomatch hseen
    | _ => exact nomatch h
  deletion t h := by
    cases c with
    | requestsGet method url =>
      cases method with
      | delete =>
        have hseen : pairSite.deletionSeen t (.requestsGet .delete url)
          (.ok (pairRequests url)) = true := h
        rcases pairRequests_cases url with hitems | hitems | hitems <;> rw [hitems] at hseen <;>
          cases t <;> exact nomatch hseen
      | _ => exact nomatch h
    | _ => exact nomatch h

theorem pairEffect_stores (q : CleanupRun Bool) (w : CleanupWorld Bool) (c : Call) :
    Site.Stores q w c (pairEffect q w c) := by
  cases c with
  | patchMachine obj =>
    by_cases hheld : machineFinalizer ∈ obj.finalizers
    · exact .inl (if_pos hheld)
    · exact .inr ⟨hheld, if_neg hheld⟩
  | _ => rfl

theorem pairEffect_world (lan server : Bool) (released : Bool → Bool) (q : CleanupRun Bool)
    (c : Call) : ∃ released',
      pairEffect q (pairWorld lan server released) c = pairWorld lan server released' := by
  cases c with
  | patchMachine obj =>
    by_cases hheld : machineFinalizer ∈ obj.finalizers
    · exact ⟨released, if_pos hheld⟩
    · exact ⟨update released q.machine true, if_neg hheld⟩
  | _ => exact ⟨released, rfl⟩

/-- A machine's scope, as it is deleted. -/
def pairMachine (t : Bool) : MachineScope :=
  { plainMachine with name := pairSite.name t, deleted := true }

/-- A run of the deleted machine, its finalizer still there. -/
def pairRun (t : Bool) : Prog Call Call.Ans Unit :=
  (reconcile (pairMachine t)
    { (default : MachineVars) with finalizers := [machineFinalizer] }).forget

theorem pairRun_job (t : Bool) : pairSite.Job (.fresh t) (pairRun t) :=
  ⟨t, pairMachine t, { (default : MachineVars) with finalizers := [machineFinalizer] }, rfl,
    ⟨⟨rfl, rfl, rfl, rfl⟩, rfl, rfl, rfl⟩, List.mem_singleton_self _, .inl rfl, rfl⟩

/-- Where the run ends. -/
def pairEnd (lan server : Bool) (released : Bool → Bool) (t : Bool) :
    Prog Call Call.Ans Unit × CleanupRun Bool × CleanupWorld Bool :=
  (pairSite.system Bool).play (pairAnswers lan server) pairEffect 100
    (pairRun t, .fresh t, pairWorld lan server released)

/-- A run of a machine, from one end to the other. -/
theorem pair_round {lan server : Bool} {released : Bool → Bool} {w : CleanupWorld Bool}
    {ph : Bool → CleanupRun Bool}
    (h : (pairSite.system Bool).Reach (fun _ _ _ => True) w
      ⟨pairWorld lan server released, fun _ => .ret (), ph⟩) (t : Bool) (released' : Bool → Bool)
    (hend : (pairEnd lan server released t).1.next?.isNone = true ∧
      ∀ x, (pairEnd lan server released t).2.2.released x = released' x) :
    ∃ ph', (pairSite.system Bool).Reach (fun _ _ _ => True) w
      ⟨pairWorld lan server released', fun _ => .ret (), ph'⟩ := by
  have hexec : ∀ q w c, (∃ released, w = pairWorld lan server released) →
      (pairSite.Answers w c (pairAnswers lan server c) ∧ Site.Stores q w c (pairEffect q w c)) ∧
        ∃ released, pairEffect q w c = pairWorld lan server released := by
    rintro q w c ⟨released, rfl⟩
    exact ⟨⟨pairAnswers_current lan server released c, pairEffect_stores q _ c⟩,
      pairEffect_world lan server released q c⟩
  obtain ⟨hret, hreleased⟩ := hend
  have hplay : (pairSite.system Bool).play (pairAnswers lan server) pairEffect 100
      (pairRun t, .fresh t, pairWorld lan server released) = pairEnd lan server released t := rfl
  have hstart := h.start t rfl (pairRun_job t) trivial
  have hfinish := hstart.finish (pairAnswers lan server) pairEffect
    (fun _ w => ∃ released, w = pairWorld lan server released) hexec (fun _ _ _ _ => trivial) 100
    ⟨released, rfl⟩
  obtain ⟨hreach, left, hw⟩ := hfinish (pairEnd lan server released t) hplay hret
  generalize pairEnd lan server released t = e at hreach hw hreleased
  rw [hw] at hreleased
  rw [hw, show left = released' from funext hreleased] at hreach
  have hidle : update (fun _ : Bool => (Prog.ret () : Prog Call Call.Ans Unit)) t (.ret ()) =
      fun _ => .ret () := Function.update_eq_self t _
  rw [hidle] at hreach
  exact ⟨_, hreach⟩

/-- `a` sees the NIC of `b` in the LAN, and goes. `b` has its server deleted, and waits; once the
server is gone, it has the LAN deleted, and waits; once the LAN is gone, it goes, too. -/
theorem lan_cleaned_run : ∃ s, (pairSite.system Bool).Reach (fun _ _ _ => True)
    (pairWorld true true fun _ => false) s ∧ (∀ t, s.world.released t = true) ∧
      ∀ c ∈ s.world.lan, ¬ c.Live := by
  have h₀ : (pairSite.system Bool).Reach (fun _ _ _ => True) (pairWorld true true fun _ => false)
    _ := .init
  obtain ⟨ph₁, h₁⟩ := pair_round h₀ true id (by decide +kernel)
  obtain ⟨ph₂, h₂⟩ := pair_round h₁ false id (by decide +kernel)
  have hserver : (pairWorld true true id).Moves (pairWorld true false id) := by
    refine ⟨.inl rfl, fun t => ?_, rfl⟩
    cases t with
    | true => exact ⟨.inl rfl, fun h => h, fun h => nomatch h⟩
    | false => exact ⟨.inr ⟨[], _, _, [], rfl, .delete 0, rfl⟩, fun h => h, fun h => nomatch h⟩
  obtain ⟨ph₃, h₃⟩ := pair_round (h₂.env hserver trivial) false id (by decide +kernel)
  have hlan : (pairWorld true false id).Moves (pairWorld false false id) := by
    refine ⟨.inr ⟨[], _, _, [], rfl, .delete 0, rfl⟩, fun t => ⟨.inl rfl, fun h => h, ?_⟩, rfl⟩
    cases t <;> exact fun h => nomatch h
  obtain ⟨ph₄, h₄⟩ := pair_round (h₃.env hlan trivial) false (fun _ => true) (by decide +kernel)
  have hstarts : (pairWorld true true fun _ => false).Starts := by
    refine ⟨⟨fun _ h => (nomatch h), List.pairwise_singleton _ _⟩, fun t => ?_, fun t => ?_,
      fun _ => rfl⟩
    · cases t with
      | true => exact ⟨fun _ h => (nomatch h), .nil⟩
      | false => exact ⟨fun _ h => (nomatch h), List.pairwise_singleton _ _⟩
    · cases t with
      | true => exact fun h => nomatch h
      | false => exact fun _ => ⟨rfl, _, List.mem_singleton_self _, .inr ⟨rfl, rfl⟩⟩
  exact ⟨_, h₄, fun _ => rfl, lan_cleaned pairSite Bool _ hstarts _ h₄ fun _ => rfl⟩

end Capic.Properties
