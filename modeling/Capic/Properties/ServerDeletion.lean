import Capic.Controller.Machine
import Capic.Effect.Mutex
import Capic.Properties.GroupUpdates

/-!
# Servers are deleted outside the failover group

When a machine of a failover group is deleted, its run first takes the machine's NIC out
of the group (`ReconcileIPFailoverDeletion`): the last machine removes its entry, any other
gives it to the newest of the rest. Then the server is deleted
(`ReconcileServerDeletion`). Between the two steps the LAN's lock is free.

`deletionSystem` is the system of any number of such runs against the cloud. An accepted
PATCH is executed at any later time, and waiting for it returns once it is executed;
servers come and go, though not while an entry of the group names their NIC.

Each run has a flag `clear`: its failover step has found out that no entry names the
machine's NIC. `server_deletion_clear` says that this is still true when `DeleteServer` is
sent, along every run in which

* `FindLatestMachine` finds a machine to give the entry to, and
* an entry is not given to a machine whose own run has passed its failover step already.

`server_deletion_unreplaced` and `server_deletion_overtaken` are runs that violate one
of these each, and delete a server whose NIC is in the group.
-/

namespace Capic.Properties

open Effect Effect.Go Cloud

/-! ## The system -/

/-- A failover group: the LAN it is kept in and the primary NIC of each machine. -/
structure FailoverGroup where
  /-- One of the machines. -/
  scope : MachineScope
  lanID : String
  nicOf : String → String
  nicOf_injective : Function.Injective nicOf
  nicOf_ne : ∀ machine, nicOf machine ≠ ""

/-- Machines of one failover group. -/
structure SharesGroup (ms ms₀ : MachineScope) : Prop extends SharesLAN ms ms₀ where
  networkID : ms.spec.networkID = ms₀.spec.networkID
  required : ms.failoverRequired = true

/-- The entries of the group, the accepted PATCHes that wait to be executed, the locks, and
the machines whose servers show their NIC. -/
structure DeletionWorld (T : Type) where
  list : List IPFailover
  pending : List (List IPFailover)
  owner : Owners T String
  visible : String → Bool

/-- An entry of the NIC is in the group, or will be. -/
def DeletionWorld.Mentions {T : Type} (w : DeletionWorld T) (nic : String) : Prop :=
  ∃ l ∈ w.list :: w.pending, Names l nic

/-- Where the failover step of a run is. -/
inductive Stage where
  | out
  | locked
  /-- The entries were read. -/
  | read (entries : List IPFailover)
  /-- The machine that is to take over was chosen. -/
  | chose (entries : List IPFailover) (machine : String)
  /-- A PATCH was sent. -/
  | patched

/-- The entries in hand. -/
def Stage.entries : Stage → Option (List IPFailover)
  | read entries | chose entries _ => some entries
  | _ => none

/-- The machine that is to take over. -/
def Stage.chosen : Stage → Option String
  | chose _ machine => some machine
  | _ => none

/-- The run of a machine. -/
structure DeletionRun where
  machine : String
  clear : Bool
  stage : Stage

/-- What a call with its answer is about. -/
inductive DeletionKind where
  | acquired (key : String)
  | released (key : String)
  | lans (lans : List Lan)
  | patch (body : List IPFailover) (answer : Except Err String)
  | waited (answer : Except Err Unit)
  /-- The server of the machine, or of the one that is to take over. -/
  | server (server : Option Server)
  | noServers (e : Err)
  | machines (machines : List MachineItem)
  | quiet

namespace FailoverGroup

variable (G : FailoverGroup)

def key : String := lanLockKey G.scope

/-- The LAN of the group among all LANs. -/
def lan (lans : List Lan) : Option Lan :=
  match findLAN G.scope.spec.networkID (lanName G.scope.clusterScope) 0 none lans with
  | .ok found => found
  | .error _ => none

/-- What a call of a run with its answer is about. -/
def kind (machine : String) : (c : Call) → Call.Ans c → DeletionKind
  | .lock key, .ok _ => .acquired key
  | .lockBackground key, _ => .acquired key
  | .unlock key, _ => .released key
  | .lansGet dc, .ok (some lans) => if dc = G.scope.datacenterID then .lans lans else .quiet
  | .lansPatch dc id body, a =>
    if dc = G.scope.datacenterID ∧ id = G.lanID then .patch body a else .quiet
  | .waitForRequest _, a => .waited a
  | .serversGet _, .error e => .noServers e
  | .listMachines _ _, .ok machines => .machines machines
  | c, a =>
    match serverSeen machine c a with
    | some server => .server server
    | none => .quiet

/-- What the world does, and may answer. -/
def effect {T : Type} [DecidableEq T] (t : T) (q : DeletionRun) (w : DeletionWorld T) :
    DeletionKind → DeletionWorld T → Prop
  | .acquired key, w' => w.owner key = none ∧ w' = { w with owner := w.owner.acquire t key }
  | .released key, w' => w' = { w with owner := w.owner.unlock t key }
  | .lans lans, w' => w' = w ∧ ∃ lan, G.lan lans = some lan ∧ lan.id = some G.lanID ∧
    deref lan.ipFailover [] = w.list
  | .patch body answer, w' =>
    -- accepted, and only with NICs that exist
    (∃ location, answer = .ok location ∧ location ≠ "") ∧
      (∀ machine, Names body (G.nicOf machine) → w.visible machine = true) ∧
      w' = { w with pending := w.pending ++ [body] }
  | .waited answer, w' => w' = w ∧ answer = .ok () ∧ w.pending = []
  | .server server, w' => w' = w ∧
    (∀ machine, nicSeen machine server = "" ∨ nicSeen machine server = G.nicOf machine) ∧
    (q.stage = .out → nicSeen q.machine server = "" → w.visible q.machine = false)
  | .noServers e, w' => w' = w ∧ isNotFound e = false
  | .machines machines, w' => w' = w ∧ (q.stage = .out → ∃ m ∈ machines, m.name = q.machine)
  | .quiet, w' => w' = w

/-- How the failover step moves on. -/
def nextStage (q : DeletionRun) : DeletionKind → Stage
  | .acquired key => if key = G.key then .locked else q.stage
  | .released key => if key = G.key then .out else q.stage
  | .lans lans =>
    match q.stage, G.lan lans with
    | .locked, some lan => .read (deref lan.ipFailover [])
    | stage, _ => stage
  | .machines machines =>
    match q.stage, MachineScope.latestOf q.machine machines with
    | .read entries, some m => .chose entries m.name
    | stage, _ => stage
  | .patch _ _ => .patched
  | .waited _ =>
    match q.stage with
    | .patched => .locked
    | stage => stage
  | _ => q.stage

/-- Whether no entry names the NIC: there is no such NIC, or the entries were read. -/
def nextClear (q : DeletionRun) : DeletionKind → Bool
  | .server server =>
    match q.stage with
    | .out => q.clear || nicSeen q.machine server = ""
    | _ => q.clear
  | .released key =>
    match q.stage with
    | .read entries =>
      q.clear || (key = G.key ∧ ∀ e ∈ entries, IPFailover.nic e ≠ G.nicOf q.machine)
    | _ => q.clear
  | _ => q.clear

def next (q : DeletionRun) (c : Call) (a : Call.Ans c) : DeletionRun where
  machine := q.machine
  clear := G.nextClear q (G.kind q.machine c a)
  stage := G.nextStage q (G.kind q.machine c a)

/-- What the cloud does on its own: it executes a PATCH, and servers come and go. -/
inductive Env {T : Type} : DeletionWorld T → DeletionWorld T → Prop
  | execute {w : DeletionWorld T} {body : List IPFailover} {rest : List (List IPFailover)} :
      w.pending = body :: rest → Env w { w with list := body, pending := rest }
  | servers {w : DeletionWorld T} (visible : String → Bool) :
      (∀ machine, w.Mentions (G.nicOf machine) → visible machine = true) →
      Env w { w with visible := visible }

/-- The first two steps of `reconcileDelete`. -/
def Job (q : DeletionRun) (p : Prog Call Call.Ans Unit) : Prop :=
  ∃ ms s, SharesGroup ms G.scope ∧ q = ⟨ms.name, false, .out⟩ ∧
    p = (Controller.runSteps (fun _ => return ())
      ((Controller.Machine.deleteSequence ms).take 2) s).forget

/-- The runs, and the cloud. -/
@[reducible] def deletionSystem (T : Type) [DecidableEq T] : System T Call Call.Ans where
  World := DeletionWorld T
  Phase := DeletionRun
  idle := ⟨"", false, .out⟩
  next := G.next
  exec t q w c a w' := G.effect t q w (G.kind q.machine c a) w'
  env := G.Env
  crash _ _ := False
  job _ q p := G.Job q p

/-! ## The rules -/

/-- Whenever a run looks for a machine to give its entry to, there is one. -/
def Replaced (T : Type) [DecidableEq T] : (G.deletionSystem T).Rule := fun _ ph l =>
  ∀ t c a machines entries, l = .call t ⟨c, a⟩ → G.kind (ph t).machine c a = .machines machines →
    (ph t).stage = .read entries → MachineScope.Replaceable (ph t).machine machines

/-- Whenever a run gives its entry away, no run of the machine that gets it has passed its failover
step. A run that has ended counts until its thread starts another one. -/
def NotOvertaken (T : Type) [DecidableEq T] : (G.deletionSystem T).Rule := fun _ ph l =>
  ∀ t c a body answer machine, l = .call t ⟨c, a⟩ →
    G.kind (ph t).machine c a = .patch body answer → (ph t).stage.chosen = some machine →
    ∀ u, (ph u).machine = machine → (ph u).clear = false

/-- Both. -/
def Orderly (T : Type) [DecidableEq T] : (G.deletionSystem T).Rule := fun w ph l =>
  G.Replaced T w ph l ∧ G.NotOvertaken T w ph l

/-- The calls a run may make where. -/
def Ok (q : DeletionRun) : Call → Prop
  | .lansPatch dc id body => dc = G.scope.datacenterID → id = G.lanID →
    ∃ entries, q.stage.entries = some entries ∧
      ∀ nic, Names body nic → Names entries nic ∨
        ∃ machine, q.stage.chosen = some machine ∧ nic = G.nicOf machine
  | .unlock key => key = G.key → q.stage ≠ .patched
  | .serversDelete _ _ _ => q.clear = true
  | _ => True

/-- The answers a run may count on. -/
def Counts (q : DeletionRun) : DeletionKind → Prop
  | .lans lans => ∃ lan, G.lan lans = some lan ∧ lan.id = some G.lanID
  | .patch _ answer => ∃ location, answer = .ok location ∧ location ≠ ""
  | .waited answer => answer = .ok ()
  | .server server =>
    ∀ machine, nicSeen machine server = "" ∨ nicSeen machine server = G.nicOf machine
  | .noServers e => isNotFound e = false
  | .machines machines => (q.stage = .out → ∃ m ∈ machines, m.name = q.machine) ∧
    ∀ entries, q.stage = .read entries → MachineScope.Replaceable q.machine machines
  | _ => True

def Adm (q : DeletionRun) (c : Call) (a : Call.Ans c) : Prop := G.Counts q (G.kind q.machine c a)

/-- What is asked of a run. It does not panic, nor end, with a PATCH under way. -/
@[reducible] def discipline (T : Type) [DecidableEq T] : (G.deletionSystem T).Discipline where
  ok := G.Ok
  adm := G.Adm
  panic q := q.stage ≠ .patched
  fin q := q.stage ≠ .patched

/-! ## The invariant -/

/-- The invariant: a PATCH is under way only while its run waits for it in the locked section,
what was read there is current, NICs in the group exist, and runs that are clear are. -/
structure Inv {T : Type} (w : DeletionWorld T) (ph : T → DeletionRun) : Prop where
  holds : w.owner.Guards G.key fun t => (ph t).stage ≠ .out
  waiting : w.pending ≠ [] → ∃ t, (ph t).stage = .patched
  read : ∀ t entries, (ph t).stage.entries = some entries → w.list = entries
  listed : ∀ machine, w.Mentions (G.nicOf machine) → w.visible machine = true
  clear : ∀ t, (ph t).clear = true → ¬ w.Mentions (G.nicOf (ph t).machine)

section

variable {G} {T : Type} {w w' : DeletionWorld T} {ph : T → DeletionRun} {t : T}

/-- Nothing is under way while a run reads. -/
theorem Inv.settled (h : G.Inv w ph) (hin : (ph t).stage ≠ .out) (hp : (ph t).stage ≠ .patched) :
    w.pending = [] := by
  by_contra hne
  obtain ⟨u, hu⟩ := h.waiting hne
  by_cases hut : u = t
  · rw [hut] at hu
    exact hp hu
  · have hout : (ph u).stage = .out := not_not.mp (h.holds.alone hin hut)
    exact nomatch hout.symm.trans hu

variable [DecidableEq T]

open Function (update)

/-- The step of one run, with the entries, the PATCHes and the servers as they were. -/
theorem Inv.move (h : G.Inv w ph) {q : DeletionRun} {owner : Owners T String}
    (hh : owner.Guards G.key fun u => (update ph t q u).stage ≠ .out)
    (hp : (ph t).stage = .patched → q.stage ≠ .patched → w.pending = [])
    (hr : ∀ entries, q.stage.entries = some entries → w.list = entries)
    (hc : q.clear = true → ¬ w.Mentions (G.nicOf q.machine)) :
    G.Inv { w with owner := owner } (update ph t q) where
  holds := hh
  waiting hne := by
    obtain ⟨u, hu⟩ := h.waiting hne
    by_cases hut : u = t
    · subst hut
      refine ⟨u, ?_⟩
      rw [Function.update_self]
      by_contra hq
      exact hne (hp hu hq)
    · refine ⟨u, ?_⟩
      rw [Function.update_of_ne hut]
      exact hu
  read u entries hu := by
    by_cases hut : u = t
    · rw [hut, Function.update_self] at hu
      exact hr entries hu
    · rw [Function.update_of_ne hut] at hu
      exact h.read u entries hu
  listed := h.listed
  clear u hu := by
    by_cases hut : u = t
    · rw [hut, Function.update_self] at hu ⊢
      exact hc hu
    · rw [Function.update_of_ne hut] at hu ⊢
      exact h.clear u hu

/-- The same without a lock. -/
theorem Inv.learn (h : G.Inv w ph) {q : DeletionRun}
    (hin : q.stage ≠ .out → (ph t).stage ≠ .out)
    (hp : (ph t).stage = .patched → q.stage ≠ .patched → w.pending = [])
    (hr : ∀ entries, q.stage.entries = some entries → w.list = entries)
    (hc : q.clear = true → ¬ w.Mentions (G.nicOf q.machine)) : G.Inv w (update ph t q) := by
  refine h.move (h.holds.stay t ?_ fun u hut hu => ?_) hp hr hc
  · by_cases hq : q.stage = .out
    · refine .inr fun hne => hne ?_
      rw [Function.update_self]
      exact hq
    · exact .inl (hin hq)
  · simpa only [Function.update_of_ne hut] using hu

theorem Inv.acquired (h : G.Inv w ph) {key : String} (hfree : w.owner key = none) :
    G.Inv { w with owner := w.owner.acquire t key }
      (update ph t ⟨(ph t).machine, (ph t).clear,
        if key = G.key then .locked else (ph t).stage⟩) := by
  refine h.move (h.holds.acquire hfree fun u hu => ?_) (fun hp hne => ?_) (fun entries hr => ?_)
    (h.clear t)
  · by_cases hut : u = t
    · subst hut
      rw [Function.update_self] at hu
      by_cases hk : key = G.key
      · exact .inl ⟨rfl, hk⟩
      · dsimp only at hu
        rw [if_neg hk] at hu
        exact .inr hu
    · rw [Function.update_of_ne hut] at hu
      exact .inr hu
  · -- whoever has a PATCH under way holds the lock
    have howner : w.owner G.key = some t :=
      h.holds t fun hout : (ph t).stage = .out => nomatch hp.symm.trans hout
    dsimp only at hne
    split at hne
    next hk =>
      rw [← hk, hfree] at howner
      exact nomatch howner
    next => exact absurd hp hne
  · dsimp only at hr
    split at hr
    next => exact nomatch hr
    next => exact h.read t entries hr

theorem Inv.released (h : G.Inv w ph) {key : String}
    (hok : key = G.key → (ph t).stage ≠ .patched) :
    G.Inv { w with owner := w.owner.unlock t key }
      (update ph t ⟨(ph t).machine, G.nextClear (ph t) (.released key),
        if key = G.key then .out else (ph t).stage⟩) := by
  refine h.move (h.holds.unlock fun u hu => ?_) (fun hp hne => ?_) (fun entries hr => ?_)
    fun hc => ?_
  · by_cases hut : u = t
    · subst hut
      rw [Function.update_self] at hu
      dsimp only at hu
      by_cases hk : key = G.key
      · rw [if_pos hk] at hu
        exact absurd rfl hu
      · rw [if_neg hk] at hu
        exact ⟨hu, fun _ => hk⟩
    · rw [Function.update_of_ne hut] at hu
      exact ⟨hu, fun heq => absurd heq hut⟩
  · dsimp only at hne
    split at hne
    next hk => exact absurd hp (hok hk)
    next => exact absurd hp hne
  · dsimp only at hr
    split at hr
    next => exact nomatch hr
    next => exact h.read t entries hr
  · unfold nextClear at hc
    dsimp only at hc
    cases hstage : (ph t).stage with
    | read entries =>
      rw [hstage] at hc
      simp only [Bool.or_eq_true, decide_eq_true_eq] at hc
      rcases hc with hc | ⟨-, hnone⟩
      · exact h.clear t hc
      · -- nothing is under way, so the entries that were read are all there is
        have hlist : w.list = entries := h.read t entries (by rw [hstage]; rfl)
        have hpending : w.pending = [] := h.settled (by rw [hstage]; exact fun h' => nomatch h')
          (by rw [hstage]; exact fun h' => nomatch h')
        rintro ⟨l, hl, e, he, hnic⟩
        rw [hpending, hlist] at hl
        obtain rfl := List.mem_singleton.mp hl
        exact hnone e he hnic
    | out => rw [hstage] at hc; exact h.clear t hc
    | locked => rw [hstage] at hc; exact h.clear t hc
    | chose entries machine => rw [hstage] at hc; exact h.clear t hc
    | patched => rw [hstage] at hc; exact h.clear t hc

/-- A run that stays where it is. -/
theorem Inv.stay (h : G.Inv w ph) {q : DeletionRun} (hq : q.stage = (ph t).stage)
    (hc : q.clear = true → ¬ w.Mentions (G.nicOf q.machine)) : G.Inv w (update ph t q) := by
  refine h.learn (fun hne => ?_) (fun hp hne => ?_) (fun entries hr => ?_) hc
  · rwa [hq] at hne
  · exact absurd (hq.trans hp) hne
  · rw [hq] at hr
    exact h.read t entries hr

theorem Inv.lans (h : G.Inv w ph) {lans : List Lan} {lan : Lan} (hlan : G.lan lans = some lan)
    (hlist : deref lan.ipFailover [] = w.list) :
    G.Inv w (update ph t ⟨(ph t).machine, (ph t).clear, G.nextStage (ph t) (.lans lans)⟩) := by
  by_cases hstage : (ph t).stage = .locked
  · have hnext : G.nextStage (ph t) (.lans lans) = .read w.list := by
      unfold nextStage
      dsimp only
      rw [hstage, hlan, ← hlist]
    rw [hnext]
    refine h.learn (fun _ hout => ?_) (fun hp => ?_) (fun entries hr => ?_) (h.clear t)
    · exact nomatch hstage.symm.trans hout
    · exact nomatch hstage.symm.trans hp
    · exact Option.some.inj hr
  · refine h.stay ?_ (h.clear t)
    unfold nextStage
    dsimp only
    split
    next heq _ => exact absurd heq hstage
    next => rfl

theorem Inv.machines (h : G.Inv w ph) (machines : List MachineItem) :
    G.Inv w (update ph t ⟨(ph t).machine, (ph t).clear,
      G.nextStage (ph t) (.machines machines)⟩) := by
  unfold nextStage
  dsimp only
  split
  next entries m hstage _ =>
    refine h.learn (fun _ hout => ?_) (fun hp => ?_) (fun entries' hr => ?_) (h.clear t)
    · exact nomatch hstage.symm.trans hout
    · exact nomatch hstage.symm.trans hp
    · refine h.read t entries' ?_
      rw [hstage]
      exact hr
  next => exact h.stay rfl (h.clear t)

theorem Inv.waited (h : G.Inv w ph) (hw : w.pending = []) (answer : Except Err Unit) :
    G.Inv w (update ph t ⟨(ph t).machine, (ph t).clear, G.nextStage (ph t) (.waited answer)⟩) := by
  unfold nextStage
  dsimp only
  split
  next hstage =>
    exact h.learn (fun _ hout => nomatch hstage.symm.trans hout) (fun _ _ => hw)
      (fun _ hr => nomatch hr) (h.clear t)
  next => exact h.stay rfl (h.clear t)

/-- A server without the NIC: no entry names it. -/
theorem Inv.server (h : G.Inv w ph) {server : Option Server}
    (hs : (ph t).stage = .out → nicSeen (ph t).machine server = "" →
      w.visible (ph t).machine = false) :
    G.Inv w (update ph t ⟨(ph t).machine, G.nextClear (ph t) (.server server), (ph t).stage⟩) := by
  refine h.stay rfl fun hc => ?_
  unfold nextClear at hc
  dsimp only at hc
  split at hc
  next hstage =>
    rw [Bool.or_eq_true, decide_eq_true_eq] at hc
    rcases hc with hc | hseen
    · exact h.clear t hc
    · intro hm
      have hvisible := h.listed _ hm
      rw [hs hstage hseen] at hvisible
      exact nomatch hvisible
  next => exact h.clear t hc

/-- A PATCH is accepted. -/
theorem Inv.patch (h : G.Inv w ph) {body : List IPFailover} {entries : List IPFailover}
    (hentries : (ph t).stage.entries = some entries)
    (hbody : ∀ nic, Names body nic → Names entries nic ∨
      ∃ machine, (ph t).stage.chosen = some machine ∧ nic = G.nicOf machine)
    (hexist : ∀ machine, Names body (G.nicOf machine) → w.visible machine = true)
    (hrule : ∀ machine, (ph t).stage.chosen = some machine →
      ∀ u, (ph u).machine = machine → (ph u).clear = false) :
    G.Inv { w with pending := w.pending ++ [body] }
      (update ph t ⟨(ph t).machine, (ph t).clear, .patched⟩) := by
  have hin : (ph t).stage ≠ .out := by
    intro hout
    rw [hout] at hentries
    exact nomatch hentries
  have hmentions : ∀ nic, ({ w with pending := w.pending ++ [body] } : DeletionWorld T).Mentions nic →
      w.Mentions nic ∨ Names body nic := by
    rintro nic ⟨l, hl, hnic⟩
    rcases List.mem_append.mp (List.cons_append ▸ hl : l ∈ (w.list :: w.pending) ++ [body]) with hl | hl
    · exact .inl ⟨l, hl, hnic⟩
    · obtain rfl := List.mem_singleton.mp hl
      exact .inr hnic
  have hclear : ∀ u, (ph u).clear = true →
      ¬ ({ w with pending := w.pending ++ [body] } : DeletionWorld T).Mentions
        (G.nicOf (ph u).machine) := by
    intro u hu hm
    rcases hmentions _ hm with hm | hm
    · exact h.clear u hu hm
    · rcases hbody _ hm with hm | ⟨machine, hchosen, heq⟩
      · rw [← h.read t entries hentries] at hm
        exact h.clear u hu ⟨w.list, List.mem_cons_self .., hm⟩
      · rw [hrule machine hchosen u (G.nicOf_injective heq)] at hu
        exact nomatch hu
  refine ⟨h.holds.stay t (.inl hin) fun u hut hu => ?_, fun _ => ⟨t, ?_⟩, fun u es hu => ?_,
    fun machine hm => ?_, fun u hu => ?_⟩
  · simpa only [Function.update_of_ne hut] using hu
  · rw [Function.update_self]
  · -- nobody else is in the locked section
    by_cases hut : u = t
    · rw [hut, Function.update_self] at hu
      exact nomatch hu
    · rw [Function.update_of_ne hut] at hu
      have hout : (ph u).stage = .out := not_not.mp (h.holds.alone hin hut)
      rw [hout] at hu
      exact nomatch hu
  · exact (hmentions _ hm).elim (h.listed machine) (hexist machine)
  · by_cases hut : u = t
    · subst hut
      rw [Function.update_self] at hu ⊢
      exact hclear u hu
    · rw [Function.update_of_ne hut] at hu ⊢
      exact hclear u hu

omit [DecidableEq T] in
theorem Inv.env (h : G.Inv w ph) (hw : G.Env w w') : G.Inv w' ph := by
  cases hw with
  | @execute body rest hpending =>
    have hmentions : ∀ nic, ({ w with list := body, pending := rest } : DeletionWorld T).Mentions nic →
        w.Mentions nic := by
      rintro nic ⟨l, hl, hnic⟩
      exact ⟨l, List.mem_cons_of_mem _ (hpending ▸ hl), hnic⟩
    refine ⟨h.holds, fun _ => ?_, fun t entries ht => ?_, fun machine hm => ?_, fun t ht hm => ?_⟩
    · exact h.waiting (by rw [hpending]; exact List.cons_ne_nil _ _)
    · -- whoever has entries in hand has no PATCH under way
      have hsettled : w.pending = [] := by
        refine h.settled (t := t) (fun hout => ?_) fun hp => ?_
        · rw [hout] at ht
          exact nomatch ht
        · rw [hp] at ht
          exact nomatch ht
      rw [hsettled] at hpending
      exact nomatch hpending
    · exact h.listed machine (hmentions _ hm)
    · exact h.clear t ht (hmentions _ hm)
  | servers visible hvisible => exact ⟨h.holds, h.waiting, h.read, hvisible, h.clear⟩

omit [DecidableEq T] in
theorem kind_patch {machine : String} {c : Call} {a : Call.Ans c} {body : List IPFailover}
    {answer : Except Err String} (h : G.kind machine c a = .patch body answer) :
    c = .lansPatch G.scope.datacenterID G.lanID body := by
  unfold kind at h
  split at h
  next => exact nomatch h
  next => exact nomatch h
  next => exact nomatch h
  next => split at h <;> exact nomatch h
  next =>
    split at h
    next heq =>
      obtain ⟨rfl, rfl⟩ := DeletionKind.patch.inj h
      rw [heq.1, heq.2]
    next => exact nomatch h
  next => exact nomatch h
  next => exact nomatch h
  next => exact nomatch h
  next => split at h <;> exact nomatch h

omit [DecidableEq T] in
theorem kind_released {machine : String} {c : Call} {a : Call.Ans c} {key : String}
    (h : G.kind machine c a = .released key) : c = .unlock key := by
  unfold kind at h
  split at h
  next => exact nomatch h
  next => exact nomatch h
  next => rw [DeletionKind.released.inj h]
  next => split at h <;> exact nomatch h
  next => split at h <;> exact nomatch h
  next => exact nomatch h
  next => exact nomatch h
  next => exact nomatch h
  next => split at h <;> exact nomatch h

/-- Every call a run may make keeps the invariant. -/
theorem Inv.call (h : G.Inv w ph) {c : Call} {a : Call.Ans c} (hok : G.Ok (ph t) c)
    (hexec : G.effect t (ph t) w (G.kind (ph t).machine c a) w')
    (hrule : G.NotOvertaken T w ph (.call t ⟨c, a⟩)) :
    G.Inv w' (update ph t (G.next (ph t) c a)) := by
  unfold next
  cases hk : G.kind (ph t).machine c a with
  | acquired key =>
    rw [hk] at hexec
    obtain ⟨hfree, rfl⟩ := hexec
    exact h.acquired hfree
  | released key =>
    rw [hk] at hexec
    obtain rfl := hexec
    obtain rfl := kind_released hk
    exact h.released hok
  | lans lans =>
    rw [hk] at hexec
    obtain ⟨rfl, lan, hlan, -, hlist⟩ := hexec
    exact h.lans hlan hlist
  | patch body answer =>
    rw [hk] at hexec
    obtain ⟨-, hexist, rfl⟩ := hexec
    obtain rfl := kind_patch hk
    obtain ⟨entries, hentries, hbody⟩ := hok rfl rfl
    exact h.patch hentries hbody hexist fun machine => hrule t _ a body answer machine rfl hk
  | waited answer =>
    rw [hk] at hexec
    obtain ⟨rfl, -, hpending⟩ := hexec
    exact h.waited hpending answer
  | server server =>
    rw [hk] at hexec
    obtain ⟨rfl, -, hvisible⟩ := hexec
    exact h.server hvisible
  | noServers e =>
    rw [hk] at hexec
    obtain ⟨rfl, -⟩ := hexec
    exact h.stay rfl (h.clear t)
  | machines machines =>
    rw [hk] at hexec
    obtain ⟨rfl, -⟩ := hexec
    exact h.machines machines
  | quiet =>
    rw [hk] at hexec
    obtain rfl := hexec
    exact h.stay rfl (h.clear t)

omit [DecidableEq T] in
/-- What the world answers under the rule is what a run may count on. -/
theorem effect_adm [DecidableEq T] {c : Call} {a : Call.Ans c}
    (hexec : G.effect t (ph t) w (G.kind (ph t).machine c a) w')
    (hrule : G.Replaced T w ph (.call t ⟨c, a⟩)) : G.Adm (ph t) c a := by
  unfold Adm
  cases hk : G.kind (ph t).machine c a with
  | lans lans =>
    rw [hk] at hexec
    obtain ⟨-, lan, hlan, hid, -⟩ := hexec
    exact ⟨lan, hlan, hid⟩
  | patch body answer => rw [hk] at hexec; exact hexec.1
  | waited answer => rw [hk] at hexec; exact hexec.2.1
  | server server => rw [hk] at hexec; exact hexec.2.1
  | noServers e => rw [hk] at hexec; exact hexec.2
  | machines machines =>
    rw [hk] at hexec
    exact ⟨hexec.2, fun entries hstage => hrule t c a machines entries rfl hk hstage⟩
  | acquired key => trivial
  | released key => trivial
  | quiet => trivial

theorem deletion_sound
    (hjob : ∀ q p, G.Job q p → p.wp ((G.deletionSystem T).monitor (G.discipline T))
      (fun q' _ => q'.stage ≠ .patched) q) :
    (G.deletionSystem T).Sound (G.Orderly T) (G.discipline T) G.Inv where
  answers _ hexec hC := effect_adm hexec hC.1
  jobs h := hjob _ _ h
  idle h := nomatch h
  call hI hok hexec hC := hI.call hok hexec hC.2
  start := by
    rintro w ph t q p hI hfin ⟨ms, s, -, rfl, -⟩
    exact hI.learn (fun hne => absurd rfl hne) (fun hp => absurd hp hfin) (fun _ hr => nomatch hr)
      fun hc => nomatch hc
  env hI h _ := hI.env h
  crash _ h := h.elim

end

/-! ## The runs -/

section

variable {G} {ms : MachineScope} {s : MachineVars} {clear : Bool}

/-- The monitor of a run. -/
abbrev monitor (G : FailoverGroup) : Monitor Call Call.Ans :=
  ⟨DeletionRun, G.Ok, G.Adm, G.next, fun q => q.stage ≠ .patched⟩

/-- What a lookup of the machine's server says about the run. -/
def Found (G : FailoverGroup) (machine : String) (q : DeletionRun) :
    Except Err (Option Server) → Prop
  | .ok server => ∃ clear, q = ⟨machine, clear, .out⟩ ∧
    (nicSeen machine server = "" ∧ clear = true ∨ nicSeen machine server = G.nicOf machine)
  | .error e => ∃ clear, q = ⟨machine, clear, .out⟩ ∧ (isNotFound e = true → clear = true)

/-- A server that is seen, or missed, in a lookup. -/
theorem found_server {machine : String} {c : Call} {a : Call.Ans c} {server : Option Server}
    (hk : G.kind machine c a = .server server) (ha : G.Adm ⟨machine, clear, .out⟩ c a) :
    G.Found machine (G.next ⟨machine, clear, .out⟩ c a) (.ok server) := by
  have hseen : nicSeen machine server = "" ∨ nicSeen machine server = G.nicOf machine := by
    have hcounts : G.Counts _ (G.kind machine c a) := ha
    rw [hk] at hcounts
    exact hcounts machine
  refine ⟨clear || nicSeen machine server = "", ?_, ?_⟩
  · unfold next
    dsimp only
    rw [hk]
    rfl
  · rcases hseen with hseen | hseen
    · exact .inl ⟨hseen, by simp [hseen]⟩
    · exact .inr hseen

theorem next_serversGet_stage (q : DeletionRun) (dc : String) (items : Option (List Server)) :
    (G.next q (.serversGet dc) (.ok items)).stage = q.stage := by
  unfold next kind
  dsimp only
  split <;> rfl

theorem run_getServer :
    (getServer ms).wp G.monitor (fun q r _ => G.Found ms.name q r) ⟨ms.name, clear, .out⟩ s := by
  have hname : ∀ err, (getServerByName ms err).wp G.monitor (fun q r _ => G.Found ms.name q r)
      ⟨ms.name, clear, .out⟩ s := by
    intro err
    refine wp_getServerByName (fun e he => ⟨clear, rfl, fun h => ?_⟩) trivial
      (fun e e' ha he => ⟨clear, rfl, fun h => ?_⟩) (fun items server ha hfind => ?_)
      (fun items ha hfind => ?_) fun items ha h => ?_
    · rw [he] at h
      exact nomatch h
    · -- the list itself is not missing
      have hadm : isNotFound e = false := ha
      rw [he, hadm] at h
      exact nomatch h
    · refine found_server ?_ ha
      unfold kind
      dsimp only
      rw [serverSeen_serversGet hfind]
    · have hk : G.kind ms.name (.serversGet ms.datacenterID) (.ok items) = .server none := by
        unfold kind
        dsimp only
        rw [serverSeen_serversGet hfind]
      have hfound := found_server hk ha
      cases err with
      | none => exact hfound
      | some e =>
        obtain ⟨b, hb, hclear⟩ := hfound
        refine ⟨b, hb, fun _ => ?_⟩
        rcases hclear with hclear | hnic
        · exact hclear.2
        · exact absurd hnic.symm (G.nicOf_ne ms.name)
    · rw [show _ = DeletionRun.stage _ from next_serversGet_stage ..] at h
      exact nomatch h
  refine wp_getServer (wp_getServerByServerID (fun _ => hname none) (fun e he => ?_) trivial
    (fun e e' _ _ => ?_) fun _ server ha => found_server rfl ha)
  · dsimp only
    rw [if_neg (by simp [he])]
    refine ⟨clear, rfl, fun h => ?_⟩
    rw [he] at h
    exact nomatch h
  · dsimp only
    split
    next => exact hname (some e')
    next hno => exact ⟨clear, rfl, fun h => absurd h hno⟩

/-- What `getServerNICID` says about the run. -/
theorem run_getServerNICID :
    (getServerNICID ms).wp G.monitor (fun q r _ => ∃ clear, q = ⟨ms.name, clear, .out⟩ ∧
      ∀ nicID, r = .ok nicID → nicID = "" ∧ clear = true ∨ nicID = G.nicOf ms.name)
      ⟨ms.name, clear, .out⟩ s := by
  unfold getServerNICID
  refine (wp_bind _ _).mpr (wp_mono run_getServer fun q r s' hr => ?_)
  match r with
  | .error e =>
    obtain ⟨b, rfl, hb⟩ := hr
    dsimp only
    rw [wp_ite]
    split
    next h404 =>
      refine (wp_pure _).mpr ⟨b, rfl, fun nicID hnic => .inl ⟨?_, hb h404⟩⟩
      exact (Except.ok.inj hnic).symm
    next => exact (wp_pure _).mpr ⟨b, rfl, fun _ hnic => nomatch hnic⟩
  | .ok server =>
    obtain ⟨b, rfl, hb⟩ := hr
    dsimp only
    unfold nicSeen at hb
    cases hnic : findPrimaryNIC ms.name server with
    | error e =>
      rw [hnic] at hb
      refine (wp_pure _).mpr ⟨b, rfl, fun nicID h => ?_⟩
      obtain rfl := Except.ok.inj h
      exact hb
    | ok nic =>
      rw [hnic] at hb
      refine (wp_pure _).mpr ⟨b, rfl, fun nicID h => ?_⟩
      obtain rfl := Except.ok.inj h
      exact hb

/-- Only a PATCH leads to the stage `patched`. -/
theorem next_ne_patched {q : DeletionRun} {c : Call} {a : Call.Ans c}
    (hc : ∀ dc id body, c ≠ .lansPatch dc id body) (hq : q.stage ≠ .patched) :
    (G.next q c a).stage ≠ .patched := by
  unfold next
  dsimp only
  cases hk : G.kind q.machine c a with
  | patch body answer => exact absurd (kind_patch hk) (hc _ _ _)
  | acquired key =>
    unfold nextStage
    dsimp only
    split
    · exact fun h => nomatch h
    · exact hq
  | released key =>
    unfold nextStage
    dsimp only
    split
    · exact fun h => nomatch h
    · exact hq
  | lans lans =>
    unfold nextStage
    dsimp only
    split
    · exact fun h => nomatch h
    · exact hq
  | machines machines =>
    unfold nextStage
    dsimp only
    split
    · exact fun h => nomatch h
    · exact hq
  | waited answer =>
    unfold nextStage
    dsimp only
    split
    · exact fun h => nomatch h
    · exact hq
  | server server => exact hq
  | noServers e => exact hq
  | quiet => exact hq

theorem lan_eq (h : SharesGroup ms G.scope) {lans : List Lan} {found : Option Lan}
    (hfound : findLAN ms.spec.networkID (lanName ms.clusterScope) 0 none lans = .ok found) :
    G.lan lans = found := by
  unfold FailoverGroup.lan
  rw [← h.networkID, ← h.lanName, hfound]

/-- Where reading the entries leads. -/
theorem run_config (h : SharesGroup ms G.scope) :
    (retrieveLANFailoverConfig ms).wp G.monitor (fun q r _ =>
      (q.machine = ms.name ∧ q.stage ≠ .patched) ∧ (∀ outcome, r = .error outcome →
        outcome ≠ (false, none)) ∧ ∀ lan config, r = .ok (lan, config) →
          lan.id = some G.lanID ∧ q = ⟨ms.name, clear, .read config⟩)
      ⟨ms.name, clear, .locked⟩ s := by
  refine wp_retrieveLANFailoverConfig
    (fun q : DeletionRun => q.machine = ms.name ∧ q.stage ≠ .patched)
    ⟨rfl, fun h' => nomatch h'⟩ (fun a _ => ?_) (fun q url a hq => ?_) (fun q outcome hq ho => ?_)
    (fun q hq => hq.2) trivial (fun _ _ => trivial) ?_
  · exact ⟨rfl, next_ne_patched (fun _ _ _ hc => nomatch hc) fun h' => nomatch h'⟩
  · exact ⟨hq.1, next_ne_patched (fun _ _ _ hc => nomatch hc) hq.2⟩
  · refine ⟨hq, fun outcome' hr => ?_, fun _ _ hr => nomatch hr⟩
    obtain rfl := Except.error.inj hr
    exact ho
  · intro lans found hlans hfound url _ a ri _ _ _
    have hk : G.kind ms.name (.lansGet ms.datacenterID) (.ok (some lans)) = .lans lans :=
      if_pos h.datacenterID
    have hcounts : G.Counts ⟨ms.name, clear, .locked⟩ (G.kind ms.name _ _) := hlans
    rw [hk] at hcounts
    obtain ⟨lan, hlan, hid⟩ := hcounts
    obtain rfl : found = some lan := (lan_eq h hfound).symm.trans hlan
    have hnext : G.next ⟨ms.name, clear, .locked⟩ (.lansGet ms.datacenterID) (.ok (some lans)) =
        ⟨ms.name, clear, .read (deref lan.ipFailover [])⟩ := by
      unfold next
      dsimp only
      rw [hk]
      unfold nextStage
      dsimp only
      rw [hlan]
      rfl
    refine ⟨?_, fun _ hr => (nomatch hr), fun lan' config hr => ?_⟩
    · exact ⟨rfl, next_ne_patched (fun _ _ _ hc => nomatch hc)
        (next_ne_patched (fun _ _ _ hc => nomatch hc) fun h' => nomatch h')⟩
    · obtain ⟨rfl, rfl⟩ := Prod.mk.inj (Except.ok.inj hr)
      refine ⟨hid, ?_⟩
      show G.next (G.next _ _ _) _ a = _
      rw [hnext]
      rfl

/-- The phases in which a failover step may end. -/
structure Ended (machine : String) (r : Outcome) (q : DeletionRun) : Prop where
  machine : q.machine = machine
  out : q.stage = .out
  clear : r = (false, none) → q.clear = true

/-- Taking the LAN's lock. -/
theorem run_lock (h : SharesGroup ms G.scope) {body : MachineM Outcome}
    (hbody : body.wp G.monitor (fun q r _ => (q.machine = ms.name ∧ q.stage ≠ .patched) ∧
      (r = (false, none) → G.nextClear q (.released G.key) = true)) ⟨ms.name, clear, .locked⟩ s) :
    (locked (lanLockKey ms) (fun e => (false, some e)) body).wp G.monitor
      (fun q r _ => Ended ms.name r q) ⟨ms.name, clear, .out⟩ s := by
  have hkey : lanLockKey ms = G.key := h.lanLockKey
  rw [hkey]
  refine wp_locked trivial (fun q hq => ⟨fun _ => hq, fun _ => ?_⟩) (fun e _ => ?_) fun _ => ?_
  · exact next_ne_patched (fun _ _ _ hc => nomatch hc) hq
  · exact ⟨rfl, rfl, fun hr => nomatch hr⟩
  · have hnext : G.monitor.next ⟨ms.name, clear, .out⟩ (.lock G.key) (.ok ()) =
        ⟨ms.name, clear, .locked⟩ := by
      show DeletionRun.mk _ _ (if G.key = G.key then _ else _) = _
      rw [if_pos rfl]
      rfl
    rw [hnext]
    refine wp_mono hbody fun q r s' hq => ⟨fun _ => hq.1.2, fun _ => ⟨hq.1.1, if_pos rfl, hq.2⟩⟩

/-- Sending a PATCH from the stage with the entries in hand. -/
theorem run_patch (h : SharesGroup ms G.scope) {stage : Stage} {entries body : List IPFailover}
    (hstage : stage.entries = some entries)
    (hbody : ∀ nic, Names body nic → Names entries nic ∨
      ∃ machine, stage.chosen = some machine ∧ nic = G.nicOf machine) :
    (patchLAN ms G.lanID body).wp G.monitor
      (fun q _ _ => q.machine = ms.name ∧ q.stage ≠ .patched) ⟨ms.name, clear, stage⟩ s := by
  have hkind : ∀ a, G.kind ms.name (.lansPatch ms.datacenterID G.lanID body) a = .patch body a :=
    fun a => if_pos ⟨h.datacenterID, rfl⟩
  have hadm : ∀ a, G.Adm ⟨ms.name, clear, stage⟩ (.lansPatch ms.datacenterID G.lanID body) a →
      ∃ location, a = .ok location ∧ location ≠ "" := by
    intro a ha
    have hcounts : G.Counts _ (G.kind ms.name _ _) := ha
    rw [hkind] at hcounts
    exact hcounts
  refine wp_patchLAN (fun _ _ => ⟨entries, hstage, hbody⟩) (fun e => ⟨rfl, ?_⟩)
    (fun a ha hlost e => ?_) fun location q' _ _ hq' => ⟨trivial, fun a ha r s' => ?_⟩
  · rintro rfl
    exact nomatch hstage
  · obtain ⟨location, hloc, hne⟩ := hadm a ha
    exact absurd (hlost location hloc) hne
  · subst hq'
    have hpatched : G.next ⟨ms.name, clear, stage⟩ (.lansPatch ms.datacenterID G.lanID body)
        (.ok location) = ⟨ms.name, clear, .patched⟩ := by
      unfold next
      dsimp only
      rw [hkind]
      rfl
    show (G.next (G.next _ _ _) _ a).machine = _ ∧ (G.next (G.next _ _ _) _ a).stage ≠ _
    rw [hpatched]
    exact ⟨rfl, fun h' => nomatch h'⟩

/-- Giving up the lock after reading no entry of the NIC. -/
theorem nextClear_read {machine : String} {entries : List IPFailover}
    (h : ∀ e ∈ entries, IPFailover.nic e ≠ G.nicOf machine) :
    G.nextClear ⟨machine, clear, .read entries⟩ (.released G.key) = true := by
  unfold nextClear
  dsimp only
  rw [Bool.or_eq_true, decide_eq_true_eq]
  exact .inr ⟨rfl, h⟩

theorem run_leave (h : SharesGroup ms G.scope) :
    (removeNICFromFailoverGroup ms (G.nicOf ms.name)).wp G.monitor
      (fun q r _ => Ended ms.name r q) ⟨ms.name, clear, .out⟩ s := by
  refine run_lock h ?_
  unfold removeNICFromFailoverGroupLocked
  refine (wp_bind _ _).mpr (wp_mono (run_config h) fun q r s' hr => ?_)
  obtain ⟨hq, herror, hconfig⟩ := hr
  match r with
  | .error outcome => exact (wp_pure _).mpr ⟨hq, fun heq => absurd heq (herror outcome rfl)⟩
  | .ok (lan, config) =>
    obtain ⟨hid, rfl⟩ := hconfig lan config rfl
    dsimp only
    rw [hid]
    dsimp only
    cases hindex : nicIndex (G.nicOf ms.name) config with
    | none =>
      refine (wp_pure _).mpr ⟨hq, fun _ => ?_⟩
      exact nextClear_read (nicIndex_none hindex)
    | some index =>
      refine (wp_bind _ _).mpr (wp_mono (run_patch h rfl fun nic hnic => ?_) fun q' r s'' hq' => ?_)
      · exact .inl (leaveGroup_names hnic)
      · exact (wp_pure _).mpr ⟨hq', fun heq => nomatch heq⟩

/-- Giving the entry away: there is a machine to take it, so the step is not over. -/
theorem run_swapForLatest (h : SharesGroup ms G.scope) {lan : Lan} {config : List IPFailover}
    (hid : lan.id = some G.lanID) (labels : List (String × String)) (index : Nat) :
    (swapForLatest ms labels lan config index).wp G.monitor
      (fun q r _ => (q.machine = ms.name ∧ q.stage ≠ .patched) ∧ r ≠ (false, none))
      ⟨ms.name, clear, .read config⟩ s := by
  unfold swapForLatest MachineScope.findLatestMachine ClusterScope.listMachines
  rw [wp_bind, wp_bind, wp_perform]
  refine ⟨trivial, fun a ha => (wp_pure _).mpr ?_⟩
  match a with
  | .error e => exact (wp_pure _).mpr ⟨⟨rfl, fun h' => nomatch h'⟩, fun heq => nomatch heq⟩
  | .ok machines =>
    have hreplaceable : MachineScope.Replaceable ms.name machines :=
      (ha : G.Counts _ (.machines machines)).2 config rfl
    obtain ⟨m, hm⟩ := Option.isSome_iff_exists.mp
      (MachineScope.latestOf_isSome_iff.mpr hreplaceable)
    have hstage : G.nextStage ⟨ms.name, clear, .read config⟩ (.machines machines) =
        .chose config m.name := by
      unfold nextStage
      dsimp only
      rw [hm]
    have hnext : G.next ⟨ms.name, clear, .read config⟩
        (.listMachines ms.clusterScope.ns (setLabel labels clusterNameLabel ms.clusterScope.name))
        (.ok machines) = ⟨ms.name, clear, .chose config m.name⟩ := by
      show DeletionRun.mk _ _ (G.nextStage _ (.machines machines)) = _
      rw [hstage]
      rfl
    have hlatest : Except.map (MachineScope.latestOf ms.name) (.ok machines : Except Err _) =
        .ok (some m) := congrArg Except.ok hm
    show Go.wp G.monitor _ _ (G.next _ _ _) _
    rw [hnext, hlatest, wp_bind]
    have hin : (⟨ms.name, clear, .chose config m.name⟩ : DeletionRun).machine = ms.name ∧
        (⟨ms.name, clear, .chose config m.name⟩ : DeletionRun).stage ≠ .patched :=
      ⟨rfl, fun h' => nomatch h'⟩
    refine wp_getServerByServerID (fun _ => ?_) (fun e _ => ?_) trivial (fun e e' _ _ => ?_)
      fun _ server hserver => ?_
    · exact (wp_pure _).mpr ⟨hin, fun heq => nomatch heq⟩
    · exact (wp_pure _).mpr ⟨hin, fun heq => nomatch heq⟩
    · exact (wp_pure _).mpr ⟨hin, fun heq => nomatch heq⟩
    · show Go.wp G.monitor _ _ ⟨ms.name, clear, .chose config m.name⟩ _
      dsimp only
      cases hnic : findPrimaryNIC m.name (some server) with
      | error e => exact (wp_pure _).mpr ⟨hin, fun heq => nomatch heq⟩
      | ok nic =>
        dsimp only
        rw [wp_ite]
        split
        next => exact (wp_pure _).mpr ⟨hin, fun heq => nomatch heq⟩
        next hne =>
          -- the NIC that was found is that of the machine chosen
          have hseen : deref nic.id "" = G.nicOf m.name := by
            have hcounts := (hserver : G.Counts _ (.server (some server))) m.name
            unfold nicSeen at hcounts
            rw [hnic] at hcounts
            exact hcounts.resolve_left hne
          rw [hid]
          refine (wp_bind _ _).mpr (wp_mono (run_patch h rfl fun n hn => ?_) fun q r s' hq => ?_)
          · rcases swapNIC_names hn with hn | hn
            · exact .inl hn
            · exact .inr ⟨m.name, rfl, hn.trans hseen⟩
          · exact (wp_pure _).mpr ⟨hq, fun heq => nomatch heq⟩

theorem run_swap (h : SharesGroup ms G.scope) (labels : List (String × String)) :
    (swapNICInFailoverGroup ms labels).wp G.monitor (fun q r _ => Ended ms.name r q)
      ⟨ms.name, clear, .out⟩ s := by
  unfold swapNICInFailoverGroup
  refine (wp_bind _ _).mpr (wp_mono run_getServerNICID ?_)
  rintro q r s' ⟨b, rfl, hnic⟩
  match r with
  | .error e => exact (wp_pure _).mpr ⟨rfl, rfl, fun heq => nomatch heq⟩
  | .ok nicID =>
    refine run_lock h ?_
    unfold swapNICInFailoverGroupLocked
    refine (wp_bind _ _).mpr (wp_mono (run_config h) fun q r s' hr => ?_)
    obtain ⟨hq, herror, hconfig⟩ := hr
    match r with
    | .error outcome => exact (wp_pure _).mpr ⟨hq, fun heq => absurd heq (herror outcome rfl)⟩
    | .ok (lan, config) =>
      obtain ⟨hid, rfl⟩ := hconfig lan config rfl
      dsimp only
      cases hindex : nicIndex nicID config with
      | none =>
        refine (wp_pure _).mpr ⟨hq, fun _ => ?_⟩
        rcases hnic nicID rfl with ⟨-, rfl⟩ | rfl
        · rfl
        · exact nextClear_read (nicIndex_none hindex)
      | some index =>
        exact wp_mono (run_swapForLatest h hid labels index) fun q r s' hr =>
          ⟨hr.1, fun heq => absurd heq hr.2⟩

/-- The failover step: it is over only if the run is clear. -/
theorem run_failoverDeletion (h : SharesGroup ms G.scope) :
    (reconcileIPFailoverDeletion ms).wp G.monitor (fun q r _ => Ended ms.name r q)
      ⟨ms.name, clear, .out⟩ s := by
  unfold reconcileIPFailoverDeletion MachineScope.countMachines ClusterScope.listMachines
  rw [wp_ite, if_neg (by rw [h.required]; decide), wp_bind, wp_bind, wp_perform]
  refine ⟨trivial, fun a ha => (wp_pure _).mpr ?_⟩
  match a with
  | .error e => exact (wp_pure _).mpr ⟨rfl, rfl, fun heq => nomatch heq⟩
  | .ok [] =>
    -- the machine itself is still there
    obtain ⟨m, hm, -⟩ := (ha : G.Counts _ (.machines [])).1 rfl
    exact nomatch hm
  | .ok [m] =>
    show (ensureFailoverDeletion ms).wp G.monitor _ ⟨ms.name, clear, .out⟩ _
    unfold ensureFailoverDeletion
    refine (wp_bind _ _).mpr (wp_mono run_getServerNICID ?_)
    rintro q r s' ⟨b, rfl, hnic⟩
    match r with
    | .error e => exact (wp_pure _).mpr ⟨rfl, rfl, fun heq => nomatch heq⟩
    | .ok nicID =>
      dsimp only
      rw [wp_ite]
      split
      next hempty =>
        refine (wp_pure _).mpr ⟨rfl, rfl, fun _ => ?_⟩
        rcases hnic nicID rfl with ⟨-, hb⟩ | hnic
        · exact hb
        · exact absurd (hnic.symm.trans hempty) (G.nicOf_ne ms.name)
      next hne =>
        obtain rfl := (hnic nicID rfl).resolve_left fun h' => hne h'.1
        exact run_leave h
  | .ok (_ :: _ :: _) => exact run_swap h _

/-- The server step of a run that is clear. -/
theorem run_serverDeletion {machine : String} :
    (reconcileServerDeletion ms).wp G.monitor (fun q _ _ => q = ⟨machine, true, .out⟩)
      ⟨machine, true, .out⟩ s := by
  have hquiet : ∀ c a, G.kind machine c a = .quiet →
      G.next ⟨machine, true, .out⟩ c a = ⟨machine, true, .out⟩ := by
    intro c a hk
    unfold next
    dsimp only
    rw [hk]
    rfl
  have hwithin : Within DeletingServer (fun _ => ()) (reconcileServerDeletion ms) :=
    within_reconcileServerDeletion (fun _ _ => rfl) fun _ _ => rfl
  refine wp_mono (hwithin.wp (fun c hc => ?_) fun h' => nomatch h') fun _ _ _ hq => hq.1
  refine hc.elim (P := fun c => G.Ok ⟨machine, true, .out⟩ c ∧ ∀ a,
    G.Adm ⟨machine, true, .out⟩ c a → G.next ⟨machine, true, .out⟩ c a = ⟨machine, true, .out⟩)
    (fun dc id => ⟨trivial, fun a _ => ?_⟩) (fun dc => ⟨trivial, fun a _ => ?_⟩)
    (fun method url => ⟨trivial, fun a _ => hquiet _ a rfl⟩)
    (fun dc id volumes => ⟨rfl, fun a _ => hquiet _ a rfl⟩)
    fun dc id => ⟨trivial, fun a _ => hquiet _ a rfl⟩
  · match a with
    | .error e => exact hquiet _ _ rfl
    | .ok server => rfl
  · match a with
    | .error e => rfl
    | .ok items =>
      unfold next kind
      dsimp only
      split <;> rfl

theorem run_steps (h : SharesGroup ms G.scope) :
    (Controller.runSteps (fun _ => return ())
      ((Controller.Machine.deleteSequence ms).take 2)).wp G.monitor
      (fun q _ _ => q.stage ≠ .patched) ⟨ms.name, false, .out⟩ s := by
  refine Controller.wp_runSteps_cons (wp_mono (run_failoverDeletion h) fun q r s' hq => ?_)
  match r with
  | (_, some e) => exact (wp_pure _).mpr fun h' => nomatch hq.out.symm.trans h'
  | (true, none) => exact fun h' => nomatch hq.out.symm.trans h'
  | (false, none) =>
    obtain rfl : q = ⟨ms.name, true, .out⟩ := by
      obtain ⟨machine, clear, stage⟩ := q
      obtain ⟨rfl, rfl, hclear⟩ := hq
      exact congrArg (DeletionRun.mk _ · _) (hclear rfl)
    refine Controller.wp_runSteps_cons (wp_mono run_serverDeletion ?_)
    rintro q r s'' rfl
    match r with
    | (_, some e) => exact (wp_pure _).mpr fun h' => nomatch h'
    | (true, none) => exact fun h' => nomatch h'
    | (false, none) => exact Controller.wp_runSteps_nil fun h' => nomatch h'

theorem run_job {q : DeletionRun} {p : Prog Call Call.Ans Unit} (h : G.Job q p) :
    p.wp G.monitor (fun q' _ => q'.stage ≠ .patched) q := by
  obtain ⟨ms, s, hshares, rfl, rfl⟩ := h
  exact wp_forget (run_steps hshares) fun _ hq => hq

end

/-! ## The result -/

/-- The worlds to begin with: nothing is under way, no lock is taken, and NICs in the group
exist. -/
structure Settled {T : Type} (w : DeletionWorld T) : Prop where
  pending : w.pending = []
  owner : ∀ key, w.owner key = none
  listed : ∀ machine, w.Mentions (G.nicOf machine) → w.visible machine = true

theorem Settled.inv {G : FailoverGroup} {T : Type} {w : DeletionWorld T} (h : G.Settled w) :
    G.Inv w fun _ => ⟨"", false, .out⟩ where
  holds _ hne := absurd rfl hne
  waiting hne := absurd h.pending hne
  read _ _ hr := nomatch hr
  listed := h.listed
  clear _ hc := nomatch hc

/-- Along every run that keeps to the rule: whenever `DeleteServer` is about to be sent for a
machine, no entry of the group names the machine's NIC. -/
theorem server_deletion_clear (G : FailoverGroup) (T : Type) [DecidableEq T] (w : DeletionWorld T)
    (hw : G.Settled w) (s : (G.deletionSystem T).Conf)
    (hs : (G.deletionSystem T).Reach (G.Orderly T) w s) (t : T) (dc id : String) (volumes : Bool)
    (k : Except Err String → Prog Call Call.Ans Unit)
    (hsend : s.prog t = .call (.serversDelete dc id volumes) k) :
    ∀ entry ∈ s.world.list, IPFailover.nic entry ≠ G.nicOf (s.phase t).machine := by
  have hsound := deletion_sound (G := G) (T := T) fun q p h => run_job h
  have hclear : (s.phase t).clear = true := hsound.call_ok hw.inv hs hsend
  have hI := (hsound.reach hw.inv hs).1
  intro entry hentry hnic
  exact hI.clear t hclear ⟨s.world.list, List.mem_cons_self .., entry, hentry, hnic⟩

/-! ## Three runs -/

section

variable {G : FailoverGroup} {T : Type} [DecidableEq T] {w : DeletionWorld T}
  {ph : T → DeletionRun} {t : T}

/-- What `Replaced` asks of a call. -/
theorem replaced_call {c : Call} {a : Call.Ans c}
    (h : match G.kind (ph t).machine c a with
      | .machines machines => ∀ entries, (ph t).stage = .read entries →
        MachineScope.Replaceable (ph t).machine machines
      | _ => True) : G.Replaced T w ph (.call t ⟨c, a⟩) := by
  intro t' c' a' machines entries hl hk hstage
  cases hl
  rw [hk] at h
  exact h entries hstage

/-- What `NotOvertaken` asks of a call. -/
theorem notOvertaken_call {c : Call} {a : Call.Ans c}
    (h : match G.kind (ph t).machine c a with
      | .patch _ _ => ∀ machine, (ph t).stage.chosen = some machine →
        ∀ u, (ph u).machine = machine → (ph u).clear = false
      | _ => True) : G.NotOvertaken T w ph (.call t ⟨c, a⟩) := by
  intro t' c' a' body answer machine hl hk hchosen
  cases hl
  rw [hk] at h
  exact h machine hchosen

end

/-- A control plane machine. -/
def controlPlane (name : String) : MachineScope :=
  { plainMachine with name := name, isControlPlane := true, uuidValidate := fun _ => none }

/-- The group of the control plane machines, with NICs called like their machines. -/
def plainGroup : FailoverGroup where
  scope := controlPlane "a"
  lanID := "1"
  nicOf machine := "nic-" ++ machine
  nicOf_injective _ _ h := by simpa using h
  nicOf_ne _ h := by simpa using congrArg String.length h

theorem controlPlane_shares (name : String) :
    SharesGroup (controlPlane name) plainGroup.scope where
  ns := rfl
  name := rfl
  uid := rfl
  datacenterID := rfl
  networkID := rfl
  required := rfl

/-- The server of a machine. -/
def serverOf (machine : String) : Server where
  id := some machine
  properties := some ⟨some machine, none, none⟩
  nics := some [⟨some ("nic-" ++ machine), some (nicName machine), none, none, none⟩]
  state := none

theorem serverOf_nicSeen (m machine : String) :
    nicSeen machine (some (serverOf m)) = "" ∨
      nicSeen machine (some (serverOf m)) = plainGroup.nicOf machine := by
  unfold nicSeen findPrimaryNIC serverOf
  by_cases h : nicName m = nicName machine
  · right
    simp only [isPrimaryNIC, deref, Option.bind_some, Option.getD_some, h, decide_true,
      List.find?_cons_of_pos]
    exact h
  · left
    simp [isPrimaryNIC, deref, h]

/-- The entry of a machine. -/
def entryOf (machine : String) : IPFailover := ⟨some "203.0.113.1", some ("nic-" ++ machine)⟩

/-- A LAN with the entries, and two machines, the newer one first. -/
def answering (entries : List IPFailover) : ∀ c : Call, Call.Ans c
  | .lansGet _ => .ok (some [lanOne entries])
  | .listMachines _ _ => .ok [⟨"a", 2, "ionos://a"⟩, ⟨"b", 1, "ionos://b"⟩]
  | .serversGet _ => .ok (some [serverOf "a", serverOf "b"])
  | .serversFindById _ id => .ok (serverOf id)
  | c => Call.plain c

/-- The same with the newer machine last. -/
def newerLast (entries : List IPFailover) : ∀ c : Call, Call.Ans c
  | .listMachines _ _ => .ok [⟨"b", 1, "ionos://b"⟩, ⟨"a", 2, "ionos://a"⟩]
  | c => answering entries c

/-- The world with the entries, where every server shows its NIC. -/
def atRest (entries : List IPFailover) : DeletionWorld Bool :=
  ⟨entries, [], fun _ => none, fun _ => true⟩

/-- The theorem at the deletion of `a` while the entry is that of `b`: nothing is to be
given away, and the server goes. -/
theorem server_deletion_clear_other :
    ∃ s, (plainGroup.deletionSystem Bool).Reach (plainGroup.Orderly Bool)
        (atRest [entryOf "b"]) s ∧
      (∃ dc id volumes k, s.prog true = .call (.serversDelete dc id volumes) k) ∧
      ∀ entry ∈ s.world.list, IPFailover.nic entry ≠ plainGroup.nicOf (s.phase true).machine := by
  let S := plainGroup.deletionSystem Bool
  have hsettled : plainGroup.Settled (atRest [entryOf "b"]) :=
    ⟨rfl, fun _ => rfl, fun _ _ => rfl⟩
  have h₀ : S.Reach (plainGroup.Orderly Bool) (atRest [entryOf "b"]) _ := .init
  have h₁ := h₀.start true rfl ⟨controlPlane "a", default, controlPlane_shares "a", rfl, rfl⟩
    ⟨fun _ _ _ _ _ h => (nomatch h), fun _ _ _ _ _ _ h => (nomatch h)⟩
  have h₂ := h₁.again (answering [entryOf "b"]) rfl
    ⟨rfl, fun _ => ⟨_, List.mem_cons_self .., rfl⟩⟩
    ⟨replaced_call fun _ h => (nomatch h), notOvertaken_call trivial⟩
  have h₃ := h₂.again (answering [entryOf "b"]) rfl
    ⟨rfl, serverOf_nicSeen "a", fun _ h => absurd h (by decide)⟩
    ⟨replaced_call trivial, notOvertaken_call trivial⟩
  have h₄ := h₃.again (answering [entryOf "b"]) rfl ⟨rfl, rfl⟩
    ⟨replaced_call trivial, notOvertaken_call trivial⟩
  have h₅ := h₄.again (answering [entryOf "b"]) rfl ⟨rfl, _, rfl, rfl, rfl⟩
    ⟨replaced_call trivial, notOvertaken_call trivial⟩
  have h₆ := h₅.again (answering [entryOf "b"]) rfl rfl
    ⟨replaced_call trivial, notOvertaken_call trivial⟩
  have h₇ := h₆.again (answering [entryOf "b"]) rfl rfl
    ⟨replaced_call trivial, notOvertaken_call trivial⟩
  have h₈ := h₇.again (answering [entryOf "b"]) rfl
    ⟨rfl, serverOf_nicSeen "a", fun _ h => absurd h (by decide)⟩
    ⟨replaced_call trivial, notOvertaken_call trivial⟩
  have h₉ := h₈.again (answering [entryOf "b"]) rfl rfl
    ⟨replaced_call trivial, notOvertaken_call trivial⟩
  exact ⟨_, h₉, ⟨_, _, _, _, rfl⟩,
    server_deletion_clear plainGroup Bool _ hsettled _ h₉ true _ _ _ _ rfl⟩

/-- The machine is the first in the list and newer than all others: `FindLatestMachine` finds
none, the step is over, and the server is deleted with its NIC in the group. -/
theorem server_deletion_unreplaced :
    ∃ s, (plainGroup.deletionSystem Bool).Reach (plainGroup.NotOvertaken Bool)
        (atRest [entryOf "a"]) s ∧
      (∃ dc id volumes k, s.prog true = .call (.serversDelete dc id volumes) k) ∧
      ∃ entry ∈ s.world.list, IPFailover.nic entry = plainGroup.nicOf (s.phase true).machine := by
  let S := plainGroup.deletionSystem Bool
  have h₀ : S.Reach (plainGroup.NotOvertaken Bool) (atRest [entryOf "a"]) _ := .init
  -- `ReconcileIPFailoverDeletion`: count, NIC, lock, LAN, question, latest machine, unlock
  have h₁ := h₀.start true rfl ⟨controlPlane "a", default, controlPlane_shares "a", rfl, rfl⟩
    (fun _ _ _ _ _ _ h => nomatch h)
  have h₂ := h₁.again (answering [entryOf "a"]) rfl
    ⟨rfl, fun _ => ⟨_, List.mem_cons_self .., rfl⟩⟩ (notOvertaken_call trivial)
  have h₃ := h₂.again (answering [entryOf "a"]) rfl
    ⟨rfl, serverOf_nicSeen "a", fun _ h => absurd h (by decide)⟩ (notOvertaken_call trivial)
  have h₄ := h₃.again (answering [entryOf "a"]) rfl ⟨rfl, rfl⟩ (notOvertaken_call trivial)
  have h₅ := h₄.again (answering [entryOf "a"]) rfl ⟨rfl, _, rfl, rfl, rfl⟩
    (notOvertaken_call trivial)
  have h₆ := h₅.again (answering [entryOf "a"]) rfl rfl (notOvertaken_call trivial)
  have h₇ := h₆.again (answering [entryOf "a"]) rfl ⟨rfl, fun h => nomatch h⟩
    (notOvertaken_call trivial)
  have h₈ := h₇.again (answering [entryOf "a"]) rfl rfl (notOvertaken_call trivial)
  -- `ReconcileServerDeletion`: server, question
  have h₉ := h₈.again (answering [entryOf "a"]) rfl
    ⟨rfl, serverOf_nicSeen "a", fun _ h => absurd h (by decide)⟩ (notOvertaken_call trivial)
  have h₁₀ := h₉.again (answering [entryOf "a"]) rfl rfl (notOvertaken_call trivial)
  exact ⟨_, h₁₀, ⟨_, _, _, _, rfl⟩, entryOf "a", List.mem_cons_self .., by decide⟩

/-- `b` finds that no entry is its own; then `a` gives `b` its entry, and `b` deletes its
server all the same. -/
theorem server_deletion_overtaken :
    ∃ s, (plainGroup.deletionSystem Bool).Reach (plainGroup.Replaced Bool)
        (atRest [entryOf "a"]) s ∧
      (∃ dc id volumes k, s.prog true = .call (.serversDelete dc id volumes) k) ∧
      ∃ entry ∈ s.world.list, IPFailover.nic entry = plainGroup.nicOf (s.phase true).machine := by
  let S := plainGroup.deletionSystem Bool
  have h₀ : S.Reach (plainGroup.Replaced Bool) (atRest [entryOf "a"]) _ := .init
  -- `b`: count, NIC, lock, LAN, question, unlock
  have h₁ := h₀.start true rfl ⟨controlPlane "b", default, controlPlane_shares "b", rfl, rfl⟩
    (fun _ _ _ _ _ h => nomatch h)
  have h₂ := h₁.again (answering [entryOf "a"]) rfl
    ⟨rfl, fun _ => ⟨_, List.mem_cons_of_mem _ (List.mem_cons_self ..), rfl⟩⟩
    (replaced_call fun _ h => nomatch h)
  have h₃ := h₂.again (answering [entryOf "a"]) rfl
    ⟨rfl, serverOf_nicSeen "b", fun _ h => absurd h (by decide)⟩ (replaced_call trivial)
  have h₄ := h₃.again (answering [entryOf "a"]) rfl ⟨rfl, rfl⟩ (replaced_call trivial)
  have h₅ := h₄.again (answering [entryOf "a"]) rfl ⟨rfl, _, rfl, rfl, rfl⟩ (replaced_call trivial)
  have h₆ := h₅.again (answering [entryOf "a"]) rfl rfl (replaced_call trivial)
  have h₇ := h₆.again (answering [entryOf "a"]) rfl rfl (replaced_call trivial)
  -- `a`: count, NIC, lock, LAN, question, latest machine and its NIC, PATCH
  have h₈ := h₇.start false rfl ⟨controlPlane "a", default, controlPlane_shares "a", rfl, rfl⟩
    (fun _ _ _ _ _ h => nomatch h)
  have h₉ := h₈.again (newerLast [entryOf "a"]) rfl
    ⟨rfl, fun _ => ⟨_, List.mem_cons_of_mem _ (List.mem_cons_self ..), rfl⟩⟩
    (replaced_call fun _ h => nomatch h)
  have h₁₀ := h₉.again (newerLast [entryOf "a"]) rfl
    ⟨rfl, serverOf_nicSeen "a", fun _ h => absurd h (by decide)⟩ (replaced_call trivial)
  have h₁₁ := h₁₀.again (newerLast [entryOf "a"]) rfl ⟨rfl, rfl⟩ (replaced_call trivial)
  have h₁₂ := h₁₁.again (newerLast [entryOf "a"]) rfl ⟨rfl, _, rfl, rfl, rfl⟩
    (replaced_call trivial)
  have h₁₃ := h₁₂.again (newerLast [entryOf "a"]) rfl rfl (replaced_call trivial)
  have h₁₄ := h₁₃.again (newerLast [entryOf "a"]) rfl ⟨rfl, fun h => nomatch h⟩
    (replaced_call fun _ _ => ⟨_, _, _, rfl, .inl (by decide)⟩)
  have h₁₅ := h₁₄.again (newerLast [entryOf "a"]) rfl
    ⟨rfl, serverOf_nicSeen "b", fun h => nomatch h⟩ (replaced_call trivial)
  have h₁₆ := h₁₅.again (newerLast [entryOf "a"]) rfl
    ⟨⟨_, rfl, by decide⟩, fun _ _ => rfl, rfl⟩ (replaced_call trivial)
  have h₁₇ := h₁₆.env (.execute rfl) (fun _ _ _ _ _ h => nomatch h)
  -- `b`: server, question
  have h₁₈ := (h₁₇.switch (by decide)).again (answering [entryOf "a"]) rfl
    ⟨rfl, serverOf_nicSeen "b", fun _ h => absurd h (by decide)⟩ (replaced_call trivial)
  have h₁₉ := h₁₈.again (answering [entryOf "a"]) rfl rfl (replaced_call trivial)
  exact ⟨_, h₁₉, ⟨_, _, _, _, rfl⟩, entryOf "b", List.mem_cons_self .., by decide⟩

end FailoverGroup

end Capic.Properties
