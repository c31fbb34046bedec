import Capic.Controller.Frame
import Capic.Effect.Threads
import Capic.Properties.CreateOnce
import Capic.Properties.Deadlock

/-!
# The failover IP block and its users

With failover IP `AUTO` the machines of a deployment share an IP block. `retrieveFailoverIPForMachine`
finds it and gives the machine its IP; the machine's NIC is configured with it and the machine joins
the failover group of the LAN several calls later. `ReconcileFailoverIPBlockDeletion` releases the block
if the failover group of the LAN has none of its IPs. Both take the lock of the block, but give it up
when they return: the time between being given the IP and joining the group is not covered.

`system` has any number of runs of machines of one deployment, the locks, and which machine was ever
given which IP, by the function that gives it (`Gives`). Machines are deleted at any time.

- `Inside`: the calls of a run since it took the lock of the block, if it still has it;
- `Covered`: where a deletion reads the LAN, the group has an IP of the block it has found, if another
  machine that is not deleted was given an IP of it;
- `block_released_unused`: as long as this holds, no block is released of which another machine that
  is not deleted was given an IP;
- `block_released_in_use`: a run of two machines in which it is.

From the answer for the LAN to the release the lock carries the proof: a machine is given an IP when it
gives up the lock (`gives_inv`), so not while the deletion has it.
-/

namespace Capic.Properties.BlockRelease

open Effect Effect.Go Cloud Controller Controller.Machine
open Function (update)

abbrev Trace := List (Event Call Call.Ans)

/-! ## Sections -/

/-- The run has the lock of the key, and has made these calls since it took it. -/
def Inside (key : String) (tr sec : Trace) : Prop :=
  ∃ before, tr = before ++ ⟨.lock key, .ok ()⟩ :: sec ∧ ∀ e ∈ sec, e.call ≠ .unlock key

section

variable {key : String} {tr sec : Trace} {e : Event Call Call.Ans}

theorem not_inside_nil : ¬ Inside key [] sec := by
  intro h
  obtain ⟨before, h, -⟩ := h
  simp at h

theorem inside_lock (tr : Trace) : Inside key (tr ++ [⟨.lock key, .ok ()⟩]) [] :=
  ⟨tr, rfl, fun _ he => (nomatch he)⟩

theorem Inside.grow (h : Inside key tr sec) (he : e.call ≠ .unlock key) :
    Inside key (tr ++ [e]) (sec ++ [e]) := by
  obtain ⟨before, rfl, hsec⟩ := h
  refine ⟨before, by simp, fun e' he' => ?_⟩
  rcases List.mem_append.mp he' with he' | he'
  · exact hsec e' he'
  · rw [List.mem_singleton.mp he']
    exact he

/-- The lock has just been taken, or the section has grown. -/
theorem Inside.inv (h : Inside key (tr ++ [e]) sec) :
    (sec = [] ∧ e = ⟨.lock key, .ok ()⟩) ∨
      (∃ sec', sec = sec' ++ [e] ∧ Inside key tr sec') ∧ e.call ≠ .unlock key := by
  obtain ⟨before, heq, hsec⟩ := h
  rcases List.eq_nil_or_concat sec with rfl | ⟨sec', e', rfl⟩
  · exact .inl ⟨rfl, (List.append_inj' heq rfl).2 |> List.cons.inj |> And.left⟩
  · rw [List.concat_eq_append, ← List.cons_append, ← List.append_assoc] at heq
    obtain ⟨rfl, hlast⟩ := List.append_inj' heq rfl
    obtain rfl : e = e' := (List.cons.inj hlast).1
    rw [List.concat_eq_append] at hsec ⊢
    refine .inr ⟨⟨sec', rfl, before, rfl, fun e' he' => ?_⟩, ?_⟩
    · exact hsec e' (List.mem_append_left _ he')
    · exact hsec e (by simp)

end

/-! ## The deployment -/

/-- Machines of one deployment that want their failover IP reserved for them. -/
structure Member (ms₀ ms : MachineScope) : Prop where
  ns : ms.ns = ms₀.ns
  label : labelValue ms.labels machineDeploymentNameLabel =
    labelValue ms₀.labels machineDeploymentNameLabel
  worker : ms.isControlPlane = false
  auto : ms.spec.failoverIP = some cloudResourceConfigAuto

theorem Member.lockKey {ms₀ ms : MachineScope} (h : Member ms₀ ms) :
    failoverIPBlockLockKey ms = failoverIPBlockLockKey ms₀ := by
  unfold failoverIPBlockLockKey
  rw [h.ns, h.label]

/-- A run of `retrieveFailoverIPForMachine` has just given the machine the IP. -/
def Gives (ms : MachineScope) (tr : Trace) (ip : String) : Prop :=
  ∃ before run s s', tr = before ++ run ∧
    Runs (retrieveFailoverIPForMachine ms) s run (.val (false, ip, none)) s'

/-- A machine is given its IP with the last call of the function, when it gives up the lock. -/
theorem gives_inv {ms₀ ms : MachineScope} {tr : Trace} {e : Event Call Call.Ans} {ip : String}
    (hms : Member ms₀ ms) (h : Gives ms (tr ++ [e]) ip) :
    e = ⟨.unlock (failoverIPBlockLockKey ms₀), ()⟩ ∧
      ∃ sec, Inside (failoverIPBlockLockKey ms₀) tr sec := by
  obtain ⟨before, run, s, s', heq, hrun⟩ := h
  have hlocked : retrieveFailoverIPForMachine ms =
      locked (failoverIPBlockLockKey ms₀) (fun e => (false, "", some e))
        (retrieveAutoFailoverIPLocked ms) := by
    unfold retrieveFailoverIPForMachine
    simp only [hms.worker, hms.auto, hms.lockKey]
    rfl
  rw [hlocked] at hrun
  rcases runs_locked_inv hrun with ⟨e', hr⟩ | ⟨body, rfl, hbody⟩
  · exact nomatch hr
  · rw [← List.append_assoc] at heq
    obtain ⟨rfl, hlast⟩ := List.append_inj' heq rfl
    refine ⟨(List.cons.inj hlast).1, body, before, rfl, fun e' he' hunlock => ?_⟩
    have hwithin : Within (fun c => ReconcilingFailover c ∧ LockFree c) (fun _ => ())
        (retrieveAutoFailoverIPLocked ms) := within_retrieveAutoFailoverIPLocked unit_frame
    have hfree := (hwithin.calls ⟨_, hbody⟩ e' he').2
    rw [hunlock] at hfree
    exact hfree

/-- The locks, the machines with the IPs they were given, and the machines that are deleted. -/
structure World (T : Type) where
  owner : Owners T String
  given : String → String → Prop
  deleting : String → Prop

/-- A run: its machine, and the calls it has made. -/
structure Run where
  ms : MachineScope
  trace : Trace

def Run.next (q : Run) (c : Call) (a : Call.Ans c) : Run := ⟨q.ms, q.trace ++ [⟨c, a⟩]⟩

/-- Blocks are shown with their IPs. -/
def Shows (ips : String → List String) : (c : Call) → Call.Ans c → Prop
  | .ipblocksGet, .ok items => ∀ block ∈ deref items [], ∀ id, block.id = some id →
      deref block.ips [] = ips id
  | _, _ => True

/-- Who was given which IP, when the run is where it is. -/
def givenAt (q : Run) (given : String → String → Prop) (name ip : String) : Prop :=
  given name ip ∨ (name = q.ms.name ∧ q.ms.deleted = false ∧ Gives q.ms q.trace ip)

/-- The runs of machines of the deployment of `ms₀`; the block `id` has the IPs `ips id`. -/
@[reducible] def system (T : Type) [DecidableEq T] (ms₀ : MachineScope)
    (ips : String → List String) : System T Call Call.Ans where
  World := World T
  Phase := Run
  idle := ⟨ms₀, []⟩
  next := Run.next
  exec t q w c a w' := Locks t w.owner c a w'.owner ∧ Shows ips c a ∧
    w'.given = givenAt (q.next c a) w.given ∧ w'.deleting = w.deleting
  env w w' := w'.owner = w.owner ∧ w'.given = w.given ∧ ∀ name, w.deleting name → w'.deleting name
  crash w w' := w' = ⟨fun _ => none, w.given, w.deleting⟩
  job _ q p := ∃ ms s, Member ms₀ ms ∧ q = ⟨ms, []⟩ ∧ p = (reconcile ms s).forget

/-- By this list of LANs, the block is not in use. -/
def Unused (ips : String → List String) (ms : MachineScope) (lans : List Lan) (id : String) : Prop :=
  ∃ lan, findLAN ms.spec.networkID (lanName ms.clusterScope) 0 none lans = .ok lan ∧
    shouldSkipIPBlockDeletion lan (ips id) = false

/-- Another machine than `name` was given an IP of the block, and is not deleted. -/
def UsedBeside {T : Type} (ips : String → List String) (w : World T) (name id : String) : Prop :=
  ∃ name' ip, name' ≠ name ∧ ip ∈ ips id ∧ w.given name' ip ∧ ¬ w.deleting name'

/-- These calls have shown the block that `getFailoverIPBlock` finds for the machine. -/
def Found (ms : MachineScope) (sec : Trace) (id : String) : Prop :=
  ∃ items location block, ⟨.ipblocksGet, .ok items⟩ ∈ sec ∧
    (deref items []).find? (fun block =>
      deref block.location "" = location ∧ deref block.name "" = failoverIPBlockName ms) = some block ∧
    block.id = some id

theorem Found.grow {ms : MachineScope} {sec : Trace} {id : String} (h : Found ms sec id)
    (e : Event Call Call.Ans) : Found ms (sec ++ [e]) id := by
  obtain ⟨items, location, block, hmem, hfound⟩ := h
  exact ⟨items, location, block, List.mem_append_left _ hmem, hfound⟩

/-- Where a deletion reads the LAN, the block it has found is seen to be used if it is (module doc). -/
def Covered {T : Type} (ms₀ : MachineScope) (ips : String → List String) (w : World T)
    (ph : T → Run) : System.Label T Call Call.Ans → Prop
  | .call t ⟨.lansGet _, .ok (some lans)⟩ => (ph t).ms.deleted = true →
      ∀ sec id, Inside (failoverIPBlockLockKey ms₀) (ph t).trace sec → Found (ph t).ms sec id →
        UsedBeside ips w (ph t).ms.name id → ¬ Unused ips (ph t).ms lans id
  | _ => True

/-- The deletion has found the block since it took the lock, and has just read the LAN, by which the
block is not in use. -/
def Ready (ms₀ : MachineScope) (ips : String → List String) (q : Run) (id : String) : Prop :=
  ∃ sec dc lans, Inside (failoverIPBlockLockKey ms₀) q.trace (sec ++ [⟨.lansGet dc, .ok (some lans)⟩]) ∧
    Found q.ms sec id ∧ Unused ips q.ms lans id

/-- A block is released by a deletion that is ready for it. -/
def Ok (ms₀ : MachineScope) (ips : String → List String) (q : Run) : Call → Prop
  | .ipblocksDelete id => q.ms.deleted = true ∧ Ready ms₀ ips q id
  | _ => True

/-! ## What one run does -/

section

variable (ms₀ : MachineScope) (ips : String → List String)

/-- The runs as a monitor. -/
@[reducible] def monitor : Monitor Call Call.Ans :=
  ⟨Run, Ok ms₀ ips, fun _ => Shows ips, Run.next, fun _ => True⟩

variable {ms₀ ips} {ms : MachineScope} {s : MachineVars} {q : Run}

/-- Calls that release no block are always allowed. -/
theorem ok_of_ne {c : Call} (h : ∀ id, c ≠ .ipblocksDelete id) : Ok ms₀ ips q c := by
  cases c with
  | ipblocksDelete id => exact absurd rfl (h id)
  | _ => trivial

/-- The run is one for the machine and has the lock, and its calls since are such. -/
def Locked (ms₀ ms : MachineScope) (P : Trace → Prop) (q : Run) : Prop :=
  q.ms = ms ∧ ∃ sec, Inside (failoverIPBlockLockKey ms₀) q.trace sec ∧ P sec

variable {P P' : Trace → Prop}

theorem Locked.mono (h : Locked ms₀ ms P q) (hP : ∀ sec, P sec → P' sec) : Locked ms₀ ms P' q := by
  obtain ⟨hms, sec, hsec, hholds⟩ := h
  exact ⟨hms, sec, hsec, hP sec hholds⟩

/-- Calls that have nothing to do with locks, and release no block, leave the lock with the run. -/
theorem Locked.next {c : Call} (h : Locked ms₀ ms P q) (hc : LockFree c) (a : Call.Ans c)
    (hP : ∀ sec, P sec → P' (sec ++ [⟨c, a⟩])) : Locked ms₀ ms P' (q.next c a) := by
  obtain ⟨hms, sec, hsec, hholds⟩ := h
  have hne : c ≠ .unlock (failoverIPBlockLockKey ms₀) := by
    intro hunlock
    rw [hunlock] at hc
    exact hc
  exact ⟨hms, _, hsec.grow (e := ⟨c, a⟩) hne, hP sec hholds⟩

/-- Calls of the deletion before the release. -/
def Reading (c : Call) : Prop := LockFree c ∧ ∀ id, c ≠ .ipblocksDelete id

theorem wp_reading {α : Type} {p : MachineM α} (hp : Within Reading (fun _ => ()) p)
    (hP : ∀ sec e, P sec → P (sec ++ [e])) (hq : Locked ms₀ ms P q) :
    p.wp (monitor ms₀ ips) (fun q' _ _ => Locked ms₀ ms P q') q s :=
  wp_mono (hp.wp_inv (M := monitor ms₀ ips) (Locked ms₀ ms P)
    (fun _ _ hq hc => ⟨ok_of_ne hc.2, fun a _ => hq.next hc.1 a fun sec h => hP sec _ h⟩)
    (fun _ _ => trivial) hq)
    fun _ _ _ h => h.1

/-- The run has the lock. -/
abbrev HasLock (ms₀ ms : MachineScope) : Run → Prop := Locked ms₀ ms fun _ => True

/-- The run has the lock, and has found the block since it took it. -/
abbrev HasFound (ms₀ ms : MachineScope) (id : String) : Run → Prop := Locked ms₀ ms (Found ms · id)

/-- The block that is found is shown with its IPs. -/
theorem getFailoverIPBlock_shown (hq : HasLock ms₀ ms q) :
    (getFailoverIPBlock ms).wp (monitor ms₀ ips) (fun q' r _ =>
      (∀ block, r = .ok (some block) →
        ∀ id, block.id = some id → HasFound ms₀ ms id q' ∧ deref block.ips [] = ips id) ∧
      ((∀ block, r ≠ .ok (some block)) → HasLock ms₀ ms q')) q s := by
  have hlocation : Within Reading (fun _ => ()) (getLocation ms) :=
    within_getLocation unit_frame fun _ => ⟨trivial, fun _ heq => nomatch heq⟩
  unfold getFailoverIPBlock Client.listIPBlocks
  rw [wp_bind, wp_bind, wp_perform]
  refine ⟨trivial, fun a ha => (wp_pure _).mpr ?_⟩
  match a with
  | .error e =>
    have hlock : HasLock ms₀ ms (q.next .ipblocksGet (.error e)) :=
      hq.next (c := .ipblocksGet) trivial _ fun _ _ => trivial
    exact (wp_pure _).mpr ⟨fun _ heq => (nomatch heq), fun _ => hlock⟩
  | .ok items =>
    have hlisted : Locked ms₀ ms (fun sec => ⟨.ipblocksGet, .ok items⟩ ∈ sec)
        (q.next .ipblocksGet (.ok items)) :=
      hq.next (c := .ipblocksGet) trivial _ fun _ _ => by simp
    have hlocated : (getLocation ms).wp (monitor ms₀ ips)
        (fun q' _ _ => Locked ms₀ ms (fun sec => ⟨.ipblocksGet, .ok items⟩ ∈ sec) q')
        (q.next .ipblocksGet (.ok items)) s :=
      wp_reading hlocation (fun _ e h => List.mem_append_left [e] h) hlisted
    refine (wp_bind _ _).mpr (wp_mono hlocated fun q₂ r s₂ hq₂ => ?_)
    have hlock : HasLock ms₀ ms q₂ := hq₂.mono fun _ _ => trivial
    cases r with
    | error e => exact (wp_pure _).mpr ⟨fun _ heq => (nomatch heq), fun _ => hlock⟩
    | ok location =>
      refine (wp_pure _).mpr ⟨fun block heq id hid => ⟨?_, ?_⟩, fun _ => hlock⟩
      · exact hq₂.mono fun sec hmem => ⟨items, location, block, hmem, Except.ok.inj heq, hid⟩
      · exact ha block (List.mem_of_find?_eq_some (Except.ok.inj heq)) id hid

/-- A block is released after the LAN was read. -/
theorem deleteUnused_ok {block : IpBlock} {id : String} (hms : ms.deleted = true)
    (hq : HasFound ms₀ ms id q) (hips : deref block.ips [] = ips id) :
    (deleteUnusedFailoverIPBlock ms block id).wp (monitor ms₀ ips) (fun _ _ _ => True) q s := by
  unfold deleteUnusedFailoverIPBlock
  rw [wp_bind]
  refine wp_getLAN (fun _ _ => (wp_pure _).mpr trivial) trivial
    (fun _ _ _ _ => (wp_pure _).mpr trivial) (fun lans _ => ?_) fun _ => trivial
  obtain ⟨rfl, sec, hsec, hfound⟩ := hq
  cases hlan : findLAN q.ms.spec.networkID (lanName q.ms.clusterScope) 0 none lans with
  | error e => exact (wp_pure _).mpr trivial
  | ok lan =>
    dsimp only
    rw [wp_ite]
    split
    next => exact (wp_pure _).mpr trivial
    next hskip =>
      refine (wp_bind _ _).mpr ?_
      unfold deleteFailoverIPBlock deleteIPBlock Client.deleteIPBlock
      refine (wp_bind _ _).mpr (Client.wp_withParams (fun _ _ _ => (wp_pure _).mpr
        ((wp_pure _).mpr trivial)) ?_)
      rw [wp_bind, wp_perform]
      refine ⟨⟨hms, sec, q.ms.datacenterID, lans, hsec.grow (fun heq => nomatch heq), hfound, lan,
        hlan, ?_⟩,
        fun a _ => ?_⟩
      · rw [← hips]
        exact Bool.eq_false_iff.mpr hskip
      · match a with
        | .error e => exact (wp_pure _).mpr ((wp_pure _).mpr ((wp_pure _).mpr trivial))
        | .ok path =>
          refine (wp_pure _).mpr ?_
          cases Client.located (.ok path) with
          | error e => exact (wp_pure _).mpr ((wp_pure _).mpr trivial)
          | ok location =>
            exact (wp_bind _ _).mpr ((wp_assign _).mpr ((wp_pure _).mpr ((wp_pure _).mpr trivial)))

theorem blockDeletionLocked_ok (hms : ms.deleted = true) (hq : HasLock ms₀ ms q) :
    (reconcileFailoverIPBlockDeletionLocked ms).wp (monitor ms₀ ips) (fun _ _ _ => True) q s := by
  have hrequest : Within Reading (fun _ => ()) (getLatestFailoverIPBlockCreateRequest ms) :=
    within_getLatestFailoverIPBlockCreateRequest unit_frame
      (fun _ _ => ⟨trivial, fun _ heq => nomatch heq⟩) fun _ => ⟨trivial, fun _ heq => nomatch heq⟩
  unfold reconcileFailoverIPBlockDeletionLocked
  refine (wp_bind _ _).mpr (wp_mono (wp_findResource_found (M := monitor ms₀ ips)
    (fun q _ => HasLock ms₀ ms q)
    (fun q block _ => ∀ id, block.id = some id → HasFound ms₀ ms id q ∧ deref block.ips [] = ips id)
    hq (fun q s hq => getFailoverIPBlock_shown hq)
    fun q s hq => wp_reading hrequest (fun _ _ _ => trivial) hq) fun q₁ r s₁ h₁ => ?_)
  match r with
  | .error e => exact (wp_pure _).mpr trivial
  | .ok (block, request) =>
    dsimp only
    split
    next => exact (wp_bind _ _).mpr ((wp_assign _).mpr ((wp_pure _).mpr trivial))
    next => exact (wp_bind _ _).mpr ((wp_assign _).mpr ((wp_pure _).mpr trivial))
    next block _ =>
      obtain ⟨hshown, -⟩ := h₁.1 block request rfl
      unfold reconcileFoundFailoverIPBlockDeletion
      cases hid : block.id with
      | none => exact (wp_panicking _).mpr trivial
      | some id =>
        obtain ⟨hq₁, hips⟩ := hshown id hid
        have hdeletion : Within Reading (fun _ => ()) (getLatestIPBlockDeletionRequest id : MachineM _) :=
          within_getMatchingRequest fun _ => ⟨trivial, fun _ heq => nomatch heq⟩
        refine (wp_bind _ _).mpr (wp_mono (wp_reading hdeletion (fun _ e h => h.grow e) hq₁)
          fun q₂ r s₂ hq₂ => ?_)
        match r with
        | .error e => exact (wp_pure _).mpr trivial
        | .ok none => exact deleteUnused_ok hms hq₂ hips
        | .ok (some request) =>
          dsimp only
          rw [wp_ite]
          split
          next => exact (wp_bind _ _).mpr ((wp_assign _).mpr ((wp_pure _).mpr trivial))
          next =>
            rw [wp_ite]
            split
            next => exact (wp_bind _ _).mpr ((wp_assign _).mpr ((wp_pure _).mpr trivial))
            next => exact deleteUnused_ok hms hq₂ hips

theorem blockDeletion_ok (hms : Member ms₀ ms) (hdeleted : ms.deleted = true) (hq : q.ms = ms) :
    (reconcileFailoverIPBlockDeletion ms).wp (monitor ms₀ ips) (fun _ _ _ => True) q s := by
  unfold reconcileFailoverIPBlockDeletion
  rw [wp_ite]
  split
  next => exact (wp_pure _).mpr trivial
  next =>
    rw [hms.lockKey]
    refine wp_locked trivial (fun _ _ => ⟨trivial, fun _ => trivial⟩) (fun _ _ => trivial) fun _ => ?_
    refine wp_mono (blockDeletionLocked_ok hdeleted ⟨hq, [], inside_lock q.trace, trivial⟩) ?_
    exact fun _ _ _ _ => ⟨trivial, fun _ => trivial⟩

theorem normalSequence_ok :
    (runSteps (fun e => setProvisioningCondition ms (some e)) (normalSequence ms)).wp (monitor ms₀ ips)
      (fun _ _ _ => True) q s := by
  have hsteps : Within Provisioning (fun _ => ())
      (runSteps (fun e => setProvisioningCondition ms (some e)) (normalSequence ms)) :=
    within_runSteps (fun e => within_setProvisioningCondition (fun _ _ => rfl) _)
      within_normalSequence
  refine hsteps.wp_of_ok (M := monitor ms₀ ips) (fun q c hc => ok_of_ne fun id heq => ?_)
    fun _ => trivial
  subst heq
  rcases hc with hc | hc | hc | hc <;> exact hc

/-- A step that releases no block. -/
theorem wp_other {α : Type} {E : Call → Prop} {p : MachineM α} (hp : Within E (fun _ => ()) p)
    (hE : ∀ id, ¬ E (.ipblocksDelete id)) (hq : q.ms = ms) :
    p.wp (monitor ms₀ ips) (fun q' _ _ => q'.ms = ms) q s := by
  refine wp_mono (hp.wp_inv (M := monitor ms₀ ips) (fun q => q.ms = ms) (fun q c hq hc =>
    ⟨ok_of_ne fun id heq => ?_, fun _ _ => hq⟩) (fun _ _ => trivial) hq) fun _ _ _ h => h.1
  subst heq
  exact hE id hc

theorem deleteSequence_ok (hms : Member ms₀ ms) (hdeleted : ms.deleted = true) (hq : q.ms = ms) :
    (runSteps (fun _ => return ()) (deleteSequence ms)).wp (monitor ms₀ ips) (fun _ _ _ => True)
      q s := by
  have herror : ∀ (e : Err) (q : Run) (s : MachineVars),
      (return () : MachineM Unit).wp (monitor ms₀ ips) (fun _ _ _ => True) q s :=
    fun _ _ _ => (wp_pure _).mpr trivial
  unfold deleteSequence
  refine wp_runSteps_step herror (fun _ _ _ => trivial) (wp_mono (wp_other
    (within_reconcileIPFailoverDeletion unit_frame) (fun _ h => h) hq) fun q₁ _ s₁ hq₁ _ => ?_)
  refine wp_runSteps_step herror (fun _ _ _ => trivial) (wp_mono (wp_other
    (within_reconcileServerDeletion unit_frame.currentRequest unit_frame.providerID) (fun _ h => h) hq₁)
    fun q₂ _ s₂ hq₂ _ => ?_)
  refine wp_runSteps_step herror (fun _ _ _ => trivial) (wp_mono (wp_other
    (within_reconcileLANDeletion unit_frame.cluster) (fun _ h => h) hq₂) fun q₃ _ s₃ hq₃ _ => ?_)
  refine wp_runSteps_step herror (fun _ _ _ => trivial) (wp_mono
    (blockDeletion_ok hms hdeleted hq₃) fun q₄ _ s₄ _ _ => ?_)
  refine wp_runSteps_step herror (fun _ _ _ => trivial) (wp_mono (wp_other
    K8s.within_reconcileIPAddressClaimsDeletion (fun _ h => h) (Eq.refl q₄.ms)) fun q₅ _ s₅ _ _ => ?_)
  exact wp_runSteps_nil trivial

/-- Every run keeps to `Ok`. -/
theorem reconcile_ok (hms : Member ms₀ ms) :
    (reconcile ms s).forget.wp (monitor ms₀ ips) (fun _ _ => True) ⟨ms, []⟩ := by
  refine wp_reconcile (M := monitor ms₀ ips) (I := fun q => q.ms = ms) ?_ (fun _ => trivial)
    (fun _ _ => trivial) ?_ ?_ rfl
  · intro q c hq hc
    refine ⟨ok_of_ne fun id heq => ?_, fun _ _ => hq⟩
    subst heq
    exact hc
  · intro _ q s _
    exact normalSequence_ok
  · intro hdeleted q s hq
    exact deleteSequence_ok hms hdeleted hq

end

/-! ## What the runs do to one another -/

section

variable {T : Type} {ms₀ : MachineScope} {ips : String → List String} {w w' : World T}
  {ph : T → Run} {t : T}

/-- The invariant: runs inside have the lock, and what a deletion has seen under the lock stays
true. -/
structure Inv (ms₀ : MachineScope) (ips : String → List String) (w : World T) (ph : T → Run) :
    Prop where
  members : ∀ t, Member ms₀ (ph t).ms
  guards : w.owner.Guards (failoverIPBlockLockKey ms₀) fun t =>
    ∃ sec, Inside (failoverIPBlockLockKey ms₀) (ph t).trace sec
  unused : ∀ t id, (ph t).ms.deleted = true → Ready ms₀ ips (ph t) id →
    ¬ UsedBeside ips w (ph t).ms.name id

theorem UsedBeside.mono {name id : String} (h : UsedBeside ips w' name id)
    (hgiven : ∀ name ip, w'.given name ip → w.given name ip)
    (hdeleting : ∀ name, w.deleting name → w'.deleting name) : UsedBeside ips w name id := by
  obtain ⟨name', ip, hne, hip, hgave, hlive⟩ := h
  exact ⟨name', ip, hne, hip, hgiven _ _ hgave, fun hd => hlive (hdeleting _ hd)⟩

/-- Where nothing runs, the invariant holds. -/
theorem inv_idle (hms₀ : Member ms₀ ms₀) (w : World T) : Inv ms₀ ips w fun _ : T => ⟨ms₀, []⟩ :=
  ⟨fun _ => hms₀, fun _ ⟨_, hsec⟩ => absurd hsec not_inside_nil,
    fun _ _ _ ⟨_, _, _, hsec, _⟩ => absurd hsec not_inside_nil⟩

variable [DecidableEq T]

/-- The lock goes with the calls that take it and give it up. -/
theorem Inv.guards_call {c : Call} {a : Call.Ans c} (h : Inv ms₀ ips w ph)
    (hlocks : Locks t w.owner c a w'.owner) :
    w'.owner.Guards (failoverIPBlockLockKey ms₀) fun u => ∃ sec,
      Inside (failoverIPBlockLockKey ms₀) (update ph t ((ph t).next c a) u).trace sec := by
  -- who is inside afterwards has taken the lock with this call, or was inside and has not given it up
  have hin : ∀ u, (∃ sec, Inside (failoverIPBlockLockKey ms₀)
        (update ph t ((ph t).next c a) u).trace sec) →
      (u = t ∧ (⟨c, a⟩ : Event Call Call.Ans) = ⟨.lock (failoverIPBlockLockKey ms₀), .ok ()⟩) ∨
      (∃ sec, Inside (failoverIPBlockLockKey ms₀) (ph u).trace sec) ∧
        (u = t → c ≠ .unlock (failoverIPBlockLockKey ms₀)) := by
    intro u hu
    obtain ⟨sec, hsec⟩ := hu
    by_cases hut : u = t
    · subst hut
      rw [Function.update_self] at hsec
      rcases hsec.inv with ⟨-, he⟩ | ⟨⟨sec', -, hsec'⟩, he⟩
      · exact .inl ⟨rfl, he⟩
      · exact .inr ⟨⟨sec', hsec'⟩, fun _ => he⟩
    · rw [Function.update_of_ne hut] at hsec
      exact .inr ⟨⟨sec, hsec⟩, fun heq => absurd heq hut⟩
  -- a call that leaves the locks alone, and takes none
  have hquiet : w'.owner = w.owner →
      ((⟨c, a⟩ : Event Call Call.Ans) ≠ ⟨.lock (failoverIPBlockLockKey ms₀), .ok ()⟩) →
      w'.owner.Guards (failoverIPBlockLockKey ms₀) fun u => ∃ sec,
        Inside (failoverIPBlockLockKey ms₀) (update ph t ((ph t).next c a) u).trace sec := by
    intro howner hne u hu
    rw [howner]
    exact h.guards u ((hin u hu).resolve_left fun hlock => hne hlock.2).1
  cases c with
  | lock key =>
    match a with
    | .error e => exact hquiet hlocks fun heq => nomatch heq
    | .ok () =>
      obtain ⟨hfree, howner⟩ := hlocks
      rw [howner]
      refine h.guards.acquire hfree fun u hu => ?_
      rcases hin u hu with ⟨rfl, he⟩ | hu'
      · obtain rfl : key = _ := Call.lock.inj (congrArg Event.call he)
        exact .inl ⟨rfl, rfl⟩
      · exact .inr hu'.1
  | lockBackground key =>
    obtain ⟨hfree, howner⟩ := hlocks
    rw [howner]
    refine h.guards.acquire hfree fun u hu => ?_
    exact .inr ((hin u hu).resolve_left fun hlock => nomatch congrArg Event.call hlock.2).1
  | unlock key =>
    rw [show w'.owner = w.owner.unlock t key from hlocks]
    refine h.guards.unlock fun u hu => ?_
    have hu' := (hin u hu).resolve_left fun hlock => nomatch congrArg Event.call hlock.2
    exact ⟨hu'.1, fun hut hkey => hu'.2 hut (congrArg Call.unlock hkey)⟩
  | _ => exact hquiet hlocks fun heq => nomatch congrArg Event.call heq

/-- Nobody is given an IP while another run is inside, nor with a call after which the run still is. -/
theorem Inv.given_call {c : Call} {a : Call.Ans c} {u : T} {sec : Trace} (h : Inv ms₀ ips w ph)
    (hgiven : w'.given = givenAt ((ph t).next c a) w.given)
    (hsec : Inside (failoverIPBlockLockKey ms₀) (update ph t ((ph t).next c a) u).trace sec)
    {name ip : String} (hgave : w'.given name ip) : w.given name ip := by
  rw [hgiven] at hgave
  rcases hgave with hgave | ⟨-, -, hgives⟩
  · exact hgave
  · obtain ⟨he, hinside⟩ := gives_inv (h.members t) hgives
    by_cases hut : u = t
    · rw [hut, Function.update_self] at hsec
      rcases hsec.inv with ⟨-, hlock⟩ | ⟨-, hunlock⟩
      · exact nomatch congrArg Event.call (he.symm.trans hlock)
      · exact absurd (congrArg Event.call he) hunlock
    · rw [Function.update_of_ne hut] at hsec
      exact absurd ⟨sec, hsec⟩ (h.guards.alone hinside hut)

theorem Inv.call {c : Call} {a : Call.Ans c} (h : Inv ms₀ ips w ph)
    (hexec : (system T ms₀ ips).exec t (ph t) w c a w')
    (hC : Covered ms₀ ips w ph (.call t ⟨c, a⟩)) :
    Inv ms₀ ips w' (update ph t ((ph t).next c a)) := by
  obtain ⟨hlocks, -, hgiven, hdeleting⟩ := hexec
  have hms : ∀ u, (update ph t ((ph t).next c a) u).ms = (ph u).ms := by
    intro u
    by_cases hut : u = t
    · rw [hut, Function.update_self]
      rfl
    · rw [Function.update_of_ne hut]
  refine ⟨fun u => by rw [hms]; exact h.members u, h.guards_call hlocks, ?_⟩
  intro u id hdeleted hready hused
  rw [hms] at hdeleted hused
  obtain ⟨sec, dc, lans, hsec, hfound, hunused⟩ := hready
  have hbefore : UsedBeside ips w (ph u).ms.name id :=
    hused.mono (fun _ _ => h.given_call hgiven hsec) fun _ hd => by rwa [hdeleting]
  rw [hms] at hfound hunused
  by_cases hut : u = t
  · -- the LAN is read with this call
    subst hut
    rw [Function.update_self] at hsec
    rcases hsec.inv with ⟨hnil, -⟩ | ⟨⟨sec', heq, hsec'⟩, -⟩
    · simp at hnil
    · obtain ⟨rfl, hlast⟩ := List.append_inj' heq rfl
      obtain ⟨rfl, heq⟩ := Event.mk.inj (List.singleton_inj.mp hlast)
      obtain rfl := eq_of_heq heq
      exact hC hdeleted sec id hsec' hfound hbefore hunused
  · rw [Function.update_of_ne hut] at hsec
    exact h.unused u id hdeleted ⟨sec, dc, lans, hsec, hfound, hunused⟩ hbefore

/-- A run that has made no call yet is not inside. -/
theorem Inv.start {ms : MachineScope} (h : Inv ms₀ ips w ph) (hms : Member ms₀ ms) :
    Inv ms₀ ips w (update ph t ⟨ms, []⟩) := by
  have hin : ∀ u sec, Inside (failoverIPBlockLockKey ms₀) (update ph t ⟨ms, []⟩ u).trace sec →
      update ph t ⟨ms, []⟩ u = ph u ∧ Inside (failoverIPBlockLockKey ms₀) (ph u).trace sec := by
    intro u sec hsec
    by_cases hut : u = t
    · rw [hut, Function.update_self] at hsec
      exact absurd hsec not_inside_nil
    · rw [Function.update_of_ne hut] at hsec ⊢
      exact ⟨rfl, hsec⟩
  refine ⟨fun u => ?_, fun u hu => ?_, fun u id hdeleted hready => ?_⟩
  · by_cases hut : u = t
    · rw [hut, Function.update_self]
      exact hms
    · rw [Function.update_of_ne hut]
      exact h.members u
  · obtain ⟨sec, hsec⟩ := hu
    exact h.guards u ⟨sec, (hin u sec hsec).2⟩
  · obtain ⟨sec, dc, lans, hsec, hfound, hunused⟩ := hready
    obtain ⟨hph, hsec'⟩ := hin u _ hsec
    rw [hph] at hdeleted hfound hunused ⊢
    exact h.unused u id hdeleted ⟨sec, dc, lans, hsec', hfound, hunused⟩

theorem sound (hms₀ : Member ms₀ ms₀) : (system T ms₀ ips).Sound (Covered ms₀ ips)
    { ok := Ok ms₀ ips, adm := fun _ => Shows ips } (Inv ms₀ ips) where
  answers _ hexec _ := hexec.2.1
  jobs := by
    intro t q p hjob
    obtain ⟨ms, s, hms, rfl, rfl⟩ := hjob
    exact reconcile_ok hms
  idle := trivial
  call hI _ hexec hC := hI.call hexec hC
  start := by
    intro w ph t q p hI _ hjob
    obtain ⟨ms, s, hms, rfl, -⟩ := hjob
    exact hI.start hms
  env := by
    intro w w' ph hI henv _
    obtain ⟨howner, hgiven, hdeleting⟩ := henv
    refine ⟨hI.members, by rw [howner]; exact hI.guards, ?_⟩
    intro t id hdeleted hready hused
    refine hI.unused t id hdeleted hready (hused.mono (fun _ _ hg => ?_) hdeleting)
    rwa [← hgiven]
  crash := by
    intro w w' ph _ _
    exact inv_idle hms₀ w'

end

/-! ## The result -/

/-- As long as the block that a deletion has found is seen to be used, if it is, where the deletion reads
the LAN, no block is released of which another machine that is not deleted was given an IP. -/
theorem block_released_unused (T : Type) [DecidableEq T] (ms₀ : MachineScope)
    (hms₀ : Member ms₀ ms₀) (ips : String → List String) (w : World T)
    (s : (system T ms₀ ips).Conf) (hs : (system T ms₀ ips).Reach (Covered ms₀ ips) w s) (t : T)
    (id : String) (hcall : (s.prog t).next? = some (.ipblocksDelete id)) (name ip : String)
    (hne : name ≠ (s.phase t).ms.name) (hip : ip ∈ ips id) (hgiven : s.world.given name ip) :
    s.world.deleting name := by
  have hinit : Inv ms₀ ips w fun _ : T => ⟨ms₀, []⟩ := inv_idle hms₀ w
  have hinv := ((sound hms₀).reach hinit hs).1
  have hok : Ok ms₀ ips (s.phase t) (.ipblocksDelete id) := by
    cases hprog : s.prog t with
    | ret a =>
      rw [hprog] at hcall
      exact nomatch hcall
    | call c k =>
      rw [hprog] at hcall
      obtain rfl := Option.some.inj hcall
      exact (sound hms₀).call_ok hinit hs hprog
  by_contra hlive
  exact hinv.unused t id hok.1 hok.2 ⟨name, ip, hne, hip, hgiven, hlive⟩

/-! ## Two machines -/

/-- A machine of the deployment. -/
def workerMachine : MachineScope :=
  { plainMachine with
    name := "worker"
    labels := [(machineDeploymentNameLabel, "md")]
    clusterScope := { plainMachine.clusterScope with infrastructureProvisioned := some true }
    dataSecretName := some "bootstrap"
    uuidValidate := fun _ => none
    spec := { plainMachine.spec with failoverIP := some cloudResourceConfigAuto } }

/-- Another one, which is deleted. -/
def deletedMachine : MachineScope := { workerMachine with name := "deleted", deleted := true }

/-- The block that both use. -/
def blockIPs (id : String) : List String := if id = "block" then ["203.0.113.7"] else []

/-- The block is there, and so is the server of the first machine, with a NIC in the LAN; the failover
group is empty. -/
def blockAnswers : ∀ c : Call, Call.Ans c
  | .ipblocksGet => .ok (some [⟨some "block", some "fo-ipb--md", some "de/fra",
      some ["203.0.113.7"], some "AVAILABLE"⟩])
  | .datacentersFindById _ => .ok (some "de/fra")
  | .lansGet _ => .ok (some [⟨some "1", some "lan--", some "AVAILABLE", some [], some ["nic"]⟩])
  | .serversGet _ => .ok (some [⟨some "server", some "AVAILABLE",
      some ⟨some "worker", some "RUNNING", none⟩,
      some [⟨some "nic", some (nicName "worker"), some [], none, some 1⟩]⟩])
  | .listMachines _ _ => .ok [⟨"worker", 0, "ionos://server"⟩, ⟨"deleted", 0, ""⟩]
  | .getCredentials _ _ => .ok ⟨"", "", 0, [], [], "token", ""⟩
  | .getSecret _ _ => .ok ⟨some "#cloud-config"⟩
  | c => Call.plain c

/-- What the calls of a run for the machine do to the world, with those answers. -/
def blockEffect (t : Bool) (ms : MachineScope) (q : Run) (w : World Bool) (c : Call) :
    Option (World Bool) :=
  let given := givenAt (q.next c (blockAnswers c)) w.given
  if q.ms.name = ms.name ∧ q.ms.deleted = ms.deleted then
    match c with
    | .lock key | .lockBackground key =>
      if w.owner key = none then some ⟨w.owner.acquire t key, given, w.deleting⟩ else none
    | .unlock key => some ⟨w.owner.unlock t key, given, w.deleting⟩
    | _ => some ⟨w.owner, given, w.deleting⟩
  else none

theorem blockEffect_exec {t : Bool} {ms : MachineScope} {q : Run} {w w' : World Bool} {c : Call}
    (h : blockEffect t ms q w c = some w') :
    (system Bool workerMachine blockIPs).exec t q w c (blockAnswers c) w' ∧
      q.ms.name = ms.name ∧ q.ms.deleted = ms.deleted := by
  obtain ⟨hq, h⟩ := Option.ite_none_right_eq_some.mp h
  refine ⟨?_, hq⟩
  cases c with
  | lock key =>
    obtain ⟨hfree, h⟩ := Option.ite_none_right_eq_some.mp h
    obtain rfl := Option.some.inj h
    exact ⟨⟨hfree, rfl⟩, trivial, rfl, rfl⟩
  | lockBackground key =>
    obtain ⟨hfree, h⟩ := Option.ite_none_right_eq_some.mp h
    obtain rfl := Option.some.inj h
    exact ⟨⟨hfree, rfl⟩, trivial, rfl, rfl⟩
  | ipblocksGet =>
    obtain rfl := Option.some.inj h
    refine ⟨rfl, fun block hblock id hid => ?_, rfl, rfl⟩
    obtain rfl := List.mem_singleton.mp hblock
    obtain rfl := Option.some.inj hid
    rfl
  | _ =>
    obtain rfl := Option.some.inj h
    exact ⟨rfl, trivial, rfl, rfl⟩

/-- The first machine is given the IP. -/
theorem worker_given : Gives workerMachine
    (((reconcile workerMachine default).forget.play blockAnswers).1.take 14) "203.0.113.7" :=
  ⟨((reconcile workerMachine default).forget.play blockAnswers).1.take 10,
    ((retrieveFailoverIPForMachine workerMachine default).play blockAnswers).1, default, _, rfl,
    runs_play (retrieveFailoverIPForMachine workerMachine) default blockAnswers⟩

/-- Nobody was given an IP yet. -/
def noneGiven (T : Type) : World T := ⟨fun _ => none, fun _ _ => False, fun _ => False⟩

/-- The first machine is given the IP. Before it joins the failover group, the deletion of the second
one finds the group empty and releases the block. -/
theorem block_released_in_use : ∃ s, (system Bool workerMachine blockIPs).Reach (fun _ _ _ => True)
      (noneGiven Bool) s ∧
    (s.prog false).next? = some (.ipblocksDelete "block") ∧
    ∃ name ip, name ≠ (s.phase false).ms.name ∧ ip ∈ blockIPs "block" ∧ s.world.given name ip ∧
      ¬ s.world.deleting name := by
  have hexec : ∀ (t : Bool) (ms : MachineScope) (P : World Bool → Prop),
      (∀ w w' q, P w → w'.given = givenAt q w.given → w'.deleting = w.deleting → P w') →
      ∀ (ph : Bool → Run) (w : World Bool) (c : Call) (w' : World Bool), P w →
      blockEffect t ms (ph t) w c = some w' →
      (system Bool workerMachine blockIPs).exec t (ph t) w c (blockAnswers c) w' ∧ True ∧ P w' := by
    intro t ms P hP ph w c w' hw h
    have hstep := (blockEffect_exec h).1
    exact ⟨hstep, trivial, hP w w' _ hw hstep.2.2.1 hstep.2.2.2⟩
  have hlive : ∀ (w w' : World Bool) (q : Run), (∀ name, ¬ w.deleting name) →
      w'.given = givenAt q w.given → w'.deleting = w.deleting → ∀ name, ¬ w'.deleting name := by
    intro w w' q hw _ hdeleting
    rw [hdeleting]
    exact hw
  have hused : ∀ (w w' : World Bool) (q : Run),
      (w.given "worker" "203.0.113.7" ∧ ¬ w.deleting "worker") →
      w'.given = givenAt q w.given → w'.deleting = w.deleting →
      w'.given "worker" "203.0.113.7" ∧ ¬ w'.deleting "worker" := by
    intro w w' q hw hgiven hdeleting
    rw [hgiven, hdeleting]
    exact ⟨.inl hw.1, hw.2⟩
  have h₀ : (system Bool workerMachine blockIPs).Reach (fun _ _ _ => True) (noneGiven Bool) _ :=
    .init
  have h₁ := h₀.start true rfl ⟨workerMachine, default, ⟨rfl, rfl, rfl, rfl⟩, rfl, rfl⟩ trivial
  obtain ⟨h₂, hw₂⟩ := h₁.follow blockAnswers (blockEffect true workerMachine) _
    (hexec true workerMachine _ hlive) 14 (fun _ h => h) rfl
  have h₃ := h₂.start false rfl ⟨deletedMachine, default, ⟨rfl, rfl, rfl, rfl⟩, rfl, rfl⟩ trivial
  obtain ⟨h₄, hw₄⟩ := h₃.follow blockAnswers (blockEffect false deletedMachine) _
    (hexec false deletedMachine _ hused) 21 ⟨.inr ⟨rfl, rfl, worker_given⟩, hw₂ _⟩ rfl
  exact ⟨_, h₄, rfl, "worker", "203.0.113.7", by decide, by decide, hw₄⟩

/-- The first machine is given the IP and is deleted as well. Then the block is released. -/
theorem block_released_unused_run : ∃ s,
    (system Bool workerMachine blockIPs).Reach (Covered workerMachine blockIPs) (noneGiven Bool) s ∧
    (s.prog false).next? = some (.ipblocksDelete "block") ∧ s.world.given "worker" "203.0.113.7" ∧
    s.world.deleting "worker" := by
  -- at first only that machine is given an IP, and does not read the LAN for a deletion
  have hfirst : ∀ (ph : Bool → Run) (w : World Bool) (c : Call) (w' : World Bool),
      (∀ name ip, w.given name ip → name = "worker") →
      blockEffect true workerMachine (ph true) w c = some w' →
      (system Bool workerMachine blockIPs).exec true (ph true) w c (blockAnswers c) w' ∧
        Covered workerMachine blockIPs w ph (.call true ⟨c, blockAnswers c⟩) ∧
        ∀ name ip, w'.given name ip → name = "worker" := by
    intro ph w c w' hw h
    obtain ⟨hstep, hname, hdeleted⟩ := blockEffect_exec h
    refine ⟨hstep, ?_, fun name ip hgiven => ?_⟩
    · cases c with
      | lansGet dc => exact fun hd => absurd (hdeleted.symm.trans hd) (by decide)
      | _ => trivial
    · rw [hstep.2.2.1] at hgiven
      rcases hgiven with hgiven | ⟨heq, -⟩
      · exact hw name ip hgiven
      · exact heq.trans hname
  -- then all who were given one are deleted
  have hsecond : ∀ (ph : Bool → Run) (w : World Bool) (c : Call) (w' : World Bool),
      ((∀ name ip, w.given name ip → w.deleting name) ∧ w.given "worker" "203.0.113.7") →
      blockEffect false deletedMachine (ph false) w c = some w' →
      (system Bool workerMachine blockIPs).exec false (ph false) w c (blockAnswers c) w' ∧
        Covered workerMachine blockIPs w ph (.call false ⟨c, blockAnswers c⟩) ∧
        (∀ name ip, w'.given name ip → w'.deleting name) ∧ w'.given "worker" "203.0.113.7" := by
    intro ph w c w' hw h
    obtain ⟨hstep, -, hdeleted⟩ := blockEffect_exec h
    refine ⟨hstep, ?_, fun name ip hgiven => ?_, ?_⟩
    · cases c with
      | lansGet dc =>
        intro _ _ id _ _ hused
        obtain ⟨name', ip, -, -, hgiven, hlive⟩ := hused
        exact absurd (hw.1 name' ip hgiven) hlive
      | _ => trivial
    · rw [hstep.2.2.1] at hgiven
      rw [hstep.2.2.2]
      rcases hgiven with hgiven | ⟨-, hnot, -⟩
      · exact hw.1 name ip hgiven
      · exact nomatch hdeleted.symm.trans hnot
    · rw [hstep.2.2.1]
      exact .inl hw.2
  have h₀ : (system Bool workerMachine blockIPs).Reach (Covered workerMachine blockIPs)
      (noneGiven Bool) _ := .init
  have h₁ := h₀.start true rfl ⟨workerMachine, default, ⟨rfl, rfl, rfl, rfl⟩, rfl, rfl⟩ trivial
  obtain ⟨h₂, hw₂⟩ := h₁.follow blockAnswers (blockEffect true workerMachine) _ hfirst 14
    (fun _ _ h => h.elim) rfl
  have h₃ : (system Bool workerMachine blockIPs).Reach (Covered workerMachine blockIPs)
      (noneGiven Bool) ⟨⟨_, _, fun name => name = "worker"⟩, _, _⟩ :=
    h₂.env ⟨rfl, rfl, fun _ h => h.elim⟩ trivial
  have h₄ := h₃.start false rfl ⟨deletedMachine, default, ⟨rfl, rfl, rfl, rfl⟩, rfl, rfl⟩ trivial
  obtain ⟨h₅, hw₅⟩ := h₄.follow blockAnswers (blockEffect false deletedMachine) _ hsecond 21
    ⟨hw₂, .inr ⟨rfl, rfl, worker_given⟩⟩ rfl
  exact ⟨_, h₅, rfl, hw₅.2, block_released_unused Bool workerMachine ⟨rfl, rfl, rfl, rfl⟩ blockIPs _ _
    h₅ false "block" rfl "worker" "203.0.113.7" (by decide) (by decide) hw₅.2⟩

end Capic.Properties.BlockRelease
