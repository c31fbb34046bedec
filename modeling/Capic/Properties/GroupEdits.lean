import Capic.Controller.Frame

/-!
# Edits of a failover group

A PATCH replaces the whole list of failover pairs, so that what an edit does not mean to change has
to be sent as it was read: `reconcileIPFailoverGroup`, `removeNICFromFailoverGroup` and
`swapNICInFailoverGroup` are to change one entry each, and to come to rest.

`sentLists` are the lists that a run sends, `Reads` says which list it is shown. A run sends one list
at most (`OneEdit`), and what that list is was computed from the one that was read by `joinGroup`,
`leaveGroup` and `swapNIC`. A run that ends with `(false, nil)` has read the list and found nothing
to do; every other end without a PATCH is an error, a panic, or a requeue because a PATCH is
pending. A run that nothing of this kind comes in the way of (`Unhindered`) sends exactly the edited
list, if there is something to edit.
-/

namespace Capic.Properties

open Effect Effect.Go Cloud

/-! ## What a run reads and sends -/

/-- The list of failover pairs a call sends. -/
def sentBy : Call → Option (List IPFailover)
  | .lansPatch _ _ config => some config
  | _ => none

/-- The lists a run sends. -/
def sentLists (tr : List (Event Call Call.Ans)) : List (List IPFailover) :=
  tr.filterMap (sentBy ·.call)

/-- The LAN of the machine is shown with this list. -/
def ShowsConfig (ms : MachineScope) (config : List IPFailover) : (c : Call) → Call.Ans c → Prop
  | .lansGet _, .ok (some lans) =>
    ∀ found, findLAN ms.spec.networkID (lanName ms.clusterScope) 0 none lans = .ok found →
      deref (deref found noLAN).ipFailover [] = config
  | _, _ => True

/-- An answer that lets an edit go on: the lock is granted, the LAN is found with this list, no PATCH
of it is pending, and the PATCH is accepted and done. -/
def Helps (ms : MachineScope) (lanID : String) (config : List IPFailover) :
    (c : Call) → Call.Ans c → Prop
  | .lock _, a => a = .ok ()
  | .lansGet _, a => ∃ lans lan, a = .ok (some lans) ∧
      findLAN ms.spec.networkID (lanName ms.clusterScope) 0 none lans = .ok (some lan) ∧
      lan.id = some lanID ∧ deref lan.ipFailover [] = config
  | .requestsGet .patch _, a => ∃ ri, matchAnswer .lan (lanURL ms.datacenterID lanID) [] a =
      .val (.ok ri) ∧ ri.any (·.isPending) = false
  | .lansPatch _ _ _, a => ∃ location, a = .ok location ∧ location ≠ ""
  | .waitForRequest _, a => a = .ok ()
  | _, _ => True

/-- The machine that takes over: the latest one, with a server and a primary NIC. -/
structure Replacement (ms : MachineScope) where
  machine : MachineItem
  nicID : String
  server : extractServerID machine.providerID ≠ ""
  valid : ms.uuidValidate (extractServerID machine.providerID) = none
  nic : nicID ≠ ""

/-- An answer that shows the replacement. -/
def Replacement.Shown {ms : MachineScope} (new : Replacement ms) : (c : Call) → Call.Ans c → Prop
  | .listMachines _ _, a => ∃ machines, a = .ok machines ∧
      MachineScope.latestOf ms.name machines = some new.machine
  | .serversFindById _ id, a => id = extractServerID new.machine.providerID →
      ∃ server nic, a = .ok server ∧ findPrimaryNIC new.machine.name (some server) = .ok nic ∧
        nic.id = some new.nicID
  | _, _ => True

/-- A run that is shown this list, no pending PATCH and no error. -/
structure Unhindered (ms : MachineScope) (lanID : String) (config : List IPFailover)
    (tr : List (Event Call Call.Ans)) : Prop where
  addressable : Addressable ms lanID
  answers : ∀ e ∈ tr, Helps ms lanID config e.call e.answer

/-- A run that is shown this list. -/
def Reads (ms : MachineScope) (config : List IPFailover) (tr : List (Event Call Call.Ans)) : Prop :=
  ∀ e ∈ tr, ShowsConfig ms config e.call e.answer

/-- Nothing was sent, or one edit. -/
def OneEdit (Edit : List IPFailover → Prop) (sent : List (List IPFailover)) : Prop :=
  sent = [] ∨ ∃ config', sent = [config'] ∧ Edit config'

/-- How a run ends: it has sent at most one edit, and none if it says that nothing was to do. -/
def Edited (Edit : List IPFailover → Prop) (settled : Prop) (sent : List (List IPFailover))
    (r : Outcome) : Prop :=
  OneEdit Edit sent ∧ (r = (false, none) → sent = [] ∧ settled)

/-- How a run ends that nothing hinders: it has sent the edit, if there is one, and then requeues. -/
def Sent (edit : Option (List IPFailover)) (sent : List (List IPFailover)) (r : Outcome) : Prop :=
  sent = edit.toList ∧ r = (edit.isSome, none)

/-- The lists sent so far, with the answers that are shown, and whether the run may panic. -/
abbrev listMonitor (Shows : (c : Call) → Call.Ans c → Prop) (Edit : List IPFailover → Prop)
    (panics : Prop) : Monitor Call Call.Ans where
  Phase := List (List IPFailover)
  ok sent c := ∀ config', sentBy c = some config' → sent = [] ∧ Edit config'
  adm _ c a := Shows c a
  next sent c _ :=
    match sentBy c with
    | some config' => sent ++ [config']
    | none => sent
  panic sent := panics ∧ OneEdit Edit sent

/-- A run that is shown the list. -/
abbrev editMonitor (ms : MachineScope) (config : List IPFailover)
    (Edit : List IPFailover → Prop) : Monitor Call Call.Ans :=
  listMonitor (ShowsConfig ms config) Edit True

/-- A run that nothing hinders, and that is shown something else besides. -/
abbrev helpMonitor (ms : MachineScope) (lanID : String) (config : List IPFailover)
    (Shows : (c : Call) → Call.Ans c → Prop) : Monitor Call Call.Ans :=
  listMonitor (fun c a => Helps ms lanID config c a ∧ Shows c a) (fun _ => True) False

section

variable {ms : MachineScope} {config : List IPFailover} {Edit : List IPFailover → Prop}
  {Shows : (c : Call) → Call.Ans c → Prop} {settled : Prop} {s : MachineVars}

theorem after_edits {panics : Prop}
    (sent : List (List IPFailover)) (tr : List (Event Call Call.Ans)) :
    (listMonitor Shows Edit panics).after sent tr = sent ++ sentLists tr := by
  induction tr generalizing sent with
  | nil => exact (List.append_nil _).symm
  | cons e tr ih =>
    rw [Monitor.after, ih]
    cases h : sentBy e.call with
    | none => simp [sentLists, h]
    | some config' => simp [sentLists, h]

/-- What is proved of the monitor holds of every run that reads the list. -/
theorem edited_of_run {p : MachineM Outcome} {tr : List (Event Call Call.Ans)} {r : Res Outcome}
    {s' : MachineVars}
    (hspec : p.wp (editMonitor ms config Edit) (fun sent r _ => Edited Edit settled sent r) [] s)
    (hruns : Runs p s tr r s') (hreads : Reads ms config tr) :
    OneEdit Edit (sentLists tr) ∧ (r = .val (false, none) → sentLists tr = [] ∧ settled) := by
  have hadmits : (editMonitor ms config Edit).Admits [] tr :=
    Monitor.admits_of_forall (fun e he _ => hreads e he) _
  have hafter : (editMonitor ms config Edit).after [] tr = sentLists tr := after_edits [] tr
  cases r with
  | val outcome =>
    have hend := wp_runs hspec hruns hadmits
    rw [hafter] at hend
    exact ⟨hend.1, fun heq => hend.2 (Res.val.inj heq)⟩
  | panic msg =>
    have hend := wp_runs_panic hspec hruns hadmits
    rw [hafter] at hend
    exact ⟨hend.2, fun heq => nomatch heq⟩

/-- The same of a run that nothing hinders, which does not panic either. -/
theorem sent_of_run {lanID : String} {Q : List (List IPFailover) → Outcome → Prop}
    {p : MachineM Outcome} {tr : List (Event Call Call.Ans)} {r : Res Outcome} {s' : MachineVars}
    (hspec : p.wp (helpMonitor ms lanID config Shows)
      (fun sent r _ => Q sent r) [] s)
    (hruns : Runs p s tr r s') (hanswers : ∀ e ∈ tr, Helps ms lanID config e.call e.answer)
    (hshows : ∀ e ∈ tr, Shows e.call e.answer) :
    ∃ outcome, r = .val outcome ∧ Q (sentLists tr) outcome := by
  have hadmits : (helpMonitor ms lanID config Shows).Admits [] tr :=
    Monitor.admits_of_forall (fun e he _ => And.intro (hanswers e he) (hshows e he)) _
  cases r with
  | val outcome =>
    have hend := wp_runs hspec hruns hadmits
    rw [after_edits [] tr] at hend
    exact ⟨outcome, rfl, hend⟩
  | panic msg => exact absurd (wp_runs_panic hspec hruns hadmits).1 not_false

theorem Unhindered.sent {lanID : String} {Q : List (List IPFailover) → Outcome → Prop}
    {p : MachineM Outcome} {tr : List (Event Call Call.Ans)} {r : Res Outcome} {s' : MachineVars}
    (hfree : Unhindered ms lanID config tr)
    (hspec : p.wp (helpMonitor ms lanID config fun _ _ => True) (fun sent r _ => Q sent r) [] s)
    (hruns : Runs p s tr r s') : ∃ outcome, r = .val outcome ∧ Q (sentLists tr) outcome :=
  sent_of_run hspec hruns hfree.answers fun _ _ => trivial

theorem Unhindered.reads {lanID : String} {tr : List (Event Call Call.Ans)}
    (h : Unhindered ms lanID config tr) : Reads ms config tr := by
  rintro ⟨c, a⟩ he
  have hhelps := h.answers _ he
  cases c with
  | lansGet dc =>
    obtain ⟨lans, lan, rfl, hlan, -, hconfig⟩ := hhelps
    intro found hfound
    obtain rfl := Except.ok.inj (hlan.symm.trans hfound)
    exact hconfig
  | _ => trivial

/-- Answers that hinder nothing: the LAN is listed with this list. -/
def helping (ms : MachineScope) (lanID : String) (config : List IPFailover) : ∀ c, Call.Ans c
  | .lansGet _ =>
    .ok (some [⟨some lanID, some (lanName ms.clusterScope), none, some config, none⟩])
  | c => c.plain

theorem helps_helping {lanID : String} (hnetwork : ∀ id, ms.spec.networkID = some id → id = lanID)
    (c : Call) : Helps ms lanID config c (helping ms lanID config c) := by
  cases c with
  | lansGet _ =>
    refine ⟨_, ⟨some lanID, some (lanName ms.clusterScope), none, some config, none⟩, rfl, ?_, rfl,
      rfl⟩
    cases hid : ms.spec.networkID with
    | none => simp [findLAN]
    | some id =>
      obtain rfl := hnetwork id hid
      simp [findLAN]
  | requestsGet method _ =>
    cases method with
    | patch => exact ⟨none, rfl, rfl⟩
    | _ => trivial
  | lansPatch _ _ _ => exact ⟨_, rfl, by decide⟩
  | lock _ => rfl
  | waitForRequest _ => rfl
  | _ => trivial

theorem unhindered_play {lanID : String} (haddr : Addressable ms lanID)
    (hnetwork : ∀ id, ms.spec.networkID = some id → id = lanID) (config : List IPFailover)
    (p : MachineM Outcome) (s : MachineVars) :
    Unhindered ms lanID config ((p s).play (helping ms lanID config)).1 := by
  refine ⟨haddr, fun e he => ?_⟩
  rw [Prog.answer_of_mem_play he]
  exact helps_helping hnetwork e.call

/-! ## The parts all edits share -/

theorem retrieve_edits :
    (retrieveLANFailoverConfig ms).wp (editMonitor ms config Edit) (fun sent r _ => sent = [] ∧
      (∀ outcome, r = .error outcome → outcome ≠ (false, none)) ∧
      ∀ lan read, r = .ok (lan, read) → read = config) [] s := by
  refine wp_retrieveLANFailoverConfig (· = []) rfl (fun _ _ => rfl) (fun _ _ _ hsent => hsent) ?_ ?_
    (fun _ heq => nomatch heq) (fun _ _ _ heq => nomatch heq) ?_
  · rintro _ outcome rfl hne
    refine ⟨rfl, fun outcome' heq => ?_, fun _ _ heq => nomatch heq⟩
    rwa [← Except.error.inj heq]
  · rintro _ rfl
    exact ⟨trivial, .inl rfl⟩
  · intro lans found hlans hfound _ _ _ _ _ _ _
    refine ⟨rfl, fun _ heq => (nomatch heq), fun lan read heq => ?_⟩
    rw [← (Prod.mk.inj (Except.ok.inj heq)).2]
    exact hlans found hfound

theorem locked_edits {body : MachineM Outcome}
    (hbody : body.wp (editMonitor ms config Edit)
      (fun sent r _ => Edited Edit settled sent r) [] s) :
    (locked (lanLockKey ms) (fun e => (false, some e)) body).wp (editMonitor ms config Edit)
      (fun sent r _ => Edited Edit settled sent r) [] s := by
  refine wp_locked (fun _ heq => nomatch heq)
    (fun _ hsent => ⟨fun _ heq => (nomatch heq), fun _ => hsent⟩)
    (fun e _ => ⟨.inl rfl, fun heq => (nomatch (Prod.mk.inj heq).2)⟩) fun _ => ?_
  exact wp_mono hbody fun sent r _ hend => ⟨fun _ heq => (nomatch heq), fun _ => hend⟩

/-- The PATCH of an edit. The run requeues, whatever becomes of it. -/
theorem patch_edits {lanID : String} {config' : List IPFailover} (hedit : Edit config') :
    (do return (true, ← patchLAN ms lanID config') : MachineM Outcome).wp
      (editMonitor ms config Edit) (fun sent r _ => Edited Edit settled sent r) [] s := by
  have hend : ∀ {sent : List (List IPFailover)} (err : Option Err), OneEdit Edit sent →
      Edited Edit settled sent (true, err) :=
    fun err hsent => ⟨hsent, fun heq => (nomatch (Prod.mk.inj heq).1)⟩
  have hsent : OneEdit Edit [config'] := .inr ⟨config', rfl, hedit⟩
  rw [wp_bind]
  refine wp_patchLAN (fun config'' heq => ?_) (fun e => (wp_pure _).mpr (hend _ (.inl rfl)))
    (fun a _ _ e => (wp_pure _).mpr (hend _ hsent)) fun location sent _ _ hnext => ?_
  · obtain rfl := Option.some.inj heq
    exact ⟨rfl, hedit⟩
  · subst hnext
    exact ⟨fun _ heq => (nomatch heq), fun _ _ r _ => (wp_pure _).mpr (hend _ hsent)⟩

/-! The same where nothing hinders. -/

theorem retrieve_sent {lanID : String} (haddr : Addressable ms lanID) :
    (retrieveLANFailoverConfig ms).wp (helpMonitor ms lanID config Shows) (fun sent r _ => sent = [] ∧
      ∃ lan, lan.id = some lanID ∧ r = .ok (lan, config)) [] s := by
  unfold retrieveLANFailoverConfig getLAN Client.listLANs
  rw [Client.withParams_given (by simpa using haddr.datacenterID), wp_bind, wp_bind, wp_bind,
    wp_perform]
  refine ⟨fun _ heq => (nomatch heq), fun a ha => ?_⟩
  obtain ⟨lans, lan, rfl, hfound, hid, hconfig⟩ := ha.1
  refine (wp_pure _).mpr ((wp_pure _).mpr ?_)
  rw [hfound]
  dsimp only [deref, Option.getD_some]
  rw [hid]
  unfold isLANPatchPending getLatestLANPatchRequest
  refine (wp_bind _ _).mpr ((wp_bind _ _).mpr (wp_getMatchingRequest_post
    (fun hempty => absurd hempty haddr.path) fun _ => ⟨fun _ heq => (nomatch heq), fun a ha => ?_⟩))
  obtain ⟨ri, hri, hpending⟩ := ha.1
  rw [show Option.getD (some lanID) "" = lanID from rfl, hri]
  refine (wp_pure _).mpr ?_
  dsimp only
  rw [hpending]
  exact (wp_pure _).mpr ⟨rfl, lan, hid, congrArg (fun list => Except.ok (lan, list)) hconfig⟩

theorem locked_sent {lanID : String} {Q : List (List IPFailover) → Outcome → Prop}
    {body : MachineM Outcome}
    (hbody : body.wp (helpMonitor ms lanID config Shows) (fun sent r _ => Q sent r) [] s) :
    (locked (lanLockKey ms) (fun e => (false, some e)) body).wp (helpMonitor ms lanID config Shows)
      (fun sent r _ => Q sent r) [] s := by
  refine wp_locked (fun _ heq => nomatch heq) (fun _ hpanic => hpanic.1.elim)
    (fun e he => ?_) fun _ => ?_
  · cases (show (Except.error e : Except Err Unit) = .ok () from he.1)
  · exact wp_mono hbody fun sent r _ hend => ⟨fun _ heq => (nomatch heq), fun _ => hend⟩

theorem patch_sent {lanID : String} (haddr : Addressable ms lanID) {config' : List IPFailover} :
    (do return (true, ← patchLAN ms lanID config') : MachineM Outcome).wp
      (helpMonitor ms lanID config Shows) (fun sent r _ => Sent (some config') sent r) [] s := by
  have hgiven : ∀ p ∈ [(ms.datacenterID, Client.errDatacenterIDIsEmpty),
      (lanID, Client.errLANIDIsEmpty)], p.1 ≠ "" := by
    simpa using ⟨haddr.datacenterID, haddr.lan⟩
  unfold patchLAN Client.patchLAN
  rw [Client.withParams_given hgiven, wp_bind, wp_bind, wp_bind, wp_perform]
  refine ⟨fun _ _ => ⟨rfl, trivial⟩, fun a ha => ?_⟩
  obtain ⟨location, rfl, hlocation⟩ := ha.1
  refine (wp_pure _).mpr ?_
  unfold Client.located
  dsimp only
  rw [if_neg hlocation]
  refine (wp_bind _ _).mpr ((wp_assign _).mpr ((wp_bind _ _).mpr ?_))
  refine Client.wp_waitForRequest (fun hempty => absurd hempty hlocation) fun _ =>
    ⟨fun _ heq => (nomatch heq), fun a ha => ?_⟩
  obtain rfl : a = .ok () := ha.1
  exact (wp_bind _ _).mpr ((wp_assign _).mpr ((wp_pure _).mpr ((wp_pure _).mpr ⟨rfl, rfl⟩)))

/-! ## The runs -/

theorem join_edits (nicID failoverIP : String) :
    (reconcileIPFailoverGroup ms nicID failoverIP).wp
      (editMonitor ms config fun config' => joinGroup nicID failoverIP config = some config')
      (fun sent r _ => Edited (fun config' => joinGroup nicID failoverIP config = some config')
        (joinGroup nicID failoverIP config = none) sent r) [] s := by
  unfold reconcileIPFailoverGroup
  rw [wp_ite]
  split
  next => exact (wp_pure _).mpr ⟨.inl rfl, fun heq => (nomatch (Prod.mk.inj heq).2)⟩
  next =>
    refine locked_edits ?_
    unfold reconcileIPFailoverGroupLocked
    refine (wp_bind _ _).mpr (wp_mono retrieve_edits ?_)
    rintro _ r s' ⟨rfl, herror, hok⟩
    match r with
    | .error outcome =>
      exact (wp_pure _).mpr ⟨.inl rfl, fun heq => absurd heq (herror outcome rfl)⟩
    | .ok (lan, read) =>
      obtain rfl := hok lan read rfl
      dsimp only
      split
      next hnone => exact (wp_pure _).mpr ⟨.inl rfl, fun _ => ⟨rfl, hnone⟩⟩
      next config' hjoin => exact patch_edits hjoin

theorem leave_edits (nicID : String) :
    (removeNICFromFailoverGroup ms nicID).wp
      (editMonitor ms config fun config' => ∃ index, nicIndex nicID config = some index ∧
        config' = leaveGroup index config)
      (fun sent r _ => Edited (fun config' => ∃ index, nicIndex nicID config = some index ∧
        config' = leaveGroup index config) (nicIndex nicID config = none) sent r) [] s := by
  refine locked_edits ?_
  unfold removeNICFromFailoverGroupLocked
  refine (wp_bind _ _).mpr (wp_mono retrieve_edits ?_)
  rintro _ r s' ⟨rfl, herror, hok⟩
  match r with
  | .error outcome =>
    exact (wp_pure _).mpr ⟨.inl rfl, fun heq => absurd heq (herror outcome rfl)⟩
  | .ok (lan, read) =>
    obtain rfl := hok lan read rfl
    dsimp only
    split
    next => exact (wp_panicking _).mpr ⟨trivial, .inl rfl⟩
    next =>
      split
      next hnone => exact (wp_pure _).mpr ⟨.inl rfl, fun _ => ⟨rfl, hnone⟩⟩
      next index hindex => exact patch_edits ⟨index, hindex, rfl⟩

theorem swap_edits (labels : List (String × String)) (nicID : String) :
    (swapNICInFailoverGroupLocked ms labels nicID).wp
      (editMonitor ms config fun config' => ∃ index newNICID,
        nicIndex nicID config = some index ∧ config' = swapNIC index newNICID config)
      (fun sent r _ => Edited (fun config' => ∃ index newNICID,
        nicIndex nicID config = some index ∧ config' = swapNIC index newNICID config)
        True sent r) [] s := by
  -- an end without a PATCH
  have hquiet : ∀ {Edit : List IPFailover → Prop} (r : Outcome), Edited Edit True [] r :=
    fun _ => ⟨.inl rfl, fun _ => ⟨rfl, trivial⟩⟩
  unfold swapNICInFailoverGroupLocked
  refine (wp_bind _ _).mpr (wp_mono retrieve_edits ?_)
  rintro _ r s' ⟨rfl, -, hok⟩
  match r with
  | .error outcome => exact (wp_pure _).mpr (hquiet _)
  | .ok (lan, read) =>
    obtain rfl := hok lan read rfl
    dsimp only
    split
    next => exact (wp_pure _).mpr (hquiet _)
    next index hindex =>
      unfold swapForLatest MachineScope.findLatestMachine ClusterScope.listMachines
      rw [wp_bind, wp_bind, wp_perform]
      refine ⟨fun _ heq => (nomatch heq), fun a _ => (wp_pure _).mpr ?_⟩
      split
      next => exact (wp_pure _).mpr (hquiet _)
      next => exact (wp_pure _).mpr (hquiet _)
      next machine _ =>
        rw [wp_bind]
        refine wp_getServerByServerID (fun _ => (wp_pure _).mpr (hquiet _))
          (fun _ _ => (wp_pure _).mpr (hquiet _)) (fun _ heq => nomatch heq)
          (fun _ _ _ _ => (wp_pure _).mpr (hquiet _)) fun _ server _ => ?_
        dsimp only
        split
        next => exact (wp_pure _).mpr (hquiet _)
        next nic _ =>
          rw [wp_ite]
          split
          next => exact (wp_pure _).mpr (hquiet _)
          next => exact patch_edits ⟨index, _, hindex, rfl⟩

theorem join_sent {lanID nicID : String} (haddr : Addressable ms lanID) (hnic : nicID ≠ "")
    (failoverIP : String) :
    (reconcileIPFailoverGroup ms nicID failoverIP).wp (helpMonitor ms lanID config Shows)
      (fun sent r _ => Sent (joinGroup nicID failoverIP config) sent r) [] s := by
  unfold reconcileIPFailoverGroup
  rw [wp_ite, if_neg hnic]
  refine locked_sent ?_
  unfold reconcileIPFailoverGroupLocked
  refine (wp_bind _ _).mpr (wp_mono (retrieve_sent haddr) fun sent r s' hr => ?_)
  obtain ⟨rfl, lan, hid, rfl⟩ := hr
  dsimp only
  rw [hid]
  cases hjoin : joinGroup nicID failoverIP config with
  | none => exact (wp_pure _).mpr ⟨rfl, rfl⟩
  | some config' => exact patch_sent haddr

theorem leave_sent {lanID : String} (haddr : Addressable ms lanID) (nicID : String) :
    (removeNICFromFailoverGroup ms nicID).wp (helpMonitor ms lanID config Shows)
      (fun sent r _ => Sent ((nicIndex nicID config).map (leaveGroup · config)) sent r) [] s := by
  refine locked_sent ?_
  unfold removeNICFromFailoverGroupLocked
  refine (wp_bind _ _).mpr (wp_mono (retrieve_sent haddr) fun sent r s' hr => ?_)
  obtain ⟨rfl, lan, hid, rfl⟩ := hr
  dsimp only
  rw [hid]
  cases hindex : nicIndex nicID config with
  | none => exact (wp_pure _).mpr ⟨rfl, rfl⟩
  | some index => exact patch_sent haddr

theorem swap_sent {lanID : String} (haddr : Addressable ms lanID) (new : Replacement ms)
    (labels : List (String × String)) (nicID : String) :
    (locked (lanLockKey ms) (fun e => (false, some e))
      (swapNICInFailoverGroupLocked ms labels nicID)).wp (helpMonitor ms lanID config new.Shown)
      (fun sent r _ => Sent ((nicIndex nicID config).map (swapNIC · new.nicID config)) sent r)
      [] s := by
  refine locked_sent ?_
  unfold swapNICInFailoverGroupLocked
  refine (wp_bind _ _).mpr (wp_mono (retrieve_sent haddr) fun sent r s' hr => ?_)
  obtain ⟨rfl, lan, hid, rfl⟩ := hr
  dsimp only
  cases hindex : nicIndex nicID config with
  | none => exact (wp_pure _).mpr ⟨rfl, rfl⟩
  | some index =>
    dsimp only
    unfold swapForLatest MachineScope.findLatestMachine ClusterScope.listMachines
    rw [wp_bind, wp_bind, wp_perform]
    refine ⟨fun _ heq => (nomatch heq), fun a ha => (wp_pure _).mpr ?_⟩
    obtain ⟨machines, rfl, hlatest⟩ := ha.2
    rw [Except.map, hlatest]
    dsimp only
    unfold getServerByServerID Client.getServer
    have hgiven : ∀ p ∈ [(ms.datacenterID, Client.errDatacenterIDIsEmpty),
        (extractServerID new.machine.providerID, Client.errServerIDIsEmpty)], p.1 ≠ "" := by
      simpa using ⟨haddr.datacenterID, new.server⟩
    rw [if_neg new.server, new.valid]
    dsimp only
    rw [Client.withParams_given hgiven, wp_bind, wp_bind, wp_bind, wp_perform]
    refine ⟨fun _ heq => (nomatch heq), fun a ha => (wp_pure _).mpr ?_⟩
    obtain ⟨server, nic, rfl, hnic, hnicID⟩ := ha.2 rfl
    refine (wp_pure _).mpr ?_
    dsimp only
    rw [hnic]
    dsimp only
    rw [hnicID, hid, wp_ite, if_neg (show deref (some new.nicID) "" ≠ "" from new.nic)]
    exact patch_sent haddr

end

/-! ## One entry at a time -/

/-- The pair is appended, or the IP of one entry of the NIC is replaced. -/
def JoinsOne (nicID failoverIP : String) (config config' : List IPFailover) : Prop :=
  config' = config ++ [⟨some failoverIP, some nicID⟩] ∨
    ∃ before entry after, config = before ++ entry :: after ∧ entry.nicUuid = some nicID ∧
      entry.ip ≠ some failoverIP ∧ config' = before ++ { entry with ip := some failoverIP } :: after

/-- One entry of the NIC is removed. -/
def LeavesOne (nicID : String) (config config' : List IPFailover) : Prop :=
  ∃ before entry after, config = before ++ entry :: after ∧ entry.nicUuid = some nicID ∧
    config' = before ++ after

/-- One entry of the NIC gets another NIC. -/
def SwapsOne (nicID : String) (config config' : List IPFailover) : Prop :=
  ∃ before entry after newNICID, config = before ++ entry :: after ∧ entry.nicUuid = some nicID ∧
    config' = before ++ { entry with nicUuid := some newNICID } :: after

/-- The number of entries of the NIC. -/
def entriesOf (nicID : String) (config : List IPFailover) : Nat :=
  config.countP (·.nicUuid = some nicID)

section

variable {nicID failoverIP : String} {config config' : List IPFailover}

theorem joinsOne_of_joinGroup (hnic : nicID ≠ unknownValue)
    (h : joinGroup nicID failoverIP config = some config') :
    JoinsOne nicID failoverIP config config' := by
  obtain ⟨before, -, ⟨rfl, rfl⟩ | ⟨entry, after, rfl, hentry, hip, rfl⟩⟩ := joinGroup_some h
  · exact .inl rfl
  · refine .inr ⟨before, entry, after, rfl, eq_some_of_deref hentry hnic, fun heq => hip ?_, rfl⟩
    unfold IPFailover.addr
    rw [heq]
    rfl

/-- What was sent needs no further edit. -/
theorem joinGroup_settled (h : joinGroup nicID failoverIP config = some config') :
    joinGroup nicID failoverIP config' = none := by
  obtain ⟨before, hbefore, ⟨rfl, rfl⟩ | ⟨entry, after, rfl, hentry, -, rfl⟩⟩ := joinGroup_some h
  · exact joinGroup_joined hbefore rfl rfl
  · exact joinGroup_joined hbefore hentry rfl

theorem leavesOne_of_index (hnic : nicID ≠ unknownValue) {index : Nat}
    (h : nicIndex nicID config = some index) :
    LeavesOne nicID config (leaveGroup index config) := by
  obtain ⟨before, entry, after, rfl, rfl, hentry, -⟩ := nicIndex_some h
  exact ⟨before, entry, after, rfl, eq_some_of_deref hentry hnic, leaveGroup_append _ _ _⟩

theorem swapsOne_of_index (hnic : nicID ≠ unknownValue) {index : Nat}
    (h : nicIndex nicID config = some index) (newNICID : String) :
    SwapsOne nicID config (swapNIC index newNICID config) := by
  obtain ⟨before, entry, after, rfl, rfl, hentry, -⟩ := nicIndex_some h
  exact ⟨before, entry, after, newNICID, rfl, eq_some_of_deref hentry hnic, swapNIC_append _ _ _ _⟩

theorem swapNIC_ips {index : Nat} (h : nicIndex nicID config = some index) (newNICID : String) :
    (swapNIC index newNICID config).map (·.ip) = config.map (·.ip) := by
  obtain ⟨before, entry, after, rfl, rfl, -, -⟩ := nicIndex_some h
  rw [swapNIC_append]
  simp

theorem LeavesOne.entriesOf (h : LeavesOne nicID config config') :
    entriesOf nicID config = entriesOf nicID config' + 1 := by
  obtain ⟨before, entry, after, rfl, hentry, rfl⟩ := h
  simp [Properties.entriesOf, hentry]
  omega

/-- Nothing to remove: the NIC has no entry. -/
theorem entriesOf_eq_zero (h : nicIndex nicID config = none) : entriesOf nicID config = 0 := by
  rw [entriesOf, List.countP_eq_zero]
  intro entry hentry hnic
  refine nicIndex_none h entry hentry ?_
  unfold IPFailover.nic
  rw [of_decide_eq_true hnic]
  rfl

end

/-! ## The edits settle -/

/-- Runs of `removeNICFromFailoverGroup` that send a list, each on what the one before sent. -/
inductive Removals (ms : MachineScope) (nicID : String) :
    Nat → List IPFailover → List IPFailover → Prop
  | done {config : List IPFailover} : Removals ms nicID 0 config config
  | more {n : Nat} {config config' config'' : List IPFailover} {v v' : MachineVars}
      {tr : List (Event Call Call.Ans)} {r : Res Outcome} :
      Runs (removeNICFromFailoverGroup ms nicID) v tr r v' → Reads ms config tr →
      sentLists tr = [config'] → Removals ms nicID n config' config'' →
      Removals ms nicID (n + 1) config config''

/-- `reconcileIPFailoverGroup` sends a list with one entry more or changed, and nothing if it is
shown that list. If it finds nothing to do, the IP is in the group; if nothing hinders it, these are
the only two ends. -/
def JoinSettles (ms : MachineScope) (nicID failoverIP : String) : Prop :=
  ∀ config v tr r v', Runs (reconcileIPFailoverGroup ms nicID failoverIP) v tr r v' →
    (Reads ms config tr →
      OneEdit (fun config' => JoinsOne nicID failoverIP config config' ∧
        ∀ v tr r v', Runs (reconcileIPFailoverGroup ms nicID failoverIP) v tr r v' →
          Reads ms config' tr → sentLists tr = []) (sentLists tr) ∧
      (r = .val (false, none) →
        sentLists tr = [] ∧ ∃ entry ∈ config, entry.ip = some failoverIP)) ∧
    ∀ lanID, nicID ≠ "" → Unhindered ms lanID config tr →
      r = .val (true, none) ∧
          (∃ config', sentLists tr = [config'] ∧ JoinsOne nicID failoverIP config config') ∨
        r = .val (false, none) ∧ sentLists tr = [] ∧ ∃ entry ∈ config, entry.ip = some failoverIP

/-- `removeNICFromFailoverGroup` sends the list without one entry of the NIC, and does so if nothing
hinders it. Repeated on what it sent, it sends as many lists as there were entries: no more than
that, and it finds nothing to do only when there is none left. -/
structure LeaveSettles (ms : MachineScope) (nicID : String) : Prop where
  edit : ∀ config v tr r v', Runs (removeNICFromFailoverGroup ms nicID) v tr r v' →
    Reads ms config tr → OneEdit (LeavesOne nicID config) (sentLists tr)
  sends : ∀ lanID config v tr r v', Runs (removeNICFromFailoverGroup ms nicID) v tr r v' →
    Unhindered ms lanID config tr →
    if entriesOf nicID config = 0 then r = .val (false, none) ∧ sentLists tr = []
    else r = .val (true, none) ∧ ∃ config', sentLists tr = [config'] ∧ LeavesOne nicID config config'
  stops : ∀ n config config', Removals ms nicID n config config' → n ≤ entriesOf nicID config ∧
    ∀ v tr r v', Runs (removeNICFromFailoverGroup ms nicID) v tr r v' → Reads ms config' tr →
      (n = entriesOf nicID config → entriesOf nicID config' = 0 ∧ sentLists tr = []) ∧
      (r = .val (false, none) → n = entriesOf nicID config)
  reaches : ∀ lanID config, Addressable ms lanID → (∀ id, ms.spec.networkID = some id → id = lanID) →
    ∃ config', Removals ms nicID (entriesOf nicID config) config config' ∧
      entriesOf nicID config' = 0

/-- `swapNICInFailoverGroup` sends the list with another NIC in one entry of the machine's NIC, and
the IPs as they were. If nothing hinders it and there is a machine to take over, it does so wherever
the NIC has an entry. -/
def SwapEdits (ms : MachineScope) : Prop :=
  ∀ labels config v tr r v', Runs (swapNICInFailoverGroup ms labels) v tr r v' →
    (Reads ms config tr →
      OneEdit (fun config' => config'.map (·.ip) = config.map (·.ip) ∧
        ∃ nicID tr₁ v₁, tr₁ <+: tr ∧ Runs (getServerNICID ms) v tr₁ (.val (.ok nicID)) v₁ ∧
          (nicID ≠ unknownValue → SwapsOne nicID config config')) (sentLists tr)) ∧
    ∀ (lanID : String) (new : Replacement ms) (nicID : String) tr₁ v₁, Unhindered ms lanID config tr →
      (∀ e ∈ tr, new.Shown e.call e.answer) → nicID ≠ unknownValue →
      tr₁ <+: tr → Runs (getServerNICID ms) v tr₁ (.val (.ok nicID)) v₁ →
      if entriesOf nicID config = 0 then r = .val (false, none) ∧ sentLists tr = []
      else r = .val (true, none) ∧ ∃ config', sentLists tr = [config'] ∧
        config'.map (·.ip) = config.map (·.ip) ∧ SwapsOne nicID config config'

theorem OneEdit.imp {Edit Edit' : List IPFailover → Prop} {sent : List (List IPFailover)}
    (h : OneEdit Edit sent) (himp : ∀ config', Edit config' → Edit' config') :
    OneEdit Edit' sent := by
  rcases h with h | ⟨config', h, hedit⟩
  · exact .inl h
  · exact .inr ⟨config', h, himp config' hedit⟩

section

variable {ms : MachineScope} {nicID failoverIP : String}

/-- What is sent where nothing hinders, for an edit of the first entry of the NIC. -/
theorem sent_at_index (hnic : nicID ≠ unknownValue) {config : List IPFailover}
    {edit : Nat → List IPFailover} {sent : List (List IPFailover)} {outcome : Outcome}
    {P : List IPFailover → Prop}
    (hsent : Sent ((nicIndex nicID config).map edit) sent outcome)
    (hedit : ∀ index, nicIndex nicID config = some index → P (edit index)) :
    if entriesOf nicID config = 0 then Res.val outcome = .val (false, none) ∧ sent = []
    else Res.val outcome = .val (true, none) ∧ ∃ config', sent = [config'] ∧ P config' := by
  obtain ⟨rfl, rfl⟩ := hsent
  cases hindex : nicIndex nicID config with
  | none =>
    rw [if_pos (entriesOf_eq_zero hindex)]
    exact ⟨rfl, rfl⟩
  | some index =>
    have hone := (leavesOne_of_index hnic hindex).entriesOf
    rw [if_neg (by omega)]
    exact ⟨rfl, edit index, rfl, hedit index hindex⟩

theorem join_settles (hnic : nicID ≠ unknownValue) (hip : failoverIP ≠ unknownValue) :
    JoinSettles ms nicID failoverIP := by
  intro config v tr r v' hruns
  have hjoined : joinGroup nicID failoverIP config = none →
      ∃ entry ∈ config, entry.ip = some failoverIP := by
    intro hnone
    obtain ⟨entry, hentry, haddr⟩ := joinGroup_none hnone
    exact ⟨entry, hentry, eq_some_of_deref haddr hip⟩
  refine ⟨fun hreads => ?_, fun lanID hgiven hfree => ?_⟩
  · obtain ⟨hone, hquiet⟩ := edited_of_run (join_edits nicID failoverIP) hruns hreads
    refine ⟨hone.imp fun config' hjoin => ⟨joinsOne_of_joinGroup hnic hjoin, ?_⟩, fun hr => ?_⟩
    · intro v tr r v' hruns hreads
      rcases (edited_of_run (join_edits nicID failoverIP) hruns hreads).1 with hsent | ⟨_, -, hagain⟩
      · exact hsent
      · rw [joinGroup_settled hjoin] at hagain
        exact nomatch hagain
    · obtain ⟨hsent, hnone⟩ := hquiet hr
      exact ⟨hsent, hjoined hnone⟩
  · obtain ⟨outcome, rfl, hsent, rfl⟩ := hfree.sent
      (join_sent hfree.addressable hgiven failoverIP) hruns
    rw [hsent]
    cases hjoin : joinGroup nicID failoverIP config with
    | none => exact .inr ⟨rfl, rfl, hjoined hjoin⟩
    | some config' => exact .inl ⟨rfl, config', rfl, joinsOne_of_joinGroup hnic hjoin⟩

theorem leave_one (hnic : nicID ≠ unknownValue) {config : List IPFailover} {v v' : MachineVars}
    {tr : List (Event Call Call.Ans)} {r : Res Outcome}
    (hruns : Runs (removeNICFromFailoverGroup ms nicID) v tr r v') (hreads : Reads ms config tr) :
    OneEdit (LeavesOne nicID config) (sentLists tr) := by
  refine (edited_of_run (leave_edits nicID) hruns hreads).1.imp ?_
  rintro config' ⟨index, hindex, rfl⟩
  exact leavesOne_of_index hnic hindex

/-- Every list that is sent has one entry less. -/
theorem Removals.entriesOf (hnic : nicID ≠ unknownValue) {n : Nat}
    {config config' : List IPFailover} (h : Removals ms nicID n config config') :
    entriesOf nicID config = entriesOf nicID config' + n := by
  induction h with
  | done => rfl
  | @more n config config' config'' _ _ tr _ hruns hreads hsent _ ih =>
    have hone : LeavesOne nicID config config' := by
      rcases leave_one hnic hruns hreads with hnil | ⟨list, hlist, hleaves⟩
      · rw [hsent] at hnil
        exact nomatch hnil
      · obtain rfl := List.singleton_inj.mp (hsent.symm.trans hlist)
        exact hleaves
    rw [hone.entriesOf, ih, Nat.add_assoc]

theorem leave_sends (hnic : nicID ≠ unknownValue) {lanID : String} {config : List IPFailover}
    {v v' : MachineVars} {tr : List (Event Call Call.Ans)} {r : Res Outcome}
    (hruns : Runs (removeNICFromFailoverGroup ms nicID) v tr r v')
    (hfree : Unhindered ms lanID config tr) :
    if entriesOf nicID config = 0 then r = .val (false, none) ∧ sentLists tr = []
    else r = .val (true, none) ∧
      ∃ config', sentLists tr = [config'] ∧ LeavesOne nicID config config' := by
  obtain ⟨outcome, rfl, hsent⟩ := hfree.sent (leave_sent hfree.addressable nicID) hruns
  exact sent_at_index hnic hsent fun index => leavesOne_of_index hnic

/-- From every list, as many runs as the NIC has entries send one list each. -/
theorem exists_removals (hnic : nicID ≠ unknownValue) {lanID : String}
    (haddr : Addressable ms lanID) (hnetwork : ∀ id, ms.spec.networkID = some id → id = lanID)
    (n : Nat) (config : List IPFailover) (hcount : entriesOf nicID config = n) :
    ∃ config', Removals ms nicID n config config' := by
  induction n generalizing config with
  | zero => exact ⟨config, .done⟩
  | succ n ih =>
    have hruns := runs_play (removeNICFromFailoverGroup ms nicID) default (helping ms lanID config)
    have hfree := unhindered_play haddr hnetwork config
      (removeNICFromFailoverGroup ms nicID) default
    have hsends := leave_sends hnic hruns hfree
    rw [if_neg (by omega)] at hsends
    obtain ⟨-, config', hsent, hone⟩ := hsends
    obtain ⟨config'', hremovals⟩ := ih config' (by have := hone.entriesOf; omega)
    exact ⟨config'', .more hruns hfree.reads hsent hremovals⟩

theorem leave_settles (hnic : nicID ≠ unknownValue) : LeaveSettles ms nicID where
  edit := fun _ _ _ _ _ => leave_one hnic
  sends := fun _ _ _ _ _ _ => leave_sends hnic
  stops := by
    intro n config config' hremovals
    have hcount := hremovals.entriesOf hnic
    refine ⟨by omega, fun v tr r v' hruns hreads => ⟨fun hall => ?_, fun hr => ?_⟩⟩
    · have hzero : entriesOf nicID config' = 0 := by omega
      refine ⟨hzero, ?_⟩
      rcases leave_one hnic hruns hreads with hsent | ⟨_, -, hleaves⟩
      · exact hsent
      · have := hleaves.entriesOf
        omega
    · have hzero := entriesOf_eq_zero ((edited_of_run (leave_edits nicID) hruns hreads).2 hr).2
      omega
  reaches := by
    intro lanID config haddr hnetwork
    obtain ⟨config', hremovals⟩ := exists_removals hnic haddr hnetwork _ config rfl
    have hcount := hremovals.entriesOf hnic
    exact ⟨config', hremovals, by omega⟩

theorem swap_settles : SwapEdits ms := by
  intro labels config v tr r v' hruns
  have hwithin : Within (fun c => sentBy c = none) (fun _ => ()) (getServerNICID ms) :=
    within_getServerNICID (fun _ _ => rfl) (fun _ _ => rfl) (fun _ => rfl)
  -- the lookup of the NIC sends nothing
  have hlookup : ∀ {tr₁}, Prefix (getServerNICID ms) v tr₁ → sentLists tr₁ = [] := by
    intro tr₁ hprefix
    exact List.filterMap_eq_nil_iff.mpr (hwithin.calls hprefix)
  have hsent : ∀ {tr₁ found v₁} tr₂, Runs (getServerNICID ms) v tr₁ (.val found) v₁ →
      sentLists (tr₁ ++ tr₂) = sentLists tr₂ := by
    intro tr₁ found v₁ tr₂ h₁
    rw [sentLists, List.filterMap_append, ← sentLists, hlookup ⟨_, h₁⟩]
    rfl
  unfold swapNICInFailoverGroup at hruns
  refine ⟨fun hreads => ?_, fun lanID new nicID tr₁ v₁ hfree hshown hnic htr h₁ => ?_⟩
  · rcases hruns.bind_inv with ⟨found, v₁, tr₁, tr₂, rfl, h₁, h₂⟩ | ⟨msg, -, h₁⟩
    · rw [hsent tr₂ h₁]
      match found with
      | .error e =>
        cases h₂
        exact .inl rfl
      | .ok nicID =>
        have hreads₂ : Reads ms config tr₂ := fun e he => hreads e (List.mem_append_right _ he)
        refine (edited_of_run (locked_edits (swap_edits labels nicID)) h₂ hreads₂).1.imp ?_
        rintro config' ⟨index, newNICID, hindex, rfl⟩
        exact ⟨swapNIC_ips hindex newNICID, nicID, tr₁, v₁, List.prefix_append _ _, h₁,
          fun hnic => swapsOne_of_index hnic hindex newNICID⟩
    · exact .inl (hlookup ⟨_, h₁⟩)
  · obtain ⟨tr₂, rfl⟩ := htr
    have h₂ : Runs (locked (lanLockKey ms) (fun e => (false, some e))
        (swapNICInFailoverGroupLocked ms labels nicID)) v₁ tr₂ r v' :=
      (h₁.reaches_bind _).resume hruns
    rw [hsent tr₂ h₁]
    obtain ⟨outcome, rfl, hsent⟩ := sent_of_run (swap_sent hfree.addressable new labels nicID) h₂
      (fun e he => hfree.answers e (List.mem_append_right _ he))
      fun e he => hshown e (List.mem_append_right _ he)
    exact sent_at_index hnic hsent fun index hindex =>
      ⟨swapNIC_ips hindex new.nicID, swapsOne_of_index hnic hindex new.nicID⟩

end

/-- The edits change one entry, and settle. -/
theorem group_edits_settle (ms : MachineScope) (nicID failoverIP : String)
    (hnic : nicID ≠ unknownValue) (hip : failoverIP ≠ unknownValue) :
    JoinSettles ms nicID failoverIP ∧ LeaveSettles ms nicID ∧ SwapEdits ms :=
  ⟨join_settles hnic hip, leave_settles hnic, swap_settles⟩

/-- A machine with a server and a NIC in the group, and its successor. -/
def leavingMachine : MachineScope :=
  { (default : MachineScope) with
    name := "a"
    spec := { (default : MachineSpec) with datacenterID := "dc" }
    uuidValidate := fun _ => none }

def leavingVars : MachineVars := { (default : MachineVars) with providerID := "ionos://a" }

def successor : Replacement leavingMachine where
  machine := ⟨"b", 1, "ionos://b"⟩
  nicID := "nic-b"
  server := by decide
  valid := rfl
  nic := by decide

/-- The NIC has two entries, another NIC has one. -/
def sharedList : List IPFailover :=
  [⟨some "10.0.0.1", some "nic-a"⟩, ⟨some "10.0.0.2", some "other"⟩, ⟨none, some "nic-a"⟩]

theorem leavingMachine_addressable : Addressable leavingMachine "1" :=
  ⟨by decide, by decide, by decide⟩

theorem leavingMachine_network (id : String) (h : leavingMachine.spec.networkID = some id) :
    id = "1" :=
  nomatch h

/-- Both machines and their servers are shown. -/
def succeeding : ∀ c, Call.Ans c
  | .listMachines _ _ => .ok [⟨"a", 0, "ionos://a"⟩, successor.machine]
  | .serversFindById _ id =>
    .ok ⟨some id, none, none, some [⟨some ("nic-" ++ id), some (nicName id), none, none, none⟩]⟩
  | c => helping leavingMachine "1" sharedList c

theorem helps_succeeding (c : Call) :
    Helps leavingMachine "1" sharedList c (succeeding c) ∧ successor.Shown c (succeeding c) := by
  have hhelps : Helps leavingMachine "1" sharedList c (helping leavingMachine "1" sharedList c) :=
    helps_helping leavingMachine_network c
  cases c with
  | listMachines _ _ => exact ⟨trivial, _, rfl, rfl⟩
  | serversFindById _ id =>
    refine ⟨trivial, ?_⟩
    rintro rfl
    exact ⟨_, _, rfl, rfl, rfl⟩
  | _ => exact ⟨hhelps, trivial⟩

/-- The NIC joins with another IP, both its entries are removed by two runs, and its successor takes
the first of them over. -/
theorem group_edits_settle_runs :
    (∃ tr v' config', Runs (reconcileIPFailoverGroup leavingMachine "nic-a" "10.0.0.9") leavingVars
        tr (.val (true, none)) v' ∧ sentLists tr = [config'] ∧
      JoinsOne "nic-a" "10.0.0.9" sharedList config') ∧
    (∃ config', Removals leavingMachine "nic-a" 2 sharedList config' ∧
      entriesOf "nic-a" config' = 0) ∧
    ∃ tr v' config', Runs (swapNICInFailoverGroup leavingMachine []) leavingVars tr
        (.val (true, none)) v' ∧ sentLists tr = [config'] ∧ SwapsOne "nic-a" sharedList config' := by
  obtain ⟨hjoin, hleave, hswap⟩ :=
    group_edits_settle leavingMachine "nic-a" "10.0.0.9" (by decide) (by decide)
  refine ⟨?_, hleave.reaches "1" sharedList leavingMachine_addressable leavingMachine_network, ?_⟩
  · have hruns := runs_play (reconcileIPFailoverGroup leavingMachine "nic-a" "10.0.0.9") leavingVars
      (helping leavingMachine "1" sharedList)
    have hfree := unhindered_play leavingMachine_addressable leavingMachine_network sharedList
      (reconcileIPFailoverGroup leavingMachine "nic-a" "10.0.0.9") leavingVars
    rcases (hjoin sharedList _ _ _ _ hruns).2 "1" (by decide) hfree with
      ⟨hr, config', hsent, hone⟩ | ⟨-, -, hentry⟩
    · rw [hr] at hruns
      exact ⟨_, _, config', hruns, hsent, hone⟩
    · exact absurd hentry (by decide)
  · have hruns := runs_play (swapNICInFailoverGroup leavingMachine []) leavingVars succeeding
    have hshown : ∀ e ∈ ((swapNICInFailoverGroup leavingMachine [] leavingVars).play succeeding).1,
        Helps leavingMachine "1" sharedList e.call e.answer ∧ successor.Shown e.call e.answer := by
      intro e he
      rw [Prog.answer_of_mem_play he]
      exact helps_succeeding e.call
    have hlookup := runs_play (getServerNICID leavingMachine) leavingVars succeeding
    obtain ⟨hr, config', hsent, -, hone⟩ := (hswap [] sharedList _ _ _ _ hruns).2 "1" successor
      "nic-a" ((getServerNICID leavingMachine leavingVars).play succeeding).1
      ((getServerNICID leavingMachine leavingVars).play succeeding).2.2
      ⟨leavingMachine_addressable, fun e he => (hshown e he).1⟩ (fun e he => (hshown e he).2)
      (by decide) ⟨_, rfl⟩ hlookup
    rw [hr] at hruns
    exact ⟨_, _, config', hruns, hsent, hone⟩

-- a NIC with two entries: the first one gets the IP, and the list is at rest
example : joinGroup "nic" "10.0.0.9" [⟨none, some "nic"⟩, ⟨some "10.0.0.2", some "nic"⟩] =
    some [⟨some "10.0.0.9", some "nic"⟩, ⟨some "10.0.0.2", some "nic"⟩] := by decide

end Capic.Properties
