import Capic.Controller.Frame
import Capic.Effect.Mutex
import Capic.Effect.Threads
import Capic.Properties.CreateOnce

/-!
# Keyed locks cannot deadlock

`lockSystem` is the system of any number of machine reconciles that share the keyed locks. A
key is taken by whoever finds it free, and by nobody twice; a run that asks for a key that is
not free waits, in `Lock(ctx, key)` until the context ends, in `Lock(context.Background(), key)`
for as long as it takes.

Keys are arbitrary texts, so they are not told apart by what they are for. What is needed is
little: a run that holds a key asks for another one only while it holds a LAN's key, and then
for the key of the cluster's request map. `keyRank` puts the second above the first, by how the
keys end. All other sections are entered with empty hands, and their keys may be anything.

`locks_acyclic`: no run waits, over any number of others, for itself. `lockMonitor` watches the
keys a run holds; `Steady` functions leave them as they were, also when they panic.
-/

namespace Capic.Properties

open Effect Effect.Go Cloud Controller Controller.Machine
open Function (update)

/-! ## The keys a run holds -/

/-- Keys of request maps come after all others. -/
def keyRank (key : String) : Nat :=
  if Text.hasSuffix key "/currentRequestByDatacenter" then 1 else 0

theorem keyRank_requests (cs : ClusterScope) :
    keyRank cs.currentRequestByDatacenterLockKey = 1 := by
  refine if_pos ?_
  unfold Text.hasSuffix ClusterScope.currentRequestByDatacenterLockKey
  rw [List.isSuffixOf_iff_suffix, String.toList_append]
  exact List.suffix_append ..

theorem keyRank_lan (ms : MachineScope) : keyRank (lanLockKey ms) = 0 := by
  refine if_neg fun hsuffix => ?_
  unfold Text.hasSuffix lanLockKey at hsuffix
  rw [List.isSuffixOf_iff_suffix, String.toList_append] at hsuffix
  -- the one ends with an n, the other with an r
  obtain ⟨before, hbefore⟩ := hsuffix
  have hlast := congrArg List.getLast? hbefore
  rw [List.getLast?_append, List.getLast?_append] at hlast
  have hchars : some 'r' = some 'n' := hlast
  exact absurd hchars (by decide)

/-- The keys held after a call. -/
def heldAfter (held : List String) : (c : Call) → Call.Ans c → List String
  | .lock key, .ok _ => key :: held
  | .lockBackground key, _ => key :: held
  | .unlock key, _ => held.erase key
  | _, _ => held

/-- Keys are taken in the order of their ranks. -/
def InOrder (held : List String) : Call → Prop
  | .lock key | .lockBackground key => ∀ k ∈ held, keyRank k < keyRank key
  | _ => True

/-- Watches the keys a run holds. -/
abbrev lockMonitor : Monitor Call Call.Ans :=
  ⟨List String, InOrder, fun _ _ _ => True, heldAfter, fun _ => True⟩

section

variable {α σ κ : Type} {held : List String} {ms : MachineScope}

theorem steady_lockFree {keep : σ → κ} {p : Go Call Call.Ans σ α} (hp : Within LockFree keep p) :
    p.Steady lockMonitor held := by
  refine hp.steady (M := lockMonitor) fun c hc => ?_
  cases c with
  | lock key => exact False.elim hc
  | lockBackground key => exact False.elim hc
  | unlock key => exact False.elim hc
  | _ => exact ⟨trivial, fun _ _ => rfl⟩

/-- A section that is entered with empty hands. -/
theorem steady_locked {key : String} {fail : Err → α} {body : MachineM α}
    (hbody : body.Steady lockMonitor [key]) : (locked key fail body).Steady lockMonitor [] := by
  unfold locked
  refine Ends.perform_bind (M := lockMonitor) (fun _ h => nomatch h) fun a _ => ?_
  match a with
  | .error e => exact Steady.pure (M := lockMonitor) _
  | .ok () =>
    exact Ends.deferring (M := lockMonitor) hbody trivial fun _ _ => List.erase_cons_head ..

/-- The section of the request map, entered with keys that come before it. -/
theorem steady_underRequestLock {cs : ClusterScope} {body : ClusterM α}
    (hheld : ∀ k ∈ held, keyRank k = 0)
    (hbody : ∀ held', body.Steady lockMonitor held') :
    (cs.underRequestLock body).Steady lockMonitor held := by
  unfold ClusterScope.underRequestLock
  refine Ends.perform_bind (M := lockMonitor) (fun k hk => ?_) fun a _ => ?_
  · rw [hheld k hk, keyRank_requests]
    exact Nat.zero_lt_one
  · exact Ends.deferring (M := lockMonitor) (hbody _) trivial fun _ _ => List.erase_cons_head ..

/-! ## The requests of the cluster -/

section

variable (hheld : ∀ k ∈ held, keyRank k = 0)
include hheld

theorem steady_getRequest (cs : ClusterScope) (dc : String) :
    (cs.getCurrentRequestByDatacenter dc).Steady lockMonitor held :=
  steady_underRequestLock hheld fun _ => .bind .vars fun _ => .pure _

theorem steady_setRequest (cs : ClusterScope) (dc : String) (method : Method)
    (status : RequestStatus) (path : String) :
    (cs.setCurrentRequestByDatacenter dc method status path).Steady lockMonitor held :=
  steady_underRequestLock hheld fun _ => .assign _

theorem steady_deleteRequest (cs : ClusterScope) (dc : String) :
    (cs.deleteCurrentRequestByDatacenter dc).Steady lockMonitor held :=
  steady_underRequestLock hheld fun _ => .assign _

end

theorem steady_patchCluster : ClusterScope.patchObject.Steady lockMonitor held := by
  have hpatch : Within LockFree (fun _ => ()) ClusterScope.patchObject :=
    .bind .vars fun _ => .bind (.perform trivial) fun _ => .pure _
  exact steady_lockFree hpatch

theorem steady_patchMachine : MachineScope.patchObject.Steady lockMonitor held := by
  have hpatch : Within LockFree (fun _ => ()) MachineScope.patchObject :=
    .bind .vars fun _ => .bind (.perform trivial) fun _ => .pure _
  exact steady_lockFree hpatch

/-! ## The steps -/

theorem rank_held_lan : ∀ k ∈ [lanLockKey ms], keyRank k = 0 := by
  intro k hk
  rw [List.mem_singleton.mp hk]
  exact keyRank_lan ms

theorem steady_createLAN : (createLAN ms).Steady lockMonitor [lanLockKey ms] := by
  have hpost : Within LockFree (fun _ => ())
      (Client.createLAN ms.datacenterID ⟨lanName ms.clusterScope, true, "AUTO"⟩ :
        MachineM (Except Err String)) :=
    Client.Within.withParams (.bind (.perform trivial) fun _ => .pure _)
  unfold createLAN
  refine .bind (steady_lockFree hpost) fun r => ?_
  cases r with
  | error e => exact .pure _
  | ok path =>
    refine .bind (.zoom (steady_setRequest rank_held_lan _ _ _ _ _)) fun _ =>
      .bind (.zoom steady_patchCluster) fun r => ?_
    cases r <;> exact .pure _

theorem steady_deleteLAN (lanID : String) :
    (deleteLAN ms lanID).Steady lockMonitor [lanLockKey ms] := by
  have hdelete : Within LockFree (fun _ => ())
      (Client.deleteLAN ms.datacenterID lanID : MachineM (Except Err String)) :=
    Client.Within.withParams (.bind (.perform trivial) fun _ => .pure _)
  unfold deleteLAN
  refine .bind (steady_lockFree hdelete) fun r => ?_
  cases r with
  | error e => exact .pure _
  | ok path =>
    refine .bind (.zoom (steady_setRequest rank_held_lan _ _ _ _ _)) fun _ =>
      .bind (.zoom steady_patchCluster) fun r => ?_
    cases r <;> exact .pure _

theorem steady_removeLANPendingRequest :
    (removeLANPendingRequestFromCluster ms).Steady lockMonitor [lanLockKey ms] := by
  refine .bind (.zoom (steady_deleteRequest rank_held_lan _ _)) fun _ =>
    .bind (.zoom steady_patchCluster) fun r => ?_
  cases r <;> exact .pure _

/-- The lookup both sections of the LAN begin with. -/
theorem steady_findLAN : (findResource (getLAN ms) (getLatestLANCreationRequest ms)).Steady
    lockMonitor held := by
  have hfind : Within LockFree (fun _ => ())
      (findResource (getLAN ms) (getLatestLANCreationRequest ms)) :=
    within_findResource (within_getLAN fun _ => trivial) (within_getMatchingRequest fun _ => trivial)
  exact steady_lockFree hfind

theorem steady_reconcileLAN : (reconcileLAN ms).Steady lockMonitor [] := by
  refine steady_locked (.bind steady_findLAN fun r => ?_)
  match r with
  | .error e => exact .pure _
  | .ok (lan, request) =>
    refine .ite (.pure _) ?_
    cases lan with
    | some lan => exact .pure _
    | none =>
      refine .bind steady_createLAN fun r => ?_
      cases r <;> exact .pure _

theorem steady_reconcileLANDeletion : (reconcileLANDeletion ms).Steady lockMonitor [] := by
  refine steady_locked (.bind steady_findLAN fun r => ?_)
  match r with
  | .error e => exact .pure _
  | .ok (lan, request) =>
    refine .ite (.pure _) ?_
    cases lan with
    | none =>
      refine .bind steady_removeLANPendingRequest fun r => ?_
      cases r <;> exact .pure _
    | some lan =>
      unfold reconcileFoundLANDeletion
      dsimp only
      split
      next => exact .panicking _
      next lanID _ =>
        have hasked : Within LockFree (fun _ => ()) (getLatestLANDeletionRequest ms lanID) :=
          within_getMatchingRequest fun _ => trivial
        refine .bind (steady_lockFree hasked) fun r => ?_
        cases r with
        | error e => exact .pure _
        | ok request =>
          refine .ite (.pure _) ?_
          split
          next => exact .panicking _
          next => exact .pure _
          next =>
            refine .bind (steady_deleteLAN lanID) fun r => ?_
            cases r <;> exact .pure _

theorem steady_reconcileServer : (reconcileServer ms).Steady lockMonitor held := by
  refine steady_lockFree ((within_reconcileServer unit_frame fun _ _ => rfl).mono fun c hc => ?_)
  cases c with
  | lock key => exact hc
  | lockBackground key => exact hc
  | unlock key => exact hc
  | _ => trivial

theorem steady_reconcileServerDeletion : (reconcileServerDeletion ms).Steady lockMonitor held := by
  have hdelete : Within DeletingServer (fun _ => ()) (reconcileServerDeletion ms) :=
    within_reconcileServerDeletion (fun _ _ => rfl) fun _ _ => rfl
  refine steady_lockFree (hdelete.mono fun c hc => ?_)
  exact hc.elim (fun _ _ => trivial) (fun _ => trivial) (fun _ _ => trivial)
    (fun _ _ _ => trivial) fun _ _ => trivial

theorem steady_retrieveFailoverIP :
    (retrieveFailoverIPForMachine ms).Steady lockMonitor [] := by
  have hhost : Within LockFree (fun _ => ()) ms.clusterScope.getControlPlaneEndpointIP :=
    (within_getControlPlaneEndpointIP _).mono fun _ hc => hc.elim fun _ => trivial
  unfold retrieveFailoverIPForMachine
  refine .ite (.bind (.zoom (steady_lockFree hhost)) fun r => by cases r <;> exact .pure _)
    (.ite (.pure _) (.ite ?_ (.pure _)))
  exact steady_locked
    (steady_lockFree ((within_retrieveAutoFailoverIPLocked unit_frame).mono fun _ hc => hc.2))

theorem steady_reconcileIPFailover : (reconcileIPFailover ms).Steady lockMonitor [] := by
  unfold reconcileIPFailover
  refine .ite (.pure _) (.bind steady_retrieveFailoverIP fun r => ?_)
  split
  next ip =>
    have hnic : Within _ _ (reconcileNICConfig ms ip) := within_reconcileNICConfig unit_frame ip
    refine .bind (steady_lockFree (hnic.mono fun _ hc => hc.2)) fun r => ?_
    cases r with
    | error e => exact .pure _
    | ok nic =>
      refine .ite (.pure _) (steady_locked (steady_lockFree
        ((within_reconcileIPFailoverGroupLocked unit_frame _ ip).mono fun _ hc => hc.2)))
  next => exact .pure _

theorem steady_getServerNICID : (getServerNICID ms).Steady lockMonitor held := by
  have hnic : Within LockFree (fun _ => ()) (getServerNICID ms) :=
    within_getServerNICID (fun _ _ => rfl) (fun _ _ => trivial) fun _ => trivial
  exact steady_lockFree hnic

theorem steady_reconcileIPFailoverDeletion :
    (reconcileIPFailoverDeletion ms).Steady lockMonitor [] := by
  have hcount : Within LockFree (fun _ => ()) (ms.countMachines (failoverMatchLabels ms)) :=
    .bind (.perform trivial) fun _ => .pure _
  unfold reconcileIPFailoverDeletion
  refine .ite (.pure _) (.bind (steady_lockFree hcount) fun r => ?_)
  match r with
  | .error e => exact .pure _
  | .ok 0 => exact .pure _
  | .ok 1 =>
    refine .bind steady_getServerNICID fun r => ?_
    cases r with
    | error e => exact .pure _
    | ok nicID =>
      have hremove : Within _ (fun _ => ()) (removeNICFromFailoverGroupLocked ms nicID) :=
        within_removeNICFromFailoverGroupLocked (fun _ _ => rfl) nicID
      exact .ite (.pure _) (steady_locked (steady_lockFree (hremove.mono fun _ hc => hc.2)))
  | .ok (_ + 2) =>
    refine .bind steady_getServerNICID fun r => ?_
    cases r with
    | error e => exact .pure _
    | ok nicID =>
      have hswap : Within _ (fun _ => ())
          (swapNICInFailoverGroupLocked ms (failoverMatchLabels ms) nicID) :=
        within_swapNICInFailoverGroupLocked (fun _ _ => rfl) _ nicID
      exact steady_locked (steady_lockFree (hswap.mono fun _ hc => hc.2))

theorem steady_reconcileFailoverIPBlockDeletion :
    (reconcileFailoverIPBlockDeletion ms).Steady lockMonitor [] := by
  unfold reconcileFailoverIPBlockDeletion
  exact .ite (.pure _) (steady_locked (steady_lockFree
    ((within_reconcileFailoverIPBlockDeletionLocked unit_frame).mono fun _ hc => hc.2)))

theorem steady_reconcileIPAddresses : (K8s.reconcileIPAddresses ms).Steady lockMonitor held := by
  have hclaims : Within K8s.ReconcilingClaims (fun _ => ()) (K8s.reconcileIPAddresses ms) :=
    K8s.within_reconcileIPAddresses fun _ _ => rfl
  refine steady_lockFree (hclaims.mono fun c hc => ?_)
  cases c with
  | lock key => exact hc
  | lockBackground key => exact hc
  | unlock key => exact hc
  | _ => trivial

theorem steady_reconcileIPAddressClaimsDeletion :
    (K8s.reconcileIPAddressClaimsDeletion ms).Steady lockMonitor held := by
  have hclaims : Within K8s.ReleasingClaims (fun _ => ())
      (K8s.reconcileIPAddressClaimsDeletion ms) := K8s.within_reconcileIPAddressClaimsDeletion
  refine steady_lockFree (hclaims.mono fun c hc => ?_)
  cases c with
  | lock key => exact hc
  | lockBackground key => exact hc
  | unlock key => exact hc
  | _ => trivial

/-! ## The runs -/

theorem steady_requestStatus (url : String) :
    (getRequestStatus url : MachineM _).Steady lockMonitor held := by
  have hstatus : Within LockFree (fun _ => ()) (getRequestStatus url : MachineM _) :=
    within_getRequestStatus (fun _ => trivial) url
  exact steady_lockFree hstatus

theorem steady_withStatus {status : RequestStatus} {callback : MachineM (Option Err)}
    (h : callback.Steady lockMonitor held) : (withStatus status callback).Steady lockMonitor held := by
  unfold withStatus
  split
  · exact .pure _
  · exact .pure _
  · exact .bind h fun _ => .pure _
  · exact .bind h fun _ => .pure _
  · exact .pure _

theorem steady_checkRequestStates : (checkRequestStates ms).Steady lockMonitor [] := by
  have hempty : ∀ k ∈ ([] : List String), keyRank k = 0 := fun _ h => nomatch h
  have hdatacenter : (checkDatacenterRequest ms).Steady lockMonitor [] := by
    refine .bind (.zoom (steady_getRequest hempty _ _)) fun r => ?_
    cases r with
    | none => exact .pure _
    | some req =>
      refine .bind (steady_requestStatus _) fun r => ?_
      match r with
      | .error e => exact .pure _
      | .ok (status, _) =>
        exact steady_withStatus (.bind (.zoom (steady_deleteRequest hempty _ _)) fun _ =>
          .zoom steady_patchCluster)
  refine .bind hdatacenter fun r => .bind .vars fun v => ?_
  split
  next => exact .pure _
  next req _ =>
    refine .bind (steady_requestStatus _) fun r => ?_
    match r with
    | .error e => exact .pure _
    | .ok (status, _) =>
      refine .bind (steady_withStatus (.bind (.assign _) fun _ => .pure _)) fun _ => ?_
      exact .ite (.bind steady_patchMachine fun _ => .pure _) (.pure _)

theorem steady_reconcileNormal : (reconcileNormal ms).Steady lockMonitor [] := by
  have hcondition : ∀ err, (setProvisioningCondition ms err).Steady lockMonitor [] := by
    intro err
    have hset : Within LockFree (fun _ => ()) (setProvisioningCondition ms err) :=
      within_setProvisioningCondition (fun _ _ => rfl) err
    exact steady_lockFree hset
  have hready : Within LockFree (fun _ => ()) (isInfrastructureReady ms) :=
    within_isInfrastructureReady fun _ _ => rfl
  have hfinalized : (reconcileFinalized ms).Steady lockMonitor [] := by
    refine .bind steady_checkRequestStates fun r => ?_
    match r with
    | (true, _) => exact .pure _
    | (false, _) =>
      refine .bind (hcondition none) fun _ =>
        .bind (steady_runSteps (fun e => hcondition (some e)) fun step hstep => ?_) fun r => ?_
      · simp only [normalSequence, List.mem_cons, List.not_mem_nil, or_false] at hstep
        rcases hstep with rfl | rfl | rfl | rfl | rfl
        · exact steady_reconcileLAN
        · exact steady_reconcileIPAddresses
        · exact steady_reconcileServer
        · exact steady_reconcileIPFailover
        · exact .bind (.assign _) fun _ => .pure _
      · cases r <;> exact .pure _
  refine .bind (steady_lockFree hready) fun ready => .ite (.pure _) (.bind .vars fun v => ?_)
  split
  next => exact hfinalized
  next =>
    refine .bind (.assign _) fun _ => .bind steady_patchMachine fun r => ?_
    cases r with
    | some e => exact .pure _
    | none => exact hfinalized

theorem steady_reconcileDelete : (reconcileDelete ms).Steady lockMonitor [] := by
  refine .bind steady_checkRequestStates fun r => ?_
  match r with
  | (true, _) => exact .pure _
  | (false, _) =>
    refine .bind (steady_runSteps (fun _ => .pure _) fun step hstep => ?_) fun r => ?_
    · simp only [deleteSequence, List.mem_cons, List.not_mem_nil, or_false] at hstep
      rcases hstep with rfl | rfl | rfl | rfl | rfl
      · exact steady_reconcileIPFailoverDeletion
      · exact steady_reconcileServerDeletion
      · exact steady_reconcileLANDeletion
      · exact steady_reconcileFailoverIPBlockDeletion
      · exact steady_reconcileIPAddressClaimsDeletion
    · cases r with
      | some outcome => exact .pure _
      | none => exact .bind (.assign _) fun _ => .pure _

/-- A run takes keys in the order of their ranks, and keeps none. -/
theorem steady_reconcile : (reconcile ms).Steady lockMonitor [] := by
  have hservice : Within LockFree (fun _ => ())
      (createServiceFromCluster ms.clusterScope : MachineM _) :=
    within_createServiceFromCluster (fun _ _ => trivial) (fun _ => trivial) _
  refine steady_withFinalize (steady_retryOnError steady_patchMachine _)
    (.bind (steady_lockFree hservice) fun r => ?_)
  cases r with
  | some e => exact .ite (.pure _) (.pure _)
  | none => exact .ite steady_reconcileDelete steady_reconcileNormal

end

/-! ## The system -/

/-- What the locks do. -/
def Locks {T : Type} [DecidableEq T] (t : T) (w : Owners T String) :
    (c : Call) → Call.Ans c → Owners T String → Prop
  | .lock key, .ok _, w' => w key = none ∧ w' = w.acquire t key
  | .lockBackground key, _, w' => w key = none ∧ w' = w.acquire t key
  | .unlock key, _, w' => w' = w.unlock t key
  | _, _, w' => w' = w

/-- The reconciles of machines, each of any cluster, data center and deployment. The locks
do not survive the process. -/
@[reducible] def lockSystem (T : Type) [DecidableEq T] : System T Call Call.Ans where
  World := Owners T String
  Phase := List String
  idle := []
  next := heldAfter
  exec t _ := Locks t
  env _ _ := False
  crash _ w' := w' = fun _ => none
  job _ q p := q = [] ∧ ∃ ms s, p = (reconcile ms s).forget

/-- The run is in `Lock` for the key. -/
def Waits {T : Type} [DecidableEq T] (s : (lockSystem T).Conf) (t : T) (key : String) : Prop :=
  (s.prog t).next? = some (.lock key) ∨ (s.prog t).next? = some (.lockBackground key)

/-- What is owned is held. -/
def HoldsOwned {T : Type} (w : Owners T String) (held : T → List String) : Prop :=
  ∀ key t, w key = some t → key ∈ held t

section

variable {T : Type} [DecidableEq T] {w w' : Owners T String} {held : T → List String} {t : T}

theorem HoldsOwned.acquire (h : HoldsOwned w held) (key : String) :
    HoldsOwned (w.acquire t key) (update held t (key :: held t)) := by
  intro key' u howner
  by_cases hkey : key' = key
  · subst hkey
    rw [Owners.acquire_self] at howner
    obtain rfl := Option.some.inj howner
    rw [Function.update_self]
    exact List.mem_cons_self
  · rw [Owners.acquire_of_ne hkey] at howner
    by_cases hu : u = t
    · subst hu
      rw [Function.update_self]
      exact List.mem_cons_of_mem _ (h key' u howner)
    · rw [Function.update_of_ne hu]
      exact h key' u howner

theorem HoldsOwned.unlock (h : HoldsOwned w held) (key : String) :
    HoldsOwned (w.unlock t key) (update held t ((held t).erase key)) := by
  intro key' u howner
  unfold Owners.unlock at howner
  have hne : u = t → key' ≠ key := by
    rintro rfl rfl
    split at howner
    next => cases (Owners.release_self w key').symm.trans howner
    next hother => exact hother howner
  have hbefore : w key' = some u := by
    split at howner
    next =>
      by_cases hkey : key' = key
      · rw [hkey, Owners.release_self] at howner
        cases howner
      · rwa [Owners.release_of_ne hkey] at howner
    next => exact howner
  by_cases hu : u = t
  · subst hu
    rw [Function.update_self]
    exact (List.mem_erase_of_ne (hne rfl)).mpr (h key' u hbefore)
  · rw [Function.update_of_ne hu]
    exact h key' u hbefore

/-- A call of a run. -/
theorem HoldsOwned.call {c : Call} {a : Call.Ans c} (h : HoldsOwned w held)
    (hexec : Locks t w c a w') : HoldsOwned w' (update held t (heldAfter (held t) c a)) := by
  -- nothing happens to the locks
  have hquiet : w' = w → heldAfter (held t) c a = held t →
      HoldsOwned w' (update held t (heldAfter (held t) c a)) := by
    intro hw hheld
    rw [hw, hheld, Function.update_eq_self]
    exact h
  cases c with
  | lock key =>
    match a with
    | .ok () =>
      rw [show w' = w.acquire t key from hexec.2]
      exact h.acquire key
    | .error e => exact hquiet hexec rfl
  | lockBackground key =>
    rw [show w' = w.acquire t key from hexec.2]
    exact h.acquire key
  | unlock key =>
    rw [show w' = w.unlock t key from hexec]
    exact h.unlock key
  | _ => exact hquiet hexec rfl

variable (T) in
/-- The discipline of the runs: they take keys in order and keep none. -/
def lockDiscipline : (lockSystem T).Discipline where
  ok := InOrder
  adm _ _ _ := True
  fin q := q = []

theorem lock_sound : (lockSystem T).Sound (fun _ _ _ => True) (lockDiscipline T) HoldsOwned where
  answers _ _ _ := trivial
  jobs := by
    rintro t q p ⟨rfl, ms, s, rfl⟩
    exact steady_reconcile.forget s
  idle := rfl
  call h _ hexec _ := h.call hexec
  start := by
    rintro w held t q p h hfin ⟨rfl, -⟩
    have hsame : update held t [] = held := by
      rw [← show held t = [] from hfin, Function.update_eq_self]
    rw [hsame]
    exact h
  env _ henv := False.elim henv
  crash := by
    rintro w w' held - rfl key t howner
    exact nomatch howner

end

/-- No run waits, over any number of others, for itself. -/
theorem locks_acyclic (T : Type) [DecidableEq T] (s : (lockSystem T).Conf)
    (hs : (lockSystem T).Reach (fun _ _ _ => True) (fun _ => none) s) (t : T) :
    ¬ Relation.TransGen (fun t u => ∃ key, Waits s t key ∧ s.world key = some u) t t := by
  have hinit : HoldsOwned (fun _ : String => (none : Option T)) fun _ => [] :=
    fun _ _ howner => nomatch howner
  have hholds := (lock_sound.reach hinit hs).1
  refine Owners.no_cycle keyRank (fun u key hwaits key' howner => ?_) t
  -- what is about to be taken comes after all that is held
  have horder : ∀ c, (s.prog u).next? = some c → InOrder (s.phase u) c := by
    intro c hc
    cases hprog : s.prog u with
    | ret a =>
      rw [hprog] at hc
      exact nomatch hc
    | call c' k =>
      rw [hprog] at hc
      obtain rfl := Option.some.inj hc
      exact lock_sound.call_ok hinit hs hprog
  rcases hwaits with hlock | hlock
  · exact horder _ hlock key' (hholds key' u howner)
  · exact horder _ hlock key' (hholds key' u howner)

/-- The answers of a run that finds its credentials. -/
def heldAnswers : ∀ c : Call, Call.Ans c
  | .getCredentials _ _ => .ok ⟨"", "", 0, [], [], "token", ""⟩
  | c => Call.plain c

/-- One run is in the section of the request map, the other one waits for it. -/
theorem locks_acyclic_run : ∃ s, (lockSystem Bool).Reach (fun _ _ _ => True) (fun _ => none) s ∧
    Waits s false "/currentRequestByDatacenter" ∧
      s.world "/currentRequestByDatacenter" = some true ∧
      ¬ Relation.TransGen (fun t u => ∃ key, Waits s t key ∧ s.world key = some u) false false := by
  let ms : MachineScope := { plainMachine with deleted := true }
  have hjob : (lockSystem Bool).job true [] (reconcile ms default).forget := ⟨rfl, ms, _, rfl⟩
  have h₀ : (lockSystem Bool).Reach (fun _ _ _ => True) (fun _ => none) _ := .init
  have h₁ := h₀.start true rfl hjob trivial
  have h₂ := h₁.again heldAnswers rfl rfl trivial
  have h₃ := h₂.again heldAnswers rfl rfl trivial
  have h₄ := h₃.again heldAnswers rfl ⟨rfl, rfl⟩ trivial
  have h₅ := h₄.start false rfl hjob trivial
  have h₆ := h₅.again heldAnswers rfl rfl trivial
  have h₇ := h₆.again heldAnswers rfl rfl trivial
  exact ⟨_, h₇, .inr rfl, rfl, locks_acyclic Bool _ h₇ false⟩

end Capic.Properties
