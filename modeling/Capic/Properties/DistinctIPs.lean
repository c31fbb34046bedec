import Capic.Properties.GroupUpdates

/-!
# One entry per failover IP

The entries of a LAN's failover group should have different IPs. The three operations
that write the list compute what they write from the list they read, one after the
other under the LAN's lock, so it is enough to follow the list from operation to
operation: `Completes op list list'` says that a run of the modelled operation `op`,
answered by a LAN that shows `list`, leaves `list'`.

Swapping a NIC keeps all IPs, leaving the group drops one. Joining it is the
interesting case: the scan stops at the machine's own entry and rewrites its IP, without
a look at the entries behind it. `Overtakes` is the case that goes wrong: one of those has
the IP already. `distinct_ips` says that the IPs stay distinct along every sequence of
operations none of which overtakes, and that an operation that overtakes and writes
breaks it; `distinct_ips_broken` is one that does.

Mirroring note. An IP that is missing (nil) is no IP: two entries without one do not
clash.
-/

namespace Capic.Properties

open Effect Effect.Go Cloud

/-- The IPs of the entries. -/
def entryIPs (list : List IPFailover) : List String := list.filterMap (·.ip)

/-- No two entries have the same IP. -/
def DistinctIPs (list : List IPFailover) : Prop := (entryIPs list).Nodup

instance (list : List IPFailover) : Decidable (DistinctIPs list) := by
  unfold DistinctIPs
  infer_instance

theorem mem_entryIPs {list : List IPFailover} {ip : String} :
    ip ∈ entryIPs list ↔ ∃ entry ∈ list, entry.ip = some ip :=
  List.mem_filterMap

/-! ## The edits -/

/-- A list is split at its first element with a property in one way only. -/
theorem first_unique {α : Type} {p : α → Prop} {before before' after after' : List α} {e e' : α}
    (h : before ++ e :: after = before' ++ e' :: after') (hb : ∀ x ∈ before, ¬ p x)
    (hb' : ∀ x ∈ before', ¬ p x) (he : p e) (he' : p e') :
    before = before' ∧ e = e' ∧ after = after' := by
  induction before generalizing before' with
  | nil =>
    cases before' with
    | nil => exact ⟨rfl, (List.cons.inj h).1, (List.cons.inj h).2⟩
    | cons x xs =>
      obtain ⟨rfl, _⟩ := List.cons.inj h
      exact absurd he (hb' e (List.mem_cons_self ..))
  | cons x xs ih =>
    cases before' with
    | nil =>
      obtain ⟨rfl, _⟩ := List.cons.inj h
      exact absurd he' (hb x (List.mem_cons_self ..))
    | cons y ys =>
      obtain ⟨rfl, hrest⟩ := List.cons.inj h
      obtain ⟨rfl, hmore⟩ := ih hrest (fun z hz => hb z (List.mem_cons_of_mem _ hz))
        fun z hz => hb' z (List.mem_cons_of_mem _ hz)
      exact ⟨rfl, hmore⟩

section

variable {nicID failoverIP : String} {list list' : List IPFailover}

/-- The own entry comes first and has another IP, and an entry behind it has the IP. -/
def OvertakesJoin (nicID failoverIP : String) (list : List IPFailover) : Prop :=
  ∃ before entry after, list = before ++ entry :: after ∧
    (∀ e ∈ before, IPFailover.nic e ≠ nicID ∧ IPFailover.addr e ≠ failoverIP) ∧
    IPFailover.nic entry = nicID ∧ IPFailover.addr entry ≠ failoverIP ∧
    ∃ e ∈ after, e.ip = some failoverIP

/-- An entry that is compared with another IP has another IP. -/
theorem ip_ne_of_addr_ne {entry : IPFailover} (h : IPFailover.addr entry ≠ failoverIP) :
    entry.ip ≠ some failoverIP := by
  intro hip
  apply h
  unfold IPFailover.addr
  rw [hip]
  rfl

/-- Rewriting an entry's IP keeps the IPs distinct unless another entry has it. -/
theorem distinct_rewrite {before after : List IPFailover} {entry : IPFailover}
    (hd : DistinctIPs (before ++ entry :: after)) :
    DistinctIPs (before ++ { entry with ip := some failoverIP } :: after) ↔
      ∀ e ∈ before ++ after, e.ip ≠ some failoverIP := by
  have hrest : DistinctIPs (before ++ after) := by
    refine List.Nodup.sublist (List.Sublist.filterMap _ ?_) hd
    exact List.Sublist.append (List.Sublist.refl _) (List.sublist_cons_self ..)
  have hperm : (entryIPs (before ++ { entry with ip := some failoverIP } :: after)).Perm
      (failoverIP :: entryIPs (before ++ after)) := by
    unfold entryIPs
    exact (List.perm_middle.filterMap _)
  unfold DistinctIPs
  rw [hperm.nodup_iff, List.nodup_cons]
  constructor
  · intro h e he hip
    exact h.1 (mem_entryIPs.mpr ⟨e, he, hip⟩)
  · intro h
    refine ⟨fun hmem => ?_, hrest⟩
    obtain ⟨e, he, hip⟩ := mem_entryIPs.mp hmem
    exact h e he hip

/-- Joining the group keeps the IPs distinct exactly if it does not overtake. -/
theorem distinct_join (hd : DistinctIPs list)
    (h : joinGroup nicID failoverIP list = some list') :
    DistinctIPs list' ↔ ¬ OvertakesJoin nicID failoverIP list := by
  obtain ⟨before, hbefore, ⟨rfl, rfl⟩ | ⟨entry, after, rfl, hnic, haddr, rfl⟩⟩ := joinGroup_some h
  · -- the new entry is the only one with the IP
    constructor
    · intro _ hover
      obtain ⟨_, entry, _, rfl, _, hnic, _⟩ := hover
      exact (hbefore entry (by simp)).1 hnic
    · intro _
      unfold DistinctIPs entryIPs
      rw [List.filterMap_append, List.nodup_append]
      refine ⟨hd, by simp, ?_⟩
      intro ip hip ip' hip'
      obtain ⟨e, he, heip⟩ := mem_entryIPs.mp hip
      obtain rfl : ip' = failoverIP := by simpa using hip'
      intro heq
      exact ip_ne_of_addr_ne (hbefore e he).2 (heq ▸ heip)
  · rw [distinct_rewrite hd]
    constructor
    · intro hno hover
      obtain ⟨before', entry', after', heq, hbefore', hnic', _, e, he, hip⟩ := hover
      -- both splits are at the first entry of the NIC
      obtain ⟨rfl, rfl, rfl⟩ := first_unique (p := (IPFailover.nic · = nicID)) heq
        (fun e he => (hbefore e he).1) (fun e he => (hbefore' e he).1) hnic hnic'
      exact hno e (List.mem_append_right _ he) hip
    · intro hover e he hip
      rcases List.mem_append.mp he with he | he
      · exact ip_ne_of_addr_ne (hbefore e he).2 hip
      · exact hover ⟨before, entry, after, rfl, hbefore, hnic, haddr, e, he, hip⟩

/-- Leaving the group drops an entry. -/
theorem distinct_leave (hd : DistinctIPs list) (index : Nat) :
    DistinctIPs (leaveGroup index list) :=
  List.Nodup.sublist ((List.eraseIdx_sublist ..).filterMap _) hd

/-- Swapping the NIC of an entry keeps all IPs. -/
theorem entryIPs_swapNIC (index : Nat) (newNICID : String) :
    entryIPs (swapNIC index newNICID list) = entryIPs list := by
  unfold swapNIC entryIPs
  induction list generalizing index with
  | nil => cases index <;> rfl
  | cons entry entries ih =>
    cases index with
    | zero => rfl
    | succ index =>
      rw [List.modify_succ_cons, List.filterMap_cons, List.filterMap_cons, ih]

end

/-! ## The operations -/

/-- The operations on the group, with what they are called with. -/
inductive GroupOp where
  | join (ms : MachineScope) (nicID failoverIP : String)
  | swap (ms : MachineScope) (matchLabels : List (String × String))
  | leave (ms : MachineScope) (nicID : String)

namespace GroupOp

/-- The machine that runs it. -/
def scope : GroupOp → MachineScope
  | join ms _ _ | swap ms _ | leave ms _ => ms

/-- The code of the operation. -/
def prog : GroupOp → MachineM Outcome
  | join ms nicID failoverIP => reconcileIPFailoverGroup ms nicID failoverIP
  | swap ms matchLabels => swapNICInFailoverGroup ms matchLabels
  | leave ms nicID => removeNICFromFailoverGroup ms nicID

/-- The operation rewrites its own entry in front of one that has the IP already. -/
def Overtakes : GroupOp → List IPFailover → Prop
  | join _ nicID failoverIP, list => nicID ≠ "" ∧ OvertakesJoin nicID failoverIP list
  | _, _ => False

/-- What the operation may write. -/
def Writes : GroupOp → List IPFailover → List IPFailover → Prop
  | join _ nicID failoverIP, list, list' =>
    nicID ≠ "" ∧ joinGroup nicID failoverIP list = some list'
  | swap _ _, list, list' => ∃ index newNICID, list' = swapNIC index newNICID list
  | leave _ _, list, list' => ∃ index, list' = leaveGroup index list

/-- What is written has distinct IPs exactly if the operation does not overtake. -/
theorem Writes.distinct {op : GroupOp} {list list' : List IPFailover} (h : op.Writes list list')
    (hd : DistinctIPs list) : DistinctIPs list' ↔ ¬ op.Overtakes list := by
  cases op with
  | join ms nicID failoverIP =>
    obtain ⟨hnic, hjoin⟩ := h
    rw [distinct_join hd hjoin]
    constructor
    · intro hno hover
      exact hno hover.2
    · intro hno hover
      exact hno ⟨hnic, hover⟩
  | swap ms matchLabels =>
    obtain ⟨index, newNICID, rfl⟩ := h
    unfold DistinctIPs
    rw [entryIPs_swapNIC]
    exact ⟨fun _ hover => hover, fun _ => hd⟩
  | leave ms nicID =>
    obtain ⟨index, rfl⟩ := h
    exact ⟨fun _ hover => hover, fun _ => distinct_leave hd index⟩

end GroupOp

/-! ## Runs against the LAN -/

/-- An accepted PATCH of the LAN replaces the list. -/
def writtenList (ms : MachineScope) (lanID : String) (list : List IPFailover) :
    (c : Call) → Call.Ans c → List IPFailover
  | .lansPatch dc id body, .ok _ => if dc = ms.datacenterID ∧ id = lanID then body else list
  | _, _ => list

/-- The machine's LAN exists and is shown with its list. -/
def ShowsList (ms : MachineScope) (lanID : String) (list : List IPFailover) :
    (c : Call) → Call.Ans c → Prop
  | .lansGet _, .ok (some lans) =>
    ∀ found, findLAN ms.spec.networkID (lanName ms.clusterScope) 0 none lans = .ok found →
      ∃ lan, found = some lan ∧ lan.id = some lanID ∧ deref lan.ipFailover [] = list
  | _, _ => True

/-- The list of the LAN, as the calls of a run leave it. -/
abbrev lanMonitor (ms : MachineScope) (lanID : String) : Monitor Call Call.Ans where
  Phase := List IPFailover
  ok _ _ := True
  adm := ShowsList ms lanID
  next := writtenList ms lanID
  panic _ := True

/-- A run of the operation that found the list and left the other. -/
def Completes (lanID : String) (op : GroupOp) (list list' : List IPFailover) : Prop :=
  ∃ s tr outcome s', Runs op.prog s tr (.val outcome) s' ∧
    (lanMonitor op.scope lanID).Admits list tr ∧
    (lanMonitor op.scope lanID).after list tr = list'

/-- Operations one after the other, each with the list it left. -/
inductive Sequence (lanID : String) : List IPFailover → List (GroupOp × List IPFailover) → Prop
  | nil (list : List IPFailover) : Sequence lanID list []
  | cons {op : GroupOp} {list list' : List IPFailover} {rest : List (GroupOp × List IPFailover)} :
      Completes lanID op list list' → Sequence lanID list' rest →
      Sequence lanID list ((op, list') :: rest)

/-- No operation overtakes on the list it finds. -/
def NoneOvertakes : List IPFailover → List (GroupOp × List IPFailover) → Prop
  | _, [] => True
  | list, (op, list') :: rest => ¬ op.Overtakes list ∧ NoneOvertakes list' rest

section

variable {ms : MachineScope} {lanID : String} {list : List IPFailover} {s : MachineVars}

theorem list_config :
    (retrieveLANFailoverConfig ms).wp (lanMonitor ms lanID)
      (fun q r _ => q = list ∧ ∀ lan config, r = .ok (lan, config) →
        lan.id = some lanID ∧ config = list) list s := by
  refine wp_retrieveLANFailoverConfig (· = list) rfl (fun _ _ => rfl) ?_ ?_ (fun _ _ => trivial)
    trivial (fun _ _ => trivial) ?_
  · intro q' url a hq'
    exact hq'
  · intro q' outcome hq' _
    exact ⟨hq', fun _ _ h => nomatch h⟩
  · intro lans found hlans hfound url _ a ri _ _ _
    obtain ⟨lan, rfl, hid, hlist⟩ := hlans found hfound
    refine ⟨rfl, fun lan' config h => ?_⟩
    obtain ⟨rfl, rfl⟩ := Prod.mk.inj (Except.ok.inj h)
    exact ⟨hid, hlist⟩

/-- A PATCH is accepted or not. -/
theorem writtenList_patch (id : String) (config : List IPFailover) (a : Except Err String) :
    writtenList ms lanID list (.lansPatch ms.datacenterID id config) a = list ∨
      writtenList ms lanID list (.lansPatch ms.datacenterID id config) a = config := by
  cases a with
  | error e => exact .inl rfl
  | ok location =>
    show (if ms.datacenterID = ms.datacenterID ∧ id = lanID then config else list) = list ∨
      (if ms.datacenterID = ms.datacenterID ∧ id = lanID then config else list) = config
    split
    · exact .inr rfl
    · exact .inl rfl

theorem list_patch (id : String) (config : List IPFailover) :
    (patchLAN ms id config).wp (lanMonitor ms lanID) (fun q _ _ => q = list ∨ q = config)
      list s := by
  refine wp_patchLAN trivial (fun _ => .inl rfl) ?_ ?_
  · intro a _ _ _
    exact writtenList_patch id config a
  · intro location q' _ _ hq'
    refine ⟨trivial, fun a _ r s' => ?_⟩
    rw [hq']
    exact writtenList_patch id config (.ok location)

/-- The lock does not touch the list. -/
theorem list_locked {key : String} {body : MachineM Outcome} {P : List IPFailover → Prop}
    (h : P list) (hbody : body.wp (lanMonitor ms lanID) (fun q _ _ => P q) list s) :
    (locked key (fun e => (false, some e)) body).wp (lanMonitor ms lanID)
      (fun q _ _ => P q) list s :=
  wp_locked trivial (fun _ _ => ⟨trivial, fun _ => trivial⟩) (fun _ _ => h)
    fun _ => wp_mono hbody fun _ _ _ hq => ⟨trivial, fun _ => hq⟩

/-- An operation ends there, or goes on with the list it read. -/
theorem list_read {k : Except Outcome (Lan × List IPFailover) → MachineM Outcome}
    {Q : List IPFailover → Outcome → MachineVars → Prop}
    (hfail : ∀ outcome s', (k (.error outcome)).wp (lanMonitor ms lanID) Q list s')
    (hread : ∀ lan s', lan.id = some lanID →
      (k (.ok (lan, list))).wp (lanMonitor ms lanID) Q list s') :
    (retrieveLANFailoverConfig ms >>= k).wp (lanMonitor ms lanID) Q list s := by
  refine (wp_bind _ _).mpr (wp_mono list_config fun q r s' hr => ?_)
  obtain ⟨rfl, hconfig⟩ := hr
  match r with
  | .error outcome => exact hfail outcome s'
  | .ok (lan, config) =>
    obtain ⟨hid, rfl⟩ := hconfig lan config rfl
    exact hread lan s' hid

theorem list_join (nicID failoverIP : String) :
    (reconcileIPFailoverGroup ms nicID failoverIP).wp (lanMonitor ms lanID)
      (fun q _ _ => q = list ∨ (GroupOp.join ms nicID failoverIP).Writes list q) list s := by
  unfold reconcileIPFailoverGroup
  rw [wp_ite]
  split
  next => exact (wp_pure _).mpr (.inl rfl)
  next hnic =>
    unfold reconcileIPFailoverGroupLocked
    refine list_locked (.inl rfl) (list_read (fun _ _ => (wp_pure _).mpr (.inl rfl)) ?_)
    intro lan s' _
    dsimp only
    split
    next => exact (wp_pure _).mpr (.inl rfl)
    next config hjoin =>
      refine (wp_bind _ _).mpr (wp_mono (list_patch _ _) fun q _ _ hq => (wp_pure _).mpr ?_)
      rcases hq with rfl | rfl
      · exact .inl rfl
      · exact .inr ⟨hnic, hjoin⟩

theorem list_leave (nicID : String) :
    (removeNICFromFailoverGroup ms nicID).wp (lanMonitor ms lanID)
      (fun q _ _ => q = list ∨ (GroupOp.leave ms nicID).Writes list q) list s := by
  unfold removeNICFromFailoverGroup removeNICFromFailoverGroupLocked
  refine list_locked (.inl rfl) (list_read (fun _ _ => (wp_pure _).mpr (.inl rfl)) ?_)
  intro lan s' hid
  dsimp only
  rw [hid]
  dsimp only
  split
  next => exact (wp_pure _).mpr (.inl rfl)
  next index _ =>
    refine (wp_bind _ _).mpr (wp_mono (list_patch _ _) fun q _ _ hq => (wp_pure _).mpr ?_)
    exact hq.imp_right fun hq => ⟨index, hq⟩

theorem list_swapForLatest (matchLabels : List (String × String)) (lan : Lan) (index : Nat) :
    (swapForLatest ms matchLabels lan list index).wp (lanMonitor ms lanID)
      (fun q _ _ => q = list ∨ (GroupOp.swap ms matchLabels).Writes list q) list s := by
  unfold swapForLatest MachineScope.findLatestMachine ClusterScope.listMachines
  rw [wp_bind, wp_bind, wp_perform]
  refine ⟨trivial, fun a _ => (wp_pure _).mpr ?_⟩
  split
  next => exact (wp_pure _).mpr (.inl rfl)
  next => exact (wp_pure _).mpr (.inl rfl)
  next machine _ =>
    rw [wp_bind]
    refine wp_getServerByServerID (fun _ => (wp_pure _).mpr (.inl rfl))
      (fun _ _ => (wp_pure _).mpr (.inl rfl)) trivial (fun _ _ _ _ => (wp_pure _).mpr (.inl rfl)) ?_
    intro _ server _
    dsimp only
    split
    next => exact (wp_pure _).mpr (.inl rfl)
    next nic _ =>
      rw [wp_ite]
      split
      next => exact (wp_pure _).mpr (.inl rfl)
      next =>
        refine (wp_bind _ _).mpr (wp_mono (list_patch _ _) fun q _ _ hq => (wp_pure _).mpr ?_)
        exact hq.imp_right fun hq => ⟨index, _, hq⟩

theorem list_swap (matchLabels : List (String × String)) :
    (swapNICInFailoverGroup ms matchLabels).wp (lanMonitor ms lanID)
      (fun q _ _ => q = list ∨ (GroupOp.swap ms matchLabels).Writes list q) list s := by
  unfold swapNICInFailoverGroup
  have hquiet : ∀ c, LookingUp c → (lanMonitor ms lanID).ok list c ∧
      ∀ a, (lanMonitor ms lanID).adm list c a → (lanMonitor ms lanID).next list c a = list := by
    intro c hc
    refine hc.elim (P := fun c => True ∧ ∀ a, ShowsList ms lanID list c a →
      writtenList ms lanID list c a = list) ?_ ?_
    · intro dc id
      exact ⟨trivial, fun _ _ => rfl⟩
    · intro dc
      exact ⟨trivial, fun _ _ => rfl⟩
  have hwithin : Within LookingUp (fun _ => ()) (getServerNICID ms) :=
    within_getServerNICID (fun _ _ => rfl) (fun _ _ => trivial) fun _ => trivial
  refine (wp_bind _ _).mpr (wp_mono (hwithin.wp hquiet trivial) fun q r s' hr => ?_)
  obtain ⟨rfl, -⟩ := hr
  cases r with
  | error e => exact (wp_pure _).mpr (.inl rfl)
  | ok nicID =>
    unfold swapNICInFailoverGroupLocked
    refine list_locked (.inl rfl) (list_read (fun _ _ => (wp_pure _).mpr (.inl rfl)) ?_)
    intro lan s' _
    dsimp only
    split
    next => exact (wp_pure _).mpr (.inl rfl)
    next index _ => exact list_swapForLatest matchLabels lan index

end

/-- A completed operation left the list alone, or wrote what it may write. -/
theorem Completes.writes {lanID : String} {op : GroupOp} {list list' : List IPFailover}
    (h : Completes lanID op list list') : list' = list ∨ op.Writes list list' := by
  obtain ⟨s, tr, outcome, s', hrun, hadm, rfl⟩ := h
  cases op with
  | join ms nicID failoverIP => exact wp_runs (list_join nicID failoverIP) hrun hadm
  | swap ms matchLabels => exact wp_runs (list_swap matchLabels) hrun hadm
  | leave ms nicID => exact wp_runs (list_leave nicID) hrun hadm

/-- The IPs stay distinct along every sequence of operations none of which overtakes; one
that overtakes leaves two entries with one IP wherever it writes. -/
theorem distinct_ips (lanID : String) (list : List IPFailover) (hd : DistinctIPs list) :
    (∀ steps, Sequence lanID list steps → NoneOvertakes list steps →
        ∀ step ∈ steps, DistinctIPs step.2) ∧
      ∀ op list', op.Overtakes list → Completes lanID op list list' → list' ≠ list →
        ¬ DistinctIPs list' := by
  constructor
  · intro steps hsteps hnone
    induction hsteps with
    | nil list =>
      intro step hstep
      exact nomatch hstep
    | @cons op list list' rest hop _ ih =>
      have hd' : DistinctIPs list' := by
        rcases hop.writes with rfl | hwrites
        · exact hd
        · exact (hwrites.distinct hd).mpr hnone.1
      intro step hstep
      rcases List.mem_cons.mp hstep with rfl | hstep
      · exact hd'
      · exact ih hd' hnone.2 step hstep
  · intro op list' hover hop hne hd'
    have hwrites := hop.writes.resolve_left hne
    exact (hwrites.distinct hd).mp hd' hover

/-! ## Two runs -/

def entryA : IPFailover := ⟨some "203.0.113.1", some "nicA"⟩

def entryB : IPFailover := ⟨some "203.0.113.2", some "nicB"⟩

/-- A machine with the NIC joins the group of the LAN `1`, and nothing fails. -/
def joining (nicID failoverIP : String) : GroupOp := .join plainMachine nicID failoverIP

theorem joining_completes {nicID failoverIP : String} {list list' : List IPFailover}
    (hend : ((reconcileIPFailoverGroup plainMachine nicID failoverIP default).play
      (listing list)).2.1 = .val (true, none))
    (hadm : (lanMonitor plainMachine "1").Admits list
      ((reconcileIPFailoverGroup plainMachine nicID failoverIP default).play (listing list)).1)
    (hafter : (lanMonitor plainMachine "1").after list
      ((reconcileIPFailoverGroup plainMachine nicID failoverIP default).play (listing list)).1 =
        list') :
    Completes "1" (joining nicID failoverIP) list list' := by
  have hrun := runs_play (reconcileIPFailoverGroup plainMachine nicID failoverIP) default
    (listing list)
  rw [hend] at hrun
  exact ⟨default, _, _, _, hrun, hadm, hafter⟩

/-- The LAN is shown with its list. -/
theorem showsList_listing (list : List IPFailover) (dc : String) :
    ShowsList plainMachine "1" list (.lansGet dc) (listing list (.lansGet dc)) := by
  intro found hfound
  have hone : findLAN plainMachine.spec.networkID (lanName plainMachine.clusterScope) 0 none
      [lanOne list] = .ok (some (lanOne list)) := rfl
  obtain rfl := Except.ok.inj (hone.symm.trans hfound)
  exact ⟨lanOne list, rfl, rfl, rfl⟩

/-- A second machine joins with an IP of its own. -/
theorem distinct_ips_join :
    ∃ steps, Sequence "1" [entryA] steps ∧ NoneOvertakes [entryA] steps ∧
      [entryA, entryB] ∈ steps.map Prod.snd ∧ ∀ step ∈ steps, DistinctIPs step.2 := by
  have hjoin : Completes "1" (joining "nicB" "203.0.113.2") [entryA] [entryA, entryB] :=
    joining_completes rfl
      ⟨trivial, showsList_listing _ "dc", trivial, trivial, trivial, trivial, trivial⟩ rfl
  have hsteps : Sequence "1" [entryA] [(joining "nicB" "203.0.113.2", [entryA, entryB])] :=
    .cons hjoin (.nil _)
  have hnone : NoneOvertakes [entryA] [(joining "nicB" "203.0.113.2", [entryA, entryB])] := by
    refine ⟨?_, trivial⟩
    intro hover
    obtain ⟨_, before, entry, after, heq, _, hnic, _⟩ := hover
    have hmem : entry ∈ [entryA] := by
      rw [heq]
      simp
    obtain rfl := List.mem_singleton.mp hmem
    exact absurd hnic (by decide)
  exact ⟨_, hsteps, hnone, List.mem_cons_self .., (distinct_ips "1" [entryA] (by decide)).1 _
    hsteps hnone⟩

/-- `nicA` is to answer for the IP that `nicB` answers for: its own entry comes first and gets
the IP. -/
theorem distinct_ips_broken :
    ∃ op list list', DistinctIPs list ∧ Completes "1" op list list' ∧ ¬ DistinctIPs list' := by
  refine ⟨joining "nicA" "203.0.113.2", [entryA, entryB],
    [{ entryA with ip := some "203.0.113.2" }, entryB], by decide, ?_, by decide⟩
  exact joining_completes rfl
    ⟨trivial, showsList_listing _ "dc", trivial, trivial, trivial, trivial, trivial⟩ rfl

end Capic.Properties
