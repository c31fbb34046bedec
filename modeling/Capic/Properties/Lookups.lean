import Capic.Cloud.IPBlock
import Capic.Cloud.Lan

/-!
# Looking things up in lists

Three functions look for one thing in a list that arrives in any order: `FindLatestMachine`
for the newest machine other than the one that asks, `getLAN` for the machine's LAN, and
`getControlPlaneEndpointIPBlock` for the block of the endpoint.

- `latest_machine_found`: `FindLatestMachine` finds the newest other machine unless it is
  `Overlooked`. The scan starts from the first machine of the list. If that is the receiver, a
  machine older than it never becomes the latest; and a list of one machine is not looked at.
- `lookups_order_free`: the loops of the other two return early for one rule and count for
  another (`Data.scan`), so the order decides between them when both have something to say:
  for LANs `Ambiguous`, for blocks `Contested`.
-/

namespace Capic.Properties

open Effect Effect.Go Cloud

/-! ## The newest other machine -/

section Latest

variable {receiver : String}

/-- What `FindLatestMachine` is for: a machine that is newest among the others, if there are
others. -/
def IsLatest (receiver : String) (machines : List MachineItem) : Option MachineItem → Prop
  | some m => m ∈ machines ∧ m.name ≠ receiver ∧ ∀ other ∈ machines, other.name ≠ receiver →
    other.creationTimestamp ≤ m.creationTimestamp
  | none => ∀ m ∈ machines, m.name = receiver

/-- There is another machine, but it is alone in the list, or the list begins with the receiver
and goes on with older machines only. -/
def Overlooked (receiver : String) (machines : List MachineItem) : Prop :=
  (∃ m ∈ machines, m.name ≠ receiver) ∧
    (machines.length = 1 ∨ ∃ first rest, machines = first :: rest ∧ first.name = receiver ∧
      ∀ m ∈ rest, m.name ≠ receiver → m.creationTimestamp < first.creationTimestamp)

/-- There are other machines, and the receiver is newer than all of them. -/
def Newest (receiver : String) (machines : List MachineItem) : Prop :=
  (∃ m ∈ machines, m.name ≠ receiver) ∧ ∃ self ∈ machines, self.name = receiver ∧
    ∀ m ∈ machines, m.name ≠ receiver → m.creationTimestamp < self.creationTimestamp

/-- The latest so far is never replaced by an older machine or by the receiver, and every other
machine has its turn. -/
theorem latestMachine_spec (receiver : String) (machines : List MachineItem) (latest : MachineItem) :
    let result := MachineScope.latestMachine receiver latest machines
    (result = latest ∨ result ∈ machines) ∧
      latest.creationTimestamp ≤ result.creationTimestamp ∧
      ∀ m ∈ machines, m.name ≠ receiver → m.creationTimestamp ≤ result.creationTimestamp := by
  induction machines generalizing latest with
  | nil => exact ⟨.inl rfl, le_refl _, fun _ h => nomatch h⟩
  | cons machine machines ih =>
    intro result
    by_cases h : ¬ machine.creationTimestamp < latest.creationTimestamp ∧ machine.name ≠ receiver
    · have hresult : result = MachineScope.latestMachine receiver machine machines := if_pos h
      obtain ⟨hmem, hle, hothers⟩ := ih machine
      rw [← hresult] at hmem hle hothers
      refine ⟨.inr ?_, by omega, ?_⟩
      · rcases hmem with hmem | hmem
        · rw [hmem]
          exact List.mem_cons_self ..
        · exact List.mem_cons_of_mem _ hmem
      · intro m hm hname
        rcases List.mem_cons.mp hm with rfl | hm
        · exact hle
        · exact hothers m hm hname
    · have hresult : result = MachineScope.latestMachine receiver latest machines := if_neg h
      obtain ⟨hmem, hle, hothers⟩ := ih latest
      rw [← hresult] at hmem hle hothers
      refine ⟨hmem.imp_right (List.mem_cons_of_mem _), hle, ?_⟩
      intro m hm hname
      rcases List.mem_cons.mp hm with rfl | hm
      · -- it is older than the latest so far
        have hold : m.creationTimestamp < latest.creationTimestamp := by
          by_contra hnew
          exact h ⟨hnew, hname⟩
        omega
      · exact hothers m hm hname

/-- Whatever is found is the newest of the others. -/
theorem latestOf_some {machines : List MachineItem} {m : MachineItem}
    (h : MachineScope.latestOf receiver machines = some m) : IsLatest receiver machines m := by
  rcases machines with _ | ⟨first, _ | ⟨second, rest⟩⟩
  · cases h
  · cases h
  · obtain ⟨hmem, _, hothers⟩ := latestMachine_spec receiver (first :: second :: rest) first
    rw [MachineScope.latestOf] at h
    split at h
    next => cases h
    next hname =>
      obtain rfl := Option.some.inj h
      refine ⟨hmem.elim (fun heq => ?_) id, hname, hothers⟩
      rw [heq]
      exact List.mem_cons_self ..

/-- Another machine is overlooked if nothing is found. -/
theorem overlooked_iff {machines : List MachineItem} :
    Overlooked receiver machines ↔
      (∃ m ∈ machines, m.name ≠ receiver) ∧ MachineScope.latestOf receiver machines = none := by
  refine and_congr_right fun hother => ?_
  rw [← Option.not_isSome_iff_eq_none, MachineScope.latestOf_isSome_iff]
  constructor
  · rintro h ⟨first, second, rest, rfl, hfound⟩
    rcases h with hone | ⟨_, _, heq, hname, hold⟩
    · simp at hone
    · obtain ⟨rfl, rfl⟩ := List.cons.inj heq
      rcases hfound with hne | ⟨m, hm, hm', hnew⟩
      · exact hne hname
      · rcases List.mem_cons.mp hm with rfl | hm
        · exact hm' hname
        · exact hnew (hold m hm hm')
  · intro hnot
    match machines with
    | [] =>
      obtain ⟨_, hm, _⟩ := hother
      exact nomatch hm
    | [_] => exact .inl rfl
    | first :: second :: rest =>
      refine .inr ⟨first, second :: rest, rfl, ?_, ?_⟩
      · by_contra hne
        exact hnot ⟨first, second, rest, rfl, .inl hne⟩
      · intro m hm hname
        by_contra hnew
        exact hnot ⟨first, second, rest, rfl, .inr ⟨m, List.mem_cons_of_mem _ hm, hname, hnew⟩⟩

theorem isLatest_latestOf_iff {machines : List MachineItem} :
    IsLatest receiver machines (MachineScope.latestOf receiver machines) ↔
      ¬ Overlooked receiver machines := by
  rw [overlooked_iff]
  match h : MachineScope.latestOf receiver machines with
  | some m => exact ⟨fun _ hnot => (nomatch hnot.2), fun _ => latestOf_some h⟩
  | none =>
    refine ⟨fun hall ⟨⟨m, hm, hname⟩, _⟩ => hname (hall m hm), fun hnot m hm => ?_⟩
    by_contra hname
    exact hnot ⟨⟨m, hm, hname⟩, rfl⟩

/-- Two newest machines are equally old. -/
theorem IsLatest.timestamp_eq {machines machines' : List MachineItem} {r r' : Option MachineItem}
    (hmem : ∀ m, m ∈ machines' ↔ m ∈ machines) (h : IsLatest receiver machines r)
    (h' : IsLatest receiver machines' r') :
    r'.map (·.creationTimestamp) = r.map (·.creationTimestamp) := by
  match r, r' with
  | none, none => rfl
  | some m, none => exact absurd (h' m ((hmem m).mpr h.1)) h.2.1
  | none, some m => exact absurd (h m ((hmem m).mp h'.1)) h'.2.1
  | some m, some m' =>
    have hle := h.2.2 m' ((hmem m').mp h'.1) h'.2.1
    have hle' := h'.2.2 m ((hmem m).mpr h.1) h.2.1
    exact congrArg some (le_antisymm hle hle')

/-- Some order hides the other machines if and only if the receiver is newer than all of
them. -/
theorem latestOf_perm_iff {machines : List MachineItem} :
    (∀ machines', machines'.Perm machines →
      (MachineScope.latestOf receiver machines').map (·.creationTimestamp) =
        (MachineScope.latestOf receiver machines).map (·.creationTimestamp)) ↔
      ¬ Newest receiver machines := by
  constructor
  · rintro hperm ⟨⟨other, hother, hname⟩, self, hself, hreceiver, hold⟩
    -- the receiver first: nothing is found
    obtain ⟨before, after, hsplit⟩ := List.append_of_mem hself
    have hmiddle : (self :: (before ++ after)).Perm machines := hsplit ▸ List.perm_middle.symm
    have hnone : MachineScope.latestOf receiver (self :: (before ++ after)) = none := by
      refine (overlooked_iff.mp ⟨⟨other, hmiddle.mem_iff.mpr hother, hname⟩, .inr ?_⟩).2
      exact ⟨self, _, rfl, hreceiver,
        fun m hm => hold m (hmiddle.mem_iff.mp (List.mem_cons_of_mem _ hm))⟩
    -- another machine first: something is
    obtain ⟨before', after', hsplit'⟩ := List.append_of_mem hother
    have hmiddle' : (other :: (before' ++ after')).Perm machines :=
      hsplit' ▸ List.perm_middle.symm
    have hsome : (MachineScope.latestOf receiver (other :: (before' ++ after'))).isSome := by
      have hself' : self ∈ before' ++ after' := by
        rcases List.mem_cons.mp (hmiddle'.mem_iff.mpr hself) with rfl | h
        · exact absurd hreceiver hname
        · exact h
      obtain ⟨second, rest, hrest⟩ := List.exists_cons_of_ne_nil (List.ne_nil_of_mem hself')
      rw [hrest, MachineScope.latestOf_isSome_iff]
      exact ⟨other, second, rest, rfl, .inl hname⟩
    have heq := (hperm _ hmiddle').trans (hperm _ hmiddle).symm
    rw [hnone, Option.map_none, Option.map_eq_none_iff] at heq
    rw [heq] at hsome
    exact nomatch hsome
  · intro hnot machines' hperm
    -- a list of one machine has one order; no order of a longer one hides the others
    by_cases hone : machines.length = 1
    · rw [Data.eq_of_perm hperm (le_of_eq hone)]
    have hlatest : ∀ l, l.Perm machines → ¬ Overlooked receiver l := by
      rintro l hl ⟨⟨other, hother, hname⟩, hlone | ⟨self, rest, rfl, hself, hold⟩⟩
      · exact hone (hl.length_eq ▸ hlone)
      · refine hnot ⟨⟨other, hl.mem_iff.mp hother, hname⟩, self,
          hl.mem_iff.mp (List.mem_cons_self ..), hself, fun m hm hm' => ?_⟩
        rcases List.mem_cons.mp (hl.mem_iff.mpr hm) with rfl | hm
        · exact absurd hself hm'
        · exact hold m hm hm'
    exact IsLatest.timestamp_eq (fun m => hperm.mem_iff)
      (isLatest_latestOf_iff.mpr (hlatest _ (.refl _))) (isLatest_latestOf_iff.mpr (hlatest _ hperm))

end Latest

variable (ms : MachineScope) (labels : List (String × String))

/-- `ListMachines` returns these machines. -/
def ReturnsMachines (machines : List MachineItem) (ans : ∀ c, Call.Ans c) : Prop :=
  ∀ v : MachineVars,
    eval ans (ms.clusterScope.listMachines labels) v = (.val (.ok machines), v)

/-- `FindLatestMachine` finds the newest other machine of this list. -/
def FindsLatest (machines : List MachineItem) : Prop :=
  ∀ ans v, ReturnsMachines ms labels machines ans →
    ∃ r, eval ans (ms.findLatestMachine labels) v = (.val (.ok r), v) ∧
      IsLatest ms.name machines r

/-- What `FindLatestMachine` finds in this list it finds in any other order of it, up to
machines of the same age. -/
def FindsInAnyOrder (machines : List MachineItem) : Prop :=
  ∀ machines', machines'.Perm machines → ∀ ans ans' v,
    ReturnsMachines ms labels machines ans → ReturnsMachines ms labels machines' ans' →
    ∃ r r', eval ans (ms.findLatestMachine labels) v = (.val (.ok r), v) ∧
      eval ans' (ms.findLatestMachine labels) v = (.val (.ok r'), v) ∧
      r'.map (·.creationTimestamp) = r.map (·.creationTimestamp)

variable {ms labels}

theorem eval_findLatestMachine {machines : List MachineItem} {ans : ∀ c, Call.Ans c}
    (h : ReturnsMachines ms labels machines ans) (v : MachineVars) :
    eval ans (ms.findLatestMachine labels) v =
      (.val (.ok (MachineScope.latestOf ms.name machines)), v) :=
  eval_bind_val (h v)

/-- Answers that list these machines. -/
def machinesAnswers (machines : List MachineItem) : ∀ c, Call.Ans c
  | .listMachines _ _ => .ok machines
  | c => Call.plain c

theorem machinesAnswers_lists (machines : List MachineItem) :
    ReturnsMachines ms labels machines (machinesAnswers machines) := fun _ => rfl

/-- `FindLatestMachine` finds the newest other machine unless it is overlooked. What it finds
depends on the order of the list if and only if the receiver is newer than the others. -/
theorem latest_machine_found (ms : MachineScope) (labels : List (String × String))
    (machines : List MachineItem) :
    (FindsLatest ms labels machines ↔ ¬ Overlooked ms.name machines) ∧
      (FindsInAnyOrder ms labels machines ↔ ¬ Newest ms.name machines) := by
  constructor
  · rw [← isLatest_latestOf_iff]
    constructor
    · intro hfinds
      obtain ⟨r, heval, hlatest⟩ := hfinds _ default (machinesAnswers_lists machines)
      rw [eval_findLatestMachine (machinesAnswers_lists machines)] at heval
      obtain rfl : MachineScope.latestOf ms.name machines = r := by simpa using heval
      exact hlatest
    · intro hlatest ans v hlists
      exact ⟨_, eval_findLatestMachine hlists v, hlatest⟩
  · rw [← latestOf_perm_iff]
    constructor
    · intro hfinds machines' hperm
      obtain ⟨r, r', heval, heval', heq⟩ := hfinds machines' hperm _ _ default
        (machinesAnswers_lists machines) (machinesAnswers_lists machines')
      rw [eval_findLatestMachine (machinesAnswers_lists _)] at heval heval'
      obtain rfl : MachineScope.latestOf ms.name machines = r := by simpa using heval
      obtain rfl : MachineScope.latestOf ms.name machines' = r' := by simpa using heval'
      exact heq
    · intro hsame machines' hperm ans ans' v hlists hlists'
      exact ⟨_, _, eval_findLatestMachine hlists v, eval_findLatestMachine hlists' v,
        hsame machines' hperm⟩

/-- The receiver is listed first, and is newer than the other machine. -/
theorem latest_machine_overlooked :
    let ms : MachineScope := { (default : MachineScope) with name := "b" }
    let machines : List MachineItem := [⟨"b", 2, ""⟩, ⟨"a", 1, ""⟩]
    (machines.map (·.name)).Nodup ∧ ¬ FindsLatest ms [] machines ∧
      ¬ FindsInAnyOrder ms [] machines := by
  refine ⟨by decide, ?_, ?_⟩
  · intro hfinds
    obtain ⟨r, heval, hlatest⟩ := hfinds _ default (machinesAnswers_lists _)
    rw [eval_findLatestMachine (machinesAnswers_lists _)] at heval
    obtain rfl : none = r := by
      simpa [MachineScope.latestOf, MachineScope.latestMachine] using heval
    exact absurd (hlatest ⟨"a", 1, ""⟩ (by decide)) (by decide)
  · intro hfinds
    obtain ⟨r, r', heval, heval', heq⟩ := hfinds [⟨"a", 1, ""⟩, ⟨"b", 2, ""⟩] (.swap ..) _ _
      default (machinesAnswers_lists _) (machinesAnswers_lists _)
    rw [eval_findLatestMachine (machinesAnswers_lists _)] at heval heval'
    obtain rfl : none = r := by
      simpa [MachineScope.latestOf, MachineScope.latestMachine] using heval
    obtain rfl : some ⟨"a", 1, ""⟩ = r' := by
      simpa [MachineScope.latestOf, MachineScope.latestMachine] using heval'
    cases heq

/-! ## The machine's LAN -/

section LAN

variable {ms : MachineScope} {lans : List Lan} {ans : ∀ c, Call.Ans c}

/-- `ListLANs` returns these LANs. -/
def ReturnsLANs (ms : MachineScope) (lans : List Lan) (ans : ∀ c, Call.Ans c) : Prop :=
  ∀ v : MachineVars, eval ans (Client.listLANs ms.datacenterID) v = (.val (.ok (some lans)), v)

/-- `getLAN` answers the same for this list in any order, and with the LAN that has the network
ID, if the machine has one and the list contains it. -/
structure LANInAnyOrder (ms : MachineScope) (lans : List Lan) : Prop where
  same : ∀ lans', lans'.Perm lans → ∀ ans ans' v, ReturnsLANs ms lans ans →
    ReturnsLANs ms lans' ans' → eval ans' (getLAN ms) v = eval ans (getLAN ms) v
  byID : ∀ lan ∈ lans, hasNetworkID ms.spec.networkID lan = true →
    ∀ ans v, ReturnsLANs ms lans ans → eval ans (getLAN ms) v = (.val (.ok (some lan)), v)

/-- The LAN the machine asks for by ID is there, and so are two others that have the cluster's
name. -/
def Ambiguous (ms : MachineScope) (lans : List Lan) : Prop :=
  ms.datacenterID ≠ "" ∧ (∃ lan ∈ lans, hasNetworkID ms.spec.networkID lan = true) ∧
    2 ≤ (lans.filter fun l =>
      hasName (lanName ms.clusterScope) l && !hasNetworkID ms.spec.networkID l).length

theorem eval_getLAN (h : ReturnsLANs ms lans ans) (v : MachineVars) :
    eval ans (getLAN ms) v =
      (.val (lanAnswer ms.spec.networkID (lanName ms.clusterScope)
        (Data.scan (hasNetworkID ms.spec.networkID) (hasName (lanName ms.clusterScope)) none
          lans)), v) := by
  rw [← findLAN_eq_scan]
  exact eval_bind_val (h v)

/-- Without a data center nothing is listed. -/
theorem ReturnsLANs.datacenterID_ne (h : ReturnsLANs ms lans ans) : ms.datacenterID ≠ "" := by
  intro hempty
  have hlist := h default
  unfold Client.listLANs Client.withParams at hlist
  rw [hempty] at hlist
  exact nomatch hlist

/-- Answers that list these LANs. -/
def lansAnswers (lans : List Lan) : ∀ c, Call.Ans c
  | .lansGet _ => .ok (some lans)
  | c => Call.plain c

theorem lansAnswers_lists (h : ms.datacenterID ≠ "") (lans : List Lan) :
    ReturnsLANs ms lans (lansAnswers lans) := by
  intro v
  unfold Client.listLANs
  rw [Client.withParams_given (by simpa using h)]
  rfl

/-- At most one LAN has the ID. -/
theorem hasNetworkID_unique (hids : (lans.filterMap (·.id)).Nodup) (networkID : Option String) :
    (lans.filter (hasNetworkID networkID)).length ≤ 1 := by
  have hnodup : ((lans.filter (hasNetworkID networkID)).filterMap (·.id)).Nodup :=
    hids.sublist (List.filter_sublist.filterMap _)
  match hfilter : lans.filter (hasNetworkID networkID) with
  | [] => exact Nat.zero_le _
  | [_] => exact le_refl _
  | a :: b :: rest =>
    have hid : ∀ l ∈ a :: b :: rest, networkID.isSome ∧ l.id = networkID := by
      intro l hl
      rw [← hfilter] at hl
      exact of_decide_eq_true (List.mem_filter.mp hl).2
    obtain ⟨hsome, ha⟩ := hid a (by simp)
    obtain ⟨_, hb⟩ := hid b (by simp)
    obtain ⟨id, rfl⟩ := Option.isSome_iff_exists.mp hsome
    rw [hfilter, List.filterMap_cons_some ha, List.filterMap_cons_some hb] at hnodup
    simp at hnodup

theorem lanInAnyOrder_iff (hids : (lans.filterMap (·.id)).Nodup) :
    LANInAnyOrder ms lans ↔ ¬ Ambiguous ms lans := by
  have hone := hasNetworkID_unique hids ms.spec.networkID
  constructor
  · rintro hfree ⟨hdc, ⟨lan, hlan, hid⟩, hnamed⟩
    -- with the two others in front, the LAN is not reached
    obtain ⟨-, lans', hperm, hmany⟩ := Data.exists_perm_conflict hlan hid hnamed
    have hlists := lansAnswers_lists hdc lans
    have hlists' := lansAnswers_lists hdc lans'
    have hsame := hfree.same lans' hperm _ _ default hlists hlists'
    rw [hfree.byID lan hlan hid _ _ hlists, eval_getLAN hlists', hmany] at hsame
    exact nomatch hsame
  · intro hnot
    have hnamed : ms.datacenterID ≠ "" →
        (∃ lan ∈ lans, hasNetworkID ms.spec.networkID lan = true) →
        (lans.filter fun l => hasName (lanName ms.clusterScope) l &&
          !hasNetworkID ms.spec.networkID l).length ≤ 1 := by
      intro hdc hlan
      by_contra hmany
      exact hnot ⟨hdc, hlan, by omega⟩
    constructor
    · intro lans' hperm ans ans' v hlists hlists'
      rw [eval_getLAN hlists, eval_getLAN hlists',
        Data.scan_perm hone (hnamed hlists.datacenterID_ne) hperm]
    · intro lan hlan hid ans v hlists
      rw [eval_getLAN hlists, Data.scan_eq_stopped hlan hid hone
        (hnamed hlists.datacenterID_ne ⟨lan, hlan, hid⟩)]
      rfl

end LAN

/-! ## The block of the endpoint -/

section Block

variable {cs : ClusterScope} {v : ClusterVars} {ans : ∀ c, Call.Ans c} {blocks : List IpBlock}

/-- The same answers, except that these are the blocks. -/
def relisted (ans : ∀ c, Call.Ans c) (blocks : List IpBlock) : ∀ c, Call.Ans c
  | .ipblocksGet => .ok (some blocks)
  | c => ans c

/-- The IP of the endpoint, as the host says it or is resolved to. -/
def EndpointIP (cs : ClusterScope) (v : ClusterVars) (ans : ∀ c, Call.Ans c) (ip : String) :
    Prop :=
  (eval ans cs.getControlPlaneEndpointIP v).1 = .val (.ok ip)

/-- `getControlPlaneEndpointIPBlock` answers the same for these blocks in any order. -/
def BlockInAnyOrder (cs : ClusterScope) (v : ClusterVars) (ans : ∀ c, Call.Ans c)
    (blocks : List IpBlock) : Prop :=
  ∀ blocks', blocks'.Perm blocks →
    eval (relisted ans blocks') (getControlPlaneEndpointIPBlock cs) v =
      eval (relisted ans blocks) (getControlPlaneEndpointIPBlock cs) v

/-- The endpoint's IP is in a block that has another name, and there are two blocks with the
name. -/
def Contested (cs : ClusterScope) (v : ClusterVars) (ans : ∀ c, Call.Ans c)
    (blocks : List IpBlock) : Prop :=
  ∃ ip, EndpointIP cs v ans ip ∧
    (∃ block ∈ blocks,
      isUserSetBlock (controlPlaneEndpointIPBlockName cs) cs.location ip block = true) ∧
    2 ≤ (blocks.filter (isNamedBlock (controlPlaneEndpointIPBlockName cs) cs.location)).length

theorem blockInAnyOrder_iff (hnotFound : NotFoundByID v ans)
    (hone : ∀ ip, EndpointIP cs v ans ip →
      (blocks.filter (checkIfUserSetBlock ip)).length ≤ 1) :
    BlockInAnyOrder cs v ans blocks ↔ ¬ Contested cs v ans blocks := by
  obtain ⟨notFoundError, -, heval⟩ := eval_notFoundByID cs hnotFound
  have hlist : ∀ blocks, eval (relisted ans blocks) (getControlPlaneEndpointIPBlock cs) v =
      listAnswer cs v notFoundError blocks (eval ans cs.getControlPlaneEndpointIP v).1 := by
    intro blocks
    have hip : eval (relisted ans blocks) cs.getControlPlaneEndpointIP v =
        ((eval ans cs.getControlPlaneEndpointIP v).1, v) := ClusterScope.eval_endpointIP_congr rfl
    rw [heval (relisted ans blocks) rfl, eval_listControlPlaneEndpointIPBlock rfl, hip]
  constructor
  · rintro hfree ⟨ip, hip, ⟨block, hblock, huser⟩, hnamed⟩
    -- with the user's block in front it is taken, with the two others in front it is not reached
    rw [← filter_named _ _ ip] at hnamed
    obtain ⟨⟨blocks₁, hperm₁, hfirst⟩, blocks₂, hperm₂, hmany⟩ :=
      Data.exists_perm_conflict hblock huser hnamed
    have hsame := (hfree blocks₁ hperm₁).trans (hfree blocks₂ hperm₂).symm
    rw [hlist, hlist, hip] at hsame
    simp only [listAnswer, hfirst, hmany] at hsame
    cases hsame
  · intro hnot blocks' hperm
    rw [hlist, hlist]
    rcases hip : (eval ans cs.getControlPlaneEndpointIP v).1 with (e | ip) | msg
    · rfl
    · have huser : (blocks.filter (isUserSetBlock (controlPlaneEndpointIPBlockName cs)
          cs.location ip)).length ≤ 1 := by
        refine le_trans (List.Sublist.length_le (List.monotone_filter_right _ ?_)) (hone ip hip)
        intro block huser
        exact (of_decide_eq_true huser).2.2
      have hnamed : (∃ block ∈ blocks, isUserSetBlock (controlPlaneEndpointIPBlockName cs)
          cs.location ip block = true) → (blocks.filter (fun block =>
            isNamedBlock (controlPlaneEndpointIPBlockName cs) cs.location block &&
              !isUserSetBlock (controlPlaneEndpointIPBlockName cs) cs.location ip
                block)).length ≤ 1 := by
        intro hblock
        rw [filter_named]
        by_contra hmany
        exact hnot ⟨ip, hip, hblock, by omega⟩
      simp only [listAnswer]
      rw [Data.scan_perm huser hnamed hperm]
    · rfl

end Block

/-! ## Both -/

/-- Neither lookup depends on the order of the list unless both of its rules apply: a LAN or a
block that ends the search at once, and two that are one too many. -/
theorem lookups_order_free (ms : MachineScope) (lans : List Lan)
    (hids : (lans.filterMap (·.id)).Nodup) (cs : ClusterScope) (v : ClusterVars)
    (ans : ∀ c, Call.Ans c) (blocks : List IpBlock) (hnotFound : NotFoundByID v ans)
    (hone : ∀ ip, EndpointIP cs v ans ip →
      (blocks.filter (checkIfUserSetBlock ip)).length ≤ 1) :
    (LANInAnyOrder ms lans ↔ ¬ Ambiguous ms lans) ∧
      (BlockInAnyOrder cs v ans blocks ↔ ¬ Contested cs v ans blocks) :=
  ⟨lanInAnyOrder_iff hids, blockInAnyOrder_iff hnotFound hone⟩

/-- A machine that asks for LAN 1. -/
def askingMachine : MachineScope :=
  { (default : MachineScope) with
    spec := { (default : MachineSpec) with datacenterID := "dc", networkID := some "1" } }

/-- A cluster in Frankfurt whose endpoint is an address. -/
def addressedCluster : ClusterScope :=
  { (default : ClusterScope) with location := "de/fra", parseAddr := some }

def addressedVars : ClusterVars := { (default : ClusterVars) with host := "10.0.0.1" }

/-- The LAN with this ID and this name. -/
def plainLAN (id name : String) : Lan := { (default : Lan) with id := some id, name := some name }

/-- A block in Frankfurt with this name and these IPs. -/
def plainBlock (name : String) (ips : List String) : IpBlock :=
  { (default : IpBlock) with name := some name, location := some "de/fra", ips := some ips }

theorem addressed_endpointIP {ip : String}
    (h : EndpointIP addressedCluster addressedVars Call.plain ip) : ip = "10.0.0.1" := by
  have hval : Res.val (.ok "10.0.0.1") = Res.val (.ok ip : Except Err String) := h
  cases hval
  rfl

/-- One LAN and one block with the name, next to those that were asked for. -/
theorem lookups_order_free_single :
    let own := plainLAN "2" (lanName askingMachine.clusterScope)
    let block := plainBlock (controlPlaneEndpointIPBlockName addressedCluster) []
    LANInAnyOrder askingMachine [own, plainLAN "1" "other"] ∧
      BlockInAnyOrder addressedCluster addressedVars Call.plain
        [block, plainBlock "other" ["10.0.0.1"]] := by
  intro own block
  have hfree := lookups_order_free askingMachine [own, plainLAN "1" "other"] (by decide)
    addressedCluster addressedVars Call.plain [block, plainBlock "other" ["10.0.0.1"]] (.inl rfl)
    (fun ip hip => by rw [addressed_endpointIP hip]; decide)
  refine ⟨hfree.1.mpr ?_, hfree.2.mpr ?_⟩
  · rintro ⟨-, -, hmany⟩
    exact absurd hmany (by decide)
  · rintro ⟨ip, hip, -, hmany⟩
    exact absurd hmany (by decide)

/-- Two LANs and two blocks with the name: if they are listed first, what was asked for is not
reached. -/
theorem lookups_order_matters :
    let own := lanName askingMachine.clusterScope
    let lans := [plainLAN "1" "other", plainLAN "2" own, plainLAN "3" own]
    let name := controlPlaneEndpointIPBlockName addressedCluster
    let blocks := [plainBlock "other" ["10.0.0.1"], plainBlock name [], plainBlock name []]
    (lans.filterMap (·.id)).Nodup ∧ NotFoundByID addressedVars Call.plain ∧
      (∀ ip, EndpointIP addressedCluster addressedVars Call.plain ip →
        (blocks.filter (checkIfUserSetBlock ip)).length ≤ 1) ∧
      ¬ LANInAnyOrder askingMachine lans ∧
      ¬ BlockInAnyOrder addressedCluster addressedVars Call.plain blocks := by
  intro own lans name blocks
  have hids : (lans.filterMap (·.id)).Nodup := by decide
  have hone : ∀ ip, EndpointIP addressedCluster addressedVars Call.plain ip →
      (blocks.filter (checkIfUserSetBlock ip)).length ≤ 1 := by
    intro ip hip
    rw [addressed_endpointIP hip]
    decide
  refine ⟨hids, .inl rfl, hone, ?_, ?_⟩
  · rw [lanInAnyOrder_iff hids, not_not]
    exact ⟨by decide, ⟨_, List.mem_cons_self .., by decide⟩, by decide⟩
  · rw [blockInAnyOrder_iff (.inl rfl) hone, not_not]
    exact ⟨"10.0.0.1", rfl, ⟨_, List.mem_cons_self .., by decide⟩, by decide⟩

end Capic.Properties
