import Capic.Controller.Frame

/-!
# IP address claims

A NIC gets its addresses through claims that are found by their names: the name of the NIC
and the address family. `ReconcileIPAddresses` works on one claim for every pool reference
(`Uses`, `usedBy_iff`); the deletion goes through the claims of both families for every NIC,
whether it has a pool reference or not (`claimNames`, `releasedBy_iff`).

* `claims_own` — when every NIC has its own claims, and no machine's deletion touches the
  claims of another one.
* `claims_released` — a deletion that ends well has released every claim earlier runs of the
  machine created, and one that fails keeps the machine.
-/

namespace Capic.Properties

open Effect Effect.Go K8s Controller Controller.Machine

/-! ## The claims of a machine -/

/-- No pool reference at all. -/
def NoPools (ipam : IPAMConfig) : Prop := ∀ f, (poolRefOf ipam f).isSome = false

/-- The NIC with this number uses the claim for its addresses of the family. -/
def Uses (ms : MachineScope) (i : Nat) (f : Family) (name : String) : Prop :=
  ∃ nic, (nics ms)[i]? = some nic ∧ (poolRefOf nic.2 f).isSome = true ∧ name = claimName nic.1 f

theorem mem_claimNames {ms : MachineScope} {name : String} :
    name ∈ claimNames ms ↔ ∃ nic ∈ nics ms, ∃ f, name = claimName nic.1 f := by
  unfold claimNames nics
  constructor
  · intro h
    obtain ⟨f, _, hname⟩ := List.mem_flatMap.mp h
    obtain ⟨nicName, hnic, rfl⟩ := List.mem_map.mp hname
    rcases List.mem_cons.mp hnic with rfl | hnic
    · exact ⟨_, List.mem_cons_self .., f, rfl⟩
    · obtain ⟨net, hnet, rfl⟩ := List.mem_map.mp hnic
      exact ⟨_, List.mem_cons_of_mem _ (List.mem_map_of_mem hnet), f, rfl⟩
  · rintro ⟨nic, hnic, f, rfl⟩
    refine List.mem_flatMap.mpr ⟨f, by cases f <;> simp, List.mem_map_of_mem ?_⟩
    rcases List.mem_cons.mp hnic with rfl | hnic
    · exact List.mem_cons_self ..
    · obtain ⟨net, hnet, rfl⟩ := List.mem_map.mp hnic
      exact List.mem_cons_of_mem _ (List.mem_map_of_mem hnet)

/-- The name of a claim tells the name of the NIC and the family. -/
theorem claimName_inj {nic nic' : String} {f f' : Family} (h : claimName nic f = claimName nic' f') :
    nic = nic' ∧ f = f' := by
  have hformat : ∀ f : Family, '-' ∉ f.format.toList := by
    intro f
    cases f <;> decide
  obtain ⟨hnic, hf⟩ := Text.hyphenated_inj (hformat f) (hformat f') h
  refine ⟨hnic, ?_⟩
  cases f <;> cases f' <;> first | rfl | exact absurd hf (by decide)

/-! ## When names of NICs collide -/

theorem additionalNIC_eq (machine : String) (id : Int) :
    additionalNIC machine id = primaryNIC (Text.hyphenated machine (toString id)) := by
  simp only [additionalNIC, primaryNIC, Text.hyphenated, String.append_assoc]

theorem primaryNIC_inj {machine machine' : String} (h : primaryNIC machine = primaryNIC machine') :
    machine = machine' :=
  (String.append_right_inj _).mp h

/-- A NIC is the primary one, or belongs to an additional network. -/
theorem nics_cases {ms : MachineScope} {i : Nat} {nic : String × IPAMConfig}
    (h : (nics ms)[i]? = some nic) :
    i = 0 ∧ nic = (primaryNIC ms.name, ms.spec.ipam) ∨
      ∃ k net, i = k + 1 ∧ ms.spec.additionalNetworks[k]? = some net ∧
        nic = (additionalNIC ms.name net.networkID, net.ipam) := by
  cases i with
  | zero => exact .inl ⟨rfl, (Option.some.inj h).symm⟩
  | succ k =>
    right
    have hk : (ms.spec.additionalNetworks.map fun net =>
        (additionalNIC ms.name net.networkID, net.ipam))[k]? = some nic := h
    rw [List.getElem?_map] at hk
    obtain ⟨net, hnet, rfl⟩ := Option.map_eq_some_iff.mp hk
    exact ⟨k, net, rfl, hnet, rfl⟩

/-- The IDs of additional networks are positive. -/
def Admitted (ms : MachineScope) : Prop := ∀ net ∈ ms.spec.additionalNetworks, 1 ≤ net.networkID

/-- A network of the first machine has the name of the second one's primary NIC. -/
def Shadows (ms ms' : MachineScope) (net : Network) : Prop :=
  net ∈ ms.spec.additionalNetworks ∧
    ms'.name = Text.hyphenated ms.name (toString net.networkID)

/-- NICs of the same name: the same NIC of one machine, two of its networks with the same ID, or a
network that shadows the primary NIC of another machine. -/
theorem nics_collide {ms ms' : MachineScope} (hms : Admitted ms) (hms' : Admitted ms') {i i' : Nat}
    {nic nic' : String × IPAMConfig} (h : (nics ms)[i]? = some nic)
    (h' : (nics ms')[i']? = some nic') (heq : nic.1 = nic'.1) :
    ms.name = ms'.name ∧ (i = 0 ∧ i' = 0 ∨ ∃ k net k' net', i = k + 1 ∧ i' = k' + 1 ∧
        ms.spec.additionalNetworks[k]? = some net ∧ ms'.spec.additionalNetworks[k']? = some net' ∧
        nic.2 = net.ipam ∧ nic'.2 = net'.ipam ∧ net.networkID = net'.networkID) ∨
      (∃ net, Shadows ms ms' net ∧ nic.2 = net.ipam ∧ nic'.2 = ms'.spec.ipam) ∨
      ∃ net, Shadows ms' ms net ∧ nic'.2 = net.ipam ∧ nic.2 = ms.spec.ipam := by
  rcases nics_cases h with ⟨rfl, rfl⟩ | ⟨k, net, rfl, hnet, rfl⟩
  · rcases nics_cases h' with ⟨rfl, rfl⟩ | ⟨k', net', rfl, hnet', rfl⟩
    · exact .inl ⟨primaryNIC_inj heq, .inl ⟨rfl, rfl⟩⟩
    · refine .inr (.inr ⟨net', ⟨List.mem_of_getElem? hnet', ?_⟩, rfl, rfl⟩)
      rw [additionalNIC_eq] at heq
      exact primaryNIC_inj heq
  · rcases nics_cases h' with ⟨rfl, rfl⟩ | ⟨k', net', rfl, hnet', rfl⟩
    · refine .inr (.inl ⟨net, ⟨List.mem_of_getElem? hnet, ?_⟩, rfl, rfl⟩)
      rw [additionalNIC_eq] at heq
      exact (primaryNIC_inj heq).symm
    · rw [additionalNIC_eq, additionalNIC_eq] at heq
      have hid := hms net (List.mem_of_getElem? hnet)
      have hid' := hms' net' (List.mem_of_getElem? hnet')
      obtain ⟨hname, hids⟩ := Text.hyphenated_inj (Text.hyphen_notMem_toString (by omega))
        (Text.hyphen_notMem_toString (by omega)) (primaryNIC_inj heq)
      exact .inl ⟨hname, .inr ⟨k, net, k', net', rfl, rfl, hnet, hnet', rfl, rfl,
        Text.toString_inj (by omega) (by omega) hids⟩⟩

/-! ## The claims a run works on -/

/-- A run of `ReconcileIPAddresses` looks for the claim. -/
def UsedBy (ms : MachineScope) (name : String) : Prop :=
  ∃ v tr e, Prefix (reconcileIPAddresses ms) v tr ∧ e ∈ tr ∧
    e.call = .getIPAddressClaim ms.ns name

/-- The calls of `ReconcileIPAddresses` for this machine. -/
def ClaimCalls (ms : MachineScope) : Call → Prop
  | .getIPAddressClaim ns name => ns = ms.ns ∧ ∃ i f, Uses ms i f name
  | .createOrUpdateIPAddressClaim claim => claim.ns = ms.ns ∧ ∃ i f, Uses ms i f claim.name
  | .getIPAddress _ _ => True
  | _ => False

theorem within_claimCalls {ms : MachineScope} :
    Within (ClaimCalls ms) (fun _ => ()) (reconcileIPAddresses ms) := by
  refine within_reconcileIPAddresses_of (fun nic hnic f => ?_) fun _ _ => rfl
  obtain ⟨i, hi⟩ := List.mem_iff_getElem?.mp hnic
  refine within_poolAddresses (fun href => ⟨rfl, i, f, nic, hi, href, rfl⟩) ?_ fun _ => trivial
  intro href claim hns hname
  exact ⟨hns, i, f, nic, hi, href, hname⟩

/-- One pool reference, if the claim has its address. -/
theorem poolAddresses_runs (ms : MachineScope) (nic : String) (f : Family) (ref : Option PoolRef)
    (v : MachineVars) : ∃ tr ips, Runs (poolAddresses ms nic f ref) v tr (.val (.ok (false, ips))) v ∧
      (ref.isSome = true → ∃ e ∈ tr, e.call = .getIPAddressClaim ms.ns (claimName nic f)) := by
  cases ref with
  | none => exact ⟨[], [], .pure _ _, fun h => nomatch h⟩
  | some ref =>
    let claim : IPAddressClaim := ⟨ms.ns, claimName nic f, [], "address"⟩
    refine ⟨[⟨.getIPAddressClaim ms.ns (claimName nic f), .ok claim⟩,
      ⟨.getIPAddress ms.ns "address", .ok "10.0.0.2"⟩], ["10.0.0.2"], .step (.step (.refl _)), ?_⟩
    intro _
    exact ⟨_, List.mem_cons_self .., rfl⟩

/-- The calls for the claims of a NIC are in the trace. -/
def Asked (ms : MachineScope) (tr : List (Event Call Call.Ans)) (nic : String × IPAMConfig) : Prop :=
  ∀ f, (poolRefOf nic.2 f).isSome = true →
    ∃ e ∈ tr, e.call = .getIPAddressClaim ms.ns (claimName nic.1 f)

theorem Asked.grow {ms : MachineScope} {tr tr' : List (Event Call Call.Ans)}
    {nic : String × IPAMConfig} (h : Asked ms tr nic) (htr : tr ⊆ tr') : Asked ms tr' nic := by
  intro f href
  obtain ⟨e, he, hcall⟩ := h f href
  exact ⟨e, htr he, hcall⟩

theorem nicAddresses_runs (ms : MachineScope) (nic : String × IPAMConfig) (primary : Bool)
    (fail4 fail6 : Err → Err) (v : MachineVars) : ∃ tr info, Runs (do
      match ← poolAddresses ms nic.1 .ipv4 nic.2.ipv4PoolRef with
      | .error e => return .error (fail4 e)
      | .ok (wait4, ipv4) =>
        match ← poolAddresses ms nic.1 .ipv6 nic.2.ipv6PoolRef with
        | .error e => return .error (fail6 e)
        | .ok (wait6, ipv6) =>
          return .ok (wait4 || wait6, ⟨ipv4, ipv6, 0, primary⟩) :
      MachineM (Except Err (Bool × NICInfo))) v tr (.val (.ok (false, info))) v ∧ Asked ms tr nic := by
  obtain ⟨tr₄, ipv4, hrun₄, hasked₄⟩ := poolAddresses_runs ms nic.1 .ipv4 nic.2.ipv4PoolRef v
  obtain ⟨tr₆, ipv6, hrun₆, hasked₆⟩ := poolAddresses_runs ms nic.1 .ipv6 nic.2.ipv6PoolRef v
  refine ⟨_, _, hrun₄.bind (hrun₆.bind (.pure _ _)), ?_⟩
  intro f href
  cases f with
  | ipv4 =>
    obtain ⟨e, he, hcall⟩ := hasked₄ href
    exact ⟨e, List.mem_append_left _ he, hcall⟩
  | ipv6 =>
    obtain ⟨e, he, hcall⟩ := hasked₆ href
    exact ⟨e, List.mem_append_right _ (List.mem_append_left _ he), hcall⟩

theorem handleAdditionalNICs_runs (ms : MachineScope) (nets : List Network) (v : MachineVars) :
    ∃ tr infos, Runs (handleAdditionalNICs ms nets) v tr (.val (.ok (false, infos))) v ∧
      ∀ net ∈ nets, Asked ms tr (additionalNIC ms.name net.networkID, net.ipam) := by
  induction nets with
  | nil => exact ⟨[], [], .pure _ _, fun _ h => nomatch h⟩
  | cons net nets ih =>
    obtain ⟨tr₂, infos, hrun₂, hasked₂⟩ := ih
    obtain ⟨tr₁, info, hrun₁, hasked₁⟩ := nicAddresses_runs ms
      (additionalNIC ms.name net.networkID, net.ipam) false _ _ v
    refine ⟨_, _, hrun₁.bind (hrun₂.bind (.pure _ _)), fun net' hnet => ?_⟩
    rcases List.mem_cons.mp hnet with rfl | hnet
    · exact hasked₁.grow fun e he => List.mem_append_left _ he
    · exact (hasked₂ net' hnet).grow
        fun e he => List.mem_append_right _ (List.mem_append_left _ he)

/-- The claims a run looks for are those of the pool references. -/
theorem usedBy_iff {ms : MachineScope} {name : String} :
    UsedBy ms name ↔ ∃ i f, Uses ms i f name := by
  constructor
  · rintro ⟨v, tr, e, hrun, he, hcall⟩
    have h := within_claimCalls.calls hrun e he
    rw [hcall] at h
    exact h.2
  · rintro ⟨i, f, nic, hnic, href, rfl⟩
    obtain ⟨tr₁, info, hrun₁, hasked₁⟩ := nicAddresses_runs ms
      (primaryNIC ms.name, ms.spec.ipam) true id id default
    obtain ⟨tr₂, infos, hrun₂, hasked₂⟩ := handleAdditionalNICs_runs ms ms.spec.additionalNetworks
      default
    have hrun : Runs (reconcileIPAddresses ms) default _ _ _ :=
      hrun₁.bind (hrun₂.bind ((Runs.assign _ _).bind (.pure _ _)))
    have hasked : Asked ms (tr₁ ++ (tr₂ ++ ([] ++ []))) nic := by
      rcases List.mem_cons.mp (List.mem_of_getElem? hnic) with rfl | hmem
      · exact hasked₁.grow fun e he => List.mem_append_left _ he
      · obtain ⟨net, hnet, rfl⟩ := List.mem_map.mp hmem
        exact (hasked₂ net hnet).grow
          fun e he => List.mem_append_right _ (List.mem_append_left _ he)
    obtain ⟨e, he, hcall⟩ := hasked f href
    exact ⟨default, _, e, ⟨_, hrun⟩, he, hcall⟩

/-! ## The claims a deletion works on -/

/-- The claims that are read are the ones asked for. -/
def HonestClaim : (c : Call) → Call.Ans c → Prop
  | .getIPAddressClaim _ name, .ok claim => claim.name = name
  | _, _ => True

/-- A run of `ReconcileIPAddressClaimsDeletion` may take the finalizer off the claim. -/
def ReleasedBy (ms : MachineScope) (name : String) : Prop :=
  ∃ v tr claim a, Prefix (reconcileIPAddressClaimsDeletion ms) v tr ∧
    (∀ e ∈ tr, HonestClaim e.call e.answer) ∧ ⟨.updateIPAddressClaim claim, a⟩ ∈ tr ∧
    claim.name = name ∧ machineFinalizer ∉ claim.finalizers

/-- What a deletion asks for and writes, if the answers are honest. -/
abbrev releaseMonitor (names : List String) : Monitor Call Call.Ans where
  Phase := Unit
  ok _ c :=
    match c with
    | .getIPAddressClaim _ name => name ∈ names
    | .updateIPAddressClaim claim => claim.name ∈ names ∧ machineFinalizer ∉ claim.finalizers
    | _ => False
  adm _ c a := HonestClaim c a
  next _ _ _ := ()
  panic _ := True

theorem releaseClaims_wp {ms : MachineScope} {all names : List String} (hnames : names ⊆ all)
    (v : MachineVars) : (releaseClaims ms names).wp (releaseMonitor all) (fun _ _ _ => True) () v := by
  induction names generalizing v with
  | nil => exact (wp_pure _).mpr trivial
  | cons name names ih =>
    have hname : name ∈ all := hnames (List.mem_cons_self ..)
    have hrest := ih (fun n hn => hnames (List.mem_cons_of_mem _ hn)) v
    rw [releaseClaims]
    unfold releaseClaim
    rw [wp_bind, wp_bind, wp_perform]
    refine ⟨hname, fun a ha => ?_⟩
    match a with
    | .error e =>
      dsimp only
      rw [wp_ite]
      split
      next => exact (wp_pure _).mpr hrest
      next => exact (wp_pure _).mpr ((wp_pure _).mpr trivial)
    | .ok claim =>
      obtain rfl : claim.name = name := ha
      dsimp only
      split
      next => exact (wp_pure _).mpr hrest
      next finalizers hremoved =>
        have hfree : machineFinalizer ∉ finalizers := by
          have := ms.libs.notMem_removeFinalizer claim.finalizers machineFinalizer
          rwa [hremoved] at this
        rw [wp_bind, wp_perform]
        refine ⟨⟨hname, hfree⟩, fun a _ => (wp_pure _).mpr ?_⟩
        match a with
        | .error e => exact (wp_pure _).mpr trivial
        | .ok () => exact hrest

/-- A deletion that finds every claim with the finalizer, and has every update accepted. -/
theorem releaseClaims_runs (ms : MachineScope) (names : List String) (v : MachineVars) :
    ∃ tr, Runs (releaseClaims ms names) v tr (.val (false, none)) v ∧
      (∀ e ∈ tr, HonestClaim e.call e.answer) ∧
      ∀ name ∈ names, ⟨.updateIPAddressClaim ⟨ms.ns, name, [], ""⟩, .ok ()⟩ ∈ tr := by
  induction names with
  | nil => exact ⟨[], .pure _ _, fun _ h => (nomatch h), fun _ h => nomatch h⟩
  | cons name names ih =>
    obtain ⟨tr, hrun, hhonest, hupdated⟩ := ih
    have hremoved : ms.libs.removeFinalizer [machineFinalizer] machineFinalizer = ([], true) := by
      have hperm := ms.libs.removeFinalizer_perm [machineFinalizer] machineFinalizer
      rw [ms.libs.removeFinalizer_eq]
      exact Prod.ext (by simpa using hperm) (by simp)
    have hrelease : Runs (releaseClaims ms (name :: names)) v
        (⟨.getIPAddressClaim ms.ns name, .ok ⟨ms.ns, name, [machineFinalizer], ""⟩⟩ ::
          ⟨.updateIPAddressClaim ⟨ms.ns, name, [], ""⟩, .ok ()⟩ :: tr) (.val (false, none)) v := by
      have hone : Runs (releaseClaim ms name) v
          [⟨.getIPAddressClaim ms.ns name, .ok ⟨ms.ns, name, [machineFinalizer], ""⟩⟩,
            ⟨.updateIPAddressClaim ⟨ms.ns, name, [], ""⟩, .ok ()⟩] (.val none) v := by
        refine Runs.bind (Runs.perform _ _ v) ?_
        dsimp only
        rw [hremoved]
        exact Runs.bind (Runs.perform _ _ v) (Runs.pure _ v)
      rw [releaseClaims]
      exact hone.bind hrun
    refine ⟨_, hrelease, ?_, ?_⟩
    · intro e he
      rcases List.mem_cons.mp he with rfl | he
      · exact rfl
      · rcases List.mem_cons.mp he with rfl | he
        · trivial
        · exact hhonest e he
    · intro name' hname
      rcases List.mem_cons.mp hname with rfl | hname
      · exact List.mem_cons_of_mem _ (List.mem_cons_self ..)
      · exact List.mem_cons_of_mem _ (List.mem_cons_of_mem _ (hupdated name' hname))

/-- The claims a deletion takes its finalizer off are those of all NICs and both families. -/
theorem releasedBy_iff {ms : MachineScope} {name : String} :
    ReleasedBy ms name ↔ name ∈ claimNames ms := by
  constructor
  · rintro ⟨v, tr, claim, a, hrun, hhonest, hupdate, rfl, _⟩
    obtain ⟨tr₁, tr₂, rfl⟩ := List.append_of_mem hupdate
    have hadmits := Monitor.admits_of_forall (M := releaseMonitor (claimNames ms))
      (fun e he _ => hhonest e (List.mem_append_left _ he)) ()
    exact (wp_call_ok (releaseClaims_wp (fun _ h => h) v) hrun hadmits).1
  · intro hname
    obtain ⟨tr, hrun, hhonest, hupdated⟩ := releaseClaims_runs ms (claimNames ms) default
    exact ⟨default, tr, _, _, ⟨_, hrun⟩, hhonest, hupdated name hname, rfl, by simp⟩

/-! ## Every NIC has its own claims -/

/-- Networks of one machine that have the same ID do not both refer to a pool of one family. -/
def NetworksDistinct (ms : MachineScope) : Prop :=
  ∀ (k k' : Nat) (net net' : Network) (f : Family), ms.spec.additionalNetworks[k]? = some net →
    ms.spec.additionalNetworks[k']? = some net' → net.networkID = net'.networkID →
    (poolRefOf net.ipam f).isSome = true → (poolRefOf net'.ipam f).isSome = true → k = k'

/-- No claim serves two NICs of the machines, and no machine's deletion takes the finalizer off a
claim of another one. -/
structure OwnClaims (S : Set MachineScope) : Prop where
  injective : ∀ ms ∈ S, ∀ ms' ∈ S, ∀ i f i' f' name, Uses ms i f name → Uses ms' i' f' name →
    ms = ms' ∧ i = i' ∧ f = f'
  released : ∀ ms ∈ S, ∀ ms' ∈ S, ms ≠ ms' → ∀ name, UsedBy ms name → ¬ ReleasedBy ms' name

theorem Shadows.ne {ms ms' : MachineScope} {net : Network} (h : Shadows ms ms' net) : ms ≠ ms' := by
  rintro rfl
  exact Text.ne_hyphenated _ _ h.2

/-- A network of one machine and the primary NIC of the other are both worked on by the deletion
of either machine. -/
theorem Shadows.claimNames {ms ms' : MachineScope} {net : Network} (h : Shadows ms ms' net)
    (f : Family) : claimName (primaryNIC ms'.name) f ∈ claimNames ms ∧
      claimName (additionalNIC ms.name net.networkID) f ∈ claimNames ms' := by
  have heq : additionalNIC ms.name net.networkID = primaryNIC ms'.name := by
    rw [additionalNIC_eq, ← h.2]
  constructor
  · refine mem_claimNames.mpr ⟨(additionalNIC ms.name net.networkID, net.ipam), ?_, f, ?_⟩
    · exact List.mem_cons_of_mem _ (List.mem_map_of_mem h.1)
    · rw [heq]
  · exact mem_claimNames.mpr ⟨_, List.mem_cons_self .., f, by rw [heq]⟩

/-- Machines with distinct names have claims of their own if no machine has two networks with the
same ID and a pool of the same family, and no machine is called like a network of another one,
unless neither of the two NICs refers to a pool; and only then. -/
theorem claims_own (S : Set MachineScope)
    (hnames : ∀ ms ∈ S, ∀ ms' ∈ S, ms.name = ms'.name → ms = ms')
    (hids : ∀ ms ∈ S, Admitted ms) :
    OwnClaims S ↔ (∀ ms ∈ S, NetworksDistinct ms) ∧
      ∀ ms ∈ S, ∀ ms' ∈ S, ∀ net, Shadows ms ms' net → NoPools net.ipam ∧ NoPools ms'.spec.ipam := by
  constructor
  · intro hown
    refine ⟨?_, ?_⟩
    · intro ms hms k k' net net' f hnet hnet' hid href href'
      have huses : ∀ {k net}, ms.spec.additionalNetworks[k]? = some net →
          (poolRefOf net.ipam f).isSome = true →
          Uses ms (k + 1) f (claimName (additionalNIC ms.name net.networkID) f) := by
        intro k net hnet href
        refine ⟨(additionalNIC ms.name net.networkID, net.ipam), ?_, href, rfl⟩
        show (ms.spec.additionalNetworks.map _)[k]? = _
        rw [List.getElem?_map, hnet]
        rfl
      have h := huses hnet href
      rw [hid] at h
      have heq := (hown.injective ms hms ms hms _ _ _ _ _ h (huses hnet' href')).2.1
      omega
    · intro ms hms ms' hms' net hshadow
      constructor
      · intro f
        by_contra href
        have hused : UsedBy ms (claimName (additionalNIC ms.name net.networkID) f) := by
          obtain ⟨i, hi⟩ := List.mem_iff_getElem?.mp
            (List.mem_cons_of_mem _ (List.mem_map_of_mem hshadow.1) :
              (additionalNIC ms.name net.networkID, net.ipam) ∈ nics ms)
          exact usedBy_iff.mpr ⟨i, f, _, hi, eq_true_of_ne_false href, rfl⟩
        exact hown.released ms hms ms' hms' hshadow.ne _ hused
          (releasedBy_iff.mpr (hshadow.claimNames f).2)
      · intro f
        by_contra href
        have hused : UsedBy ms' (claimName (primaryNIC ms'.name) f) :=
          usedBy_iff.mpr ⟨0, f, (primaryNIC ms'.name, ms'.spec.ipam), rfl, eq_true_of_ne_false href, rfl⟩
        exact hown.released ms' hms' ms hms hshadow.ne.symm _ hused
          (releasedBy_iff.mpr (hshadow.claimNames f).1)
  · rintro ⟨hdistinct, hshadows⟩
    -- a NIC with a pool neither shadows a primary NIC nor is one that is shadowed
    have hshadow : ∀ {ms ms' : MachineScope} {net : Network} {f : Family}, ms ∈ S → ms' ∈ S →
        Shadows ms ms' net → (poolRefOf net.ipam f).isSome = true ∨
          (poolRefOf ms'.spec.ipam f).isSome = true → False := by
      intro ms ms' net f hms hms' h href
      obtain ⟨hnet, hprimary⟩ := hshadows ms hms ms' hms' net h
      rcases href with href | href
      · exact absurd href (by rw [hnet f]; exact Bool.false_ne_true)
      · exact absurd href (by rw [hprimary f]; exact Bool.false_ne_true)
    refine ⟨?_, ?_⟩
    · rintro ms hms ms' hms' i f i' f' name ⟨nic, hnic, href, rfl⟩ ⟨nic', hnic', href', heq⟩
      obtain ⟨hnicName, rfl⟩ := claimName_inj heq
      rcases nics_collide (hids ms hms) (hids ms' hms') hnic hnic' hnicName with
        ⟨hname, ⟨rfl, rfl⟩ | ⟨k, net, k', net', rfl, rfl, hnet, hnet', hpool, hpool', hid⟩⟩ |
          ⟨net, h, hpool, _⟩ | ⟨net, h, hpool', _⟩
      · exact ⟨hnames ms hms ms' hms' hname, rfl, rfl⟩
      · obtain rfl := hnames ms hms ms' hms' hname
        rw [hpool] at href
        rw [hpool'] at href'
        exact ⟨rfl, by rw [hdistinct ms hms k k' net net' f hnet hnet' hid href href'], rfl⟩
      · exact (hshadow hms hms' h (.inl (hpool ▸ href))).elim
      · exact (hshadow hms' hms h (.inl (hpool' ▸ href'))).elim
    · intro ms hms ms' hms' hne name hused hreleased
      obtain ⟨i, f, nic, hnic, href, rfl⟩ := usedBy_iff.mp hused
      obtain ⟨nic', hmem, f', heq⟩ := mem_claimNames.mp (releasedBy_iff.mp hreleased)
      obtain ⟨i', hnic'⟩ := List.mem_iff_getElem?.mp hmem
      obtain ⟨hnicName, rfl⟩ := claimName_inj heq
      rcases nics_collide (hids ms hms) (hids ms' hms') hnic hnic' hnicName with
        ⟨hname, _⟩ | ⟨net, h, hpool, _⟩ | ⟨net, h, _, hpool⟩
      · exact hne (hnames ms hms ms' hms' hname)
      · exact hshadow hms hms' h (.inl (hpool ▸ href))
      · exact hshadow hms' hms h (.inr (hpool ▸ href))

theorem networksDistinct_of_nodup {ms : MachineScope}
    (h : (ms.spec.additionalNetworks.map (·.networkID)).Nodup) : NetworksDistinct ms := by
  intro k k' net net' f hnet hnet' hid _ _
  have hk : (ms.spec.additionalNetworks.map (·.networkID))[k]? = some net.networkID := by
    rw [List.getElem?_map, hnet]
    rfl
  have hk' : (ms.spec.additionalNetworks.map (·.networkID))[k']? = some net.networkID := by
    rw [List.getElem?_map, hnet', hid]
    rfl
  obtain ⟨hlt, _⟩ := List.getElem?_eq_some_iff.mp hk
  exact (List.getElem?_inj hlt h).mp (hk.trans hk'.symm)

/-- An IPv4 pool. -/
def pooled : IPAMConfig := ⟨some ⟨some "ipam.cluster.x-k8s.io", "InClusterIPPool", "pool"⟩, none⟩

/-- A machine all of whose NICs get their IPv4 addresses from the pool. -/
def networked (name : String) (ids : List Int) : MachineScope :=
  { (default : MachineScope) with
    ns := "default"
    name := name
    spec := { (default : MachineSpec) with
      ipam := pooled
      additionalNetworks := ids.map fun id => ⟨id, none, none, pooled⟩ } }

/-- Two machines with networks of the same ID. -/
theorem claims_own_two : OwnClaims {networked "a" [1, 2], networked "b" [1]} := by
  refine (claims_own _ ?_ ?_).mpr ⟨?_, ?_⟩
  · rintro ms (rfl | rfl) ms' (rfl | rfl) h
    · rfl
    · exact absurd h (by decide)
    · exact absurd h (by decide)
    · rfl
  · rintro ms (rfl | rfl)
    · unfold Admitted
      decide
    · unfold Admitted
      decide
  · rintro ms (rfl | rfl)
    · exact networksDistinct_of_nodup (by decide)
    · exact networksDistinct_of_nodup (by decide)
  · -- neither machine is called like a network of the other
    have hnone : ∀ ms ∈ [networked "a" [1, 2], networked "b" [1]],
        ∀ ms' ∈ [networked "a" [1, 2], networked "b" [1]],
        ∀ net ∈ ms.spec.additionalNetworks,
          ms'.name ≠ Text.hyphenated ms.name (toString net.networkID) := by
      decide
    intro ms hms ms' hms' net h
    exact absurd h.2 (hnone ms (by simpa using hms) ms' (by simpa using hms') net h.1)

/-- The machine `a-1` is called like a network of the machine `a`: both use one claim, and the
deletion of either takes the finalizer off it. Two networks with the same ID share a claim as
well. -/
theorem claims_shared :
    (∃ (ms ms' : MachineScope) (name : String), Text.isDNS1123Label ms.name = true ∧
      Text.isDNS1123Label ms'.name = true ∧ ms.ns = ms'.ns ∧ ms.name ≠ ms'.name ∧ Admitted ms ∧
      Admitted ms' ∧ Uses ms 1 .ipv4 name ∧ Uses ms' 0 .ipv4 name ∧ ReleasedBy ms name ∧
      ReleasedBy ms' name) ∧
    ∃ (ms : MachineScope) (name : String), Admitted ms ∧ Uses ms 1 .ipv4 name ∧
      Uses ms 2 .ipv4 name := by
  constructor
  · refine ⟨networked "a" [1], networked "a-1" [], "nic-a-1-ipv4", by decide, by decide, rfl,
      by decide, ?_, ?_, ⟨_, rfl, rfl, ?_⟩, ⟨_, rfl, rfl, ?_⟩, releasedBy_iff.mpr ?_,
      releasedBy_iff.mpr ?_⟩
    · unfold Admitted
      decide
    · unfold Admitted
      decide
    · decide
    · decide
    · decide
    · decide
  · refine ⟨networked "a" [7, 7], "nic-a-7-ipv4", ?_, ⟨_, rfl, rfl, ?_⟩, ⟨_, rfl, rfl, ?_⟩⟩
    · unfold Admitted
      decide
    · decide
    · decide

/-! ## Releasing the claims -/

/-- What a read shows: no claim, or one without the finalizer. -/
def Free : Except Err IPAddressClaim → Prop
  | .error e => e.isK8sNotFound = true
  | .ok claim => machineFinalizer ∉ claim.finalizers

/-- A read that fails other than with not-found, or an update that fails. -/
def FailedClaim : (c : Call) → Call.Ans c → Prop
  | .getIPAddressClaim _ _, .error e => e.isK8sNotFound = false
  | .updateIPAddressClaim _, .error _ => True
  | _, _ => False

/-- A claim without the finalizer. -/
def withoutFinalizer (ms : MachineScope) (claim : IPAddressClaim) : IPAddressClaim :=
  { claim with finalizers := (ms.libs.removeFinalizer claim.finalizers machineFinalizer).1 }

/-- One claim is released in one of these ways. -/
inductive Released (ms : MachineScope) (name : String) :
    List (Event Call Call.Ans) → Option Err → Prop
  | free {a : Except Err IPAddressClaim} : Free a →
      Released ms name [⟨.getIPAddressClaim ms.ns name, a⟩] none
  | unread {e : Err} : e.isK8sNotFound = false →
      Released ms name [⟨.getIPAddressClaim ms.ns name, .error e⟩] (some e)
  | updated {claim : IPAddressClaim} : machineFinalizer ∈ claim.finalizers →
      Released ms name [⟨.getIPAddressClaim ms.ns name, .ok claim⟩,
        ⟨.updateIPAddressClaim (withoutFinalizer ms claim), .ok ()⟩] none
  | failed {claim : IPAddressClaim} {e : Err} : machineFinalizer ∈ claim.finalizers →
      Released ms name [⟨.getIPAddressClaim ms.ns name, .ok claim⟩,
        ⟨.updateIPAddressClaim (withoutFinalizer ms claim), .error e⟩] (some e)

theorem releaseClaim_inv {ms : MachineScope} {name : String} {v v' : MachineVars}
    {tr : List (Event Call Call.Ans)} {r : Res (Option Err)}
    (h : Runs (releaseClaim ms name) v tr r v') :
    v' = v ∧ ∃ err, r = .val err ∧ Released ms name tr err := by
  unfold releaseClaim at h
  obtain ⟨a, tr₁, rfl, h₁⟩ := h.perform_bind_inv
  match a with
  | .error e =>
    dsimp only at h₁
    split at h₁
    next hnone =>
      cases h₁
      exact ⟨rfl, none, rfl, .free hnone⟩
    next hfailed =>
      cases h₁
      exact ⟨rfl, some e, rfl, .unread (by simpa using hfailed)⟩
  | .ok claim =>
    by_cases hheld : machineFinalizer ∈ claim.finalizers
    · dsimp only at h₁
      rw [ms.libs.removeFinalizer_eq, decide_eq_true hheld] at h₁
      obtain ⟨a, tr₂, rfl, h₂⟩ := h₁.perform_bind_inv
      match a with
      | .ok () =>
        cases h₂
        exact ⟨rfl, none, rfl, .updated hheld⟩
      | .error e =>
        cases h₂
        exact ⟨rfl, some e, rfl, .failed hheld⟩
    · dsimp only at h₁
      rw [ms.libs.removeFinalizer_eq, decide_eq_false hheld] at h₁
      cases h₁
      exact ⟨rfl, none, rfl, .free hheld⟩

/-- The claim was seen without the finalizer, or it was taken off. -/
def Cleared (ms : MachineScope) (tr : List (Event Call Call.Ans)) (name : String) : Prop :=
  (∃ ns a, ⟨.getIPAddressClaim ns name, a⟩ ∈ tr ∧ Free a) ∨
    ∃ ns claim, ⟨.getIPAddressClaim ns name, .ok claim⟩ ∈ tr ∧
      ⟨.updateIPAddressClaim (withoutFinalizer ms claim), .ok ()⟩ ∈ tr

theorem Cleared.grow {ms : MachineScope} {tr tr' : List (Event Call Call.Ans)} {name : String}
    (h : Cleared ms tr name) (htr : tr ⊆ tr') : Cleared ms tr' name := by
  rcases h with ⟨ns, a, hread, hfree⟩ | ⟨ns, claim, hread, hupdated⟩
  · exact .inl ⟨ns, a, htr hread, hfree⟩
  · exact .inr ⟨ns, claim, htr hread, htr hupdated⟩

/-- A deletion ends well if every claim is cleared, and with an error if a call fails. -/
theorem releaseClaims_inv {ms : MachineScope} {names : List String} {v v' : MachineVars}
    {tr : List (Event Call Call.Ans)} {r : Res Outcome}
    (h : Runs (releaseClaims ms names) v tr r v') :
    (r = .val (false, none) ∧ ∀ name ∈ names, Cleared ms tr name) ∧
        (∀ e ∈ tr, ¬ FailedClaim e.call e.answer) ∨
      ∃ err, r = .val (true, some err) := by
  induction names generalizing v tr with
  | nil =>
    rw [releaseClaims] at h
    cases h
    exact .inl ⟨⟨rfl, fun _ hn => (nomatch hn)⟩, fun _ he => nomatch he⟩
  | cons name names ih =>
    rw [releaseClaims] at h
    rcases h.bind_inv with ⟨err, v₁, tr₁, tr₂, rfl, h₁, h₂⟩ | ⟨msg, _, h₁⟩
    · obtain ⟨rfl, err', heq, hreleased⟩ := releaseClaim_inv h₁
      cases heq
      cases hreleased with
      | unread _ =>
        cases h₂
        exact .inr ⟨_, rfl⟩
      | failed _ =>
        cases h₂
        exact .inr ⟨_, rfl⟩
      | @free a hfree =>
        refine (ih h₂).imp_left fun ⟨⟨hr, hcleared⟩, hfailed⟩ => ⟨⟨hr, fun n hn => ?_⟩, ?_⟩
        · rcases List.mem_cons.mp hn with rfl | hn
          · exact .inl ⟨_, a, List.mem_cons_self .., hfree⟩
          · exact (hcleared n hn).grow fun e he => List.mem_cons_of_mem _ he
        · intro e he
          rcases List.mem_cons.mp he with rfl | he
          · cases a with
            | error e => exact fun hfailed' => absurd (hfailed'.symm.trans hfree) Bool.false_ne_true
            | ok claim => exact id
          · exact hfailed e he
      | @updated claim hheld =>
        refine (ih h₂).imp_left fun ⟨⟨hr, hcleared⟩, hfailed⟩ => ⟨⟨hr, fun n hn => ?_⟩, ?_⟩
        · rcases List.mem_cons.mp hn with rfl | hn
          · exact .inr ⟨_, claim, List.mem_cons_self ..,
              List.mem_cons_of_mem _ (List.mem_cons_self ..)⟩
          · exact (hcleared n hn).grow
              fun e he => List.mem_cons_of_mem _ (List.mem_cons_of_mem _ he)
        · intro e he
          rcases List.mem_cons.mp he with rfl | he
          · exact id
          · rcases List.mem_cons.mp he with rfl | he
            · exact id
            · exact hfailed e he
    · obtain ⟨_, err, heq, _⟩ := releaseClaim_inv h₁
      exact nomatch heq

/-- The claims in the namespace of a machine, the only one its runs work in. -/
structure ClaimStore where
  get : String → Option IPAddressClaim
  named : ∀ name claim, get name = some claim → claim.name = name

namespace ClaimStore

/-- The claim exists and carries the finalizer. -/
def Holds (w : ClaimStore) (name : String) : Prop :=
  ∃ claim, w.get name = some claim ∧ machineFinalizer ∈ claim.finalizers

/-- The claim was stored; the others are as before. -/
def Stored (w w' : ClaimStore) (claim : IPAddressClaim) : Prop :=
  w'.get claim.name = some claim ∧ ∀ name, name ≠ claim.name → w'.get name = w.get name

/-- What a call does to the claims and what its answer says of them. Reads are current; a call
that fails may have had its effect. -/
def Answers (w w' : ClaimStore) : (c : Call) → Call.Ans c → Prop
  | .getIPAddressClaim _ name, .ok claim => w' = w ∧ w.get name = some claim
  | .getIPAddressClaim _ name, .error e => w' = w ∧ (e.isK8sNotFound = true → w.get name = none)
  | .createOrUpdateIPAddressClaim claim, _ => ∀ name, name ≠ claim.name → w'.get name = w.get name
  | .updateIPAddressClaim claim, .ok () => w.Stored w' claim
  | .updateIPAddressClaim claim, .error _ => w' = w ∨ w.Stored w' claim
  | _, _ => w' = w

/-- What happens to the claims along a trace. Between two calls others may do anything but put the
finalizer on a claim. -/
inductive Evolves : ClaimStore → List (Event Call Call.Ans) → ClaimStore → Prop
  | nil (w : ClaimStore) : Evolves w [] w
  | others {w w₁ w' : ClaimStore} {tr : List (Event Call Call.Ans)} :
      (∀ name, w₁.Holds name → w.Holds name) → Evolves w₁ tr w' → Evolves w tr w'
  | call {w w₁ w' : ClaimStore} {e : Event Call Call.Ans} {tr : List (Event Call Call.Ans)} :
      w.Answers w₁ e.call e.answer → Evolves w₁ tr w' → Evolves w (e :: tr) w'

theorem Evolves.split {w w' : ClaimStore} {tr₁ tr₂ : List (Event Call Call.Ans)}
    {e : Event Call Call.Ans} (h : Evolves w (tr₁ ++ e :: tr₂) w') :
    ∃ w₁ w₂, Answers w₁ w₂ e.call e.answer ∧ Evolves w₂ tr₂ w' := by
  generalize htr : tr₁ ++ e :: tr₂ = tr at h
  induction h generalizing tr₁ with
  | nil => simp at htr
  | others _ _ ih => exact ih htr
  | @call w w₁ w' e' tr hanswer hrest ih =>
    cases tr₁ with
    | nil =>
      cases htr
      exact ⟨w, w₁, hanswer, hrest⟩
    | cons e'' tr₁ =>
      obtain ⟨rfl, htr'⟩ := List.cons.inj htr
      exact ih htr'

/-- The claims that are read are the ones asked for. -/
theorem Evolves.honest {w w' : ClaimStore} {tr : List (Event Call Call.Ans)} (h : Evolves w tr w') :
    ∀ e ∈ tr, HonestClaim e.call e.answer := by
  intro e he
  obtain ⟨tr₁, tr₂, rfl⟩ := List.append_of_mem he
  obtain ⟨w₁, w₂, hanswer, _⟩ := h.split
  obtain ⟨c, a⟩ := e
  cases c with
  | getIPAddressClaim ns name =>
    cases a with
    | ok claim => exact w₁.named name claim hanswer.2
    | error e => trivial
  | _ => trivial

/-- A call that puts the finalizer on no claim. -/
def Harmless : Call → Prop
  | .updateIPAddressClaim claim => machineFinalizer ∉ claim.finalizers
  | .createOrUpdateIPAddressClaim _ => False
  | _ => True

theorem Stored.harmless {w w' : ClaimStore} {claim : IPAddressClaim} (h : w.Stored w' claim)
    (hclaim : machineFinalizer ∉ claim.finalizers) {name : String} (hholds : w'.Holds name) :
    w.Holds name := by
  obtain ⟨claim', hget, hheld⟩ := hholds
  by_cases hname : name = claim.name
  · rw [hname, h.1] at hget
    cases hget
    exact absurd hheld hclaim
  · rw [h.2 name hname] at hget
    exact ⟨claim', hget, hheld⟩

theorem Answers.harmless {w w' : ClaimStore} {c : Call} {a : Call.Ans c} (h : w.Answers w' c a)
    (hc : Harmless c) {name : String} (hholds : w'.Holds name) : w.Holds name := by
  cases c with
  | getIPAddressClaim ns n =>
    cases a with
    | ok claim => exact h.1 ▸ hholds
    | error e => exact h.1 ▸ hholds
  | updateIPAddressClaim claim =>
    cases a with
    | ok _ => exact Stored.harmless h hc hholds
    | error e =>
      rcases h with rfl | h
      · exact hholds
      · exact h.harmless hc hholds
  | createOrUpdateIPAddressClaim claim => exact False.elim hc
  | _ =>
    obtain rfl : w' = w := h
    exact hholds

theorem Evolves.harmless {w w' : ClaimStore} {tr : List (Event Call Call.Ans)}
    (h : Evolves w tr w') (htr : ∀ e ∈ tr, Harmless e.call) {name : String}
    (hholds : w'.Holds name) : w.Holds name := by
  induction h with
  | nil => exact hholds
  | others hothers _ ih => exact hothers name (ih htr hholds)
  | call hanswer _ ih =>
    exact hanswer.harmless (htr _ (List.mem_cons_self ..))
      (ih (fun e he => htr e (List.mem_cons_of_mem _ he)) hholds)

/-- A claim that was cleared does not carry the finalizer in the end. -/
theorem Evolves.cleared {ms : MachineScope} {w w' : ClaimStore} {tr : List (Event Call Call.Ans)}
    (h : Evolves w tr w') (htr : ∀ e ∈ tr, Harmless e.call) {name : String}
    (hcleared : Cleared ms tr name) : ¬ w'.Holds name := by
  rcases hcleared with ⟨ns, a, hread, hfree⟩ | ⟨ns, claim, hread, hupdated⟩
  · obtain ⟨tr₁, tr₂, rfl⟩ := List.append_of_mem hread
    obtain ⟨w₁, w₂, hanswer, hrest⟩ := h.split
    intro hholds
    obtain ⟨claim', hget, hheld⟩ := hrest.harmless
      (fun e he => htr e (List.mem_append_right _ (List.mem_cons_of_mem _ he))) hholds
    cases a with
    | ok claim =>
      obtain ⟨rfl, hread⟩ := hanswer
      rw [hread] at hget
      cases hget
      exact hfree hheld
    | error e =>
      obtain ⟨rfl, hread⟩ := hanswer
      rw [hread hfree] at hget
      exact nomatch hget
  · obtain rfl : claim.name = name := h.honest _ hread
    obtain ⟨tr₁, tr₂, rfl⟩ := List.append_of_mem hupdated
    obtain ⟨w₁, w₂, hanswer, hrest⟩ := h.split
    intro hholds
    obtain ⟨claim', hget, hheld⟩ := hrest.harmless
      (fun e he => htr e (List.mem_append_right _ (List.mem_cons_of_mem _ he))) hholds
    have hstored : w₂.get claim.name = some (withoutFinalizer ms claim) := hanswer.1
    rw [hstored] at hget
    cases hget
    exact ms.libs.notMem_removeFinalizer _ _ hheld

end ClaimStore

/-- A run of `ReconcileIPAddresses` for the machine, under a spec all of whose network IDs still
occur. It may have ended in any way, or been cut off. -/
structure EarlierRun (ms : MachineScope) where
  scope : MachineScope
  vars : MachineVars
  trace : List (Event Call Call.Ans)
  ns : scope.ns = ms.ns
  name : scope.name = ms.name
  networks : ∀ net ∈ scope.spec.additionalNetworks,
    ∃ net' ∈ ms.spec.additionalNetworks, net'.networkID = net.networkID
  runs : Prefix (reconcileIPAddresses scope) vars trace

/-- The deletion goes through every claim an earlier run created. -/
theorem EarlierRun.claimNames {ms : MachineScope} (run : EarlierRun ms) {claim : DesiredClaim}
    {a : Except Err Unit} (h : ⟨.createOrUpdateIPAddressClaim claim, a⟩ ∈ run.trace) :
    claim.name ∈ claimNames ms := by
  obtain ⟨_, i, f, nic, hnic, _, hname⟩ := within_claimCalls.calls run.runs _ h
  rw [hname]
  rcases nics_cases hnic with ⟨_, rfl⟩ | ⟨k, net, _, hnet, rfl⟩
  · exact mem_claimNames.mpr ⟨_, List.mem_cons_self .., f, by rw [run.name]⟩
  · obtain ⟨net', hnet', hid⟩ := run.networks net (List.mem_of_getElem? hnet)
    exact mem_claimNames.mpr ⟨_, List.mem_cons_of_mem _ (List.mem_map_of_mem hnet'), f,
      by rw [run.name, hid]⟩

/-- Calls that are not about claims cannot be the ones that fail. -/
theorem not_failedClaim {E : Call → Prop} (hget : ∀ ns name, ¬ E (.getIPAddressClaim ns name))
    (hupdate : ∀ claim, ¬ E (.updateIPAddressClaim claim)) {e : Event Call Call.Ans} (he : E e.call) :
    ¬ FailedClaim e.call e.answer := by
  obtain ⟨c, a⟩ := e
  cases c with
  | getIPAddressClaim ns name => exact absurd he (hget ns name)
  | updateIPAddressClaim claim => exact absurd he (hupdate claim)
  | _ => exact id

/-- When all steps of the deletion are done, no call about a claim has failed. -/
theorem deleteSequence_claims {ms : MachineScope} {v v' : MachineVars}
    {tr : List (Event Call Call.Ans)} (h : StepsDone (deleteSequence ms) v tr v') :
    ∀ e ∈ tr, ¬ FailedClaim e.call e.answer := by
  have hframe := finalizers_frame
  unfold deleteSequence at h
  cases h with
  | cons hfailover h =>
  cases h with
  | cons hserver h =>
  cases h with
  | cons hlan h =>
  cases h with
  | cons hblock h =>
  cases h with
  | cons hclaims h =>
  cases h
  simp only [List.mem_append, List.append_nil]
  rintro e (he | he | he | he | he)
  · exact not_failedClaim (fun _ _ => id) (fun _ => id)
      ((Cloud.within_reconcileIPFailoverDeletion hframe).calls ⟨_, hfailover⟩ e he)
  · exact not_failedClaim (fun _ _ => id) (fun _ => id)
      ((Cloud.within_reconcileServerDeletion hframe.currentRequest hframe.providerID).calls
        ⟨_, hserver⟩ e he)
  · exact not_failedClaim (fun _ _ => id) (fun _ => id)
      ((Cloud.within_reconcileLANDeletion hframe.cluster).calls ⟨_, hlan⟩ e he)
  · exact not_failedClaim (fun _ _ => id) (fun _ => id)
      ((Cloud.within_reconcileFailoverIPBlockDeletion hframe).calls ⟨_, hblock⟩ e he)
  · rcases releaseClaims_inv hclaims with ⟨_, hnone⟩ | ⟨err, herr⟩
    · exact hnone e he
    · exact nomatch herr

/-- A deletion that ends well leaves no claim with the finalizer that an earlier run created. A
call about a claim that fails makes it end with an error, and the machine keeps its finalizer. -/
theorem claims_released (ms : MachineScope) :
    (∀ (runs : List (EarlierRun ms)) (v v' : MachineVars) (tr : List (Event Call Call.Ans))
      (w w' : ClaimStore), Runs (reconcileIPAddressClaimsDeletion ms) v tr (.val (false, none)) v' →
      w.Evolves tr w' → ∀ run ∈ runs, ∀ claim a,
        ⟨.createOrUpdateIPAddressClaim claim, a⟩ ∈ run.trace → ¬ w'.Holds claim.name) ∧
    (∀ (v v' : MachineVars) (tr : List (Event Call Call.Ans)) (r : Res Outcome),
      Runs (reconcileIPAddressClaimsDeletion ms) v tr r v' →
      (∃ e ∈ tr, FailedClaim e.call e.answer) → ∃ err, r = .val (true, some err)) ∧
    (∀ (v v' : MachineVars) (tr : List (Event Call Call.Ans)) (r : Res (Result × Option Err)),
      Runs (reconcileDelete ms) v tr r v' → (∃ e ∈ tr, FailedClaim e.call e.answer) →
      v'.finalizers = v.finalizers) := by
  refine ⟨?_, ?_, ?_⟩
  · intro runs v v' tr w w' hrun hevolves run _ claim a hcreated
    obtain ⟨⟨_, hcleared⟩, _⟩ := (releaseClaims_inv hrun).resolve_right fun ⟨_, h⟩ => nomatch h
    refine hevolves.cleared ?_ (hcleared _ (run.claimNames hcreated))
    intro e he
    obtain ⟨tr₁, tr₂, rfl⟩ := List.append_of_mem he
    have hadmits := Monitor.admits_of_forall (M := releaseMonitor (claimNames ms))
      (fun e he _ => hevolves.honest e (List.mem_append_left _ he)) ()
    have hok := wp_call_ok (releaseClaims_wp (fun _ h => h) v) ⟨_, hrun⟩ hadmits
    obtain ⟨c, a⟩ := e
    cases c with
    | updateIPAddressClaim claim => exact hok.2
    | createOrUpdateIPAddressClaim claim => exact hok
    | _ => trivial
  · rintro v v' tr r hrun ⟨e, he, hfailed⟩
    rcases releaseClaims_inv hrun with ⟨_, hnone⟩ | herr
    · exact absurd hfailed (hnone e he)
    · exact herr
  · rintro v v' tr r hrun ⟨e, he, hfailed⟩
    by_contra hne
    obtain ⟨a, v₁, v₂, tr₁, tr₂, rfl, _, hcheck, hsteps, _⟩ := reconcileDelete_inv hrun hne
    rcases List.mem_append.mp he with he | he
    · have hwithin : Within CheckingRequests (fun _ => ()) (checkRequestStates ms) :=
        within_checkRequestStates (fun _ _ _ => rfl) fun _ _ => rfl
      exact not_failedClaim (fun _ _ => id) (fun _ => id) (hwithin.calls ⟨_, hcheck⟩ e he) hfailed
    · exact deleteSequence_claims hsteps e he hfailed

/-- The claims of a namespace with a single one. -/
def ClaimStore.single (claim : IPAddressClaim) : ClaimStore where
  get name := if name = claim.name then some claim else none
  named name claim' h := by
    split at h
    next hname =>
      cases h
      exact hname.symm
    next => exact nomatch h

/-- A run creates the claim of the primary NIC, and the deletion releases it. -/
theorem claims_released_run :
    ∃ (ms : MachineScope) (run : EarlierRun ms) (claim : DesiredClaim) (v v' : MachineVars)
      (tr : List (Event Call Call.Ans)) (w w' : ClaimStore),
      ⟨.createOrUpdateIPAddressClaim claim, .ok ()⟩ ∈ run.trace ∧
      Runs (reconcileIPAddressClaimsDeletion ms) v tr (.val (false, none)) v' ∧ w.Evolves tr w' ∧
      w.Holds claim.name ∧ ¬ w'.Holds claim.name := by
  let ms := networked "a" []
  let missing : Err := .k8sNotFound "not found"
  let desired : DesiredClaim := ⟨"default", "nic-a-ipv4", "",
    ⟨some "ipam.cluster.x-k8s.io", "InClusterIPPool", "pool"⟩, [machineFinalizer], "a"⟩
  let run : EarlierRun ms := ⟨ms, default, [⟨.getIPAddressClaim "default" "nic-a-ipv4", .error missing⟩,
    ⟨.getIPAddressClaim "default" "nic-a-ipv4", .error missing⟩,
    ⟨.createOrUpdateIPAddressClaim desired, .ok ()⟩], rfl, rfl, fun _ h => (nomatch h),
    ⟨_, .step (.step (.step (.refl _)))⟩⟩
  let claim : IPAddressClaim := ⟨"default", "nic-a-ipv4", [machineFinalizer], ""⟩
  let tr : List (Event Call Call.Ans) := [⟨.getIPAddressClaim "default" "nic-a-ipv4", .ok claim⟩,
    ⟨.updateIPAddressClaim (withoutFinalizer ms claim), .ok ()⟩,
    ⟨.getIPAddressClaim "default" "nic-a-ipv6", .error missing⟩]
  have hrun : Runs (reconcileIPAddressClaimsDeletion ms) default tr (.val (false, none)) default :=
    .step (.step (.step (.refl _)))
  have hevolves : (ClaimStore.single claim).Evolves tr (.single (withoutFinalizer ms claim)) := by
    refine .call ⟨rfl, rfl⟩ (.call ⟨rfl, ?_⟩ (.call ⟨rfl, fun _ => rfl⟩ (.nil _)))
    intro name hname
    have hne : name ≠ claim.name := hname
    show (if name = claim.name then _ else none) = if name = claim.name then _ else none
    rw [if_neg hne, if_neg hne]
  have hcreated : ⟨.createOrUpdateIPAddressClaim desired, .ok ()⟩ ∈ run.trace :=
    List.mem_cons_of_mem _ (List.mem_cons_of_mem _ (List.mem_cons_self ..))
  exact ⟨ms, run, desired, default, default, tr, _, _, hcreated, hrun, hevolves,
    ⟨claim, rfl, List.mem_cons_self ..⟩,
    (claims_released ms).1 [run] _ _ _ _ _ hrun hevolves run (List.mem_cons_self ..) _ _ hcreated⟩

end Capic.Properties
