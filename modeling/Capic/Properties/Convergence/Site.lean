import Capic.Controller.Frame
import Capic.Effect.Rounds
import Capic.Properties.GroupEdits

/-!
# What a machine needs, and a world that provides it

The abstract side of the machine controller's purpose. A `Site` says how far each thing is
that a machine needs: the LAN, the address claims, the server and its virtual machine, the
failover IP block, the failover IP on the NIC and in the LAN's failover group. `Advance` is
what a run may do to a site, the first thing that is missing; `Site.left` counts what is
left, and drops with every `Advance` from a site at which nothing is under way.

`Place.monitor` is the world the runs are about: a cloud and an API server that accept
every change, show what is there, and carry out a request at some time after it was
accepted. The answers are as free as that allows: lists may hold resources of others in any
order, and what is under way may be shown or not.
-/

namespace Capic.Properties.Convergence

open Effect Effect.Go Cloud Controller K8s

/-! ## Sites -/

/-- How far something is that the machine needs. -/
inductive Progress where
  | absent | coming | there
  deriving DecidableEq

/-- The steps that are left: to be asked for, and to arrive. -/
def Progress.left : Progress → Nat
  | absent => 2
  | coming => 1
  | there => 0

/-- What was under way may have arrived. -/
def Progress.Arrives (p p' : Progress) : Prop := p' = p ∨ p = .coming ∧ p' = .there

theorem Progress.Arrives.le {p p' : Progress} (h : p.Arrives p') : p'.left ≤ p.left := by
  rcases h with rfl | ⟨rfl, rfl⟩ <;> simp [left]

theorem Progress.Arrives.stays {p p' : Progress} (h : p.Arrives p') (hthere : p = .there) :
    p' = .there := by
  rcases h with rfl | ⟨rfl, -⟩
  · exact hthere
  · cases hthere

theorem Progress.Arrives.coming {p p' : Progress} (h : p.Arrives p') (hcoming : p' = .coming) :
    p = .coming := by
  rcases h with rfl | ⟨-, rfl⟩
  · exact hcoming
  · cases hcoming

/-- What was under way has arrived. -/
def Progress.settle : Progress → Progress
  | absent => absent
  | coming | there => there

theorem Progress.arrives_settle (p : Progress) : p.Arrives p.settle := by
  cases p with
  | absent => exact .inl rfl
  | coming => exact .inr ⟨rfl, rfl⟩
  | there => exact .inl rfl

theorem Progress.settle_ne_coming (p : Progress) : p.settle ≠ .coming := by
  cases p <;> decide

/-- What there is for a machine. -/
structure Site where
  lan : Progress
  /-- The address claims, by name; a claim is there once it has an address. -/
  claims : String → Progress
  server : Progress
  /-- The virtual machine of the server, running. -/
  vm : Progress
  /-- The IP block for a failover IP that is chosen automatically. -/
  block : Progress
  /-- The IPs of the primary NIC. -/
  nicIPs : List String
  /-- The failover group of the LAN. -/
  group : List IPFailover
  /-- The URL of the request in flight, if there is one. -/
  request : String

namespace Site

/-- A request is in flight. -/
def InFlight (site : Site) : Prop :=
  site.lan = .coming ∨ site.server = .coming ∨ site.vm = .coming ∨ site.block = .coming

instance (site : Site) : Decidable site.InFlight := inferInstanceAs (Decidable (_ ∨ _ ∨ _ ∨ _))

/-- Ask for a claim. -/
def claim (site : Site) (name : String) : Site :=
  { site with claims := fun n => if n = name ∧ site.claims n = .absent then .coming else site.claims n }

/-- Between two runs: what was under way may have arrived. A virtual machine may also start
without being asked, as it does when its server has been created. -/
structure Arrives (site site' : Site) : Prop where
  lan : site.lan.Arrives site'.lan
  claims : ∀ name, (site.claims name).Arrives (site'.claims name)
  server : site.server.Arrives site'.server
  vm : site.vm.Arrives site'.vm ∨ site'.vm = .there
  block : site.block.Arrives site'.block
  nicIPs : site'.nicIPs = site.nicIPs
  group : site'.group = site.group
  request : site'.request = site.request

theorem Arrives.vm_coming {site site' : Site} (h : site.Arrives site') (h' : site'.vm = .coming) :
    site.vm = .coming := by
  rcases h.vm with hvm | hvm
  · exact hvm.coming h'
  · cases hvm.symm.trans h'

theorem Arrives.inFlight {site site' : Site} (h : site.Arrives site') (h' : site'.InFlight) :
    site.InFlight := by
  rcases h' with h' | h' | h' | h'
  · exact .inl (h.lan.coming h')
  · exact .inr (.inl (h.server.coming h'))
  · exact .inr (.inr (.inl (h.vm_coming h')))
  · exact .inr (.inr (.inr (h.block.coming h')))

/-- Everything that was under way has arrived. -/
def settle (site : Site) : Site :=
  { site with
    lan := site.lan.settle
    claims := fun name => (site.claims name).settle
    server := site.server.settle
    vm := site.vm.settle
    block := site.block.settle }

theorem arrives_settle (site : Site) : site.Arrives site.settle where
  lan := site.lan.arrives_settle
  claims name := (site.claims name).arrives_settle
  server := site.server.arrives_settle
  vm := .inl site.vm.arrives_settle
  block := site.block.arrives_settle
  nicIPs := rfl
  group := rfl
  request := rfl

end Site

/-! ## Places -/

/-- The request came to an end, and can be read. -/
structure Finished (req : Request) : Prop where
  status : req.status = .done ∨ req.status = .failed
  url : req.url ≠ none
  href : req.href ≠ none
  body : ∃ properties, req.body = .ok properties

/-- What stays the same about a machine that is to be created: the machine is wanted and
described well enough, and the IDs its resources have or will get. -/
structure Place (ms : MachineScope) where
  lanID : String
  serverID : String
  nicID : String
  location : String
  failoverIP : String
  /-- The images the cloud offers, and their labels. -/
  images : String → Image
  labels : List Label
  live : ms.deleted = false
  infrastructure : ms.clusterScope.infrastructureProvisioned = some true
  bootstrap : ∃ name, ms.dataSecretName = some name ∧ name ≠ ""
  owned : ∀ refs, ∃ refs',
    ms.libs.setOwnerReference refs (ownerReference ms.clusterScope) = .ok refs'
  datacenter : Text.isClean ms.datacenterID
  pools : ∀ nic ∈ nics ms, ∀ family ref, poolRefOf nic.2 family = some ref → ref.apiGroup ≠ none
  network : ∀ id, ms.spec.networkID = some id → id = lanID
  failover : ms.isControlPlane = false → ∀ ip, ms.spec.failoverIP = some ip →
    ip ≠ "" ∧ (ip ≠ cloudResourceConfigAuto → ip = failoverIP)
  lanClean : Text.isClean lanID
  lanNumber : ∃ n, Text.parseInt32 lanID = .ok n
  serverClean : Text.isClean serverID
  serverValid : ms.uuidValidate serverID = none
  nicClean : Text.isClean nicID
  locationGiven : location ≠ ""

/-- The claims of a NIC: one for each pool that it refers to. -/
def claimsOf (nic : String × IPAMConfig) : List String :=
  [Family.ipv4, Family.ipv6].filterMap fun family =>
    (poolRefOf nic.2 family).map fun _ => claimName nic.1 family

/-- The claims of the machine. -/
def wantedClaims (ms : MachineScope) : List String := (nics ms).flatMap claimsOf

/-- The steps that are left for some claims. -/
def claimsLeft (claims : String → Progress) : List String → Nat
  | [] => 0
  | name :: names => (claims name).left + claimsLeft claims names

theorem claimsLeft_le {claims claims' : String → Progress} {names : List String}
    (h : ∀ name ∈ names, (claims' name).left ≤ (claims name).left) :
    claimsLeft claims' names ≤ claimsLeft claims names := by
  induction names with
  | nil => exact Nat.le_refl _
  | cons name names ih =>
    obtain ⟨hname, hnames⟩ := List.forall_mem_cons.mp h
    exact Nat.add_le_add hname (ih hnames)

theorem claimsLeft_lt {claims claims' : String → Progress} {names : List String}
    (h : ∀ name ∈ names, (claims' name).left ≤ (claims name).left)
    (hlt : ∃ name ∈ names, (claims' name).left < (claims name).left) :
    claimsLeft claims' names < claimsLeft claims names := by
  induction names with
  | nil =>
    obtain ⟨name, hname, -⟩ := hlt
    cases hname
  | cons name names ih =>
    obtain ⟨hname, hnames⟩ := List.forall_mem_cons.mp h
    obtain ⟨n, hn, hlt⟩ := hlt
    rcases List.mem_cons.mp hn with rfl | hn
    · exact Nat.add_lt_add_of_lt_of_le hlt (claimsLeft_le hnames)
    · exact Nat.add_lt_add_of_le_of_lt hname (ih hnames ⟨n, hn, hlt⟩)

/-- The failover IP comes from a block of its own. -/
def auto (ms : MachineScope) : Prop :=
  ms.isControlPlane = false ∧ ms.spec.failoverIP = some cloudResourceConfigAuto

instance (ms : MachineScope) : Decidable (auto ms) := inferInstanceAs (Decidable (_ ∧ _))

namespace Place

variable {ms : MachineScope} (P : Place ms)

/-- The machine's addresses are there. -/
def Addressed (_P : Place ms) (site : Site) : Prop := ∀ name ∈ wantedClaims ms, site.claims name = .there

/-- Everything in front of the failover is there. -/
structure Serves (site : Site) : Prop where
  lan : site.lan = .there
  claims : P.Addressed site
  server : site.server = .there
  vm : site.vm = .there

/-- The failover IP is in the group, as far as the machine is concerned. -/
def Joined (site : Site) : Prop := joinGroup P.nicID P.failoverIP site.group = none

/-- Nothing is missing. -/
structure Complete (site : Site) : Prop where
  serves : P.Serves site
  idle : ¬ site.InFlight
  block : auto ms → site.block = .there
  nic : ms.failoverRequired = true → P.failoverIP ∈ site.nicIPs
  joined : ms.failoverRequired = true → P.Joined site

/-- What a run does to a site: it asks for what is missing first. -/
inductive Advance (site : Site) : Site → Prop
  | lan (path : String) : site.lan = .absent →
      Advance site { site with lan := .coming, request := path }
  | claims : site.lan = .there → ¬ P.Addressed site →
      Advance site ((wantedClaims ms).foldl Site.claim site)
  | server (path : String) : site.lan = .there → P.Addressed site → site.server = .absent →
      Advance site { site with server := .coming, request := path }
  | vm (path : String) : site.lan = .there → P.Addressed site → site.server = .there →
      site.vm = .absent → Advance site { site with vm := .coming, request := path }
  | block (path : String) : P.Serves site → auto ms → site.block = .absent →
      Advance site { site with block := .coming, request := path }
  | group (ips : List String) (config : List IPFailover) : P.Serves site →
      ms.failoverRequired = true → (auto ms → site.block = .there) → P.failoverIP ∈ ips →
      (ips = site.nicIPs ∨ P.failoverIP ∉ site.nicIPs) →
      joinGroup P.nicID P.failoverIP site.group = some config →
      Advance site { site with nicIPs := ips, group := config }

/-- The last run: nothing, or the failover IP on the NIC, was missing. -/
def Completes (site site' : Site) : Prop :=
  P.Complete site' ∧ (site' = site ∨ P.failoverIP ∉ site.nicIPs ∧ ms.failoverRequired = true ∧
    site' = { site with nicIPs := site.nicIPs ++ [P.failoverIP] })

/-! ### What is left -/

/-- The steps that are left at a site. -/
def left (site : Site) : Nat :=
  site.lan.left + claimsLeft site.claims (wantedClaims ms) + site.server.left + site.vm.left +
    (if auto ms then site.block.left else 0) +
    (if joinGroup P.nicID P.failoverIP site.group = none then 0 else 1)

/-- Nothing is under way. -/
def Settled (_P : Place ms) (site : Site) : Prop :=
  ¬ site.InFlight ∧ ∀ name ∈ wantedClaims ms, site.claims name ≠ .coming

variable {P} {site site' : Site}

theorem settled_settle (site : Site) : P.Settled site.settle := by
  refine ⟨?_, fun name _ => (site.claims name).settle_ne_coming⟩
  rintro (h | h | h | h)
  · exact site.lan.settle_ne_coming h
  · exact site.server.settle_ne_coming h
  · exact site.vm.settle_ne_coming h
  · exact site.block.settle_ne_coming h

/-- Asking for claims changes nothing but them. -/
theorem foldl_claim (names : List String) (site : Site) :
    names.foldl Site.claim site = { site with
      claims := fun n => if n ∈ names ∧ site.claims n = .absent then .coming else site.claims n } := by
  induction names generalizing site with
  | nil => simp
  | cons name names ih =>
    rw [List.foldl_cons, ih]
    unfold Site.claim
    congr 1
    funext n
    by_cases hn : n = name
    · subst hn
      by_cases habsent : site.claims n = .absent <;> simp [habsent]
    · simp [hn]

/-- What a run asks for is then no longer left. Only where something is under way there may be
nothing to ask for. -/
theorem Advance.left_lt (h : P.Advance site site') :
    P.left site' < P.left site ∨ ¬ P.Settled site ∧ P.left site' ≤ P.left site := by
  cases h with
  | lan path habsent => simp [left, habsent, Progress.left]
  | claims hlan hmissing =>
    have hle : ∀ name ∈ wantedClaims ms, (if name ∈ wantedClaims ms ∧ site.claims name = .absent
        then .coming else site.claims name).left ≤ (site.claims name).left := by
      intro name _
      split
      next h => simp [h.2, Progress.left]
      next => exact Nat.le_refl _
    have hclaims := claimsLeft_le hle
    rw [foldl_claim]
    unfold left
    dsimp only
    by_cases habsent : ∃ name ∈ wantedClaims ms, site.claims name = .absent
    · obtain ⟨name, hname, habsent⟩ := habsent
      have hdrop := claimsLeft_lt hle ⟨name, hname, by simp [hname, habsent, Progress.left]⟩
      left
      omega
    · refine .inr ⟨fun hsettled => hmissing fun name hname => ?_, by omega⟩
      -- neither absent nor under way
      cases hclaim : site.claims name with
      | absent => exact absurd ⟨name, hname, hclaim⟩ habsent
      | coming => exact absurd hclaim (hsettled.2 name hname)
      | there => rfl
  | server path hlan hclaims habsent => simp [left, habsent, Progress.left]
  | vm path hlan hclaims hserver habsent => simp [left, habsent, Progress.left]
  | block path hserves hauto habsent => simp [left, habsent, hauto, Progress.left]
  | group ips config hserves hrequired hblock hip hips hjoin =>
    have hsettled := joinGroup_settled hjoin
    simp [left, hsettled, hjoin]

/-- What arrives is no longer left. -/
theorem left_arrives (h : site.Arrives site') : P.left site' ≤ P.left site := by
  have hclaims : claimsLeft site'.claims (wantedClaims ms) ≤
      claimsLeft site.claims (wantedClaims ms) :=
    claimsLeft_le fun name _ => (h.claims name).le
  have hlan := h.lan.le
  have hserver := h.server.le
  have hvm : site'.vm.left ≤ site.vm.left := by
    rcases h.vm with hvm | hvm
    · exact hvm.le
    · simp [hvm, Progress.left]
  have hblock := h.block.le
  unfold left
  rw [h.group]
  split <;> omega

/-- What is complete stays so while things arrive. -/
theorem Complete.arrives (hsite : P.Complete site) (h : site.Arrives site') : P.Complete site' where
  serves :=
    { lan := h.lan.stays hsite.serves.lan
      claims := fun name hname => (h.claims name).stays (hsite.serves.claims name hname)
      server := h.server.stays hsite.serves.server
      vm := h.vm.elim (fun hvm => hvm.stays hsite.serves.vm) id }
  idle hflight := hsite.idle (h.inFlight hflight)
  block hauto := h.block.stays (hsite.block hauto)
  nic hrequired := by
    rw [h.nicIPs]
    exact hsite.nic hrequired
  joined hrequired := by
    unfold Joined
    rw [h.group]
    exact hsite.joined hrequired

end Place

end Capic.Properties.Convergence
