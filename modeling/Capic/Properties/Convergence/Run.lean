import Capic.Properties.Convergence.World

/-!
# A run at a site

One lemma for each step of `reconcileNormal`, in the world of `Place.monitor`: the step finds what
it is about and goes on, or it asks for what is missing and the run is over until that has
arrived (`Goes`). A run at a site at which a request is in flight only asks for the request
(`wp_checkRequestStates_flying`). No run ends with an error, or in a panic.
-/

namespace Capic.Properties.Convergence

open Effect Effect.Go Cloud Controller K8s

namespace Place

variable {ms : MachineScope}

section

variable (P : Place ms)

/-- The variables between two runs: the request in flight is where the next run looks for it. -/
structure Sound (site : Site) (v : MachineVars) : Prop where
  fits : P.Fits v
  network : ms.spec.networkID ≠ none → site.lan = .there
  datacenter : site.lan = .coming → v.currentRequest = none ∧ ∃ method status,
    v.cluster.currentRequestByDatacenter ms.datacenterID = some ⟨method, site.request, status⟩
  own : site.server = .coming ∨ site.vm = .coming ∨ site.block = .coming → ∃ method status,
    v.currentRequest = some ⟨method, site.request, status⟩
  datacenterPath : ∀ req, v.cluster.currentRequestByDatacenter ms.datacenterID = some req →
    req.requestPath ≠ ""
  ownPath : ∀ req, v.currentRequest = some req → req.requestPath ≠ ""

/-- The variables once no request is in flight. -/
structure Calm (site : Site) (v : MachineVars) : Prop where
  fits : P.Fits v
  network : ms.spec.networkID ≠ none → site.lan = .there
  idle : ¬ site.InFlight
  datacenter : v.cluster.currentRequestByDatacenter ms.datacenterID = none
  own : v.currentRequest = none

/-- A step goes on, or it asked for something. -/
def Goes (site : Site) (Next : Site → MachineVars → Prop) (site' : Site) (r : Outcome)
    (v' : MachineVars) : Prop :=
  r = (false, none) ∧ Next site' v' ∨ r = (true, none) ∧ P.Advance site site' ∧ P.Sound site' v'

end

variable {P : Place ms} {site : Site} {v v' : MachineVars}

theorem Calm.kept (h : P.Calm site v) (hkept : P.Kept v v') : P.Calm site v' where
  fits := hkept.fits
  network := h.network
  idle := h.idle
  datacenter := by
    rw [hkept.cluster]
    exact h.datacenter
  own := hkept.currentRequest.trans h.own

/-- A site at which no more than claims are under way. -/
theorem Calm.sound {site' : Site} (h : P.Calm site v) (hlan : site'.lan = site.lan)
    (hserver : site'.server = site.server) (hvm : site'.vm = site.vm)
    (hblock : site'.block = site.block) (hfits : P.Fits v')
    (hown : v'.currentRequest = none) (hcluster : v'.cluster = v.cluster) : P.Sound site' v' where
  fits := hfits
  network hne := hlan.trans (h.network hne)
  datacenter hcoming := absurd (.inl (hlan ▸ hcoming)) h.idle
  own hcoming := by
    rw [hserver, hvm, hblock] at hcoming
    exact absurd (.inr hcoming) h.idle
  datacenterPath req hreq := by
    rw [hcluster, h.datacenter] at hreq
    cases hreq
  ownPath req hreq := by
    rw [hown] at hreq
    cases hreq

/-! ## The request in flight -/

section

variable {β : Type}

/-- A call that asks for something that is missing. -/
theorem wp_order {σ : Type} {s : σ} {Q : Site → β → σ → Prop} {c : Call}
    {k : Call.Ans c → Go Call Call.Ans σ β} (hmissing : ¬ P.Complete site)
    (h : ∀ a, P.Answers site c a → (k a).wp P.monitor Q (P.moved site c a) s) :
    (perform c >>= k).wp P.monitor Q site s := by
  rw [wp_bind, wp_perform]
  exact ⟨fun hcomplete => absurd hcomplete hmissing, h⟩

theorem wp_underRequestLock {cs : ClusterScope} {c : ClusterVars} {body : ClusterM β}
    {Q : Site → β → ClusterVars → Prop} (h : body.wp P.monitor Q site c) :
    (cs.underRequestLock body).wp P.monitor Q site c := by
  unfold ClusterScope.underRequestLock
  refine wp_read rfl (fun _ => rfl) fun _ _ => ?_
  refine wp_deferring (fun _ hpanic => hpanic.elim) ?_
  exact wp_mono h fun _ _ _ hQ => ⟨fun _ => rfl, fun _ _ => hQ⟩

theorem wp_patchCluster : (onCluster ClusterScope.patchObject).wp P.monitor (fun site' r v' =>
    r = none ∧ site' = site ∧ v' = v) site v := by
  unfold onCluster ClusterScope.patchObject
  rw [wp_zoom, wp_bind, wp_vars]
  refine wp_read rfl (fun _ => rfl) fun a ha => ?_
  obtain rfl : a = .ok () := ha
  exact (wp_pure _).mpr ⟨rfl, rfl, rfl⟩

theorem wp_patchMachine : MachineScope.patchObject.wp P.monitor (fun site' r v' =>
    r = none ∧ site' = site ∧ v' = v) site v := by
  unfold MachineScope.patchObject
  rw [wp_bind, wp_vars]
  refine wp_read rfl (fun _ => rfl) fun a ha => ?_
  obtain rfl : a = .ok () := ha
  exact (wp_pure _).mpr ⟨rfl, rfl, rfl⟩

/-- The status of a tracked request. -/
theorem wp_status {path : String} (hpath : path ≠ "") :
    (getRequestStatus path : MachineM _).wp P.monitor (fun site' r v' =>
      (∃ status msg, r = .ok (status, msg) ∧ Reports site path status) ∧ site' = site ∧ v' = v)
      site v := by
  unfold getRequestStatus Client.checkRequestStatus
  rw [wp_bind, Client.withParams_given (by simpa using hpath)]
  refine wp_read rfl (fun _ => rfl) fun a ha => (wp_pure _).mpr ?_
  obtain ⟨info, status, rfl, hstatus, hreports⟩ := ha
  dsimp only [Client.answered]
  rw [hstatus]
  exact (wp_pure _).mpr ⟨⟨status, _, rfl, hreports⟩, rfl, rfl⟩

end

theorem wp_withStatus_pending {status : RequestStatus} {callback : MachineM (Option Err)}
    {Q : Site → Outcome → MachineVars → Prop} (hstatus : status = .queued ∨ status = .running)
    (h : Q site (true, none) v) : (withStatus status callback).wp P.monitor Q site v := by
  rcases hstatus with rfl | rfl <;> exact (wp_pure _).mpr h

theorem wp_withStatus_finished {status : RequestStatus} {callback : MachineM (Option Err)}
    {Q : Site → Outcome → MachineVars → Prop} (hstatus : status = .done ∨ status = .failed)
    (h : callback.wp P.monitor (fun site' r v' => Q site' (false, r) v') site v) :
    (withStatus status callback).wp P.monitor Q site v := by
  rcases hstatus with rfl | rfl <;>
    exact (wp_bind _ _).mpr (wp_mono h fun _ _ _ hQ => (wp_pure _).mpr hQ)

/-- The variables without the data center's request. -/
def forgotten (ms : MachineScope) (v : MachineVars) : MachineVars :=
  { v with cluster := { v.cluster with
    currentRequestByDatacenter := fun dc =>
      if dc = ms.datacenterID then none else v.cluster.currentRequestByDatacenter dc } }

theorem wp_forget : (onCluster
    (ms.clusterScope.deleteCurrentRequestByDatacenter ms.datacenterID)).wp P.monitor
      (fun site' _ v' => site' = site ∧ v' = forgotten ms v) site v := by
  unfold onCluster ClusterScope.deleteCurrentRequestByDatacenter
  rw [wp_zoom]
  exact wp_underRequestLock ((wp_assign _).mpr ⟨rfl, rfl⟩)

theorem Sound.forgotten (h : P.Sound site v) (hlan : site.lan ≠ .coming) :
    P.Sound site (forgotten ms v) where
  fits := h.fits.congr rfl rfl rfl
  network := h.network
  datacenter hcoming := absurd hcoming hlan
  own := h.own
  datacenterPath req hreq := by simp [Place.forgotten] at hreq
  ownPath := h.ownPath

/-- The request in flight at the data center is awaited, any other one is forgotten. -/
theorem wp_checkDatacenterRequest (hsound : P.Sound site v) :
    (Machine.checkDatacenterRequest ms).wp P.monitor (fun site' r v' => site' = site ∧
      r.2 = none ∧ v'.currentRequest = v.currentRequest ∧ P.Sound site v' ∧
      (site.lan = .coming → r.1 = true) ∧ (¬ site.InFlight → r.1 = false ∧
        v'.cluster.currentRequestByDatacenter ms.datacenterID = none)) site v := by
  unfold Machine.checkDatacenterRequest ClusterScope.getCurrentRequestByDatacenter onCluster
  rw [wp_bind, wp_zoom]
  refine wp_underRequestLock ((wp_bind _ _).mpr (wp_vars.mpr ((wp_pure _).mpr ?_)))
  cases hreq : v.cluster.currentRequestByDatacenter ms.datacenterID with
  | none =>
    refine (wp_pure _).mpr ⟨rfl, rfl, rfl, hsound, fun hcoming => ?_, fun _ => ⟨rfl, hreq⟩⟩
    obtain ⟨-, method, status, htracked⟩ := hsound.datacenter hcoming
    cases hreq.symm.trans htracked
  | some req =>
    refine (wp_bind _ _).mpr (wp_mono (wp_status (hsound.datacenterPath req hreq))
      fun site' r v' h => ?_)
    obtain ⟨⟨status, msg, rfl, hreports⟩, rfl, rfl⟩ := h
    unfold Reports at hreports
    split at hreports
    next hflying =>
      exact wp_withStatus_pending hreports ⟨rfl, rfl, rfl, hsound, fun _ => rfl, fun hidle =>
        absurd hflying.1 hidle⟩
    next hother =>
      have hlan : site'.lan ≠ .coming := by
        intro hcoming
        obtain ⟨-, method, status, htracked⟩ := hsound.datacenter hcoming
        obtain rfl := Option.some.inj (hreq.symm.trans htracked)
        exact hother ⟨.inl hcoming, rfl⟩
      refine wp_withStatus_finished hreports ((wp_bind _ _).mpr (wp_mono wp_forget ?_))
      intro site' _ v' h
      obtain ⟨rfl, rfl⟩ := h
      refine wp_mono wp_patchCluster fun site' r v' h => ?_
      obtain ⟨rfl, rfl, rfl⟩ := h
      exact ⟨rfl, rfl, rfl, hsound.forgotten hlan, fun hcoming => absurd hcoming hlan,
        fun _ => ⟨rfl, by simp [Place.forgotten]⟩⟩

/-- While a request is in flight, a run does no more than to ask for it. -/
theorem wp_checkRequestStates_flying (hsound : P.Sound site v) (hflying : site.InFlight) :
    (Machine.checkRequestStates ms).wp P.monitor (fun site' r v' => r = (true, none) ∧
      site' = site ∧ P.Sound site v') site v := by
  unfold Machine.checkRequestStates
  refine (wp_bind _ _).mpr (wp_mono (wp_checkDatacenterRequest hsound) fun site' r v' h => ?_)
  obtain ⟨rfl, hnone, hown, hsound', hlan, -⟩ := h
  obtain ⟨requeue, err⟩ := r
  obtain rfl : err = none := hnone
  rw [wp_bind, wp_vars]
  by_cases hcoming : site'.lan = .coming
  · -- the request of the data center
    obtain rfl : requeue = true := hlan hcoming
    rw [(hsound'.datacenter hcoming).1]
    exact (wp_pure _).mpr ⟨rfl, rfl, hsound'⟩
  · -- the machine's own request
    obtain ⟨method, status, htracked⟩ := hsound'.own (hflying.resolve_left hcoming)
    rw [htracked]
    refine (wp_bind _ _).mpr (wp_mono (wp_status (hsound'.ownPath _ htracked)) fun _ r _ h => ?_)
    obtain ⟨⟨status, msg, rfl, hreports⟩, rfl, rfl⟩ := h
    unfold Reports at hreports
    rw [if_pos ⟨hflying, rfl⟩] at hreports
    refine (wp_bind _ _).mpr (wp_withStatus_pending hreports ?_)
    rw [P.live]
    exact (wp_pure _).mpr ⟨rfl, rfl, hsound'⟩

/-- Once no request is in flight, none is tracked. -/
theorem wp_checkRequestStates_idle (hsound : P.Sound site v) (hidle : ¬ site.InFlight) :
    (Machine.checkRequestStates ms).wp P.monitor (fun site' r v' => r = (false, none) ∧
      site' = site ∧ P.Calm site v') site v := by
  unfold Machine.checkRequestStates
  refine (wp_bind _ _).mpr (wp_mono (wp_checkDatacenterRequest hsound) fun site' r v' h => ?_)
  obtain ⟨rfl, hnone, hown, hsound', -, hrest⟩ := h
  obtain ⟨requeue, err⟩ := r
  obtain rfl : err = none := hnone
  obtain ⟨hrequeue, hdatacenter⟩ := hrest hidle
  obtain rfl : requeue = false := hrequeue
  rw [wp_bind, wp_vars]
  cases hreq : v'.currentRequest with
  | none => exact (wp_pure _).mpr ⟨rfl, rfl, hsound'.fits, hsound'.network, hidle, hdatacenter, hreq⟩
  | some req =>
    refine (wp_bind _ _).mpr (wp_mono (wp_status (hsound'.ownPath _ hreq)) fun _ r _ h => ?_)
    obtain ⟨⟨status, msg, rfl, hreports⟩, rfl, rfl⟩ := h
    unfold Reports at hreports
    rw [if_neg fun h => hidle h.1] at hreports
    refine (wp_bind _ _).mpr (wp_withStatus_finished hreports ?_)
    refine (wp_bind _ _).mpr ((wp_assign _).mpr ((wp_pure _).mpr ?_))
    rw [P.live]
    exact (wp_pure _).mpr ⟨rfl, rfl, hsound'.fits.congr rfl rfl rfl, hsound'.network, hidle,
      hdatacenter, rfl⟩

/-! ## The LAN -/

theorem located_ok {path : String} (hpath : path ≠ "") : Client.located (.ok path) = .ok path :=
  if_neg hpath

/-- The variables with a request of the data center. -/
def recorded (ms : MachineScope) (path : String) (v : MachineVars) : MachineVars :=
  { v with cluster := { v.cluster with
    currentRequestByDatacenter := fun dc =>
      if dc = ms.datacenterID then some ⟨.post, path, .queued⟩
      else v.cluster.currentRequestByDatacenter dc } }

theorem wp_createLAN (hlan : site.lan = .absent) :
    (createLAN ms).wp P.monitor (fun site' r v' => r = none ∧ ∃ path, path ≠ "" ∧
      site' = { site with lan := .coming, request := path } ∧ v' = recorded ms path v) site v := by
  have hmissing : ¬ P.Complete site := by
    intro hcomplete
    rw [hcomplete.serves.lan] at hlan
    cases hlan
  unfold createLAN Client.createLAN
  rw [wp_bind, Client.withParams_given (by simpa using P.datacenter.1)]
  refine wp_order hmissing fun a ha => (wp_pure _).mpr ?_
  obtain ⟨path, rfl, hpath⟩ := ha
  rw [located_ok hpath, show P.moved site (.lansPost _ _) (.ok path) =
    { site with lan := .coming, request := path } from if_pos ⟨rfl, rfl⟩]
  unfold onCluster ClusterScope.setCurrentRequestByDatacenter
  dsimp only
  rw [wp_bind, wp_zoom]
  refine wp_underRequestLock ((wp_assign _).mpr ((wp_bind _ _).mpr
    (wp_mono wp_patchCluster fun site' r v' h => ?_)))
  obtain ⟨rfl, rfl, rfl⟩ := h
  exact (wp_pure _).mpr ⟨rfl, path, hpath, rfl, rfl⟩

theorem wp_latestLANCreation : (getLatestLANCreationRequest ms).wp P.monitor (fun site' r v' =>
    (∃ ri, r = .ok ri ∧ ri.any (·.isPending) = false) ∧ site' = site ∧ v' = v) site v := by
  refine wp_latest (url_given fun e he => ?_)
  rcases List.mem_cons.mp he with rfl | he
  · exact P.datacenter
  · obtain rfl := List.mem_singleton.mp he
    exact ⟨by decide, by decide, by decide, by decide⟩

theorem wp_reconcileLAN (h : P.Calm site v) : (reconcileLAN ms).wp P.monitor
    (P.Goes site fun site' v' => site' = site ∧ v' = v ∧ site.lan = .there) site v := by
  refine wp_underLock ?_
  unfold reconcileLANLocked
  cases hlan : site.lan with
  | there =>
    refine (wp_bind _ _).mpr (wp_mono (wp_findResource_there (wp_getLAN_there hlan))
      fun site' r v' h => ?_)
    obtain ⟨lan, rfl, his, rfl, rfl⟩ := h
    refine (wp_pure _).mpr (.inl ⟨?_, rfl, rfl, rfl⟩)
    rw [his.state]
    rfl
  | absent =>
    have hnetwork : ms.spec.networkID = none := by
      by_contra hne
      rw [h.network hne] at hlan
      cases hlan
    refine (wp_bind _ _).mpr (wp_mono (wp_findResource_absent (fun site' v' => site' = site ∧ v' = v)
      ⟨rfl, rfl⟩ ?_ ?_) fun site' r v' hr => ?_)
    · intro site' v' hsame
      obtain ⟨rfl, rfl⟩ := hsame
      exact wp_mono (wp_getLAN_absent hnetwork hlan) fun _ _ _ h => ⟨by rw [h.1]; rfl, h.2⟩
    · intro site' v' hsame
      obtain ⟨rfl, rfl⟩ := hsame
      exact wp_latestLANCreation
    · obtain ⟨⟨ri, rfl, hpending⟩, rfl, rfl⟩ := hr
      dsimp only
      rw [wp_ite, hpending, if_neg Bool.false_ne_true]
      refine (wp_bind _ _).mpr (wp_mono (wp_createLAN hlan) fun site'' r v'' hr => ?_)
      obtain ⟨rfl, path, hpath, rfl, rfl⟩ := hr
      refine (wp_pure _).mpr (.inr ⟨rfl, .lan path hlan, ?_⟩)
      exact {
        fits := h.fits.congr rfl rfl rfl
        network := fun hne => absurd hnetwork hne
        datacenter := fun _ => ⟨h.own, .post, .queued, by simp [recorded]⟩
        own := fun hcoming => absurd (Or.inr hcoming) h.idle
        datacenterPath := fun req hreq => by
          simp only [recorded, if_true, Option.some.injEq] at hreq
          rw [← hreq]
          exact hpath
        ownPath := fun req hreq => by
          cases h.own.symm.trans hreq }
  | coming => exact absurd (.inl hlan) h.idle

/-! ## Addresses -/

/-- One of the claims has no address yet. -/
def waits (site : Site) (names : List String) : Bool :=
  names.any fun name => site.claims name ≠ .there

theorem waits_false {names : List String} :
    waits site names = false ↔ ∀ name ∈ names, site.claims name = .there := by
  simp [waits]

/-- Asking for claims gives none of them an address. -/
theorem waits_foldl (asked names : List String) :
    waits (asked.foldl Site.claim site) names = waits site names := by
  rw [foldl_claim]
  unfold waits
  congr 1
  funext n
  by_cases hn : n ∈ asked ∧ site.claims n = .absent
  · simp [hn]
  · simp only [if_neg hn]

theorem claim_of_ne {name : String} (h : site.claims name ≠ .absent) : site.claim name = site := by
  unfold Site.claim
  congr 1
  funext n
  refine if_neg fun hn => ?_
  rw [hn.1] at hn
  exact h hn.2

/-- The claim that is asked for if it is missing. -/
theorem wp_createIPAddressClaim {name : String} {ref : PoolRef} (hwanted : name ∈ wantedClaims ms)
    (hgroup : ref.apiGroup ≠ none) (habsent : site.claims name = .absent) :
    (createIPAddressClaim ms name ref).wp P.monitor (fun site' r v' =>
      r = none ∧ site' = site.claim name ∧ v' = v) site v := by
  have hmissing : ¬ P.Complete site := by
    intro hcomplete
    cases habsent.symm.trans (hcomplete.serves.claims name hwanted)
  unfold createIPAddressClaim
  refine wp_read rfl (fun _ => rfl) fun a ha => ?_
  have ha := ha rfl
  rw [habsent] at ha
  obtain ⟨e, rfl, he⟩ := ha
  dsimp only
  rw [wp_ite, he, if_neg Bool.noConfusion, wp_ite, if_neg hgroup]
  refine wp_order hmissing fun a ha => ?_
  obtain rfl : a = .ok () := ha
  exact (wp_pure _).mpr ⟨rfl, if_pos rfl, rfl⟩

/-- The address of a claim, or none as long as it has none. -/
theorem wp_handleIPAddressForNIC {nic : String} {family : Family} {ref : PoolRef}
    (hwanted : claimName nic family ∈ wantedClaims ms) (hgroup : ref.apiGroup ≠ none) :
    (handleIPAddressForNIC ms nic family ref).wp P.monitor (fun site' r v' =>
      ∃ ip, r = .ok ip ∧ (ip = "" ↔ site.claims (claimName nic family) ≠ .there) ∧
        site' = site.claim (claimName nic family) ∧ v' = v) site v := by
  unfold handleIPAddressForNIC
  refine wp_read rfl (fun _ => rfl) fun a ha => ?_
  have ha := ha rfl
  cases hclaim : site.claims (claimName nic family) with
  | absent =>
    rw [hclaim] at ha
    obtain ⟨e, rfl, he⟩ := ha
    dsimp only
    rw [wp_ite, he, if_neg Bool.noConfusion]
    refine (wp_bind _ _).mpr (wp_mono (wp_createIPAddressClaim hwanted hgroup hclaim)
      fun site' r v' h => ?_)
    obtain ⟨rfl, rfl, rfl⟩ := h
    exact (wp_pure _).mpr ⟨"", rfl, by simp, rfl, rfl⟩
  | coming =>
    rw [hclaim] at ha
    obtain ⟨claim, rfl, hclaimed⟩ := ha
    dsimp only
    rw [wp_ite, if_pos hclaimed]
    refine (wp_pure _).mpr ⟨"", rfl, by simp, ?_, rfl⟩
    exact (claim_of_ne (by simp [hclaim])).symm
  | there =>
    rw [hclaim] at ha
    obtain ⟨claim, rfl, hclaimed⟩ := ha
    dsimp only
    rw [wp_ite, if_neg hclaimed]
    refine wp_read rfl (fun _ => rfl) fun a ha => ?_
    obtain ⟨ip, rfl, hip⟩ := ha
    refine (wp_pure _).mpr ⟨ip, rfl, by simp [hip], ?_, rfl⟩
    exact (claim_of_ne (by simp [hclaim])).symm

theorem wp_poolAddresses {nic : String} {family : Family} {poolRef : Option PoolRef}
    (hpool : ∀ ref, poolRef = some ref →
      claimName nic family ∈ wantedClaims ms ∧ ref.apiGroup ≠ none) :
    (poolAddresses ms nic family poolRef).wp P.monitor (fun site' r v' =>
      ∃ ips, r = .ok (waits site (poolRef.map fun _ => claimName nic family).toList, ips) ∧
        site' = (poolRef.map fun _ => claimName nic family).toList.foldl Site.claim site ∧ v' = v)
      site v := by
  unfold poolAddresses
  cases poolRef with
  | none => exact (wp_pure _).mpr ⟨[], rfl, rfl, rfl⟩
  | some ref =>
    obtain ⟨hwanted, hgroup⟩ := hpool ref rfl
    refine (wp_bind _ _).mpr (wp_mono (wp_handleIPAddressForNIC hwanted hgroup)
      fun site' r v' h => ?_)
    obtain ⟨ip, rfl, hip, rfl, rfl⟩ := h
    dsimp only
    rw [wp_ite]
    split
    next hempty =>
      refine (wp_pure _).mpr ⟨[], ?_, rfl, rfl⟩
      simp [waits, hip.mp hempty]
    next hgiven =>
      refine (wp_pure _).mpr ⟨[ip], ?_, rfl, rfl⟩
      have hthere : site.claims (claimName nic family) = .there := by
        by_contra hne
        exact hgiven (hip.mpr hne)
      simp [waits, hthere]

theorem claimsOf_eq (nic : String × IPAMConfig) :
    claimsOf nic = (nic.2.ipv4PoolRef.map fun _ => claimName nic.1 .ipv4).toList ++
      (nic.2.ipv6PoolRef.map fun _ => claimName nic.1 .ipv6).toList := by
  unfold claimsOf
  cases h4 : nic.2.ipv4PoolRef <;> cases h6 : nic.2.ipv6PoolRef <;>
    simp [poolRefOf, h4, h6]

theorem wp_handleNIC {nic : String × IPAMConfig} (hnic : nic ∈ nics ms) (primary : Bool)
    (fail4 fail6 : Err → Err) :
    (handleNIC ms nic.1 nic.2 primary fail4 fail6).wp P.monitor (fun site' r v' =>
      ∃ info, r = .ok (waits site (claimsOf nic), info) ∧
        site' = (claimsOf nic).foldl Site.claim site ∧ v' = v) site v := by
  have hpool : ∀ family ref, poolRefOf nic.2 family = some ref →
      claimName nic.1 family ∈ wantedClaims ms ∧ ref.apiGroup ≠ none := by
    intro family ref href
    refine ⟨List.mem_flatMap.mpr ⟨nic, hnic, ?_⟩, P.pools nic hnic family ref href⟩
    refine List.mem_filterMap.mpr ⟨family, by cases family <;> simp, ?_⟩
    rw [href]
    rfl
  unfold handleNIC
  refine (wp_bind _ _).mpr (wp_mono (wp_poolAddresses (hpool .ipv4)) fun site' r v' h => ?_)
  obtain ⟨ipv4, rfl, rfl, rfl⟩ := h
  refine (wp_bind _ _).mpr (wp_mono (wp_poolAddresses (hpool .ipv6)) fun site' r v' h => ?_)
  obtain ⟨ipv6, rfl, rfl, rfl⟩ := h
  refine (wp_pure _).mpr ⟨⟨ipv4, ipv6, 0, primary⟩, ?_, ?_, rfl⟩
  · rw [waits_foldl, claimsOf_eq, waits, waits, waits, List.any_append]
  · rw [claimsOf_eq, List.foldl_append]

/-- The claims of some networks. -/
def networkClaims (ms : MachineScope) (nets : List Network) : List String :=
  nets.flatMap fun net => claimsOf (additionalNIC ms.name net.networkID, net.ipam)

theorem wp_handleAdditionalNICs {nets : List Network}
    (hnets : ∀ net ∈ nets, (additionalNIC ms.name net.networkID, net.ipam) ∈ nics ms) :
    (handleAdditionalNICs ms nets).wp P.monitor (fun site' r v' =>
      ∃ infos, r = .ok (waits site (networkClaims ms nets), infos) ∧ infos.length = nets.length ∧
        site' = (networkClaims ms nets).foldl Site.claim site ∧ v' = v) site v := by
  induction nets generalizing site with
  | nil => exact (wp_pure _).mpr ⟨[], rfl, rfl, rfl, rfl⟩
  | cons net nets ih =>
    obtain ⟨hnet, hnets⟩ := List.forall_mem_cons.mp hnets
    unfold handleAdditionalNICs
    rw [handleAdditionalNIC_eq]
    refine (wp_bind _ _).mpr (wp_mono (wp_handleNIC hnet false _ _) fun site' r v' h => ?_)
    obtain ⟨info, rfl, rfl, rfl⟩ := h
    refine (wp_bind _ _).mpr (wp_mono (ih hnets) fun site' r v' h => ?_)
    obtain ⟨infos, rfl, hlength, rfl, rfl⟩ := h
    refine (wp_pure _).mpr ⟨info :: infos, ?_, congrArg (· + 1) hlength, ?_, rfl⟩
    · rw [waits_foldl, waits, waits, waits, ← List.any_append]
      rfl
    · rw [← List.foldl_append]
      rfl

/-- An entry for each NIC. -/
def Planned (ms : MachineScope) (v : MachineVars) : Prop :=
  ∃ info infos, v.machineNetworkInfo = some (info :: infos) ∧
    infos.length = ms.spec.additionalNetworks.length

theorem wp_reconcileIPAddresses (h : P.Calm site v) (hlan : site.lan = .there) :
    (reconcileIPAddresses ms).wp P.monitor (P.Goes site fun site' v' => site' = site ∧
      P.Addressed site ∧ P.Calm site v' ∧ Planned ms v') site v := by
  have hprimary : (primaryNIC ms.name, ms.spec.ipam) ∈ nics ms := List.mem_cons_self ..
  have hnets : ∀ net ∈ ms.spec.additionalNetworks,
      (additionalNIC ms.name net.networkID, net.ipam) ∈ nics ms := fun net hnet =>
    List.mem_cons_of_mem _ (List.mem_map.mpr ⟨net, hnet, rfl⟩)
  have hclaims : wantedClaims ms = claimsOf (primaryNIC ms.name, ms.spec.ipam) ++
      networkClaims ms ms.spec.additionalNetworks := by
    unfold wantedClaims nics networkClaims
    rw [List.flatMap_cons, List.flatMap_map]
  unfold reconcileIPAddresses
  rw [handlePrimaryNIC_eq]
  refine (wp_bind _ _).mpr (wp_mono (wp_handleNIC hprimary true _ _) fun site' r v' hr => ?_)
  obtain ⟨info, rfl, rfl, rfl⟩ := hr
  refine (wp_bind _ _).mpr (wp_mono (wp_handleAdditionalNICs hnets) fun site' r v' hr => ?_)
  obtain ⟨infos, rfl, hlength, rfl, rfl⟩ := hr
  refine (wp_bind _ _).mpr ((wp_assign _).mpr ((wp_pure _).mpr ?_))
  have hwaits : (waits site (claimsOf (primaryNIC ms.name, ms.spec.ipam)) ||
      waits ((claimsOf (primaryNIC ms.name, ms.spec.ipam)).foldl Site.claim site)
        (networkClaims ms ms.spec.additionalNetworks)) = waits site (wantedClaims ms) := by
    rw [waits_foldl, hclaims, waits, waits, waits, List.any_append]
  have hsite : (networkClaims ms ms.spec.additionalNetworks).foldl Site.claim
      ((claimsOf (primaryNIC ms.name, ms.spec.ipam)).foldl Site.claim site) =
      (wantedClaims ms).foldl Site.claim site := by
    rw [hclaims, List.foldl_append]
  rw [hsite, hwaits]
  cases hwait : waits site (wantedClaims ms) with
  | false =>
    have hthere := waits_false.mp hwait
    refine .inl ⟨rfl, ?_, hthere, ?_, info, infos, rfl, hlength⟩
    · rw [foldl_claim]
      congr 1
      funext n
      refine if_neg fun hn => ?_
      cases (hthere n hn.1).symm.trans hn.2
    · exact ⟨h.fits.congr rfl rfl rfl, h.network, h.idle, h.datacenter, h.own⟩
  | true =>
    refine .inr ⟨rfl, .claims hlan fun hthere => ?_, ?_⟩
    · cases (waits_false.mpr hthere).symm.trans hwait
    · rw [foldl_claim]
      exact h.sound rfl rfl rfl rfl (h.fits.congr rfl rfl rfl) h.own rfl

/-! ## The server -/

/-- The calls of a lookup of images. -/
def Finding : Call → Prop
  | .labelsGet | .mapOrder _ | .imagesFindById _ => True
  | _ => False

/-- A lookup of images leaves the site as it is. -/
theorem finding_read {c : Call} (h : Finding c) : P.monitor.ok site c ∧
    ∀ a, P.monitor.adm site c a → P.monitor.next site c a = site ∧ P.Offers c a := by
  cases c with
  | labelsGet => exact ⟨fun _ => rfl, fun a ha => ⟨rfl, ha⟩⟩
  | mapOrder keys => exact ⟨fun _ => rfl, fun a ha => ⟨rfl, ha⟩⟩
  | imagesFindById id => exact ⟨fun _ => rfl, fun a ha => ⟨rfl, ha⟩⟩
  | _ => exact False.elim h

/-- The machine's image is named, or its selector finds one among those that are offered. -/
def HasImage (P : Place ms) : Prop :=
  ms.spec.disk.image.id ≠ "" ∨ ∀ v tr r v', Runs (imageAt ms P.location) v tr r v' →
    (∀ e ∈ tr, P.Offers e.call e.answer) → ∃ id, r = .val (.ok id)

theorem wp_lookupImageID (himage : P.HasImage) (hfits : P.Fits v) :
    (lookupImageID ms).wp P.monitor (fun site' r v' =>
      (∃ id, r = .ok id) ∧ site' = site ∧ P.Kept v v') site v := by
  unfold lookupImageID
  rw [wp_ite]
  split
  next hid => exact (wp_pure _).mpr ⟨⟨_, rfl⟩, rfl, .refl hfits⟩
  next hid =>
    refine (wp_bind _ _).mpr (wp_mono (wp_getLocation_known hfits) fun site' r v' h => ?_)
    obtain ⟨rfl, rfl, hkept⟩ := h
    have hwithin : Within Finding id (imageAt ms P.location) :=
      within_imageAt trivial (fun _ => trivial) (fun _ => trivial) P.location
    have hwp := hwithin.wp_of_runs (M := P.monitor) (q := site') (s := v') (A := P.Offers)
      (Q := fun r => ∃ id, r = .ok id) (fun c hc => finding_read hc) fun tr r v'' hruns hoffers => by
        obtain ⟨id, rfl⟩ := himage.resolve_left (by simpa using hid) v' tr r v'' hruns hoffers
        exact ⟨_, rfl, id, rfl⟩
    refine wp_mono hwp fun site'' r v'' h => ?_
    obtain ⟨rfl, hv, hr⟩ := h
    obtain rfl : v'' = v' := hv
    exact ⟨hr, rfl, hkept⟩

/-- With an entry for each NIC, every NIC can be built. -/
theorem additionalNICs_planned {all : List NICInfo} {nets : List Network} {i : Nat}
    (h : i + nets.length < all.length) : ∃ nics, additionalNICs (some all) i nets = .val nics := by
  induction nets generalizing i with
  | nil => exact ⟨[], rfl⟩
  | cons net nets ih =>
    rw [List.length_cons] at h
    have hlt : i + 1 < all.length := by omega
    obtain ⟨nics, hnics⟩ := ih (i := i + 1) (by omega)
    rw [additionalNICs, nicAddresses, List.getElem?_eq_getElem hlt]
    dsimp only
    rw [hnics]
    exact ⟨_, rfl⟩

theorem buildNICs_of_planned (h : Planned ms v) (lanID : Int) :
    ∃ nics, buildNICs ms v.machineNetworkInfo lanID = .val nics := by
  obtain ⟨info, infos, hinfo, hlength⟩ := h
  have hlt : 0 + ms.spec.additionalNetworks.length < (info :: infos).length := by simp [hlength]
  obtain ⟨nics, hnics⟩ := additionalNICs_planned hlt
  rw [hinfo, buildNICs, nicAddresses]
  dsimp only [List.getElem?_cons_zero]
  rw [hnics]
  exact ⟨_, rfl⟩

/-- The variables after a change that was accepted as a request of the machine. -/
theorem Calm.tracked {site' : Site} {path : String} {method : Method} (h : P.Calm site v)
    (hfits : P.Fits v') (hcluster : v'.cluster = v.cluster)
    (hown : v'.currentRequest = some ⟨method, path, .queued⟩) (hpath : path ≠ "")
    (hlan : site'.lan = site.lan) (hrequest : site'.request = path) : P.Sound site' v' where
  fits := hfits
  network hne := hlan.trans (h.network hne)
  datacenter hcoming := absurd (.inl (hlan ▸ hcoming)) h.idle
  own _ := ⟨method, .queued, by rw [hown, hrequest]⟩
  datacenterPath req hreq := by
    rw [hcluster, h.datacenter] at hreq
    cases hreq
  ownPath req hreq := by
    obtain rfl := Option.some.inj (hown.symm.trans hreq)
    exact hpath

theorem wp_postServer {data imageID : String} {lanID : Int} (h : P.Calm site v)
    (hplanned : Planned ms v) (hserver : site.server = .absent) :
    (postServer ms data lanID imageID).wp P.monitor (fun site' r v' => r = none ∧ ∃ path,
      site' = { site with server := .coming, request := path } ∧ P.Sound site' v') site v := by
  have hmissing : ¬ P.Complete site := by
    intro hcomplete
    cases hserver.symm.trans hcomplete.serves.server
  have hfits : ∀ path, P.Fits { v with currentRequest := some ⟨.post, path, .queued⟩ } := fun _ =>
    h.fits.congr rfl rfl rfl
  obtain ⟨nics, hnics⟩ := buildNICs_of_planned hplanned lanID
  unfold postServer Client.createServer
  rw [wp_bind, wp_vars, hnics]
  refine (wp_bind _ _).mpr (wp_conclude_iff.mpr ?_)
  show Go.wp _ _ _ _ _
  rw [wp_bind, Client.withParams_given (by simpa using P.datacenter.1)]
  refine wp_order hmissing fun a ha => ?_
  obtain ⟨server, path, rfl, hid, hpath⟩ := ha
  dsimp only
  rw [wp_ite, if_neg hpath]
  refine (wp_pure _).mpr ((wp_bind _ _).mpr ((wp_assign _).mpr ?_))
  rw [hid, wp_ite, if_neg (show ¬ deref (some P.serverID) "" = "" from P.serverClean.1)]
  refine (wp_bind _ _).mpr ((wp_assign _).mpr ((wp_pure _).mpr ⟨rfl, path, ?_, ?_⟩))
  · exact if_pos ⟨rfl, rfl⟩
  · rw [show P.moved site (.serversPost _ _) (.ok (server, path)) =
      { site with server := .coming, request := path } from if_pos ⟨rfl, rfl⟩]
    exact h.tracked (hfits path).setProviderID rfl rfl hpath rfl rfl

theorem wp_createServer (himage : P.HasImage) {data : String} (h : P.Calm site v)
    (hlan : site.lan = .there) (hplanned : Planned ms v) (hserver : site.server = .absent) :
    (createServer ⟨some data⟩ ms).wp P.monitor (fun site' r v' => r = none ∧ ∃ path,
      site' = { site with server := .coming, request := path } ∧ P.Sound site' v') site v := by
  obtain ⟨lanID, hlanID⟩ := P.lanNumber
  unfold createServer
  refine (wp_bind _ _).mpr (wp_mono (wp_getLAN_there hlan) fun site' r v' hr => ?_)
  obtain ⟨lan, rfl, his, rfl, rfl⟩ := hr
  dsimp only [Option.bind_some]
  rw [his.id]
  dsimp only [deref, Option.getD_some]
  rw [hlanID]
  refine (wp_bind _ _).mpr (wp_mono (wp_lookupImageID himage h.fits) fun site'' r v'' hr => ?_)
  obtain ⟨⟨imageID, rfl⟩, rfl, hkept⟩ := hr
  refine wp_postServer (h.kept hkept) ?_ hserver
  obtain ⟨info, infos, hinfo, hlength⟩ := hplanned
  exact ⟨info, infos, hkept.networkInfo.trans hinfo, hlength⟩

theorem wp_latestServerCreation : (getLatestServerCreationRequest ms).wp P.monitor
    (fun site' r v' =>
      (∃ ri, r = .ok ri ∧ ri.any (·.isPending) = false) ∧ site' = site ∧ v' = v) site v := by
  refine wp_latest (url_given fun e he => ?_)
  rcases List.mem_cons.mp he with rfl | he
  · exact P.datacenter
  · obtain rfl := List.mem_singleton.mp he
    exact ⟨by decide, by decide, by decide, by decide⟩

/-- A server that is there is started unless it runs. -/
theorem wp_reconcileFoundServer {server : Server} (h : P.Calm site v) (hlan : site.lan = .there)
    (hclaims : P.Addressed site) (hserver : site.server = .there) (his : P.IsServer site server) :
    (reconcileFoundServer ms server).wp P.monitor (P.Goes site fun site' v' => site' = site ∧
      P.Serves site ∧ P.Calm site v') site v := by
  have hstate : isServerAvailable server = true := by
    unfold isServerAvailable
    rw [his.state]
    rfl
  unfold reconcileFoundServer ensureServerAvailable
  rw [wp_bind, wp_ite, hstate, if_neg Bool.noConfusion, wp_ite]
  cases hvm : site.vm with
  | there =>
    have hrunning : isRunning (getVMState server) = true := by simp [isRunning, his.vm.mpr hvm]
    rw [hrunning, if_neg Bool.noConfusion]
    refine (wp_pure _).mpr ((wp_bind _ _).mpr ((wp_assign _).mpr ((wp_pure _).mpr (.inl ⟨rfl, rfl, ?_⟩))))
    exact ⟨⟨hlan, hclaims, hserver, hvm⟩, h.fits.congr rfl rfl rfl, h.network, h.idle, h.datacenter,
      h.own⟩
  | absent =>
    have hstopped : isRunning (getVMState server) = false := by
      have hne : getVMState server ≠ "RUNNING" := by
        intro heq
        cases hvm.symm.trans (his.vm.mp heq)
      simp [isRunning, hne]
    have hmissing : ¬ P.Complete site := by
      intro hcomplete
      cases hvm.symm.trans hcomplete.serves.vm
    rw [hstopped, if_pos rfl, his.id]
    unfold startServer Client.startServer
    rw [wp_bind, wp_bind, Client.withParams_given (by simpa using ⟨P.datacenter.1, P.serverClean.1⟩)]
    refine wp_order hmissing fun a ha => (wp_pure _).mpr ?_
    obtain ⟨path, rfl, hpath⟩ := ha
    rw [located_ok hpath, show P.moved site (.serversStartPost _ _) (.ok path) =
      { site with vm := .coming, request := path } from if_pos ⟨rfl, rfl⟩]
    refine (wp_bind _ _).mpr ((wp_assign _).mpr ((wp_pure _).mpr ((wp_pure _).mpr
      ((wp_pure _).mpr (.inr ⟨rfl, .vm path hlan hclaims hserver hvm, ?_⟩)))))
    exact h.tracked (h.fits.congr rfl rfl rfl) rfl rfl hpath rfl rfl
  | coming => exact absurd (.inr (.inr (.inl hvm))) h.idle

theorem wp_reconcileServer (himage : P.HasImage) (h : P.Calm site v) (hlan : site.lan = .there)
    (hclaims : P.Addressed site) (hplanned : Planned ms v) :
    (reconcileServer ms).wp P.monitor (P.Goes site fun site' v' => site' = site ∧
      P.Serves site ∧ P.Calm site v') site v := by
  obtain ⟨name, hname, hne⟩ := P.bootstrap
  unfold reconcileServer MachineScope.getBootstrapDataSecret
  rw [hname]
  dsimp only [deref, Option.getD_some]
  rw [if_neg hne]
  refine wp_read rfl (fun _ => rfl) fun a ha => ?_
  obtain ⟨data, rfl⟩ := ha
  cases hserver : site.server with
  | there =>
    refine (wp_bind _ _).mpr (wp_mono (wp_findResource_there (wp_getServer_there h.fits hserver))
      fun site' r v' hr => ?_)
    obtain ⟨server, rfl, his, rfl, hkept⟩ := hr
    exact wp_reconcileFoundServer (h.kept hkept) hlan hclaims hserver his
  | absent =>
    refine (wp_bind _ _).mpr (wp_mono (wp_findResource_absent (fun site' v' => site' = site ∧ v' = v)
      ⟨rfl, rfl⟩ ?_ ?_) fun site' r v' hr => ?_)
    · intro site' v' hsame
      obtain ⟨rfl, rfl⟩ := hsame
      exact wp_getServer_absent h.fits hserver
    · intro site' v' hsame
      obtain ⟨rfl, rfl⟩ := hsame
      exact wp_latestServerCreation
    · obtain ⟨⟨ri, rfl, hpending⟩, rfl, rfl⟩ := hr
      dsimp only
      rw [wp_ite, hpending, if_neg Bool.false_ne_true]
      refine (wp_bind _ _).mpr (wp_mono (wp_createServer himage h hlan hplanned hserver)
        fun site'' r v'' hr => ?_)
      obtain ⟨rfl, path, rfl, hsound⟩ := hr
      exact (wp_pure _).mpr (.inr ⟨rfl, .server path hlan hclaims hserver, hsound⟩)
  | coming => exact absurd (.inr (.inl hserver)) h.idle

/-! ## The failover IP -/

/-- The endpoint of the cluster, for a machine of the control plane. -/
theorem wp_endpointIP (h : P.Calm site v) (hcontrol : ms.isControlPlane = true) :
    (onCluster ms.clusterScope.getControlPlaneEndpointIP).wp P.monitor (fun site' r v' =>
      r = .ok P.failoverIP ∧ site' = site ∧ v' = v) site v := by
  obtain ⟨hhost, haddr⟩ := h.fits.endpoint hcontrol
  unfold onCluster ClusterScope.getControlPlaneEndpointIP
  rw [wp_zoom, wp_bind, wp_vars]
  dsimp only
  rw [wp_ite, if_neg hhost]
  rcases haddr with haddr | haddr
  · rw [haddr]
    refine wp_read rfl (fun _ => rfl) fun a ha => ?_
    obtain ⟨ips, ip, rest, rfl, hsorted, hip⟩ := ha
    dsimp only
    rw [hsorted]
    exact (wp_pure _).mpr ⟨congrArg Except.ok hip, rfl, rfl⟩
  · rw [haddr]
    exact (wp_pure _).mpr ⟨rfl, rfl, rfl⟩

theorem wp_latestBlockCreation (hfits : P.Fits v) :
    (getLatestFailoverIPBlockCreateRequest ms).wp P.monitor (fun site' r v' =>
      (∃ ri, r = .ok ri ∧ ri.any (·.isPending) = false) ∧ site' = site ∧ P.Kept v v') site v := by
  unfold getLatestFailoverIPBlockCreateRequest
  refine (wp_bind _ _).mpr (wp_mono (wp_getLocation_known hfits) fun site' r v' h => ?_)
  obtain ⟨rfl, rfl, hkept⟩ := h
  refine wp_mono (wp_latest (by decide)) fun site'' r v'' h => ?_
  obtain ⟨hr, rfl, rfl⟩ := h
  exact ⟨hr, rfl, hkept⟩

theorem failoverIPBlockName_ne : failoverIPBlockName ms ≠ "" := by
  intro hempty
  have hlist := congrArg String.toList hempty
  simp [failoverIPBlockName] at hlist

/-- The block that is reserved if it is missing. -/
theorem wp_reserveBlock (h : P.Calm site v) (hauto : auto ms) (hblock : site.block = .absent) :
    (reserveMachineDeploymentFailoverIPBlock ms).wp P.monitor (fun site' r v' => r = none ∧
      ∃ path, site' = { site with block := .coming, request := path } ∧ P.Sound site' v')
      site v := by
  have hmissing : ¬ P.Complete site := by
    intro hcomplete
    cases hblock.symm.trans (hcomplete.block hauto)
  unfold reserveMachineDeploymentFailoverIPBlock
  refine (wp_bind _ _).mpr (wp_mono (wp_getLocation_known h.fits) fun site' r v' hr => ?_)
  obtain ⟨rfl, rfl, hkept⟩ := hr
  refine (wp_bind _ _).mpr ((wp_assign _).mpr ?_)
  unfold reserveIPBlock Client.reserveIPBlock
  rw [if_neg P.locationGiven, if_neg (by decide), if_neg failoverIPBlockName_ne, wp_bind]
  refine wp_order hmissing fun a ha => (wp_pure _).mpr ?_
  obtain ⟨path, rfl, hpath⟩ := ha
  rw [located_ok hpath, show P.moved site' (.ipblocksPost _ _ _) (.ok path) =
    { site' with block := .coming, request := path } from if_pos ⟨rfl, rfl⟩]
  refine (wp_bind _ _).mpr ((wp_assign _).mpr ((wp_pure _).mpr ⟨rfl, path, rfl, ?_⟩))
  have hfits : P.Fits { v' with location := P.location } :=
    ⟨hkept.fits.server, .inr rfl, hkept.fits.endpoint⟩
  exact (h.kept hkept).tracked (hfits.congr rfl rfl rfl) rfl rfl hpath rfl rfl

/-- What `retrieveFailoverIPForMachine` ends with: the IP, or the block for it was asked for. -/
def Retrieved (P : Place ms) (site site' : Site) (r : FailoverIPOutcome) (v' : MachineVars) : Prop :=
  r = (false, P.failoverIP, none) ∧ site' = site ∧ P.Calm site v' ∧ (auto ms → site.block = .there) ∨
    ∃ path, r = (true, "", none) ∧ auto ms ∧ site.block = .absent ∧
      site' = { site with block := .coming, request := path } ∧ P.Sound site' v'

theorem wp_retrieveAuto (h : P.Calm site v) (hauto : auto ms) :
    (retrieveAutoFailoverIPLocked ms).wp P.monitor (P.Retrieved site) site v := by
  unfold retrieveAutoFailoverIPLocked
  cases hblock : site.block with
  | there =>
    refine (wp_bind _ _).mpr (wp_mono (wp_findResource_there
      (wp_getFailoverIPBlock_there h.fits hblock)) fun site' r v' hr => ?_)
    obtain ⟨block, rfl, ⟨hstate, ips, hips⟩, rfl, hkept⟩ := hr
    dsimp only
    rw [wp_ite, hstate, if_neg (by decide), hips]
    exact (wp_pure _).mpr (.inl ⟨rfl, rfl, h.kept hkept, fun _ => hblock⟩)
  | absent =>
    refine (wp_bind _ _).mpr (wp_mono (wp_findResource_absent
      (fun site' v' => site' = site ∧ P.Kept v v') ⟨rfl, .refl h.fits⟩ ?_ ?_) fun site' r v' hr => ?_)
    · intro site' v' hsame
      obtain ⟨rfl, hkept⟩ := hsame
      exact wp_mono (wp_getFailoverIPBlock_absent hkept.fits hblock) fun _ _ _ h' =>
        ⟨h'.1, h'.2.1, hkept.trans h'.2.2⟩
    · intro site' v' hsame
      obtain ⟨rfl, hkept⟩ := hsame
      exact wp_mono (wp_latestBlockCreation hkept.fits) fun _ _ _ h' =>
        ⟨h'.1, h'.2.1, hkept.trans h'.2.2⟩
    · obtain ⟨⟨ri, rfl, hpending⟩, rfl, hkept⟩ := hr
      dsimp only
      rw [wp_ite, hpending, if_neg Bool.false_ne_true]
      refine (wp_bind _ _).mpr (wp_mono (wp_reserveBlock (h.kept hkept) hauto hblock)
        fun site'' r v'' hr => ?_)
      obtain ⟨rfl, path, rfl, hsound⟩ := hr
      exact (wp_pure _).mpr (.inr ⟨path, rfl, hauto, hblock, rfl, hsound⟩)
  | coming => exact absurd (.inr (.inr (.inr hblock))) h.idle

theorem wp_retrieveFailoverIP (h : P.Calm site v) (hrequired : ms.failoverRequired = true) :
    (retrieveFailoverIPForMachine ms).wp P.monitor (P.Retrieved site) site v := by
  unfold retrieveFailoverIPForMachine
  rw [wp_ite]
  split
  next hcontrol =>
    refine (wp_bind _ _).mpr (wp_mono (wp_endpointIP h hcontrol) fun site' r v' hr => ?_)
    obtain ⟨rfl, rfl, rfl⟩ := hr
    refine (wp_pure _).mpr (.inl ⟨rfl, rfl, h, fun hauto => ?_⟩)
    cases hcontrol.symm.trans hauto.1
  next hworker =>
    have hworker : ms.isControlPlane = false := by simpa using hworker
    have hgiven : ms.spec.failoverIP.isSome = true := by
      simpa [MachineScope.failoverRequired, hworker] using hrequired
    obtain ⟨ip, hip⟩ := Option.isSome_iff_exists.mp hgiven
    obtain ⟨hne, hfixed⟩ := P.failover hworker ip hip
    rw [hip]
    dsimp only [deref, Option.getD_some]
    rw [wp_ite, if_neg hne, wp_ite]
    split
    next hauto =>
      rw [hauto] at hip
      exact wp_underLock (wp_retrieveAuto h ⟨hworker, hip⟩)
    next hother =>
      refine (wp_pure _).mpr (.inl ⟨by rw [hfixed hother], rfl, h, fun hauto => ?_⟩)
      exact absurd (Option.some.inj (hip.symm.trans hauto.2)) hother

/-! ## The NIC and the group -/

theorem filter_pending {ri : Option RequestInfo} (h : ri.any (·.isPending) = false) :
    ri.filter (·.isPending) = none := by
  cases ri with
  | none => rfl
  | some info =>
    have hinfo : info.isPending = false := h
    simp [hinfo]

theorem wp_wait {path : String} (hpath : path ≠ "") :
    (Client.waitForRequest path : MachineM _).wp P.monitor (fun site' r v' =>
      r = .ok () ∧ site' = site ∧ v' = v) site v := by
  refine Client.wp_waitForRequest (fun hempty => absurd hempty hpath) fun _ => ⟨fun _ => rfl, ?_⟩
  intro a ha
  obtain rfl : a = .ok () := ha
  exact ⟨rfl, rfl, rfl⟩

theorem wp_latestNICPatch : (getLatestNICPatchRequest ms P.serverID P.nicID).wp P.monitor
    (fun site' r v' =>
      (∃ ri, r = .ok ri ∧ ri.any (·.isPending) = false) ∧ site' = site ∧ v' = v) site v := by
  refine wp_latest (url_given fun e he => ?_)
  simp only [List.mem_cons, List.not_mem_nil, or_false] at he
  rcases he with rfl | rfl | rfl | rfl | rfl
  · exact P.datacenter
  · exact ⟨by decide, by decide, by decide, by decide⟩
  · exact P.serverClean
  · exact ⟨by decide, by decide, by decide, by decide⟩
  · exact P.nicClean

theorem wp_addFailoverIP {nic : Nic} (h : P.Calm site v) (hid : nic.id = some P.nicID)
    (hips : deref nic.ips [] = site.nicIPs) (hmissing : ¬ P.Complete site) :
    (addFailoverIP ms P.failoverIP P.serverID nic).wp P.monitor (fun site' r v' => r = .ok nic ∧
      site' = { site with nicIPs := site.nicIPs ++ [P.failoverIP] } ∧ P.Calm site v') site v := by
  have hnicID : deref nic.id "" = P.nicID := by
    rw [hid]
    rfl
  have hgiven : ∀ p ∈ [(ms.datacenterID, Client.errDatacenterIDIsEmpty),
      (P.serverID, Client.errServerIDIsEmpty), (P.nicID, Client.errNICIDIsEmpty)], p.1 ≠ "" := by
    simpa using ⟨P.datacenter.1, P.serverClean.1, P.nicClean.1⟩
  unfold addFailoverIP
  rw [hnicID, hips]
  refine (wp_bind _ _).mpr (wp_mono wp_latestNICPatch fun site' r v' hr => ?_)
  obtain ⟨⟨ri, rfl, hpending⟩, rfl, rfl⟩ := hr
  dsimp only
  rw [filter_pending hpending]
  unfold patchNIC Client.patchNIC
  dsimp only
  rw [hnicID, Client.withParams_given hgiven, wp_bind, wp_bind]
  refine wp_order hmissing fun a ha => (wp_pure _).mpr ?_
  obtain ⟨path, rfl, hpath⟩ := ha
  rw [located_ok hpath, show P.moved site' (.nicsPatch _ _ _ _) (.ok path) =
    { site' with nicIPs := site'.nicIPs ++ [P.failoverIP] } from if_pos ⟨rfl, rfl, rfl⟩]
  refine (wp_bind _ _).mpr ((wp_assign _).mpr ((wp_bind _ _).mpr (wp_mono (wp_wait hpath) ?_)))
  intro site'' r v'' hr
  obtain ⟨rfl, rfl, rfl⟩ := hr
  refine (wp_pure _).mpr ((wp_bind _ _).mpr ((wp_assign _).mpr ((wp_pure _).mpr ⟨rfl, rfl, ?_⟩)))
  exact ⟨h.fits.congr rfl rfl rfl, h.network, h.idle, h.datacenter, rfl⟩

/-- The failover IP is put on the NIC unless it is there. -/
theorem wp_reconcileNICConfig (h : P.Calm site v) (hserver : site.server = .there)
    (hrequired : ms.failoverRequired = true) :
    (reconcileNICConfig ms P.failoverIP).wp P.monitor (fun site' r v' =>
      ∃ nic ips, r = .ok nic ∧ nic.id = some P.nicID ∧ P.failoverIP ∈ ips ∧
        (ips = site.nicIPs ∨ P.failoverIP ∉ site.nicIPs ∧ ips = site.nicIPs ++ [P.failoverIP]) ∧
        site' = { site with nicIPs := ips } ∧ P.Calm site v') site v := by
  unfold reconcileNICConfig
  refine (wp_bind _ _).mpr (wp_mono (wp_getServer_there h.fits hserver) fun site' r v' hr => ?_)
  obtain ⟨server, rfl, his, rfl, hkept⟩ := hr
  have h := h.kept hkept
  obtain ⟨nic, hnic, hid, hips⟩ := his.nic
  have hfind : findPrimaryNIC ms.name (some server) = .ok nic := by
    unfold findPrimaryNIC
    rw [Option.bind_some, hnic]
  have hserverID : deref ((some server).bind (·.id)) "" = P.serverID := by
    rw [Option.bind_some, his.id]
    rfl
  dsimp only
  rw [hfind]
  dsimp only
  rw [wp_ite, hserverID]
  split
  next hhas =>
    have hmem : P.failoverIP ∈ site'.nicIPs := by simpa [nicHasIP, hips] using hhas
    exact (wp_pure _).mpr ⟨nic, site'.nicIPs, rfl, hid, hmem, .inl rfl, rfl, h⟩
  next hlacks =>
    have hnot : P.failoverIP ∉ site'.nicIPs := by simpa [nicHasIP, hips] using hlacks
    have hmissing : ¬ P.Complete site' := fun hcomplete => hnot (hcomplete.nic hrequired)
    refine wp_mono (wp_addFailoverIP h hid hips hmissing) fun site'' r v'' hr => ?_
    obtain ⟨rfl, rfl, hcalm⟩ := hr
    exact ⟨nic, _, rfl, hid, by simp, .inr ⟨hnot, rfl⟩, rfl, hcalm⟩

theorem wp_isLANPatchPending : (isLANPatchPending P.lanID ms).wp P.monitor (fun site' r v' =>
    r = .ok false ∧ site' = site ∧ v' = v) site v := by
  have hlatest : (getLatestLANPatchRequest ms P.lanID).wp P.monitor (fun site' r v' =>
      (∃ ri, r = .ok ri ∧ ri.any (·.isPending) = false) ∧ site' = site ∧ v' = v) site v := by
    refine wp_latest (url_given fun e he => ?_)
    simp only [List.mem_cons, List.not_mem_nil, or_false] at he
    rcases he with rfl | rfl | rfl
    · exact P.datacenter
    · exact ⟨by decide, by decide, by decide, by decide⟩
    · exact P.lanClean
  unfold isLANPatchPending
  refine (wp_bind _ _).mpr (wp_mono hlatest fun site' r v' hr => ?_)
  obtain ⟨⟨ri, rfl, hpending⟩, rfl, rfl⟩ := hr
  exact (wp_pure _).mpr ⟨congrArg Except.ok hpending, rfl, rfl⟩

/-- The group as it is, or with the failover IP. -/
theorem wp_reconcileIPFailoverGroup (h : P.Calm site v) (hlan : site.lan = .there)
    (hrequired : ms.failoverRequired = true) :
    (reconcileIPFailoverGroup ms P.nicID P.failoverIP).wp P.monitor (fun site' r v' =>
      r = (false, none) ∧ P.Joined site ∧ site' = site ∧ P.Calm site v' ∨
      ∃ config, r = (true, none) ∧ joinGroup P.nicID P.failoverIP site.group = some config ∧
        site' = { site with group := config } ∧ P.Calm site v') site v := by
  have hgiven : ∀ p ∈ [(ms.datacenterID, Client.errDatacenterIDIsEmpty),
      (P.lanID, Client.errLANIDIsEmpty)], p.1 ≠ "" := by
    simpa using ⟨P.datacenter.1, P.lanClean.1⟩
  unfold reconcileIPFailoverGroup
  rw [wp_ite, if_neg P.nicClean.1]
  refine wp_underLock ?_
  unfold reconcileIPFailoverGroupLocked retrieveLANFailoverConfig
  refine (wp_bind _ _).mpr ((wp_bind _ _).mpr (wp_mono (wp_getLAN_there hlan)
    fun site' r v' hr => ?_))
  obtain ⟨lan, rfl, his, rfl, rfl⟩ := hr
  dsimp only [deref, Option.getD_some]
  rw [his.id]
  refine (wp_bind _ _).mpr (wp_mono wp_isLANPatchPending fun site'' r v'' hr => ?_)
  obtain ⟨rfl, rfl, rfl⟩ := hr
  refine (wp_pure _).mpr ?_
  dsimp only
  rw [show lan.ipFailover.getD [] = site''.group from his.group]
  cases hjoin : joinGroup P.nicID P.failoverIP site''.group with
  | none => exact (wp_pure _).mpr (.inl ⟨rfl, hjoin, rfl, h⟩)
  | some config =>
    have hmissing : ¬ P.Complete site'' := by
      intro hcomplete
      cases hjoin.symm.trans (hcomplete.joined hrequired)
    unfold patchLAN Client.patchLAN
    dsimp only
    rw [his.id, Option.getD_some, Client.withParams_given hgiven, wp_bind, wp_bind]
    refine wp_order hmissing fun a ha => (wp_pure _).mpr ?_
    obtain ⟨path, rfl, hpath⟩ := ha
    rw [located_ok hpath, show P.moved site'' (.lansPatch _ _ _) (.ok path) =
      { site'' with group := config } from if_pos ⟨rfl, rfl⟩]
    refine (wp_bind _ _).mpr ((wp_assign _).mpr ((wp_bind _ _).mpr (wp_mono (wp_wait hpath) ?_)))
    intro site₃ r v₃ hr
    obtain ⟨rfl, rfl, rfl⟩ := hr
    refine (wp_bind _ _).mpr ((wp_assign _).mpr ((wp_pure _).mpr ((wp_pure _).mpr
      (.inr ⟨config, rfl, rfl, rfl, ?_⟩))))
    exact ⟨h.fits.congr rfl rfl rfl, h.network, h.idle, h.datacenter, rfl⟩

theorem wp_reconcileIPFailover (h : P.Calm site v) (hserves : P.Serves site) :
    (reconcileIPFailover ms).wp P.monitor (P.Goes site fun site' v' =>
      P.Completes site site' ∧ P.Calm site' v') site v := by
  unfold reconcileIPFailover
  rw [wp_ite]
  split
  next hnot =>
    refine (wp_pure _).mpr (.inl ⟨rfl, ⟨⟨hserves, h.idle, fun hauto => ?_, ?_, ?_⟩, .inl rfl⟩, h⟩)
    · simp [MachineScope.failoverRequired, hauto.2] at hnot
    · exact fun hrequired => absurd (hnot.symm.trans hrequired) Bool.noConfusion
    · exact fun hrequired => absurd (hnot.symm.trans hrequired) Bool.noConfusion
  next hrequired =>
    have hrequired : ms.failoverRequired = true := by simpa using hrequired
    refine (wp_bind _ _).mpr (wp_mono (wp_retrieveFailoverIP h hrequired) fun site' r v' hr => ?_)
    rcases hr with ⟨rfl, rfl, hcalm, hblock⟩ | ⟨path, rfl, hauto, hblock, rfl, hsound⟩
    · refine (wp_bind _ _).mpr (wp_mono (wp_reconcileNICConfig hcalm hserves.server hrequired)
        fun site'' r v'' hr => ?_)
      obtain ⟨nic, ips, rfl, hid, hip, hips, rfl, hcalm'⟩ := hr
      have hserves' : P.Serves { site' with nicIPs := ips } :=
        ⟨hserves.lan, hserves.claims, hserves.server, hserves.vm⟩
      have hcalm'' : P.Calm { site' with nicIPs := ips } v'' :=
        ⟨hcalm'.fits, hcalm'.network, hcalm'.idle, hcalm'.datacenter, hcalm'.own⟩
      dsimp only
      rw [hid]
      refine wp_mono (wp_reconcileIPFailoverGroup hcalm'' hserves.lan hrequired)
        fun site₃ r v₃ hr => ?_
      rcases hr with ⟨rfl, hjoined, rfl, hcalm₃⟩ | ⟨config, rfl, hjoin, rfl, hcalm₃⟩
      · refine .inl ⟨rfl, ⟨⟨hserves', hcalm₃.idle, hblock, fun _ => hip, fun _ => hjoined⟩, ?_⟩, hcalm₃⟩
        rcases hips with rfl | ⟨hnot, rfl⟩
        · exact .inl rfl
        · exact .inr ⟨hnot, hrequired, rfl⟩
      · refine .inr ⟨rfl, .group ips config hserves hrequired hblock hip
          (hips.imp_right fun h => h.1) hjoin, ?_⟩
        exact hcalm₃.sound rfl rfl rfl rfl hcalm₃.fits hcalm₃.own rfl
    · refine (wp_pure _).mpr (.inr ⟨rfl, .block path hserves hauto hblock, hsound⟩)

/-! ## The steps of a run -/

/-- How the steps end: something was asked for, or the machine is provisioned. -/
def Ends (P : Place ms) (site site' : Site) (r : Option (Result × Option Err)) (v' : MachineVars) :
    Prop :=
  r = some (⟨defaultReconcileDuration⟩, none) ∧ P.Advance site site' ∧ P.Sound site' v' ∨
    r = none ∧ P.Completes site site' ∧ P.Calm site' v' ∧ v'.provisioned = some true

/-- One step, and those after it if it goes on. -/
theorem wp_step {site₀ : Site} {onError : Err → MachineM Unit} {step : ServiceReconcileStep MachineVars}
    {steps : List (ServiceReconcileStep MachineVars)} {Next : Site → MachineVars → Prop}
    (hstep : step.fn.wp P.monitor (P.Goes site₀ Next) site v)
    (hnext : ∀ site' v', Next site' v' →
      (runSteps onError steps).wp P.monitor (P.Ends site₀) site' v') :
    (runSteps onError (step :: steps)).wp P.monitor (P.Ends site₀) site v := by
  refine wp_runSteps_cons (wp_mono hstep fun site' r v' hr => ?_)
  rcases hr with ⟨rfl, hr⟩ | ⟨rfl, hadvance, hsound⟩
  · exact hnext site' v' hr
  · exact .inl ⟨rfl, hadvance, hsound⟩

theorem wp_normalSteps (himage : P.HasImage) {onError : Err → MachineM Unit} (h : P.Calm site v) :
    (runSteps onError (Machine.normalSequence ms)).wp P.monitor (P.Ends site) site v := by
  refine wp_step (wp_reconcileLAN h) fun site' v' hr => ?_
  obtain ⟨rfl, rfl, hlan⟩ := hr
  refine wp_step (wp_reconcileIPAddresses h hlan) fun site'' v' hr => ?_
  obtain ⟨rfl, hclaims, hcalm, hplanned⟩ := hr
  refine wp_step (wp_reconcileServer himage hcalm hlan hclaims hplanned) fun site₃ v' hr => ?_
  obtain ⟨rfl, hserves, hcalm⟩ := hr
  refine wp_step (wp_reconcileIPFailover hcalm hserves) fun site₄ v' hr => ?_
  obtain ⟨hcompletes, hcalm⟩ := hr
  refine wp_runSteps_cons ((wp_bind _ _).mpr ((wp_assign _).mpr ((wp_pure _).mpr ?_)))
  refine wp_runSteps_nil (.inr ⟨rfl, hcompletes, ?_, rfl⟩)
  exact ⟨hcalm.fits.congr rfl rfl rfl, hcalm.network, hcalm.idle, hcalm.datacenter, hcalm.own⟩

/-! ## Whole runs -/

/-- How a run ends. -/
inductive RunEnds (P : Place ms) (site : Site) : Site → Result → MachineVars → Prop
  /-- The request in flight has not come to its end. -/
  | waits {v' : MachineVars} : site.InFlight → P.Sound site v' →
      RunEnds P site site ⟨defaultReconcileDuration⟩ v'
  /-- Something was asked for. -/
  | asks {site' : Site} {v' : MachineVars} : ¬ site.InFlight → P.Advance site site' →
      P.Sound site' v' → RunEnds P site site' ⟨defaultReconcileDuration⟩ v'
  /-- The machine is provisioned. -/
  | completes {site' : Site} {v' : MachineVars} : ¬ site.InFlight → P.Completes site site' →
      P.Sound site' v' → v'.provisioned = some true → RunEnds P site site' ⟨0⟩ v'

/-- The same, as what a function ends with. -/
def Reconciled (P : Place ms) (site site' : Site) (r : Result × Option Err) (v' : MachineVars) : Prop :=
  r.2 = none ∧ P.RunEnds site site' r.1 v'

theorem wp_setProvisioningCondition (h : P.Calm site v) :
    (Machine.setProvisioningCondition ms none).wp P.monitor (fun site' _ v' =>
      site' = site ∧ P.Calm site v') site v := by
  unfold Machine.setProvisioningCondition
  rw [wp_bind, wp_vars, wp_ite]
  split
  next => exact (wp_pure _).mpr ⟨rfl, h⟩
  next =>
    refine (wp_assign _).mpr ⟨rfl, ?_⟩
    exact ⟨h.fits.congr rfl rfl rfl, h.network, h.idle, h.datacenter, h.own⟩

theorem wp_reconcileFinalized (himage : P.HasImage) (h : P.Sound site v) :
    (Machine.reconcileFinalized ms).wp P.monitor (P.Reconciled site) site v := by
  unfold Machine.reconcileFinalized
  by_cases hflying : site.InFlight
  · refine (wp_bind _ _).mpr (wp_mono (wp_checkRequestStates_flying h hflying)
      fun site' r v' hr => ?_)
    obtain ⟨rfl, rfl, hsound⟩ := hr
    exact (wp_pure _).mpr ⟨rfl, .waits hflying hsound⟩
  · refine (wp_bind _ _).mpr (wp_mono (wp_checkRequestStates_idle h hflying)
      fun site' r v' hr => ?_)
    obtain ⟨rfl, rfl, hcalm⟩ := hr
    refine (wp_bind _ _).mpr (wp_mono (wp_setProvisioningCondition hcalm) fun site'' _ v'' hr => ?_)
    obtain ⟨rfl, hcalm⟩ := hr
    refine (wp_bind _ _).mpr (wp_mono (wp_normalSteps himage hcalm) fun site₃ r v₃ hr => ?_)
    rcases hr with ⟨rfl, hadvance, hsound⟩ | ⟨rfl, hcompletes, hcalm, hprovisioned⟩
    · exact (wp_pure _).mpr ⟨rfl, .asks hflying hadvance hsound⟩
    · refine (wp_pure _).mpr ⟨rfl, .completes hflying hcompletes ?_ hprovisioned⟩
      exact hcalm.sound rfl rfl rfl rfl hcalm.fits hcalm.own rfl

theorem wp_reconcileNormal (himage : P.HasImage) (h : P.Sound site v) :
    (Machine.reconcileNormal ms).wp P.monitor (P.Reconciled site) site v := by
  obtain ⟨name, hname, -⟩ := P.bootstrap
  unfold Machine.reconcileNormal Machine.isInfrastructureReady
  rw [P.infrastructure, hname]
  refine (wp_bind _ _).mpr ((wp_pure _).mpr ?_)
  rw [wp_ite, if_neg Bool.noConfusion, wp_bind, wp_vars]
  split
  next => exact wp_reconcileFinalized himage h
  next =>
    refine (wp_bind _ _).mpr ((wp_assign _).mpr ((wp_bind _ _).mpr
      (wp_mono wp_patchMachine fun site' r v' hr => ?_)))
    obtain ⟨rfl, rfl, rfl⟩ := hr
    exact wp_reconcileFinalized himage ⟨h.fits.congr rfl rfl rfl, h.network, h.datacenter, h.own,
      h.datacenterPath, h.ownPath⟩

/-- The credentials are there and valid. -/
theorem wp_withService {β : MachineM (Result × Option Err)}
    {Q : Site → Result × Option Err → MachineVars → Prop} (h : β.wp P.monitor Q site v) :
    (reconcileWithService ms.clusterScope β).wp P.monitor Q site v := by
  unfold reconcileWithService createServiceFromCluster
  refine (wp_bind _ _).mpr (wp_read rfl (fun _ => rfl) fun a ha => ?_)
  obtain ⟨secret, rfl, hclient⟩ := ha
  dsimp only
  obtain ⟨owners, howners⟩ := P.owned secret.ownerReferences
  unfold ensureSecretControlledByCluster
  rw [wp_bind, howners]
  dsimp only
  rw [wp_ite]
  split
  next =>
    refine wp_read rfl (fun _ => rfl) fun a ha => (wp_pure _).mpr ?_
    obtain rfl : a = .ok () := ha
    refine (wp_pure _).mpr ?_
    rw [hclient]
    exact h
  next =>
    refine (wp_pure _).mpr ((wp_pure _).mpr ?_)
    rw [hclient]
    exact h

theorem wp_finalize : ms.finalize.wp P.monitor (fun site' r v' =>
    r = none ∧ site' = site ∧ v' = v) site v := by
  refine wp_retryOnError_ok ms.libs.defaultBackoffSteps_pos (wp_mono wp_patchMachine ?_)
  intro site' r v' hr
  obtain ⟨rfl, rfl, rfl⟩ := hr
  exact ⟨rfl, rfl, rfl, rfl⟩

/-- A run, from the variables between two runs to those after it. -/
theorem wp_reconcile (himage : P.HasImage) (h : P.Sound site v) :
    (Machine.reconcile ms).wp P.monitor (P.Reconciled site) site v := by
  unfold Machine.reconcile
  rw [P.live]
  exact wp_withFinalize_ok (fun _ hpanic => hpanic) (fun _ _ => wp_finalize)
    (wp_withService (wp_reconcileNormal himage h))

end Place

end Capic.Properties.Convergence
