import Capic.Controller.Frame

/-!
# Which LANs are deleted

`ReconcileLANDeletion` takes the LAN to delete from the same lookup as the LAN to use. By
name, that finds the LAN the provider created; by ID, it finds the LAN the user asked to
have used, which is deleted as soon as no NIC is left in it. `deletes_own` says for a
machine and a list of LANs when only the provider's own LAN can be deleted.
-/

namespace Capic.Properties

open Effect Effect.Go Cloud

/-- The LANs of the data center are these; reads may fail. -/
def ListsLANs (lans : List Lan) : (c : Call) → Call.Ans c → Prop
  | .lansGet _, .ok items => items = some lans
  | _, _ => True

/-- One of the LANs has the ID and the name of the cluster's LAN. -/
def IsOwn (ms : MachineScope) (lans : List Lan) (id : String) : Prop :=
  ∃ lan ∈ lans, lan.id = some id ∧ lan.name = some (lanName ms.clusterScope)

/-- Every LAN for which a run of the machine sends `DeleteLAN` has the cluster's name. -/
def DeletesOwn (ms : MachineScope) (lans : List Lan) : Prop :=
  ∀ v tr, Prefix (reconcileLANDeletion ms) v tr → (∀ e ∈ tr, ListsLANs lans e.call e.answer) →
    ∀ dc id a, ⟨.lansDelete dc id, a⟩ ∈ tr → IsOwn ms lans id

/-- The machine's network is a LAN of another name in which there is no NIC. -/
def Exposed (ms : MachineScope) (lans : List Lan) : Prop :=
  ∃ id lan, ms.spec.networkID = some id ∧ Addressable ms id ∧
    FirstWithID id (lanName ms.clusterScope) 0 lans lan ∧ lan.nics = some [] ∧ ¬ IsOwn ms lans id

/-- Only LANs of the cluster's name are deleted. -/
abbrev ownMonitor (ms : MachineScope) (lans : List Lan) : Monitor Call Call.Ans where
  Phase := Unit
  ok _ c :=
    match c with
    | .lansDelete _ id => IsOwn ms lans id
    | _ => True
  adm _ c a := ListsLANs lans c a
  next _ _ _ := ()
  panic _ := True

section

variable {ms : MachineScope} {lans : List Lan}

/-- The LAN `getLAN` finds is the one the search in the list finds. -/
theorem getLAN_found {q : Unit} {s : MachineVars} : (getLAN ms).wp (ownMonitor ms lans)
    (fun _ r _ => ∀ lan, r = .ok (some lan) →
      findLAN ms.spec.networkID (lanName ms.clusterScope) 0 none lans = .ok (some lan)) q s := by
  refine wp_getLAN ?_ trivial ?_ ?_ fun _ => trivial
  · intro e _ lan heq
    exact nomatch heq
  · intro e e' _ _ lan heq
    exact nomatch heq
  · intro items hitems lan heq
    obtain rfl : items = lans := Option.some.inj hitems
    exact heq

/-- A LAN without NICs that the search finds is the cluster's own, or the machine is exposed. -/
theorem found_own (hexposed : ¬ Exposed ms lans) {lan : Lan} {lanID : String}
    (hfound : findLAN ms.spec.networkID (lanName ms.clusterScope) 0 none lans = .ok (some lan))
    (hid : lan.id = some lanID) (hnics : lan.nics = some [])
    (haddressable : Addressable ms lanID) : IsOwn ms lans lanID := by
  have hmem : lan ∈ lans := (findLAN_mem hfound).resolve_right fun h => nomatch h
  cases hnetwork : ms.spec.networkID with
  | none =>
    rw [hnetwork] at hfound
    refine ⟨lan, hmem, hid, findLAN_name ?_ hfound⟩
    intro l hl
    exact nomatch hl
  | some id =>
    rw [hnetwork] at hfound
    have hfirst := (findLAN_byID (Nat.zero_le 1)).mp hfound
    have heq : id = lanID := by
      obtain ⟨_, _, _, hlan, _⟩ := hfirst
      exact Option.some.inj (hlan.symm.trans hid)
    by_contra hother
    exact hexposed ⟨id, lan, hnetwork, heq ▸ haddressable, hfirst, hnics, heq ▸ hother⟩

/-- Calls other than the deletion of a LAN do not matter. -/
theorem within_own {α κ : Type} {E : Call → Prop} {keep : MachineVars → κ} {p : MachineM α}
    (hp : Within E keep p) (hE : ∀ dc id, ¬ E (.lansDelete dc id)) {q : Unit} {s : MachineVars} :
    p.wp (ownMonitor ms lans) (fun _ _ _ => True) q s := by
  refine hp.wp_of_ok (fun _ c hc => ?_) fun _ => trivial
  cases c with
  | lansDelete dc id => exact absurd hc (hE dc id)
  | _ => trivial

theorem deleteLAN_own {lanID : String}
    (hown : ms.datacenterID ≠ "" → lanID ≠ "" → IsOwn ms lans lanID) {q : Unit} {s : MachineVars} :
    (deleteLAN ms lanID).wp (ownMonitor ms lans) (fun _ _ _ => True) q s := by
  unfold deleteLAN Client.deleteLAN
  rw [wp_bind]
  refine Client.wp_withParams_given (fun _ _ _ => (wp_pure _).mpr trivial) fun hgiven => ?_
  rw [wp_bind, wp_perform]
  refine ⟨?_, fun a _ => ?_⟩
  · exact hown (hgiven _ (List.mem_cons_self ..))
      (hgiven _ (List.mem_cons_of_mem _ (List.mem_cons_self ..)))
  rw [wp_pure]
  split
  next => exact (wp_pure _).mpr trivial
  next =>
    refine within_own (within_recordRequest (fun _ _ _ => rfl) fun r => ?_ :
      Within _ (fun _ => ()) _) fun _ _ h => h
    cases r <;> exact .pure _

theorem foundDeletion_own (hexposed : ¬ Exposed ms lans) {lan : Lan}
    (hfound : findLAN ms.spec.networkID (lanName ms.clusterScope) 0 none lans = .ok (some lan))
    {q : Unit} {s : MachineVars} :
    (reconcileFoundLANDeletion ms lan).wp (ownMonitor ms lans) (fun _ _ _ => True) q s := by
  unfold reconcileFoundLANDeletion
  cases hid : lan.id with
  | none => exact (wp_panicking _).mpr trivial
  | some lanID =>
    unfold getLatestLANDeletionRequest
    rw [wp_bind]
    refine wp_getMatchingRequest_given (fun _ _ => (wp_pure _).mpr trivial)
      fun hpath => ⟨trivial, fun a _ => ⟨trivial, fun r _ => ?_⟩⟩
    cases r with
    | error e => exact (wp_pure _).mpr trivial
    | ok request =>
      dsimp only
      rw [wp_ite]
      split
      next => exact (wp_pure _).mpr trivial
      next =>
        match hnics : lan.nics with
        | none => exact (wp_panicking _).mpr trivial
        | some (_ :: _) => exact (wp_pure _).mpr trivial
        | some [] =>
          have hown : ms.datacenterID ≠ "" → lanID ≠ "" → IsOwn ms lans lanID := fun hdc hne =>
            found_own hexposed hfound hid hnics ⟨hdc, hne, hpath⟩
          refine (wp_bind _ _).mpr (wp_mono (deleteLAN_own hown) fun _ r _ _ => ?_)
          cases r <;> exact (wp_pure _).mpr trivial

theorem lockedDeletion_own (hexposed : ¬ Exposed ms lans) {q : Unit} {s : MachineVars} :
    (reconcileLANDeletionLocked ms).wp (ownMonitor ms lans) (fun _ _ _ => True) q s := by
  unfold reconcileLANDeletionLocked
  refine (wp_bind _ _).mpr (wp_mono (wp_findResource_found (M := ownMonitor ms lans)
    (fun _ _ => True) (fun _ lan _ =>
      findLAN ms.spec.networkID (lanName ms.clusterScope) 0 none lans = .ok (some lan)) trivial
    (fun _ _ _ => wp_mono getLAN_found fun _ _ _ h => ⟨h, fun _ => trivial⟩) ?_)
    fun q r s hfound => ?_)
  · intro q s _
    unfold getLatestLANCreationRequest
    exact wp_getMatchingRequest (fun _ _ => trivial) trivial
      fun _ _ => ⟨trivial, fun _ _ => trivial⟩
  match r with
  | .error e => exact (wp_pure _).mpr trivial
  | .ok (lan, request) =>
    dsimp only
    rw [wp_ite]
    split
    next => exact (wp_pure _).mpr trivial
    next =>
      cases lan with
      | none =>
        have hbooks : Within Bookkeeping (fun _ : MachineVars => ())
            (removeLANPendingRequestFromCluster ms) :=
          within_removeLANPendingRequest (fun _ _ _ => rfl) (fun _ => trivial)
            (fun _ => trivial) fun _ => trivial
        refine (wp_bind _ _).mpr (wp_mono (within_own hbooks fun _ _ h => h) fun _ r _ _ => ?_)
        cases r <;> exact (wp_pure _).mpr trivial
      | some lan => exact foundDeletion_own hexposed (hfound.1 lan request rfl).1

theorem deletion_own (hexposed : ¬ Exposed ms lans) (s : MachineVars) :
    (reconcileLANDeletion ms).wp (ownMonitor ms lans) (fun _ _ _ => True) () s := by
  unfold reconcileLANDeletion
  refine wp_locked trivial (fun _ _ => ⟨trivial, fun _ => trivial⟩) (fun _ _ => trivial) fun _ => ?_
  exact wp_mono (lockedDeletion_own hexposed) fun _ _ _ _ => ⟨trivial, fun _ => trivial⟩

/-! ## The run that deletes another LAN -/

/-- `getLAN` for a LAN that is found by its ID. -/
theorem runs_getLAN {lan : Lan} (hdc : ms.datacenterID ≠ "")
    (hfound : findLAN ms.spec.networkID (lanName ms.clusterScope) 0 none lans = .ok (some lan))
    (s : MachineVars) : Runs (getLAN ms) s [⟨.lansGet ms.datacenterID, .ok (some lans)⟩]
      (.val (.ok (some lan))) s := by
  unfold getLAN Client.listLANs
  rw [Client.withParams_given (by simpa using hdc)]
  refine Prog.Reaches.step ?_
  show Runs (pure (findLAN ms.spec.networkID (lanName ms.clusterScope) 0 none lans)) s [] _ s
  rw [hfound]
  exact .refl _

/-- No request has been made. -/
theorem runs_getMatchingRequest_none {type : ResourceType} {method : Method} {url : String}
    {matchers : List Matcher} (hpath : (Text.cut url "?").1 ≠ "") (s : MachineVars) :
    Runs (getMatchingRequest type method url matchers) s
      [⟨.requestsGet method (Text.cut url "?").1, .ok none⟩] (.val (.ok none)) s := by
  unfold getMatchingRequest Client.getRequests
  rw [Client.withParams_given (by simpa using hpath)]
  exact Prog.Reaches.step (.refl _)

/-- The machine's run sends `DeleteLAN` for its network. -/
theorem exposed_deletes (h : Exposed ms lans) (v : MachineVars) :
    ∃ tr id, Prefix (reconcileLANDeletion ms) v tr ∧
      (∀ e ∈ tr, ListsLANs lans e.call e.answer) ∧
      ⟨.lansDelete ms.datacenterID id, .error (.new "EOF")⟩ ∈ tr ∧ ¬ IsOwn ms lans id := by
  obtain ⟨id, lan, hnetwork, haddressable, hfirst, hnics, hown⟩ := h
  obtain ⟨hdc, hid, hpath⟩ := haddressable
  have hlanID : lan.id = some id := by
    obtain ⟨_, _, _, hlan, _⟩ := hfirst
    exact hlan
  have hfound : findLAN ms.spec.networkID (lanName ms.clusterScope) 0 none lans =
      .ok (some lan) := by
    rw [hnetwork]
    exact (findLAN_byID (Nat.zero_le 1)).mpr hfirst
  have hdelete : Prefix (deleteLAN ms id) v
      [⟨.lansDelete ms.datacenterID id, .error (.new "EOF")⟩] := by
    unfold deleteLAN Client.deleteLAN
    rw [Client.withParams_given (by simpa using ⟨hdc, hid⟩)]
    exact Prefix.bind_left (Prefix.bind_left ⟨_, Runs.perform _ _ v⟩)
  have hrequest : Runs (getLatestLANDeletionRequest ms id) v _ _ v :=
    runs_getMatchingRequest_none hpath v
  have hdeletion : Prefix (reconcileFoundLANDeletion ms lan) v
      [⟨.requestsGet .delete (Text.cut (lanURL ms.datacenterID id) "?").1, .ok none⟩,
        ⟨.lansDelete ms.datacenterID id, .error (.new "EOF")⟩] := by
    unfold reconcileFoundLANDeletion
    rw [hlanID, hnics]
    exact Prefix.bind hrequest (Prefix.bind_left hdelete)
  have hfind : Runs (findResource (getLAN ms) (getLatestLANCreationRequest ms)) v
      ([⟨.lansGet ms.datacenterID, .ok (some lans)⟩] ++ []) (.val (.ok (some lan, none))) v :=
    Runs.bind (runs_getLAN hdc hfound v) (Runs.pure _ v)
  have hrun : Prefix (reconcileLANDeletion ms) v ([⟨.lock (lanLockKey ms), .ok ()⟩] ++ _) :=
    Prefix.bind (Runs.perform _ _ v) (Prefix.deferring (Prefix.bind hfind hdeletion))
  refine ⟨_, id, hrun, ?_, ?_, hown⟩
  · simp [ListsLANs]
  · simp

theorem Exposed.not_deletesOwn (h : Exposed ms lans) : ¬ DeletesOwn ms lans := by
  intro hown
  obtain ⟨tr, id, hrun, hlists, hmem, hother⟩ := exposed_deletes h default
  exact hother (hown default tr hrun hlists ms.datacenterID id _ hmem)

end

/-! ## The result -/

/-- Only the cluster's own LAN is deleted, unless the machine's network is another LAN that is
found and has no NICs. -/
theorem deletes_own (ms : MachineScope) (lans : List Lan) :
    DeletesOwn ms lans ↔ ¬ Exposed ms lans := by
  constructor
  · intro hown hexposed
    exact hexposed.not_deletesOwn hown
  · intro hexposed v tr hrun hlists dc id a hmem
    obtain ⟨before, after, rfl⟩ := List.append_of_mem hmem
    have hadmits : (ownMonitor ms lans).Admits () before :=
      Monitor.admits_of_forall (M := ownMonitor ms lans) (fun e he _ => hlists e (List.mem_append_left _ he)) ()
    exact wp_call_ok (deletion_own hexposed v) hrun hadmits

/-- A machine whose network is a LAN of its user. -/
def userNetwork : MachineScope :=
  { (default : MachineScope) with
    spec := { (default : MachineSpec) with datacenterID := "dc", networkID := some "7" } }

/-- The user's LAN, in which there is no NIC any more. -/
def userLAN : Lan :=
  { (default : Lan) with id := some "7", name := some "user-lan", nics := some [] }

/-- The user's LAN is deleted. -/
theorem deletes_users_lan : ¬ DeletesOwn userNetwork [userLAN] := by
  apply Exposed.not_deletesOwn
  refine ⟨"7", userLAN, rfl, ⟨by decide, by decide, by decide⟩, ?_, rfl, ?_⟩
  · exact ⟨[], [], rfl, rfl, fun _ h => (nomatch h), by decide⟩
  · rintro ⟨lan, hlan, _, hname⟩
    obtain rfl := List.mem_singleton.mp hlan
    exact absurd hname (by decide)

end Capic.Properties
