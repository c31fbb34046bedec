import Capic.Properties.InFlight.Cluster
import Capic.Properties.InFlight.Machine
import Capic.Properties.InFlight.Stored

/-!
# One change at a time

What follows from the rule of `InFlight.Rule` for the calls of whole runs, and of runs that follow
each other.

* `reconcile_changes_once`: a run sends one change. The one exception is a machine that joins a
  failover group: it patches its NIC, waits for that, and then patches the LAN.
* `reconcile_tracks`: a request that was accepted is stored in the run, or its end was reported in
  the run, or the run ends with an error; and the object is never stored without it in between.
* `reconcile_awaits`: over any number of runs, a change is sent only after the end of every
  request sent on behalf of the same object was reported. A run starts with what the runs before
  it stored, so a run that got a request accepted must not end before the object is stored. The
  machine's runs go on if the status of a request cannot be read, so for them the answers to that
  question have to be statuses the code knows; a cluster's run stops.
-/

namespace Capic.Properties.InFlight

open Effect Effect.Go Cloud Controller

/-! ## Traces -/

/-- What was sent. -/
def sentIn (tr : List (Event Call Call.Ans)) : List (Event Call Call.Ans) :=
  tr.filter fun e => changes e.call

/-- The end of the request is reported in the trace. -/
def SettledIn (path : String) (tr : List (Event Call Call.Ans)) : Prop :=
  ∃ e ∈ tr, settles path e.call e.answer = true

theorem SettledIn.left {path : String} {tr : List (Event Call Call.Ans)} (h : SettledIn path tr)
    (tr' : List (Event Call Call.Ans)) : SettledIn path (tr ++ tr') := by
  obtain ⟨e, he, hsettles⟩ := h
  exact ⟨e, List.mem_append_left _ he, hsettles⟩

theorem SettledIn.right {path : String} {tr : List (Event Call Call.Ans)} (h : SettledIn path tr)
    (tr' : List (Event Call Call.Ans)) : SettledIn path (tr' ++ tr) := by
  obtain ⟨e, he, hsettles⟩ := h
  exact ⟨e, List.mem_append_right _ he, hsettles⟩

theorem accepted_changes {owner : Owner} {c : Call} {a : Call.Ans c} {request : Tracked}
    (h : accepted owner c a = some request) : changes c = true := by
  cases c <;> first | rfl | cases h

theorem ok_of_map_toOption {r : Except Err String} {mk : String → Tracked} {request : Tracked}
    (h : r.toOption.map mk = some request) : ∃ path, r = .ok path ∧ request = mk path := by
  cases r with
  | error e => cases h
  | ok path => exact ⟨path, rfl, (Option.some.inj h).symm⟩

/-- What is accepted is a request of the owner, or one for a LAN. -/
theorem accepted_cases {owner : Owner} {c : Call} {a : Call.Ans c} {request : Tracked}
    (h : accepted owner c a = some request) :
    (∃ method path, request = .own owner method path) ∨
      (∃ id method path, request = .datacenter id method path) ∧ lanAccepted c a = true := by
  cases c with
  | lansPost dc lan =>
    obtain ⟨path, hr, rfl⟩ := ok_of_map_toOption h
    exact .inr ⟨⟨dc, .post, path, rfl⟩, by simp [lanAccepted, hr, Except.toBool]⟩
  | lansDelete dc id =>
    obtain ⟨path, hr, rfl⟩ := ok_of_map_toOption h
    exact .inr ⟨⟨dc, .delete, path, rfl⟩, by simp [lanAccepted, hr, Except.toBool]⟩
  | _ =>
    first
    | cases h
    | obtain ⟨path, -, rfl⟩ := ok_of_map_toOption h
      exact .inl ⟨_, path, rfl⟩

theorem accepted_path {owner : Owner} {c : Call} {a : Call.Ans c} {request : Tracked}
    (h : accepted owner c a = some request) : request.path ≠ "" := by
  -- all that is accepted has a location
  have hlocated : ∀ {r : Except Err String} {mk : String → Tracked},
      (∀ path, (mk path).path = path) → (Client.located r).toOption.map mk = some request →
      request.path ≠ "" := by
    intro r mk hmk h
    obtain ⟨path, hr, rfl⟩ := ok_of_map_toOption h
    rw [hmk]
    exact (Client.located_ok hr).2
  cases c <;> first | exact hlocated (fun _ => rfl) h | cases h

section

variable {owner : Owner} {A : (c : Call) → Call.Ans c → Prop} {q : Phase} {request : Tracked}
  {tr : List (Event Call Call.Ans)}

/-- A request stays in flight until its end is reported. -/
theorem left_next {c : Call} (hok : (monitor owner A).ok q c) (a : Call.Ans c)
    (hq : q.left = some request) :
    (q.next owner c a).left = some request ∨ settles request.path c a = true := by
  by_cases hsettles : settles request.path c a = true
  · exact .inr hsettles
  refine .inl ?_
  have hunsettled : Phase.unsettled (some request) c a = some request := by
    simp [Phase.unsettled, hsettles]
  cases q with
  | awaiting request' =>
    obtain rfl : request' = request := Option.some.inj hq
    simp [Phase.next, hsettles, Phase.left]
  | fresh => cases hq
  | nic left =>
    obtain rfl : left = some request := hq
    have hchange : changes c = false := by
      cases hc : changes c with
      | false => rfl
      | true => cases (hok.1 hc).1
    simp [Phase.next, hchange, Phase.left, hunsettled]
  | sent left =>
    obtain rfl : left = some request := hq
    exact hunsettled

theorem left_after (hok : (monitor owner A).Allows q tr) (hq : q.left = some request) :
    ((monitor owner A).after q tr).left = some request ∨ SettledIn request.path tr := by
  induction tr generalizing q with
  | nil => exact .inl hq
  | cons e tr ih =>
    rcases left_next hok.1 e.answer hq with hleft | hsettles
    · exact (ih hok.2 hleft).imp_right fun h => h.right [e]
    · exact .inr ⟨e, List.mem_cons_self .., hsettles⟩

/-- A request that was just accepted is in flight. -/
theorem left_accepted {c : Call} (hok : (monitor owner A).ok q c) {a : Call.Ans c}
    (h : accepted owner c a = some request) : (q.next owner c a).left = some request := by
  have hchange := accepted_changes h
  cases q with
  | awaiting request' =>
    have hno : changes c = false := hok.1
    rw [hchange] at hno
    cases hno
  | fresh =>
    by_cases hnic : isNICPatch c = true
    · simp [Phase.next, hchange, hnic, h, Phase.left]
    · simp [Phase.next, hchange, hnic, h, Phase.left]
  | nic left => simp [Phase.next, hchange, h, Phase.left]
  | sent left =>
    have hno := Phase.Recording.changes hok.1
    rw [hchange] at hno
    cases hno

/-- A request that was accepted in the trace is in flight, or its end was reported since. -/
theorem left_of_accepted {tr₁ tr₂ : List (Event Call Call.Ans)} {e : Event Call Call.Ans}
    (hok : (monitor owner A).Allows q (tr₁ ++ e :: tr₂))
    (h : accepted owner e.call e.answer = some request) :
    ((monitor owner A).after q (tr₁ ++ e :: tr₂)).left = some request ∨
      SettledIn request.path tr₂ := by
  obtain ⟨-, he, htr₂⟩ := Monitor.allows_append.mp hok
  rw [Monitor.after_append]
  exact left_after htr₂ (left_accepted he h)

/-- What is in flight was in flight, or was accepted. -/
theorem left_origin (h : ((monitor owner A).after q tr).left = some request) :
    q.left = some request ∨ ∃ e ∈ tr, accepted owner e.call e.answer = some request := by
  induction tr generalizing q with
  | nil => exact .inl h
  | cons e tr ih =>
    rcases ih h with hleft | ⟨e', he', haccepted⟩
    · have hunsettled : ∀ left, Phase.unsettled left e.call e.answer = some request →
          left = some request := fun left h => (Option.filter_eq_some_iff.mp h).1
      have hleft : (q.next owner e.call e.answer).left = some request := hleft
      -- the phases differ in what a change leaves
      have hcases : q.left = some request ∨ accepted owner e.call e.answer = some request := by
        cases q with
        | awaiting request' =>
          by_cases hsettles : settles request'.path e.call e.answer = true
          · simp [Phase.next, hsettles, Phase.left] at hleft
          · simp [Phase.next, hsettles, Phase.left] at hleft
            exact .inl (congrArg some hleft)
        | fresh =>
          by_cases hchange : changes e.call = true
          · refine .inr ?_
            simp only [Phase.next, hchange, if_true] at hleft
            split at hleft <;> exact hleft
          · simp [Phase.next, hchange, Phase.left] at hleft
        | nic left =>
          by_cases hchange : changes e.call = true
          · simp only [Phase.next, hchange, if_true] at hleft
            exact .inr hleft
          · simp only [Phase.next, hchange] at hleft
            exact .inl (hunsettled left hleft)
        | sent left => exact .inl (hunsettled left hleft)
      exact hcases.imp_right fun h => ⟨e, List.mem_cons_self .., h⟩
    · exact .inr ⟨e', List.mem_cons_of_mem _ he', haccepted⟩

/-- The NIC was patched, as the only change, and its request is in flight or has ended. -/
def NICPatched (left : Option Tracked) (tr : List (Event Call Call.Ans)) : Prop :=
  ∃ n request, sentIn tr = [n] ∧ isNICPatch n.call = true ∧
    accepted .machine n.call n.answer = some request ∧
    (left = some request ∨ left = none ∧ SettledIn request.path tr)

/-- What the phase says about the calls so far. -/
def Past (owner : Owner) : Phase → List (Event Call Call.Ans) → Prop
  | .awaiting _, _ => False
  | .fresh, tr => sentIn tr = []
  | .nic left, tr => owner = .machine ∧ NICPatched left tr
  | .sent _, _ => True

theorem sentIn_quiet {e : Event Call Call.Ans} (hchange : changes e.call = false)
    (tr : List (Event Call Call.Ans)) : sentIn (tr ++ [e]) = sentIn tr := by
  simp [sentIn, hchange]

theorem sentIn_change {e : Event Call Call.Ans} (hchange : changes e.call = true)
    (tr : List (Event Call Call.Ans)) : sentIn (tr ++ [e]) = sentIn tr ++ [e] := by
  simp [sentIn, hchange]

/-- One more call. -/
theorem Past.next {e : Event Call Call.Ans} (h : Past owner q tr)
    (hok : (monitor owner A).ok q e.call) :
    Past owner (q.next owner e.call e.answer) (tr ++ [e]) := by
  cases q with
  | awaiting request => exact False.elim h
  | sent left => trivial
  | fresh =>
    cases hchange : changes e.call with
    | false =>
      have hnext : Phase.next owner .fresh e.call e.answer = .fresh := by
        simp [Phase.next, hchange]
      rw [hnext]
      exact (sentIn_quiet hchange tr).trans h
    | true =>
      by_cases hnic : isNICPatch e.call = true ∧ (accepted owner e.call e.answer).isSome = true
      · obtain rfl : owner = .machine := hok.1 hnic.1
        obtain ⟨request, hrequest⟩ := Option.isSome_iff_exists.mp hnic.2
        have hnext : Phase.next .machine .fresh e.call e.answer = .nic (some request) := by
          simp [Phase.next, hchange, hnic.1, hrequest]
        rw [hnext]
        refine ⟨rfl, e, request, ?_, hnic.1, hrequest, .inl rfl⟩
        rw [sentIn_change hchange, show sentIn tr = [] from h]
        rfl
      · have hnext : Phase.next owner .fresh e.call e.answer =
            .sent (accepted owner e.call e.answer) := by
          simp only [Phase.next, hchange, if_true, if_neg hnic]
        rw [hnext]
        trivial
  | nic left =>
    obtain ⟨rfl, n, request, hsent, hnic, haccepted, hleft⟩ := h
    cases hchange : changes e.call with
    | true =>
      have hnext : Phase.next .machine (.nic left) e.call e.answer =
          .sent (accepted .machine e.call e.answer) := by
        simp [Phase.next, hchange]
      rw [hnext]
      trivial
    | false =>
      have hnext : Phase.next .machine (.nic left) e.call e.answer =
          .nic (Phase.unsettled left e.call e.answer) := by
        simp [Phase.next, hchange]
      rw [hnext]
      refine ⟨rfl, n, request, (sentIn_quiet hchange tr).trans hsent, hnic, haccepted, ?_⟩
      rcases hleft with rfl | ⟨rfl, hsettled⟩
      · -- the answer may report the end of the NIC's request
        by_cases hsettles : settles request.path e.call e.answer = true
        · refine .inr ⟨?_, e, by simp, hsettles⟩
          simp [Phase.unsettled, hsettles]
        · exact .inl (by simp [Phase.unsettled, hsettles])
      · exact .inr ⟨rfl, hsettled.left [e]⟩

theorem Past.run {tr' : List (Event Call Call.Ans)} (h : Past owner q tr)
    (hok : (monitor owner A).Allows q tr') :
    Past owner ((monitor owner A).after q tr') (tr ++ tr') := by
  induction tr' generalizing q tr with
  | nil =>
    rw [List.append_nil]
    exact h
  | cons e tr' ih =>
    have hnext := ih (h.next hok.1) hok.2
    rw [List.append_assoc] at hnext
    exact hnext

/-- A change comes first, or it patches the LAN after the NIC. -/
theorem first_change {tr₁ : List (Event Call Call.Ans)} {c : Call}
    (hallows : (monitor owner A).Allows .fresh tr₁)
    (hok : (monitor owner A).ok ((monitor owner A).after .fresh tr₁) c) (hc : changes c = true) :
    sentIn tr₁ = [] ∨ owner = .machine ∧ isLANPatch c = true ∧ NICPatched none tr₁ := by
  have hpast : Past owner .fresh [] := rfl
  have hpast := hpast.run hallows
  rw [List.nil_append] at hpast
  generalize (monitor owner A).after .fresh tr₁ = q at hpast hok
  cases q with
  | awaiting request => exact False.elim hpast
  | fresh => exact .inl hpast
  | nic left =>
    obtain ⟨rfl, hlan⟩ := hok.1 hc
    exact .inr ⟨hpast.1, hlan, hpast.2⟩
  | sent left =>
    have hno := Phase.Recording.changes hok.1
    rw [hc] at hno
    cases hno

end

/-! ## Runs of a machine that joins, and of a cluster that gets its endpoint -/

/-- A control plane machine of a cluster that is ready. -/
def joiningMachine : MachineScope :=
  { (default : MachineScope) with
    isControlPlane := true
    dataSecretName := some "bootstrap"
    spec := { (default : MachineSpec) with datacenterID := "dc" }
    clusterScope := { (default : ClusterScope) with
      infrastructureProvisioned := some true
      parseAddr := some }
    uuidValidate := fun _ => none }

def joiningVars : MachineVars :=
  { (default : MachineVars) with cluster := { (default : ClusterVars) with host := "10.0.0.9" } }

/-- The LAN and a server in this state are there, and every request is done. -/
def joiningAnswers (vmState : String) : ∀ c : Call, Call.Ans c
  | .getCredentials _ _ => .ok ⟨"", "", 0, [], [], "token", ""⟩
  | .getSecret _ _ => .ok ⟨some "#cloud-config"⟩
  | .lansGet _ => .ok (some [⟨some "1", some "lan--", some "AVAILABLE", none, some []⟩])
  | .serversGet _ => .ok (some [⟨some "server", some "AVAILABLE",
      some ⟨some "", some vmState, none⟩,
      some [⟨some "nic", some (nicName ""), some ["10.0.0.1"], none, none⟩]⟩])
  | .getRequestStatus _ => .ok ⟨some .done, none⟩
  | c => Call.plain c

/-- The calls of a run with these answers. -/
def joiningCalls (vmState : String) (v : MachineVars) : List (Event Call Call.Ans) :=
  ((Machine.reconcile joiningMachine v).play (joiningAnswers vmState)).1

/-- What such a run leaves. -/
def joiningLeft (vmState : String) (v : MachineVars) : MachineVars :=
  ((Machine.reconcile joiningMachine v).play (joiningAnswers vmState)).2.2

/-- The machine after its server was started. -/
def startedVars : MachineVars :=
  { joiningVars with currentRequest := some ⟨.post, "request", .queued⟩ }

/-- A cluster with a load balancer. -/
def endpointCluster : ClusterScope :=
  { (default : ClusterScope) with
    name := "cluster"
    location := "de/fra"
    loadBalancerProviderRef := some "provider" }

/-- There is no block, and every request is done. -/
def endpointAnswers : ∀ c : Call, Call.Ans c
  | .getCredentials _ _ => .ok ⟨"", "", 0, [], [], "token", ""⟩
  | .getRequestStatus _ => .ok ⟨some .done, none⟩
  | c => Call.plain c

def endpointCalls (v : ClusterVars) : List (Event Call Call.Ans) :=
  ((Cluster.reconcile endpointCluster v).play endpointAnswers).1

def endpointLeft (v : ClusterVars) : ClusterVars :=
  ((Cluster.reconcile endpointCluster v).play endpointAnswers).2.2

/-- The cluster after its block was reserved. -/
def reservedVars : ClusterVars :=
  { (default : ClusterVars) with currentClusterRequest := some ⟨.post, "request", .queued⟩ }

/-! ## One change -/

/-- A machine's run sends one change. The one exception is a machine that joins a failover group:
it patches its NIC, waits until that is done, and then patches the LAN. -/
theorem reconcile_changes_once {ms : MachineScope} {v : MachineVars}
    {tr₁ tr₂ : List (Event Call Call.Ans)} {e : Event Call Call.Ans}
    (hr : Prefix (Machine.reconcile ms) v (tr₁ ++ e :: tr₂)) (he : changes e.call = true) :
    sentIn tr₁ = [] ∨ isLANPatch e.call = true ∧ ∃ n request, sentIn tr₁ = [n] ∧
      isNICPatch n.call = true ∧ accepted .machine n.call n.answer = some request ∧
      SettledIn request.path tr₁ := by
  have hwp : (Machine.reconcile ms).wp (monitor .machine fun _ _ => True)
      (fun q' _ v' => Recorded MachineVars.Has q' v') .fresh v :=
    wp_machineReconcile (.inl rfl) fun h => absurd rfl h
  have hadmits : (monitor .machine fun _ _ => True).Admits .fresh tr₁ :=
    Monitor.admits_of_forall (fun _ _ _ => trivial) _
  have hallows := wp_prefix_allows hwp hr.left hadmits
  have hok := wp_call_ok hwp hr hadmits
  rcases first_change hallows hok he with hnone | ⟨-, hlan, n, request, hsent, hnic, haccepted, hleft⟩
  · exact .inl hnone
  · rcases hleft with h | ⟨-, hsettled⟩
    · cases h
    · exact .inr ⟨hlan, n, request, hsent, hnic, haccepted, hsettled⟩

/-- The machine patches its NIC and then the LAN. -/
theorem joining_changes :
    ∃ tr₁ e tr₂, Prefix (Machine.reconcile joiningMachine) joiningVars (tr₁ ++ e :: tr₂) ∧
      changes e.call = true ∧ sentIn tr₁ ≠ [] ∧ isLANPatch e.call = true ∧
      ∃ n request, sentIn tr₁ = [n] ∧ isNICPatch n.call = true ∧
        accepted .machine n.call n.answer = some request ∧ SettledIn request.path tr₁ := by
  have hsplit : joiningCalls "RUNNING" joiningVars =
      (joiningCalls "RUNNING" joiningVars).take 18 ++
        ⟨.lansPatch "dc" "1" [⟨some "10.0.0.9", some "nic"⟩], .ok "request"⟩ ::
          (joiningCalls "RUNNING" joiningVars).drop 19 := rfl
  have hprefix : Prefix (Machine.reconcile joiningMachine) joiningVars
      (joiningCalls "RUNNING" joiningVars) := ⟨_, runs_play _ _ (joiningAnswers "RUNNING")⟩
  rw [hsplit] at hprefix
  have hsent : sentIn ((joiningCalls "RUNNING" joiningVars).take 18) ≠ [] := by
    intro h
    cases h
  exact ⟨_, _, _, hprefix, rfl, hsent,
    (reconcile_changes_once hprefix rfl).resolve_left hsent⟩

/-- A cluster's run sends one change. -/
theorem clusterReconcile_changes_once {cs : ClusterScope} {v : ClusterVars}
    {tr₁ tr₂ : List (Event Call Call.Ans)} {e : Event Call Call.Ans}
    (hr : Prefix (Cluster.reconcile cs) v (tr₁ ++ e :: tr₂)) (he : changes e.call = true) :
    sentIn tr₁ = [] := by
  have hwp : (Cluster.reconcile cs).wp (monitor .cluster fun _ _ => True)
      (fun q' _ v' => Recorded ClusterVars.Has q' v') .fresh v := wp_clusterReconcile (.inl rfl)
  have hadmits : (monitor .cluster fun _ _ => True).Admits .fresh tr₁ :=
    Monitor.admits_of_forall (fun _ _ _ => trivial) _
  have hallows := wp_prefix_allows hwp hr.left hadmits
  have hok := wp_call_ok hwp hr hadmits
  rcases first_change hallows hok he with hnone | ⟨h, -⟩
  · exact hnone
  · cases h

/-- The cluster reserves its block. -/
theorem endpoint_changes :
    ∃ tr₁ e tr₂, Prefix (Cluster.reconcile endpointCluster) default (tr₁ ++ e :: tr₂) ∧
      changes e.call = true ∧ sentIn tr₁ = [] := by
  have hsplit : endpointCalls default = (endpointCalls default).take 4 ++
      ⟨.ipblocksPost "ipb--cluster" "de/fra" 1, .ok "request"⟩ ::
        (endpointCalls default).drop 5 := rfl
  have hprefix : Prefix (Cluster.reconcile endpointCluster) default (endpointCalls default) :=
    ⟨_, runs_play _ _ endpointAnswers⟩
  rw [hsplit] at hprefix
  exact ⟨_, _, _, hprefix, rfl, clusterReconcile_changes_once hprefix rfl⟩

/-! ## What is stored -/

/-- The request was stored in the trace. -/
def StoredIn (request : Tracked) (tr : List (Event Call Call.Ans)) : Prop :=
  ∃ e ∈ tr, request.storedBy e.call ∧ patched e.call e.answer = true

section

variable {owner : Owner} {σ R : Type} {has : σ → Tracked → Prop} {request : Tracked}
  {tr₁ tr₂ : List (Event Call Call.Ans)} {e : Event Call Call.Ans} {p : Go Call Call.Ans σ R}
  {v v' : σ} {r : Res R}

/-- A request that was accepted is in every object stored after it, unless its end was reported
before. -/
theorem named (hwp : p.wp (monitor owner fun _ _ => True) (fun q' _ v' => Recorded has q' v') .fresh v)
    (hr : Runs p v (tr₁ ++ e :: tr₂) r v') (h : accepted owner e.call e.answer = some request)
    {tr₃ tr₄ : List (Event Call Call.Ans)} {e' : Event Call Call.Ans} (htr₂ : tr₂ = tr₃ ++ e' :: tr₄) :
    request.names e'.call ∨ SettledIn request.path tr₃ := by
  have hsplit : tr₁ ++ e :: tr₂ = (tr₁ ++ e :: tr₃) ++ e' :: tr₄ := by simp [htr₂]
  have hallows := wp_runs_allows hwp hr (Monitor.admits_of_forall (fun _ _ _ => trivial) _)
  rw [hsplit] at hallows
  obtain ⟨hbefore, hok, -⟩ := Monitor.allows_append.mp hallows
  exact (left_of_accepted hbefore h).imp_left fun hleft => hok.2 request hleft

/-- At the end of the run, the variables have it. A panic leaves nothing in flight. -/
theorem left_at_end (hwp : p.wp (monitor owner fun _ _ => True) (fun q' _ v' => Recorded has q' v') .fresh v)
    (hr : Runs p v (tr₁ ++ e :: tr₂) r v') (h : accepted owner e.call e.answer = some request) :
    (∃ a, r = .val a) ∧ has v' request ∨ SettledIn request.path tr₂ := by
  have hadmits : (monitor owner fun _ _ => True).Admits .fresh (tr₁ ++ e :: tr₂) :=
    Monitor.admits_of_forall (fun _ _ _ => trivial) _
  rcases left_of_accepted (wp_runs_allows hwp hr hadmits) h with hleft | hsettled
  · refine .inl ?_
    cases r with
    | val a => exact ⟨⟨a, rfl⟩, wp_runs hwp hr hadmits request hleft⟩
    | panic msg =>
      have hnone : ((monitor owner fun _ _ => True).after .fresh (tr₁ ++ e :: tr₂)).left = none :=
        wp_runs_panic hwp hr hadmits
      rw [hnone] at hleft
      cases hleft
  · exact .inr hsettled

end

section

variable {owner : Owner} {σ : Type} {has : σ → Tracked → Prop} {tr₁ tr₂ : List (Event Call Call.Ans)}
  {e : Event Call Call.Ans} {method : Method} {path : String} {v v' : σ}
  {r : Res (Result × Option Err)} {attempt : Go Call Call.Ans σ (Option Err)} {steps : Nat}
  {body : Go Call Call.Ans σ (Result × Option Err)}

/-- A request of the owner's own is stored by `Finalize`, or the run ends with an error. -/
theorem own_stored {store : σ → Except Err Unit → Event Call Call.Ans}
    (hattempt : ∀ {s tr r s'}, Runs attempt s tr r s' →
      ∃ a, tr = [store s a] ∧ r = .val (ClusterScope.errOf a) ∧ s' = s)
    (hstore : ∀ v a, changes (store v a).call = false)
    (hstored : ∀ v, has v (.own owner method path) →
      StoredIn (.own owner method path) [store v (.ok ())])
    (hsteps : 0 < steps)
    (hwp : (withFinalize (retryOnError attempt steps) body).wp (monitor owner fun _ _ => True)
      (fun q' _ v' => Recorded has q' v') .fresh v)
    (hr : Runs (withFinalize (retryOnError attempt steps) body) v (tr₁ ++ e :: tr₂) r v')
    (h : accepted owner e.call e.answer = some (.own owner method path)) :
    StoredIn (.own owner method path) tr₂ ∨ SettledIn path tr₂ ∨
      ∃ result err, r = .val (result, some err) := by
  rcases left_at_end hwp hr h with ⟨⟨⟨result, err⟩, rfl⟩, hhas⟩ | hsettled
  · cases err with
    | some err => exact .inr (.inr ⟨result, err, rfl⟩)
    | none =>
      obtain ⟨before, last, hsplit, hlast⟩ := runs_finalize_inv hattempt hsteps hr
      obtain rfl := hlast result rfl
      -- the change is not the last call
      rcases List.eq_nil_or_concat' tr₂ with rfl | ⟨tr₃, e', rfl⟩
      · obtain ⟨-, hcons⟩ := List.append_inj' hsplit rfl
        obtain rfl := List.singleton_inj.mp hcons
        have hchange := accepted_changes h
        rw [hstore] at hchange
        cases hchange
      · rw [← List.cons_append, ← List.append_assoc] at hsplit
        obtain ⟨-, hcons⟩ := List.append_inj' hsplit rfl
        obtain rfl := List.singleton_inj.mp hcons
        obtain ⟨e', he', hstoredBy⟩ := hstored v' hhas
        exact .inl ⟨e', List.mem_append_right _ he', hstoredBy⟩
  · exact .inr (.inl hsettled)

end

/-- A request that a machine's run got accepted is stored in the run, or its end is reported, or
the run ends with an error. Everything that is stored on the way has it until its end is
reported. -/
theorem reconcile_tracks {ms : MachineScope} {v v' : MachineVars}
    {tr₁ tr₂ : List (Event Call Call.Ans)} {e : Event Call Call.Ans} {request : Tracked}
    {r : Res (Result × Option Err)} (hr : Runs (Machine.reconcile ms) v (tr₁ ++ e :: tr₂) r v')
    (h : accepted .machine e.call e.answer = some request) :
    (StoredIn request tr₂ ∨ SettledIn request.path tr₂ ∨
        ∃ result err, r = .val (result, some err)) ∧
      ∀ tr₃ e' tr₄, tr₂ = tr₃ ++ e' :: tr₄ →
        request.names e'.call ∨ SettledIn request.path tr₃ := by
  have hwp : (Machine.reconcile ms).wp (monitor .machine fun _ _ => True)
      (fun q' _ v' => Recorded MachineVars.Has q' v') .fresh v :=
    wp_machineReconcile (.inl rfl) fun h => absurd rfl h
  have hnamed : ∀ tr₃ e' tr₄, tr₂ = tr₃ ++ e' :: tr₄ →
      request.names e'.call ∨ SettledIn request.path tr₃ := fun _ _ _ => named hwp hr h
  refine ⟨?_, hnamed⟩
  rcases accepted_cases h with ⟨method, path, rfl⟩ | ⟨⟨id, method, path, rfl⟩, hlan⟩
  · exact own_stored MachineScope.runs_patchObject_inv (fun _ _ => rfl)
      (fun v hhas => ⟨_, List.mem_singleton_self _, hhas, rfl⟩) ms.libs.defaultBackoffSteps_pos hwp hr h
  · rcases lan_stored hr hlan with ⟨⟨c, a⟩, hmem, hstored⟩ | herror
    · obtain ⟨tr₃, tr₄, rfl⟩ := List.append_of_mem hmem
      rcases hnamed _ _ _ rfl with hnames | hsettled
      · refine .inl ⟨_, hmem, ?_⟩
        cases c with
        | patchCluster obj => exact ⟨hnames, hstored⟩
        | _ => cases hstored
      · exact .inr (.inl (hsettled.left _))
    · exact .inr (.inr herror)

/-- A server is started, and its request is stored. -/
theorem joining_tracks :
    ∃ tr₁ e tr₂ r v', Runs (Machine.reconcile joiningMachine) joiningVars
        (tr₁ ++ e :: tr₂) r v' ∧
      accepted .machine e.call e.answer = some (.own .machine .post "request") ∧
      ¬ SettledIn "request" tr₂ ∧ (¬ ∃ result err, r = .val (result, some err)) ∧
      StoredIn (.own .machine .post "request") tr₂ := by
  have hsplit : joiningCalls "SHUTOFF" joiningVars =
      (joiningCalls "SHUTOFF" joiningVars).take 10 ++
        ⟨.serversStartPost "dc" "server", .ok "request"⟩ ::
          [⟨.patchMachine (joiningLeft "SHUTOFF" joiningVars), .ok ()⟩] := rfl
  have hruns : Runs (Machine.reconcile joiningMachine) joiningVars
      (joiningCalls "SHUTOFF" joiningVars) (.val (⟨20⟩, none)) (joiningLeft "SHUTOFF" joiningVars) :=
    runs_play _ _ (joiningAnswers "SHUTOFF")
  rw [hsplit] at hruns
  have hopen : ¬ SettledIn "request"
      [⟨.patchMachine (joiningLeft "SHUTOFF" joiningVars), .ok ()⟩] := by
    rintro ⟨e, he, hsettles⟩
    obtain rfl := List.mem_singleton.mp he
    cases hsettles
  have hval : ¬ ∃ result err, (Res.val (⟨20⟩, none) : Res (Result × Option Err)) =
      .val (result, some err) := by
    rintro ⟨result, err, heq⟩
    cases heq
  have haccepted : accepted .machine (.serversStartPost "dc" "server") (.ok "request") =
      some (.own .machine .post "request") := rfl
  exact ⟨_, _, _, _, _, hruns, haccepted, hopen, hval,
    (reconcile_tracks hruns haccepted).1.resolve_right (not_or.mpr ⟨hopen, hval⟩)⟩

/-- The same for a cluster's run and the requests of the cluster itself. -/
theorem clusterReconcile_tracks {cs : ClusterScope} {v v' : ClusterVars}
    {tr₁ tr₂ : List (Event Call Call.Ans)} {e : Event Call Call.Ans} {method : Method}
    {path : String} {r : Res (Result × Option Err)}
    (hr : Runs (Cluster.reconcile cs) v (tr₁ ++ e :: tr₂) r v')
    (h : accepted .cluster e.call e.answer = some (.own .cluster method path)) :
    (StoredIn (.own .cluster method path) tr₂ ∨ SettledIn path tr₂ ∨
        ∃ result err, r = .val (result, some err)) ∧
      ∀ tr₃ e' tr₄, tr₂ = tr₃ ++ e' :: tr₄ →
        (Tracked.own .cluster method path).names e'.call ∨ SettledIn path tr₃ := by
  have hwp : (Cluster.reconcile cs).wp (monitor .cluster fun _ _ => True)
      (fun q' _ v' => Recorded ClusterVars.Has q' v') .fresh v := wp_clusterReconcile (.inl rfl)
  exact ⟨own_stored ClusterScope.runs_patchObject_inv (fun _ _ => rfl)
    (fun v hhas => ⟨_, List.mem_singleton_self _, hhas, rfl⟩) cs.libs.defaultBackoffSteps_pos hwp hr h,
    fun _ _ _ => named hwp hr h⟩

/-- The request for the cluster's block is stored. -/
theorem endpoint_tracks :
    ∃ tr₁ e tr₂ r v', Runs (Cluster.reconcile endpointCluster) default (tr₁ ++ e :: tr₂) r v' ∧
      accepted .cluster e.call e.answer = some (.own .cluster .post "request") ∧
      ¬ SettledIn "request" tr₂ ∧ (¬ ∃ result err, r = .val (result, some err)) ∧
      StoredIn (.own .cluster .post "request") tr₂ := by
  have hsplit : endpointCalls default = (endpointCalls default).take 4 ++
      ⟨.ipblocksPost "ipb--cluster" "de/fra" 1, .ok "request"⟩ ::
        [⟨.patchCluster (endpointLeft default), .ok ()⟩] := rfl
  have hruns : Runs (Cluster.reconcile endpointCluster) default (endpointCalls default)
      (.val (⟨20⟩, none)) (endpointLeft default) := runs_play _ _ endpointAnswers
  rw [hsplit] at hruns
  have hopen : ¬ SettledIn "request" [⟨.patchCluster (endpointLeft default), .ok ()⟩] := by
    rintro ⟨e, he, hsettles⟩
    obtain rfl := List.mem_singleton.mp he
    cases hsettles
  have hval : ¬ ∃ result err, (Res.val (⟨20⟩, none) : Res (Result × Option Err)) =
      .val (result, some err) := by
    rintro ⟨result, err, heq⟩
    cases heq
  have haccepted : accepted .cluster (.ipblocksPost "ipb--cluster" "de/fra" 1) (.ok "request") =
      some (.own .cluster .post "request") := rfl
  exact ⟨_, _, _, _, _, hruns, haccepted, hopen, hval,
    (clusterReconcile_tracks hruns haccepted).1.resolve_right (not_or.mpr ⟨hopen, hval⟩)⟩

/-! ## Runs that follow each other -/

/-- The request in the object that the call stores. -/
def Owner.stores : Owner → Call → Option (Option ProvisioningRequest)
  | .machine, .patchMachine obj => some obj.currentRequest
  | .cluster, .patchCluster obj => some obj.currentClusterRequest
  | _, _ => none

/-- The request that these calls may leave stored, after `first`: a patch was carried out if it
was answered without an error, and may have been if not. -/
inductive MayLeave (owner : Owner) (first : Option ProvisioningRequest) :
    List (Event Call Call.Ans) → Option ProvisioningRequest → Prop
  | start : MayLeave owner first [] first
  | stored {tr : List (Event Call Call.Ans)} {e : Event Call Call.Ans}
      {last request : Option ProvisioningRequest} : MayLeave owner first tr last →
      owner.stores e.call = some request → MayLeave owner first (tr ++ [e]) request
  | kept {tr : List (Event Call Call.Ans)} {e : Event Call Call.Ans}
      {last : Option ProvisioningRequest} : MayLeave owner first tr last →
      (patched e.call e.answer = true → owner.stores e.call = none) →
      MayLeave owner first (tr ++ [e]) last

/-- If a request of the owner was accepted, the last call is a patch of the object, and it was
carried out. -/
def Saved (owner : Owner) (tr : List (Event Call Call.Ans)) : Prop :=
  ∀ e ∈ tr, ∀ method path, accepted owner e.call e.answer = some (.own owner method path) →
    ∃ tr' e', tr = tr' ++ [e'] ∧ patched e'.call e'.answer = true ∧ owner.stores e'.call ≠ none

/-- The runs of one object, each with a scope of its own, and what they called. A run begins with
the request that is stored, and nobody else writes it. It may be cut off at any point; where it
got a request accepted, that is after a patch that stores it. -/
inductive Lived {S σ R : Type} (owner : Owner) (run : S → Go Call Call.Ans σ R)
    (request : σ → Option ProvisioningRequest) (first : Option ProvisioningRequest) :
    List (Event Call Call.Ans) → Option ProvisioningRequest → Prop
  | none : Lived owner run request first [] first
  | run {tr tr' : List (Event Call Call.Ans)} {scope : S} {v : σ}
      {last : Option ProvisioningRequest} :
      Lived owner run request first tr (request v) → Prefix (run scope) v tr' → Saved owner tr' →
      MayLeave owner (request v) tr' last → Lived owner run request first (tr ++ tr') last

/-- Where the next run starts. -/
def Phase.restart (owner : Owner) (q : Phase) : Phase :=
  match q.left with
  | some (.own owner' method path) =>
    if owner' = owner then .awaiting (.own owner' method path) else .fresh
  | _ => .fresh

section

variable {owner : Owner} {A : (c : Call) → Call.Ans c → Prop} {q : Phase}
  {first last : Option ProvisioningRequest} {tr : List (Event Call Call.Ans)} {method : Method}
  {path : String}

theorem restart_of_left (h : q.left = some (.own owner method path)) :
    q.restart owner = .awaiting (.own owner method path) := by
  simp [Phase.restart, h]

theorem Owner.quiet_of_stores {c : Call} (h : owner.stores c ≠ none) : Quiet c := by
  cases c with
  | patchMachine obj => exact quiet_patchMachine obj
  | patchCluster obj => exact quiet_patchCluster obj
  | _ => cases owner <;> exact absurd rfl h

/-- An object that is not stored without the request has it. -/
theorem Owner.stores_of_names {c : Call} {request : Option ProvisioningRequest}
    (hstores : owner.stores c = some request) (hnames : (Tracked.own owner method path).names c) :
    request = some ⟨method, path, .queued⟩ := by
  cases owner with
  | machine =>
    cases c with
    | patchMachine obj =>
      cases hstores
      exact hnames
    | _ => cases hstores
  | cluster =>
    cases c with
    | patchCluster obj =>
      cases hstores
      exact hnames
    | _ => cases hstores

/-- A patch that was carried out leaves its object. -/
theorem MayLeave.of_patched {e : Event Call Call.Ans} {request : Option ProvisioningRequest}
    (h : MayLeave owner first (tr ++ [e]) last) (hpatched : patched e.call e.answer = true)
    (hstores : owner.stores e.call = some request) : last = request := by
  generalize htr : tr ++ [e] = tr' at h
  cases h with
  | start => simp at htr
  | stored hlast hstored =>
    obtain ⟨-, hcons⟩ := List.append_inj' htr rfl
    obtain rfl := List.singleton_inj.mp hcons
    exact Option.some.inj (hstored.symm.trans hstores)
  | kept hlast hkept =>
    obtain ⟨-, hcons⟩ := List.append_inj' htr rfl
    obtain rfl := List.singleton_inj.mp hcons
    rw [hkept hpatched] at hstores
    cases hstores

/-- A request that was in flight before the run, and is still, is stored all along. -/
theorem MayLeave.of_left (h : MayLeave owner first tr last)
    (hfirst : first = some ⟨method, path, .queued⟩) (hallows : (monitor owner A).Allows q tr)
    (hnone : ¬ ∃ e ∈ tr, accepted owner e.call e.answer = some (.own owner method path))
    (hleft : ((monitor owner A).after q tr).left = some (.own owner method path)) :
    last = some ⟨method, path, .queued⟩ := by
  -- it is in flight before the last call too, since that call is not where it was accepted
  have hbefore : ∀ {tr : List (Event Call Call.Ans)} {e : Event Call Call.Ans},
      (¬ ∃ e' ∈ tr ++ [e], accepted owner e'.call e'.answer = some (.own owner method path)) →
      ((monitor owner A).after q (tr ++ [e])).left = some (.own owner method path) →
      ((monitor owner A).after q tr).left = some (.own owner method path) := by
    intro tr e hnone hleft
    rw [Monitor.after_append] at hleft
    refine (left_origin hleft).resolve_right ?_
    rintro ⟨e', he', haccepted⟩
    exact hnone ⟨e', List.mem_append_right _ he', haccepted⟩
  induction h with
  | start => exact hfirst
  | stored _ hstores _ =>
    obtain ⟨-, hok, -⟩ := Monitor.allows_append.mp hallows
    exact Owner.stores_of_names hstores (hok.2 _ (hbefore hnone hleft))
  | kept _ _ ih =>
    refine ih (Monitor.allows_append.mp hallows).1 ?_ (hbefore hnone hleft)
    rintro ⟨e', he', haccepted⟩
    exact hnone ⟨e', List.mem_append_left _ he', haccepted⟩

/-- What is in flight at the end of a run is what is stored then. -/
theorem MayLeave.eq (h : MayLeave owner first tr last) (hsaved : Saved owner tr)
    (hallows : (monitor owner A).Allows q tr)
    (hfirst : q.left = some (.own owner method path) → first = some ⟨method, path, .queued⟩)
    (hleft : ((monitor owner A).after q tr).left = some (.own owner method path)) :
    last = some ⟨method, path, .queued⟩ := by
  by_cases haccepted : ∃ e ∈ tr, accepted owner e.call e.answer = some (.own owner method path)
  · obtain ⟨e, he, haccepted⟩ := haccepted
    obtain ⟨tr', e', rfl, hpatched, hstores⟩ := hsaved e he method path haccepted
    obtain ⟨-, hok, -⟩ := Monitor.allows_append.mp hallows
    rw [Monitor.after_append] at hleft
    have hsame : ((monitor owner A).after q tr').left = some (.own owner method path) := by
      rwa [Monitor.after, Monitor.after, next_quiet (Owner.quiet_of_stores hstores)] at hleft
    obtain ⟨request, hrequest⟩ := Option.ne_none_iff_exists'.mp hstores
    rw [h.of_patched hpatched hrequest]
    exact Owner.stores_of_names hrequest (hok.2 _ hsame)
  · exact h.of_left (hfirst ((left_origin hleft).resolve_right haccepted)) hallows haccepted hleft

/-- A patch may be carried out whatever it is answered with. -/
theorem MayLeave.patchedLast {e : Event Call Call.Ans} {request : Option ProvisioningRequest}
    (h : owner.stores e.call = some request) : MayLeave owner first (tr ++ [e]) request := by
  have hexists : ∃ last, MayLeave owner first tr last := by
    induction tr using List.reverseRecOn with
    | nil => exact ⟨first, .start⟩
    | append_singleton tr e ih =>
      obtain ⟨last, hlast⟩ := ih
      cases hstores : owner.stores e.call with
      | none => exact ⟨last, .kept hlast fun _ => hstores⟩
      | some request => exact ⟨request, .stored hlast hstores⟩
  obtain ⟨last, hlast⟩ := hexists
  exact .stored hlast h

/-- If no patch is answered without an error, it may be that none was carried out. -/
theorem MayLeave.unpatched
    (h : ∀ e ∈ tr, patched e.call e.answer = true → owner.stores e.call = none) :
    MayLeave owner first tr first := by
  induction tr using List.reverseRecOn with
  | nil => exact .start
  | append_singleton tr e ih =>
    exact .kept (ih fun e' he' => h e' (List.mem_append_left _ he')) (h e (by simp))

/-- Every request of the owner that was accepted has ended, or is the one that is awaited. -/
def Accounted (owner : Owner) (q : Phase) (tr : List (Event Call Call.Ans)) : Prop :=
  ∀ before e after, tr = before ++ e :: after → ∀ method path,
    accepted owner e.call e.answer = some (.own owner method path) →
      q.left = some (.own owner method path) ∨ SettledIn path after

/-- One more run, or a part of it. -/
theorem Accounted.run {tr' : List (Event Call Call.Ans)} (h : Accounted owner q tr)
    (hallows : (monitor owner A).Allows q tr') :
    Accounted owner ((monitor owner A).after q tr') (tr ++ tr') := by
  intro before e after hsplit method path haccepted
  rcases List.append_eq_append_iff.mp hsplit with ⟨as, rfl, rfl⟩ | ⟨as, rfl, hcons⟩
  · -- accepted in the run
    exact left_of_accepted hallows haccepted
  · cases as with
    | nil =>
      rw [List.nil_append] at hcons
      obtain rfl := hcons
      have hallows : (monitor owner A).Allows q ([] ++ e :: after) := hallows
      exact left_of_accepted hallows haccepted
    | cons e' as =>
      obtain ⟨rfl, rfl⟩ := List.cons.inj hcons
      rcases h before _ as (by simp) method path haccepted with hleft | hsettled
      · exact (left_after hallows hleft).imp_right fun h => h.right as
      · exact .inr (hsettled.left tr')

end

section

variable {S σ R : Type} {prog : S → Go Call Call.Ans σ R}
  {stored : σ → Option ProvisioningRequest} {first : Option ProvisioningRequest} {owner : Owner}
  {has : σ → Tracked → Prop} {A : (c : Call) → Call.Ans c → Prop}
  {tr : List (Event Call Call.Ans)} {method : Method} {path : String}

variable (hstored : ∀ v method path, has v (.own owner method path) ↔
    stored v = some ⟨method, path, .queued⟩)
  (hrun : ∀ scope q v, Starts owner has q v →
    (prog scope).wp (monitor owner A) (fun q' _ v' => Recorded has q' v') q v)
include hstored hrun

/-- After any number of runs, the next one starts with what is in flight. -/
theorem lived_starts {last : Option ProvisioningRequest}
    (h : Lived owner prog stored first tr last) (hA : ∀ e ∈ tr, A e.call e.answer) :
    ∃ q, Accounted owner q tr ∧ ∀ v, stored v = last → Starts owner has q v := by
  induction h with
  | none =>
    refine ⟨.fresh, fun before e after h => ?_, fun v _ => .inl rfl⟩
    simp at h
  | @run tr tr' scope v last _ hr hsaved hleave ih =>
    obtain ⟨q, haccounted, hstarts⟩ := ih fun e he => hA e (List.mem_append_left _ he)
    have hwp := hrun scope q v (hstarts v rfl)
    have hadmits : (monitor owner A).Admits q tr' :=
      Monitor.admits_of_forall (M := monitor owner A) (fun e he _ => hA e (List.mem_append_right _ he)) q
    have hallows := wp_prefix_allows hwp hr hadmits
    have hafter := haccounted.run hallows
    have hfirst : ∀ method path, q.left = some (.own owner method path) →
        path ≠ "" ∧ stored v = some ⟨method, path, .queued⟩ := by
      intro method path hleft
      rcases hstarts v rfl with rfl | ⟨method', path', hpath, rfl, hhas⟩
      · cases hleft
      · cases hleft
        exact ⟨hpath, (hstored v _ _).mp hhas⟩
    have hlast : ∀ method path,
        ((monitor owner A).after q tr').left = some (.own owner method path) →
        path ≠ "" ∧ last = some ⟨method, path, .queued⟩ := by
      intro method path hleft
      refine ⟨?_, hleave.eq hsaved hallows (fun h => (hfirst _ _ h).2) hleft⟩
      rcases left_origin hleft with hleft | ⟨e, -, haccepted⟩
      · exact (hfirst _ _ hleft).1
      · exact accepted_path haccepted
    generalize (monitor owner A).after q tr' = q' at hafter hlast
    refine ⟨q'.restart owner, fun before e after hsplit method path haccepted => ?_, fun w hw => ?_⟩
    · rcases hafter before e after hsplit method path haccepted with hleft | hsettled
      · rw [restart_of_left hleft]
        exact .inl rfl
      · exact .inr hsettled
    · unfold Phase.restart
      split
      next owner' method path hleft =>
        split
        next howner =>
          subst howner
          obtain ⟨hpath, rfl⟩ := hlast method path hleft
          exact .inr ⟨method, path, hpath, rfl, (hstored w method path).mpr hw⟩
        next => exact .inl rfl
      next => exact .inl rfl

/-- A change is sent only once every request sent before on behalf of the object has ended. -/
theorem lived_awaits {scope : S} {v : σ} {tr₁ tr₂ : List (Event Call Call.Ans)}
    {e : Event Call Call.Ans} (hlived : Lived owner prog stored first tr (stored v))
    (hr : Prefix (prog scope) v (tr₁ ++ e :: tr₂)) (hA : ∀ e ∈ tr ++ tr₁, A e.call e.answer)
    (he : changes e.call = true) {before after : List (Event Call Call.Ans)}
    {e' : Event Call Call.Ans} (hsplit : tr ++ tr₁ = before ++ e' :: after)
    (haccepted : accepted owner e'.call e'.answer = some (.own owner method path)) :
    SettledIn path after := by
  obtain ⟨q, haccounted, hstarts⟩ :=
    lived_starts hstored hrun hlived fun e he => hA e (List.mem_append_left _ he)
  have hwp := hrun scope q v (hstarts v rfl)
  have hadmits : (monitor owner A).Admits q tr₁ :=
    Monitor.admits_of_forall (M := monitor owner A) (fun e he _ => hA e (List.mem_append_right _ he)) q
  have hallows := wp_prefix_allows hwp hr.left hadmits
  have hok := wp_call_ok hwp hr hadmits
  rcases haccounted.run hallows before e' after hsplit method path haccepted with hleft | hsettled
  · -- with a request in flight, no change is allowed
    generalize (monitor owner A).after q tr₁ = q' at hleft hok
    have hpermits := hok.1
    cases q' with
    | awaiting request =>
      have hno : changes e.call = false := hpermits
      rw [he] at hno
      cases hno
    | fresh => cases hleft
    | nic left =>
      obtain ⟨rfl, -⟩ := hpermits he
      cases hleft
    | sent left =>
      have hno := Phase.Recording.changes hpermits
      rw [he] at hno
      cases hno
  · exact hsettled

end

/-- The answer is one to a question for the status of a request only if it is a status the code
knows. -/
def StatusKnown : (c : Call) → Call.Ans c → Prop
  | .getRequestStatus _, a => Known a
  | _, _ => True

/-- Over any number of runs of a machine, a change is sent only once the end of every request sent
before on behalf of the machine was reported, if statuses could be read so far and every run that
got a request accepted stored it at its end. -/
theorem reconcile_awaits {first : Option ProvisioningRequest} {ms : MachineScope} {v : MachineVars}
    {tr tr₁ tr₂ : List (Event Call Call.Ans)} {e : Event Call Call.Ans}
    (hlived : Lived .machine Machine.reconcile MachineVars.currentRequest first tr v.currentRequest)
    (hr : Prefix (Machine.reconcile ms) v (tr₁ ++ e :: tr₂))
    (hknown : ∀ e ∈ tr ++ tr₁, StatusKnown e.call e.answer) (he : changes e.call = true)
    {before after : List (Event Call Call.Ans)} {e' : Event Call Call.Ans} {method : Method}
    {path : String} (hsplit : tr ++ tr₁ = before ++ e' :: after)
    (haccepted : accepted .machine e'.call e'.answer = some (.own .machine method path)) :
    SettledIn path after := by
  have hstored : ∀ v method path, MachineVars.Has v (.own .machine method path) ↔
      v.currentRequest = some ⟨method, path, .queued⟩ := fun _ _ _ => Iff.rfl
  exact lived_awaits hstored (fun _ _ _ hq => wp_machineReconcile hq fun _ _ _ ha => ha) hlived hr
    hknown he hsplit haccepted

/-- The request of the machine is still running, and the machine cannot be stored. -/
def busyAnswers : ∀ c : Call, Call.Ans c
  | .getRequestStatus _ => .ok ⟨some .running, none⟩
  | .patchMachine _ => .error (.new "conflict")
  | c => joiningAnswers "SHUTOFF" c

def busyCalls : List (Event Call Call.Ans) :=
  ((Machine.reconcile joiningMachine startedVars).play busyAnswers).1

/-- Every request of the run is done. -/
theorem joining_known {vmState : String} {v : MachineVars} {e : Event Call Call.Ans}
    (h : e ∈ joiningCalls vmState v) : StatusKnown e.call e.answer := by
  rw [Prog.answer_of_mem_play h]
  cases e.call with
  | getRequestStatus url =>
    exact ⟨⟨some .done, none⟩, .done, rfl, rfl, fun text heq => by cases heq⟩
  | _ => trivial

theorem busy_known {e : Event Call Call.Ans} (h : e ∈ busyCalls) : StatusKnown e.call e.answer := by
  rw [Prog.answer_of_mem_play h]
  cases e.call with
  | getRequestStatus url =>
    exact ⟨⟨some .running, none⟩, .running, rfl, rfl, fun text heq => by cases heq⟩
  | _ => trivial

/-- A run that starts the server and is stored, and one that finds the request running and is not
stored. -/
theorem joining_lived : Lived .machine Machine.reconcile MachineVars.currentRequest none
    ([] ++ joiningCalls "SHUTOFF" joiningVars ++ busyCalls) startedVars.currentRequest := by
  have hsplit : joiningCalls "SHUTOFF" joiningVars = (joiningCalls "SHUTOFF" joiningVars).take 11 ++
      [⟨.patchMachine (joiningLeft "SHUTOFF" joiningVars), .ok ()⟩] := rfl
  have hfirst : Lived .machine Machine.reconcile MachineVars.currentRequest none
      ([] ++ joiningCalls "SHUTOFF" joiningVars) startedVars.currentRequest := by
    refine .run .none ⟨_, runs_play _ joiningVars (joiningAnswers "SHUTOFF")⟩ ?_ ?_
    · exact fun _ _ _ _ _ => ⟨_, _, hsplit, rfl, nofun⟩
    · have hstores : Owner.machine.stores (.patchMachine (joiningLeft "SHUTOFF" joiningVars)) =
          some startedVars.currentRequest := rfl
      rw [hsplit]
      exact .patchedLast hstores
  refine .run hfirst ⟨_, runs_play _ startedVars busyAnswers⟩ ?_ (.unpatched fun e he hpatched => ?_)
  · -- nothing is sent
    have hsent : sentIn busyCalls = [] := rfl
    intro e he method path haccepted
    have hmem : e ∈ sentIn busyCalls := List.mem_filter.mpr ⟨he, accepted_changes haccepted⟩
    rw [hsent] at hmem
    cases hmem
  · rw [Prog.answer_of_mem_play he] at hpatched
    cases h : e.call with
    | patchMachine obj =>
      rw [h] at hpatched
      cases hpatched
    | _ => rfl

/-- The server is started in one run, and the NIC patched in the third, which asks for the first
request before. -/
theorem joining_awaits :
    ∃ tr tr₁ e tr₂ before e' after v,
      Lived .machine Machine.reconcile MachineVars.currentRequest none tr v.currentRequest ∧
      Prefix (Machine.reconcile joiningMachine) v (tr₁ ++ e :: tr₂) ∧ changes e.call = true ∧
      tr ++ tr₁ = before ++ e' :: after ∧
      accepted .machine e'.call e'.answer = some (.own .machine .post "request") ∧
      SettledIn "request" after := by
  have hstart : joiningCalls "SHUTOFF" joiningVars =
      (joiningCalls "SHUTOFF" joiningVars).take 10 ++
        ⟨.serversStartPost "dc" "server", .ok "request"⟩ ::
          (joiningCalls "SHUTOFF" joiningVars).drop 11 := rfl
  have hthird : Prefix (Machine.reconcile joiningMachine) startedVars (joiningCalls "RUNNING" startedVars) :=
    ⟨_, runs_play _ _ (joiningAnswers "RUNNING")⟩
  have hpatch : joiningCalls "RUNNING" startedVars = (joiningCalls "RUNNING" startedVars).take 14 ++
      ⟨.nicsPatch "dc" "server" "nic" ["10.0.0.1", "10.0.0.9"], .ok "request"⟩ ::
        (joiningCalls "RUNNING" startedVars).drop 15 := rfl
  rw [hpatch] at hthird
  have hsent : [] ++ joiningCalls "SHUTOFF" joiningVars ++ busyCalls ++
      (joiningCalls "RUNNING" startedVars).take 14 =
      (joiningCalls "SHUTOFF" joiningVars).take 10 ++
        ⟨.serversStartPost "dc" "server", .ok "request"⟩ ::
          ((joiningCalls "SHUTOFF" joiningVars).drop 11 ++ busyCalls ++
            (joiningCalls "RUNNING" startedVars).take 14) := by
    conv => lhs; rw [hstart]
    simp only [List.nil_append, List.append_assoc, List.cons_append]
  have haccepted : accepted .machine (.serversStartPost "dc" "server") (.ok "request") =
      some (.own .machine .post "request") := rfl
  have hknown : ∀ e ∈ [] ++ joiningCalls "SHUTOFF" joiningVars ++ busyCalls ++
      (joiningCalls "RUNNING" startedVars).take 14, StatusKnown e.call e.answer := by
    intro e he
    rw [List.nil_append, List.mem_append, List.mem_append] at he
    rcases he with (he | he) | he
    · exact joining_known he
    · exact busy_known he
    · exact joining_known (List.mem_of_mem_take he)
  exact ⟨_, _, _, _, _, _, _, startedVars, joining_lived, hthird, rfl, hsent, haccepted,
    reconcile_awaits joining_lived hthird hknown rfl hsent haccepted⟩

/-- Over any number of runs of a cluster, a change is sent only once the end of every request sent
before on behalf of the cluster was reported, if every run that got a request accepted stored it
at its end. -/
theorem clusterReconcile_awaits {first : Option ProvisioningRequest} {cs : ClusterScope}
    {v : ClusterVars} {tr tr₁ tr₂ : List (Event Call Call.Ans)} {e : Event Call Call.Ans}
    (hlived : Lived .cluster Cluster.reconcile ClusterVars.currentClusterRequest first tr
      v.currentClusterRequest)
    (hr : Prefix (Cluster.reconcile cs) v (tr₁ ++ e :: tr₂)) (he : changes e.call = true)
    {before after : List (Event Call Call.Ans)} {e' : Event Call Call.Ans} {method : Method}
    {path : String} (hsplit : tr ++ tr₁ = before ++ e' :: after)
    (haccepted : accepted .cluster e'.call e'.answer = some (.own .cluster method path)) :
    SettledIn path after := by
  have hstored : ∀ v method path, ClusterVars.Has v (.own .cluster method path) ↔
      v.currentClusterRequest = some ⟨method, path, .queued⟩ := fun _ _ _ => Iff.rfl
  exact lived_awaits (A := fun _ _ => True) hstored (fun _ _ _ hq => wp_clusterReconcile hq)
    hlived hr (fun _ _ => trivial) he hsplit haccepted

/-- The block is reserved again once the first request is done and shows no block. -/
theorem endpoint_awaits :
    ∃ tr tr₁ e tr₂ before e' after v,
      Lived .cluster Cluster.reconcile ClusterVars.currentClusterRequest none tr
        v.currentClusterRequest ∧
      Prefix (Cluster.reconcile endpointCluster) v (tr₁ ++ e :: tr₂) ∧ changes e.call = true ∧
      tr ++ tr₁ = before ++ e' :: after ∧
      accepted .cluster e'.call e'.answer = some (.own .cluster .post "request") ∧
      SettledIn "request" after := by
  have hsplit : endpointCalls default = (endpointCalls default).take 5 ++
      [⟨.patchCluster (endpointLeft default), .ok ()⟩] := rfl
  have hlived : Lived .cluster Cluster.reconcile ClusterVars.currentClusterRequest none
      ([] ++ endpointCalls default) reservedVars.currentClusterRequest := by
    refine .run .none ⟨_, runs_play _ (default : ClusterVars) endpointAnswers⟩ ?_ ?_
    · exact fun _ _ _ _ _ => ⟨_, _, hsplit, rfl, nofun⟩
    · have hstores : Owner.cluster.stores (.patchCluster (endpointLeft default)) =
          some reservedVars.currentClusterRequest := rfl
      rw [hsplit]
      exact .patchedLast hstores
  have hstart : endpointCalls default = (endpointCalls default).take 4 ++
      ⟨.ipblocksPost "ipb--cluster" "de/fra" 1, .ok "request"⟩ ::
        (endpointCalls default).drop 5 := rfl
  have hsecond : Prefix (Cluster.reconcile endpointCluster) reservedVars (endpointCalls reservedVars) :=
    ⟨_, runs_play _ _ endpointAnswers⟩
  have hagain : endpointCalls reservedVars = (endpointCalls reservedVars).take 5 ++
      ⟨.ipblocksPost "ipb--cluster" "de/fra" 1, .ok "request"⟩ :: (endpointCalls reservedVars).drop 6 := rfl
  rw [hagain] at hsecond
  have hsent : [] ++ endpointCalls default ++ (endpointCalls reservedVars).take 5 =
      (endpointCalls default).take 4 ++ ⟨.ipblocksPost "ipb--cluster" "de/fra" 1, .ok "request"⟩ ::
        ((endpointCalls default).drop 5 ++ (endpointCalls reservedVars).take 5) := by
    rw [List.nil_append, ← List.cons_append, ← List.append_assoc, ← hstart]
  have haccepted : accepted .cluster (.ipblocksPost "ipb--cluster" "de/fra" 1) (.ok "request") =
      some (.own .cluster .post "request") := rfl
  exact ⟨_, _, _, _, _, _, _, reservedVars, hlived, hsecond, rfl, hsent, haccepted,
    clusterReconcile_awaits hlived hsecond rfl hsent haccepted⟩

end Capic.Properties.InFlight
