import Capic.Controller.Frame

/-!
# One change at a time: the rule

The Cloud API answers a change with the URL of a request, and the request is carried out later.
A run that has sent a change therefore ends, after it wrote the URL into the status of its
object; the next run asks for that request first, and does nothing else until its end was
reported.

`Phase` is what the next call of a run depends on: a request of an earlier run is awaited
(`awaiting`), nothing was sent yet (`fresh`), the NIC was patched (`nic`), or another change was
sent (`sent`). The last two carry the request until its end is reported. `permits` is the rule,
`names` says that the object is not stored without the request in flight, and `Recorded` that the
variables have it at the end of a run. A panic passes only with nothing in flight.

`wp_reading` is for what only reads, `Sends` for what sends a change, and `wp_askStatus` for the
question with which a run starts. The runs of machines and clusters are taken apart with them in
`InFlight.Machine` and `InFlight.Cluster`.
-/

namespace Capic.Properties.InFlight

open Effect Effect.Go Cloud Controller

/-! ## Changes and their requests -/

/-- Whose status a request is written to. -/
inductive Owner where
  | machine | cluster
  deriving DecidableEq

/-- A request in flight, by the place that is kept for it in a status. -/
inductive Tracked where
  | own (owner : Owner) (method : Method) (path : String)
  | datacenter (id : String) (method : Method) (path : String)

/-- The URL of the request. -/
def Tracked.path : Tracked → String
  | own _ _ path | datacenter _ _ path => path

/-- The call asks the cloud for a change. -/
def changes : Call → Bool
  | .lansPost _ _ | .lansPatch _ _ _ | .lansDelete _ _ | .serversPost _ _ | .serversDelete _ _ _
  | .serversStartPost _ _ | .volumesDelete _ _ | .nicsPatch _ _ _ _ | .ipblocksPost _ _ _
  | .ipblocksDelete _ => true
  | _ => false

def isNICPatch : Call → Bool
  | .nicsPatch _ _ _ _ => true
  | _ => false

def isLANPatch : Call → Bool
  | .lansPatch _ _ _ => true
  | _ => false

theorem changes_of_isNICPatch {c : Call} (h : isNICPatch c = true) : changes c = true := by
  cases c with
  | nicsPatch dc server nic ips => rfl
  | _ => cases h

/-- The request that a change was accepted as. A LAN belongs to all machines of a data center,
so its creation and deletion have a place of their own. -/
def accepted (owner : Owner) : (c : Call) → Call.Ans c → Option Tracked
  | .lansPost dc _, a => (Client.located a).toOption.map (.datacenter dc .post)
  | .lansDelete dc _, a => (Client.located a).toOption.map (.datacenter dc .delete)
  | .lansPatch _ _ _, a => (Client.located a).toOption.map (.own owner .patch)
  | .nicsPatch _ _ _ _, a => (Client.located a).toOption.map (.own owner .patch)
  | .serversPost _ _, a => (Client.located (a.map (·.2))).toOption.map (.own owner .post)
  | .serversStartPost _ _, a => (Client.located a).toOption.map (.own owner .post)
  | .serversDelete _ _ _, a => (Client.located a).toOption.map (.own owner .delete)
  | .volumesDelete _ _, a => (Client.located a).toOption.map (.own owner .delete)
  | .ipblocksPost _ _ _, a => (Client.located a).toOption.map (.own owner .post)
  | .ipblocksDelete _, a => (Client.located a).toOption.map (.own owner .delete)
  | _, _ => none

/-- The answer reports the end of the request. -/
def settles (path : String) : (c : Call) → Call.Ans c → Bool
  | .getRequestStatus url, .ok info =>
    url = path ∧ (info.status = some .done ∨ info.status = some .failed)
  | .waitForRequest url, .ok () => url = path
  | _, _ => false

/-- The object is not stored without the request. -/
def Tracked.names : Tracked → Call → Prop
  | own .machine method path, .patchMachine obj =>
    obj.currentRequest = some ⟨method, path, .queued⟩
  | own .cluster method path, .patchCluster obj =>
    obj.currentClusterRequest = some ⟨method, path, .queued⟩
  | datacenter id method path, .patchCluster obj =>
    obj.currentRequestByDatacenter id = some ⟨method, path, .queued⟩
  | _, _ => True

/-- The call stores the object that has the request's place, with the request. -/
def Tracked.storedBy : Tracked → Call → Prop
  | own .machine method path, .patchMachine obj =>
    obj.currentRequest = some ⟨method, path, .queued⟩
  | own .cluster method path, .patchCluster obj =>
    obj.currentClusterRequest = some ⟨method, path, .queued⟩
  | datacenter id method path, .patchCluster obj =>
    obj.currentRequestByDatacenter id = some ⟨method, path, .queued⟩
  | _, _ => False

/-- An object was stored. A patch that is answered with an error may have been carried out or
not. -/
def patched : (c : Call) → Call.Ans c → Bool
  | .patchMachine _, .ok () => true
  | .patchCluster _, .ok () => true
  | _, _ => false

/-- The call stores an object. -/
def stores : Call → Bool
  | .patchMachine _ | .patchCluster _ => true
  | _ => false

theorem Tracked.names_of {c : Call} (h : stores c = false) (request : Tracked) :
    request.names c := by
  cases c with
  | patchMachine obj => cases h
  | patchCluster obj => cases h
  | _ =>
    cases request with
    | own owner method path => cases owner <;> trivial
    | datacenter id method path => trivial

/-! ## The rule -/

/-- How far a run is. -/
inductive Phase where
  | awaiting (request : Tracked)
  | fresh
  | nic (left : Option Tracked)
  | sent (left : Option Tracked)

namespace Phase

/-- The request in flight. -/
def left : Phase → Option Tracked
  | awaiting request => some request
  | fresh => none
  | nic left | sent left => left

/-- Calls that may follow a change: waiting for it, and storing its request. -/
def Recording : Call → Prop
  | .waitForRequest _ | .lockBackground _ | .unlock _ | .patchCluster _ | .patchMachine _ => True
  | _ => False

/-- The calls a run may make. -/
def permits (owner : Owner) : Phase → Call → Prop
  | awaiting _, c => changes c = false
  | fresh, c => isNICPatch c = true → owner = .machine
  | nic left, c => changes c = true → left = none ∧ isLANPatch c = true
  | sent _, c => Recording c

/-- The request in flight, after an answer that may report its end. -/
def unsettled (left : Option Tracked) (c : Call) (a : Call.Ans c) : Option Tracked :=
  left.filter fun request => !settles request.path c a

/-- An answered call. -/
def next (owner : Owner) : Phase → (c : Call) → Call.Ans c → Phase
  | awaiting request, c, a => if settles request.path c a then fresh else awaiting request
  | fresh, c, a =>
    if changes c then
      if isNICPatch c ∧ (accepted owner c a).isSome then nic (accepted owner c a)
      else sent (accepted owner c a)
    else fresh
  | nic left, c, a => if changes c then sent (accepted owner c a) else nic (unsettled left c a)
  | sent left, c, a => sent (unsettled left c a)

end Phase

/-- The rule for the runs of an owner, where the answers are as in `A`. -/
@[reducible] def monitor (owner : Owner) (A : (c : Call) → Call.Ans c → Prop) :
    Monitor Call Call.Ans where
  Phase := Phase
  ok q c := q.permits owner c ∧ ∀ request, q.left = some request → request.names c
  adm _ c a := A c a
  next := Phase.next owner
  panic q := q.left = none

/-- Nothing is in flight, and the NIC at most was patched. -/
def Phase.Idle (q : Phase) : Prop := q = .fresh ∨ q = .nic none

theorem Phase.Idle.left {q : Phase} (h : q.Idle) : q.left = none := by
  rcases h with rfl | rfl <;> rfl

/-- A call that changes nothing and reports the end of no request. -/
structure Quiet (c : Call) : Prop where
  changes : changes c = false
  settles : ∀ path a, settles path c a = false

theorem Phase.next_quiet {owner : Owner} {c : Call} (hc : Quiet c) (q : Phase) (a : Call.Ans c) :
    q.next owner c a = q := by
  have hleft : ∀ left, unsettled left c a = left := by
    intro left
    cases left with
    | none => rfl
    | some request => simp [unsettled, hc.settles]
  cases q with
  | awaiting request => simp [next, hc.settles]
  | fresh => simp [next, hc.changes]
  | nic left => simp [next, hc.changes, hleft]
  | sent left => simp [next, hleft]

/-- A call that changes nothing leaves the run where it is, with nothing in flight. -/
theorem Phase.next_idle {owner : Owner} {q : Phase} (hq : q.Idle) {c : Call}
    (hc : changes c = false) (a : Call.Ans c) : q.next owner c a = q := by
  rcases hq with rfl | rfl <;> simp [next, hc, unsettled]

section

variable {owner : Owner} {A : (c : Call) → Call.Ans c → Prop} {σ α : Type} {q : Phase} {s : σ}

theorem next_quiet {c : Call} (hc : Quiet c) (q : Phase) (a : Call.Ans c) :
    (monitor owner A).next q c a = q :=
  Phase.next_quiet hc q a

theorem ok_idle (hq : q.Idle) {c : Call} (hc : changes c = false) : (monitor owner A).ok q c := by
  constructor
  · rcases hq with rfl | rfl
    · intro hnic
      rw [changes_of_isNICPatch hnic] at hc
      cases hc
    · intro h
      rw [h] at hc
      cases hc
  · intro request h
    rw [hq.left] at h
    cases h

/-- Reading, with nothing in flight. -/
theorem wp_reading {p : Go Call Call.Ans σ α} {Q : Phase → α → σ → Prop}
    (hp : Within (fun c => changes c = false) (fun _ => ()) p) (hq : q.Idle)
    (hQ : ∀ a s', Q q a s') : p.wp (monitor owner A) Q q s := by
  refine wp_mono (hp.wp (M := monitor owner A) (fun c hc => ?_) hq.left) fun q' a s' h => ?_
  · exact ⟨ok_idle hq hc, fun a _ => Phase.next_idle hq hc a⟩
  · obtain ⟨rfl, -⟩ := h
    exact hQ a s'

/-- A change is sent: it is refused, or accepted as a request with a URL. -/
theorem wp_asking {c : Call} {ask : Call.Ans c → Except Err String} {mk : String → Tracked}
    {Q : Phase → Except Err String → σ → Prop} (hchange : changes c = true)
    (hnic : isNICPatch c = false)
    (haccepted : ∀ a, accepted owner c a = (ask a).toOption.map mk)
    (hpath : ∀ a path, ask a = .ok path → path ≠ "")
    (hq : q = .fresh ∨ q = .nic none ∧ isLANPatch c = true)
    (hfail : ∀ e, Q (.sent none) (.error e) s)
    (hsent : ∀ path, path ≠ "" → Q (.sent (some (mk path))) (.ok path) s) :
    (do return ask (← perform c) : Go Call Call.Ans σ (Except Err String)).wp
      (monitor owner A) Q q s := by
  rw [wp_bind, wp_perform]
  refine ⟨⟨?_, ?_⟩, fun a _ => (wp_pure _).mpr ?_⟩
  · rcases hq with rfl | ⟨rfl, hlan⟩
    · intro h
      rw [hnic] at h
      cases h
    · exact fun _ => ⟨rfl, hlan⟩
  · intro request h
    rcases hq with rfl | ⟨rfl, _⟩ <;> cases h
  · have hnext : q.next owner c a = .sent (accepted owner c a) := by
      rcases hq with rfl | ⟨rfl, _⟩ <;> simp [Phase.next, hchange, hnic]
    show Q (q.next owner c a) (ask a) s
    rw [hnext, haccepted]
    cases h : ask a with
    | error e => exact hfail e
    | ok path => exact hsent path (hpath a path h)

/-- The function sends one change at most: there is an error and nothing in flight, or a request
in flight and its URL. -/
def Sends (owner : Owner) (A : (c : Call) → Call.Ans c → Prop) (mk : String → Tracked) (q : Phase)
    (p : Go Call Call.Ans σ (Except Err String)) : Prop :=
  ∀ (s : σ) (Q : Phase → Except Err String → σ → Prop),
    (∀ q' e, q'.left = none → Q q' (.error e) s) →
    (∀ path, path ≠ "" → Q (.sent (some (mk path))) (.ok path) s) → p.wp (monitor owner A) Q q s

theorem Sends.bind {mk : String → Tracked} {p : Go Call Call.Ans σ (Except Err String)}
    {k : Except Err String → Go Call Call.Ans σ α} {Q : Phase → α → σ → Prop}
    (hp : Sends owner A mk q p)
    (hfail : ∀ q' e, q'.left = none → (k (.error e)).wp (monitor owner A) Q q' s)
    (hsent : ∀ path, path ≠ "" →
      (k (.ok path)).wp (monitor owner A) Q (.sent (some (mk path))) s) :
    (p >>= k).wp (monitor owner A) Q q s :=
  (wp_bind _ _).mpr (hp s _ hfail hsent)

/-- A change whose answer is treated as usual. -/
theorem sends_located {c : Call} {ask : Call.Ans c → Except Err String} {mk : String → Tracked}
    (hchange : changes c = true) (hnic : isNICPatch c = false)
    (haccepted : ∀ a, accepted owner c a = (ask a).toOption.map mk)
    (hpath : ∀ a path, ask a = .ok path → path ≠ "")
    (hq : q = .fresh ∨ q = .nic none ∧ isLANPatch c = true) :
    Sends owner A mk q (do return ask (← perform c) : Go Call Call.Ans σ _) :=
  fun _ _ hfail hsent =>
    wp_asking hchange hnic haccepted hpath hq (fun e => hfail _ e rfl) hsent

/-- The parameters are checked first. -/
theorem Sends.withParams {required : List (String × Err)} {mk : String → Tracked}
    {body : Go Call Call.Ans σ (Except Err String)} (hbody : Sends owner A mk q body)
    (hq : q.left = none) : Sends owner A mk q (Client.withParams required body) :=
  fun s Q hfail hsent =>
    Client.wp_withParams (fun p _ _ => hfail q p.2 hq) (hbody s Q hfail hsent)

theorem sends_reserveIPBlock (name location : String) (size : Int) :
    Sends owner A (.own owner .post) .fresh
      (Client.reserveIPBlock name location size : Go Call Call.Ans σ _) := by
  intro s Q hfail hsent
  unfold Client.reserveIPBlock
  rw [wp_ite]
  split
  next => exact (wp_pure _).mpr (hfail _ _ rfl)
  next =>
    rw [wp_ite]
    split
    next => exact (wp_pure _).mpr (hfail _ _ rfl)
    next =>
      rw [wp_ite]
      split
      next => exact (wp_pure _).mpr (hfail _ _ rfl)
      next =>
        exact wp_asking rfl rfl (fun _ => rfl) (fun _ _ h => (Client.located_ok h).2) (.inl rfl)
          (fun e => hfail _ e rfl) hsent

theorem sends_deleteIPBlock (id : String) :
    Sends owner A (.own owner .delete) .fresh
      (Client.deleteIPBlock id : Go Call Call.Ans σ _) :=
  (sends_located rfl rfl (fun _ => rfl) (fun _ _ h => (Client.located_ok h).2)
    (.inl rfl)).withParams rfl

theorem quiet_unlock (key : String) : Quiet (.unlock key) := ⟨rfl, fun _ _ => rfl⟩

theorem quiet_lock (key : String) : Quiet (.lock key) := by
  refine ⟨rfl, fun path a => ?_⟩
  cases a <;> rfl

theorem quiet_lockBackground (key : String) : Quiet (.lockBackground key) :=
  ⟨rfl, fun _ _ => rfl⟩

theorem quiet_patchMachine (obj : MachineVars) : Quiet (.patchMachine obj) := by
  refine ⟨rfl, fun path a => ?_⟩
  cases a <;> rfl

theorem quiet_patchCluster (obj : ClusterVars) : Quiet (.patchCluster obj) := by
  refine ⟨rfl, fun path a => ?_⟩
  cases a <;> rfl

theorem Phase.Recording.changes {c : Call} (h : Phase.Recording c) : changes c = false := by
  cases c with
  | waitForRequest url => rfl
  | lockBackground key => rfl
  | unlock key => rfl
  | patchCluster obj => rfl
  | patchMachine obj => rfl
  | _ => exact False.elim h

/-- Waiting and recording is allowed at any time, with the request in its place. -/
theorem ok_recording {c : Call} (hc : Phase.Recording c)
    (hnames : ∀ request, q.left = some request → request.names c) : (monitor owner A).ok q c := by
  refine ⟨?_, hnames⟩
  cases q with
  | awaiting request => exact hc.changes
  | fresh =>
    intro h
    have hchange := changes_of_isNICPatch h
    rw [hc.changes] at hchange
    cases hchange
  | nic left =>
    intro h
    rw [hc.changes] at h
    cases h
  | sent left => exact hc

theorem ok_unlock (q : Phase) (key : String) : (monitor owner A).ok q (.unlock key) :=
  ok_recording trivial fun request _ => request.names_of rfl

theorem ok_lockBackground (q : Phase) (key : String) :
    (monitor owner A).ok q (.lockBackground key) :=
  ok_recording trivial fun request _ => request.names_of rfl

/-- A section under a lock: the lock and its release do not matter here. -/
theorem wp_section {key : String} {fail : Err → α} {body : MachineM α} {v : MachineVars}
    {Q : Phase → α → MachineVars → Prop} (hq : q.Idle) (hfail : ∀ e, Q q (fail e) v)
    (hbody : body.wp (monitor owner A) Q q v) :
    (locked key fail body).wp (monitor owner A) Q q v := by
  refine wp_locked (M := monitor owner A) (ok_idle hq rfl) (fun q' hq' => ⟨ok_unlock q' key, ?_⟩)
    (fun e _ => ?_) fun _ => ?_
  · intro _
    rw [next_quiet (quiet_unlock key)]
    exact hq'
  · rw [next_quiet (quiet_lock key)]
    exact hfail e
  · rw [next_quiet (quiet_lock key)]
    refine wp_mono hbody fun q' a v' h => ⟨ok_unlock q' key, fun _ => ?_⟩
    rw [next_quiet (quiet_unlock key)]
    exact h

end

/-! ## What the variables have -/

/-- The request is in its place. -/
def ClusterVars.Has (v : ClusterVars) : Tracked → Prop
  | .own .machine _ _ => False
  | .own .cluster method path => v.currentClusterRequest = some ⟨method, path, .queued⟩
  | .datacenter id method path =>
    v.currentRequestByDatacenter id = some ⟨method, path, .queued⟩

/-- The request is in its place, which may be one in the cluster. -/
def MachineVars.Has (v : MachineVars) : Tracked → Prop
  | .own .machine method path => v.currentRequest = some ⟨method, path, .queued⟩
  | request => ClusterVars.Has v.cluster request

/-- The request in flight is in its place. -/
def Recorded {σ : Type} (has : σ → Tracked → Prop) (q : Phase) (v : σ) : Prop :=
  ∀ request, q.left = some request → has v request

theorem Recorded.of_none {σ : Type} {has : σ → Tracked → Prop} {q : Phase} (hq : q.left = none)
    (v : σ) : Recorded has q v := by
  intro request h
  rw [hq] at h
  cases h

theorem Recorded.of_some {σ : Type} {has : σ → Tracked → Prop} {q : Phase} {request : Tracked}
    (hq : q.left = some request) {v : σ} (h : has v request) : Recorded has q v := by
  intro request' h'
  rw [hq] at h'
  cases h'
  exact h

theorem Recorded.own {q : Phase} {method : Method} {path : String}
    (hq : q.left = some (.own .machine method path)) {v : MachineVars}
    (h : v.currentRequest = some ⟨method, path, .queued⟩) : Recorded MachineVars.Has q v :=
  .of_some hq h

/-! ## The start of a run -/

/-- The answer is a status the code knows. -/
def Known (a : Except Err RequestStatusInfo) : Prop :=
  ∃ info status, a = .ok info ∧ info.status = some status ∧ ∀ text, status ≠ .other text

/-- Where a run starts: with nothing in flight, or with a request of its own in its place. -/
def Starts {σ : Type} (owner : Owner) (has : σ → Tracked → Prop) (q : Phase) (v : σ) : Prop :=
  q = .fresh ∨ ∃ method path, path ≠ "" ∧ q = .awaiting (.own owner method path) ∧
    has v (.own owner method path)

theorem Starts.recorded {σ : Type} {owner : Owner} {has : σ → Tracked → Prop} {q : Phase} {v : σ}
    (h : Starts owner has q v) : Recorded has q v := by
  rcases h with rfl | ⟨method, path, _, rfl, hhas⟩
  · exact .of_none rfl v
  · exact .of_some rfl hhas

section

variable {A : (c : Call) → Call.Ans c → Prop} {owner : Owner} {σ : Type} {s : σ} {q : Phase}

/-- A call that is no change is allowed at the start of a run, unless it stores the object. -/
theorem Starts.ok {has : σ → Tracked → Prop} (h : Starts owner has q s) {c : Call}
    (hc : changes c = false) (hstores : stores c = false) : (monitor owner A).ok q c := by
  refine ⟨?_, fun request _ => request.names_of hstores⟩
  rcases h with rfl | ⟨method, path, _, rfl, _⟩
  · intro hnic
    rw [changes_of_isNICPatch hnic] at hc
    cases hc
  · exact hc

theorem quiet_getCredentials (ns name : String) : Quiet (.getCredentials ns name) := by
  refine ⟨rfl, fun path a => ?_⟩
  cases a <;> rfl

theorem quiet_updateCredentials (secret : CredentialsSecret) : Quiet (.updateCredentials secret) := by
  refine ⟨rfl, fun path a => ?_⟩
  cases a <;> rfl

/-- The client is made before anything else, and nothing is sent for it. -/
theorem wp_createService {has : σ → Tracked → Prop} (h : Starts owner has q s) (cs : ClusterScope) :
    (createServiceFromCluster cs : Go Call Call.Ans σ _).wp (monitor owner A)
      (fun q' _ s' => q' = q ∧ s' = s) q s := by
  unfold createServiceFromCluster
  rw [wp_bind, wp_perform]
  refine ⟨h.ok rfl rfl, fun a _ => ?_⟩
  rw [next_quiet (quiet_getCredentials _ _)]
  cases a with
  | error e => exact (wp_pure _).mpr ⟨rfl, rfl⟩
  | ok secret =>
    have hensure : (ensureSecretControlledByCluster cs secret : Go Call Call.Ans σ _).wp
        (monitor owner A) (fun q' _ s' => q' = q ∧ s' = s) q s := by
      unfold ensureSecretControlledByCluster
      dsimp only
      split
      next => exact (wp_pure _).mpr ⟨rfl, rfl⟩
      next =>
        rw [wp_ite]
        split
        next =>
          rw [wp_bind, wp_perform]
          refine ⟨h.ok rfl rfl, fun a _ => ?_⟩
          rw [next_quiet (quiet_updateCredentials _)]
          exact (wp_pure _).mpr ⟨rfl, rfl⟩
        next => exact (wp_pure _).mpr ⟨rfl, rfl⟩
    refine (wp_bind _ _).mpr (wp_mono hensure fun q' r s' h' => ?_)
    cases r <;> exact (wp_pure _).mpr h'

/-- The answer reports the end exactly if the status it is read as says so. -/
theorem settles_iff {path : String} {a : Except Err RequestStatusInfo}
    {r : Except Err (RequestStatus × String)}
    (hr : r.toOption.map Prod.fst = a.toOption.bind (·.status)) :
    settles path (.getRequestStatus path) a = true ↔
      ∃ status message, r = .ok (status, message) ∧ (status = .done ∨ status = .failed) := by
  cases a with
  | error e =>
    cases r with
    | error e' => simp [settles]
    | ok r => simp [Except.toOption] at hr
  | ok info =>
    cases r with
    | error e' =>
      have hnone : info.status = none := hr.symm
      simp [settles, hnone]
    | ok r =>
      obtain ⟨status, message⟩ := r
      have hsome : info.status = some status := hr.symm
      simp [settles, hsome]

/-- Asking for the status of the request that is awaited. -/
theorem wp_askStatus {request : Tracked} {Q : Phase → Except Err (RequestStatus × String) → σ → Prop}
    (hq : q = .awaiting request ∨ q = .fresh) (hpath : request.path ≠ "")
    (hended : ∀ status message, status = .done ∨ status = .failed →
      Q .fresh (.ok (status, message)) s)
    (hopen : ∀ a, A (.getRequestStatus request.path) a →
      ∀ r : Except Err (RequestStatus × String),
        r.toOption.map Prod.fst = a.toOption.bind (·.status) →
        (¬ ∃ status message, r = .ok (status, message) ∧ (status = .done ∨ status = .failed)) →
        Q q r s) :
    (getRequestStatus request.path).wp (monitor owner A) Q q s := by
  refine wp_getRequestStatus (M := monitor owner A) (fun h => absurd h hpath) (fun _ => ?_)
    fun _ a ha r hr => ?_
  · refine ⟨?_, fun request' _ => request'.names_of rfl⟩
    rcases hq with rfl | rfl
    · rfl
    · exact fun h => by cases h
  · have hnext : (monitor owner A).next q (.getRequestStatus request.path) a =
        if settles request.path (.getRequestStatus request.path) a then .fresh else q := by
      rcases hq with rfl | rfl
      · rfl
      · simp [Phase.next, changes]
    rw [hnext]
    by_cases h : settles request.path (.getRequestStatus request.path) a = true
    · obtain ⟨status, message, rfl, hstatus⟩ := (settles_iff hr).mp h
      rw [if_pos h]
      exact hended status message hstatus
    · rw [if_neg h]
      exact hopen a ha r hr fun h' => h ((settles_iff hr).mpr h')

end

end Capic.Properties.InFlight
