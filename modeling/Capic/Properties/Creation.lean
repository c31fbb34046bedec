import Capic.Cloud.Failover
import Capic.Effect.Once
import Capic.Effect.Threads

/-!
# Resources that are created once

Two resources are shared by machines and created by whichever machine comes first:
the LAN of a cluster in a data center (`ReconcileLAN`), and the IP block of a
`MachineDeployment` whose failover IP is `AUTO` (`retrieveFailoverIPForMachine`).
Both go by the pattern of `Capic.Effect.Once`. This file is what they have in common.

`Resource` says what the two differ in. `Resource.system` is the system of any number
of workers that repeat such a step against the cloud: between two calls of a worker
the cloud may move requests on, other workers may make calls, and the process may
die. What the cloud answers is said by `Resource.exec`: a list does not lack a
resource whose creation is done and that was not deleted, and `GetRequests` shows
every accepted creation (`Resource.Shows`). Everything else is free: any call may
fail, also after the creation was accepted, and lists may hold whatever else.

`Resource.sound` connects the system to the pattern; `wp_findResource_once` is the
rule for `findResource` under it.
-/

namespace Capic.Properties

open Effect Effect.Go Effect.Once Cloud

/-! ## The world -/

/-- How the API spells the status of a creation request. -/
def requestStatus : Status → RequestStatus
  | .queued => .queued
  | .running => .running
  | .done => .done
  | .failed => .failed

/-- The status of a creation request, if it is one. -/
def creationStatus : RequestStatus → Option Status
  | .queued => some .queued
  | .running => some .running
  | .done => some .done
  | .failed => some .failed
  | .other _ => none

theorem creationStatus_requestStatus (st : Status) :
    creationStatus (requestStatus st) = some st := by
  cases st <;> rfl

/-- A resource that is created once: the lock it is created under, how its creation
requests are found, which call creates it, what an answer tells about its existence, and
what is known about answers beyond that. -/
structure Resource where
  key : String
  type : ResourceType
  url : String
  matchers : List Matcher
  isPost : Call → Bool
  look : (c : Call) → Call.Ans c → Option Bool
  answers : (c : Call) → Call.Ans c → Prop

namespace Resource

variable {T : Type} [DecidableEq T] (R : Resource)

/-- The path `GetRequests` is asked for. -/
def query : String := (Text.cut R.url "?").1

/-- The request is a creation of the resource. -/
def IsCreation (req : Request) : Prop := IsMatch R.type R.url R.matchers req

/-- The requests show every accepted creation, and no other creation of the resource. -/
def Shows (creations : List Creation) (items : List Request) : Prop :=
  Cloud.Shows R.type R.url R.matchers Creation.date
    (fun c status => status = requestStatus c.status) creations items

/-- What a call with its answer is about. -/
inductive Kind where
  | acquired (key : String)
  | released (key : String)
  /-- The requests of the last day were asked for. -/
  | requests (items : List Request)
  | post
  | look (found : Bool)
  | quiet

/-- What a call with its answer is about. -/
def kind : (c : Call) → Call.Ans c → Kind
  | .lock key, .ok _ => .acquired key
  | .lockBackground key, _ => .acquired key
  | .unlock key, _ => .released key
  | .requestsGet method url, .ok items =>
    if method = .post ∧ url = R.query then .requests (deref items []) else .quiet
  | c, a =>
    if R.isPost c then .post
    else
      match R.look c a with
      | some found => .look found
      | none => .quiet

/-- What a call is about that may look for the resource. -/
def lookKind : Option Bool → Kind
  | some found => .look found
  | none => .quiet

/-- What the world does. A creation may be accepted or not, whatever the answer says. -/
def effect (t : T) (w : World T String) : Kind → World T String → Prop
  | .acquired key, w' => w.owner key = none ∧ w' = { w with owner := w.owner.acquire t key }
  | .released key, w' => w' = { w with owner := w.owner.unlock t key }
  | .requests items, w' => w' = w ∧ R.Shows w.creations items
  | .post, w' => w' = w ∨ w.Accepts w'
  | .look found, w' => w' = w ∧ (found = false → ∀ c ∈ w.creations, ¬ c.Visible)
  | .quiet, w' => w' = w

/-- What a call may be answered with, and what it does. -/
def exec (t : T) (w : World T String) (c : Call) (a : Call.Ans c) (w' : World T String) : Prop :=
  R.answers c a ∧ R.effect t w (R.kind c a) w'

/-- What the requests tell about the newest creation. -/
def newest (items : List Request) : Obs String :=
  match matchRequest R.type R.url R.matchers (Client.sortRequests items) with
  | .val (.ok none) => .queue none
  | .val (.ok (some ri)) =>
    match creationStatus ri.status with
    | some st => .queue (some st)
    | none => .quiet
  | _ => .quiet

/-- What this means for the pattern. -/
def obs : Kind → Obs String
  | .acquired key => .acquired key
  | .released key => .released key
  | .requests items => R.newest items
  | .post => .post
  | .look found => .look found
  | .quiet => .quiet

/-- The workers, and the cloud. -/
@[reducible] def system (T : Type) [DecidableEq T] (job : Prog Call Call.Ans Unit → Prop) :
    System T Call Call.Ans where
  World := World T String
  Phase := Phase
  idle := .out
  next q c a := q.next R.key (R.obs (R.kind c a))
  exec t _ w c a w' := R.exec t w c a w'
  env := Env
  crash := Crash
  job _ q p := q = .out ∧ job p

/-- The calls a worker may make where. -/
def Ok (q : Phase) (c : Call) : Prop := R.isPost c = true → q = .clear

/-- The answers a worker may count on: in particular, the status of a creation is one of
the four. -/
def Adm (c : Call) (a : Call.Ans c) : Prop :=
  R.answers c a ∧ ∀ items, R.kind c a = .requests items →
    ∀ req ∈ items, R.IsCreation req → ∃ st, req.status = requestStatus st

/-! ## The instance -/

variable {R} {w w' : World T String} {ph : T → Phase} {t : T}

theorem newest_cases (R : Resource) (items : List Request) :
    R.newest items = .quiet ∨ ∃ n, R.newest items = .queue n := by
  unfold newest
  split
  next => exact .inr ⟨_, rfl⟩
  next =>
    split
    next => exact .inr ⟨_, rfl⟩
    next => exact .inl rfl
  next => exact .inl rfl

/-- What the requests tell is true of the newest creation. -/
theorem Shows.newest {creations : List Creation} {items : List Request}
    (h : R.Shows creations items) (hd : creations.Pairwise fun c c' => c'.date < c.date)
    {n : Option Status} (hn : R.newest items = .queue n) :
    n = creations.head?.map (·.status) := by
  unfold Resource.newest at hn
  split at hn
  next hm =>
    obtain rfl := Obs.queue.inj hn
    rw [Cloud.Shows.of_none h hm]
    rfl
  next ri hm =>
    obtain ⟨c, older, rfl, hri⟩ := Cloud.Shows.of_some h hd hm
    split at hn
    next st hst =>
      obtain rfl := Obs.queue.inj hn
      rw [hri, creationStatus_requestStatus] at hst
      exact hst.symm
    next => exact nomatch hn
  next => exact nomatch hn

/-- What the world does is what the pattern allows. -/
theorem effect_happens {k : Kind} (hd : w.creations.Pairwise fun c c' => c'.date < c.date)
    (h : R.effect t w k w') : Happens w t (R.obs k) w' := by
  cases k with
  | acquired key => exact h
  | released key => exact h
  | post => exact h
  | look found => exact h
  | quiet => exact h
  | requests items =>
    obtain ⟨rfl, hshows⟩ := h
    show Happens w' t (R.newest items) w'
    rcases newest_cases R items with hn | ⟨n, hn⟩
    · rw [hn]
      rfl
    · rw [hn]
      exact ⟨rfl, hshows.newest hd hn⟩

theorem kind_post {c : Call} {a : Call.Ans c} (h : R.kind c a = .post) : R.isPost c = true := by
  unfold kind at h
  split at h
  next => exact nomatch h
  next => exact nomatch h
  next => exact nomatch h
  next => split at h <;> exact nomatch h
  next =>
    split at h
    next hpost => exact hpost
    next => split at h <;> exact nomatch h

theorem Ok.observed {q : Phase} {c : Call} (h : R.Ok q c) (a : Call.Ans c) :
    q.Ok (R.obs (R.kind c a)) := by
  cases hk : R.kind c a with
  | post => exact h (kind_post hk)
  | acquired key => trivial
  | released key => trivial
  | look found => trivial
  | quiet => trivial
  | requests items =>
    show q.Ok (R.newest items)
    rcases newest_cases R items with hn | ⟨n, hn⟩ <;> rw [hn] <;> trivial

theorem exec_adm {c : Call} {a : Call.Ans c} (h : R.exec t w c a w') : R.Adm c a := by
  refine ⟨h.1, fun items hk req hreq hc => ?_⟩
  have hw := h.2
  rw [hk] at hw
  obtain ⟨c', _, _, hst⟩ := hw.2.only req hreq hc
  exact ⟨c'.status, hst⟩

variable {job : Prog Call Call.Ans Unit → Prop}

/-- Workers that post a creation in phase `clear` only keep the invariant of the pattern. -/
theorem sound (hjob : ∀ p, job p → p.wp ((R.system T job).monitor
      { ok := R.Ok, adm := fun _ => R.Adm }) (fun _ _ => True) .out) :
    (R.system T job).Sound (fun _ _ _ => True) { ok := R.Ok, adm := fun _ => R.Adm }
      (Inv R.key) where
  answers _ h _ := exec_adm h
  jobs := by
    rintro t q p ⟨rfl, hp⟩
    exact hjob p hp
  idle := trivial
  call hI hok hexec _ := hI.happens (hok.observed _) (effect_happens hI.dates hexec.2)
  start := by
    rintro w ph t q p hI - ⟨rfl, -⟩
    exact hI.start
  env hI h _ := hI.env h
  crash hI h := hI.crash h

/-! ## The steps of a worker -/

/-- What the newest request, as `checkQueue` returns it, says about the phase. -/
def Asked (q : Phase) : Except Err (Option RequestInfo) → Prop
  | .error _ => True
  | .ok none => q = .clear
  | .ok (some ri) =>
    (ri.isDone = true → q = .sawDone) ∧ (ri.isDone = false → ri.isPending = false → q = .clear)

variable {s : MachineVars}

/-- The monitor of a worker. -/
abbrev monitor (R : Resource) : Monitor Call Call.Ans :=
  ⟨Phase, R.Ok, fun _ => R.Adm, fun q c a => q.next R.key (R.obs (R.kind c a)), fun _ => True⟩

/-- What the requests tell is what `checkQueue` returns. -/
theorem newest_eq {items : List Request} {r : Except Err (Option RequestInfo)}
    (hknown : ∀ req ∈ items, R.IsCreation req → ∃ st, req.status = requestStatus st)
    (hr : matchRequest R.type R.url R.matchers (Client.sortRequests items) = .val r) :
    (r = .ok none → R.newest items = .queue none) ∧ ∀ ri, r = .ok (some ri) →
      ∃ st, ri.status = requestStatus st ∧ R.newest items = .queue (some st) := by
  constructor
  · rintro rfl
    unfold newest
    rw [hr]
  · rintro ri rfl
    obtain ⟨before, req, after, hsplit, _, hreq, hstatus, _⟩ := matchRequest_some hr
    have hmem : req ∈ items := by
      rw [← (Client.sortRequests_perm items).mem_iff, hsplit]
      simp
    obtain ⟨st, hst⟩ := hknown req hmem hreq
    have hri : ri.status = requestStatus st := hstatus.symm.trans hst
    refine ⟨st, hri, ?_⟩
    unfold newest
    rw [hr]
    dsimp only
    rw [hri, creationStatus_requestStatus]

theorem asked_queued {ri : RequestInfo} {st : Status} (hri : ri.status = requestStatus st) :
    Asked (Phase.queued (some st)) (.ok (some ri)) := by
  unfold Asked RequestInfo.isDone RequestInfo.isPending
  dsimp only
  rw [hri]
  cases st with
  | queued => exact ⟨fun h => (nomatch h), fun _ h => (nomatch h)⟩
  | running => exact ⟨fun h => (nomatch h), fun _ h => (nomatch h)⟩
  | done => exact ⟨fun _ => rfl, fun h => (nomatch h)⟩
  | failed => exact ⟨fun h => (nomatch h), fun _ _ => rfl⟩

theorem asked_newest {items : List Request} {r : Except Err (Option RequestInfo)}
    (hknown : ∀ req ∈ items, R.IsCreation req → ∃ st, req.status = requestStatus st)
    (hr : matchRequest R.type R.url R.matchers (Client.sortRequests items) = .val r) :
    Asked (Phase.locked.next R.key (R.newest items)) r := by
  obtain ⟨hnone, hsome⟩ := newest_eq hknown hr
  match r with
  | .error e => trivial
  | .ok none =>
    rw [hnone rfl]
    rfl
  | .ok (some ri) =>
    obtain ⟨st, hri, hn⟩ := hsome ri rfl
    rw [hn]
    exact asked_queued hri

/-- Asking for the newest creation request. -/
theorem wp_ask (hpost : ∀ url, R.isPost (.requestsGet .post url) = false) :
    (getMatchingRequest R.type .post R.url R.matchers).wp R.monitor
      (fun q r s' => Asked q r ∧ s' = s) .locked s := by
  refine wp_getMatchingRequest (fun e _ => ⟨trivial, rfl⟩) (fun h => ?_)
    fun a ha => ⟨trivial, fun r hr => ?_⟩
  · rw [hpost] at h
    exact nomatch h
  · refine ⟨?_, rfl⟩
    match a with
    | .error e =>
      obtain rfl := Res.val.inj hr
      trivial
    | .ok items =>
      have hkind : R.kind (.requestsGet .post (Text.cut R.url "?").1) (.ok items) =
          .requests (deref items []) := if_pos ⟨rfl, rfl⟩
      have hknown := ha.2 _ hkind
      show Asked (Phase.locked.next R.key (R.obs (R.kind _ _))) r
      rw [hkind]
      exact asked_newest hknown hr

/-- The lookup of the pattern: after it, either something was found or is on its way, or
`C` holds, which a worker in phase `clear` may claim. -/
theorem wp_findResource_once {α : Type} {lookup : MachineM (Except Err (Option α))}
    {check : MachineM (Except Err (Option RequestInfo))} {I J : MachineVars → Prop}
    {C : Phase → Prop} (hC : C .clear) (hI : I s)
    (hfirst : ∀ s, I s → lookup.wp R.monitor (fun q _ s' => q = .locked ∧ I s') .locked s)
    (hcheck : ∀ s, I s → check.wp R.monitor
      (fun q r s' => Asked q r ∧ I s' ∧ (∀ ri, r = .ok (some ri) → J s')) .locked s)
    (hsecond : ∀ s, J s → I s → lookup.wp R.monitor
      (fun q r s' => (findResource.notFoundIsNone r = .ok none → C q) ∧ I s') .sawDone s) :
    (findResource lookup check).wp R.monitor
      (fun q r s' => (∀ request, r = .ok (none, request) →
        request.any (·.isPending) = false → C q) ∧ I s') .locked s := by
  refine wp_findResource (wp_mono (hfirst s hI) ?_)
  rintro q₁ r₁ s₁ ⟨rfl, hI₁⟩
  unfold lookedUp
  split
  next => exact ⟨fun _ h => (nomatch h), hI₁⟩
  next => exact ⟨fun _ h => (nomatch h), hI₁⟩
  next =>
    refine wp_mono (hcheck s₁ hI₁) ?_
    rintro q₂ r₂ s₂ ⟨hasked, hI₂, hJ⟩
    match r₂ with
    | .error e => exact ⟨fun _ h => (nomatch h), hI₂⟩
    | .ok none =>
      have hq : q₂ = .clear := hasked
      exact ⟨fun _ _ _ => hq ▸ hC, hI₂⟩
    | .ok (some ri) =>
      dsimp only
      split
      next hdone =>
        rw [hasked.1 hdone]
        refine wp_mono (hsecond s₂ (hJ ri rfl) hI₂) ?_
        rintro q₃ r₃ s₃ ⟨hclear, hI₃⟩
        split
        next => exact ⟨fun _ h => (nomatch h), hI₃⟩
        next => exact ⟨fun _ h => (nomatch h), hI₃⟩
        next he => exact ⟨fun _ _ _ => hclear he, hI₃⟩
      next hdone =>
        refine ⟨fun request hr hp => ?_, hI₂⟩
        obtain ⟨-, rfl⟩ := Prod.mk.inj (Except.ok.inj hr)
        rw [hasked.2 (by simpa using hdone) hp]
        exact hC

/-! ## Watching -/

/-- The answer tells the truth about the creations. -/
def Tells (R : Resource) (creations : List Creation) (c : Call) (a : Call.Ans c) : Prop :=
  match R.kind c a with
  | .requests items => R.Shows creations items
  | .look found => found = false → ∀ c ∈ creations, ¬ c.Visible
  | _ => True

theorem tells_of_look {creations : List Creation} {c : Call} {a : Call.Ans c}
    (hc : ∀ method url, c ≠ .requestsGet method url)
    (h : R.look c a = some false → ∀ x ∈ creations, ¬ x.Visible) : R.Tells creations c a := by
  unfold Tells kind
  split
  next hkind =>
    split at hkind
    next => exact nomatch hkind
    next => exact nomatch hkind
    next => exact nomatch hkind
    next => exact absurd rfl (hc _ _)
    next =>
      split at hkind
      next => exact nomatch hkind
      next => split at hkind <;> exact nomatch hkind
  next hkind =>
    split at hkind
    next => exact nomatch hkind
    next => exact nomatch hkind
    next => exact nomatch hkind
    next => exact absurd rfl (hc _ _)
    next =>
      split at hkind
      next => exact nomatch hkind
      next =>
        split at hkind
        next hlook =>
          obtain rfl := Kind.look.inj hkind
          rintro rfl
          exact h hlook
        next => exact nomatch hkind
  next => trivial

theorem tells_requests {creations : List Creation} {method : Method} {url : String}
    {items : Option (List Request)}
    (h : method = .post → url = R.query → R.Shows creations (deref items [])) :
    R.Tells creations (.requestsGet method url) (.ok items) := by
  unfold Tells kind
  dsimp only
  by_cases hasked : method = .post ∧ url = R.query
  · rw [if_pos hasked]
    exact h hasked.1 hasked.2
  · rw [if_neg hasked]
    trivial

theorem Tells.watches {creations : List Creation} {q : Phase} {c : Call} {a : Call.Ans c}
    (h : R.Tells creations c a) (hq : Watches creations q) :
    Watches creations (q.watch (R.obs (R.kind c a))) := by
  unfold Tells at h
  refine hq.watch ?_ ?_
  · intro hobs
    cases hk : R.kind c a with
    | look found =>
      rw [hk] at h hobs
      exact h (Obs.look.inj hobs)
    | requests items =>
      rw [hk] at hobs
      rcases newest_cases R items with hn | ⟨n, hn⟩ <;>
        · rw [show R.obs (.requests items) = R.newest items from rfl, hn] at hobs
          exact nomatch hobs
    | _ =>
      rw [hk] at hobs
      exact nomatch hobs
  · intro newest hobs
    cases hk : R.kind c a with
    | requests items =>
      rw [hk] at h hobs
      exact h.newest hq.settled.dates hobs
    | _ =>
      rw [hk] at hobs
      exact nomatch hobs

/-- The status of a creation is one of the four. -/
theorem Tells.known {creations : List Creation} {c : Call} {a : Call.Ans c}
    (h : R.Tells creations c a) : ∀ items, R.kind c a = .requests items →
      ∀ req ∈ items, R.IsCreation req → ∃ st, req.status = requestStatus st := by
  intro items hk req hreq hc
  unfold Tells at h
  rw [hk] at h
  obtain ⟨c', _, _, hst⟩ := h.only req hreq hc
  exact ⟨c'.status, hst⟩

/-- A monitor that watches the resource along with other things. -/
structure Watched (R : Resource) (M : Monitor Call Call.Ans) (inside : M.Phase → Prop)
    (watch : M.Phase → Phase) : Prop where
  asks : ∀ q url, M.ok q (.requestsGet .post url)
  adm : ∀ q c a, M.adm q c a → R.Adm c a
  next : ∀ q c a, inside q → M.adm q c a →
    watch (M.next q c a) = (watch q).watch (R.obs (R.kind c a))
  panic : ∀ q, M.panic q

/-- Asking for the newest creation request, for a run that only watches. -/
theorem Watched.wp_ask {M : Monitor Call Call.Ans} {inside : M.Phase → Prop}
    {watch : M.Phase → Phase} (h : R.Watched M inside watch) {I : M.Phase → MachineVars → Prop}
    (hI : ∀ q s url a, I q s → M.adm q (.requestsGet .post url) a →
      I (M.next q (.requestsGet .post url) a) s) {q : M.Phase} (hq : I q s) (hin : inside q) :
    (getMatchingRequest R.type .post R.url R.matchers).wp M
      (fun q' r s' => I q' s' ∧ (r = .ok none → watch q' = .clear) ∧
        ∀ ri, r = .ok (some ri) →
          (ri.isDone = true → watch q' = .sawDone ∨ watch q' = .clear) ∧
          (ri.isDone = false → ri.isPending = false → watch q' = .clear)) q s := by
  refine wp_getMatchingRequest ?_ (h.asks _ _) fun a ha => ⟨h.panic _, fun r hr => ?_⟩
  · intro e _
    exact ⟨hq, fun heq => (nomatch heq), fun _ heq => (nomatch heq)⟩
  refine ⟨hI q s _ a hq ha, ?_⟩
  rw [h.next _ _ _ hin ha]
  match a with
  | .error e =>
    obtain rfl := Res.val.inj hr
    exact ⟨fun heq => (nomatch heq), fun _ heq => (nomatch heq)⟩
  | .ok items =>
    have hkind : R.kind (.requestsGet .post (Text.cut R.url "?").1) (.ok items) =
        .requests (deref items []) := if_pos ⟨rfl, rfl⟩
    obtain ⟨hnone, hsome⟩ := newest_eq ((h.adm _ _ _ ha).2 _ hkind) hr
    rw [hkind]
    show (r = .ok none → (watch q).watch (R.newest (deref items [])) = .clear) ∧ _
    constructor
    · intro heq
      rw [hnone heq]
      show (if _ then _ else Phase.queued none) = Phase.clear
      split <;> rfl
    · intro ri heq
      obtain ⟨st, hri, hn⟩ := hsome ri heq
      have hwatch : (watch q).watch (R.obs (.requests (deref items []))) =
          if watch q = .clear then .clear else Phase.queued (some st) := by
        show (watch q).watch (R.newest (deref items [])) = _
        rw [hn]
        rfl
      rw [hwatch]
      have hasked := asked_queued hri
      split
      next => exact ⟨fun _ => .inr rfl, fun _ _ => rfl⟩
      next => exact ⟨fun hd => .inl (hasked.1 hd), hasked.2⟩

end Resource

end Capic.Properties
