import Capic.Client.Client

/-!
# Looking for resources and requests

`internal/service/cloud/request.go` (and the not-found helpers of `service.go`).
`getMatchingRequest` walks the requests the API returned, newest first, and takes
the first one that targets the type, ends with the URL and satisfies all matchers.
`findResource` is the lookup every step of the provider starts with: look, ask the
request queue if nothing was found, and look again if the queue says the creation
is done.

Mirroring note. `matchRequest` is the loop of `getMatchingRequest`. It may end in a
panic — a request without a URL, or a matching one without a status URL — which is
why its result is a `Res`.
-/

namespace Capic.Cloud

open Effect Effect.Go

variable {σ α : Type}

/-- `isNotFound`. -/
def isNotFound (e : Err) : Bool := e.asOpenAPI = some 404

/-- `GetRequestStatus`: the status and the message, if any. -/
def getRequestStatus (requestURL : String) :
    Go Call Call.Ans σ (Except Err (RequestStatus × String)) := do
  match ← Client.checkRequestStatus requestURL with
  | .error e => return .error (.wrap "unable to retrieve the request status: " e)
  | .ok info =>
    match info.status with
    | none => return .error (.new "request status metadata is missing")
    | some status => return .ok (status, deref info.message "")

/-! ## Requests -/

/-- A matcher on the properties in a request's body. -/
abbrev Matcher := Option BodyProperties → Bool

/-- `matchByName`. -/
def matchByName (name : String) : Matcher
  | none => false
  | some properties => properties.name = some name

/-- `hasRequestTargetType`. -/
def hasRequestTargetType (req : Request) (type : ResourceType) : Bool :=
  req.targets.any (· = some type)

/-- The URL of a request, or the one looked for, as they are compared: without the query
and a trailing slash. -/
def trimmedURL (url : String) : String := Text.trimSuffix (Text.cut url "?").1 "/"

/-- The loop of `getMatchingRequest`. -/
def matchRequest (type : ResourceType) (url : String) (matchers : List Matcher) :
    List Request → Res (Except Err (Option RequestInfo))
  | [] => .val (.ok none)
  | req :: reqs =>
    if hasRequestTargetType req type = false then matchRequest type url matchers reqs
    else
      match req.url with
      | none => .panic "nil pointer dereference"
      | some requestURL =>
        if Text.hasSuffix (trimmedURL requestURL) (trimmedURL url) = false then
          matchRequest type url matchers reqs
        else if matchers = [] then found req
        else
          match req.body with
          | .error e =>
            .val (.error (.wrap ("could not unmarshal request into " ++ type.goType ++ ": ") e))
          | .ok properties =>
            if matchers.all (· properties) then found req
            else matchRequest type url matchers reqs
where
  found (req : Request) : Res (Except Err (Option RequestInfo)) :=
    match req.href with
    | none => .panic "nil pointer dereference"
    | some href => .val (.ok (some ⟨req.status, href⟩))

/-- The end of a pure part of a function. -/
def conclude : Res α → Go Call Call.Ans σ α
  | .val a => return a
  | .panic text => panicking text

/-- `getMatchingRequest`. -/
def getMatchingRequest (type : ResourceType) (method : Method) (url : String)
    (matchers : List Matcher) : Go Call Call.Ans σ (Except Err (Option RequestInfo)) := do
  match ← Client.getRequests method (Text.cut url "?").1 with
  | .error e => return .error (.wrap "could not get requests: " e)
  | .ok requests => conclude (matchRequest type url matchers requests)

/-! ## Resources -/

/-- `findResource`: the resource, or the request that is to create it. -/
def findResource (tryLookupResource : Go Call Call.Ans σ (Except Err (Option α)))
    (checkQueue : Go Call Call.Ans σ (Except Err (Option RequestInfo))) :
    Go Call Call.Ans σ (Except Err (Option α × Option RequestInfo)) := do
  match notFoundIsNone (← tryLookupResource) with
  | .error e => return .error e
  | .ok (some resource) => return .ok (some resource, none)
  | .ok none =>
    match ← checkQueue with
    | .error e => return .error e
    | .ok none => return .ok (none, none)
    | .ok (some request) =>
      if request.isDone then
        match notFoundIsNone (← tryLookupResource) with
        | .error e => return .error e
        | .ok (some resource) => return .ok (some resource, none)
        | .ok none => return .ok (none, some request)
      else return .ok (none, some request)
where
  notFoundIsNone : Except Err (Option α) → Except Err (Option α)
    | .error e => if isNotFound e then .ok none else .error e
    | .ok r => .ok r

/-! ## Matching requests -/

/-- The request targets the type and its URL ends with the given one. -/
def IsCandidate (type : ResourceType) (url : String) (req : Request) : Prop :=
  hasRequestTargetType req type = true ∧
    ∃ requestURL, req.url = some requestURL ∧
      Text.hasSuffix (trimmedURL requestURL) (trimmedURL url) = true

/-- The request is a candidate and, if there are matchers, its body satisfies them all. -/
def IsMatch (type : ResourceType) (url : String) (matchers : List Matcher) (req : Request) :
    Prop :=
  IsCandidate type url req ∧
    (matchers ≠ [] → ∃ properties, req.body = .ok properties ∧ matchers.all (· properties) = true)

/-- The request is a candidate, and its body cannot be parsed to see if it is a match. -/
def IsUnreadable (type : ResourceType) (url : String) (matchers : List Matcher) (req : Request) :
    Prop :=
  matchers ≠ [] ∧ IsCandidate type url req ∧ ∃ e, req.body = .error e

section

variable {type : ResourceType} {url : String} {matchers : List Matcher}

/-- One round of the loop: the request is passed over, or it decides, as a match or for lack of a
URL or a readable body. -/
theorem matchRequest_cons (type : ResourceType) (url : String) (matchers : List Matcher)
    (req : Request) (reqs : List Request) :
    (¬ IsMatch type url matchers req ∧ ¬ IsUnreadable type url matchers req ∧
        matchRequest type url matchers (req :: reqs) = matchRequest type url matchers reqs) ∨
      (IsMatch type url matchers req ∧
        matchRequest type url matchers (req :: reqs) = matchRequest.found req) ∨
      (hasRequestTargetType req type = true ∧ req.url = none ∧
        matchRequest type url matchers (req :: reqs) = .panic "nil pointer dereference") ∨
      (IsUnreadable type url matchers req ∧
        ∃ e, matchRequest type url matchers (req :: reqs) = .val (.error e)) := by
  -- what is no candidate is passed over
  have hskip : ¬ IsCandidate type url req →
      ¬ IsMatch type url matchers req ∧ ¬ IsUnreadable type url matchers req :=
    fun h => ⟨fun hmatch => h hmatch.1, fun hunreadable => h hunreadable.2.1⟩
  rw [matchRequest]
  split
  next htype =>
    have hno : ¬ IsCandidate type url req := by
      intro hcandidate
      rw [hcandidate.1] at htype
      exact nomatch htype
    exact .inl ⟨(hskip hno).1, (hskip hno).2, rfl⟩
  next htype =>
    have htype : hasRequestTargetType req type = true := by simpa using htype
    split
    next hurl => exact .inr (.inr (.inl ⟨htype, hurl, rfl⟩))
    next requestURL hurl =>
      split
      next hsuffix =>
        have hno : ¬ IsCandidate type url req := by
          intro ⟨_, u, hu, hs⟩
          obtain rfl := Option.some.inj (hurl.symm.trans hu)
          rw [hs] at hsuffix
          exact nomatch hsuffix
        exact .inl ⟨(hskip hno).1, (hskip hno).2, rfl⟩
      next hsuffix =>
        have hcandidate : IsCandidate type url req :=
          ⟨htype, requestURL, hurl, by simpa using hsuffix⟩
        split
        next hnil => exact .inr (.inl ⟨⟨hcandidate, fun h => absurd hnil h⟩, rfl⟩)
        next hne =>
          split
          next e hbody => exact .inr (.inr (.inr ⟨⟨hne, hcandidate, e, hbody⟩, _, rfl⟩))
          next properties hbody =>
            split
            next hall => exact .inr (.inl ⟨⟨hcandidate, fun _ => ⟨properties, hbody, hall⟩⟩, rfl⟩)
            next hall =>
              refine .inl ⟨fun h => ?_, fun h => ?_, rfl⟩
              · obtain ⟨p, hp, hall'⟩ := h.2 hne
                obtain rfl := Except.ok.inj (hbody.symm.trans hp)
                exact hall hall'
              · obtain ⟨-, -, e, he⟩ := h
                exact nomatch hbody.symm.trans he

/-- No request was returned: there is no match. -/
theorem matchRequest_none {reqs : List Request}
    (h : matchRequest type url matchers reqs = .val (.ok none)) :
    ∀ req ∈ reqs, ¬ IsMatch type url matchers req := by
  induction reqs with
  | nil => exact fun _ hreq => nomatch hreq
  | cons req reqs ih =>
    rcases matchRequest_cons type url matchers req reqs with
      ⟨hno, -, heq⟩ | ⟨_, heq⟩ | ⟨-, -, heq⟩ | ⟨-, e, heq⟩
    · intro r hr
      rcases List.mem_cons.mp hr with rfl | hr
      · exact hno
      · exact ih (heq.symm.trans h) r hr
    · rw [heq, matchRequest.found] at h
      split at h <;> exact nomatch h
    · rw [heq] at h
      exact nomatch h
    · rw [heq] at h
      exact nomatch h

/-- The loop panics at a pointer that is not there. -/
theorem matchRequest_panic {reqs : List Request} {msg : String}
    (h : matchRequest type url matchers reqs = .panic msg) : msg = "nil pointer dereference" := by
  induction reqs with
  | nil => exact nomatch h
  | cons req reqs ih =>
    rcases matchRequest_cons type url matchers req reqs with
      ⟨-, -, heq⟩ | ⟨_, heq⟩ | ⟨-, -, heq⟩ | ⟨-, e, heq⟩
    · exact ih (heq.symm.trans h)
    · rw [heq, matchRequest.found] at h
      split at h
      · exact (Res.panic.inj h).symm
      · exact nomatch h
    · exact Res.panic.inj (h.symm.trans heq)
    · exact nomatch heq.symm.trans h

/-- The request returned is the first match. -/
theorem matchRequest_some {reqs : List Request} {ri : RequestInfo}
    (h : matchRequest type url matchers reqs = .val (.ok (some ri))) :
    ∃ before req after, reqs = before ++ req :: after ∧
      (∀ r ∈ before, ¬ IsMatch type url matchers r) ∧ IsMatch type url matchers req ∧
      req.status = ri.status ∧ req.href = some ri.location := by
  induction reqs with
  | nil => exact nomatch h
  | cons req reqs ih =>
    rcases matchRequest_cons type url matchers req reqs with
      ⟨hno, -, heq⟩ | ⟨hyes, heq⟩ | ⟨-, -, heq⟩ | ⟨-, e, heq⟩
    · obtain ⟨before, r, after, hreqs, hbefore, hr⟩ := ih (heq.symm.trans h)
      refine ⟨req :: before, r, after, by rw [hreqs]; rfl, fun r' hr' => ?_, hr⟩
      rcases List.mem_cons.mp hr' with rfl | hr'
      · exact hno
      · exact hbefore r' hr'
    · rw [heq, matchRequest.found] at h
      refine ⟨[], req, reqs, rfl, fun _ hr => (nomatch hr), hyes, ?_⟩
      split at h
      next => exact nomatch h
      next href hhref =>
        obtain rfl := Option.some.inj (Except.ok.inj (Res.val.inj h))
        exact ⟨rfl, hhref⟩
    · rw [heq] at h
      exact nomatch h
    · rw [heq] at h
      exact nomatch h

/-- The requests `items` show every one of the accepted `entries`, each with its date and
a status that tells the truth about it, and no other match. -/
structure Shows {E : Type} (type : ResourceType) (url : String) (matchers : List Matcher)
    (date : E → Int) (Tells : E → RequestStatus → Prop) (entries : List E)
    (items : List Request) : Prop where
  all : ∀ x ∈ entries, ∃ req ∈ items, IsMatch type url matchers req ∧
    req.createdDate = date x ∧ Tells x req.status
  only : ∀ req ∈ items, IsMatch type url matchers req → ∃ x ∈ entries,
    req.createdDate = date x ∧ Tells x req.status

variable {E : Type} {date : E → Int} {Tells : E → RequestStatus → Prop} {entries : List E}
  {items : List Request}

/-- No match means that nothing was accepted. -/
theorem Shows.of_none (h : Shows type url matchers date Tells entries items)
    (hm : matchRequest type url matchers (Client.sortRequests items) = .val (.ok none)) :
    entries = [] := by
  cases entries with
  | nil => rfl
  | cons x older =>
    obtain ⟨req, hreq, hmatch, _⟩ := h.all x (List.mem_cons_self ..)
    have hmem := (Client.sortRequests_perm items).mem_iff.mpr hreq
    exact absurd hmatch (matchRequest_none hm req hmem)

/-- The match that is found belongs to the newest entry. -/
theorem Shows.of_some (h : Shows type url matchers date Tells entries items)
    (hd : entries.Pairwise fun x x' => date x' < date x) {ri : RequestInfo}
    (hm : matchRequest type url matchers (Client.sortRequests items) = .val (.ok (some ri))) :
    ∃ x older, entries = x :: older ∧ Tells x ri.status := by
  obtain ⟨before, req, after, hsplit, hbefore, hreq, hstatus, _⟩ := matchRequest_some hm
  have hmem : ∀ r, r ∈ items ↔ r ∈ before ++ req :: after := fun r => by
    rw [← hsplit]
    exact (Client.sortRequests_perm items).mem_iff.symm
  obtain ⟨x, hx, hdate, htells⟩ := h.only req ((hmem req).mpr (by simp)) hreq
  rw [hstatus] at htells
  cases entries with
  | nil => exact nomatch hx
  | cons x₀ older =>
    -- the request of the newest entry is not before the match, hence not newer
    obtain ⟨r₀, hr₀, hr₀m, hr₀d, _⟩ := h.all x₀ (List.mem_cons_self ..)
    have hle : date x₀ ≤ date x := by
      rw [← hr₀d, ← hdate]
      rcases List.mem_append.mp ((hmem r₀).mp hr₀) with hb | ha
      · exact absurd hr₀m (hbefore r₀ hb)
      · exact Client.sortRequests_le hsplit ha
    rcases List.mem_cons.mp hx with rfl | hx
    · exact ⟨x, older, rfl, htells⟩
    · have := (List.pairwise_cons.mp hd).1 x hx
      omega

end

/-- What `getMatchingRequest` makes of the API's answer. -/
def matchAnswer (type : ResourceType) (url : String) (matchers : List Matcher) :
    Except Err (Option (List Request)) → Res (Except Err (Option RequestInfo))
  | .error e => .val (.error (.wrap "could not get requests: " (Client.apiCallErr e)))
  | .ok items => matchRequest type url matchers (Client.sortRequests (deref items []))

/-! ## Rules -/

section

variable {M : Monitor Call Call.Ans} {q : M.Phase} {s : σ}

theorem wp_conclude_iff {r : Res α} {Q : M.Phase → α → σ → Prop} :
    (conclude r).wp M Q q s ↔ post M Q q (r, s) := by
  cases r with
  | val a => exact wp_pure a
  | panic text => exact wp_panicking text

theorem wp_conclude {r : Res α} {Q : M.Phase → α → σ → Prop} (hpanic : M.panic q)
    (h : ∀ a, r = .val a → Q q a s) : (conclude r).wp M Q q s := by
  rw [wp_conclude_iff]
  cases r with
  | val a => exact h a rfl
  | panic text => exact hpanic

/-- `getMatchingRequest` makes one call, with a path, or fails without one. -/
theorem wp_getMatchingRequest_post {type : ResourceType} {method : Method} {url : String}
    {matchers : List Matcher} {Q : M.Phase → Except Err (Option RequestInfo) → σ → Prop}
    (hfail : (Text.cut url "?").1 = "" → ∀ e, isNotFound e = false → Q q (.error e) s)
    (hcall : (Text.cut url "?").1 ≠ "" → M.ok q (.requestsGet method (Text.cut url "?").1) ∧
      ∀ a, M.adm q (.requestsGet method (Text.cut url "?").1) a →
      post M Q (M.next q (.requestsGet method (Text.cut url "?").1) a)
        (matchAnswer type url matchers a, s)) :
    (getMatchingRequest type method url matchers).wp M Q q s := by
  unfold getMatchingRequest Client.getRequests
  rw [wp_bind]
  refine Client.wp_withParams_given (fun p hp hempty => ?_) fun hgiven => ?_
  · obtain rfl := List.mem_singleton.mp hp
    exact (wp_pure _).mpr (hfail hempty _ rfl)
  obtain ⟨hok, hcall⟩ := hcall (hgiven _ (List.mem_singleton.mpr rfl))
  rw [wp_bind, wp_perform]
  refine ⟨hok, fun a ha => ?_⟩
  have h := hcall a ha
  match a with
  | .error e => exact (wp_pure _).mpr ((wp_pure _).mpr h)
  | .ok none => exact (wp_pure _).mpr (wp_conclude_iff.mpr h)
  | .ok (some items) => exact (wp_pure _).mpr (wp_conclude_iff.mpr h)

/-- The same for a monitor that lets a panic pass after the call. -/
theorem wp_getMatchingRequest_given {type : ResourceType} {method : Method} {url : String}
    {matchers : List Matcher} {Q : M.Phase → Except Err (Option RequestInfo) → σ → Prop}
    (hfail : ∀ e, isNotFound e = false → Q q (.error e) s)
    (hcall : (Text.cut url "?").1 ≠ "" → M.ok q (.requestsGet method (Text.cut url "?").1) ∧
      ∀ a, M.adm q (.requestsGet method (Text.cut url "?").1) a →
      M.panic (M.next q (.requestsGet method (Text.cut url "?").1) a) ∧
      ∀ r, matchAnswer type url matchers a = .val r →
        Q (M.next q (.requestsGet method (Text.cut url "?").1) a) r s) :
    (getMatchingRequest type method url matchers).wp M Q q s := by
  refine wp_getMatchingRequest_post (fun _ => hfail) fun hurl => ?_
  obtain ⟨hok, hcall⟩ := hcall hurl
  refine ⟨hok, fun a ha => ?_⟩
  obtain ⟨hpanic, h⟩ := hcall a ha
  match hr : matchAnswer type url matchers a with
  | .val r => exact h r hr
  | .panic _ => exact hpanic

theorem wp_getMatchingRequest {type : ResourceType} {method : Method} {url : String}
    {matchers : List Matcher} {Q : M.Phase → Except Err (Option RequestInfo) → σ → Prop}
    (hfail : ∀ e, isNotFound e = false → Q q (.error e) s)
    (hok : M.ok q (.requestsGet method (Text.cut url "?").1))
    (hcall : ∀ a, M.adm q (.requestsGet method (Text.cut url "?").1) a →
      M.panic (M.next q (.requestsGet method (Text.cut url "?").1) a) ∧
      ∀ r, matchAnswer type url matchers a = .val r →
        Q (M.next q (.requestsGet method (Text.cut url "?").1) a) r s) :
    (getMatchingRequest type method url matchers).wp M Q q s :=
  wp_getMatchingRequest_given hfail fun _ => ⟨hok, hcall⟩

/-- `GetRequestStatus` makes one call, with a URL, and fails without one. The status it returns
is the one in the answer, if there is one. -/
theorem wp_getRequestStatus {requestURL : String}
    {Q : M.Phase → Except Err (RequestStatus × String) → σ → Prop}
    (hfail : requestURL = "" → ∀ e, Q q (.error e) s)
    (hok : requestURL ≠ "" → M.ok q (.getRequestStatus requestURL))
    (hcall : requestURL ≠ "" → ∀ a, M.adm q (.getRequestStatus requestURL) a →
      ∀ r : Except Err (RequestStatus × String),
        r.toOption.map Prod.fst = a.toOption.bind (·.status) →
        Q (M.next q (.getRequestStatus requestURL) a) r s) :
    (getRequestStatus requestURL).wp M Q q s := by
  unfold getRequestStatus Client.checkRequestStatus
  rw [wp_bind]
  refine Client.wp_withParams_given (fun p hp hempty => ?_) fun hgiven => ?_
  · obtain rfl := List.mem_singleton.mp hp
    exact (wp_pure _).mpr (hfail hempty _)
  have hurl : requestURL ≠ "" := hgiven _ (List.mem_singleton.mpr rfl)
  rw [wp_bind, wp_perform]
  refine ⟨hok hurl, fun a ha => ?_⟩
  match a with
  | .error e => exact (wp_pure _).mpr ((wp_pure _).mpr (hcall hurl _ ha _ rfl))
  | .ok ⟨none, _⟩ => exact (wp_pure _).mpr ((wp_pure _).mpr (hcall hurl _ ha _ rfl))
  | .ok ⟨some status, _⟩ => exact (wp_pure _).mpr ((wp_pure _).mpr (hcall hurl _ ha _ rfl))

/-! Functions that make certain calls only. -/

section

variable {κ : Type} {E : Call → Prop} {keep : σ → κ}

theorem within_conclude (r : Res α) : Within E keep (conclude r : Go Call Call.Ans σ α) := by
  cases r with
  | val a => exact .pure a
  | panic text => exact .panicking text

theorem within_getMatchingRequest {type : ResourceType} {method : Method} {url : String}
    {matchers : List Matcher} (hget : ∀ url, E (.requestsGet method url)) :
    Within E keep (getMatchingRequest type method url matchers) := by
  refine .bind (Client.Within.withParams (.bind (.perform (hget _)) fun a => ?_)) fun r => ?_
  · match a with
    | .error e => exact .pure _
    | .ok none => exact .pure _
    | .ok (some items) => exact .pure _
  · cases r with
    | error e => exact .pure _
    | ok requests => exact within_conclude _

theorem within_findResource {lookup : Go Call Call.Ans σ (Except Err (Option α))}
    {check : Go Call Call.Ans σ (Except Err (Option RequestInfo))} (hlookup : Within E keep lookup)
    (hcheck : Within E keep check) : Within E keep (findResource lookup check) := by
  refine .bind hlookup fun r => ?_
  split
  next => exact .pure _
  next => exact .pure _
  next =>
    refine .bind hcheck fun r => ?_
    split
    next => exact .pure _
    next => exact .pure _
    next =>
      refine .ite (.bind hlookup fun r => ?_) (.pure _)
      split <;> exact .pure _

end

/-- The postcondition a lookup of `findResource` has to meet, if `rest` is to follow a
lookup in vain. -/
def lookedUp (Q : M.Phase → Except Err (Option α × Option RequestInfo) → σ → Prop)
    (rest : M.Phase → σ → Prop) (q : M.Phase) (r : Except Err (Option α)) (s : σ) : Prop :=
  match findResource.notFoundIsNone r with
  | .error e => Q q (.error e) s
  | .ok (some resource) => Q q (.ok (some resource, none)) s
  | .ok none => rest q s

/-- `findResource`: look, ask, and look again if the request is done. -/
theorem wp_findResource {lookup : Go Call Call.Ans σ (Except Err (Option α))}
    {check : Go Call Call.Ans σ (Except Err (Option RequestInfo))}
    {Q : M.Phase → Except Err (Option α × Option RequestInfo) → σ → Prop}
    (h : lookup.wp M (lookedUp Q fun q₁ s₁ => check.wp M (fun q₂ r s₂ =>
      match r with
      | .error e => Q q₂ (.error e) s₂
      | .ok none => Q q₂ (.ok (none, none)) s₂
      | .ok (some request) =>
        if request.isDone then
          lookup.wp M (lookedUp Q fun q₃ s₃ => Q q₃ (.ok (none, some request)) s₃) q₂ s₂
        else Q q₂ (.ok (none, some request)) s₂) q₁ s₁) q s) :
    (findResource lookup check).wp M Q q s := by
  unfold findResource
  rw [wp_bind]
  refine wp_mono h fun q₁ r₁ s₁ h₁ => ?_
  unfold lookedUp at h₁
  split at h₁
  next => exact (wp_pure _).mpr h₁
  next => exact (wp_pure _).mpr h₁
  next =>
    rw [wp_bind]
    refine wp_mono h₁ fun q₂ r₂ s₂ h₂ => ?_
    match r₂ with
    | .error e => exact (wp_pure _).mpr h₂
    | .ok none => exact (wp_pure _).mpr h₂
    | .ok (some request) =>
      dsimp only at h₂ ⊢
      rw [wp_ite]
      split at h₂
      next hdone =>
        rw [if_pos hdone, wp_bind]
        refine wp_mono h₂ fun q₃ r₃ s₃ h₃ => ?_
        split at h₃
        next => exact (wp_pure _).mpr h₃
        next => exact (wp_pure _).mpr h₃
        next => exact (wp_pure _).mpr h₃
      next hdone =>
        rw [if_neg hdone]
        exact (wp_pure _).mpr h₂

/-- What `findResource` finds out: `P` of a resource that is found, `G` if there is none and none
is on its way, for which the request has to be seen first and, if it is done (`D`), the resource
has to be looked for in vain. `I` holds all along, until there is a resource. -/
theorem wp_findResource_gone {lookup : Go Call Call.Ans σ (Except Err (Option α))}
    {check : Go Call Call.Ans σ (Except Err (Option RequestInfo))} (I : M.Phase → σ → Prop)
    (P : M.Phase → α → σ → Prop) (D G : M.Phase → σ → Prop) (hI : I q s)
    (hlookup : ∀ q s, I q s → lookup.wp M (fun q' r s' =>
      (∀ x, r = .ok (some x) → P q' x s') ∧ ((∀ x, r ≠ .ok (some x)) → I q' s') ∧
      (D q s → findResource.notFoundIsNone r = .ok none → G q' s')) q s)
    (hcheck : ∀ q s, I q s → check.wp M (fun q' r s' => I q' s' ∧ (r = .ok none → G q' s') ∧
      ∀ ri, r = .ok (some ri) → (ri.isDone = true → D q' s') ∧
        (ri.isDone = false → ri.isPending = false → G q' s')) q s) :
    (findResource lookup check).wp M (fun q' r s' =>
      (∀ x ri, r = .ok (some x, ri) → P q' x s' ∧ ri = none) ∧
      ((∀ x ri, r ≠ .ok (some x, ri)) → I q' s') ∧
      ∀ ri, r = .ok (none, ri) → ri.any (·.isPending) = false → G q' s') q s := by
  -- an end without a resource
  have hrest : ∀ {q s} {r : Except Err (Option α × Option RequestInfo)}, I q s →
      (∀ x ri, r ≠ .ok (some x, ri)) →
      (∀ ri, r = .ok (none, ri) → ri.any (·.isPending) = false → G q s) →
      (∀ x ri, r = .ok (some x, ri) → P q x s ∧ ri = none) ∧
      ((∀ x ri, r ≠ .ok (some x, ri)) → I q s) ∧
      ∀ ri, r = .ok (none, ri) → ri.any (·.isPending) = false → G q s := by
    intro q s r h hne hgone
    exact ⟨fun x ri heq => absurd heq (hne x ri), fun _ => h, hgone⟩
  -- the same lookup is made at most twice, and only a lookup yields a resource
  have hfound : ∀ {q s} {r : Except Err (Option α)} {rest : M.Phase → σ → Prop},
      (∀ x, r = .ok (some x) → P q x s) → ((∀ x, r ≠ .ok (some x)) → I q s) →
      (I q s → findResource.notFoundIsNone r = .ok none → rest q s) →
      lookedUp (fun q' r s' => (∀ x ri, r = .ok (some x, ri) → P q' x s' ∧ ri = none) ∧
        ((∀ x ri, r ≠ .ok (some x, ri)) → I q' s') ∧
        ∀ ri, r = .ok (none, ri) → ri.any (·.isPending) = false → G q' s') rest q r s := by
    intro q s r rest hP hI' hnone
    unfold lookedUp
    match r with
    | .ok (some x) =>
      refine ⟨?_, fun hne => absurd rfl (hne x none), fun _ heq => nomatch heq⟩
      intro y ri heq
      cases heq
      exact ⟨hP x rfl, rfl⟩
    | .ok none => exact hnone (hI' fun _ heq => nomatch heq) rfl
    | .error e =>
      have hI'' := hI' fun _ heq => nomatch heq
      by_cases he : isNotFound e
      · have hr : findResource.notFoundIsNone (.error e : Except Err (Option α)) = .ok none :=
          if_pos he
        rw [hr]
        exact hnone hI'' hr
      · have hr : findResource.notFoundIsNone (.error e : Except Err (Option α)) = .error e :=
          if_neg he
        rw [hr]
        exact hrest hI'' (fun _ _ heq => nomatch heq) fun _ heq => nomatch heq
  refine wp_findResource (wp_mono (hlookup q s hI) fun q₁ r₁ s₁ h₁ =>
    hfound h₁.1 h₁.2.1 fun hI₁ _ => ?_)
  refine wp_mono (hcheck q₁ s₁ hI₁) fun q₂ r₂ s₂ h₂ => ?_
  obtain ⟨hI₂, hnone, hsome⟩ := h₂
  match r₂ with
  | .error e => exact hrest hI₂ (fun _ _ heq => nomatch heq) fun _ heq => nomatch heq
  | .ok none => exact hrest hI₂ (fun _ _ heq => nomatch heq) fun _ _ _ => hnone rfl
  | .ok (some request) =>
    obtain ⟨hdone, hfailed⟩ := hsome request rfl
    dsimp only
    by_cases hd : request.isDone
    · rw [if_pos hd]
      refine wp_mono (hlookup q₂ s₂ hI₂) fun q₃ r₃ s₃ h₃ =>
        hfound h₃.1 h₃.2.1 fun hI₃ hr => ?_
      exact hrest hI₃ (fun _ _ heq => nomatch heq) fun _ _ _ => h₃.2.2 (hdone hd) hr
    · rw [if_neg hd]
      refine hrest hI₂ (fun _ _ heq => nomatch heq) fun ri heq hpending => ?_
      cases heq
      exact hfailed (by simpa using hd) hpending

/-- What a lookup shows of the resource it finds, `findResource` shows of it; `I` holds as
long as there is none. -/
theorem wp_findResource_found {lookup : Go Call Call.Ans σ (Except Err (Option α))}
    {check : Go Call Call.Ans σ (Except Err (Option RequestInfo))} (I : M.Phase → σ → Prop)
    (P : M.Phase → α → σ → Prop) (hI : I q s)
    (hlookup : ∀ q s, I q s → lookup.wp M (fun q' r s' =>
      (∀ x, r = .ok (some x) → P q' x s') ∧ ((∀ x, r ≠ .ok (some x)) → I q' s')) q s)
    (hcheck : ∀ q s, I q s → check.wp M (fun q' _ s' => I q' s') q s) :
    (findResource lookup check).wp M (fun q' r s' =>
      (∀ x ri, r = .ok (some x, ri) → P q' x s' ∧ ri = none) ∧
      ((∀ x ri, r ≠ .ok (some x, ri)) → I q' s')) q s := by
  refine wp_mono (wp_findResource_gone I P (fun _ _ => True) (fun _ _ => True) hI ?_ ?_)
    fun _ _ _ h => ⟨h.1, h.2.1⟩
  · intro q s hI
    exact wp_mono (hlookup q s hI) fun _ _ _ h => ⟨h.1, h.2, fun _ _ => trivial⟩
  · intro q s hI
    exact wp_mono (hcheck q s hI) fun _ _ _ h =>
      ⟨h, fun _ => trivial, fun _ _ => ⟨fun _ => trivial, fun _ _ => trivial⟩⟩

/-- A lookup that finds a resource decides. -/
theorem wp_findResource_there {lookup : Go Call Call.Ans σ (Except Err (Option α))}
    {check : Go Call Call.Ans σ (Except Err (Option RequestInfo))} {P : M.Phase → α → σ → Prop}
    (h : lookup.wp M (fun q' r s' => ∃ x, r = .ok (some x) ∧ P q' x s') q s) :
    (findResource lookup check).wp M (fun q' r s' => ∃ x, r = .ok (some x, none) ∧ P q' x s') q s := by
  refine wp_findResource (wp_mono h fun q' r s' hr => ?_)
  obtain ⟨x, rfl, hx⟩ := hr
  exact ⟨x, rfl, hx⟩

/-- A resource that no lookup finds and of which no creation is pending is absent. -/
theorem wp_findResource_absent {lookup : Go Call Call.Ans σ (Except Err (Option α))}
    {check : Go Call Call.Ans σ (Except Err (Option RequestInfo))} (I : M.Phase → σ → Prop)
    (hI : I q s)
    (hlookup : ∀ q s, I q s → lookup.wp M (fun q' r s' =>
      findResource.notFoundIsNone r = .ok none ∧ I q' s') q s)
    (hcheck : ∀ q s, I q s → check.wp M (fun q' r s' =>
      (∃ ri, r = .ok ri ∧ ri.any (·.isPending) = false) ∧ I q' s') q s) :
    (findResource lookup check).wp M (fun q' r s' =>
      (∃ ri, r = .ok (none, ri) ∧ ri.any (·.isPending) = false) ∧ I q' s') q s := by
  refine wp_findResource (wp_mono (hlookup q s hI) fun q₁ r₁ s₁ h₁ => ?_)
  unfold lookedUp
  rw [h₁.1]
  refine wp_mono (hcheck q₁ s₁ h₁.2) fun q₂ r₂ s₂ h₂ => ?_
  obtain ⟨⟨ri, rfl, hpending⟩, hI₂⟩ := h₂
  cases ri with
  | none => exact ⟨⟨none, rfl, rfl⟩, hI₂⟩
  | some request =>
    dsimp only
    split
    next =>
      refine wp_mono (hlookup q₂ s₂ hI₂) fun q₃ r₃ s₃ h₃ => ?_
      rw [h₃.1]
      exact ⟨⟨_, rfl, hpending⟩, h₃.2⟩
    next => exact ⟨⟨_, rfl, hpending⟩, hI₂⟩

end

/-! ## Possible runs -/

section

variable {A : ∀ c, Call.Ans c → Prop} {s s₁ : σ}
  {lookup : Go Call Call.Ans σ (Except Err (Option α))}
  {check : Go Call Call.Ans σ (Except Err (Option RequestInfo))}

/-- A lookup that finds something decides. -/
theorem can_findResource_found {x : α} (h : Can A lookup s (.val (.ok (some x))) s₁) :
    Can A (findResource lookup check) s (.val (.ok (some x, none))) s₁ :=
  h.bind (.pure _)

/-- A lookup that fails decides. -/
theorem can_findResource_error {e : Err} (h : Can A lookup s (.val (.error e)) s₁)
    (he : isNotFound e = false) :
    Can A (findResource lookup check) s (.val (.error e)) s₁ := by
  refine h.bind ?_
  rw [findResource.notFoundIsNone, he]
  exact .pure _

/-- If nothing is found, neither now nor later, the request decides. -/
theorem can_findResource_check {r : Except Err (Option α)} {r' : Except Err (Option RequestInfo)}
    (h : Can A lookup s (.val r) s) (hnone : findResource.notFoundIsNone r = .ok none)
    (hcheck : Can A check s (.val r') s) :
    Can A (findResource lookup check) s (.val (r'.map fun ri => (none, ri))) s := by
  refine h.bind ?_
  rw [hnone]
  refine hcheck.bind ?_
  match r' with
  | .error e => exact .pure _
  | .ok none => exact .pure _
  | .ok (some request) =>
    by_cases hdone : request.isDone = true
    · simp only [hdone, if_true]
      refine h.bind ?_
      rw [hnone]
      exact .pure _
    · simp only [hdone, Bool.false_eq_true, if_false]
      exact .pure _

theorem can_conclude (r : Res α) : Can A (conclude r : Go Call Call.Ans σ α) s r s := by
  cases r with
  | val a => exact .pure a
  | panic msg => exact .panicking msg

/-- `getMatchingRequest` for an answer to its call. -/
theorem can_getMatchingRequest {type : ResourceType} {method : Method} {url : String}
    {matchers : List Matcher} (hurl : (Text.cut url "?").1 ≠ "")
    {a : Except Err (Option (List Request))} (ha : A (.requestsGet method (Text.cut url "?").1) a) :
    Can A (getMatchingRequest type method url matchers) s (matchAnswer type url matchers a) s := by
  unfold getMatchingRequest Client.getRequests
  rw [Client.withParams_given (by simpa using hurl)]
  match a with
  | .error e => exact ((Can.perform ha).bind (.pure _)).bind (.pure _)
  | .ok none =>
    exact ((Can.perform ha).bind (.pure _)).bind (can_conclude (matchRequest type url matchers []))
  | .ok (some items) =>
    exact ((Can.perform ha).bind (.pure _)).bind
      (can_conclude (matchRequest type url matchers (Client.sortRequests items)))

end

/-! ## States -/

/-- `getState` of a resource's state. -/
def getState (state : Option String) : String := deref state unknownValue

/-- `getVMState`. -/
def getVMState (server : Server) : String :=
  deref (server.properties.bind (·.vmState)) "Unknown"

def isRunning (state : String) : Bool := state = "RUNNING"

def isAvailable (state : String) : Bool := state = "AVAILABLE"

end Capic.Cloud
