import Capic.Cloud.Nic
import Capic.Cloud.Server

/-!
# Looking up requests

Whether a resource is created again, waited for or taken for gone is decided by one function,
`getMatchingRequest`: it asks for the requests of the last day and takes the newest one that
targets the type, has the URL and satisfies the matchers.

- `AnswersNewest`: what that means for the requests the API returned, in whatever order;
- `matchRequest_decided`: the loop ends at the first request that decides, and the sort puts the
  newest first, so it is the newest that decides;
- `ResourcePath.suffix_iff`: the URL of a LAN, a server, a NIC or an IP block is at the end of the
  URLs of requests for this resource only;
- `request_lookup`: both together.

The URL that is looked for is compared as the URLs of the requests are, without its query and one
trailing slash. If there is nothing before its query, the requests are not asked for at all
(`request_lookup_refused`).
-/

namespace Capic.Properties

open Effect Effect.Go Cloud

/-! ## The newest match -/

section

variable (type : ResourceType) (url : String) (matchers : List Matcher) (items : List Request)

/-- A candidate newer than every match has a body that cannot be parsed. -/
def Spoiled : Prop :=
  ∃ req ∈ items, IsUnreadable type url matchers req ∧
    ∀ m ∈ items, IsMatch type url matchers m → m.createdDate < req.createdDate

/-- What is needed of the requests: no two are from the same time, those that target the type
have a URL and the matches have a status URL. -/
structure Proper : Prop where
  dates : (items.map Request.createdDate).Nodup
  hasURL : ∀ req ∈ items, hasRequestTargetType req type = true → req.url.isSome
  hasHref : ∀ req ∈ items, IsMatch type url matchers req → req.href.isSome

/-- The answer is about the newest match among the requests. -/
structure AnswersNewest (r : Res (Except Err (Option RequestInfo))) : Prop where
  newest : ¬ Spoiled type url matchers items → ∀ m ∈ items, IsMatch type url matchers m →
    (∀ m' ∈ items, IsMatch type url matchers m' → m'.createdDate ≤ m.createdDate) →
    ∃ location, m.href = some location ∧ r = .val (.ok (some ⟨m.status, location⟩))
  spoiled : Spoiled type url matchers items → ∃ e, r = .val (.error e)
  nothing : r = .val (.ok none) ↔
    ¬ Spoiled type url matchers items ∧ ∀ m ∈ items, ¬ IsMatch type url matchers m

end

section

variable {type : ResourceType} {url : String} {matchers : List Matcher} {items : List Request}

/-- The loop ends at the first request that decides, if there is one. -/
theorem matchRequest_decided (url : String) (matchers : List Matcher) {reqs : List Request}
    (hurl : ∀ req ∈ reqs, hasRequestTargetType req type = true → req.url.isSome) :
    (matchRequest type url matchers reqs = .val (.ok none) ∧
      ∀ req ∈ reqs, ¬ IsMatch type url matchers req ∧ ¬ IsUnreadable type url matchers req) ∨
    ∃ before req after, reqs = before ++ req :: after ∧
      (∀ r ∈ before, ¬ IsMatch type url matchers r ∧ ¬ IsUnreadable type url matchers r) ∧
      ((IsMatch type url matchers req ∧
          matchRequest type url matchers reqs = matchRequest.found req) ∨
        (IsUnreadable type url matchers req ∧
          ∃ e, matchRequest type url matchers reqs = .val (.error e))) := by
  induction reqs with
  | nil => exact .inl ⟨rfl, fun _ hreq => by cases hreq⟩
  | cons req reqs ih =>
    rcases matchRequest_cons type url matchers req reqs with
      ⟨hmatch, hread, heq⟩ | hfound | ⟨htype, hnone, -⟩ | hunreadable
    · -- the request is passed over
      have hfirst : ∀ {l : List Request},
          (∀ r ∈ l, ¬ IsMatch type url matchers r ∧ ¬ IsUnreadable type url matchers r) →
          ∀ r ∈ req :: l, ¬ IsMatch type url matchers r ∧ ¬ IsUnreadable type url matchers r := by
        intro l hl r hr
        rcases List.mem_cons.mp hr with rfl | hr
        · exact ⟨hmatch, hread⟩
        · exact hl r hr
      rw [heq]
      rcases ih fun r hr => hurl r (List.mem_cons_of_mem _ hr) with
        ⟨hval, hnone⟩ | ⟨before, x, after, hsplit, hbefore, hx⟩
      · exact .inl ⟨hval, hfirst hnone⟩
      · exact .inr ⟨req :: before, x, after, by rw [hsplit]; rfl, hfirst hbefore, hx⟩
    · exact .inr ⟨[], req, reqs, rfl, fun _ hr => (by cases hr), .inl hfound⟩
    · have hsome := hurl req List.mem_cons_self htype
      rw [hnone] at hsome
      cases hsome
    · exact .inr ⟨[], req, reqs, rfl, fun _ hr => (by cases hr), .inr hunreadable⟩

/-- After the sort, what comes later is older. -/
theorem sortRequests_older (hdates : (items.map Request.createdDate).Nodup)
    {before after : List Request} {req r : Request}
    (hsplit : Client.sortRequests items = before ++ req :: after) (hr : r ∈ after) :
    r.createdDate < req.createdDate := by
  have hle : r.createdDate ≤ req.createdDate :=
    Client.sortRequests_le hsplit (List.mem_cons_of_mem _ hr)
  have hnodup : ((before ++ req :: after).map Request.createdDate).Nodup := by
    rw [← hsplit]
    exact ((Client.sortRequests_perm items).map _).nodup_iff.mpr hdates
  rw [List.map_append, List.map_cons, List.nodup_append, List.nodup_cons] at hnodup
  have hne : r.createdDate ≠ req.createdDate := fun heq =>
    hnodup.2.1.1 (heq ▸ List.mem_map_of_mem hr)
  omega

theorem not_unreadable_of_match {req : Request} (h : IsMatch type url matchers req) :
    ¬ IsUnreadable type url matchers req := by
  intro ⟨hne, _, e, he⟩
  obtain ⟨properties, hbody, -⟩ := h.2 hne
  exact nomatch hbody.symm.trans he

/-- The loop on the sorted requests answers for the newest match. -/
theorem answersNewest (h : Proper type url matchers items) :
    AnswersNewest type url matchers items
      (matchRequest type url matchers (Client.sortRequests items)) := by
  have hmem : ∀ {r}, r ∈ Client.sortRequests items ↔ r ∈ items :=
    (Client.sortRequests_perm items).mem_iff
  have hurl : ∀ req ∈ Client.sortRequests items,
      hasRequestTargetType req type = true → req.url.isSome := fun req hreq =>
    h.hasURL req (hmem.mp hreq)
  rcases matchRequest_decided url matchers hurl with
    ⟨hval, hnone⟩ | ⟨before, req, after, hsplit, hbefore, hreq⟩
  · have hmatch : ∀ m ∈ items, ¬ IsMatch type url matchers m := fun m hm =>
      (hnone m (hmem.mpr hm)).1
    have hclear : ¬ Spoiled type url matchers items := by
      rintro ⟨r, hr, hread, _⟩
      exact (hnone r (hmem.mpr hr)).2 hread
    exact
      { newest := fun _ m hm hm' _ => absurd hm' (hmatch m hm)
        spoiled := fun hspoiled => absurd hspoiled hclear
        nothing := ⟨fun _ => ⟨hclear, hmatch⟩, fun _ => hval⟩ }
  · have hreqMem : req ∈ items := hmem.mp (by rw [hsplit]; simp)
    -- a request that could decide is the one that does, or is older
    have hplace : ∀ r ∈ items,
        IsMatch type url matchers r ∨ IsUnreadable type url matchers r →
        r = req ∨ r.createdDate < req.createdDate := by
      intro r hr hcould
      have hr := hmem.mpr hr
      rw [hsplit, List.mem_append, List.mem_cons] at hr
      rcases hr with hr | hr | hr
      · exact absurd hcould (not_or.mpr (hbefore r hr))
      · exact .inl hr
      · exact .inr (sortRequests_older h.dates hsplit hr)
    rcases hreq with ⟨hmatch, hval⟩ | ⟨hread, e, hval⟩
    · obtain ⟨location, hhref⟩ := Option.isSome_iff_exists.mp (h.hasHref req hreqMem hmatch)
      have hfound : matchRequest type url matchers (Client.sortRequests items) =
          .val (.ok (some ⟨req.status, location⟩)) := by
        rw [hval, matchRequest.found, hhref]
      have hclear : ¬ Spoiled type url matchers items := by
        rintro ⟨r, hr, hread, hnewer⟩
        have hlt := hnewer req hreqMem hmatch
        rcases hplace r hr (.inr hread) with rfl | hold
        · omega
        · omega
      refine ⟨fun _ m hm hm' hnewest => ?_, fun hspoiled => absurd hspoiled hclear, ?_, ?_⟩
      · have hle := hnewest req hreqMem hmatch
        rcases hplace m hm (.inl hm') with rfl | hold
        · exact ⟨location, hhref, hfound⟩
        · omega
      · intro hnil
        rw [hfound] at hnil
        cases hnil
      · rintro ⟨_, hno⟩
        exact absurd hmatch (hno req hreqMem)
    · have hspoiled : Spoiled type url matchers items := by
        refine ⟨req, hreqMem, hread, fun m hm hm' => ?_⟩
        rcases hplace m hm (.inl hm') with rfl | hold
        · exact absurd hread (not_unreadable_of_match hm')
        · exact hold
      refine ⟨fun hclear => absurd hspoiled hclear, fun _ => ⟨e, hval⟩, ?_, ?_⟩
      · intro hnil
        rw [hval] at hnil
        cases hnil
      · rintro ⟨hclear, _⟩
        exact absurd hspoiled hclear

theorem eval_conclude {σ α : Type} {ans : ∀ c, Call.Ans c} {s : σ} (r : Res α) :
    eval ans (conclude r) s = (r, s) := by
  cases r with
  | val a => rfl
  | panic text => rfl

/-- `getMatchingRequest` for fixed answers. -/
theorem eval_getMatchingRequest {σ : Type} {ans : ∀ c, Call.Ans c} {s : σ} {method : Method}
    (hurl : (Text.cut url "?").1 ≠ "") :
    eval ans (getMatchingRequest type method url matchers) s =
      (matchAnswer type url matchers (ans (.requestsGet method (Text.cut url "?").1)), s) := by
  have hget : ∀ a, ans (.requestsGet method (Text.cut url "?").1) = a →
      eval ans (Client.getRequests method (Text.cut url "?").1) s =
        (.val (match a with
          | .error e => .error (Client.apiCallErr e)
          | .ok items => .ok (Client.sortRequests (deref items []))), s) := by
    intro a ha
    unfold Client.getRequests
    rw [Client.withParams_given (by simpa using hurl), eval_bind_val (eval_perform _), ha]
    match a with
    | .error e => rfl
    | .ok none => rfl
    | .ok (some items) => rfl
  unfold getMatchingRequest
  rw [eval_bind_val (hget _ rfl)]
  match ans (.requestsGet method (Text.cut url "?").1) with
  | .error e => rfl
  | .ok items => exact eval_conclude _

/-- Without a path the requests are not asked for. -/
theorem eval_getMatchingRequest_empty {σ : Type} {ans : ∀ c, Call.Ans c} {s : σ} {method : Method}
    (hurl : (Text.cut url "?").1 = "") :
    ∃ e, eval ans (getMatchingRequest type method url matchers) s = (.val (.error e), s) := by
  unfold getMatchingRequest
  rw [hurl]
  exact ⟨_, rfl⟩

end

/-! ## Resources -/

/-- The resources that requests are looked up for. -/
inductive ResourcePath where
  | lan (datacenterID lanID : String)
  | server (datacenterID serverID : String)
  | nic (datacenterID serverID nicID : String)
  | ipBlock (ipBlockID : String)
  deriving DecidableEq

namespace ResourcePath

/-- The elements of the resource's path. -/
def elems : ResourcePath → List String
  | lan datacenterID lanID => ["datacenters", datacenterID, "lans", lanID]
  | server datacenterID serverID => ["datacenters", datacenterID, "servers", serverID]
  | nic datacenterID serverID nicID =>
    ["datacenters", datacenterID, "servers", serverID, "nics", nicID]
  | ipBlock ipBlockID => [ipBlocksPath, ipBlockID]

/-- The IDs in it. -/
def ids : ResourcePath → List String
  | lan datacenterID lanID => [datacenterID, lanID]
  | server datacenterID serverID => [datacenterID, serverID]
  | nic datacenterID serverID nicID => [datacenterID, serverID, nicID]
  | ipBlock ipBlockID => [ipBlockID]

/-- The URL that is looked for: `lanURL`, `nicURL` and the like. -/
def url (r : ResourcePath) : String := Text.pathJoin r.elems

theorem lanURL_eq (datacenterID lanID : String) :
    lanURL datacenterID lanID = (lan datacenterID lanID).url := rfl

theorem nicURL_eq (ms : MachineScope) (serverID nicID : String) :
    nicURL ms serverID nicID = (nic ms.datacenterID serverID nicID).url := rfl

/-- The URL of a request for the resource: a base before it, and a slash or a query after it. -/
def requestURL (base tail : String) (r : ResourcePath) : String :=
  base ++ "/" ++ "/".intercalate r.elems ++ tail

end ResourcePath

/-- An ID is one clean element of a path, without a question mark. -/
def IsID (id : String) : Prop := Text.isClean id ∧ '?' ∉ id.toList

/-- Nothing, a slash, a query, or both. -/
inductive IsTail : String → Prop where
  | nil : IsTail ""
  | slash : IsTail "/"
  | query (q : String) : IsTail ("?" ++ q)
  | slashQuery (q : String) : IsTail ("/?" ++ q)

section

variable {r r' : ResourcePath} {base tail s : String}

/-- The tail of a URL is not compared. -/
theorem trimmedURL_append (hquery : '?' ∉ s.toList) (hslash : ¬ ['/'] <:+ s.toList)
    (htail : IsTail tail) : trimmedURL (s ++ tail) = s := by
  have hquery' : '?' ∉ (s ++ "/").toList := by simpa using hquery
  unfold trimmedURL
  cases htail with
  | nil =>
    rw [String.append_empty, Text.cut_of_notMem (c := '?') hquery]
    exact Text.trimSuffix_of_not hslash
  | slash =>
    rw [Text.cut_of_notMem (c := '?') hquery']
    exact Text.trimSuffix_append s "/"
  | query q =>
    rw [← String.append_assoc, Text.cut_append (c := '?') q hquery]
    exact Text.trimSuffix_of_not hslash
  | slashQuery q =>
    have hassoc : s ++ ("/" ++ "?" ++ q) = s ++ "/" ++ "?" ++ q := by
      simp only [String.append_assoc]
    rw [show "/?" = "/" ++ "?" from rfl]
    rw [hassoc, Text.cut_append (c := '?') q hquery']
    exact Text.trimSuffix_append s "/"

namespace ResourcePath

/-- The elements that are no IDs. -/
def names : List String := ["datacenters", "lans", "servers", "nics", ipBlocksPath]

theorem elems_clean (h : ∀ id ∈ r.ids, IsID id) :
    ∀ e ∈ r.elems, Text.isClean e ∧ '?' ∉ e.toList := by
  have hnames : ∀ e ∈ names, Text.isClean e ∧ '?' ∉ e.toList := by
    unfold Text.isClean
    decide
  have hsplit : ∀ e ∈ r.elems, e ∈ names ∨ e ∈ r.ids := by
    cases r <;> simp [elems, ids, names]
  intro e he
  rcases hsplit e he with hname | hid
  · exact hnames e hname
  · exact h e hid

theorem url_eq (h : ∀ id ∈ r.ids, IsID id) : r.url = "/".intercalate r.elems := by
  refine Text.pathJoin_of_clean ?_ fun e he => (elems_clean h e he).1
  cases r <;> simp [elems]

/-- A path, segment by segment. -/
theorem toList_path (name : String) (rest : List String) :
    ("/".intercalate (name :: rest)).toList =
      Data.joined '/' name.toList (rest.map String.toList) := by
  rw [String.toList_intercalate]
  exact Data.intercalate_eq_joined '/' _ _

theorem toList_basedPath (base name : String) (rest : List String) :
    (base ++ "/" ++ "/".intercalate (name :: rest)).toList =
      Data.joined '/' base.toList ((name :: rest).map String.toList) := by
  rw [String.toList_append, String.toList_append, toList_path, List.append_assoc]
  exact Data.append_joined '/' _ _ _

theorem elems_eq (r : ResourcePath) : ∃ name rest, r.elems = name :: rest ∧ rest ≠ [] := by
  cases r <;> exact ⟨_, _, rfl, by simp⟩

/-- One resource's path is at the end of a URL of another only if they are the same. -/
theorem suffix_iff (h : ∀ id ∈ r.ids, IsID id) (h' : ∀ id ∈ r'.ids, IsID id) :
    ("/".intercalate r.elems).toList <:+ (base ++ "/" ++ "/".intercalate r'.elems).toList ↔
      r' = r := by
  have hslash : ∀ e ∈ r.elems, '/' ∉ e.toList := fun e he => (elems_clean h e he).1.2.1
  have hslash' : ∀ e ∈ r'.elems, '/' ∉ e.toList := fun e he => (elems_clean h' e he).1.2.1
  clear h h'
  have hlans : ¬ ipBlocksPath.toList <:+ "lans".toList := by decide
  have hservers : ¬ ipBlocksPath.toList <:+ "servers".toList := by decide
  have hnics : ¬ ipBlocksPath.toList <:+ "nics".toList := by decide
  -- the segments are compared from the end; the names of two kinds differ
  cases r <;> cases r' <;>
    simp only [elems, List.forall_mem_cons] at hslash hslash' <;>
    simp only [elems, toList_path, toList_basedPath, List.map_cons, List.map_nil, Data.joined,
      List.foldl_cons, List.foldl_nil, Data.suffix_append_cons_iff,
      Data.suffix_append_cons_of_notMem, hslash, hslash', not_false_eq_true, String.toList_inj,
      List.suffix_rfl, hlans, hservers, hnics, and_true, true_and, and_false, lan.injEq,
      server.injEq, nic.injEq, ipBlock.injEq, reduceCtorEq, iff_false]
  all_goals grind [ipBlocksPath]

/-- Neither a query nor a slash is at the end of a path, whatever it begins with. -/
theorem joined_plain {first : List Char} {elems : List String} (hfirst : '?' ∉ first)
    (hne : elems ≠ []) (h : ∀ e ∈ elems, Text.isClean e ∧ '?' ∉ e.toList) :
    '?' ∉ Data.joined '/' first (elems.map String.toList) ∧
      ¬ ['/'] <:+ Data.joined '/' first (elems.map String.toList) := by
  refine ⟨Data.notMem_joined (by decide) hfirst ?_, Data.not_suffix_joined (by simpa using hne) ?_⟩
  · intro x hx
    obtain ⟨e, he, rfl⟩ := List.mem_map.mp hx
    exact (h e he).2
  · intro x hx
    obtain ⟨e, he, rfl⟩ := List.mem_map.mp hx
    obtain ⟨⟨hempty, hslash, -⟩, -⟩ := h e he
    exact ⟨hslash, fun heq => hempty (String.toList_inj.mp heq)⟩

theorem trimmedURL_url (h : ∀ id ∈ r.ids, IsID id) :
    trimmedURL r.url = "/".intercalate r.elems := by
  have hclean := elems_clean h
  obtain ⟨name, rest, helems, hne⟩ := r.elems_eq
  rw [url_eq h]
  rw [helems] at hclean ⊢
  obtain ⟨hname, hrest⟩ := List.forall_mem_cons.mp hclean
  have hplain := joined_plain hname.2 hne hrest
  rw [← toList_path] at hplain
  have htrimmed := trimmedURL_append hplain.1 hplain.2 .nil
  rwa [String.append_empty] at htrimmed

theorem trimmedURL_requestURL (h : ∀ id ∈ r.ids, IsID id) (hbase : '?' ∉ base.toList)
    (htail : IsTail tail) :
    trimmedURL (r.requestURL base tail) = base ++ "/" ++ "/".intercalate r.elems := by
  have hclean := elems_clean h
  obtain ⟨name, rest, helems, -⟩ := r.elems_eq
  unfold requestURL
  rw [helems] at hclean ⊢
  have hplain := joined_plain hbase (List.cons_ne_nil _ _) hclean
  rw [← toList_basedPath] at hplain
  exact trimmedURL_append hplain.1 hplain.2 htail

/-- The requests whose URL ends with the URL of a resource are those for the resource. -/
theorem hasSuffix_iff (h : ∀ id ∈ r.ids, IsID id) (h' : ∀ id ∈ r'.ids, IsID id)
    (hbase : '?' ∉ base.toList) (htail : IsTail tail) :
    Text.hasSuffix (trimmedURL (r'.requestURL base tail)) (trimmedURL r.url) = true ↔ r' = r := by
  rw [Text.hasSuffix_iff, trimmedURL_requestURL h' hbase htail, trimmedURL_url h]
  exact suffix_iff h h'

end ResourcePath

end

/-! ## The lookup -/

/-- The result of a lookup, given the answer to its call: an error without a path and if the call
fails, else the answer for the newest match. -/
def AnswersLookup (type : ResourceType) (method : Method) (url : String) (matchers : List Matcher)
    (ans : ∀ c, Call.Ans c) (r : Res (Except Err (Option RequestInfo))) : Prop :=
  if (Text.cut url "?").1 = "" then ∃ e, r = .val (.error e)
  else
    match ans (.requestsGet method (Text.cut url "?").1) with
    | .error _ => ∃ e, r = .val (.error e)
    | .ok items => Proper type url matchers (deref items []) →
      AnswersNewest type url matchers (deref items []) r

/-- The requests for resources that match the URL of this one are those for it. -/
def NamesOnly (r : ResourcePath) : Prop :=
  ∀ (r' : ResourcePath) (base tail : String) (type : ResourceType) (req : Request),
    (∀ id ∈ r'.ids, IsID id) → '?' ∉ base.toList → IsTail tail →
    hasRequestTargetType req type = true → req.url = some (r'.requestURL base tail) →
    (IsCandidate type r.url req ↔ r' = r)

theorem answersLookup {σ : Type} (type : ResourceType) (method : Method) (url : String)
    (matchers : List Matcher) (ans : ∀ c, Call.Ans c) (s : σ) :
    (eval ans (getMatchingRequest type method url matchers) s).2 = s ∧
      AnswersLookup type method url matchers ans
        (eval ans (getMatchingRequest type method url matchers) s).1 := by
  unfold AnswersLookup
  by_cases hurl : (Text.cut url "?").1 = ""
  · have hrefused : ∃ e, eval ans (getMatchingRequest type method url matchers) s =
        (.val (.error e), s) := eval_getMatchingRequest_empty hurl
    obtain ⟨e, he⟩ := hrefused
    rw [he, if_pos hurl]
    exact ⟨rfl, e, rfl⟩
  · rw [eval_getMatchingRequest hurl, if_neg hurl]
    refine ⟨rfl, ?_⟩
    match ans (.requestsGet method (Text.cut url "?").1) with
    | .error e => exact ⟨_, rfl⟩
    | .ok items => exact answersNewest

theorem namesOnly {r : ResourcePath} (h : ∀ id ∈ r.ids, IsID id) : NamesOnly r := by
  intro r' base tail type req h' hbase htail htype hurl
  rw [← ResourcePath.hasSuffix_iff h h' hbase htail]
  constructor
  · intro ⟨_, url, hreq, hsuffix⟩
    obtain rfl := Option.some.inj (hurl.symm.trans hreq)
    exact hsuffix
  · intro hsuffix
    exact ⟨htype, _, hurl, hsuffix⟩

/-- A lookup answers for the newest match and leaves the variables alone, and the URL of a
resource stands for this resource only. -/
theorem request_lookup {σ : Type} (type : ResourceType) (method : Method) (url : String)
    (matchers : List Matcher) (ans : ∀ c, Call.Ans c) (s : σ) :
    (eval ans (getMatchingRequest type method url matchers) s).2 = s ∧
      AnswersLookup type method url matchers ans
        (eval ans (getMatchingRequest type method url matchers) s).1 ∧
      ∀ r : ResourcePath, (∀ id ∈ r.ids, IsID id) → NamesOnly r := by
  obtain ⟨hvars, hanswers⟩ := answersLookup type method url matchers ans s
  exact ⟨hvars, hanswers, fun _ => namesOnly⟩

/-- These requests are returned for every path. -/
def requestListing (items : List Request) : ∀ c, Call.Ans c
  | .requestsGet _ _ => .ok (some items)
  | c => Call.plain c

/-- A request for the deletion of LAN 1, from this time and with this status. -/
def lanRequest (createdDate : Int) (status : RequestStatus) : Request :=
  ⟨createdDate, [some .lan], some "https://api/datacenters/dc/lans/1?depth=1", .ok none, status,
    some "request"⟩

/-- Of two requests for a LAN the lookup answers for the newer, and no request for the LAN of
another ID is taken for one. -/
theorem request_lookup_newest :
    (eval (requestListing [lanRequest 1 .queued, lanRequest 2 .done])
        (getMatchingRequest .lan .delete (lanURL "dc" "1") []) ()).1 =
      .val (.ok (some ⟨.done, "request"⟩)) ∧
    ¬ IsCandidate .lan (lanURL "dc" "1")
      ⟨3, [some .lan], some "https://api/datacenters/dc/lans/11", .ok none, .done, none⟩ := by
  have hids : ∀ id ∈ (ResourcePath.lan "dc" "1").ids, IsID id := by
    unfold IsID Text.isClean
    decide
  have hids' : ∀ id ∈ (ResourcePath.lan "dc" "11").ids, IsID id := by
    unfold IsID Text.isClean
    decide
  have hmatch : ∀ (t : Int) (status : RequestStatus),
      IsMatch .lan (lanURL "dc" "1") [] (lanRequest t status) := fun t status =>
    ⟨⟨rfl, _, rfl, by decide⟩, fun h => absurd rfl h⟩
  obtain ⟨-, hanswers, hnames⟩ := request_lookup .lan .delete (lanURL "dc" "1") []
    (requestListing [lanRequest 1 .queued, lanRequest 2 .done]) ()
  constructor
  · have hproper : Proper .lan (lanURL "dc" "1") [] [lanRequest 1 .queued, lanRequest 2 .done] :=
      { dates := by decide
        hasURL := fun req hreq _ => by
          rcases List.mem_pair.mp hreq with rfl | rfl <;> rfl
        hasHref := fun req hreq _ => by
          rcases List.mem_pair.mp hreq with rfl | rfl <;> rfl }
    obtain ⟨location, hlocation, hresult⟩ := (hanswers hproper).newest
      (fun ⟨_, _, hread, _⟩ => hread.1 rfl) (lanRequest 2 .done) (List.mem_pair.mpr (.inr rfl))
      (hmatch 2 .done) fun req hreq _ => by
        rcases List.mem_pair.mp hreq with rfl | rfl <;> decide
    obtain rfl := Option.some.inj hlocation
    exact hresult
  · intro hcandidate
    have heq := (hnames (.lan "dc" "1") hids (.lan "dc" "11") "https://api" "" .lan _ hids'
      (by decide) .nil rfl rfl).mp hcandidate
    exact absurd heq (by decide)

/-- The requests are not asked for without a path, although every URL ends with the empty one. And
a request is found for a path with a trailing slash, although its URL does not end with that. -/
theorem request_lookup_refused :
    (∃ e, (eval (requestListing [lanRequest 1 .queued])
        (getMatchingRequest .lan .delete "" []) ()).1 = .val (.error e)) ∧
      Text.hasSuffix (trimmedURL "https://api/datacenters/dc/lans/1?depth=1") "" = true ∧
    (eval (requestListing [lanRequest 1 .queued])
        (getMatchingRequest .lan .delete "lans/1/" []) ()).1 =
        .val (.ok (some ⟨.queued, "request"⟩)) ∧
      Text.hasSuffix (trimmedURL "https://api/datacenters/dc/lans/1?depth=1") "lans/1/" = false :=
  ⟨⟨_, rfl⟩, by decide, rfl, by decide⟩

end Capic.Properties
