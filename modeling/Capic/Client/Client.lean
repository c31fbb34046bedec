import Capic.Api.Call
import Capic.Data.Newest
import Capic.Effect.Monitor

/-!
# The Cloud API client

`internal/ionoscloud/client/client.go`: every method checks that the identifiers it
puts into the URL are not empty, makes one call, and wraps the error. Methods that
start a request return the URL to poll it at, and fail without one — after the
request has been accepted.

`withParams` is the check, `located` the treatment of the answer; each method is
these two around its own call. `wp_withParams` is the rule for all of them.
-/

namespace Capic.Client

open Effect Effect.Go

/-! ## Errors -/

def errDatacenterIDIsEmpty : Err := .new "error parsing data center ID: value cannot be empty"

def errServerIDIsEmpty : Err := .new "error parsing server ID: value cannot be empty"

def errVolumeIDIsEmpty : Err := .new "error parsing volume ID: value cannot be empty"

def errLANIDIsEmpty : Err := .new "error parsing LAN ID: value cannot be empty"

def errNICIDIsEmpty : Err := .new "error parsing NIC ID: value cannot be empty"

def errIPBlockIDIsEmpty : Err := .new "error parsing IP block ID: value cannot be empty"

def errRequestURLIsEmpty : Err := .new "a request URL is necessary for the operation"

def errLocationHeaderEmpty : Err := .new "request to Cloud API did not return the request URL"

/-- `fmt.Errorf(apiCallErrWrapper, err)`. -/
def apiCallErr (e : Err) : Err := .wrap "request to Cloud API has failed: " e

/-! ## The common parts -/

variable {σ α : Type}

/-- The parameters that must not be empty, in the order they are checked. -/
def withParams (required : List (String × Err)) (body : Go Call Call.Ans σ (Except Err α)) :
    Go Call Call.Ans σ (Except Err α) :=
  match required.find? (·.1 = "") with
  | some (_, err) => pure (.error err)
  | none => body

/-- The answer to a read. -/
def answered : Except Err α → Except Err α
  | .error e => .error (apiCallErr e)
  | .ok a => .ok a

/-- The `Location` header of an accepted request. -/
def located : Except Err String → Except Err String
  | .error e => .error (apiCallErr e)
  | .ok location => if location = "" then .error errLocationHeaderEmpty else .ok location

/-! ## Servers and volumes -/

/-- `CreateServer`. The server is returned even where the location is missing. -/
def createServer (datacenterID : String) (server : ServerPost) :
    Go Call Call.Ans σ (Except Err (Server × String)) :=
  withParams [(datacenterID, errDatacenterIDIsEmpty)] do
    match ← perform (Call.serversPost datacenterID server) with
    | .error e => return .error (apiCallErr e)
    | .ok (s, location) =>
      if location = "" then return .error errLocationHeaderEmpty else return .ok (s, location)

/-- `ListServers`. -/
def listServers (datacenterID : String) : Go Call Call.Ans σ (Except Err (Option (List Server))) :=
  withParams [(datacenterID, errDatacenterIDIsEmpty)] do
    return answered (← perform (.serversGet datacenterID))

/-- `GetServer`. -/
def getServer (datacenterID serverID : String) : Go Call Call.Ans σ (Except Err Server) :=
  withParams [(datacenterID, errDatacenterIDIsEmpty), (serverID, errServerIDIsEmpty)] do
    return answered (← perform (.serversFindById datacenterID serverID))

/-- `DeleteServer`. -/
def deleteServer (datacenterID serverID : String) (deleteVolumes : Bool) :
    Go Call Call.Ans σ (Except Err String) :=
  withParams [(datacenterID, errDatacenterIDIsEmpty), (serverID, errServerIDIsEmpty)] do
    return located (← perform (.serversDelete datacenterID serverID deleteVolumes))

/-- `StartServer`. -/
def startServer (datacenterID serverID : String) : Go Call Call.Ans σ (Except Err String) :=
  withParams [(datacenterID, errDatacenterIDIsEmpty), (serverID, errServerIDIsEmpty)] do
    return located (← perform (.serversStartPost datacenterID serverID))

/-- `DeleteVolume`. -/
def deleteVolume (datacenterID volumeID : String) : Go Call Call.Ans σ (Except Err String) :=
  withParams [(datacenterID, errDatacenterIDIsEmpty), (volumeID, errVolumeIDIsEmpty)] do
    return located (← perform (.volumesDelete datacenterID volumeID))

/-! ## LANs and NICs -/

/-- `CreateLAN`. -/
def createLAN (datacenterID : String) (lan : LanPost) : Go Call Call.Ans σ (Except Err String) :=
  withParams [(datacenterID, errDatacenterIDIsEmpty)] do
    return located (← perform (.lansPost datacenterID lan))

/-- `PatchLAN`. -/
def patchLAN (datacenterID lanID : String) (ipFailover : List IPFailover) :
    Go Call Call.Ans σ (Except Err String) :=
  withParams [(datacenterID, errDatacenterIDIsEmpty), (lanID, errLANIDIsEmpty)] do
    return located (← perform (.lansPatch datacenterID lanID ipFailover))

/-- `ListLANs`. -/
def listLANs (datacenterID : String) : Go Call Call.Ans σ (Except Err (Option (List Lan))) :=
  withParams [(datacenterID, errDatacenterIDIsEmpty)] do
    return answered (← perform (.lansGet datacenterID))

/-- `DeleteLAN`. -/
def deleteLAN (datacenterID lanID : String) : Go Call Call.Ans σ (Except Err String) :=
  withParams [(datacenterID, errDatacenterIDIsEmpty), (lanID, errLANIDIsEmpty)] do
    return located (← perform (.lansDelete datacenterID lanID))

/-- `PatchNIC`. -/
def patchNIC (datacenterID serverID nicID : String) (ips : List String) :
    Go Call Call.Ans σ (Except Err String) :=
  withParams [(datacenterID, errDatacenterIDIsEmpty), (serverID, errServerIDIsEmpty),
      (nicID, errNICIDIsEmpty)] do
    return located (← perform (.nicsPatch datacenterID serverID nicID ips))

/-! ## IP blocks -/

/-- `ReserveIPBlock`. -/
def reserveIPBlock (name location : String) (size : Int) : Go Call Call.Ans σ (Except Err String) :=
  if location = "" then return .error (.new "location must be set")
  else if size ≤ 0 then return .error (.new "size must be greater than 0")
  else if name = "" then return .error (.new "name must be set")
  else do return located (← perform (.ipblocksPost name location size))

/-- `GetIPBlock`. -/
def getIPBlock (ipBlockID : String) : Go Call Call.Ans σ (Except Err IpBlock) :=
  withParams [(ipBlockID, errIPBlockIDIsEmpty)] do
    return answered (← perform (.ipblocksFindById ipBlockID))

/-- `DeleteIPBlock`. -/
def deleteIPBlock (ipBlockID : String) : Go Call Call.Ans σ (Except Err String) :=
  withParams [(ipBlockID, errIPBlockIDIsEmpty)] do
    return located (← perform (.ipblocksDelete ipBlockID))

/-- `ListIPBlocks`. -/
def listIPBlocks : Go Call Call.Ans σ (Except Err (Option (List IpBlock))) := do
  return answered (← perform .ipblocksGet)

/-! ## Requests -/

/-- `CheckRequestStatus`. -/
def checkRequestStatus (requestURL : String) :
    Go Call Call.Ans σ (Except Err RequestStatusInfo) :=
  withParams [(requestURL, errRequestURLIsEmpty)] do
    return answered (← perform (.getRequestStatus requestURL))

/-- Newest first. -/
def sortRequests (items : List Request) : List Request :=
  items.insertionSort fun a b => b.createdDate ≤ a.createdDate

/-- `GetRequests`: the requests of the last 24 hours with this method whose URL
contains the path, newest first. The lookback is the answer's to honour. -/
def getRequests (method : Method) (path : String) :
    Go Call Call.Ans σ (Except Err (List Request)) :=
  withParams [(path, .new "path needs to be provided")] do
    match ← perform (Call.requestsGet method path) with
    | .error e => return .error (apiCallErr e)
    | .ok none => return .ok []
    | .ok (some items) => return .ok (sortRequests items)

/-- `WaitForRequest`. -/
def waitForRequest (requestURL : String) : Go Call Call.Ans σ (Except Err Unit) :=
  withParams [(requestURL, errRequestURLIsEmpty)] do
    return answered (← perform (.waitForRequest requestURL))

/-! ## Everything else -/

/-- `GetDatacenterLocationByID`. -/
def getDatacenterLocationByID (datacenterID : String) : Go Call Call.Ans σ (Except Err String) :=
  withParams [(datacenterID, errDatacenterIDIsEmpty)] do
    match ← perform (Call.datacentersFindById datacenterID) with
    | .error e => return .error (apiCallErr e)
    | .ok none => panicking "nil pointer dereference"
    | .ok (some location) => return .ok location

/-- `GetImage`. -/
def getImage (imageID : String) : Go Call Call.Ans σ (Except Err Image) := do
  return answered (← perform (.imagesFindById imageID))

/-- `ListLabels`. -/
def listLabels : Go Call Call.Ans σ (Except Err (List Label)) := do
  match ← perform Call.labelsGet with
  | .error e => return .error (apiCallErr e)
  | .ok none => panicking "nil pointer dereference"
  | .ok (some labels) => return .ok labels

/-! ## Rules -/

variable {M : Monitor Call Call.Ans} {q : M.Phase} {s : σ}

/-- A method either fails its parameter check, without a call, or does its work, with all of
them given. -/
theorem wp_withParams_given {required : List (String × Err)}
    {body : Go Call Call.Ans σ (Except Err α)} {Q : M.Phase → Except Err α → σ → Prop}
    (hfail : ∀ p ∈ required, p.1 = "" → Q q (.error p.2) s)
    (hbody : (∀ p ∈ required, p.1 ≠ "") → body.wp M Q q s) :
    (withParams required body).wp M Q q s := by
  unfold withParams
  split
  next hp =>
    have hempty := List.find?_some hp
    exact (wp_pure _).mpr (hfail _ (List.mem_of_find?_eq_some hp) (by simpa using hempty))
  next hnone =>
    refine hbody fun p hp => ?_
    simpa using List.find?_eq_none.mp hnone p hp

theorem wp_withParams {required : List (String × Err)} {body : Go Call Call.Ans σ (Except Err α)}
    {Q : M.Phase → Except Err α → σ → Prop}
    (hfail : ∀ p ∈ required, p.1 = "" → Q q (.error p.2) s)
    (hbody : body.wp M Q q s) : (withParams required body).wp M Q q s :=
  wp_withParams_given hfail fun _ => hbody

/-- With all parameters given, there is the call. -/
theorem withParams_given {required : List (String × Err)}
    {body : Go Call Call.Ans σ (Except Err α)} (hgiven : ∀ p ∈ required, p.1 ≠ "") :
    withParams required body = body := by
  have hnone : required.find? (·.1 = "") = none := by
    rw [List.find?_eq_none]
    intro p hp
    simpa using hgiven p hp
  unfold withParams
  rw [hnone]

/-- `WaitForRequest` makes one call, with a URL, and fails without one. -/
theorem wp_waitForRequest {requestURL : String} {Q : M.Phase → Except Err Unit → σ → Prop}
    (hfail : requestURL = "" → ∀ e, Q q (.error e) s)
    (hcall : requestURL ≠ "" → M.ok q (.waitForRequest requestURL) ∧
      ∀ a, M.adm q (.waitForRequest requestURL) a →
        Q (M.next q (.waitForRequest requestURL) a) (answered a) s) :
    (waitForRequest requestURL).wp M Q q s := by
  unfold waitForRequest
  refine wp_withParams_given (fun p hp hempty => ?_) fun hgiven => ?_
  · obtain rfl := List.mem_singleton.mp hp
    exact hfail hempty _
  · obtain ⟨hok, hcall⟩ := hcall (hgiven _ (List.mem_singleton.mpr rfl))
    rw [wp_bind, wp_perform]
    exact ⟨hok, fun a ha => (wp_pure _).mpr (hcall a ha)⟩

theorem Within.withParams {κ : Type} {E : Call → Prop} {keep : σ → κ}
    {required : List (String × Err)} {body : Go Call Call.Ans σ (Except Err α)}
    (hbody : Within E keep body) : Within E keep (Client.withParams required body) := by
  unfold Client.withParams
  split
  · exact .pure _
  · exact hbody

/-- An accepted request with a location is the only way to get one. -/
theorem located_ok {r : Except Err String} {location : String} (h : located r = .ok location) :
    r = .ok location ∧ location ≠ "" := by
  cases r with
  | error e => exact nomatch h
  | ok l =>
    by_cases hl : l = ""
    · rw [located, if_pos hl] at h
      exact nomatch h
    · rw [located, if_neg hl] at h
      obtain rfl := Except.ok.inj h
      exact ⟨rfl, hl⟩

/-- What comes later in the sorted list is not newer. -/
theorem sortRequests_le {items before after : List Request} {req r : Request}
    (h : sortRequests items = before ++ req :: after) (hr : r ∈ req :: after) :
    r.createdDate ≤ req.createdDate := by
  have hsorted := Data.newestFirst_pairwise Request.createdDate items
  rw [show items.insertionSort _ = before ++ req :: after from h, List.pairwise_append,
    List.pairwise_cons] at hsorted
  rcases List.mem_cons.mp hr with rfl | hr
  · exact Int.le_refl _
  · exact hsorted.2.1.1 r hr

theorem sortRequests_perm (items : List Request) : (sortRequests items).Perm items :=
  List.perm_insertionSort _ items

end Capic.Client
