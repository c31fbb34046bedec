import Capic.Api.Types
import Capic.Effect.Prog

/-!
# What the provider calls

Everything the modelled functions do to the outside: the Cloud API's endpoints by
the names the SDK has for them, the requests to the Kubernetes API server, name
resolution, and the keyed locks. The answer to a call is what the SDK or the client
returns, errors included; nothing here says which answers are possible, or what a
call does. That is for the worlds the properties are about.

Mirroring notes. The depth of a request (`WithDepth`) is left out: it decides how
much of a resource an answer holds, and every field of an answer may be missing
here anyway. The order in which Go ranges over a map is a call (`mapOrder`), as it
is not for the program to choose.
-/

namespace Capic

open Effect

/-- A call to the outside. -/
inductive Call where
  -- Cloud API
  | lansGet (datacenterID : String)
  | lansPost (datacenterID : String) (lan : LanPost)
  | lansPatch (datacenterID lanID : String) (ipFailover : List IPFailover)
  | lansDelete (datacenterID lanID : String)
  | serversGet (datacenterID : String)
  | serversFindById (datacenterID serverID : String)
  | serversPost (datacenterID : String) (server : ServerPost)
  | serversDelete (datacenterID serverID : String) (deleteVolumes : Bool)
  | serversStartPost (datacenterID serverID : String)
  | volumesDelete (datacenterID volumeID : String)
  | nicsPatch (datacenterID serverID nicID : String) (ips : List String)
  | ipblocksGet
  | ipblocksFindById (ipBlockID : String)
  | ipblocksPost (name location : String) (size : Int)
  | ipblocksDelete (ipBlockID : String)
  | requestsGet (method : Method) (url : String)
  | getRequestStatus (requestURL : String)
  | waitForRequest (requestURL : String)
  | datacentersFindById (datacenterID : String)
  | imagesFindById (imageID : String)
  | labelsGet
  -- Kubernetes
  | getSecret (ns name : String)
  | listMachines (ns : String) (labels : List (String × String))
  | patchMachine (obj : MachineVars)
  | patchCluster (obj : ClusterVars)
  | getIPAddressClaim (ns name : String)
  | createOrUpdateIPAddressClaim (claim : DesiredClaim)
  | updateIPAddressClaim (claim : IPAddressClaim)
  | getIPAddress (ns name : String)
  | getCredentials (ns name : String)
  | updateCredentials (secret : CredentialsSecret)
  -- the process itself
  | lookupNetIP (host : String)
  | mapOrder (keys : List String)
  | lock (key : String)
  | lockBackground (key : String)
  | unlock (key : String)

/-- What a call is answered with. A `String` is the `Location` header, `""` if the
response has none. -/
@[reducible] def Call.Ans : Call → Type
  | lansGet _ => Except Err (Option (List Lan))
  | serversGet _ => Except Err (Option (List Server))
  | serversFindById _ _ => Except Err Server
  | serversPost _ _ => Except Err (Server × String)
  | ipblocksGet => Except Err (Option (List IpBlock))
  | ipblocksFindById _ => Except Err IpBlock
  | requestsGet _ _ => Except Err (Option (List Request))
  | getRequestStatus _ => Except Err RequestStatusInfo
  | datacentersFindById _ => Except Err (Option String)
  | imagesFindById _ => Except Err Image
  | labelsGet => Except Err (Option (List Label))
  | lansPost _ _ | lansPatch _ _ _ | lansDelete _ _ | serversDelete _ _ _ | serversStartPost _ _
  | volumesDelete _ _ | nicsPatch _ _ _ _ | ipblocksPost _ _ _ | ipblocksDelete _ =>
    Except Err String
  | waitForRequest _ | patchMachine _ | patchCluster _ | createOrUpdateIPAddressClaim _
  | updateIPAddressClaim _ | updateCredentials _ | lock _ => Except Err Unit
  | getSecret _ _ => Except Err Secret
  | listMachines _ _ => Except Err (List MachineItem)
  | getIPAddressClaim _ _ => Except Err IPAddressClaim
  | getIPAddress _ _ => Except Err String
  | getCredentials _ _ => Except Err CredentialsSecret
  | lookupNetIP _ => Except Err (List UInt32)
  | mapOrder keys => { order : List String // order.Perm keys }
  | lockBackground _ | unlock _ => Unit

/-- An answer to every call, for concrete runs: locks are free, changes are accepted, lists
are empty, and there is nothing to read. -/
def Call.plain : ∀ c : Call, Call.Ans c
  | lansGet _ => .ok (some [])
  | serversGet _ => .ok none
  | ipblocksGet => .ok none
  | requestsGet _ _ => .ok none
  | labelsGet => .ok (some [])
  | listMachines _ _ => .ok []
  | lookupNetIP _ => .ok []
  | mapOrder keys => ⟨keys, .refl _⟩
  | lansPost _ _ | lansPatch _ _ _ | lansDelete _ _ | serversDelete _ _ _ | serversStartPost _ _
  | volumesDelete _ _ | nicsPatch _ _ _ _ | ipblocksPost _ _ _ | ipblocksDelete _ => .ok "request"
  | waitForRequest _ | patchMachine _ | patchCluster _ | createOrUpdateIPAddressClaim _
  | updateIPAddressClaim _ | updateCredentials _ | lock _ => .ok ()
  | lockBackground _ | unlock _ => ()
  | serversFindById _ _ | serversPost _ _ | ipblocksFindById _ | imagesFindById _
  | getRequestStatus _ | datacentersFindById _ => .error (.openAPI 404 "404 Not Found")
  | getSecret _ _ | getIPAddressClaim _ _ | getIPAddress _ _ | getCredentials _ _ =>
    .error (.k8sNotFound "not found")

/-- A function that works on the variables of a machine's run. -/
abbrev MachineM (α : Type) := Go Call Call.Ans MachineVars α

/-- A function that works on the variables of a cluster's run. -/
abbrev ClusterM (α : Type) := Go Call Call.Ans ClusterVars α

/-- A function of the cluster scope, called from a machine's run. -/
def onCluster {α : Type} (p : ClusterM α) : MachineM α :=
  Go.zoom (·.cluster) (fun c vars => { vars with cluster := c }) p

/-- `(requeue bool, err error)`. -/
abbrev Outcome := Bool × Option Err

end Capic
