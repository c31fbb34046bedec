import Capic.Api.Call
import Capic.Api.Text
import Capic.Api.Types
import Capic.Client.Client
import Capic.Cloud.IPBlock
import Capic.Cloud.Image
import Capic.Cloud.Server
import Capic.Cloud.Nic
import Capic.Cloud.Failover
import Capic.Cloud.Lan
import Capic.Cloud.Request
import Capic.K8s.Ipam
import Capic.Controller.Util
import Capic.Controller.Machine
import Capic.Controller.Cluster
import Capic.Controller.Frame
import Capic.Effect.Prog
import Capic.Effect.Monitor
import Capic.Effect.Threads
import Capic.Locker.Locker
import Capic.Scope.Scope
import Capic.Properties.Claims
import Capic.Properties.Creation
import Capic.Properties.CreateOnce
import Capic.Properties.GroupUpdates
import Capic.Properties.DistinctIPs
import Capic.Properties.Finalizers
import Capic.Properties.LANCleanup
import Capic.Properties.LANDeletion
import Capic.Properties.Names
import Capic.Properties.Provisioned
import Capic.Properties.ServerDeletion
import Capic.Properties.Volumes
import Capic.Effect.Mutex
import Capic.Effect.Once
import Capic.Effect.Rewrite
import Capic.Locker.LockerInv
import Capic.Locker.LockerSections
import Capic.Locker.LockerSafe
import Capic.Properties.Deadlock
import Capic.Properties.Lookups
import Capic.Properties.Endpoint
import Capic.Properties.RequestStates
import Capic.Effect.Live
import Capic.Properties.NICConfig
import Capic.Properties.GroupEdits
import Capic.Effect.Panics
import Capic.Properties.PlannedNICs
import Capic.Properties.Images
import Capic.Properties.Reported
import Capic.Properties.NetworkInfo
import Capic.Locker.LockerMisuse
import Capic.Properties.EndpointIP
import Capic.Properties.RequestLookup
import Capic.Data.MergePatch
import Capic.Properties.StatusPatches
import Capic.Data.Versions
import Capic.Properties.Credentials
import Capic.Properties.LANInUse
import Capic.Properties.BlockRelease
import Capic.Properties.InFlight
import Capic.Effect.Rounds
import Capic.Properties.Convergence.Site
import Capic.Properties.Convergence.World
import Capic.Properties.Convergence.Run
import Capic.Properties.Convergence
import Capic.Properties.InFlight.Stored
