import Pitaya.Foundations.BigEndian
import Pitaya.Foundations.ByteString
import Pitaya.Foundations.FiniteMap
import Pitaya.Foundations.Framing
import Pitaya.Foundations.KeyValue
import Pitaya.Foundations.Latest
import Pitaya.Foundations.Outcome
import Pitaya.Foundations.Ranges
import Pitaya.Foundations.Revisions
import Pitaya.Foundations.Strconv
import Pitaya.Foundations.Threads
import Pitaya.Foundations.Transition
import Pitaya.Foundations.Transport
import Pitaya.Foundations.Varint
import Pitaya.Config.Watch
import Pitaya.Config.Faults
import Pitaya.Config.Values
import Pitaya.Config.Shapes
import Pitaya.Conn.Packet
import Pitaya.Conn.Framers
import Pitaya.Conn.Message
import Pitaya.Conn.Layout
import Pitaya.Conn.Dictionary
import Pitaya.Conn.Handshake
import Pitaya.Route
import Pitaya.Agent
import Pitaya.Agent.Goroutines
import Pitaya.Agent.Queue
import Pitaya.Agent.Teardown
import Pitaya.Agent.Online
import Pitaya.Service.Handler
import Pitaya.Service.Fork
import Pitaya.Service.Dispatch
import Pitaya.Service.Remote
import Pitaya.Service.Requests
import Pitaya.Service.Sending
import Pitaya.Service.ErrorFlags
import Pitaya.Service.Registration
import Pitaya.Session.Session
import Pitaya.Session.Overlay
import Pitaya.Session.Record
import Pitaya.Session.FailedLoad
import Pitaya.Session.Pool
import Pitaya.Session.Heap
import Pitaya.Session.Bindings
import Pitaya.Session.Counters
import Pitaya.Session.Remote
import Pitaya.Session.Maps
import Pitaya.Session.Mirror
import Pitaya.Session.Workers
import Pitaya.Session.FailedBind
import Pitaya.Session.Rebind
import Pitaya.Remote.Backend
import Pitaya.Remote.Unbinding
import Pitaya.Remote.Rollback
import Pitaya.Remote.Logins
import Pitaya.Remote.ClusterStore
import Pitaya.Remote.StoredSession
import Pitaya.Client.Generation
import Pitaya.Client.Moves
import Pitaya.Client.Slots
import Pitaya.Client.Responses
import Pitaya.Client.Failures
import Pitaya.Client.Outbound
import Pitaya.Client.Connection
import Pitaya.Client.States
import Pitaya.Client.Closing
import Pitaya.Client.Progress
import Pitaya.Client.Proto.ProtoClient
import Pitaya.Client.Proto.Moves
import Pitaya.Client.Proto.Attempts
import Pitaya.Client.Proto.Cancellation
import Pitaya.Client.Proto.Readers
import Pitaya.Client.Proto.Waiting
import Pitaya.Client.Proto.Returns
import Pitaya.Cluster.ServiceDiscovery
import Pitaya.Cluster.Cache
import Pitaya.Cluster.Reconcile
import Pitaya.Cluster.Notifications
import Pitaya.Cluster.Retyped
import Pitaya.Cluster.Lifecycle
import Pitaya.Cluster.Shutdown
import Pitaya.Cluster.Sections
import Pitaya.Cluster.Renewals
import Pitaya.Cluster.Election
import Pitaya.Cluster.GRPCClient
import Pitaya.Cluster.NatsRPCServer
import Pitaya.Router
import Pitaya.Router.Affinity
import Pitaya.Modules.UniqueSession
import Pitaya.Modules.BindingStorage
import Pitaya.Groups.GroupService
import Pitaya.Groups.Memory
import Pitaya.Groups.Etcd
import Pitaya.Groups.Isolation
import Pitaya.Groups.Interchange
import Pitaya.Groups.Leases
import Pitaya.RateLimiter
import Pitaya.Timer.Manager
import Pitaya.Timer.Stopped
import Pitaya.Timer.Schedule
import Pitaya.Docgenerator
