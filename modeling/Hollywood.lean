import Hollywood.Inbox.Wakeup
import Hollywood.Inbox.Handover
import Hollywood.Process
import Hollywood.Engine
import Hollywood.Foundation.Token
import Hollywood.Engine.Exclusion
import Hollywood.Engine.Lifecycle
import Hollywood.Foundation.Iteration
import Hollywood.Process.Thread
import Hollywood.Process.RestartLimit
import Hollywood.Process.Redelivery
import Hollywood.Process.GracefulStop
import Hollywood.Engine.Calm
import Hollywood.Engine.StopRequests
import Hollywood.Engine.Mail
import Hollywood.Engine.LastBatch
import Hollywood.Foundation.Table
import Hollywood.Remote
import Hollywood.Remote.RoundTrip
import Hollywood.Remote.Router
import Hollywood.Remote.Streams
import Hollywood.Cluster
import Hollywood.Foundation.Queues
import Hollywood.Cluster.Network
import Hollywood.Cluster.Requests
import Hollywood.Cluster.Uniqueness
import Hollywood.Cluster.Obligations
import Hollywood.Cluster.Patience
import Hollywood.Cluster.Mesh
import Hollywood.Cluster.Orphans
import Hollywood.Cluster.Agreement
import Hollywood.Cluster.Residence
import Hollywood.Cluster.Deactivation
import Hollywood.Cluster.SelfManaged
import Hollywood.Cluster.Symmetry
import Hollywood.Engine.Departure
import Hollywood.Tree
import Hollywood.Tree.Registry
import Hollywood.Tree.ChildrenFirst
import Hollywood.Tree.ChildrenMap
import Hollywood.Tree.Incarnations
import Hollywood.Engine.Quiescence
import Hollywood.Engine.Ledger
import Hollywood.Remote.Transport
import Hollywood.Remote.Failures
import Hollywood.Dispatch
import Hollywood.EventStream
import Hollywood.Remote.Listening
import Hollywood.Responses
import Hollywood.Bus
import Hollywood.Remote.Reader
import Hollywood.Cluster.Provider
import Hollywood.Cluster.Totality
import Hollywood.Cluster.Kinds
import Hollywood.Cluster.Activation
import Hollywood.Cluster.Lookup
import Hollywood.Engine.Deliveries
import Hollywood.Engine.Middleware
import Hollywood.RingBuffer.Memory
import Hollywood.PIDSet
import Hollywood.Engine.Restarts
import Hollywood.Engine.Sender
import Hollywood.Children
import Hollywood.Dispatch.Subscriptions
import Hollywood.Dispatch.Termination
import Hollywood.Responses.Blocking
import Hollywood.Foundation.Varint
import Hollywood.Foundation.Backfill
import Hollywood.VT.Codec
import Hollywood.Remote.VTProto
import Hollywood.Remote.Tables
import Hollywood.VT.Envelope
import Hollywood.VT.Registry
import Hollywood.Foundation.Inevitable
import Hollywood.Inbox.Progress
import Hollywood.Engine.Completion
import Hollywood.Tree.Progress
import Hollywood.Cluster.Progress
import Hollywood.Cluster.Discovery
import Hollywood.Remote.Delivery
import Hollywood.Remote.Progress
