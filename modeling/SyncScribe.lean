import SyncScribe.Lib.Bytes
import SyncScribe.Lib.Framer
import SyncScribe.Lib.Slots
import SyncScribe.Lib.Run
import SyncScribe.Lib.Heap
import SyncScribe.Lib.Text
import SyncScribe.Lib.Crc
import SyncScribe.Types
import SyncScribe.NetCommon
import SyncScribe.Packets
import SyncScribe.Connection
import SyncScribe.ReceiveBuffer
import SyncScribe.Discovery
import SyncScribe.Checksum
import SyncScribe.Encryption
import SyncScribe.Server.State
import SyncScribe.Server.Events
import SyncScribe.Server.Lists
import SyncScribe.Server.Process
import SyncScribe.Server.Handler
import SyncScribe.Server.Frame
import SyncScribe.Server.Table
import SyncScribe.Server.Effects
import SyncScribe.Server.Calls
import SyncScribe.Server.Journal
import SyncScribe.Server.Subscriptions
import SyncScribe.Server.Output
import SyncScribe.Server.FanOut
import SyncScribe.Server.Rejections
import SyncScribe.Server.WritePaths
import SyncScribe.Server.SubscriberTypes
import SyncScribe.Server.Bounds
import SyncScribe.Server.EventMap
import SyncScribe.Server.Marker
import SyncScribe.Server.Clients
import SyncScribe.Server.Slots
import SyncScribe.Server.Uclients
import SyncScribe.Server.Transports
import SyncScribe.Server.Counters
import SyncScribe.Server.SubscribeCounts
import SyncScribe.Server.CatchUp
import SyncScribe.Server.CounterOrder
import SyncScribe.Server.Dangling
import SyncScribe.Server.Channels
import SyncScribe.Server.Reuse
import SyncScribe.Server.Session
import SyncScribe.Server.Reads
import SyncScribe.Server.TypedWidths
import SyncScribe.Client.State
import SyncScribe.Client.Requests
import SyncScribe.Client.Process
import SyncScribe.Client.Machine
import SyncScribe.Client.Table
import SyncScribe.Client.SyncEvents
import SyncScribe.Client.Names
import SyncScribe.Client.Channels
import SyncScribe.Client.Subscriptions
import SyncScribe.Client.Buffers
import SyncScribe.System.Segments
import SyncScribe.System.Wire
import SyncScribe.System.Resubscribe
import SyncScribe.System.ListReply
import SyncScribe.System.ListTransfer
import SyncScribe.System.Reassembly
import SyncScribe.System.Rendezvous
import SyncScribe.System.FreshReads
import SyncScribe.System.OwnBytes
import SyncScribe.System.StackFields
import SyncScribe.System.Bookkeeping
import SyncScribe.System.WriteSizes
import SyncScribe.System.Requests
import SyncScribe.System.Transports
import SyncScribe.System.SyncTime
import SyncScribe.System.ReadReplies
import SyncScribe.System.ReceiveBuffers
import SyncScribe.System.FindServer
import SyncScribe.System.SsdpBuffer
import SyncScribe.Client.Copies
import SyncScribe.Lib.Channel
import SyncScribe.System.Messages
import SyncScribe.System.World
import SyncScribe.System.Order
import SyncScribe.System.Unbroken
import SyncScribe.System.Replicas
import SyncScribe.Lib.Simulation
import SyncScribe.System.ByteWorld
import SyncScribe.System.ByteRefinement
import SyncScribe.System.Quiet
import SyncScribe.Lib.Threads
import SyncScribe.System.ReadThreads
import SyncScribe.System.WholeReads
import SyncScribe.Client.WaitNotify
import SyncScribe.System.Datagrams
import SyncScribe.System.UdpRecovery
import SyncScribe.System.ConnectThreads
import SyncScribe.System.ConnectEnds
