import Spdylay.Library.BinaryHeap
import Spdylay.Library.HeapOrder
import Spdylay.Library.History
import Spdylay.Library.OrderedTable
import Spdylay.Library.StableSort
import Spdylay.Library.Transducer
import Spdylay.Wire.Integers
import Spdylay.Wire.Codes
import Spdylay.Wire.HeaderInflater
import Spdylay.Wire.NameValueBlock
import Spdylay.Wire.HeaderBlocks
import Spdylay.Wire.HeaderRoundTrip
import Spdylay.Wire.ControlFrames
import Spdylay.Session.ClientCertVector
import Spdylay.Session.State
import Spdylay.Session.Queueing
import Spdylay.Session.Submit
import Spdylay.Session.Outbound
import Spdylay.Session.Received
import Spdylay.Session.Inbound
import Spdylay.Session.Runs
import Spdylay.Session.SynStreamHeader
import Spdylay.Session.Turns
import Spdylay.Machine.Core
import Spdylay.Machine.Queueing
import Spdylay.Machine.Receiving
import Spdylay.Machine.Sending
import Spdylay.Machine.Runs
import Spdylay.Machine.Turns
import Spdylay.Machine.StreamCounters
import Spdylay.Machine.Errors
import Spdylay.Machine.InboundFraming
import Spdylay.Machine.FrameEnds
import Spdylay.Machine.Assertions
import Spdylay.Machine.ItemOwnership
import Spdylay.Machine.ConcurrencyLimit
import Spdylay.Machine.DequeueOrder
import Spdylay.Machine.WakeUps
import Spdylay.Machine.WindowDebit
import Spdylay.Machine.WindowLedger
import Spdylay.Machine.WindowArithmetic
import Spdylay.Protocol.Machine
import Spdylay.Protocol.Queueing
import Spdylay.Protocol.Receiving
import Spdylay.Protocol.Sending
import Spdylay.Protocol.Runs
import Spdylay.Protocol.Fields
import Spdylay.Protocol.Queues
import Spdylay.Protocol.Inversion
import Spdylay.Protocol.PushOrder
import Spdylay.Protocol.QueueGrowth
import Spdylay.Protocol.StreamRecords
import Spdylay.Protocol.WriteOrder
import Spdylay.Protocol.CloseOnce
import Spdylay.Protocol.Closing
import Spdylay.Protocol.Shutdown
import Spdylay.Protocol.Origins
import Spdylay.Protocol.GoawayIds
import Spdylay.Protocol.Pings
import Spdylay.Protocol.DataAfterClose
import Spdylay.Protocol.CredentialOrder
import Spdylay.Protocol.PushedStreams
import Spdylay.Protocol.StreamIds
import Spdylay.Protocol.RefusedStreams
import Spdylay.Transport.SendSide
import Spdylay.Transport.Machine
import Spdylay.Transport.Preparing
import Spdylay.Transport.Sending
import Spdylay.Transport.Framing
import Spdylay.Transport.Compression
import Spdylay.Transport.WireIntegrity
import Spdylay.Library.Records
import Spdylay.Wire.FixedFrames
import Spdylay.Transport.HeaderNames
import Spdylay.Wire.ChunkedBuffer
import Spdylay.Wire.HeaderGrammar
import Spdylay.Wire.PackedLists
import Spdylay.Library.Treap
import Spdylay.Map.Entries
import Spdylay.Map.Treap
import Spdylay.Map.Operations
import Spdylay.Map.Traversals
import Spdylay.Map.Refinement
import Spdylay.Machine.TruncatedHeaders
import Spdylay.Credit.Calm
import Spdylay.Credit.Receiving
import Spdylay.Credit.Ledger
import Spdylay.Credit.Threshold
import Spdylay.Map.Shape
import Spdylay.Machine.PriorityQueue
import Spdylay.Session.CertificateSlots
import Spdylay.Wire.BufferHistory
import Spdylay.Wire.NextProtocol
import Spdylay.Machine.SettingsApplication
import Spdylay.Session.FailedSubmissions
import Spdylay.Library.HttpMessage
import Spdylay.Proxy.Request
import Spdylay.Proxy.OneRequest
import Spdylay.Machine.ReceiveBounds
import Spdylay.Transport.FailedSessions
import Spdylay.Library.Framing
import Spdylay.Transport.ReceivedBlocks
import Spdylay.Library.ChunkedCoding
import Spdylay.Proxy.ChunkedUploads
import Spdylay.Proxy.ResponseFraming
import Spdylay.Library.Segments
import Spdylay.Uri.DocumentRoot
import Spdylay.Uri.Join
import Spdylay.Library.CheckedReads
import Spdylay.Wire.SizedPayloads
import Spdylay.Library.CreditLoop
import Spdylay.Proxy.UploadWindow
import Spdylay.Proxy.ConnectionPool
import Spdylay.Proxy.HttpsUpstream
import Spdylay.Proxy.MissingConnection
import Spdylay.Proxy.ConnectionReuse
import Spdylay.Library.CheckedWrites
import Spdylay.Wire.BlockSizing
import Spdylay.Session.PackedBuffers
import Spdylay.Library.Link
import Spdylay.Wire.PayloadMemory
import Spdylay.Peers.Hearing
import Spdylay.Peers.Reports
import Spdylay.Peers.Contents
import Spdylay.Peers.Reception
import Spdylay.Peers.Announced
import Spdylay.Wire.FieldWidths
import Spdylay.Peers.DataIds
import Spdylay.Peers.Carried
import Spdylay.Peers.Arrivals
import Spdylay.Peers.Connection
import Spdylay.Library.Loop
import Spdylay.Machine.SendProgress
import Spdylay.Machine.SessionEnd
