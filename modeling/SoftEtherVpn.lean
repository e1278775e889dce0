import SoftEtherVpn.Foundation.Runs
import SoftEtherVpn.Foundation.Bytes
import SoftEtherVpn.Foundation.Ring
import SoftEtherVpn.Rudp.Frames
import SoftEtherVpn.Rudp.Drain
import SoftEtherVpn.Rudp.Reassembly
import SoftEtherVpn.Rudp.Moves
import SoftEtherVpn.Rudp.SendStream
import SoftEtherVpn.Rudp.TwoParty
import SoftEtherVpn.Foundation.ChunkedStream
import SoftEtherVpn.Http.Response
import SoftEtherVpn.Packet.Framing
import SoftEtherVpn.Connect.Transport
import SoftEtherVpn.Connect.Connection
import SoftEtherVpn.Connect.Race
import SoftEtherVpn.Connect.Hub
import SoftEtherVpn.Connect.FailedConnect
import SoftEtherVpn.Connect.Closes
import SoftEtherVpn.Controller.Flows
import SoftEtherVpn.Controller.Disconnect
import SoftEtherVpn.Controller.Handle
import SoftEtherVpn.UdpAccel.Context
import SoftEtherVpn.UdpAccel.Health
import SoftEtherVpn.UdpAccel.Readiness
import SoftEtherVpn.UdpAccel.Suspension
import SoftEtherVpn.UdpAccel.RoundTrip
import SoftEtherVpn.Foundation.Codec
import SoftEtherVpn.Pack.Format
import SoftEtherVpn.Pack.Reader
import SoftEtherVpn.Pack.Search
import SoftEtherVpn.Pack.Soundness
import SoftEtherVpn.Pack.RoundTrip
import SoftEtherVpn.Rudp.Segment
import SoftEtherVpn.Reconnect.Leaks
import SoftEtherVpn.Pack.ProtocolCopy
import SoftEtherVpn.Login.Acceptance
import SoftEtherVpn.UdpAccel.Negotiation
import SoftEtherVpn.Dhcp.Parser
import SoftEtherVpn.Dhcp.Exchange
import SoftEtherVpn.Dhcp.Timeout
import SoftEtherVpn.Dhcp.Lease
import SoftEtherVpn.Dhcp.StrayReplies
import SoftEtherVpn.Receive.Single
import SoftEtherVpn.Receive.Batch
import SoftEtherVpn.Packet.SendPaths
import SoftEtherVpn.Controller.NativeOptions
import SoftEtherVpn.Packet.SendStreams
import SoftEtherVpn.Foundation.Programs
import SoftEtherVpn.Multi.Session
import SoftEtherVpn.Multi.Counter
import SoftEtherVpn.Multi.Lifetime
import SoftEtherVpn.UdpAccel.Reception
import SoftEtherVpn.UdpAccel.Budget
import SoftEtherVpn.UdpAccel.RecvRing
import SoftEtherVpn.UdpAccel.TickGaps
import SoftEtherVpn.Pack.Builder
import SoftEtherVpn.UdpAccel.Locking
import SoftEtherVpn.Login.LoginPack
import SoftEtherVpn.Rudp.WireFraming
import SoftEtherVpn.Foundation.FirstSuccess
import SoftEtherVpn.Packet.Failover
import SoftEtherVpn.Rudp.WindowBounds
import SoftEtherVpn.Foundation.Simulation
import SoftEtherVpn.Rudp.ByteQueue
import SoftEtherVpn.Foundation.Cyclic
import SoftEtherVpn.Packet.RoundRobin
import SoftEtherVpn.Crypto.Rc4
import SoftEtherVpn.Foundation.OnesComplement
import SoftEtherVpn.Net.Checksums
import SoftEtherVpn.Crypto.Sha0
import SoftEtherVpn.Controller.KeepAlive
import SoftEtherVpn.Controller.Protection
import SoftEtherVpn.Receive.Queue
import SoftEtherVpn.Receive.QueueRuns
import SoftEtherVpn.Service.Lifecycle
import SoftEtherVpn.Service.Shutdown
import SoftEtherVpn.Service.Runs
import SoftEtherVpn.NatT.Rendezvous
import SoftEtherVpn.Arp.Gateway
import SoftEtherVpn.Dhcp.Configuration
import SoftEtherVpn.Foundation.Backoff
import SoftEtherVpn.NatT.Requests
import SoftEtherVpn.Packet.Delivery
import SoftEtherVpn.Receive.Interface
import SoftEtherVpn.Rudp.EndToEnd
import SoftEtherVpn.Rudp.Lifetime
import SoftEtherVpn.UdpAccel.TwoEnds
