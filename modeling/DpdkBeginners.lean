import DpdkBeginners.Lib.Run
import DpdkBeginners.Lib.Select
import DpdkBeginners.Lib.Index
import DpdkBeginners.Lib.Links
import DpdkBeginners.Lib.Compact
import DpdkBeginners.Rte.Bytes
import DpdkBeginners.Rte.Mbuf
import DpdkBeginners.Rte.Env
import DpdkBeginners.Rte.Cksum
import DpdkBeginners.Rte.Ring
import DpdkBeginners.Rte.Pktmbuf
import DpdkBeginners.Rte.TxBurst
import DpdkBeginners.Rte.Graph
import DpdkBeginners.Napt.Defs
import DpdkBeginners.Napt.Packet
import DpdkBeginners.Napt.Effect
import DpdkBeginners.Napt.Ports
import DpdkBeginners.Napt.Flows
import DpdkBeginners.Napt.RoundTrip
import DpdkBeginners.Napt.PortReuse
import DpdkBeginners.Napt.Timeout
import DpdkBeginners.Napt.Checksum
import DpdkBeginners.Pool.Defs
import DpdkBeginners.Pool.Packet
import DpdkBeginners.Pool.Slots
import DpdkBeginners.Pool.Rep
import DpdkBeginners.Pool.Expiry
import DpdkBeginners.Pool.Directions
import DpdkBeginners.FeatureArc.Defs
import DpdkBeginners.FeatureArc.Walk
import DpdkBeginners.SingleRing.Defs
import DpdkBeginners.SingleRing.Protocol
import DpdkBeginners.Pipeline.Defs
import DpdkBeginners.Pipeline.Conservation
import DpdkBeginners.Pipeline.Shutdown
import DpdkBeginners.Vxlan.Defs
import DpdkBeginners.Vxlan.RoundTrip
import DpdkBeginners.Segregation.Defs
import DpdkBeginners.Segregation.Loop
import DpdkBeginners.Forwarding.Loops
import DpdkBeginners.Forwarding.Ownership
import DpdkBeginners.GraphFw.Defs
import DpdkBeginners.GraphFw.Walk
import DpdkBeginners.Bridge.Defs
import DpdkBeginners.Bridge.Session
import DpdkBeginners.Forwarding.Checksums
import DpdkBeginners.Napt.AllOrNothing
import DpdkBeginners.LoadBalancer.Backends
import DpdkBeginners.Forwarding.Version6
import DpdkBeginners.Pool.Limits
import DpdkBeginners.Lib.Stdio
import DpdkBeginners.Pool.Exhaustion
import DpdkBeginners.Pool.InboundFile
import DpdkBeginners.Pool.OnePass
import DpdkBeginners.Forwarding.Fields
import DpdkBeginners.Lib.Prog
import DpdkBeginners.Rte.Access
import DpdkBeginners.Napt.Accesses
import DpdkBeginners.LoadBalancer.Fairness
import DpdkBeginners.Vxlan.OuterHeader
import DpdkBeginners.Vxlan.Decap
import DpdkBeginners.Segregation.Classify
import DpdkBeginners.Segregation.Accesses
import DpdkBeginners.L2Forwarding.Defs
import DpdkBeginners.L2Forwarding.Learning
import DpdkBeginners.GraphPipeline.Defs
import DpdkBeginners.GraphPipeline.Walk
import DpdkBeginners.Parsing.Defs
import DpdkBeginners.Parsing.Accesses
import DpdkBeginners.Rcu.Defs
import DpdkBeginners.Rcu.Reclaim
import DpdkBeginners.Rss.Defs
import DpdkBeginners.Rss.Polling
import DpdkBeginners.GraphFw.Cli
import DpdkBeginners.FeatureArc.Repeats
import DpdkBeginners.Napt.PortWindows
import DpdkBeginners.Lib.Heap
import DpdkBeginners.RingDuplex.Defs
import DpdkBeginners.RingDuplex.Protocol
import DpdkBeginners.Lib.Channel
import DpdkBeginners.SimpleRing.Defs
import DpdkBeginners.SimpleRing.Protocol
import DpdkBeginners.Pool.Version4
import DpdkBeginners.Pool.Isolation
import DpdkBeginners.Napt.Load
import DpdkBeginners.GraphTesting.Defs
import DpdkBeginners.Lib.Passes
import DpdkBeginners.GraphTesting.Equivalence
import DpdkBeginners.Tracking.Defs
import DpdkBeginners.Tracking.Sessions
import DpdkBeginners.Messaging.Defs
import DpdkBeginners.Messaging.Protocol
import DpdkBeginners.Lpm.Router
import DpdkBeginners.Acl.Defs
import DpdkBeginners.Acl.Filter
import DpdkBeginners.RxDropSample.Walk
import DpdkBeginners.Version3.Defs
import DpdkBeginners.Version3.Wire
import DpdkBeginners.PacketChange.Operations
import DpdkBeginners.Forwarding.Drains
import DpdkBeginners.Bridge.Blocking
