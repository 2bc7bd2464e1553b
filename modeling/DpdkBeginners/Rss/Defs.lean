import DpdkBeginners.Rte.Bytes
import Mathlib.Data.Int.Notation
import Mathlib.Data.List.Nodup

/-!
# The receive queues of `rss_dpdk`

`main` of `rss_dpdk/main.c` (`main`) and of `rss_dpdk/af_packet_rss/main.c` (`afPacketMain`): how many receive
queues they configure, and which lcore polls which queue.

* What the EAL and the device answer is the parameter `Eal`; the text of `rte_exit` is an error.
* `lcore_rx` never returns, so an lcore polls the queue that it is launched with for ever.  The workers
  wait when `main` starts, so `rte_eal_remote_launch` does not fail.
-/

namespace DpdkBeginners.Rss

open DpdkBeginners.Rte

/-! ### The EAL and the device -/

/-- The main lcore, and the workers in the order of `RTE_LCORE_FOREACH_WORKER`. -/
structure Lcores where
  main : ℕ
  workers : List ℕ
  nodup : (main :: workers).Nodup

/-- `rte_lcore_count`. -/
def rteLcoreCount (lcores : Lcores) : U32 := BitVec.ofNat 32 (lcores.workers.length + 1)

/-- `mq_mode`. -/
inductive MqMode
  | none
  | rss
  deriving DecidableEq

/-- The bits of `rss_hf` that are set. -/
inductive RssHf
  | ip
  | tcp
  | udp
  deriving DecidableEq

/-- What the programs set in `struct rte_eth_conf`. -/
structure PortConf where
  mqMode : MqMode
  rssHf : List RssHf
  deriving DecidableEq

/-- The lcores, and the return values of the calls that `main` looks at. -/
structure Eal where
  lcores : Lcores
  rteEalInit : ℤ
  rteEthDevCountAvail : U16
  /-- whether `rte_pktmbuf_pool_create` returns a pool -/
  poolCreated : Bool
  maxRxQueues : U16
  rteEthDevConfigure : U16 → PortConf → ℤ
  rteEthRxQueueSetup : U16 → ℤ
  rteEthDevStart : ℤ

/-- What `main` has set up when all lcores are in `lcore_rx`: the number of receive queues, and the
lcores with the queues they poll. -/
structure Launched where
  rxQueues : U16
  polls : List (ℕ × U16)
  deriving DecidableEq

variable (eal : Eal)

/-- `if (failed) rte_exit(EXIT_FAILURE, text)`. -/
def exitIf (failed : Bool) (text : String) : Except String Unit :=
  if failed then .error text else .ok ()

/-! ### Launching -/

/-- The loop over the workers: the lcores it launches and their queues, and `q` when it is over. -/
def launchWorkers (rxQueues : U16) : List ℕ → U16 → List (ℕ × U16) × U16
  | [], q => ([], q)
  | lcore :: workers, q =>
    if rxQueues ≤ q then ([], q)
    else
      let (polls, q') := launchWorkers rxQueues workers (q + 1)
      ((lcore, q) :: polls, q')

/-- The launch of the workers, and the queue that is left for the main lcore. -/
def launch (lcores : Lcores) (rxQueues : U16) : List (ℕ × U16) :=
  let (polls, q) := launchWorkers rxQueues lcores.workers 0
  if q < rxQueues then polls ++ [(lcores.main, q)] else polls

/-- The port configured with receive queues and started, and the lcores launched. -/
def startPort (rxQueues : U16) (conf : PortConf) : Except String Launched := do
  exitIf (eal.rteEthDevConfigure rxQueues conf < 0) "Port configure failed\n"
  (List.range rxQueues.toNat).forM fun q =>
    exitIf (eal.rteEthRxQueueSetup (BitVec.ofNat 16 q) < 0) "RX queue setup failed\n"
  exitIf (eal.rteEthDevStart < 0) "Port start failed\n"
  return ⟨rxQueues, launch eal.lcores rxQueues⟩

/-! ### The programs -/

/-- `RX_QUEUES`. -/
def rxQueues : U16 := 4

/-- The configuration with RSS. -/
def rssConf : PortConf := ⟨.rss, [.ip, .tcp, .udp]⟩

/-- `main` of `rss_dpdk/main.c`. -/
def main : Except String Launched := do
  exitIf (eal.rteEalInit < 0) "EAL init failed\n"
  exitIf (eal.rteEthDevCountAvail = 0) "No ports found\n"
  exitIf (! eal.poolCreated) "Cannot create mbuf pool\n"
  startPort eal rxQueues rssConf

/-- `used_rx_queues`: as many as there are workers and as the device supports, but one at least. -/
def usedRxQueues : U16 :=
  let desired := (rteLcoreCount eal.lcores - 1).setWidth 16
  let desired := if desired = 0 then 1 else desired
  let used := if desired < eal.maxRxQueues then desired else eal.maxRxQueues
  if used = 0 then 1 else used

/-- `main` of `rss_dpdk/af_packet_rss/main.c`. -/
def afPacketMain : Except String Launched := do
  exitIf (eal.rteEalInit < 0) "EAL init failed\n"
  exitIf (eal.rteEthDevCountAvail = 0) "No Ethernet ports found\n"
  exitIf (! eal.poolCreated) "Cannot create mbuf pool\n"
  let used := usedRxQueues eal
  startPort eal used (if 1 < used then rssConf else ⟨.none, []⟩)

end DpdkBeginners.Rss
