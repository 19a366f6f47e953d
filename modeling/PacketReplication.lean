import PacketReplication.Basic
import PacketReplication.Absl
import PacketReplication.Translation
import PacketReplication.Reader
import PacketReplication.Store
import PacketReplication.Ordered
import PacketReplication.Compare
import PacketReplication.Discrepancies
import PacketReplication.Determinism
import PacketReplication.System
import PacketReplication.Report
import PacketReplication.SharedStore
import PacketReplication.Gnmi
