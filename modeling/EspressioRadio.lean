import EspressioRadio.Abstract.Inbox
import EspressioRadio.Clock.Calls
import EspressioRadio.Clock.Nested
import EspressioRadio.Clock.Network
import EspressioRadio.Clock.Synchronizer
import EspressioRadio.Clock.Threads
import EspressioRadio.Clock.Timed
import EspressioRadio.Clock.TimedNetwork
import EspressioRadio.Clock.Wire
import EspressioRadio.Lib.Attempts
import EspressioRadio.Lib.Chunks
import EspressioRadio.Lib.FourTimestamps
import EspressioRadio.Lib.LittleEndian
import EspressioRadio.Lib.Lru
import EspressioRadio.Lib.LruCache
import EspressioRadio.Lib.Observed
import EspressioRadio.Lib.Padded
import EspressioRadio.Lib.Pipeline
import EspressioRadio.Lib.Ring
import EspressioRadio.Lib.SlotMap
import EspressioRadio.Proofs.Allocation
import EspressioRadio.Proofs.Arrival
import EspressioRadio.Proofs.Bounds
import EspressioRadio.Proofs.Broadcast
import EspressioRadio.Proofs.Chain
import EspressioRadio.Proofs.Clock.Abandon
import EspressioRadio.Proofs.Clock.Accuracy
import EspressioRadio.Proofs.Clock.Cadence
import EspressioRadio.Proofs.Clock.Causality
import EspressioRadio.Proofs.Clock.Completion
import EspressioRadio.Proofs.Clock.Cuts
import EspressioRadio.Proofs.Clock.Echo
import EspressioRadio.Proofs.Clock.Exchange
import EspressioRadio.Proofs.Clock.Fits
import EspressioRadio.Proofs.Clock.Frames
import EspressioRadio.Proofs.Clock.Nested
import EspressioRadio.Proofs.Clock.Outcomes
import EspressioRadio.Proofs.Clock.Pending
import EspressioRadio.Proofs.Clock.Rate
import EspressioRadio.Proofs.Clock.Statistics
import EspressioRadio.Proofs.Codec
import EspressioRadio.Proofs.Content
import EspressioRadio.Proofs.Copies
import EspressioRadio.Proofs.Eviction
import EspressioRadio.Proofs.Fragments
import EspressioRadio.Proofs.Halves
import EspressioRadio.Proofs.Handled
import EspressioRadio.Proofs.Hops
import EspressioRadio.Proofs.Inbox
import EspressioRadio.Proofs.Independence
import EspressioRadio.Proofs.Interleave
import EspressioRadio.Proofs.Invariant
import EspressioRadio.Proofs.Lifecycle
import EspressioRadio.Proofs.Nested
import EspressioRadio.Proofs.Network.Accounts
import EspressioRadio.Proofs.Network.Integrity
import EspressioRadio.Proofs.Network.Once
import EspressioRadio.Proofs.Network.Reuse
import EspressioRadio.Proofs.Outside
import EspressioRadio.Proofs.Partition
import EspressioRadio.Proofs.Path
import EspressioRadio.Proofs.Provenance
import EspressioRadio.Proofs.Recent
import EspressioRadio.Proofs.Refusal
import EspressioRadio.Proofs.Restart
import EspressioRadio.Proofs.Sizes
import EspressioRadio.Proofs.Slot
import EspressioRadio.Proofs.Station
import EspressioRadio.Proofs.Stations.Clocks
import EspressioRadio.Proofs.Stations.Frames
import EspressioRadio.Proofs.Stations.Split
import EspressioRadio.Proofs.Stations.Transports
import EspressioRadio.Proofs.Table
import EspressioRadio.Proofs.Topology
import EspressioRadio.Proofs.Touch
import EspressioRadio.Proofs.Traffic
import EspressioRadio.Station
import EspressioRadio.StationNetwork
import EspressioRadio.Transport.Allocation
import EspressioRadio.Transport.Calls
import EspressioRadio.Transport.Chain
import EspressioRadio.Transport.Inbound
import EspressioRadio.Transport.Nested
import EspressioRadio.Transport.Network
import EspressioRadio.Transport.Path
import EspressioRadio.Transport.Send
import EspressioRadio.Transport.State
import EspressioRadio.Transport.Wire
import EspressioRadio.Transport.Worker
import EspressioRadio.Types
