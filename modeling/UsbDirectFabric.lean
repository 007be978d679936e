import UsbDirectFabric.Foundation.LittleEndian
import UsbDirectFabric.Foundation.ShiftRegister
import UsbDirectFabric.Foundation.ShiftPeriod
import UsbDirectFabric.Foundation.Crc32
import UsbDirectFabric.Foundation.Crc32Period
import UsbDirectFabric.Foundation.Utf8
import UsbDirectFabric.Foundation.Run
import UsbDirectFabric.Foundation.Walk
import UsbDirectFabric.Foundation.Conveyor
import UsbDirectFabric.Foundation.Drain
import UsbDirectFabric.Foundation.Tokens
import UsbDirectFabric.Foundation.BulkPipe
import UsbDirectFabric.Foundation.TransferPipe
import UsbDirectFabric.Foundation.OrderedDict
import UsbDirectFabric.Foundation.Sweep
import UsbDirectFabric.Wire.Frame
import UsbDirectFabric.Wire.RoundTrip
import UsbDirectFabric.Wire.Canonical
import UsbDirectFabric.Wire.Authenticated
import UsbDirectFabric.Wire.AuthenticatedRoundTrip
import UsbDirectFabric.Wire.Modes
import UsbDirectFabric.Wire.ErrorDetection
import UsbDirectFabric.Wire.DoubleErrors
import UsbDirectFabric.Wire.Grammar
import UsbDirectFabric.Wire.Cap
import UsbDirectFabric.Routing.Table
import UsbDirectFabric.Routing.Hello
import UsbDirectFabric.Routing.HelloUpdate
import UsbDirectFabric.Routing.Stability
import UsbDirectFabric.Routing.HelloFormat
import UsbDirectFabric.Routing.Ring
import UsbDirectFabric.Routing.NodeLoss
import UsbDirectFabric.Routing.Wiring
import UsbDirectFabric.Routing.Membership
import UsbDirectFabric.Routing.RouteEntries
import UsbDirectFabric.Routing.Advertise
import UsbDirectFabric.Routing.Decoders
import UsbDirectFabric.Routing.NeighborMonitor
import UsbDirectFabric.Daemon.Effect
import UsbDirectFabric.Daemon.Gadget
import UsbDirectFabric.Daemon.EnableEvents
import UsbDirectFabric.Daemon.GadgetOrder
import UsbDirectFabric.Daemon.TornFrames
import UsbDirectFabric.Daemon.GadgetReceive
import UsbDirectFabric.Daemon.GadgetRun
import UsbDirectFabric.Daemon.GadgetStart
import UsbDirectFabric.Daemon.GadgetShutdown
import UsbDirectFabric.Daemon.SequenceGaps
import UsbDirectFabric.Daemon.Replay
import UsbDirectFabric.Daemon.Host
import UsbDirectFabric.Daemon.HostDevice
import UsbDirectFabric.Daemon.HostLink
import UsbDirectFabric.Daemon.HostSurvival
import UsbDirectFabric.Daemon.Node
import UsbDirectFabric.Daemon.DeviceScan
import UsbDirectFabric.Daemon.NodeDescriptors
import UsbDirectFabric.Daemon.NodeCalls
import UsbDirectFabric.Daemon.FailedSend
import UsbDirectFabric.Daemon.NodeHistory
import UsbDirectFabric.Daemon.Conservation
import UsbDirectFabric.Daemon.NodeNumbers
import UsbDirectFabric.Daemon.HostReceive
import UsbDirectFabric.Daemon.HostRun
import UsbDirectFabric.Daemon.HostShutdown
import UsbDirectFabric.Daemon.HostRelease
import UsbDirectFabric.Daemon.HeartbeatLink
import UsbDirectFabric.Daemon.CableDelivery
import UsbDirectFabric.Daemon.CableBooks
import UsbDirectFabric.Daemon.Transfers
import UsbDirectFabric.Network.Journey
import UsbDirectFabric.Network.Fabric
import UsbDirectFabric.Network.Refinement
import UsbDirectFabric.Network.NodeRefinement
import UsbDirectFabric.Network.GadgetRefinement
import UsbDirectFabric.Network.FabricRefinement
import UsbDirectFabric.Network.Copies
import UsbDirectFabric.Network.Lanes
import UsbDirectFabric.Network.FlowOrder
import UsbDirectFabric.Network.Dues
import UsbDirectFabric.Network.Settling
import UsbDirectFabric.Network.Reserves
import UsbDirectFabric.Network.Forwarding
import UsbDirectFabric.Network.RingDelivery
import UsbDirectFabric.Network.RingBroadcast
import UsbDirectFabric.Network.RingSettling
import UsbDirectFabric.Daemon.CableBooks
