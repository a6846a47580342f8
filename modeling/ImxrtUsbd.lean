import ImxrtUsbd.OutDelivery
import ImxrtUsbd.Priming
import ImxrtUsbd.TransferErrors
import ImxrtUsbd.ControlTransfers
import ImxrtUsbd.Allocation
import ImxrtUsbd.HostAddress
import ImxrtUsbd.Confinement
import ImxrtUsbd.ToggleAgreement
import ImxrtUsbd.PendingEvents
import ImxrtUsbd.InCompletions
import ImxrtUsbd.InTransfers
import ImxrtUsbd.SetupPackets
import ImxrtUsbd.Independence
import ImxrtUsbd.OutCoherence
import ImxrtUsbd.BufferMemory
import ImxrtUsbd.PagePointers
import ImxrtUsbd.OutReads
import ImxrtUsbd.CacheUpkeep
import ImxrtUsbd.DescriptorFlush
import ImxrtUsbd.LineSharing
import ImxrtUsbd.EndpointAllocation
import ImxrtUsbd.HalfControl
import ImxrtUsbd.EndpointControl
import ImxrtUsbd.Reconfiguration
import ImxrtUsbd.EndpointMailbox
import ImxrtUsbd.Configuration
import ImxrtUsbd.Timers
import ImxrtUsbd.Panics
import ImxrtUsbd.Adapter
import ImxrtUsbd.Ownership
import ImxrtUsbd.Settings
import ImxrtUsbd.InCoherence
