import Streamwm.FullscreenShown
import Streamwm.Handlers
import Streamwm.Library.Partial
import Streamwm.Library.Transition
import Streamwm.Ownership
import Streamwm.Removal
import Streamwm.Snapshot
import Streamwm.Refinement
import Streamwm.FocusRouting
import Streamwm.Stranded
import Streamwm.PointerAgreement
import Streamwm.FullscreenAgreement
import Streamwm.Subscribe
import Streamwm.DeliveryOrder
import Streamwm.Convergence
import Streamwm.Supervisor
import Streamwm.MainLoop
import Streamwm.LidProfiles
import Streamwm.PointerDrag
import Streamwm.NodeProtocol
import Streamwm.ReportedFocus
import Streamwm.Tiling
import Streamwm.MinimizedTiles
import Streamwm.PlacementOrder
import Streamwm.Repair
import Streamwm.FloatingBoxes
import Streamwm.TagActivation
import Streamwm.CommandFocus
import Streamwm.TileDisjoint
import Streamwm.FocusCycle
import Streamwm.DefaultModifier
import Streamwm.PointerWarp
import Streamwm.Tracking
import Streamwm.PassRequests
import Streamwm.ManagePass
import Streamwm.Library.Position
import Streamwm.WarpIdentity
import Streamwm.FloatedBy
import Streamwm.DimensionBounds
import Streamwm.SocketRequests
import Streamwm.Spawn
import Streamwm.Library.JsonText
import Streamwm.ClientSocket
import Streamwm.Ledger
import Streamwm.Routine
import Streamwm.Sequences
import Streamwm.Arrivals
import Streamwm.Splits
import Streamwm.Phases
import Streamwm.Library.Custody
import Streamwm.Objects
import Streamwm.Lifecycle
import Streamwm.Library.Inbox
import Streamwm.Screen
import Streamwm.Grabs
import Streamwm.Keyboard
import Streamwm.Orders
import Streamwm.Agenda
import Streamwm.Hub
import Streamwm.Feeds
import Streamwm.Server
