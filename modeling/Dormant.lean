import Dormant.StateMachine.FrozenGrace
import Dormant.StateMachine.Commands
import Dormant.StateMachine.Wakeups
import Dormant.StateMachine.Earned
import Dormant.StateMachine.Suppression
import Dormant.StateMachine.DarkPanel
import Dormant.StateMachine.StageTicks
import Dormant.StateMachine.Dwell
import Dormant.StateMachine.LadderPosition
import Dormant.Rules.Inhibitors
import Dormant.Rules.Pauses
import Dormant.Rules.Failures
import Dormant.Rules.Tracking
import Dormant.Rules.InputWake
import Dormant.Rules.WakeRetries
import Dormant.Rules.HoldLaw
import Dormant.Operations.Leases
import Dormant.Operations.LetGo
import Dormant.Operations.Spared
import Dormant.Coordination.Churn
import Dormant.Rules.Fusion
import Dormant.Switch.Cooldown
import Dormant.Displays.Supersede
import Dormant.Displays.OwnerFirst
import Dormant.Wear.Mean
import Dormant.Render.Overlay
import Dormant.Render.OneTimer
import Dormant.Boot.Guard
import Dormant.Boot.Rollback
import Dormant.Boot.Disowned
import Dormant.Sensors.Framing
import Dormant.Input.Edges
import Dormant.Input.HeldAwake
import Dormant.Wear.LedgerFile
import Dormant.Rules.Staleness
import Dormant.Notify.Honest
import Dormant.Wear.WallClock
import Dormant.Reload.Promotion
import Dormant.Reload.Rejections
import Dormant.Reload.Receipts
import Dormant.Reload.FrontDoor
import Dormant.Reload.Swap
import Dormant.Reload.Orphans
import Dormant.Reload.LeftDark
import Dormant.Rules.ZoneMono
import Dormant.Coordination.Excursions
import Dormant.Foundations.Vouchers
import Dormant.Coordination.Deferred
import Dormant.Wear.Reduce
import Dormant.Input.AudioRuns
import Dormant.Switch.Follow
import Dormant.Render.WearEven
import Dormant.Render.DirectoryOrder
import Dormant.Sensors.Recovery
import Dormant.Input.Globs
import Dormant.Switch.Hooks
import Dormant.Wear.Exposure
import Dormant.Wear.Overflow
import Dormant.Reload.OwnNotice
import Dormant.Config.UnknownKeys
import Dormant.Render.ShiftTour
import Dormant.Wear.LedgerKept
import Dormant.Web.AllOrNothing
import Dormant.Wear.WearKept
import Dormant.Web.StoredValues
import Dormant.Web.LockedValues
import Dormant.Rules.Deliveries
import Dormant.Rules.Broadcast
import Dormant.Publish.Settling
import Dormant.Displays.BusHandles
import Dormant.Displays.BusProgress
