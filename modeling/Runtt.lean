import Runtt.ConfirmGate
import Runtt.Vetting
import Runtt.ClientLifetime
import Runtt.Rollback
import Runtt.ConfirmedImage
import Runtt.Restart
import Runtt.Delivery
import Runtt.Corruption
import Runtt.Demux
import Runtt.CanLog
import Runtt.SignalWait
import Runtt.Target
import Runtt.Provision
import Runtt.SameBoard
import Runtt.Guarantee
import Runtt.Verbs
import Runtt.VerbContracts
import Runtt.Lifecycle
import Runtt.SystemSteps
import Runtt.SystemRuns
import Runtt.StalePid
import Runtt.StartSignal
import Runtt.Orphans
import Runtt.Release
import Runtt.Deleted
import Runtt.ReportedStatus
import Runtt.DeviceClaim
import Runtt.Inodes
import Runtt.StateFile
import Runtt.Loop
import Runtt.ImageLayout
import Runtt.ReadBounds
import Runtt.LogPump
import Runtt.DemuxRead
import Runtt.Serve
import Runtt.UploadOrder
import Runtt.SerialOrder
import Runtt.Paths
import Runtt.Firmware
import Runtt.Labels
import Runtt.LabelChecks
import Runtt.FrameLimit
import Runtt.FileTree
import Runtt.StateDirs
import Runtt.Residency
import Runtt.Heartbeat
import Runtt.FailedCreate
import Runtt.Redeploy
import Runtt.Conversation
import Runtt.Uptime
import Runtt.LostReset
import Runtt.FaultMatrix
import Runtt.Fleet
import Runtt.UnreadBody
import Runtt.StaysUp
import Runtt.Lifetime
import Runtt.NodeIds
