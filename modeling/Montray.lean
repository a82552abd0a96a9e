import Montray.Lib.Machine
import Montray.Lib.Keyed
import Montray.Lib.Json
import Montray.Server.Item
import Montray.Server.Tracker
import Montray.Server.TrackerSpec
import Montray.Server.TrackerDeltas
import Montray.Server.SystemdConfig
import Montray.Server.SystemdCollector
import Montray.Server.SystemdMonitor
import Montray.Server.SystemdRecovery
import Montray.Server.Fanout
import Montray.Server.FanoutClient
import Montray.Server.FanoutInv
import Montray.Server.FanoutProofs
import Montray.Client.Config
import Montray.Client.Model
import Montray.Client.Reducer
import Montray.Client.ServerView
import Montray.Client.Isolation
import Montray.Client.Network
import Montray.Client.Phase
import Montray.Client.Lifecycle
import Montray.Client.Freshness
import Montray.Client.RootCause
import Montray.Client.Persistence
import Montray.Client.Runtime
import Montray.Client.TwoPhase
import Montray.Lib.Dotted
import Montray.Server.Wire
import Montray.WsClient.Combiner
import Montray.WsClient.CombinerProofs
import Montray.Legacy.IncidentState
import Montray.Legacy.Publication
import Montray.WsClient.Tunnel
import Montray.WsClient.TunnelProofs
import Montray.WsClient.EventLoop
import Montray.WsClient.RootCause
import Montray.Server.Subscriptions
import Montray.Server.SubscriptionsProofs
import Montray.Client.Publication
import Montray.Client.Keys
import Montray.Client.Protocol
import Montray.Client.Writers
import Montray.Lib.Bytes
import Montray.Server.Auth
import Montray.Client.BearerToken
import Montray.Client.Snapshot
import Montray.Client.Reminders
import Montray.Client.Outage
import Montray.Client.StateLaws
import Montray.Server.SystemdCoverage
import Montray.Client.EventLog
import Montray.Server.ExecCollector
import Montray.Client.Migration
import Montray.Client.MigrationProofs
import Montray.Client.TunnelOutput
import Montray.WsClient.TunnelOutput
import Montray.Client.HostPort
import Montray.Client.TunnelCommand
import Montray.Server.ExecOutput
import Montray.WsClient.HostPort
import Montray.Client.Tray
import Montray.Client.TrayIcons
import Montray.Client.WindowGeometry
import Montray.Legacy.SnoozeFile
import Montray.Client.MigrationWalk
import Montray.Client.MigrationBound
import Montray.Client.MigrationTermination
import Montray.Lib.Escapes
import Montray.Lib.Quote
import Montray.Lib.UnitSyntax
import Montray.Internal.SystemdUnit
import Montray.Lib.DesktopSyntax
import Montray.Client.DesktopEntry
import Montray.Lib.ShellWords
import Montray.Client.ShellCommand
import Montray.Pipeline.World
import Montray.Pipeline.EndToEnd
import Montray.Server.Shutdown
import Montray.Server.ShutdownDelivery
import Montray.Server.ShutdownProgress
import Montray.Lib.Requests
import Montray.Server.Migration
import Montray.Server.MigrationFiles
import Montray.Server.MigrationRollback
import Montray.Server.SetupFiles
