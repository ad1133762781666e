import PulseWatch.Lib.Runs
import PulseWatch.Lib.ExpiringStore
import PulseWatch.Lib.PgText
import PulseWatch.Models
import PulseWatch.Auth
import PulseWatch.RedisClient
import PulseWatch.Sessions
import PulseWatch.SessionMoves
import PulseWatch.SessionLedger
import PulseWatch.SessionSweeps
import PulseWatch.SessionReuse
import PulseWatch.SessionReset
import PulseWatch.Totp
import PulseWatch.TotpRaces
import PulseWatch.Threshold
import PulseWatch.ThresholdRaces
import PulseWatch.BrowserTabs
import PulseWatch.Fleet
import PulseWatch.Heartbeat
import PulseWatch.Lib.KeyedTable
import PulseWatch.Lib.PgSession
import PulseWatch.Aggregation
import PulseWatch.AggregationIsolation
import PulseWatch.AlertRules
import PulseWatch.AlertResolver
import PulseWatch.AlertLifecycle
import PulseWatch.Lib.PyFloat
import PulseWatch.Lib.PyText
import PulseWatch.Lib.AsyncLock
import PulseWatch.LogChannel
import PulseWatch.LogDelivery
import PulseWatch.TelegramBot
import PulseWatch.RuleLedger
import PulseWatch.RuleOwners
import PulseWatch.ChatLinks
import PulseWatch.ResetTokens
import PulseWatch.HeartbeatEvidence
import PulseWatch.Lib.Windows
import PulseWatch.AggregationSchedule
import PulseWatch.AlertDomains
import PulseWatch.Lib.OrmSession
import PulseWatch.Audit
import PulseWatch.KeyRotation
import PulseWatch.Lib.ConnectionPool
import PulseWatch.Viewers
import PulseWatch.RuleDialog
import PulseWatch.PendingDelete
import PulseWatch.LogSubscribers
import PulseWatch.AlertNotifications
import PulseWatch.Lib.Effects
import PulseWatch.NotificationTasks
import PulseWatch.Evaluations
import PulseWatch.CooldownPolicy
import PulseWatch.Lib.Throttle
import PulseWatch.DockerBatch
import PulseWatch.DockerBatchFaults
import PulseWatch.DockerBatchOrder
import PulseWatch.EventLengths
import PulseWatch.IngestLedger
import PulseWatch.FiringResolving
import PulseWatch.Lib.Summaries
import PulseWatch.Rollups
import PulseWatch.AggregateTables
import PulseWatch.LogClock
import PulseWatch.LogRecovery
import PulseWatch.Lib.OrderBy
import PulseWatch.LogExport
import PulseWatch.Lib.PyDatetime
import PulseWatch.ExportWindows
import PulseWatch.Lib.Routing
import PulseWatch.AlertExport
import PulseWatch.RuleFields
import PulseWatch.RuleConstraints
import PulseWatch.DeadRules
import PulseWatch.Lib.PyInt
import PulseWatch.ApiKeys
import PulseWatch.ChatIds
import PulseWatch.DialogReplies
import PulseWatch.EmailOutcomes
import PulseWatch.ForgotPassword
import PulseWatch.Registration
import PulseWatch.Lib.SqlTruth
import PulseWatch.StatusGauges
import PulseWatch.Lib.GroupBy
import PulseWatch.Dashboard
import PulseWatch.DockerCollector
import PulseWatch.PollLoop
import PulseWatch.Lib.Glob
import PulseWatch.RedisKeys
import PulseWatch.Lib.Calendar
import PulseWatch.AggregationWindows
import PulseWatch.Lib.Html
import PulseWatch.Markup
import PulseWatch.Lib.Csv
import PulseWatch.CsvExports
import PulseWatch.Lib.PubSub
import PulseWatch.LiveUpdates
import PulseWatch.TenantIsolation
import PulseWatch.DashboardCache
import PulseWatch.LinkCodes
import PulseWatch.Lib.Feed
import PulseWatch.LogStream
import PulseWatch.Mutes
import PulseWatch.AccessTokens
import PulseWatch.Lib.Joins
import PulseWatch.BotViews
import PulseWatch.ChatReplies
import PulseWatch.ViewerLines
