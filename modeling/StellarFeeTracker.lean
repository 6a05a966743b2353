import StellarFeeTracker.General.Machine
import StellarFeeTracker.General.FirstByKey
import StellarFeeTracker.General.MaxByKey
import StellarFeeTracker.General.Episode
import StellarFeeTracker.General.Separated
import StellarFeeTracker.General.BoundedQueue
import StellarFeeTracker.General.Memo
import StellarFeeTracker.General.FrontExpiry
import StellarFeeTracker.General.Interleaving
import StellarFeeTracker.General.Net
import StellarFeeTracker.General.Uri
import StellarFeeTracker.General.Runs
import StellarFeeTracker.Chrono
import StellarFeeTracker.Numeric
import StellarFeeTracker.Insights.Types
import StellarFeeTracker.Insights.Config
import StellarFeeTracker.Insights.Calculator
import StellarFeeTracker.Insights.Tracker
import StellarFeeTracker.Insights.Detector
import StellarFeeTracker.Insights.Engine
import StellarFeeTracker.Insights.Windows
import StellarFeeTracker.Insights.Processing
import StellarFeeTracker.Insights.Atomicity
import StellarFeeTracker.Insights.Batching
import StellarFeeTracker.Store
import StellarFeeTracker.Repository
import StellarFeeTracker.Alerts.Webhook
import StellarFeeTracker.Alerts.Manager
import StellarFeeTracker.Alerts.Identity
import StellarFeeTracker.Alerts.Tick
import StellarFeeTracker.Alerts.Hysteresis
import StellarFeeTracker.Alerts.Routing
import StellarFeeTracker.Alerts.Dedup
import StellarFeeTracker.Analytics.Percentile
import StellarFeeTracker.Analytics.Trend
import StellarFeeTracker.Middleware.Validation
import StellarFeeTracker.Recommendation.Types
import StellarFeeTracker.Recommendation.Cache
import StellarFeeTracker.Recommendation.Engine
import StellarFeeTracker.Recommendation.Serving
import StellarFeeTracker.Scheduler
import StellarFeeTracker.Polling.Tick
import StellarFeeTracker.Polling.History
import StellarFeeTracker.Polling.Persistence
import StellarFeeTracker.Polling.Validation
import StellarFeeTracker.Alerts.Audit
import StellarFeeTracker.Polling.Staleness
import StellarFeeTracker.Api.WebhookUrl
import StellarFeeTracker.Api.Alerts
import StellarFeeTracker.Api.Concurrency
import StellarFeeTracker.Insights.Views
import StellarFeeTracker.Recommendation.Expiry
import StellarFeeTracker.General.Json
import StellarFeeTracker.Insights.HorizonAdapter
import StellarFeeTracker.Services.Horizon
import StellarFeeTracker.Resilience.CircuitBreaker
import StellarFeeTracker.General.Parties
import StellarFeeTracker.Resilience.Bulkhead
import StellarFeeTracker.General.Tokens
import StellarFeeTracker.Middleware.RateLimit
import StellarFeeTracker.Cache
import StellarFeeTracker.Api.CurrentFees
import StellarFeeTracker.General.TextOrder
import StellarFeeTracker.General.CivilDate
import StellarFeeTracker.Rfc3339
import StellarFeeTracker.Repository.TimeWindow
import StellarFeeTracker.Polling.Rehydration
import StellarFeeTracker.General.Binary64
import StellarFeeTracker.General.Bisect
import StellarFeeTracker.Recommendation.Confidence
import StellarFeeTracker.General.OrderStatistic
import StellarFeeTracker.Api.Fees
import StellarFeeTracker.Api.Recommendation
import StellarFeeTracker.Recommendation.Adjustment
import StellarFeeTracker.Recommendation.UrgencyOrder
import StellarFeeTracker.General.Regression
import StellarFeeTracker.Analytics.Regression
import StellarFeeTracker.Recommendation.TrendNote
import StellarFeeTracker.General.StableSort
import StellarFeeTracker.General.RunStarts
import StellarFeeTracker.Insights.SpikeSpec
import StellarFeeTracker.Insights.Recency
import StellarFeeTracker.Polling.SpikeMetric
import StellarFeeTracker.Services.FeeStats
import StellarFeeTracker.General.FirstExtreme
import StellarFeeTracker.Insights.Extremes
import StellarFeeTracker.General.Retry
import StellarFeeTracker.Polling.FeeStats
import StellarFeeTracker.Polling.Retry
import StellarFeeTracker.Polling.Retention
import StellarFeeTracker.Middleware.RetryAfter
import StellarFeeTracker.Middleware.ClientIp
import StellarFeeTracker.Congestion.Scoring
import StellarFeeTracker.Congestion.WaitAdvisory
import StellarFeeTracker.General.Digest
import StellarFeeTracker.General.JsonText
import StellarFeeTracker.Api.Headers
import StellarFeeTracker.Api.FeeHistory
import StellarFeeTracker.Insights.WindowSums
import StellarFeeTracker.Polling.FeeSums
import StellarFeeTracker.Recommendation.HistoryWindows
import StellarFeeTracker.Analytics.TrendLaws
import StellarFeeTracker.Recommendation.NearestRank
import StellarFeeTracker.Middleware.Auth
import StellarFeeTracker.Devkit.Random
import StellarFeeTracker.Devkit.FeeModel
import StellarFeeTracker.Devkit.Fixtures
import StellarFeeTracker.Devkit.NetworkLoad
import StellarFeeTracker.Devkit.Windows
import StellarFeeTracker.Devkit.Backoff
import StellarFeeTracker.General.KeyedTable
import StellarFeeTracker.Polling.Snapshots
import StellarFeeTracker.Api.AlertConfigs
import StellarFeeTracker.Api.AlertService
import StellarFeeTracker.General.PrunedLog
import StellarFeeTracker.Alerts.Delivery
import StellarFeeTracker.Api.AlertHistory
import StellarFeeTracker.Recommendation.History
import StellarFeeTracker.General.Unwinding
import StellarFeeTracker.Middleware.Isolation
import StellarFeeTracker.Api.Router
import StellarFeeTracker.Api.Layers
import StellarFeeTracker.Polling.Crashes
import StellarFeeTracker.Api.TransactionLookup
import StellarFeeTracker.Polling.Loops
import StellarFeeTracker.Polling.Monitoring
import StellarFeeTracker.General.Pieces
import StellarFeeTracker.Config
import StellarFeeTracker.Migrations
import StellarFeeTracker.Polling.Shutdown
import StellarFeeTracker.Api.Revalidation
import StellarFeeTracker.Api.FeeTrend
import StellarFeeTracker.Api.WaitAdvisory
