import AlphaOne.Foundations.Run
import AlphaOne.Foundations.Table
import AlphaOne.Foundations.Slices
import AlphaOne.Foundations.Cursor
import AlphaOne.Foundations.Interleaving
import AlphaOne.Schema.Time
import AlphaOne.Schema.Models
import AlphaOne.Journal.Pnl
import AlphaOne.Journal.Journal
import AlphaOne.Journal.Lifecycle
import AlphaOne.Journal.ConcurrentExits
import AlphaOne.Risk.Engine
import AlphaOne.Risk.History
import AlphaOne.Risk.StateStore
import AlphaOne.Risk.ConcurrentSaves
import AlphaOne.Backtester.Engine
import AlphaOne.Backtester.Accounting
import AlphaOne.Backtester.LookAhead
import AlphaOne.Backtester.Gating
import AlphaOne.MarketData.Ingestion
import AlphaOne.MarketData.Paging
import AlphaOne.MarketData.Backfill
import AlphaOne.MarketData.Completeness
import AlphaOne.MarketData.Contiguity
import AlphaOne.MarketData.Resume
import AlphaOne.Foundations.Rounding
import AlphaOne.Risk.FixedMargin
import AlphaOne.Paper.Engine
import AlphaOne.Paper.Reaction
import AlphaOne.Paper.Persistence
import AlphaOne.TelegramSignals.Parser
import AlphaOne.Scanner.MultiCoin
import AlphaOne.TelegramSignals.Ingestion
import AlphaOne.TelegramSignals.PaperExecution
import AlphaOne.ModelMonitor.Health
import AlphaOne.Foundations.Regex
import AlphaOne.Foundations.Replay
import AlphaOne.Scheduler.PaperTradingJob
import AlphaOne.Paper.System
import AlphaOne.Paper.Ownership
import AlphaOne.Paper.Books
import AlphaOne.Paper.Agreement
import AlphaOne.Paper.Replay
import AlphaOne.Paper.Tracking
import AlphaOne.Paper.Equity
import AlphaOne.Paper.Rerun
import AlphaOne.Paper.Interleaved
import AlphaOne.Paper.SharedCap
import AlphaOne.SignalEngine.LiveSignal
import AlphaOne.SignalEngine.OneSignal
import AlphaOne.SignalMatching.Matcher
import AlphaOne.LiveExecution.Sizing
import AlphaOne.LiveExecution.Gates
import AlphaOne.LiveExecution.Executor
import AlphaOne.LiveExecution.Idempotency
import AlphaOne.LiveExecution.Wiring
import AlphaOne.TelegramSignals.Pipeline
import AlphaOne.TelegramSignals.ExactlyOnce
import AlphaOne.Exchange.CoinDCX
import AlphaOne.Exchange.CoinDCXSync
import AlphaOne.Exchange.SyncEffects
import AlphaOne.Exchange.Closing
import AlphaOne.Exchange.FailedRead
import AlphaOne.Foundations.Calendar
import AlphaOne.Foundations.Digits
import AlphaOne.Schema.IsoFormat
import AlphaOne.Risk.Operations
import AlphaOne.Risk.StoredJson
import AlphaOne.LiveExecution.Decisions
import AlphaOne.LiveExecution.Exposure
import AlphaOne.Foundations.Matching
import AlphaOne.LiveExecution.Reconciliation
import AlphaOne.Exchange.Mirror
import AlphaOne.Exchange.RealizedPnl
import AlphaOne.Foundations.Causal
import AlphaOne.FeatureEngine.Indicators
import AlphaOne.SignalEngine.Strategies
import AlphaOne.SignalEngine.SupertrendFlips
import AlphaOne.SignalEngine.Geometry
import AlphaOne.SignalEngine.LiveWindow
import AlphaOne.Backtester.Exits
import AlphaOne.ML.Labeling
import AlphaOne.ML.Signal
import AlphaOne.ML.Barrier
import AlphaOne.FeatureEngine.Frame
import AlphaOne.FeatureEngine.Columns
import AlphaOne.FeatureEngine.Structure
import AlphaOne.FeatureEngine.Causality
import AlphaOne.FeatureEngine.Derivatives
import AlphaOne.FeatureEngine.Engine
import AlphaOne.SignalEngine.Regime
import AlphaOne.ML.Features
import AlphaOne.ML.Serving
import AlphaOne.ML.Splits
import AlphaOne.Foundations.FirstHit
import AlphaOne.SignalEngine.OutcomeEvaluator
import AlphaOne.ML.Simulators
import AlphaOne.Paper.Ledger
import AlphaOne.Portfolio.Service
import AlphaOne.Portfolio.Reports
import AlphaOne.Paper.FailedOpens
import AlphaOne.MarketData.Finality
import AlphaOne.PositionMonitor.Monitor
import AlphaOne.SignalEngine.Notify
import AlphaOne.Schema.Widths
import AlphaOne.Schema.Writers
import AlphaOne.Exchange.ConcurrentSyncs
import AlphaOne.Exchange.OneOpenTrade
import AlphaOne.Foundations.Separator
import AlphaOne.MarketData.LiveFeed
import AlphaOne.SignalEngine.TradedPrice
import AlphaOne.Scheduler.CircuitBreaker
import AlphaOne.Scheduler.AccountSync
import AlphaOne.SignalEngine.MultiStrategy
import AlphaOne.Scheduler.SignalGenerationJob
import AlphaOne.PositionMonitor.ConcurrentAlerts
import AlphaOne.Risk.ReportingOrder
import AlphaOne.LiveExecution.KeySeparation
import AlphaOne.Backtester.Funding
import AlphaOne.Backtester.Leverage
import AlphaOne.Backtester.Results
import AlphaOne.Backtester.Sanity
import AlphaOne.TelegramSignals.TenfoldExposure
import AlphaOne.Scheduler.Backoff
import AlphaOne.Scheduler.HalfOpen
import AlphaOne.MarketData.Termination
import AlphaOne.MarketData.FundingBackfill
import AlphaOne.Foundations.Binary64
import AlphaOne.MarketData.Milliseconds
import AlphaOne.MarketData.ExchangeTime
import AlphaOne.MarketData.ConnectionAlerts
import AlphaOne.SignalEngine.FormingCandle
import AlphaOne.SignalEngine.OutcomeSchedule
import AlphaOne.Foundations.Neighbours
import AlphaOne.LiveExecution.Neighbours
import AlphaOne.LiveExecution.DailyLoss
import AlphaOne.Paper.SameCandle
import AlphaOne.PositionMonitor.Preview
import AlphaOne.SignalEngine.OwnTimeframe
import AlphaOne.ML.Horizon
import AlphaOne.ML.WalkForward
import AlphaOne.SignalEngine.RegimeDetector
import AlphaOne.Foundations.Timeline
import AlphaOne.FeatureEngine.LastRow
import AlphaOne.ML.DailyTrend
import AlphaOne.Foundations.Grouping
import AlphaOne.FeatureEngine.Liquidations
import AlphaOne.FeatureEngine.Alignment
import AlphaOne.FeatureEngine.EngineCausality
import AlphaOne.SignalEngine.HighVolatility
import AlphaOne.Backtester.RegimeBuckets
import AlphaOne.SignalEngine.AIEvidence
import AlphaOne.ML.Ambiguity
import AlphaOne.Backtester.Drawdown
import AlphaOne.TelegramSignals.Convergence
import AlphaOne.TelegramSignals.Staleness
import AlphaOne.Exchange.TradeFills
import AlphaOne.Exchange.SymbolMapping
import AlphaOne.DataQuality.Report
import AlphaOne.TelegramSignals.Numerals
import AlphaOne.Foundations.ExpiringCache
import AlphaOne.Exchange.RateCache
import AlphaOne.Exchange.InstrumentCache
import AlphaOne.Foundations.BackgroundTask
import AlphaOne.MarketData.StartupRetry
import AlphaOne.TelegramMtproto.Listener
import AlphaOne.Foundations.Components
import AlphaOne.Scheduler.Runner
import AlphaOne.Portfolio.DefaultAccount
import AlphaOne.Foundations.Transport
import AlphaOne.FeatureEngine.PriceMaps
import AlphaOne.SignalEngine.ResearchStrategies
import AlphaOne.SignalEngine.NoBias
import AlphaOne.SignalEngine.UnitFree
import AlphaOne.SignalEngine.MtfTrend
import AlphaOne.FeatureEngine.Ranges
import AlphaOne.Foundations.Grouped
import AlphaOne.Common.Currency
import AlphaOne.Foundations.Registers
import AlphaOne.LiveExecution.KillSwitch
import AlphaOne.ML.Pipeline
import AlphaOne.SignalEngine.Engine
import AlphaOne.ML.ModelSignal
import AlphaOne.Backtester.Closures
import AlphaOne.ML.Baselines
