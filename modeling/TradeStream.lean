import TradeStream.Transducer
import TradeStream.CandleRollUp
import TradeStream.CandleOrder
import TradeStream.StrategyConsumer
import TradeStream.ProtobufWire
import TradeStream.TextEncoding
import TradeStream.DiscoveredStrategy
import TradeStream.KeyedTable
import TradeStream.StrategyRepository
import TradeStream.OrderSimulator
import TradeStream.OrderAccounting
import TradeStream.RunSteps
import TradeStream.OrderTurns
import TradeStream.OrderFills
import TradeStream.OrderSolvency
import TradeStream.ParamConfigs
import TradeStream.GenotypeCreation
import TradeStream.Fallible
import TradeStream.IndicatorRegistry
import TradeStream.RuleRegistry
import TradeStream.ConfigurableStrategyFactory
import TradeStream.StrategyBuild
import TradeStream.StrategyConfigValidation
import TradeStream.GeneratedSpecValidation
import TradeStream.PnlEngine
import TradeStream.PnlConservation
import TradeStream.WhileLoop
import TradeStream.WalkForward
import TradeStream.SeriesRules
import TradeStream.YamlStrategyLoader
import TradeStream.BacktestAgreement
import TradeStream.ConditionEvaluator
import TradeStream.LiveAgreement
import TradeStream.IndicatorComputer
import TradeStream.ExecutionEngine
import TradeStream.AlternatingLists
import TradeStream.SignalSessions
import TradeStream.BufferWindow
import TradeStream.PaperTradingStore
import TradeStream.PortfolioBalance
import TradeStream.PaperTradingSession
import TradeStream.CircuitBreaker
import TradeStream.SortedWindow
import TradeStream.AdaptiveScheduler
import TradeStream.PaperTradingClose
import TradeStream.PaperTradingCash
import TradeStream.DiscoveryRequests
import TradeStream.CandleIngestor
import TradeStream.GlobalStatus
import TradeStream.CandleBackfill
import TradeStream.PortfolioState
import TradeStream.UnrealizedPnl
import TradeStream.PaperTradingBuys
import TradeStream.RunLock
import TradeStream.RunnerCycles
import TradeStream.SignalCache
import TradeStream.DeadLetterQueue
import TradeStream.ModelRouter
import TradeStream.OrchestrationLoop
import TradeStream.JsonText
import TradeStream.StrategyVersions
import TradeStream.VersionHistory
import TradeStream.BillingWebhook
import TradeStream.BillingOrder
import TradeStream.SignalDelivery
import TradeStream.SignalExposure
import TradeStream.Interleaving
import TradeStream.SignalQuota
import TradeStream.RefreshTokens
import TradeStream.UserStrategyConfig
import TradeStream.StrategyBuilderApi
import TradeStream.PublishedPerformance
import TradeStream.PositionAccounting
import TradeStream.OrderChanges
import TradeStream.MarketplaceCounters
import TradeStream.IntText
import TradeStream.AgentStream
import TradeStream.Layers
import TradeStream.ConfigLayers
import TradeStream.RetirementCriteria
import TradeStream.JanitorAgent
import TradeStream.PaperTradingStarts
import TradeStream.KillSwitch
import TradeStream.TradingViewModels
import TradeStream.TradingViewAlerts
import TradeStream.RowNumber
import TradeStream.RetirementLog
import TradeStream.RiskLimits
import TradeStream.DeliveryRouter
import TradeStream.NotificationRouter
import TradeStream.DeliveryRateLimiter
import TradeStream.PineScript
import TradeStream.LookAhead
import TradeStream.OrderLimits
import TradeStream.OrderLiquidity
import TradeStream.OrderExpiry
import TradeStream.LotOrder
import TradeStream.BacktestScore
import TradeStream.StrategyValidator
import TradeStream.PortfolioBacktest
import TradeStream.IndicatorLibrary
import TradeStream.BreakerSafety
import TradeStream.LeastSquares
import TradeStream.RegimeDetector
import TradeStream.OscillatorRange
import TradeStream.CandleAggregation
import TradeStream.OrchestrationState
import TradeStream.OutcomeTracker
import TradeStream.DecimalContext
import TradeStream.PaperExecution
import TradeStream.EngineListeners
import TradeStream.RouterFallback
import TradeStream.BudgetCap
import TradeStream.TradeValidation
import TradeStream.DrawdownLimit
import TradeStream.RunningMaximum
import TradeStream.RiskAnalytics
import TradeStream.OpportunityScore
import TradeStream.ScoreBreakdown
import TradeStream.SignalFusion
import TradeStream.DeliveryBudget
import TradeStream.FramaIndicator
import TradeStream.ConfigDiff
import TradeStream.UnstablePeriod
import TradeStream.PerformanceTracker
import TradeStream.PositionSizing
import TradeStream.EmaMacdSignals
import TradeStream.SignalAggregation
import TradeStream.StrategyConsensus
import TradeStream.TimeframeAnalyzer
import TradeStream.TimeframeConfluence
import TradeStream.TradeReplay
import TradeStream.ExponentialAverage
import TradeStream.DirectionalMovement
import TradeStream.JsonSize
import TradeStream.DecisionSizes
import TradeStream.Glob
import TradeStream.LogRotation
import TradeStream.LogRetention
import TradeStream.RelationIndex
import TradeStream.MarketDataBroadcaster
import TradeStream.FixedWindow
import TradeStream.RateLimitStore
import TradeStream.BacktestEngine
import TradeStream.Hysteresis
import TradeStream.RenkoChart
import TradeStream.Reactivation
import TradeStream.Succession
import TradeStream.WeightOptimizer
import TradeStream.ParameterAdapter
import TradeStream.Batching
import TradeStream.KafkaConsumer
import TradeStream.SignalFanout
import TradeStream.SlidingLog
import TradeStream.ApiKeys
import TradeStream.SignalStream
import TradeStream.OpportunityAggregator
import TradeStream.OpportunityService
