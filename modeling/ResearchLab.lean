import ResearchLab.Foundation.Machine
import ResearchLab.Foundation.Table
import ResearchLab.Ownership.Fencing
import ResearchLab.Ownership.Waiting
import ResearchLab.Ownership.Supervisor
import ResearchLab.ComputeQueue.Materialization
import ResearchLab.ComputeQueue.Recovery
import ResearchLab.FarmTasks.Audit
import ResearchLab.FarmTasks.Heartbeat
import ResearchLab.FarmTasks.Fairness
import ResearchLab.FarmTasks.Recovery
import ResearchLab.Coordinator.Handoff
import ResearchLab.Coordinator.FollowUps
import ResearchLab.Simulation.Agreement
import ResearchLab.Simulation.Acceptance
import ResearchLab.Simulation.SmallPrices
import ResearchLab.Simulation.Capacity
import ResearchLab.Simulation.ExitParity
import ResearchLab.Simulation.Excursions
import ResearchLab.Simulation.Intrabar
import ResearchLab.Signals.Parity
import ResearchLab.Signals.RetestHistory
import ResearchLab.Signals.TakenBack
import ResearchLab.AccountLedger.Hindsight
import ResearchLab.Archive.Integrity
import ResearchLab.Canary.Supervision
import ResearchLab.Candles.LastAcquired
import ResearchLab.PaperLane.Delivery
import ResearchLab.Validation.Authority
import ResearchLab.Validation.DueTasks
import ResearchLab.Validation.Backoff
import ResearchLab.Validation.Retries
import ResearchLab.Telegram.Delivery
import ResearchLab.Telegram.Report
import ResearchLab.Invocations.Agreement
import ResearchLab.Search.Export
import ResearchLab.Search.Coverage
import ResearchLab.Search.Split
import ResearchLab.ProjectBrain.WriteLock
import ResearchLab.ProjectBrain.Rebuild
import ResearchLab.Scout.Ingest
import ResearchLab.TrueForward.Passes
import ResearchLab.SegmentStore.TornHeader
import ResearchLab.Search.GridSampling
import ResearchLab.TradePath.OwnTrades
import ResearchLab.RuntimeStorage.Tee
import ResearchLab.RuntimeStorage.Archivers
import ResearchLab.RuntimeStorage.Restored
import ResearchLab.Providers.Windows
import ResearchLab.TradeThesis.Incremental
import ResearchLab.TradeThesis.Logging
import ResearchLab.TrainingExport.Skips
import ResearchLab.PaperSignals.SlotAccounting
import ResearchLab.PaperLane.Stranding
import ResearchLab.OutcomeMemory.Counting
import ResearchLab.Foundation.Prefixes
import ResearchLab.BackupRetention.Capacity
import ResearchLab.BackupRetention.Build
