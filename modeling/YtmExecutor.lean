import YtmExecutor.Interaction.Prog
import YtmExecutor.Interaction.Safe
import YtmExecutor.Interaction.Alike
import YtmExecutor.Interaction.Restart
import YtmExecutor.Decimal.Context
import YtmExecutor.Decimal.Text
import YtmExecutor.Decimal.Number
import YtmExecutor.Python.Runtime
import YtmExecutor.Python.Text
import YtmExecutor.Python.Value
import YtmExecutor.Guards
import YtmExecutor.Python.Hashlib
import YtmExecutor.Python.Datetime
import YtmExecutor.Adapters
import YtmExecutor.Risk
import YtmExecutor.RiskState
import YtmExecutor.OkxSwap.Orders
import YtmExecutor.OkxSwap.Replies
import YtmExecutor.OkxSwap.Protection
import YtmExecutor.OkxSwap.Adapter
import YtmExecutor.BinanceFutures
import YtmExecutor.Stores
import YtmExecutor.Client
import YtmExecutor.Preflight
import YtmExecutor.Cli
import YtmExecutor.Gates
import YtmExecutor.FailClosed
import YtmExecutor.AtMostOnce
import YtmExecutor.OkxSwap.Reports
import YtmExecutor.NoFalseRejection
import YtmExecutor.Noninterference
import YtmExecutor.RiskFile
import YtmExecutor.Drawdown
import YtmExecutor.Decimal.Step
import YtmExecutor.OkxSwap.Prices
import YtmExecutor.FuturesGate
import YtmExecutor.CredentialValidation
import YtmExecutor.MarginMode
import YtmExecutor.Interaction.Run
import YtmExecutor.OkxSwap.Runs
import YtmExecutor.OkxSwap.Remediation
import YtmExecutor.OkxSwap.SideEffects
import YtmExecutor.OkxSwap.Acceptance
import YtmExecutor.OkxSwap.Recognition
import YtmExecutor.Python.Json
import YtmExecutor.SecretKeys
import YtmExecutor.Egress
import YtmExecutor.ExecutionCache
import YtmExecutor.Reconciliation
import YtmExecutor.Snapshots
import YtmExecutor.CloseSources
import YtmExecutor.ReconciliationLoop
import YtmExecutor.FillsHistory
import YtmExecutor.Overflow
import YtmExecutor.OkxSwap.Renaming
import YtmExecutor.Settlement
import YtmExecutor.NoPoison
import YtmExecutor.OkxSwap.Statuses
import YtmExecutor.OkxSwap.Entries
import YtmExecutor.RiskRoundTrip
import YtmExecutor.DayLoss
import YtmExecutor.RiskPolicyFile
import YtmExecutor.PolicyRoundTrip
import YtmExecutor.Tightening
import YtmExecutor.OkxSwap.Sizes
import YtmExecutor.FillSources
import YtmExecutor.Python.JsonText
import YtmExecutor.Python.JsonRoundTrip
import YtmExecutor.Python.JsonReload
import YtmExecutor.TornWrites
import YtmExecutor.BinanceRules
import YtmExecutor.Python.Keyed
import YtmExecutor.ValidationStore
import YtmExecutor.Python.Bytes
import YtmExecutor.Symbols
import YtmExecutor.Python.JsonFlat
import YtmExecutor.SecretFiles
import YtmExecutor.Python.Reordering
import YtmExecutor.ReplyOrder
import YtmExecutor.SnapshotOrder
import YtmExecutor.Interaction.Refinement
import YtmExecutor.Interaction.Ledger
import YtmExecutor.ResultLedger
import YtmExecutor.Answers
import YtmExecutor.Interaction.FileRegister
import YtmExecutor.RiskThreads
import YtmExecutor.Validation
import YtmExecutor.CredentialEvidence
import YtmExecutor.OrderEvidence
import YtmExecutor.PolicyThreads
import YtmExecutor.Enrollment
