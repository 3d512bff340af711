import FederatedMessaging.Common.TransactionIds
import FederatedMessaging.Common.MessageRoundTrip
import FederatedMessaging.Matrix.Backfill
import FederatedMessaging.Matrix.DomainViews
import FederatedMessaging.Participants.TerminalOutcomes
import FederatedMessaging.Participants.AckEvidence
import FederatedMessaging.Participants.Deadlines
import FederatedMessaging.Benchmark.DuplicateAcks
import FederatedMessaging.Benchmark.ClosedLoop
import FederatedMessaging.Experiments.OutcomeClassifiers
import FederatedMessaging.Experiments.Regeneration
import FederatedMessaging.Analysis.OutstandingCounts
import FederatedMessaging.Analysis.PeriodLabels
import FederatedMessaging.Analysis.PhaseLabel
import FederatedMessaging.Analysis.InputCheck
import FederatedMessaging.Agent.ExactlyOnce
import FederatedMessaging.Agent.ResponseUniqueness
import FederatedMessaging.Agent.CheckpointSafety
import FederatedMessaging.Agent.PoisonMessages
import FederatedMessaging.Agent.RecoveryCounts
import FederatedMessaging.Agent.StateFiles
import FederatedMessaging.Instrumentation.FederationComparison
import FederatedMessaging.Instrumentation.JsonlStreams
import FederatedMessaging.Experiments.MembershipGate
import FederatedMessaging.Analysis.FinalAudit
import FederatedMessaging.Analysis.PairingPartition
import FederatedMessaging.Analysis.RankLaws
import FederatedMessaging.Analysis.PrintedReport
import FederatedMessaging.Executors.Deterministic
import FederatedMessaging.Experiments.RecoveryDeadline
import FederatedMessaging.Experiments.PilotConcurrency
import FederatedMessaging.Common.Digests
import FederatedMessaging.Executors.KeyRedaction
import FederatedMessaging.Benchmark.ProtocolLock
import FederatedMessaging.Benchmark.CompletedEvidence
import FederatedMessaging.Experiments.EndToEnd
import FederatedMessaging.Benchmark.DigestVerification
import FederatedMessaging.Benchmark.FormalCampaign
import FederatedMessaging.Analysis.TableFiles
