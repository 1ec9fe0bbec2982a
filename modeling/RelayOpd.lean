import RelayOpd.RelayRefine
import RelayOpd.RelayLoops
import RelayOpd.RelayStep
import RelayOpd.RelayReference
import RelayOpd.Budget
import RelayOpd.TakeoverRow
import RelayOpd.RelayRun
import RelayOpd.TakeoverBudget
import RelayOpd.TakeoverCount
import RelayOpd.DraftProbs
import RelayOpd.WordBytes
import RelayOpd.PyJson
import RelayOpd.MaskCodec
import RelayOpd.MaskRoundTrip
import RelayOpd.MaskServer
import RelayOpd.MaskAlign
import RelayOpd.FanIn
import RelayOpd.MaskReadiness
import RelayOpd.PolicyLoss
import RelayOpd.DistillationLoss
import RelayOpd.RelayLoss
import RelayOpd.TokenSource
import RelayOpd.SkdSampler
import RelayOpd.Verification
import RelayOpd.EngineStep
import RelayOpd.EngineRun
import RelayOpd.TokenLabels
import RelayOpd.StudentActions
import RelayOpd.LossSplit
import RelayOpd.Unpadding
import RelayOpd.OnlineTeacher
import RelayOpd.OfflineTeacher
import RelayOpd.LoadBalancer
import RelayOpd.Chunks
import RelayOpd.KarmarkarKarp
import RelayOpd.BalanceBatch
import RelayOpd.TensorTable
import RelayOpd.DynamicBatch
import RelayOpd.GroupAdvantage
import RelayOpd.RelayFields
import RelayOpd.AdvantageOrder
import RelayOpd.ForwardKl
import RelayOpd.VocabParallel
import RelayOpd.MetaInfo
import RelayOpd.ProtoObject
import RelayOpd.AutoPadding
import RelayOpd.Rebatch
import RelayOpd.Jagged
import RelayOpd.TensorColumns
import RelayOpd.TensorChunks
import RelayOpd.TensorJoins
import RelayOpd.NdDispatch
import RelayOpd.ToolAgentLoop
import RelayOpd.TurnMask
import RelayOpd.PartialRollout
import RelayOpd.AsyncRollout
import RelayOpd.AsyncStaleness
import RelayOpd.AsyncProgress
import RelayOpd.BucketedTransfer
import RelayOpd.WeightBroadcast
import RelayOpd.BroadcastRun
import RelayOpd.BroadcastLossless
import RelayOpd.ContextParallel
import RelayOpd.ContextParallelChunks
import RelayOpd.ThdRows
import RelayOpd.BshdRows
import RelayOpd.ContextParallelTrip
import RelayOpd.RowGaps
import RelayOpd.StopSlots
import RelayOpd.StopEvents
import RelayOpd.StopRun
import RelayOpd.StopStrip
import RelayOpd.TrainingResume
import RelayOpd.CheckpointRun
import RelayOpd.CheckpointSafety
import RelayOpd.ReplayBuffer
import RelayOpd.ReplaySampling
import RelayOpd.ReplaySafety
import RelayOpd.Rolled
import RelayOpd.SftPacking
import RelayOpd.PackedAgreement
import RelayOpd.OptimStep
import RelayOpd.OptimCuts
import RelayOpd.OptimRows
import RelayOpd.OptimLosses
import RelayOpd.OptimPacked
import RelayOpd.OptimSplit
import RelayOpd.OptimInvariance
import RelayOpd.BackwardReturns
import RelayOpd.GroupLabels
import RelayOpd.VectorizedAdvantage
import RelayOpd.TurnBaseline
import RelayOpd.TokenBudget
import RelayOpd.SkdRecovery
import RelayOpd.TokenStats
import RelayOpd.DraftNucleus
import RelayOpd.KlBackward
import RelayOpd.TensorCodec
import RelayOpd.AsyncTail
import RelayOpd.ColumnChunks
import RelayOpd.PyText
import RelayOpd.RolloutRejection
import RelayOpd.RewardPlacement
import RelayOpd.Gemma4Padding
import RelayOpd.TokenBucket
import RelayOpd.TrajectoryMerge
import RelayOpd.Highest
import RelayOpd.SessionKeys
import RelayOpd.MultiTrajectory
import RelayOpd.PaddingRows
import RelayOpd.ModelMerger
import RelayOpd.MultiTurnSft
import RelayOpd.ValidationMetrics
import RelayOpd.Validation
import RelayOpd.MegatronShards
import RelayOpd.LayerMap
import RelayOpd.PipelineShards
