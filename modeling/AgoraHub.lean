import AgoraHub.BudgetReplayRuns
import AgoraHub.TaskPlanPacking
import AgoraHub.GraphCompilerSpec
import AgoraHub.TaskPlanAdmission
import AgoraHub.WorkerLoopRuns
import AgoraHub.AttemptCountRuns
import AgoraHub.AttemptAdmission
import AgoraHub.AttemptLifecycle
import AgoraHub.EventGenerations
import AgoraHub.EventTimestamps
import AgoraHub.RuntimeProjectionFold
import AgoraHub.ContextRounds
import AgoraHub.BudgetSettleRetry
import AgoraHub.CatalogRetention
import AgoraHub.ResultQuotaRuns
import AgoraHub.SideEffectAgreementRuns
import AgoraHub.TaskPlanReplanRuns
import AgoraHub.TaskPlanPatchErrors
import AgoraHub.WaitInboxRuns
import AgoraHub.GcRuntimeRuns
import AgoraHub.BudgetPreflight
import AgoraHub.TaskPlanAdmitReady
import AgoraHub.IdempotencyKeys
import AgoraHub.ConversationUnits
import AgoraHub.CheckpointLog
import AgoraHub.SchedulerQueue
