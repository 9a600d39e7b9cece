import InferenceRouter.Budget.Admission
import InferenceRouter.Budget.Cap
import InferenceRouter.Budget.LockTrace
import InferenceRouter.Budget.Reaper
import InferenceRouter.Budget.Reordering
import InferenceRouter.Budget.Settlement
import InferenceRouter.Classifier.Stability
import InferenceRouter.Dashboard.Live
import InferenceRouter.Latency.Spikes
import InferenceRouter.Queue.Slots
import InferenceRouter.Service.Cancellation
import InferenceRouter.Service.Counts
import InferenceRouter.Service.Feasibility
import InferenceRouter.Service.Overlap
import InferenceRouter.Service.Progress
import InferenceRouter.Service.Soundness
import InferenceRouter.Service.Spend
import InferenceRouter.Service.Traffic
