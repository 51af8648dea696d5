import AegisCognition.Resource.CooperativeFencing
import AegisCognition.Runtime.Dependency
import AegisCognition.Runtime.Placement
import AegisCognition.Runtime.Retry
import AegisCognition.Runtime.Parked
import AegisCognition.Conversation.Revision
import AegisCognition.Conversation.Timing
import AegisCognition.Conversation.Restart
import AegisCognition.Conversation.Structure
import AegisCognition.Lab.Unit
import AegisCognition.Lab.Spending
import AegisCognition.Lab.StateLog
import AegisCognition.Lab.Totality
import AegisCognition.Lab.Settlement
import AegisCognition.Goal.Narrowing
import AegisCognition.Goal.Progress
import AegisCognition.Cluster.Exclusivity
import AegisCognition.Memory.Refinement
import AegisCognition.Memory.Folding
import AegisCognition.MemoryStore.Idempotency
import AegisCognition.Coordination.Delivery
import AegisCognition.Coordination.GraphAgreement
import AegisCognition.LabGoal.Grants
import AegisCognition.Replay.Validity
import AegisCognition.Replay.CacheTransparency
import AegisCognition.Resource.Queue
import AegisCognition.Resource.Hysteresis
import AegisCognition.Runtime.Drain
import AegisCognition.Runtime.Finish
import AegisCognition.Placement.Listing
import AegisCognition.Placement.Deadline
import AegisCognition.Placement.Agreement
import AegisCognition.Placement.Cost
import AegisCognition.Coordination.Journal
import AegisCognition.Coordination.PeerReply
import AegisCognition.Coordination.ModelChild
import AegisCognition.Task.StateHash
import AegisCognition.Gateway.Calls
import AegisCognition.Gateway.Closure
import AegisCognition.Context.Order
import AegisCognition.Learning.Ledger
import AegisCognition.Witness.Threshold
import AegisCognition.Evidence.Program
