import AegisCognition.Coordination.Message
import AegisCognition.Coordination.TaskMap

/-!
# Task specifications and task graphs

One child task, the checks of its fields, its place in the task graph, and the request that its
handler is called with.
-/

namespace Aegis.Coordination

open Foundation Text

def maxPromptChars : Nat := 32768
def maxGraphTasks : Nat := 256
def maxGraphDependencies : Nat := 4096

/-- What the code reads of a timeout in seconds: whether it is a positive finite number and, if
so, how many whole milliseconds it is. A number can be so great that there is no answer. -/
inductive Timeout
  | unusable
  | finite (wholeMs : Option Nat)
  deriving DecidableEq

structure AgentTaskSpec (Handler : Type) where
  taskId : Nat
  role : Text
  prompt : Text
  handler : Handler
  artifactNamespace : Text
  dependencies : List Nat := []
  capabilities : List Text := []
  exclusiveResources : List Text := []
  tokenBudget : Option Nat := none
  timeoutSeconds : Timeout := .finite (some 60000)
  memoryBytes : Nat := 64 * 1024 * 1024
  sideEffectClass : Text := ofString "ReadOnly"
  parentTaskId : Option Nat := none
  attemptId : Nat := 1

/-- The place of a task in the graph. -/
structure GraphTask where
  taskId : Nat
  dependencyIds : List Nat
  artifactNamespace : Text
  exclusiveResourceKeys : List Text

def agentGraphSchemaV1 : Text := ofString "aegis-agent-graph-v1"

structure AgentGraph where
  schema : Text
  tasks : List GraphTask

namespace AgentTaskSpec

variable {Handler : Type} (spec : AgentTaskSpec Handler)

def validate : Except CoordinationError Unit := do
  positiveId spec.taskId "task_id"
  nonEmpty spec.role "role" 256
  nonEmpty spec.prompt "prompt" maxPromptChars
  nonEmpty spec.artifactNamespace "artifact_namespace" 512
  require (decide (spec.dependencies.length ≤ maxGraphDependencies))
    "dependencies exceed their bound"
  checkEach (fun dependency => do
    positiveId dependency "dependency id"
    require (dependency != spec.taskId) "task cannot depend on itself") spec.dependencies
  require (decide spec.dependencies.Nodup) "dependencies must not contain duplicates"
  stringTuple spec.capabilities "capabilities" 64
  stringTuple spec.exclusiveResources "exclusive_resources" 64
  checkSome (positiveInt · "token_budget") spec.tokenBudget
  require (decide (spec.timeoutSeconds ≠ .unusable))
    "timeout_seconds must be a positive finite number"
  positiveInt spec.memoryBytes "memory_bytes"
  nonEmpty spec.sideEffectClass "side_effect_class" 128
  checkParent spec.taskId spec.parentTaskId "parent_task_id"
  positiveInt spec.attemptId "attempt_id"

def graphDict : Except CoordinationError GraphTask := do
  spec.validate
  .ok
    { taskId := spec.taskId, dependencyIds := spec.dependencies
      artifactNamespace := spec.artifactNamespace
      exclusiveResourceKeys := spec.exclusiveResources }

end AgentTaskSpec

/-- `_graph_payload`. -/
def graphPayload {Handler : Type} (specs : List (AgentTaskSpec Handler)) :
    Except CoordinationError AgentGraph := do
  .ok { schema := agentGraphSchemaV1, tasks := ← specs.mapM AgentTaskSpec.graphDict }

/-! ## The two validators of a task graph

The Python code and the Rust code check a graph of tasks one by one, then the edges as a whole,
and list the tasks in the order in which they may start. Both count for every task the
dependencies that are still open; they keep the ready tasks in a sorted list and in an ordered
set. A Rust string is a text without surrogates, and its length is that of its UTF-8 bytes. -/

/-! ### The Python validator -/

structure GraphValidation where
  graphHash : Text
  topologicalOrder : List Nat
  taskCount : Nat

def GraphTask.canonical (task : GraphTask) : JsonValue :=
  dict
    [("task_id", .int task.taskId),
      ("dependency_ids", .list ((task.dependencyIds.insertionSort (· ≤ ·)).map .int)),
      ("artifact_namespace", .text task.artifactNamespace),
      ("exclusive_resource_keys",
        texts (task.exclusiveResourceKeys.insertionSort fun first second => first.le second))]

/-- The tasks of a graph that have been checked, the namespaces that they have, and the tasks as
they were. -/
structure GraphScan where
  taskMap : TaskMap := []
  namespaces : List Text := []
  canonicalTasks : List GraphTask := []

/-- The check of one task by `_local_graph_validation`. -/
def GraphScan.check (scan : GraphScan) (task : GraphTask) : Except CoordinationError GraphScan := do
  positiveId task.taskId "graph task_id"
  require (!scan.taskMap.ids.contains task.taskId) "agent graph task ids must be unique"
  checkEach (positiveId · "graph dependency id") task.dependencyIds
  require (decide (task.dependencyIds.length ≤ maxGraphDependencies) &&
    decide task.dependencyIds.Nodup) "graph dependencies are invalid or exceed their bound"
  require (!task.dependencyIds.contains task.taskId) "graph task cannot depend on itself"
  nonEmpty task.artifactNamespace "graph artifact_namespace" 512
  require (!scan.namespaces.contains task.artifactNamespace) "artifact namespaces must be disjoint"
  stringTuple task.exclusiveResourceKeys "graph exclusive_resource_keys" 64
  .ok
    { taskMap := scan.taskMap ++ [(task.taskId, task.dependencyIds)]
      namespaces := scan.namespaces ++ [task.artifactNamespace]
      canonicalTasks := scan.canonicalTasks ++ [task] }

/-- `ready.append` and `ready.sort`. -/
def appendSorted (child : Nat) (ready : List Nat) : List Nat :=
  (ready ++ [child]).insertionSort (· ≤ ·)

/-- The order in which the tasks may start. There are at most as many rounds as tasks. -/
def TaskMap.topological (tasks : TaskMap) : List Nat :=
  kahn appendSorted (fun taskId => (tasks.children taskId).insertionSort (· ≤ ·)) tasks.length
    tasks.indegree (tasks.roots.insertionSort (· ≤ ·))

def missingDependency (taskId : Nat) : String :=
  "agent graph task " ++ toString taskId ++ " references a missing dependency"

/-- `_local_graph_validation`. -/
def localGraphValidation (sha256 : Sha256) (graph : AgentGraph) :
    Except CoordinationError GraphValidation := do
  require (decide (graph.schema = agentGraphSchemaV1)) "agent graph schema is unsupported"
  require (decide (graph.tasks.length ≤ maxGraphTasks)) "agent graph exceeds its task bound"
  let scan ← graph.tasks.foldlM GraphScan.check {}
  let tasks := scan.taskMap
  require (decide ((tasks.map (·.2.length)).sum ≤ maxGraphDependencies))
    "agent graph dependency edge count exceeds its bound"
  checkEach (fun task => require (task.2.all tasks.ids.contains) (missingDependency task.1)) tasks
  let topologicalOrder := tasks.topological
  require (decide (topologicalOrder.length = tasks.length)) "agent graph contains a cycle"
  let canonicalTasks := scan.canonicalTasks.insertionSort fun first second =>
    first.taskId ≤ second.taskId
  let graphHash ← digestOf sha256 <| dict
    [("schema", .text agentGraphSchemaV1),
      ("tasks", .list (canonicalTasks.map GraphTask.canonical))]
  .ok { graphHash, topologicalOrder, taskCount := tasks.length }

/-! ### The Rust validator -/

inductive AgentGraphError
  | inputSize
  | json
  | schema
  | taskBound
  | dependencyBound
  | resourceBound
  | invalidTaskId
  | duplicateTaskId
  | invalidDependency
  | missingDependency
  | cycle
  | duplicateNamespace
  | invalidString
  | duplicateResourceKey

/-- A Rust string: Unicode scalar values. -/
abbrev RustString := { text : Text // text.any isSurrogate = false }

/-- `String::len`. -/
def RustString.len (value : RustString) : Nat :=
  (value.val.flatMap encodePoint).length

structure AgentGraphTask where
  taskId : Nat
  dependencyIds : List Nat
  artifactNamespace : RustString
  exclusiveResourceKeys : List RustString

structure AgentGraphRequest where
  schema : RustString
  tasks : List AgentGraphTask

/-- What the JSON of a text is read as; a text with a surrogate has no JSON. -/
def decodeString (value : Text) : Except AgentGraphError RustString :=
  if h : value.any isSurrogate = false then .ok ⟨value, h⟩ else .error .json

def decodeU128 (value : Nat) : Except AgentGraphError Nat :=
  if value < 2 ^ 128 then .ok value else .error .json

def GraphTask.decode (task : GraphTask) : Except AgentGraphError AgentGraphTask := do
  .ok
    { taskId := ← decodeU128 task.taskId
      dependencyIds := ← task.dependencyIds.mapM decodeU128
      artifactNamespace := ← decodeString task.artifactNamespace
      exclusiveResourceKeys := ← task.exclusiveResourceKeys.mapM decodeString }

/-- The request that the JSON of a graph is read as. -/
def AgentGraph.decode (graph : AgentGraph) : Except AgentGraphError AgentGraphRequest := do
  .ok { schema := ← decodeString graph.schema, tasks := ← graph.tasks.mapM GraphTask.decode }

def maxAgentGraphStringBytes : Nat := 4096
def maxAgentGraphResources : Nat := 64

structure AgentGraphValidation where
  graphHash : Text
  topologicalOrder : List Nat
  taskCount : Nat

/-- A string that is not empty, short in bytes, and holds no NUL. -/
def RustString.isValid (value : RustString) : Bool :=
  !value.val.isEmpty && decide (value.len ≤ maxAgentGraphStringBytes) && !value.val.contains 0

/-- What the loop of `validate` over the tasks has read. -/
structure AgentGraphScan where
  taskMap : TaskMap := []
  namespaces : List RustString := []
  canonicalTasks : List AgentGraphTask := []
  edgeCount : Nat := 0

/-- The check of one task by `validate`. A repeated dependency or key is one that sorting and
deduplicating drops. -/
def AgentGraphScan.check (scan : AgentGraphScan) (task : AgentGraphTask) :
    Except AgentGraphError AgentGraphScan := do
  refuseWhen (task.taskId = 0) .invalidTaskId
  refuseWhen (task.taskId ∈ scan.taskMap.ids) .duplicateTaskId
  refuseWhen (!task.artifactNamespace.isValid) .invalidString
  refuseWhen (task.artifactNamespace ∈ scan.namespaces) .duplicateNamespace
  refuseWhen (maxGraphDependencies < task.dependencyIds.length) .dependencyBound
  let dependencies := (task.dependencyIds.insertionSort (· ≤ ·)).dedup
  refuseWhen (dependencies.length ≠ task.dependencyIds.length ∨
    ∃ dependency ∈ dependencies, dependency = 0 ∨ dependency = task.taskId) .invalidDependency
  refuseWhen (∃ key ∈ task.exclusiveResourceKeys, !key.isValid) .invalidString
  let resourceKeys := (task.exclusiveResourceKeys.insertionSort fun first second =>
    first.val.le second.val).dedup
  refuseWhen (resourceKeys.length ≠ task.exclusiveResourceKeys.length) .duplicateResourceKey
  refuseWhen (maxAgentGraphResources < resourceKeys.length) .resourceBound
  let edgeCount := scan.edgeCount + dependencies.length
  refuseWhen (maxGraphDependencies < edgeCount) .dependencyBound
  .ok
    { taskMap := scan.taskMap.orderedInsert (fun first second => first.1 ≤ second.1)
        (task.taskId, dependencies)
      namespaces := scan.namespaces ++ [task.artifactNamespace]
      canonicalTasks := scan.canonicalTasks ++
        [{ task with dependencyIds := dependencies, exclusiveResourceKeys := resourceKeys }]
      edgeCount }

/-- `validate`; `graphHash` is the BLAKE3 hash of the JSON of the canonical tasks. -/
def AgentGraphRequest.validate (graphHash : List AgentGraphTask → Text)
    (request : AgentGraphRequest) : Except AgentGraphError AgentGraphValidation := do
  refuseWhen (request.schema.val ≠ agentGraphSchemaV1) .schema
  refuseWhen (maxGraphTasks < request.tasks.length) .taskBound
  let scan ← request.tasks.foldlM AgentGraphScan.check {}
  let tasks := scan.taskMap
  refuseWhen (∃ task ∈ tasks, ∃ dependency ∈ task.2, dependency ∉ tasks.ids) .missingDependency
  let topologicalOrder := tasks.topologicalOrder
  refuseWhen (topologicalOrder.length ≠ tasks.length) .cycle
  let canonicalTasks := scan.canonicalTasks.insertionSort fun first second =>
    first.taskId ≤ second.taskId
  .ok { graphHash := graphHash canonicalTasks, topologicalOrder, taskCount := tasks.length }

/-! ### The call from Python to Rust -/

def GraphTask.payload (task : GraphTask) : JsonValue :=
  dict
    [("task_id", .int task.taskId), ("dependency_ids", .list (task.dependencyIds.map .int)),
      ("artifact_namespace", .text task.artifactNamespace),
      ("exclusive_resource_keys", texts task.exclusiveResourceKeys)]

def AgentGraph.payload (graph : AgentGraph) : JsonValue :=
  dict [("schema", .text graph.schema), ("tasks", .list (graph.tasks.map GraphTask.payload))]

def maxAgentGraphInputJsonBytes : Nat := 1024 * 1024

/-- `aegis_agent_graph_validate` on the JSON of a graph, which is bounded before it is read. -/
def AgentGraph.nativeValidation (graphHash : List AgentGraphTask → Text) (graph : AgentGraph) :
    Except AgentGraphError AgentGraphValidation :=
  match canonicalBytes graph.payload with
  | .error _ => .error .json
  | .ok graphJson => do
    refuseWhen (graphJson = [] ∨ maxAgentGraphInputJsonBytes < graphJson.length) .inputSize
    (← graph.decode).validate graphHash

end Aegis.Coordination
