import AegisCognition.Coordination.Graph
import Mathlib.Algebra.BigOperators.Group.List.Basic
import Mathlib.Data.List.Lex

/-!
# The agreement of the graph validators

Both validators accept the same graphs and list the tasks in the same order, the smallest one
that respects all dependencies, as long as the texts have JSON, no resource key is longer than
4096 bytes and the JSON of the graph no longer than a mebibyte. The Python checks count
characters, and not those of the whole graph: what passes them and has more bytes is refused by
the Rust code.
-/

namespace Aegis.Coordination

open Foundation AgentGraphTask JsonValue Text TaskMap AgentGraph AgentGraphScan List

/-! ### The order of the Python validator -/

namespace TaskMap

variable {tasks : TaskMap} {taskId child : Nat}

theorem appendSorted_spec (child : Nat) (ready : List Nat) (sorted : ready.Pairwise (· < ·))
    (fresh : child ∉ ready) :
    (appendSorted child ready).Pairwise (· < ·) ∧
      ∀ taskId, taskId ∈ appendSorted child ready ↔ taskId = child ∨ taskId ∈ ready := by
  constructor
  · refine pairwise_lt_insertionSort (nodup_append.mpr
      ⟨sorted.imp Nat.ne_of_lt, nodup_singleton child, ?_⟩)
    rintro taskId mem _ new rfl
    exact fresh (mem_singleton.mp new ▸ mem)
  · intro taskId
    rw [appendSorted, mem_insertionSort, mem_append, mem_singleton, or_comm]

theorem topological_eq (wf : tasks.WellFormed) :
    tasks.topological = smallestFirst tasks.nodes tasks.needs tasks.length ∅ := by
  refine kahn_eq appendSorted_spec (fun taskId _ => ?_) (fun taskId _ child => ?_)
    (tracks wf (pairwise_lt_insertionSort (nodup_roots wf)) fun _ => mem_insertionSort ..)
  · exact (perm_insertionSort ..).nodup_iff.mpr (nodup_children wf)
  · rw [mem_insertionSort]
    exact mem_children wf

end TaskMap

/-! ### What the validators decide -/

/-- What the checks of a specification say about its place in the graph. -/
structure GraphTask.Valid (task : GraphTask) : Prop where
  id : 1 ≤ task.taskId ∧ task.taskId ≤ agentIdMax
  dependencies : ∀ dependency ∈ task.dependencyIds,
    (1 ≤ dependency ∧ dependency ≤ agentIdMax) ∧ dependency ≠ task.taskId
  distinct : task.dependencyIds.Nodup
  few : task.dependencyIds.length ≤ maxGraphDependencies
  «namespace» : isNonEmpty task.artifactNamespace 512
  resources : task.exclusiveResourceKeys.length ≤ 64 ∧
    (∀ key ∈ task.exclusiveResourceKeys, isNonEmpty key maxStringChars) ∧
    task.exclusiveResourceKeys.Nodup

/-- The first task has to be done before the second one. -/
def Unblocks (tasks : List GraphTask) (first second : Nat) : Prop :=
  ∃ task ∈ tasks, task.taskId = second ∧ first ∈ task.dependencyIds

/-- No id and no namespace repeats, no dependency is missing or cyclic, and no bound of the graph
is exceeded. -/
structure GraphOk (tasks : List GraphTask) : Prop where
  size : tasks.length ≤ maxGraphTasks
  ids : (tasks.map GraphTask.taskId).Nodup
  namespaces : (tasks.map GraphTask.artifactNamespace).Nodup
  closed : ∀ task ∈ tasks, ∀ dependency ∈ task.dependencyIds,
    dependency ∈ tasks.map GraphTask.taskId
  acyclic : ∀ taskId, ¬ Relation.TransGen (Unblocks tasks) taskId taskId
  edges : (tasks.map fun task => task.dependencyIds.length).sum ≤ maxGraphDependencies

/-- No text of the graph holds a surrogate. -/
def Encodable (tasks : List GraphTask) : Prop :=
  ∀ task ∈ tasks, task.artifactNamespace.any isSurrogate = false ∧
    ∀ key ∈ task.exclusiveResourceKeys, key.any isSurrogate = false

/-- No resource key has too many bytes for the Rust code. -/
def KeysFit (tasks : List GraphTask) : Prop :=
  ∀ task ∈ tasks, ∀ key ∈ task.exclusiveResourceKeys,
    (key.flatMap encodePoint).length ≤ maxAgentGraphStringBytes

/-- The JSON of the graph is not too long for the Rust code. -/
def AgentGraph.JsonFits (graph : AgentGraph) : Prop :=
  ∀ graphJson, canonicalBytes graph.payload = .ok graphJson →
    graphJson.length ≤ maxAgentGraphInputJsonBytes

instance (tasks : List GraphTask) : Decidable (Encodable tasks) :=
  inferInstanceAs (Decidable (∀ task ∈ tasks, _ ∧ _))

instance (tasks : List GraphTask) : Decidable (KeysFit tasks) :=
  inferInstanceAs (Decidable (∀ task ∈ tasks, ∀ key ∈ task.exclusiveResourceKeys, _ ≤ _))

instance (graph : AgentGraph) : Decidable graph.JsonFits :=
  match encoded : canonicalBytes graph.payload with
  | .error _ => .isTrue (by simp [AgentGraph.JsonFits, encoded])
  | .ok graphJson =>
    decidable_of_iff (graphJson.length ≤ maxAgentGraphInputJsonBytes)
      (by simp [AgentGraph.JsonFits, encoded])

/-- Every task is listed once, and after all its dependencies. -/
def Respects (tasks : List GraphTask) (order : List Nat) : Prop :=
  order.Perm (tasks.map GraphTask.taskId) ∧
    ∀ first taskId rest, order = first ++ taskId :: rest →
      ∀ dependency, Unblocks tasks dependency taskId → dependency ∈ first

/-- The lexicographically smallest order that respects the dependencies. -/
def IsSmallestOrder (tasks : List GraphTask) (order : List Nat) : Prop :=
  Respects tasks order ∧
    ∀ other, Respects tasks other → order = other ∨ List.Lex (· < ·) order other

section Specs

variable {Handler : Type} {spec : AgentTaskSpec Handler} {task : GraphTask}

def AgentTaskSpec.graphTask (spec : AgentTaskSpec Handler) : GraphTask where
  taskId := spec.taskId
  dependencyIds := spec.dependencies
  artifactNamespace := spec.artifactNamespace
  exclusiveResourceKeys := spec.exclusiveResources

theorem AgentTaskSpec.graphDict_eq_ok_iff :
    spec.graphDict = .ok task ↔ spec.validate = .ok () ∧ task = spec.graphTask := by
  rw [graphDict, bind_eq_ok_iff]
  constructor
  · rintro ⟨_, valid, done⟩
    exact ⟨valid, (Except.ok.inj done).symm⟩
  · rintro ⟨valid, rfl⟩
    exact ⟨(), valid, rfl⟩

theorem AgentTaskSpec.valid_graphTask (valid : spec.validate = .ok ()) : spec.graphTask.Valid := by
  simp only [validate, bind_eq_ok_iff, positiveId_eq_ok_iff, nonEmpty_eq_ok_iff,
    checkEach_eq_ok_iff, stringTuple_eq_ok_iff, require_eq_ok_iff, decide_eq_true_eq, bne_iff_ne]
    at valid
  obtain ⟨-, id, -, -, -, -, -, «namespace», -, few, -, dependencies, -, distinct, -, -, -,
    resources, -⟩ := valid
  refine ⟨id, fun dependency mem => ?_, distinct, few, «namespace», resources⟩
  obtain ⟨-, bounds, apart⟩ := dependencies dependency mem
  exact ⟨bounds, apart⟩

theorem valid_of_graphPayload {specs : List (AgentTaskSpec Handler)} {graph : AgentGraph}
    (done : graphPayload specs = .ok graph) :
    graph.schema = agentGraphSchemaV1 ∧ ∀ task ∈ graph.tasks, task.Valid := by
  rw [graphPayload, bind_eq_ok_iff] at done
  obtain ⟨tasks, mapped, done⟩ := done
  cases done
  obtain ⟨valid, rfl⟩ := (mapM_eq_ok_iff fun _ _ => AgentTaskSpec.graphDict_eq_ok_iff).mp mapped
  refine ⟨rfl, fun task mem => ?_⟩
  obtain ⟨spec, listed, rfl⟩ := mem_map.mp mem
  exact AgentTaskSpec.valid_graphTask (valid spec listed)

end Specs

/-! ### The table of a graph -/

/-- The table lists the tasks with their dependencies, in some order. -/
def TaskMap.Represents (table : TaskMap) (tasks : List GraphTask) : Prop :=
  ∃ listed : GraphTask → List Nat, (∀ task ∈ tasks, (listed task).Perm task.dependencyIds) ∧
    table.Perm (tasks.map fun task => (task.taskId, listed task))

namespace TaskMap.Represents

variable {table other : TaskMap} {tasks : List GraphTask} {taskId : Nat}

section

variable (h : table.Represents tasks)
include h

theorem ids : table.ids.Perm (tasks.map GraphTask.taskId) := by
  obtain ⟨listed, -, perm⟩ := h
  have := perm.map Prod.fst
  rwa [map_map] at this

theorem mem {task : GraphTask} (mem : task ∈ tasks) :
    ∃ dependencies, (task.taskId, dependencies) ∈ table ∧
      dependencies.Perm task.dependencyIds := by
  obtain ⟨listed, same, perm⟩ := h
  exact ⟨listed task, perm.mem_iff.mpr (mem_map.mpr ⟨task, mem, rfl⟩), same task mem⟩

theorem of_mem {entry : Nat × List Nat} (mem : entry ∈ table) :
    ∃ task ∈ tasks, entry.1 = task.taskId ∧ entry.2.Perm task.dependencyIds := by
  obtain ⟨listed, same, perm⟩ := h
  obtain ⟨task, listed, rfl⟩ := mem_map.mp (perm.mem_iff.mp mem)
  exact ⟨task, listed, rfl, same task listed⟩

theorem edges : (table.map (·.2.length)).sum =
    (tasks.map fun task => task.dependencyIds.length).sum := by
  obtain ⟨listed, same, perm⟩ := h
  rw [(perm.map _).sum_eq, map_map]
  exact congrArg List.sum (map_congr_left fun task mem => (same task mem).length_eq)

theorem wellFormed (valid : ∀ task ∈ tasks, task.Valid)
    (unique : (tasks.map GraphTask.taskId).Nodup)
    (closed : ∀ task ∈ tasks, ∀ dependency ∈ task.dependencyIds,
      dependency ∈ tasks.map GraphTask.taskId) : table.WellFormed where
  ids := h.ids.nodup_iff.mpr unique
  dependencies := by
    intro entry mem
    obtain ⟨task, listed, -, same⟩ := h.of_mem mem
    exact same.nodup_iff.mpr (valid task listed).distinct
  closed := by
    intro entry mem dependency needed
    obtain ⟨task, listed, -, same⟩ := h.of_mem mem
    exact h.ids.mem_iff.mpr (closed task listed dependency (same.mem_iff.mp needed))

theorem nodes_eq :
    table.nodes = (tasks.map GraphTask.taskId).toFinset :=
  toFinset_eq_of_perm _ _ h.ids

section

variable (unique : (tasks.map GraphTask.taskId).Nodup)
include unique

/-- The table shows which task has to be done before which. -/
theorem unblocks_iff
    {first second : Nat} :
    Unblocks tasks first second ↔ second ∈ table.nodes ∧ first ∈ table.needs second := by
  have ids := h.ids.nodup_iff.mpr unique
  constructor
  · rintro ⟨task, listed, rfl, needed⟩
    obtain ⟨dependencies, mem, same⟩ := h.mem listed
    rw [needs_eq ids mem, mem_toFinset, same.mem_iff]
    exact ⟨mem_toFinset.mpr (mem_ids.mpr ⟨_, mem, rfl⟩), needed⟩
  · rintro ⟨node, needed⟩
    obtain ⟨entry, mem, rfl⟩ := mem_ids.mp (mem_toFinset.mp node)
    obtain ⟨task, listed, id, same⟩ := h.of_mem mem
    rw [needs_eq ids mem, mem_toFinset, same.mem_iff] at needed
    exact ⟨task, listed, id.symm, needed⟩

theorem acyclic_iff :
    Acyclic table.nodes table.needs ↔
      ∀ taskId, ¬ Relation.TransGen (Unblocks tasks) taskId taskId := by
  have same : (fun need node => node ∈ table.nodes ∧ need ∈ table.needs node) = Unblocks tasks := by
    funext first second
    exact propext (h.unblocks_iff unique).symm
  rw [Acyclic, same]

theorem respects_iff
    {order : List Nat} :
    Respects tasks order ↔ Completes table.nodes table.needs ∅ order := by
  rw [Completes.iff_respects, Respects, h.nodes_eq]
  constructor
  · rintro ⟨perm, before⟩
    refine ⟨perm.nodup_iff.mpr unique, toFinset_eq_of_perm _ _ perm, ?_⟩
    intro first taskId rest split dependency needed
    have listed : taskId ∈ table.nodes := by
      rw [h.nodes_eq, ← toFinset_eq_of_perm _ _ perm, split]
      simp
    exact mem_toFinset.mpr
      (before first taskId rest split dependency ((h.unblocks_iff unique).mpr ⟨listed, needed⟩))
  · rintro ⟨nodup, same, before⟩
    refine ⟨perm_of_nodup_nodup_toFinset_eq nodup unique same, ?_⟩
    intro first taskId rest split dependency needed
    exact mem_toFinset.mp
      (before first taskId rest split ((h.unblocks_iff unique).mp needed).2)

/-- Every task of a closed graph is listed exactly when the graph has no cycle. -/
theorem length_eq_iff
    (wf : table.WellFormed) :
    (smallestFirst table.nodes table.needs table.length ∅).length = table.length ↔
      ∀ taskId, ¬ Relation.TransGen (Unblocks tasks) taskId taskId := by
  rw [TaskMap.length_eq_iff wf, h.acyclic_iff unique]

theorem isSmallestOrder
    (wf : table.WellFormed) (acyclic : Acyclic table.nodes table.needs) :
    IsSmallestOrder tasks (smallestFirst table.nodes table.needs table.length ∅) := by
  obtain ⟨order, complete⟩ := acyclic.exists_completes (needs_subset wf) ∅
  have short {order : List Nat} (complete : Completes table.nodes table.needs ∅ order) :
      order.length ≤ table.length := by
    have := complete.1.length_le
    rwa [Finset.sdiff_empty, card_nodes wf] at this
  refine ⟨(h.respects_iff unique).mpr (smallestFirst_least complete (short complete)).1, ?_⟩
  intro other respects
  have complete := (h.respects_iff unique).mp respects
  exact (smallestFirst_least complete (short complete)).2

end

end

end TaskMap.Represents

theorem IsSmallestOrder.eq {tasks : List GraphTask} {first second : List Nat}
    (h : IsSmallestOrder tasks first) (h' : IsSmallestOrder tasks second) : first = second := by
  obtain same | below := h.2 second h'.1
  · exact same
  · obtain same | above := h'.2 first h.1
    · exact same.symm
    · exact absurd above (asymm below)

/-! ### The Python validator -/

/-- The keys are apart from the ones that were seen and from one more. -/
theorem forall_notMem_concat_iff {α β : Type} {key : α → β} {items : List α} {seen : List β}
    {last : β} :
    (∀ item ∈ items, key item ∉ seen ++ [last]) ↔
      (∀ item ∈ items, key item ∉ seen) ∧ last ∉ items.map key := by
  simp only [mem_append, mem_singleton, not_or, mem_map, not_exists, not_and]
  exact ⟨fun h => ⟨fun item mem => (h item mem).1, fun item mem => (h item mem).2⟩,
    fun h item mem => ⟨h.1 item mem, h.2 item mem⟩⟩

/-- The table of the tasks of a graph. -/
def taskMapOf (tasks : List GraphTask) : TaskMap :=
  tasks.map fun task => (task.taskId, task.dependencyIds)

section Local

variable {scan final : GraphScan} {task : GraphTask} {tasks : List GraphTask}

theorem GraphScan.check_eq_ok_iff (valid : task.Valid) :
    scan.check task = .ok final ↔
      task.taskId ∉ scan.taskMap.ids ∧ task.artifactNamespace ∉ scan.namespaces ∧
        final =
          { taskMap := scan.taskMap ++ [(task.taskId, task.dependencyIds)]
            namespaces := scan.namespaces ++ [task.artifactNamespace]
            canonicalTasks := scan.canonicalTasks ++ [task] } := by
  have self : task.taskId ∉ task.dependencyIds := fun mem =>
    (valid.dependencies _ mem).2 rfl
  have bounds : ∀ dependency ∈ task.dependencyIds, 1 ≤ dependency ∧ dependency ≤ agentIdMax :=
    fun dependency mem => (valid.dependencies dependency mem).1
  simp only [check, bind_eq_ok_iff, positiveId_eq_ok_iff, nonEmpty_eq_ok_iff, checkEach_eq_ok_iff,
    stringTuple_eq_ok_iff, require_eq_ok_iff, exists_const, valid.id, valid.few, valid.distinct,
    valid.namespace, valid.resources, self, true_and, Bool.not_eq_true', decide_true,
    Bool.and_self, contains_eq_mem, decide_eq_false_iff_not, not_false_eq_true]
  constructor
  · rintro ⟨fresh, -, disjoint, -, done⟩
    exact ⟨fresh, disjoint, (Except.ok.inj done).symm⟩
  · rintro ⟨fresh, disjoint, rfl⟩
    exact ⟨fresh, bounds, disjoint, ⟨valid.resources.2.1, trivial⟩, rfl⟩

/-- The loop over valid tasks only looks whether ids and namespaces repeat. -/
theorem GraphScan.foldlM_check (valid : ∀ task ∈ tasks, task.Valid) :
    tasks.foldlM GraphScan.check scan = .ok final ↔
      ((tasks.map GraphTask.taskId).Nodup ∧ ∀ task ∈ tasks, task.taskId ∉ scan.taskMap.ids) ∧
      ((tasks.map GraphTask.artifactNamespace).Nodup ∧
        ∀ task ∈ tasks, task.artifactNamespace ∉ scan.namespaces) ∧
      final =
        { taskMap := scan.taskMap ++ taskMapOf tasks
          namespaces := scan.namespaces ++ tasks.map GraphTask.artifactNamespace
          canonicalTasks := scan.canonicalTasks ++ tasks } := by
  induction tasks generalizing scan with
  | nil => simp [taskMapOf, pure, Except.pure, eq_comm]
  | cons task tasks ih =>
      obtain ⟨first, rest⟩ := forall_mem_cons.mp valid
      have ids : (∀ other ∈ tasks,
          other.taskId ∉ (scan.taskMap ++ [(task.taskId, task.dependencyIds)]).ids) ↔
          (∀ other ∈ tasks, other.taskId ∉ scan.taskMap.ids) ∧
            task.taskId ∉ tasks.map GraphTask.taskId := by
        simp only [TaskMap.ids, map_append, map_singleton]
        exact forall_notMem_concat_iff
      have namespaces : (∀ other ∈ tasks,
          other.artifactNamespace ∉ scan.namespaces ++ [task.artifactNamespace]) ↔
          (∀ other ∈ tasks, other.artifactNamespace ∉ scan.namespaces) ∧
            task.artifactNamespace ∉ tasks.map GraphTask.artifactNamespace :=
        forall_notMem_concat_iff
      rw [foldlM_cons, bind_eq_ok_iff]
      simp only [GraphScan.check_eq_ok_iff first, ih rest, map_cons, nodup_cons,
        forall_mem_cons]
      constructor
      · rintro ⟨_, ⟨freshId, freshName, rfl⟩, ⟨distinct, apart⟩, ⟨disjoint, others⟩, rfl⟩
        obtain ⟨apart, own⟩ := ids.mp apart
        obtain ⟨others, name⟩ := namespaces.mp others
        exact ⟨⟨⟨own, distinct⟩, freshId, apart⟩, ⟨⟨name, disjoint⟩, freshName, others⟩,
          by simp [taskMapOf]⟩
      · rintro ⟨⟨⟨own, distinct⟩, freshId, apart⟩, ⟨⟨name, disjoint⟩, freshName, others⟩, rfl⟩
        exact ⟨_, ⟨freshId, freshName, rfl⟩, ⟨distinct, ids.mpr ⟨apart, own⟩⟩,
          ⟨disjoint, namespaces.mpr ⟨others, name⟩⟩, by simp [taskMapOf]⟩

/-- An id is a number of at most 39 digits. -/
theorem hasLongInt_id {id : Nat} (small : id ≤ agentIdMax) :
    (JsonValue.int id).hasLongInt = false := by
  refine hasLongInt_int (k := 39) ?_ (by decide) (by decide)
  exact Nat.lt_of_le_of_lt small (by decide)

/-- The numbers of a task are ids. -/
def GraphTask.Small (task : GraphTask) : Prop :=
  task.taskId ≤ agentIdMax ∧ ∀ dependency ∈ task.dependencyIds, dependency ≤ agentIdMax

theorem GraphTask.Valid.small (valid : task.Valid) : task.Small :=
  ⟨valid.id.2, fun dependency mem => (valid.dependencies dependency mem).1.2⟩

theorem GraphTask.hasLongInt_payload (small : task.Small) : task.payload.hasLongInt = false := by
  have dependencies : (JsonValue.list (task.dependencyIds.map .int)).hasLongInt = false := by
    rw [hasLongInt, itemsHaveLongInt_eq, any_map, any_eq_false]
    intro dependency mem
    simp [hasLongInt_id (small.2 dependency mem)]
  rw [payload, hasLongInt_dict]
  simp only [any_cons, any_nil, dependencies, hasLongInt_id small.1, hasLongInt_texts]
  rfl

theorem GraphTask.hasSurrogate_payload : task.payload.hasSurrogate = false ↔
    task.artifactNamespace.any isSurrogate = false ∧
      ∀ key ∈ task.exclusiveResourceKeys, key.any isSurrogate = false := by
  have dependencies : (JsonValue.list (task.dependencyIds.map .int)).hasSurrogate = false := by
    rw [hasSurrogate, itemsHaveSurrogate_eq, any_map]
    exact any_eq_false.mpr fun _ _ => Bool.false_ne_true
  rw [payload, hasSurrogate_dict
    ["task_id", "dependency_ids", "artifact_namespace", "exclusive_resource_keys"] rfl (by decide)]
  simp only [any_cons, any_nil, dependencies, hasSurrogate_texts]
  simp [hasSurrogate]

/-- A graph has JSON if its texts can be encoded. -/
theorem AgentGraph.payload_isOk_iff {graph : AgentGraph}
    (schema : graph.schema = agentGraphSchemaV1) (small : ∀ task ∈ graph.tasks, task.Small) :
    (∃ graphJson, canonicalBytes graph.payload = .ok graphJson) ↔ Encodable graph.tasks := by
  have short : (graph.tasks.map GraphTask.payload).any hasLongInt = false := by
    rw [any_map, any_eq_false]
    intro task mem
    simp [GraphTask.hasLongInt_payload (small task mem)]
  have plain : graph.schema.any isSurrogate = false := by
    rw [schema]
    exact any_ofString _ (by decide)
  rw [canonicalBytes_isOk_iff, payload, hasLongInt_dict,
    hasSurrogate_dict ["schema", "tasks"] rfl (by decide)]
  simp only [any_cons, any_nil, hasLongInt, hasSurrogate, itemsHaveLongInt_eq,
    itemsHaveSurrogate_eq, short, plain, Bool.false_or, Bool.or_false, true_and, any_map]
  rw [any_eq_false, Encodable]
  refine forall_congr' fun task => imp_congr_right fun _ => ?_
  rw [← GraphTask.hasSurrogate_payload, Function.comp_apply, Bool.not_eq_true]

/-- The task with its dependencies and its keys in order. -/
def GraphTask.inOrder (task : GraphTask) : GraphTask :=
  { task with
    dependencyIds := task.dependencyIds.insertionSort (· ≤ ·)
    exclusiveResourceKeys := task.exclusiveResourceKeys.insertionSort fun first second =>
      first.le second }

theorem digestOf_graph_isOk_iff (sha256 : Sha256) (valid : ∀ task ∈ tasks, task.Valid)
    {sorted : List GraphTask}
    (perm : sorted.Perm tasks) :
    (∃ digest, digestOf sha256 (dict [("schema", .text agentGraphSchemaV1),
      ("tasks", .list (sorted.map GraphTask.canonical))]) = .ok digest) ↔ Encodable tasks := by
  let graph : AgentGraph := ⟨agentGraphSchemaV1, sorted.map GraphTask.inOrder⟩
  have value : dict [("schema", .text agentGraphSchemaV1),
      ("tasks", .list (sorted.map GraphTask.canonical))] = graph.payload := by
    rw [AgentGraph.payload, map_map]
    rfl
  have small : ∀ task ∈ graph.tasks, task.Small := by
    refine forall_mem_map.mpr fun task mem => ?_
    obtain ⟨id, dependencies⟩ := (valid task (perm.mem_iff.mp mem)).small
    exact ⟨id, fun dependency needed => dependencies dependency ((mem_insertionSort _).mp needed)⟩
  have same : Encodable graph.tasks ↔ Encodable tasks := by
    rw [Encodable, forall_mem_map]
    simp only [GraphTask.inOrder, mem_insertionSort, perm.mem_iff, Encodable]
  rw [value, digestOf_isOk_iff, ← canonicalBytes_isOk_iff, AgentGraph.payload_isOk_iff rfl small,
    same]

theorem represents_taskMapOf : (taskMapOf tasks).Represents tasks :=
  ⟨GraphTask.dependencyIds, fun _ _ => .refl _, .refl _⟩

/-- The Python code accepts a graph that is in order and can be encoded, and lists its smallest
order. -/
theorem localGraphValidation_iff (sha256 : Sha256) (valid : ∀ task ∈ tasks, task.Valid) :
    ((∃ result, localGraphValidation sha256 ⟨agentGraphSchemaV1, tasks⟩ = .ok result) ↔
      GraphOk tasks ∧ Encodable tasks) ∧
    ∀ result, localGraphValidation sha256 ⟨agentGraphSchemaV1, tasks⟩ = .ok result →
      IsSmallestOrder tasks result.topologicalOrder := by
  have table : (taskMapOf tasks).Represents tasks := represents_taskMapOf
  have ids : (taskMapOf tasks).ids = tasks.map GraphTask.taskId := by
    rw [TaskMap.ids, taskMapOf, map_map]
    rfl
  have accepted (result : GraphValidation) :
      localGraphValidation sha256 ⟨agentGraphSchemaV1, tasks⟩ = .ok result ↔
        GraphOk tasks ∧ ∃ digest, digestOf sha256 (dict [("schema", .text agentGraphSchemaV1),
          ("tasks", .list ((tasks.insertionSort fun first second =>
            first.taskId ≤ second.taskId).map GraphTask.canonical))]) = .ok digest ∧
          result =
            { graphHash := digest, topologicalOrder := (taskMapOf tasks).topological
              taskCount := (taskMapOf tasks).length } := by
    simp only [localGraphValidation, bind_eq_ok_iff, require_eq_ok_iff, checkEach_eq_ok_iff,
      GraphScan.foldlM_check valid, exists_const, decide_eq_true_eq]
    constructor
    · rintro ⟨-, size, scan, ⟨⟨unique, -⟩, ⟨disjoint, -⟩, rfl⟩, few, closed, complete, digest,
        hashed, done⟩
      have closed' : ∀ task ∈ tasks, ∀ dependency ∈ task.dependencyIds,
          dependency ∈ tasks.map GraphTask.taskId := by
        intro task mem dependency needed
        have := closed (task.taskId, task.dependencyIds) (mem_map.mpr ⟨task, mem, rfl⟩)
        simp only [nil_append, all_eq_true, contains_eq_mem, decide_eq_true_eq, ids]
          at this
        exact this dependency needed
      have wf := table.wellFormed valid unique closed'
      simp only [nil_append] at few complete hashed done
      rw [topological_eq wf, table.length_eq_iff unique wf] at complete
      refine ⟨⟨size, unique, disjoint, closed', complete, table.edges ▸ few⟩, digest, hashed,
        (Except.ok.inj done).symm⟩
    · rintro ⟨graph, digest, hashed, rfl⟩
      have wf := table.wellFormed valid graph.ids graph.closed
      have complete := (table.length_eq_iff graph.ids wf).mpr graph.acyclic
      rw [← topological_eq wf] at complete
      refine ⟨trivial, graph.size, _, ⟨⟨graph.ids, by simp [TaskMap.ids]⟩,
        ⟨graph.namespaces, by simp⟩, rfl⟩, ?_, ?_, ?_, digest, ?_, rfl⟩
      · simpa only [nil_append, table.edges] using graph.edges
      · intro entry mem
        simp only [nil_append] at mem ⊢
        obtain ⟨task, listed, rfl⟩ := mem_map.mp mem
        simpa [ids] using graph.closed task listed
      · simpa only [nil_append] using complete
      · simpa only [nil_append] using hashed
  have encoded := digestOf_graph_isOk_iff sha256 valid
    (perm_insertionSort (fun first second : GraphTask => first.taskId ≤ second.taskId) tasks)
  constructor
  · rw [← encoded]
    constructor
    · rintro ⟨result, done⟩
      obtain ⟨graph, digest, hashed, -⟩ := (accepted result).mp done
      exact ⟨graph, digest, hashed⟩
    · rintro ⟨graph, digest, hashed⟩
      exact ⟨_, (accepted _).mpr ⟨graph, digest, hashed, rfl⟩⟩
  · intro result done
    obtain ⟨graph, digest, -, rfl⟩ := (accepted result).mp done
    have wf := table.wellFormed valid graph.ids graph.closed
    show IsSmallestOrder tasks (taskMapOf tasks).topological
    rw [topological_eq wf]
    exact table.isSmallestOrder graph.ids wf ((table.acyclic_iff graph.ids).mpr graph.acyclic)

end Local

/-! ### The Rust validator -/

/-- A task that was read, as the Python code has it. -/
def AgentGraphTask.graphTask (task : AgentGraphTask) : GraphTask where
  taskId := task.taskId
  dependencyIds := task.dependencyIds
  artifactNamespace := task.artifactNamespace.val
  exclusiveResourceKeys := task.exclusiveResourceKeys.map Subtype.val

section Native

variable {scan final : AgentGraphScan} {task : AgentGraphTask} {tasks : List AgentGraphTask}

/-- A list that reads as another one, item by item. -/
theorem mapM_eq_ok_iff_map {α β ε : Type} {read : α → Except ε β} (key : β → α) {p : α → Prop}
    (reads : ∀ value answer, read value = .ok answer ↔ p value ∧ key answer = value)
    {values : List α} {answers : List β} :
    values.mapM read = .ok answers ↔ (∀ value ∈ values, p value) ∧ answers.map key = values := by
  induction values generalizing answers with
  | nil => simp [pure, Except.pure, eq_comm]
  | cons value values ih =>
      simp only [mapM_cons, bind_eq_ok_iff, reads, ih, forall_mem_cons]
      constructor
      · rintro ⟨first, ⟨holds, same⟩, rest, ⟨all, others⟩, done⟩
        cases done
        exact ⟨⟨holds, all⟩, by rw [map_cons, same, others]⟩
      · rintro ⟨⟨holds, all⟩, same⟩
        cases answers with
        | nil => cases same
        | cons first rest =>
            obtain ⟨one, others⟩ := List.cons.inj same
            exact ⟨first, ⟨holds, one⟩, rest, ⟨all, others⟩, rfl⟩

theorem decodeString_eq_ok_iff {value : Text} {string : RustString} :
    decodeString value = .ok string ↔ string.val = value := by
  rw [decodeString]
  constructor
  · intro done
    split at done
    · exact (congrArg Subtype.val (Except.ok.inj done)).symm
    · cases done
  · rintro rfl
    rw [dif_pos string.property]

theorem decodeU128_eq_ok_iff {value number : Nat} :
    decodeU128 value = .ok number ↔ value < 2 ^ 128 ∧ number = value := by
  rw [decodeU128]
  split <;> simp_all [eq_comm]

theorem mapM_decodeString_eq_ok_iff {values : List Text} {strings : List RustString} :
    values.mapM decodeString = .ok strings ↔ strings.map Subtype.val = values := by
  have reads (value : Text) (string : RustString) :
      decodeString value = .ok string ↔ True ∧ string.val = value := by
    rw [decodeString_eq_ok_iff, true_and]
  rw [mapM_eq_ok_iff_map Subtype.val reads]
  exact and_iff_right fun _ _ => trivial

theorem mapM_decodeU128_eq_ok_iff {values numbers : List Nat} :
    values.mapM decodeU128 = .ok numbers ↔ (∀ value ∈ values, value < 2 ^ 128) ∧
      numbers = values := by
  rw [mapM_eq_ok_iff_map id fun _ _ => decodeU128_eq_ok_iff, map_id]

/-- A task is read as one that reads the same, if its ids are small. -/
theorem GraphTask.decode_eq_ok_iff {source : GraphTask} :
    source.decode = .ok task ↔
      (source.taskId < 2 ^ 128 ∧ ∀ dependency ∈ source.dependencyIds, dependency < 2 ^ 128) ∧
        task.graphTask = source := by
  simp only [decode, bind_eq_ok_iff, decodeU128_eq_ok_iff, decodeString_eq_ok_iff,
    mapM_decodeU128_eq_ok_iff, mapM_decodeString_eq_ok_iff]
  constructor
  · rintro ⟨_, ⟨id, rfl⟩, _, ⟨dependencies, rfl⟩, name, named, keys, read, done⟩
    cases done
    obtain ⟨taskId, dependencyIds, artifactNamespace, exclusiveResourceKeys⟩ := source
    exact ⟨⟨id, dependencies⟩, by rw [graphTask, named, read]⟩
  · rintro ⟨⟨id, dependencies⟩, rfl⟩
    exact ⟨_, ⟨id, rfl⟩, _, ⟨dependencies, rfl⟩, _, rfl, _, rfl, rfl⟩

theorem length_le_of_isNonEmpty {value : Text} {limit : Nat} (h : isNonEmpty value limit) :
    value.length ≤ limit := by
  rw [isNonEmpty, Bool.and_eq_true, decide_eq_true_eq] at h
  exact h.2

/-- A text that passed the Python checks is a valid Rust string unless it has too many bytes. -/
theorem RustString.isValid_iff {value : RustString} {limit : Nat}
    (h : isNonEmpty value.val limit) :
    value.isValid ↔ value.len ≤ maxAgentGraphStringBytes := by
  rw [isNonEmpty, Bool.and_eq_true, Bool.and_eq_true] at h
  obtain ⟨⟨notBlank, noNul⟩, -⟩ := h
  have some_point : value.val.isEmpty = false := by
    cases empty : value.val with
    | nil => simp [empty, Text.isBlank] at notBlank
    | cons => rfl
  have plain : value.val.contains 0 = false := by
    rw [contains_eq_mem, decide_eq_false_iff_not]
    intro mem
    have := all_eq_true.mp noNul 0 mem
    simp at this
  rw [isValid, some_point, plain, Bool.not_false, Bool.true_and, Bool.and_true, decide_eq_true_eq]

/-- The task as it is hashed. -/
def AgentGraphTask.canonical (task : AgentGraphTask) : AgentGraphTask :=
  { task with
    dependencyIds := task.dependencyIds.insertionSort (· ≤ ·)
    exclusiveResourceKeys := task.exclusiveResourceKeys.insertionSort fun first second =>
      first.val.le second.val }

/-- The scan once a task was recorded. -/
def AgentGraphScan.record (scan : AgentGraphScan) (task : AgentGraphTask) : AgentGraphScan where
  taskMap := scan.taskMap.orderedInsert (fun first second => first.1 ≤ second.1)
    (task.taskId, task.dependencyIds.insertionSort (· ≤ ·))
  namespaces := scan.namespaces ++ [task.artifactNamespace]
  canonicalTasks := scan.canonicalTasks ++ [task.canonical]
  edgeCount := scan.edgeCount + task.dependencyIds.length

/-- The check of a valid task looks whether its id and its namespace are new, whether its keys
are short in bytes, and how many edges there are. -/
theorem AgentGraphScan.check_eq_ok_iff (valid : task.graphTask.Valid) :
    scan.check task = .ok final ↔
      task.taskId ∉ scan.taskMap.ids ∧ task.artifactNamespace ∉ scan.namespaces ∧
        (∀ key ∈ task.exclusiveResourceKeys, key.len ≤ maxAgentGraphStringBytes) ∧
        scan.edgeCount + task.dependencyIds.length ≤ maxGraphDependencies ∧
        final = scan.record task := by
  have sorted : (task.dependencyIds.insertionSort (· ≤ ·)).dedup =
      task.dependencyIds.insertionSort (· ≤ ·) :=
    List.Nodup.dedup ((perm_insertionSort ..).nodup_iff.mpr valid.distinct)
  have keys : (task.exclusiveResourceKeys.insertionSort fun first second =>
      first.val.le second.val).dedup =
        task.exclusiveResourceKeys.insertionSort fun first second => first.val.le second.val :=
    List.Nodup.dedup ((perm_insertionSort ..).nodup_iff.mpr
      (List.Nodup.of_map _ valid.resources.2.2))
  have id : task.taskId ≠ 0 := Nat.one_le_iff_ne_zero.mp valid.id.1
  have few : task.dependencyIds.length ≤ maxGraphDependencies := valid.few
  simp only [check, bind_eq_ok_iff, refuseWhen_eq_ok_iff, exists_const, sorted, keys,
    length_insertionSort, mem_insertionSort, id, not_false_eq_true, true_and, not_lt, few,
    ne_eq, not_true_eq_false, false_or, Bool.not_eq_true', Bool.not_eq_false]
  have nameValid : task.artifactNamespace.isValid := by
    refine (RustString.isValid_iff valid.namespace).mpr ?_
    have chars : task.artifactNamespace.val.length ≤ 512 := length_le_of_isNonEmpty valid.namespace
    have bytes := length_flatMap_encodePoint_le task.artifactNamespace.val
    rw [RustString.len, maxAgentGraphStringBytes]
    omega
  have keysValid : (¬ ∃ key ∈ task.exclusiveResourceKeys, key.isValid = false) ↔
      ∀ key ∈ task.exclusiveResourceKeys, key.len ≤ maxAgentGraphStringBytes := by
    simp only [not_exists, not_and, Bool.not_eq_false]
    refine forall_congr' fun key => imp_congr_right fun mem => ?_
    exact RustString.isValid_iff (valid.resources.2.1 key.val (mem_map.mpr ⟨key, mem, rfl⟩))
  have own : ¬ ∃ dependency ∈ task.dependencyIds, dependency = 0 ∨ dependency = task.taskId := by
    rintro ⟨dependency, mem, bad⟩
    obtain ⟨⟨positive, -⟩, apart⟩ := valid.dependencies dependency mem
    exact bad.elim (Nat.one_le_iff_ne_zero.mp positive) apart
  have few : task.exclusiveResourceKeys.length ≤ maxAgentGraphResources := by
    have := valid.resources.1
    rwa [graphTask, length_map] at this
  rw [keysValid]
  constructor
  · rintro ⟨fresh, -, disjoint, -, short, -, edges, done⟩
    exact ⟨fresh, disjoint, short, edges, (Except.ok.inj done).symm⟩
  · rintro ⟨fresh, disjoint, short, edges, rfl⟩
    exact ⟨fresh, nameValid, disjoint, own, short, few, edges, rfl⟩

theorem AgentGraphScan.taskMap_foldl_record :
    (tasks.foldl record scan).taskMap.Perm (scan.taskMap ++
      tasks.map fun task => (task.taskId, task.dependencyIds.insertionSort (· ≤ ·))) := by
  induction tasks generalizing scan with
  | nil => simp
  | cons task tasks ih =>
      rw [foldl_cons, map_cons]
      exact ih.trans (((perm_orderedInsert ..).append_right _).trans perm_middle.symm)

/-- The loop over valid tasks looks whether ids and namespaces repeat, whether the keys are short
in bytes, and how many edges there are. -/
theorem AgentGraphScan.foldlM_check (valid : ∀ task ∈ tasks, task.graphTask.Valid)
    (bounded : scan.edgeCount ≤ maxGraphDependencies) :
    tasks.foldlM AgentGraphScan.check scan = .ok final ↔
      ((tasks.map taskId).Nodup ∧
        ∀ task ∈ tasks, task.taskId ∉ scan.taskMap.ids) ∧
      ((tasks.map artifactNamespace).Nodup ∧
        ∀ task ∈ tasks, task.artifactNamespace ∉ scan.namespaces) ∧
      (∀ task ∈ tasks, ∀ key ∈ task.exclusiveResourceKeys, key.len ≤ maxAgentGraphStringBytes) ∧
      scan.edgeCount + (tasks.map fun task => task.dependencyIds.length).sum ≤
        maxGraphDependencies ∧
      final = tasks.foldl record scan := by
  induction tasks generalizing scan with
  | nil =>
      constructor
      · intro done
        cases done
        exact ⟨⟨nodup_nil, forall_mem_nil _⟩, ⟨nodup_nil, forall_mem_nil _⟩,
          forall_mem_nil _, bounded, rfl⟩
      · rintro ⟨-, -, -, -, rfl⟩
        rfl
  | cons task tasks ih =>
      obtain ⟨first, rest⟩ := forall_mem_cons.mp valid
      have ids : (∀ other ∈ tasks, other.taskId ∉ (scan.record task).taskMap.ids) ↔
          (∀ other ∈ tasks, other.taskId ∉ scan.taskMap.ids) ∧
            task.taskId ∉ tasks.map taskId := by
        rw [← forall_notMem_concat_iff]
        refine forall_congr' fun other => imp_congr_right fun _ => not_congr ?_
        rw [record, TaskMap.ids, ((perm_orderedInsert ..).map _).mem_iff, map_cons,
          mem_cons, mem_append, mem_singleton, or_comm]
        rfl
      have namespaces : (∀ other ∈ tasks,
          other.artifactNamespace ∉ (scan.record task).namespaces) ↔
          (∀ other ∈ tasks, other.artifactNamespace ∉ scan.namespaces) ∧
            task.artifactNamespace ∉ tasks.map artifactNamespace :=
        forall_notMem_concat_iff
      rw [foldlM_cons, bind_eq_ok_iff]
      simp only [check_eq_ok_iff first, map_cons, nodup_cons,
        forall_mem_cons, foldl_cons, sum_cons, ← Nat.add_assoc]
      constructor
      · rintro ⟨_, ⟨freshId, freshName, keys, edges, rfl⟩, done⟩
        obtain ⟨⟨distinct, apart⟩, ⟨disjoint, others⟩, allKeys, allEdges, rfl⟩ :=
          (ih rest edges).mp done
        obtain ⟨apart, own⟩ := ids.mp apart
        obtain ⟨others, name⟩ := namespaces.mp others
        exact ⟨⟨⟨own, distinct⟩, freshId, apart⟩, ⟨⟨name, disjoint⟩, freshName, others⟩,
          ⟨keys, allKeys⟩, allEdges, rfl⟩
      · rintro ⟨⟨⟨own, distinct⟩, freshId, apart⟩, ⟨⟨name, disjoint⟩, freshName, others⟩,
          ⟨keys, allKeys⟩, allEdges, rfl⟩
        have edges := (Nat.le_add_right _ _).trans allEdges
        exact ⟨scan.record task, ⟨freshId, freshName, keys, edges, rfl⟩, (ih rest edges).mpr
          ⟨⟨distinct, ids.mpr ⟨apart, own⟩⟩, ⟨disjoint, namespaces.mpr ⟨others, name⟩⟩, allKeys,
            allEdges, rfl⟩⟩

theorem AgentGraphScan.represents :
    (tasks.foldl record {}).taskMap.Represents (tasks.map graphTask) := by
  refine ⟨fun task => task.dependencyIds.insertionSort (· ≤ ·), fun _ _ =>
    perm_insertionSort .., ?_⟩
  rw [map_map]
  exact taskMap_foldl_record

end Native

/-- No resource key is longer than the Rust code allows. -/
def AgentGraphRequest.KeysFit (request : AgentGraphRequest) : Prop :=
  ∀ task ∈ request.tasks, ∀ key ∈ task.exclusiveResourceKeys, key.len ≤ maxAgentGraphStringBytes

/-- The Rust code accepts a graph that is in order and has no long key, and lists its smallest
order. -/
theorem AgentGraphRequest.validate_iff (graphHash : List AgentGraphTask → Text)
    {request : AgentGraphRequest} (schema : request.schema.val = agentGraphSchemaV1)
    (valid : ∀ task ∈ request.tasks, task.graphTask.Valid) :
    ((∃ result, request.validate graphHash = .ok result) ↔
      GraphOk (request.tasks.map graphTask) ∧ request.KeysFit) ∧
    ∀ result, request.validate graphHash = .ok result →
      IsSmallestOrder (request.tasks.map graphTask) result.topologicalOrder := by
  obtain ⟨schemaText, tasks⟩ := request
  replace schema : schemaText.val = agentGraphSchemaV1 := schema
  have scanned (final : AgentGraphScan) : tasks.foldlM AgentGraphScan.check {} = .ok final ↔ _ :=
    foldlM_check valid (Nat.zero_le _)
  have table : (tasks.foldl AgentGraphScan.record {}).taskMap.Represents
    (tasks.map graphTask) := AgentGraphScan.represents
  replace valid : ∀ task ∈ tasks.map graphTask, task.Valid :=
    forall_mem_map.mpr valid
  set graph := tasks.map graphTask with graph_eq
  have ids : graph.map GraphTask.taskId = tasks.map taskId := by
    rw [graph_eq, map_map]
    rfl
  have namespaces : (graph.map GraphTask.artifactNamespace).Nodup ↔
      (tasks.map artifactNamespace).Nodup := by
    have same : graph.map GraphTask.artifactNamespace =
        (tasks.map artifactNamespace).map Subtype.val := by
      rw [graph_eq, map_map, map_map]
      rfl
    rw [same, nodup_map_iff Subtype.val_injective]
  have edges : (graph.map fun task => task.dependencyIds.length).sum =
      (tasks.map fun task => task.dependencyIds.length).sum := by
    rw [graph_eq, map_map]
    rfl
  have size : graph.length = tasks.length := length_map ..
  have accepted (result : AgentGraphValidation) :
      AgentGraphRequest.validate graphHash ⟨schemaText, tasks⟩ = .ok result ↔
        (GraphOk graph ∧ AgentGraphRequest.KeysFit ⟨schemaText, tasks⟩) ∧
          result =
            { graphHash := graphHash ((tasks.foldl AgentGraphScan.record {}).canonicalTasks
                |>.insertionSort fun first second => first.taskId ≤ second.taskId)
              topologicalOrder := (tasks.foldl AgentGraphScan.record {}).taskMap.topologicalOrder
              taskCount := (tasks.foldl AgentGraphScan.record {}).taskMap.length } := by
    simp only [validate, bind_eq_ok_iff, refuseWhen_eq_ok_iff, exists_const, schema, ne_eq,
      not_true_eq_false, not_false_eq_true, true_and, not_lt, not_not, scanned]
    constructor
    · rintro ⟨few, scan, ⟨⟨unique, -⟩, ⟨disjoint, -⟩, keys, fits, rfl⟩, closed, complete, done⟩
      rw [← ids] at unique
      have closed' : ∀ task ∈ graph, ∀ dependency ∈ task.dependencyIds,
          dependency ∈ graph.map GraphTask.taskId := by
        intro task mem dependency needed
        obtain ⟨dependencies, entry, same⟩ := table.mem mem
        by_contra missing
        exact closed ⟨_, entry, dependency, same.mem_iff.mpr needed,
          fun mem => missing (table.ids.mem_iff.mp mem)⟩
      have wf := table.wellFormed valid unique closed'
      rw [topologicalOrder_eq wf, table.length_eq_iff unique wf] at complete
      refine ⟨⟨⟨size ▸ few, unique, namespaces.mpr disjoint, closed', complete, ?_⟩, keys⟩,
        (Except.ok.inj done).symm⟩
      rwa [edges, ← Nat.zero_add (List.sum _)]
    · rintro ⟨⟨graphOk, keys⟩, rfl⟩
      have wf := table.wellFormed valid graphOk.ids graphOk.closed
      refine ⟨size ▸ graphOk.size, _, ⟨⟨ids ▸ graphOk.ids, fun _ _ => not_mem_nil⟩,
        ⟨namespaces.mp graphOk.namespaces, fun _ _ => not_mem_nil⟩, keys, ?_, rfl⟩, ?_, ?_,
        rfl⟩
      · rw [Nat.zero_add, ← edges]
        exact graphOk.edges
      · rintro ⟨entry, mem, dependency, needed, missing⟩
        exact missing (wf.closed entry mem dependency needed)
      · rw [topologicalOrder_eq wf, table.length_eq_iff graphOk.ids wf]
        exact graphOk.acyclic
  constructor
  · constructor
    · rintro ⟨result, done⟩
      exact ((accepted result).mp done).1
    · exact fun fine => ⟨_, (accepted _).mpr ⟨fine, rfl⟩⟩
  · intro result done
    obtain ⟨⟨graphOk, -⟩, rfl⟩ := (accepted result).mp done
    have wf := table.wellFormed valid graphOk.ids graphOk.closed
    show IsSmallestOrder graph (tasks.foldl AgentGraphScan.record {}).taskMap.topologicalOrder
    rw [topologicalOrder_eq wf]
    exact table.isSmallestOrder graphOk.ids wf ((table.acyclic_iff graphOk.ids).mpr graphOk.acyclic)

/-! ### Agreement -/

/-- Both validators accept, or both refuse. They list the smallest order, and they refuse when
the graph is not in order and in no other case. -/
structure ValidatorsAgree (sha256 : Sha256) (graphHash : List AgentGraphTask → Text)
    (graph : AgentGraph) : Prop where
  accept : (∃ result, localGraphValidation sha256 graph = .ok result) ↔
    ∃ result, graph.nativeValidation graphHash = .ok result
  order : ∀ result native, localGraphValidation sha256 graph = .ok result →
    graph.nativeValidation graphHash = .ok native →
    result.topologicalOrder = native.topologicalOrder ∧
      IsSmallestOrder graph.tasks result.topologicalOrder
  refuse : ((¬ ∃ result, localGraphValidation sha256 graph = .ok result) ∧
    ¬ ∃ result, graph.nativeValidation graphHash = .ok result) ↔ ¬ GraphOk graph.tasks

section Agreement

variable {graph : AgentGraph}

theorem AgentGraph.decode_eq_ok_iff (valid : ∀ task ∈ graph.tasks, task.Valid)
    {request : AgentGraphRequest} :
    graph.decode = .ok request ↔
      request.schema.val = graph.schema ∧
        request.tasks.map graphTask = graph.tasks := by
  have small : ∀ task ∈ graph.tasks,
      task.taskId < 2 ^ 128 ∧ ∀ dependency ∈ task.dependencyIds, dependency < 2 ^ 128 := by
    have bound : agentIdMax < 2 ^ 128 := by decide
    exact fun task mem => ⟨Nat.lt_of_le_of_lt (valid task mem).id.2 bound, fun dependency needed =>
      Nat.lt_of_le_of_lt ((valid task mem).dependencies dependency needed).1.2 bound⟩
  simp only [decode, bind_eq_ok_iff, decodeString_eq_ok_iff,
    mapM_eq_ok_iff_map graphTask fun _ _ => GraphTask.decode_eq_ok_iff]
  constructor
  · rintro ⟨schema, same, tasks, ⟨-, read⟩, done⟩
    cases done
    exact ⟨same, read⟩
  · rintro ⟨same, read⟩
    exact ⟨request.schema, same, request.tasks, ⟨small, read⟩, rfl⟩

/-- A graph whose texts have JSON can be read. -/
theorem AgentGraph.exists_decode (schema : graph.schema = agentGraphSchemaV1)
    (valid : ∀ task ∈ graph.tasks, task.Valid) (encodable : Encodable graph.tasks) :
    ∃ request, graph.decode = .ok request := by
  have plain : graph.schema.any isSurrogate = false := by
    rw [schema]
    exact any_ofString _ (by decide)
  have read : ∀ task ∈ graph.tasks, task ∈ Set.range graphTask := by
    intro task mem
    obtain ⟨name, keys⟩ := encodable task mem
    refine ⟨⟨task.taskId, task.dependencyIds, ⟨_, name⟩,
      task.exclusiveResourceKeys.attachWith _ keys⟩, ?_⟩
    rw [graphTask, attachWith_map_subtype_val]
  obtain ⟨tasks, same⟩ : ∃ tasks : List AgentGraphTask,
      tasks.map graphTask = graph.tasks := by
    rwa [← Set.mem_range, Set.range_list_map]
  exact ⟨⟨⟨_, plain⟩, tasks⟩, (decode_eq_ok_iff valid).mpr ⟨rfl, same⟩⟩

theorem keysFit_map_graphTask {request : AgentGraphRequest} :
    KeysFit (request.tasks.map graphTask) ↔ request.KeysFit := by
  rw [KeysFit, forall_mem_map]
  exact forall_congr' fun task => imp_congr_right fun _ => forall_mem_map

/-- The JSON of an object is not empty. -/
theorem canonicalBytes_dict_ne_nil {members : List (String × JsonValue)} {bytes : List UInt8}
    (encoded : canonicalBytes (dict members) = .ok bytes) : bytes ≠ [] := by
  simp only [canonicalBytes, dict, sorted, dump] at encoded
  split at encoded
  · cases encoded
  · rename_i text written
    obtain ⟨parts, -, done⟩ := bind_eq_ok_iff.mp written
    cases done
    rw [Text.encode] at encoded
    split at encoded
    · cases encoded
    · cases encoded
      simp [ofString, encodePoint]

/-- The Rust code reads the graph if its JSON is not too long. -/
theorem AgentGraph.nativeValidation_eq_ok_iff {graphHash : List AgentGraphTask → Text}
    {result : AgentGraphValidation} :
    graph.nativeValidation graphHash = .ok result ↔
      (∃ graphJson, canonicalBytes graph.payload = .ok graphJson) ∧ graph.JsonFits ∧
        ∃ request, graph.decode = .ok request ∧ request.validate graphHash = .ok result := by
  rw [nativeValidation, JsonFits]
  cases encoded : canonicalBytes graph.payload with
  | error error => simp
  | ok graphJson =>
      have some_byte : graphJson ≠ [] := canonicalBytes_dict_ne_nil encoded
      simp [bind_eq_ok_iff, refuseWhen_eq_ok_iff, some_byte]

/-- The Rust code on the JSON of a graph that was built from specifications. -/
theorem AgentGraph.nativeValidation_iff (graphHash : List AgentGraphTask → Text)
    (schema : graph.schema = agentGraphSchemaV1)
    (valid : ∀ task ∈ graph.tasks, task.Valid) :
    ((∃ result, graph.nativeValidation graphHash = .ok result) ↔
      GraphOk graph.tasks ∧ Encodable graph.tasks ∧ KeysFit graph.tasks ∧ graph.JsonFits) ∧
    ∀ result, graph.nativeValidation graphHash = .ok result →
      IsSmallestOrder graph.tasks result.topologicalOrder := by
  have of_read {request : AgentGraphRequest} (read : graph.decode = .ok request) :=
    (decode_eq_ok_iff valid).mp read
  have validated {request : AgentGraphRequest} (read : graph.decode = .ok request) :
      ((∃ result, request.validate graphHash = .ok result) ↔
        GraphOk graph.tasks ∧ KeysFit graph.tasks) ∧
      ∀ result, request.validate graphHash = .ok result →
        IsSmallestOrder graph.tasks result.topologicalOrder := by
    obtain ⟨same, tasks⟩ := of_read read
    rw [← tasks, keysFit_map_graphTask]
    refine AgentGraphRequest.validate_iff graphHash (same.trans schema) fun task mem => ?_
    exact valid task.graphTask (tasks ▸ mem_map.mpr ⟨task, mem, rfl⟩)
  have encoded := payload_isOk_iff schema fun task mem => (valid task mem).small
  simp only [nativeValidation_eq_ok_iff, encoded]
  constructor
  · constructor
    · rintro ⟨result, encodable, fits, request, read, done⟩
      obtain ⟨graphOk, keys⟩ := (validated read).1.mp ⟨result, done⟩
      exact ⟨graphOk, encodable, keys, fits⟩
    · rintro ⟨graphOk, encodable, keys, fits⟩
      obtain ⟨request, read⟩ := exists_decode schema valid encodable
      obtain ⟨result, done⟩ := (validated read).1.mpr ⟨graphOk, keys⟩
      exact ⟨result, encodable, fits, request, read, done⟩
  · rintro result ⟨-, -, request, read, done⟩
    exact (validated read).2 result done

/-- The validators agree on a graph of valid tasks exactly when it is out of order, or its texts
have JSON, and its keys and the JSON of the whole are short in bytes. -/
theorem validatorsAgree_iff_of_valid (sha256 : Sha256)
    (graphHash : List AgentGraphTask → Text) (schema : graph.schema = agentGraphSchemaV1)
    (valid : ∀ task ∈ graph.tasks, task.Valid) :
    ValidatorsAgree sha256 graphHash graph ↔
      (GraphOk graph.tasks → Encodable graph.tasks ∧ KeysFit graph.tasks ∧ graph.JsonFits) := by
  obtain ⟨native, smallest⟩ := nativeValidation_iff graphHash schema valid
  obtain ⟨localAccepts, localSmallest⟩ := localGraphValidation_iff sha256 valid
  rw [← schema] at localAccepts localSmallest
  constructor
  · rintro ⟨accept, -, refuse⟩ graphOk
    have some_accepts := mt refuse.mp (not_not.mpr graphOk)
    rw [← accept, and_self, not_not, accept, native] at some_accepts
    exact some_accepts.2
  · intro fits
    refine ⟨?_, ?_, ?_⟩
    · rw [localAccepts, native]
      exact ⟨fun fine => ⟨fine.1, fits fine.1⟩, fun fine => ⟨fine.1, fine.2.1⟩⟩
    · intro result answer done done'
      exact ⟨(localSmallest result done).eq (smallest answer done'), localSmallest result done⟩
    · rw [localAccepts, native]
      constructor
      · rintro ⟨refused, -⟩ graphOk
        exact refused ⟨graphOk, (fits graphOk).1⟩
      · exact fun bad => ⟨fun fine => bad fine.1, fun fine => bad fine.1⟩

variable {Handler : Type}

/-- The validators agree on the graph of accepted specifications exactly when it is out of order,
or its texts have JSON, and its keys and the JSON of the whole are short in bytes. -/
theorem validators_agree_iff (sha256 : Sha256) (graphHash : List AgentGraphTask → Text)
    {specs : List (AgentTaskSpec Handler)} (built : graphPayload specs = .ok graph) :
    ValidatorsAgree sha256 graphHash graph ↔
      (GraphOk graph.tasks → Encodable graph.tasks ∧ KeysFit graph.tasks ∧ graph.JsonFits) :=
  have ⟨schema, valid⟩ := valid_of_graphPayload built
  validatorsAgree_iff_of_valid sha256 graphHash schema valid

/-- A task that writes what the one before it reads. -/
def writerSpec : AgentTaskSpec Unit where
  taskId := 2
  role := ofString "writer"
  prompt := ofString "write it down"
  handler := ()
  artifactNamespace := ofString "artifacts/2"
  dependencies := [1]
  exclusiveResources := [ofString "notes"]

def readerSpec : AgentTaskSpec Unit where
  taskId := 1
  role := ofString "reader"
  prompt := ofString "read it"
  handler := ()
  artifactNamespace := ofString "artifacts/1"

theorem writer_validators_agree :
    ∃ graph, graphPayload [writerSpec, readerSpec] = .ok graph ∧
      ∀ sha256 graphHash, ValidatorsAgree sha256 graphHash graph := by
  have built : graphPayload [writerSpec, readerSpec] =
    .ok ⟨agentGraphSchemaV1, [writerSpec.graphTask, readerSpec.graphTask]⟩ := rfl
  refine ⟨_, built, fun sha256 graphHash => ?_⟩
  refine (validators_agree_iff sha256 graphHash built).mpr fun _ => ?_
  exact ⟨by decide, by decide, by decide +kernel⟩

/-- A task with a key of 4096 characters of two bytes each. -/
def wideKeySpec : AgentTaskSpec Unit :=
  { readerSpec with exclusiveResources := [List.replicate 4096 0xe9] }

/-- A single task without dependencies is in order. -/
theorem graphOk_wideKeySpec : GraphOk [wideKeySpec.graphTask] where
  size := by decide
  ids := nodup_singleton _
  namespaces := nodup_singleton _
  closed := by
    intro task listed dependency needed
    obtain rfl := mem_singleton.mp listed
    cases needed
  acyclic := by
    intro taskId cycle
    obtain ⟨_, ⟨task, listed, -, needed⟩, -⟩ := Relation.TransGen.head'_iff.mp cycle
    obtain rfl := mem_singleton.mp listed
    cases needed
  edges := Nat.zero_le _

theorem graphPayload_wideKeySpec :
    graphPayload [wideKeySpec] = .ok ⟨agentGraphSchemaV1, [wideKeySpec.graphTask]⟩ := by
  have keys : stringTuple wideKeySpec.exclusiveResources "exclusive_resources" 64 = .ok () := by
    refine stringTuple_eq_ok_iff.mpr ⟨by decide, fun value mem => ?_, nodup_singleton _⟩
    obtain rfl := mem_singleton.mp mem
    rw [isNonEmpty, Text.isBlank, length_replicate, all_replicate, all_replicate]
    decide
  have valid : wideKeySpec.validate = .ok () := by
    rw [AgentTaskSpec.validate, keys]
    rfl
  rw [graphPayload, mapM_cons, AgentTaskSpec.graphDict, valid]
  rfl

/-- The Python code accepts the long key and the Rust code does not. -/
theorem validators_do_not_agree :
    ¬ ∀ (sha256 : Sha256) (graphHash : List AgentGraphTask → Text)
        (specs : List (AgentTaskSpec Unit)) (graph : AgentGraph),
      graphPayload specs = .ok graph → ValidatorsAgree sha256 graphHash graph := by
  intro agree
  obtain ⟨schema, valid⟩ := valid_of_graphPayload graphPayload_wideKeySpec
  have both := (validatorsAgree_iff_of_valid (fun _ => []) (fun _ => []) schema valid).mp
    (agree _ _ _ _ graphPayload_wideKeySpec) graphOk_wideKeySpec
  have short := both.2.1 _ (mem_singleton_self _) _ (mem_singleton_self _)
  rw [length_flatMap, map_replicate, sum_replicate] at short
  exact absurd short (by decide)

end Agreement

end Aegis.Coordination
