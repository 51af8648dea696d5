import AegisCognition.Foundation.TopologicalOrder

/-!
# Tables of tasks with their dependencies

The order in which the tasks of a table may start, as the Rust code lists it. It counts for every
task the dependencies that are still open and keeps the ready tasks in an ordered set. For a table
without dangling dependencies this is the list that always starts the smallest task, and it holds
all tasks exactly when no task depends on itself through others.
-/

namespace Aegis.Coordination

open Foundation List

/-- The tasks by id with their dependencies, in the order of the table. -/
abbrev TaskMap := List (Nat × List Nat)

namespace TaskMap

def ids (tasks : TaskMap) : List Nat := tasks.map Prod.fst

/-- The tasks that depend on a task: its id is filed under each of its dependencies. -/
def children (tasks : TaskMap) : Nat → List Nat :=
  tasks.foldl (fun children task =>
    task.2.foldl (fun children dependency =>
      Function.update children dependency (children dependency ++ [task.1])) children) fun _ => []

/-- The number of dependencies of every task. -/
def indegree (tasks : TaskMap) (taskId : Nat) : Nat :=
  ((tasks.find? (·.1 == taskId)).map (·.2.length)).getD 0

/-- The tasks without dependencies. -/
def roots (tasks : TaskMap) : List Nat :=
  (tasks.filter (·.2.length == 0)).map Prod.fst

end TaskMap

/-- `BTreeSet::insert`; the set is the ascending list of its elements. -/
def btreeInsert (value : Nat) (set : List Nat) : List Nat :=
  if value ∈ set then set else set.orderedInsert (· ≤ ·) value

/-- The order in which the tasks may start. -/
def TaskMap.topologicalOrder (tasks : TaskMap) : List Nat :=
  kahn btreeInsert tasks.children tasks.length tasks.indegree
    (tasks.roots.foldl (fun ready taskId => btreeInsert taskId ready) [])

namespace TaskMap

variable {tasks : TaskMap} {taskId child : Nat}

def nodes (tasks : TaskMap) : Finset Nat := tasks.ids.toFinset

def needs (tasks : TaskMap) (taskId : Nat) : Finset Nat :=
  ((tasks.find? (·.1 == taskId)).map (·.2.toFinset)).getD ∅

/-- Every id has one entry, without repeated dependencies and with no other than entries. -/
structure WellFormed (tasks : TaskMap) : Prop where
  ids : tasks.ids.Nodup
  dependencies : ∀ task ∈ tasks, task.2.Nodup
  closed : ∀ task ∈ tasks, ∀ dependency ∈ task.2, dependency ∈ tasks.ids

theorem mem_ids : taskId ∈ tasks.ids ↔ ∃ task ∈ tasks, task.1 = taskId :=
  mem_map

section

variable {task : Nat × List Nat} (unique : tasks.ids.Nodup) (mem : task ∈ tasks)
include unique mem

theorem find?_eq : tasks.find? (·.1 == task.1) = some task := by
  cases found : tasks.find? (·.1 == task.1) with
  | none =>
      have := List.find?_eq_none.mp found task mem
      simp at this
  | some other =>
      have same : other.1 = task.1 := by simpa using List.find?_some found
      exact congrArg some
        (inj_on_of_nodup_map unique (mem_of_find?_eq_some found) mem same)

theorem needs_eq : tasks.needs task.1 = task.2.toFinset := by
  rw [needs, find?_eq unique mem]
  rfl

theorem indegree_eq : tasks.indegree task.1 = task.2.length := by
  rw [indegree, find?_eq unique mem]
  rfl

end

/-- Filing an id under its dependencies, none of them twice. -/
theorem foldl_file (filed : Nat → List Nat) {dependencies : List Nat}
    (nodup : dependencies.Nodup) :
    dependencies.foldl (fun filed dependency =>
      Function.update filed dependency (filed dependency ++ [child])) filed taskId =
      filed taskId ++ if taskId ∈ dependencies then [child] else [] := by
  induction dependencies generalizing filed with
  | nil => simp
  | cons dependency dependencies ih =>
      obtain ⟨fresh, nodup⟩ := nodup_cons.mp nodup
      rw [foldl_cons, ih _ nodup]
      by_cases same : taskId = dependency
      · obtain rfl := same
        simp [fresh]
      · simp [same]

/-- The tasks that depend on a task, in the order of the table. -/
theorem children_eq (distinct : ∀ task ∈ tasks, task.2.Nodup) :
    tasks.children taskId =
      (tasks.filter fun task => decide (taskId ∈ task.2)).map Prod.fst := by
  have from_ (filed : Nat → List Nat) : tasks.foldl (fun children task =>
      task.2.foldl (fun children dependency =>
        Function.update children dependency (children dependency ++ [task.1])) children) filed
      taskId =
        filed taskId ++ (tasks.filter fun task => decide (taskId ∈ task.2)).map Prod.fst := by
    induction tasks generalizing filed with
    | nil => simp
    | cons task tasks ih =>
        obtain ⟨here, distinct⟩ := forall_mem_cons.mp distinct
        rw [foldl_cons, ih distinct, foldl_file filed here, append_assoc]
        by_cases mem : taskId ∈ task.2 <;> simp [mem]
  rw [children, from_]
  rfl

section

variable (wf : tasks.WellFormed)
include wf

theorem mem_children :
    child ∈ tasks.children taskId ↔ child ∈ tasks.nodes ∧ taskId ∈ tasks.needs child := by
  rw [children_eq wf.dependencies, mem_map]
  constructor
  · rintro ⟨task, mem, rfl⟩
    obtain ⟨mem, depends⟩ := mem_filter.mp mem
    rw [needs_eq wf.ids mem, mem_toFinset]
    exact ⟨mem_toFinset.mpr (mem_ids.mpr ⟨task, mem, rfl⟩), by simpa using depends⟩
  · rintro ⟨listed, depends⟩
    obtain ⟨task, mem, rfl⟩ := mem_ids.mp (mem_toFinset.mp listed)
    rw [needs_eq wf.ids mem, mem_toFinset] at depends
    exact ⟨task, mem_filter.mpr ⟨mem, by simpa using depends⟩, rfl⟩

theorem nodup_children : (tasks.children taskId).Nodup := by
  rw [children_eq wf.dependencies]
  exact wf.ids.sublist (filter_sublist.map _)

theorem needs_subset :
    ∀ taskId ∈ tasks.nodes, tasks.needs taskId ⊆ tasks.nodes := by
  intro taskId listed dependency needed
  obtain ⟨task, mem, rfl⟩ := mem_ids.mp (mem_toFinset.mp listed)
  rw [needs_eq wf.ids mem, mem_toFinset] at needed
  exact mem_toFinset.mpr (wf.closed task mem dependency needed)

theorem mem_roots :
    taskId ∈ tasks.roots ↔ taskId ∈ startable tasks.nodes tasks.needs ∅ := by
  rw [mem_startable, roots, mem_map, Finset.subset_empty]
  constructor
  · rintro ⟨task, mem, rfl⟩
    obtain ⟨mem, none⟩ := mem_filter.mp mem
    have : task.2 = [] := length_eq_zero_iff.mp (by simpa using none)
    rw [needs_eq wf.ids mem, this]
    exact ⟨mem_toFinset.mpr (mem_ids.mpr ⟨task, mem, rfl⟩), Finset.notMem_empty _, rfl⟩
  · rintro ⟨listed, -, none⟩
    obtain ⟨task, mem, rfl⟩ := mem_ids.mp (mem_toFinset.mp listed)
    rw [needs_eq wf.ids mem, toFinset_eq_empty_iff] at none
    exact ⟨task, mem_filter.mpr ⟨mem, by simp [none]⟩, rfl⟩

/-- The state in which both loops begin. -/
theorem tracks {ready : List Nat} (sorted : ready.Pairwise (· < ·))
    (mem_ready : ∀ taskId, taskId ∈ ready ↔ taskId ∈ tasks.roots) :
    Tracks tasks.nodes tasks.needs ∅ tasks.indegree ready where
  closed := by simp
  sorted := sorted
  mem_ready := fun taskId => (mem_ready taskId).trans (mem_roots wf)
  degree_eq := by
    intro taskId listed
    obtain ⟨task, mem, rfl⟩ := mem_ids.mp (mem_toFinset.mp listed)
    rw [indegree_eq wf.ids mem, needs_eq wf.ids mem, Finset.sdiff_empty,
      toFinset_card_of_nodup (wf.dependencies task mem)]

end

theorem pairwise_lt_of_nodup {numbers : List Nat} (sorted : numbers.Pairwise (· ≤ ·))
    (nodup : numbers.Nodup) : numbers.Pairwise (· < ·) :=
  (sorted.and nodup).imp fun both => Nat.lt_of_le_of_ne both.1 both.2

theorem pairwise_lt_insertionSort {numbers : List Nat} (nodup : numbers.Nodup) :
    (numbers.insertionSort (· ≤ ·)).Pairwise (· < ·) :=
  pairwise_lt_of_nodup (pairwise_insertionSort ..)
    ((perm_insertionSort ..).nodup_iff.mpr nodup)

theorem mem_btreeInsert {set : List Nat} :
    taskId ∈ btreeInsert child set ↔ taskId = child ∨ taskId ∈ set := by
  rw [btreeInsert]
  split
  · rename_i mem
    exact ⟨.inr, fun h => h.elim (fun same => same ▸ mem) id⟩
  · exact mem_orderedInsert ..

theorem pairwise_btreeInsert (child : Nat) {set : List Nat} (sorted : set.Pairwise (· < ·)) :
    (btreeInsert child set).Pairwise (· < ·) := by
  rw [btreeInsert]
  split
  · exact sorted
  · rename_i fresh
    refine pairwise_lt_of_nodup ((sorted.imp Nat.le_of_lt).orderedInsert ..) ?_
    exact (perm_orderedInsert ..).nodup_iff.mpr
      (nodup_cons.mpr ⟨fresh, sorted.imp Nat.ne_of_lt⟩)

theorem foldl_btreeInsert (numbers : List Nat) {set : List Nat} (sorted : set.Pairwise (· < ·)) :
    (numbers.foldl (fun set number => btreeInsert number set) set).Pairwise (· < ·) ∧
      ∀ taskId, taskId ∈ numbers.foldl (fun set number => btreeInsert number set) set ↔
        taskId ∈ numbers ∨ taskId ∈ set := by
  induction numbers generalizing set with
  | nil => exact ⟨sorted, by simp⟩
  | cons number numbers ih =>
      obtain ⟨sorted', members⟩ := ih (pairwise_btreeInsert number sorted)
      refine ⟨sorted', fun taskId => ?_⟩
      rw [foldl_cons, members, mem_btreeInsert, mem_cons]
      tauto

section

variable (wf : tasks.WellFormed)
include wf

theorem nodup_roots : tasks.roots.Nodup :=
  wf.ids.sublist (filter_sublist.map _)

theorem card_nodes : tasks.nodes.card = tasks.length := by
  rw [nodes, toFinset_card_of_nodup wf.ids, ids, length_map]

/-- The loop in any number of rounds. -/
theorem kahn_eq_smallestFirst (rounds : Nat) :
    kahn btreeInsert tasks.children rounds tasks.indegree
      (tasks.roots.foldl (fun ready taskId => btreeInsert taskId ready) []) =
      smallestFirst tasks.nodes tasks.needs rounds ∅ := by
  obtain ⟨sorted, members⟩ := foldl_btreeInsert tasks.roots List.Pairwise.nil
  refine kahn_eq (fun child ready sorted _ => ⟨pairwise_btreeInsert child sorted, fun _ =>
    mem_btreeInsert⟩) (fun taskId _ => nodup_children wf) (fun taskId _ child => mem_children wf)
    (tracks wf sorted fun taskId => ?_)
  rw [members]
  simp

theorem topologicalOrder_eq :
    tasks.topologicalOrder = smallestFirst tasks.nodes tasks.needs tasks.length ∅ :=
  kahn_eq_smallestFirst wf tasks.length

/-- The order of a graph without a cycle is the smallest of its complete lists. -/
theorem topologicalOrder_least
    (acyclic : Acyclic tasks.nodes tasks.needs) :
    Completes tasks.nodes tasks.needs ∅ tasks.topologicalOrder ∧
      ∀ other, Completes tasks.nodes tasks.needs ∅ other →
        tasks.topologicalOrder = other ∨ List.Lex (· < ·) tasks.topologicalOrder other := by
  have short {order : List Nat} (complete : Completes tasks.nodes tasks.needs ∅ order) :
      order.length ≤ tasks.length := by
    have := complete.1.length_le
    rwa [Finset.sdiff_empty, card_nodes wf] at this
  rw [topologicalOrder_eq wf]
  constructor
  · obtain ⟨order, complete⟩ := acyclic.exists_completes (needs_subset wf) ∅
    exact (smallestFirst_least complete (short complete)).1
  · intro other complete
    exact (smallestFirst_least complete (short complete)).2

/-- Every task is listed exactly when no task depends on itself through others. -/
theorem length_eq_iff :
    (smallestFirst tasks.nodes tasks.needs tasks.length ∅).length = tasks.length ↔
      Acyclic tasks.nodes tasks.needs := by
  have enough : (tasks.nodes \ ∅).card ≤ tasks.length := by
    rw [Finset.sdiff_empty, card_nodes wf]
  have full : (smallestFirst tasks.nodes tasks.needs tasks.length ∅).length =
    (tasks.nodes \ ∅).card ↔ _ := length_smallestFirst_iff enough
  rw [Finset.sdiff_empty, card_nodes wf] at full
  rw [full, exists_completes_iff (needs_subset wf)]

end

end TaskMap

end Aegis.Coordination
