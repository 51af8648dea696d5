import AegisCognition.Task.Transparency

/-!
# The order of the tasks

Filing a task refuses the id zero and a dependency on itself, so what can be wrong with the
dependencies of a ledger is that one of them is not there, or that they run in a circle. Exactly
these ledgers have no topological order. The order of any other ledger lists the tasks so that
each comes after all that it depends on, and it is the smallest such list.
-/

namespace Aegis.Task

open Std Foundation Coordination Replay TaskMap List

namespace TaskLedger

/-- The second task names the first one as a dependency. -/
def DependsOn (ledger : TaskLedger) (dependencyId taskId : Nat) : Prop :=
  ∃ card, ledger.task taskId = some card ∧ dependencyId ∈ card.dependencyIds

/-- Every dependency is a task of the ledger. -/
def Closed (ledger : TaskLedger) : Prop :=
  ∀ dependencyId taskId, ledger.DependsOn dependencyId taskId → dependencyId ∈ ledger.tasks

/-- No task depends on itself, directly or through others. -/
def CycleFree (ledger : TaskLedger) : Prop :=
  ∀ taskId, ¬ Relation.TransGen ledger.DependsOn taskId taskId

/-- A list of all tasks in which each comes after all that it depends on. -/
structure IsOrder (ledger : TaskLedger) (order : List Nat) : Prop where
  perm : order.Perm ledger.tasks.keys
  after : ∀ before taskId rest, order = before ++ taskId :: rest →
    ∀ dependencyId, ledger.DependsOn dependencyId taskId → dependencyId ∈ before

/-- What filing a task makes sure of. -/
def Linked (ledger : TaskLedger) : Prop :=
  ∀ taskId card, ledger.task taskId = some card →
    card.taskId ≠ 0 ∧ ∀ dependencyId ∈ card.dependencyIds,
      dependencyId ≠ 0 ∧ dependencyId ≠ card.taskId

variable {ledger : TaskLedger} {order : List Nat} {taskId dependencyId : Nat}

/-! ### Ledgers of filed tasks -/

theorem linked_new (deadlineHorizonMs : Nat) : Linked (new deadlineHorizonMs) := by
  intro taskId card found
  simp [new, task] at found

theorem Linked.insertTask (h : Linked ledger) (card : TaskCard) :
    Linked (ledger.insertTask card).2 := by
  unfold TaskLedger.insertTask
  split
  · exact h
  rename_i sound
  split
  · exact h
  split
  · exact h
  intro taskId found known
  obtain ⟨-, rfl⟩ | ⟨-, old⟩ := OrderedMap.getElem?_insert_eq_some_iff.mp known
  · rw [not_or, any_eq_true] at sound
    refine ⟨sound.1, fun dependencyId mem => ?_⟩
    have listed : dependencyId ∈ card.dependencyIds :=
      (mem_insertionSort _).mp ((destutter_sublist ..).subset mem)
    have apart : ¬ (dependencyId = 0 ∨ dependencyId = card.taskId) := fun bad =>
      sound.2 ⟨dependencyId, listed, by simpa using bad⟩
    exact not_or.mp apart
  · exact h taskId found old

theorem Linked.of_links (h : Linked ledger) {next : TaskLedger}
    (links : Agree TaskCard.links ledger.tasks next.tasks) : Linked next := by
  intro taskId card found
  have same := links taskId
  rw [show next.tasks[taskId]? = some card from found] at same
  obtain ⟨old, known, same⟩ := Option.map_eq_some_iff.mp same
  obtain ⟨named, depends⟩ := Prod.mk.inj same
  rw [← named, ← depends]
  exact h taskId old known

theorem agree_links_of_relabels {next : TaskLedger} (moved : Relabels ledger next) :
    Agree TaskCard.links ledger.tasks next.tasks := by
  obtain rfl | ⟨taskId, old, card, found, same, rfl⟩ := moved
  · exact fun _ => rfl
  · exact agree_links_put found same

theorem agree_links_completeLoop (ledger : TaskLedger) (fuel taskId : Nat) :
    Agree TaskCard.links ledger.tasks (completeLoop fuel ledger taskId).2.tasks := by
  have keep (next : TaskLedger) (taskId : Nat) (status : TaskStatus)
      (kept : Agree TaskCard.links ledger.tasks next.tasks) :
      Agree TaskCard.links ledger.tasks (next.transitionStatus taskId status).2.tasks :=
    kept.trans (agree_links_of_relabels (relabels_transitionStatus next taskId status))
  exact completeLoop_invariant keep fuel taskId fun _ => rfl

theorem Coherent.agree_links_step (h : Coherent ledger) (blake3 : Hasher) (op : TaskLedgerOp) :
    (∃ card, op = .insertTask card) ∨
      Agree TaskCard.links ledger.tasks (ledger.step blake3 op).tasks := by
  cases op with
  | insertTask card => exact .inl ⟨card, rfl⟩
  | markStatus taskId status =>
      exact .inr (agree_links_of_relabels (relabels_transitionStatus ledger taskId status))
  | transitionStatus taskId status =>
      exact .inr (agree_links_of_relabels (relabels_transitionStatus ledger taskId status))
  | completeTask taskId => exact .inr (agree_links_completeLoop ledger 5 taskId)
  | scheduleRetryWait taskId notBeforeMs =>
      exact .inr (agree_links_of_relabels (relabels_scheduleRetryWait ledger taskId notBeforeMs))
  | startRetryAttempt taskId attemptId nowMs =>
      exact .inr (agree_links_of_relabels
        (relabels_startRetryAttempt ledger taskId attemptId nowMs))
  | recomputePriorities nowMs => exact .inr (h.rescored_recomputePriorities nowMs).tasks.links
  | orderedReadyTasks nowMs => exact .inr (h.rescored_orderedReadyTasks nowMs).tasks.links
  | selectNextTask nowMs => exact .inr (h.rescored_orderedReadyTasks nowMs).tasks.links
  | selectNextTaskProof nowMs =>
      refine .inr ?_
      rw [TaskLedger.step, selectNextTaskProof_ledger]
      exact (h.rescored_orderedReadyTasks nowMs).tasks.links

theorem Linked.step (h : Linked ledger) (coherent : Coherent ledger) (blake3 : Hasher)
    (op : TaskLedgerOp) : Linked (ledger.step blake3 op) := by
  obtain ⟨card, rfl⟩ | links := coherent.agree_links_step blake3 op
  · exact h.insertTask card
  · exact h.of_links links

theorem run_linked (blake3 : Hasher) (deadlineHorizonMs : Nat) (ops : List TaskLedgerOp) :
    Linked (run (TaskLedger.step blake3) (new deadlineHorizonMs) ops) := by
  have keep : ∀ (ledger : TaskLedger) op, Coherent ledger ∧ Linked ledger →
      Coherent (ledger.step blake3 op) ∧ Linked (ledger.step blake3 op) :=
    fun _ op kept => ⟨kept.1.step blake3 op, kept.2.step kept.1 blake3 op⟩
  exact (run_invariant keep ops ⟨coherent_new deadlineHorizonMs, linked_new deadlineHorizonMs⟩).2

/-- A check of the dependencies fails at one that is missing, and at nothing else. -/
theorem Linked.validateDependencies_cases (h : Linked ledger) :
    ledger.validateDependencies = .ok () ∧ ledger.Closed ∨
      ∃ dependencyId taskId, ledger.DependsOn dependencyId taskId ∧
        dependencyId ∉ ledger.tasks ∧
        ledger.validateDependencies = .error (.missingDependency dependencyId) := by
  cases checked : ledger.validateDependencies with
  | ok _ =>
      refine .inl ⟨rfl, ?_⟩
      rintro dependencyId taskId ⟨card, found, mem⟩
      exact validateDependencies_ok checked found mem
  | error error =>
      refine .inr ?_
      obtain ⟨card, mem, failed⟩ := exists_of_forM_eq_error checked
      obtain ⟨taskId, found⟩ := OrderedMap.mem_valueList_iff.mp mem
      obtain ⟨named, sound⟩ := h taskId card found
      have failed := (bind_eq_error_iff.mp failed).resolve_left fun refused =>
        named (refuseWhen_eq_error_iff.mp refused).1
      obtain ⟨_, -, failed⟩ := failed
      obtain ⟨dependencyId, depends, failed⟩ := exists_of_forM_eq_error failed
      have failed := (bind_eq_error_iff.mp failed).resolve_left fun refused =>
        not_or.mpr (sound dependencyId depends) (refuseWhen_eq_error_iff.mp refused).1
      obtain ⟨_, -, failed⟩ := failed
      obtain ⟨missing, rfl⟩ := refuseWhen_eq_error_iff.mp failed
      exact ⟨dependencyId, taskId, ⟨card, found, depends⟩, missing, rfl⟩

/-! ### The table of the ledger -/

theorem dependsOn_iff : ledger.DependsOn dependencyId taskId ↔
    taskId ∈ ledger.taskMap.nodes ∧ dependencyId ∈ ledger.taskMap.needs taskId := by
  constructor
  · rintro ⟨card, found, depends⟩
    have entry : (taskId, card.dependencyIds) ∈ ledger.taskMap := mem_taskMap.mpr ⟨card, found, rfl⟩
    have needs := needs_eq (nodup_ids ledger) entry
    refine ⟨mem_toFinset.mpr (mem_ids.mpr ⟨_, entry, rfl⟩), ?_⟩
    exact needs ▸ mem_toFinset.mpr depends
  · rintro ⟨listed, needed⟩
    obtain ⟨entry, mem, rfl⟩ := mem_ids.mp (mem_toFinset.mp listed)
    obtain ⟨card, found, same⟩ := mem_taskMap.mp mem
    rw [needs_eq (nodup_ids ledger) mem, mem_toFinset, ← same] at needed
    exact ⟨card, found, needed⟩

theorem cycleFree_iff :
    ledger.CycleFree ↔ Acyclic ledger.taskMap.nodes ledger.taskMap.needs := by
  have same : ledger.DependsOn = fun need node =>
      node ∈ ledger.taskMap.nodes ∧ need ∈ ledger.taskMap.needs node := by
    funext need node
    exact propext dependsOn_iff
  rw [CycleFree, same]
  rfl

theorem isOrder_iff :
    ledger.IsOrder order ↔ Completes ledger.taskMap.nodes ledger.taskMap.needs ∅ order := by
  have keys : ledger.taskMap.nodes = ledger.tasks.keys.toFinset := by
    rw [TaskMap.nodes, ids_taskMap]
  have unique : ledger.tasks.keys.Nodup := ExtTreeMap.nodup_keys
  rw [Completes.iff_respects, keys]
  constructor
  · intro h
    have same := toFinset_eq_of_perm _ _ h.perm
    refine ⟨h.perm.nodup_iff.mpr unique, same, ?_⟩
    intro before taskId rest split dependencyId needed
    have listed : taskId ∈ ledger.taskMap.nodes := by
      rw [keys, ← same, split]
      simp
    apply mem_toFinset.mpr
    exact h.after before taskId rest split dependencyId (dependsOn_iff.mpr ⟨listed, needed⟩)
  · rintro ⟨nodup, same, before⟩
    refine ⟨perm_of_nodup_nodup_toFinset_eq nodup unique same, ?_⟩
    intro first taskId rest split dependencyId depends
    apply mem_toFinset.mp
    exact before first taskId rest split (dependsOn_iff.mp depends).2

theorem length_taskMap (ledger : TaskLedger) : ledger.taskMap.length = ledger.tasks.size := by
  rw [taskMap, length_map, ExtTreeMap.length_toList]

theorem topologicalOrder_of_closed (filed : Filed ledger)
    (valid : ledger.validateDependencies = .ok ()) :
    (ledger.CycleFree → ledger.topologicalOrder = .ok ledger.taskMap.topologicalOrder) ∧
      (¬ ledger.CycleFree → ledger.topologicalOrder = .error .cycleDetected) := by
  have wf := filed.wellFormed valid
  have full : ledger.taskMap.topologicalOrder.length = ledger.tasks.size ↔ ledger.CycleFree := by
    rw [← length_taskMap, cycleFree_iff, topologicalOrder_eq wf]
    exact length_eq_iff wf
  have ordered : ledger.topologicalOrder =
      if ledger.taskMap.topologicalOrder.length ≠ ledger.tasks.size then .error .cycleDetected
      else .ok ledger.taskMap.topologicalOrder := by
    rw [topologicalOrder, topologicalOrderWithChildren, valid]
    show Except.map Prod.fst (refuseWhen _ _ >>= _) = _
    rw [refuseWhen]
    split <;> rfl
  rw [ordered, ← full]
  exact ⟨fun all => if_neg (not_not.mpr all), fun some => if_pos some⟩

/-- A ledger has an order exactly when all dependencies are there and none run in a circle. Then
the order lists every task after all that it depends on, and it is the smallest such list. If a
dependency is missing, the error names one that is; otherwise it reports the cycle. -/
theorem inserted_topologicalOrder (deadlineHorizonMs : Nat) (cards : List TaskCard) :
    let ledger := run (fun ledger card => (ledger.insertTask card).2) (new deadlineHorizonMs) cards
    ((∃ order, ledger.topologicalOrder = .ok order) ↔ ledger.Closed ∧ ledger.CycleFree) ∧
      (∀ order, ledger.topologicalOrder = .ok order → ledger.IsOrder order ∧
        ∀ other, ledger.IsOrder other → order = other ∨ List.Lex (· < ·) order other) ∧
      (¬ ledger.Closed → ∃ dependencyId taskId, ledger.DependsOn dependencyId taskId ∧
        dependencyId ∉ ledger.tasks ∧
        ledger.topologicalOrder = .error (.missingDependency dependencyId)) ∧
      (ledger.Closed → ¬ ledger.CycleFree → ledger.topologicalOrder = .error .cycleDetected) := by
  intro ledger
  have coherent : Coherent ledger :=
    run_invariant (fun _ card kept => kept.insertTask card) cards (coherent_new deadlineHorizonMs)
  have linked : Linked ledger :=
    run_invariant (fun _ card kept => kept.insertTask card) cards (linked_new deadlineHorizonMs)
  obtain ⟨valid, closed⟩ | ⟨dependencyId, taskId, depends, missing, failed⟩ :=
    linked.validateDependencies_cases
  · have wf := coherent.filed.wellFormed valid
    obtain ⟨listed, refused⟩ := topologicalOrder_of_closed coherent.filed valid
    refine ⟨⟨?_, fun sound => ⟨_, listed sound.2⟩⟩, ?_, fun open_ => absurd closed open_,
      fun _ => refused⟩
    · rintro ⟨order, ordered⟩
      refine ⟨closed, ?_⟩
      by_contra cyclic
      cases ordered.symm.trans (refused cyclic)
    · intro order ordered
      have free : ledger.CycleFree := by
        by_contra cyclic
        cases ordered.symm.trans (refused cyclic)
      obtain rfl := Except.ok.inj (ordered.symm.trans (listed free))
      obtain ⟨complete, least⟩ := topologicalOrder_least wf (cycleFree_iff.mp free)
      refine ⟨isOrder_iff.mpr complete, ?_⟩
      intro other respects
      exact least other (isOrder_iff.mp respects)
  · have unclosed : ¬ ledger.Closed := fun closed => missing (closed dependencyId taskId depends)
    have unordered : ledger.topologicalOrder = .error (.missingDependency dependencyId) := by
      rw [topologicalOrder, topologicalOrderWithChildren, failed]
      rfl
    refine ⟨⟨?_, fun sound => absurd sound.1 unclosed⟩, ?_,
      fun _ => ⟨dependencyId, taskId, depends, missing, unordered⟩,
      fun closed => absurd closed unclosed⟩
    · rintro ⟨order, ordered⟩
      cases ordered.symm.trans unordered
    · intro order ordered
      cases ordered.symm.trans unordered

/-- The order and the graph that a ledger builds change with insertions only. -/
theorem run_topology_stays (blake3 : Hasher) (deadlineHorizonMs : Nat)
    (ops : List TaskLedgerOp) (op : TaskLedgerOp) :
    let ledger := run (TaskLedger.step blake3) (new deadlineHorizonMs) ops
    (∃ card, op = .insertTask card) ∨
      (ledger.step blake3 op).topologicalOrder = ledger.topologicalOrder ∧
        (ledger.step blake3 op).buildGraphCache = ledger.buildGraphCache := by
  intro ledger
  obtain inserted | same :=
    (run_coherent blake3 deadlineHorizonMs ops).agree_links_step blake3 op
  · exact .inl inserted
  · rw [topologicalOrder, topologicalOrder, topologicalOrderWithChildren_eq same,
      buildGraphCache_eq same]
    exact .inr ⟨rfl, rfl⟩

end TaskLedger

end Aegis.Task
