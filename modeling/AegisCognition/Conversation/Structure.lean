import AegisCognition.Conversation.Transition

/-!
# The shape of a conversation

In every reachable state the turns of a conversation, the parts of a turn and the
checkpoints of an execution are numbered without gaps in the order of their insertion, and
a turn has at most one running execution. Along every run a closed turn stays as it is and
a tool call moves forward only, so it is settled at most once.

Both are read off the edits: what one edit keeps, every run keeps.
-/

namespace Aegis.Conversation

open Foundation

variable {coupled : Prop} {externals : Externals} {tables middle after : Tables}

/-- The numbering of the rows, and the single running execution of a turn. -/
structure Structured (tables : Tables) : Prop where
  ordinals : ∀ id, (tables.turns.filter (·.conversationId == id)).map (·.ordinal) =
    List.range' 1 (tables.turns.filter (·.conversationId == id)).length
  partIndexes : ∀ key, (tables.parts.filter (·.turnKey == key)).map (·.partIndex) =
    List.range (tables.parts.filter (·.turnKey == key)).length
  sequences : ∀ execution ∈ tables.executions,
    (tables.checkpoints.filter (·.executionId == execution.executionId)).map (·.sequence) =
      List.range' 1 execution.checkpointSeq
  oneRunning : ∀ key, (tables.executions.filter fun execution =>
    execution.turnKey == key && execution.status == .running).length ≤ 1

theorem Consistent.structured (h : Consistent tables) : Structured tables := by
  refine ⟨h.ordinals, h.partIndexes, h.sequences, ?_⟩
  intro key
  have once := (List.Nodup.of_map _ h.executionKeys).filter fun execution =>
    execution.turnKey == key && execution.status == .running
  have same : ∀ first ∈ tables.executions.filter (fun execution =>
      execution.turnKey == key && execution.status == .running),
      ∀ second ∈ tables.executions.filter (fun execution =>
        execution.turnKey == key && execution.status == .running), first = second := by
    intro first firstMem second secondMem
    simp only [List.mem_filter, Bool.and_eq_true, beq_iff_eq] at firstMem secondMem
    exact h.oneRunning first firstMem.1 second secondMem.1 firstMem.2.2 secondMem.2.2
      (firstMem.2.1.trans secondMem.2.1.symm)
  match listed : tables.executions.filter fun execution =>
      execution.turnKey == key && execution.status == .running with
  | [] => simp [listed]
  | [_] => simp [listed]
  | first :: second :: rest =>
      rw [listed] at once same
      obtain rfl := same first (by simp) second (by simp)
      simp at once

/-- A closed turn keeps its status, its execution, its parts and the executions that were
started for it. -/
def KeepsClosedTurns (tables after : Tables) : Prop :=
  ∀ turn ∈ tables.turns, turn.status.isOpen = false →
    (∃ kept ∈ after.turns, kept.key = turn.key ∧ kept.status = turn.status ∧
      kept.executionId = turn.executionId) ∧
    after.parts.filter (·.turnKey == turn.key) = tables.parts.filter (·.turnKey == turn.key) ∧
    (after.executions.filter (·.turnKey == turn.key)).map (·.executionId) =
      (tables.executions.filter (·.turnKey == turn.key)).map (·.executionId)

theorem KeepsClosedTurns.refl (tables : Tables) : KeepsClosedTurns tables tables :=
  fun turn mem _ => ⟨⟨turn, mem, rfl, rfl, rfl⟩, rfl, rfl⟩

theorem KeepsClosedTurns.trans (first : KeepsClosedTurns tables middle)
    (second : KeepsClosedTurns middle after) : KeepsClosedTurns tables after := by
  intro turn mem closed
  obtain ⟨⟨kept, keptMem, key, status, execution⟩, parts, executions⟩ := first turn mem closed
  obtain ⟨⟨last, lastMem, key', status', execution'⟩, parts', executions'⟩ :=
    second kept keptMem (by rw [status, closed])
  rw [key] at parts' executions'
  exact ⟨⟨last, lastMem, key'.trans key, status'.trans status, execution'.trans execution⟩,
    parts'.trans parts, executions'.trans executions⟩

theorem Consistent.key_ne (h : Consistent tables) {turn : TurnRow} {key : String × String}
    (mem : turn ∈ tables.turns) (closed : turn.status.isOpen = false)
    (pending : ∃ other ∈ tables.turns, other.key = key ∧ other.status.isOpen) :
    key ≠ turn.key := by
  rintro rfl
  obtain ⟨other, otherMem, same, isOpen⟩ := pending
  obtain rfl := eq_of_key_eq h.turnKeys otherMem mem same
  rw [closed] at isOpen
  cases isOpen

theorem Edit.keepsClosedTurns (edit : Edit coupled tables after) (h : Consistent tables) :
    KeepsClosedTurns tables after := by
  intro turn mem closed
  cases edit with
  | addTurn row part fresh covered next first =>
      refine ⟨⟨turn, List.mem_append_left _ mem, rfl, rfl, rfl⟩, ?_, rfl⟩
      refine filter_concat_of_not ?_
      rw [beq_eq_false_iff_ne, first.1]
      exact (fresh turn mem).symm
  | reviseTurns p f kept covered pending closes =>
      refine ⟨⟨turn, ?_, rfl, rfl, rfl⟩, rfl, rfl⟩
      have unselected : ¬ p turn = true := by
        intro selected
        simp [pending turn mem selected] at closed
      have here := mem_updateWhere_of_mem (p := p) (f := f) mem
      rwa [if_neg unselected] at here
  | addPart part pending next =>
      refine ⟨⟨turn, mem, rfl, rfl, rfl⟩, ?_, rfl⟩
      exact filter_concat_of_not (beq_eq_false_iff_ne.mpr (h.key_ne mem closed pending))
  | addExecution row fresh covered pending idle unmarked =>
      refine ⟨⟨turn, mem, rfl, rfl, rfl⟩, rfl, ?_⟩
      apply congrArg
      exact filter_concat_of_not (beq_eq_false_iff_ne.mpr (h.key_ne mem closed pending))
  | endExecutions p f kept covered ends =>
      refine ⟨⟨turn, mem, rfl, rfl, rfl⟩, rfl, ?_⟩
      rw [filter_updateWhere fun row => by rw [(kept row).2.1],
        map_updateWhere fun row => (kept row).1]
  | addCheckpoint row execution revision found owner running covered next =>
      refine ⟨⟨turn, mem, rfl, rfl, rfl⟩, rfl, ?_⟩
      rw [filter_updateWhere, map_updateWhere]
      · exact fun _ => rfl
      · exact fun _ => rfl
  | _ => exact ⟨⟨turn, mem, rfl, rfl, rfl⟩, rfl, rfl⟩

/-- The status has not changed or has moved on. -/
def ToolCallStatus.Reaches (first last : ToolCallStatus) : Prop :=
  last = first ∨ first.moves last = true

theorem ToolCallStatus.Reaches.trans {first middle last : ToolCallStatus}
    (h : first.Reaches middle) (h' : middle.Reaches last) : first.Reaches last := by
  cases first <;> cases middle <;> cases last <;>
    simp_all [ToolCallStatus.Reaches, ToolCallStatus.moves]

/-- Every tool call is still there and its status has only moved on. -/
def MovesToolCalls (tables after : Tables) : Prop :=
  ∀ call ∈ tables.toolCalls, ∃ kept ∈ after.toolCalls, kept.callId = call.callId ∧
    call.status.Reaches kept.status

theorem MovesToolCalls.refl (tables : Tables) : MovesToolCalls tables tables :=
  fun call mem => ⟨call, mem, rfl, .inl rfl⟩

theorem MovesToolCalls.trans (first : MovesToolCalls tables middle)
    (second : MovesToolCalls middle after) : MovesToolCalls tables after := by
  intro call mem
  obtain ⟨kept, keptMem, same, reaches⟩ := first call mem
  obtain ⟨last, lastMem, same', reaches'⟩ := second kept keptMem
  exact ⟨last, lastMem, same'.trans same, reaches.trans reaches'⟩

theorem Edit.movesToolCalls (edit : Edit coupled tables after) : MovesToolCalls tables after := by
  intro call mem
  cases edit with
  | addToolCall row fresh covered requested =>
      exact ⟨call, List.mem_append_left _ mem, rfl, .inl rfl⟩
  | moveToolCalls p f kept covered moves =>
      refine ⟨_, mem_updateWhere_of_mem mem, ?_⟩
      split
      next selected => exact ⟨(kept call).1, .inr (moves call mem selected)⟩
      next => exact ⟨rfl, .inl rfl⟩
  | _ => exact ⟨call, mem, rfl, .inl rfl⟩

theorem Edits.keepsClosedTurns (edits : Edits coupled tables after) (h : Consistent tables) :
    KeepsClosedTurns tables after := by
  induction edits with
  | refl => exact .refl tables
  | tail first last ih => exact ih.trans (last.keepsClosedTurns (Edits.consistent first h))

theorem Edits.movesToolCalls (edits : Edits coupled tables after) :
    MovesToolCalls tables after := by
  induction edits with
  | refl => exact .refl tables
  | tail _ last ih => exact ih.trans last.movesToolCalls

/-- What every call keeps is kept along every run. -/
theorem run_keeps (externals : Externals) (calls : List Call) (h : Consistent tables) :
    KeepsClosedTurns tables (run (step externals) tables calls) ∧
      MovesToolCalls tables (run (step externals) tables calls) := by
  induction calls generalizing tables with
  | nil => exact ⟨.refl tables, .refl tables⟩
  | cons call calls ih =>
      have edits : Edits False tables (step externals tables call) := step_edits h nofun
      obtain ⟨turns, toolCalls⟩ := ih (h.step : Consistent (step externals tables call))
      exact ⟨(edits.keepsClosedTurns h).trans turns, edits.movesToolCalls.trans toolCalls⟩

/-- The call takes this tool call from an unsettled status to a settled one. -/
def SettlesToolCall (externals : Externals) (tables : Tables) (call : Call) (callId : String) :
    Prop :=
  (∃ row ∈ tables.toolCalls, row.callId = callId ∧ row.status.isSettled = false) ∧
    ∃ row ∈ (step externals tables call).toolCalls, row.callId = callId ∧
      row.status.isSettled = true

theorem eq_of_reaches_settled {first last : ToolCallStatus} (settled : first.isSettled = true)
    (reaches : first.Reaches last) : last = first := by
  cases first <;> simp_all [ToolCallStatus.isSettled, ToolCallStatus.Reaches, ToolCallStatus.moves]

/-- The shape of the tables after every run, and what the rest of a run leaves alone. -/
theorem conversation_structure (externals : Externals) (calls later : List Call) :
    Structured (reached externals calls) ∧
    KeepsClosedTurns (reached externals calls) (reached externals (calls ++ later)) ∧
    MovesToolCalls (reached externals calls) (reached externals (calls ++ later)) ∧
    ∀ call between call' callId, SettlesToolCall externals (reached externals calls) call callId →
      ¬ SettlesToolCall externals (reached externals (calls ++ call :: between)) call' callId := by
  have h : Consistent (reached externals calls) := reached_consistent calls
  obtain ⟨turns, toolCalls⟩ := run_keeps externals later h
  have rest : reached externals (calls ++ later) =
      run (step externals) (reached externals calls) later := run_append _ _ _ _
  rw [rest]
  refine ⟨h.structured, turns, toolCalls, ?_⟩
  rintro call between call' callId ⟨-, row, mem, rfl, settled⟩ ⟨⟨other, otherMem, same, open'⟩, -⟩
  have middle : Consistent (step externals (reached externals calls) call) := h.step
  have final : reached externals (calls ++ call :: between) =
      run (step externals) (step externals (reached externals calls) call) between :=
    run_append _ _ _ _
  rw [final] at otherMem
  obtain ⟨-, moved⟩ := run_keeps externals between middle
  obtain ⟨kept, keptMem, sameId, reaches⟩ := moved row mem
  have last : Consistent (run (step externals)
      (step externals (reached externals calls) call) between) := final ▸ reached_consistent _
  obtain rfl := eq_of_key_eq last.callKeys otherMem keptMem (same.trans sameId.symm)
  rw [eq_of_reaches_settled settled reaches, settled] at open'
  cases open'

end Aegis.Conversation
