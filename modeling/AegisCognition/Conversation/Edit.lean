import Mathlib.Logic.Relation
import AegisCognition.Conversation.Repository

/-!
# Edits of the conversation tables

Every transaction of the repository is a sequence of a few kinds of edit: rows are added
to a table under a fresh key, or rows of a table are rewritten in columns that are not
keys. An edit carries the facts that its writer has checked, so that what the tables keep
is proved once for each kind of edit and not once for each operation.

An edit that closes a turn may in addition promise that no execution of that turn is still
running. The parameter `coupled` says whether that promise is made.
-/

namespace Aegis.Conversation

open Foundation List

/-- Some row of the conversation is at this revision or past it. -/
def Tables.Covers (tables : Tables) (conversationId : String) (revision : Nat) : Prop :=
  ∃ row ∈ tables.conversations, row.conversationId = conversationId ∧ revision ≤ row.revision

def Tables.Idle (tables : Tables) (turnKey : String × String) : Prop :=
  ∀ row ∈ tables.executions, row.turnKey = turnKey → row.status ≠ .running

/-- The moves of a tool call: a requested call is answered, cancelled or left ambiguous, an
ambiguous one is reconciled. -/
def ToolCallStatus.moves : ToolCallStatus → ToolCallStatus → Bool
  | .requested, next => next != .requested
  | .ambiguous, next => next == .cancelled || next == .failed
  | _, _ => false

inductive Edit (coupled : Prop) (tables : Tables) : Tables → Prop
  | addConversation (row : ConversationRecord)
      (fresh : ∀ other ∈ tables.conversations, other.conversationId ≠ row.conversationId)
      (usable : isUnusable maxIdBytes row.conversationId = false ∧
        isUnusable maxIdBytes row.ownerId = false) :
      Edit coupled tables { tables with conversations := tables.conversations ++ [row] }
  | reviseConversations (p : ConversationRecord → Bool)
      (f : ConversationRecord → ConversationRecord)
      (kept : ∀ row, (f row).conversationId = row.conversationId ∧ (f row).ownerId = row.ownerId)
      (advances : ∀ row ∈ tables.conversations, p row → row.revision ≤ (f row).revision) :
      Edit coupled tables { tables with conversations := updateWhere p f tables.conversations }
  | addTurn (row : TurnRow) (part : ConversationPartRecord)
      (fresh : ∀ other ∈ tables.turns, other.key ≠ row.key)
      (covered : tables.Covers row.conversationId row.revision)
      (next : row.ordinal =
        (tables.turns.filter (·.conversationId == row.conversationId)).length + 1)
      (first : part.turnKey = row.key ∧ part.partIndex = 0) :
      Edit coupled tables
        { tables with turns := tables.turns ++ [row], parts := tables.parts ++ [part] }
  | reviseTurns (p : TurnRow → Bool) (f : TurnRow → TurnRow)
      (kept : ∀ row, (f row).key = row.key ∧ (f row).ordinal = row.ordinal)
      (covered : ∀ row ∈ tables.turns, p row → tables.Covers row.conversationId (f row).revision)
      (pending : ∀ row ∈ tables.turns, p row → row.status.isOpen)
      (closes : coupled → ∀ row ∈ tables.turns, p row → (f row).status.isOpen = false →
        tables.Idle row.key) :
      Edit coupled tables { tables with turns := updateWhere p f tables.turns }
  | addPart (part : ConversationPartRecord)
      (pending : ∃ turn ∈ tables.turns, turn.key = part.turnKey ∧ turn.status.isOpen)
      (next : part.partIndex = (tables.parts.filter (·.turnKey == part.turnKey)).length) :
      Edit coupled tables { tables with parts := tables.parts ++ [part] }
  | addExecution (row : ConversationExecutionRecord)
      (fresh : ∀ other ∈ tables.executions, other.executionId ≠ row.executionId)
      (covered : tables.Covers row.conversationId row.revision)
      (pending : ∃ turn ∈ tables.turns, turn.key = row.turnKey ∧ turn.status.isOpen)
      (idle : tables.Idle row.turnKey) (unmarked : row.checkpointSeq = 0) :
      Edit coupled tables { tables with executions := tables.executions ++ [row] }
  | endExecutions (p : ConversationExecutionRecord → Bool)
      (f : ConversationExecutionRecord → ConversationExecutionRecord)
      (kept : ∀ row, (f row).executionId = row.executionId ∧ (f row).turnKey = row.turnKey ∧
        (f row).checkpointSeq = row.checkpointSeq)
      (covered : ∀ row ∈ tables.executions, p row →
        tables.Covers row.conversationId (f row).revision)
      (ends : ∀ row, (f row).status ≠ .running) :
      Edit coupled tables { tables with executions := updateWhere p f tables.executions }
  | addCheckpoint (row : ConversationCheckpointRecord) (execution : ConversationExecutionRecord)
      (revision : Nat) (found : execution ∈ tables.executions)
      (owner : execution.executionId = row.executionId) (running : execution.status = .running)
      (covered : tables.Covers execution.conversationId revision)
      (next : row.sequence = execution.checkpointSeq + 1) :
      Edit coupled tables
        { tables with
          executions := updateWhere
            (fun other => other.executionId == row.executionId && other.status == .running)
            (fun other => { other with checkpointSeq := row.sequence, revision })
            tables.executions
          checkpoints := tables.checkpoints ++ [row] }
  | addToolCall (row : ConversationToolCallRecord)
      (fresh : ∀ other ∈ tables.toolCalls, other.callId ≠ row.callId)
      (covered : tables.Covers row.conversationId row.revision)
      (requested : row.status = .requested) :
      Edit coupled tables { tables with toolCalls := tables.toolCalls ++ [row] }
  | moveToolCalls (p : ConversationToolCallRecord → Bool)
      (f : ConversationToolCallRecord → ConversationToolCallRecord)
      (kept : ∀ row, (f row).callId = row.callId ∧ (f row).conversationId = row.conversationId)
      (covered : ∀ row ∈ tables.toolCalls, p row →
        tables.Covers row.conversationId (f row).revision)
      (moves : ∀ row ∈ tables.toolCalls, p row → row.status.moves (f row).status) :
      Edit coupled tables { tables with toolCalls := updateWhere p f tables.toolCalls }

/-- A sequence of edits. -/
abbrev Edits (coupled : Prop) : Tables → Tables → Prop := Relation.ReflTransGen (Edit coupled)

/-- What the tables keep: keys are unique, references point to rows, no row is ahead of its
conversation, and the numbered rows are numbered without gaps. -/
structure Consistent (tables : Tables) : Prop where
  conversationKeys : (tables.conversations.map (·.conversationId)).Nodup
  usable : ∀ row ∈ tables.conversations, isUnusable maxIdBytes row.conversationId = false ∧
    isUnusable maxIdBytes row.ownerId = false
  turnKeys : (tables.turns.map TurnRow.key).Nodup
  turnCovered : ∀ row ∈ tables.turns, tables.Covers row.conversationId row.revision
  ordinals : ∀ id, (tables.turns.filter (·.conversationId == id)).map (·.ordinal) =
    List.range' 1 (tables.turns.filter (·.conversationId == id)).length
  partTurns : ∀ row ∈ tables.parts, ∃ turn ∈ tables.turns, turn.key = row.turnKey
  partIndexes : ∀ key, (tables.parts.filter (·.turnKey == key)).map (·.partIndex) =
    List.range (tables.parts.filter (·.turnKey == key)).length
  executionKeys : (tables.executions.map (·.executionId)).Nodup
  executionCovered : ∀ row ∈ tables.executions, tables.Covers row.conversationId row.revision
  executionTurns : ∀ row ∈ tables.executions, ∃ turn ∈ tables.turns, turn.key = row.turnKey
  oneRunning : ∀ row ∈ tables.executions, ∀ other ∈ tables.executions, row.status = .running →
    other.status = .running → row.turnKey = other.turnKey → row = other
  checkpointOwners : ∀ row ∈ tables.checkpoints, ∃ execution ∈ tables.executions,
    execution.executionId = row.executionId
  sequences : ∀ row ∈ tables.executions,
    (tables.checkpoints.filter (·.executionId == row.executionId)).map (·.sequence) =
      List.range' 1 row.checkpointSeq
  callKeys : (tables.toolCalls.map (·.callId)).Nodup
  callCovered : ∀ row ∈ tables.toolCalls, tables.Covers row.conversationId row.revision

theorem consistent_empty : Consistent Tables.empty := by
  constructor <;> simp [Tables.empty]

namespace Tables.Covers

variable {tables : Tables} {id : String} {revision : Nat}

theorem addConversation (h : tables.Covers id revision) (row : ConversationRecord) :
    Covers { tables with conversations := tables.conversations ++ [row] } id revision := by
  obtain ⟨found, mem, rest⟩ := h
  exact ⟨found, mem_append_left _ mem, rest⟩

theorem reviseConversations {p : ConversationRecord → Bool}
    {f : ConversationRecord → ConversationRecord}
    (kept : ∀ row, (f row).conversationId = row.conversationId ∧ (f row).ownerId = row.ownerId)
    (advances : ∀ row ∈ tables.conversations, p row → row.revision ≤ (f row).revision)
    (h : tables.Covers id revision) :
    Covers { tables with conversations := updateWhere p f tables.conversations } id revision := by
  obtain ⟨row, mem, rfl, bound⟩ := h
  refine ⟨_, mem_updateWhere_of_mem mem, ?_⟩
  split
  next selected => exact ⟨(kept row).1, bound.trans (advances row mem selected)⟩
  next => exact ⟨rfl, bound⟩

end Tables.Covers

section Numbered

variable {α : Type} {rows : List α} {q : α → Bool} {column : α → Nat} {row : α}

/-- Appending a row outside of a group leaves the group as it is. -/
theorem filter_concat_of_not (out : q row = false) : (rows ++ [row]).filter q = rows.filter q := by
  simp [filter_append, out]

theorem filter_concat_of_mem (isIn : q row = true) :
    (rows ++ [row]).filter q = rows.filter q ++ [row] := by
  simp [filter_append, isIn]

theorem range'_concat {start : Nat}
    (numbered : (rows.filter q).map column = List.range' start (rows.filter q).length)
    (next : q row = true → column row = start + (rows.filter q).length) :
    ((rows ++ [row]).filter q).map column =
      List.range' start ((rows ++ [row]).filter q).length := by
  cases member : q row with
  | false => rw [filter_concat_of_not member, numbered]
  | true =>
      rw [filter_concat_of_mem member, List.map_append, numbered, List.length_append,
        List.length_singleton, List.range'_concat, List.map_singleton, next member]
      simp

theorem mem_concat_cases {other : α} (h : other ∈ rows ++ [row]) : other ∈ rows ∨ other = row := by
  simpa using h

theorem forall_mem_concat {P : α → Prop} (all : ∀ other ∈ rows, P other) (last : P row) :
    ∀ other ∈ rows ++ [row], P other := by
  intro other mem
  obtain old | rfl := mem_concat_cases mem
  · exact all other old
  · exact last

end Numbered

variable {coupled : Prop} {tables after : Tables}

namespace Consistent

section

variable (h : Consistent tables)
include h

theorem addConversation {row : ConversationRecord}
    (fresh : ∀ other ∈ tables.conversations, other.conversationId ≠ row.conversationId)
    (usable : isUnusable maxIdBytes row.conversationId = false ∧
      isUnusable maxIdBytes row.ownerId = false) :
    Consistent { tables with conversations := tables.conversations ++ [row] } where
  __ := h
  conversationKeys := nodup_map_concat h.conversationKeys fresh
  usable := forall_mem_concat h.usable usable
  turnCovered := fun other mem => (h.turnCovered other mem).addConversation row
  executionCovered := fun other mem => (h.executionCovered other mem).addConversation row
  callCovered := fun other mem => (h.callCovered other mem).addConversation row

theorem reviseConversations {p : ConversationRecord → Bool}
    {f : ConversationRecord → ConversationRecord}
    (kept : ∀ row, (f row).conversationId = row.conversationId ∧ (f row).ownerId = row.ownerId)
    (advances : ∀ row ∈ tables.conversations, p row → row.revision ≤ (f row).revision) :
    Consistent { tables with conversations := updateWhere p f tables.conversations } where
  __ := h
  conversationKeys := by
    rw [map_updateWhere fun row => (kept row).1]
    exact h.conversationKeys
  usable := by
    refine forall_mem_updateWhere h.usable ?_
    intro row _ _ old
    rwa [(kept row).1, (kept row).2]
  turnCovered := fun row mem => (h.turnCovered row mem).reviseConversations kept advances
  executionCovered := fun row mem => (h.executionCovered row mem).reviseConversations kept advances
  callCovered := fun row mem => (h.callCovered row mem).reviseConversations kept advances

theorem addTurn {row : TurnRow} {part : ConversationPartRecord}
    (fresh : ∀ other ∈ tables.turns, other.key ≠ row.key)
    (covered : tables.Covers row.conversationId row.revision)
    (next : row.ordinal =
      (tables.turns.filter (·.conversationId == row.conversationId)).length + 1)
    (first : part.turnKey = row.key ∧ part.partIndex = 0) :
    Consistent { tables with
      turns := tables.turns ++ [row], parts := tables.parts ++ [part] } where
  __ := h
  turnKeys := nodup_map_concat h.turnKeys fresh
  turnCovered := forall_mem_concat h.turnCovered covered
  ordinals := by
    intro id
    refine range'_concat (h.ordinals id) ?_
    intro same
    obtain rfl : row.conversationId = id := beq_iff_eq.mp same
    rw [next, Nat.add_comm]
  partTurns := by
    intro other mem
    obtain old | rfl := mem_concat_cases mem
    · obtain ⟨turn, found, same⟩ := h.partTurns other old
      exact ⟨turn, mem_append_left _ found, same⟩
    · exact ⟨row, by simp, first.1.symm⟩
  partIndexes := by
    intro key
    rw [range_eq_range']
    refine range'_concat (by rw [h.partIndexes key, range_eq_range']) ?_
    intro same
    -- the turn is new, so no part refers to it yet
    have none : tables.parts.filter (·.turnKey == key) = [] := by
      rw [filter_eq_nil_iff]
      intro other mem used
      obtain ⟨turn, found, owner⟩ := h.partTurns other mem
      apply fresh turn found
      rw [owner, ← first.1, beq_iff_eq.mp used, beq_iff_eq.mp same]
    rw [first.2, none]
    rfl
  executionTurns := by
    intro other mem
    obtain ⟨turn, found, same⟩ := h.executionTurns other mem
    exact ⟨turn, mem_append_left _ found, same⟩

theorem reviseTurns {p : TurnRow → Bool} {f : TurnRow → TurnRow}
    (kept : ∀ row, (f row).key = row.key ∧ (f row).ordinal = row.ordinal)
    (covered : ∀ row ∈ tables.turns, p row → tables.Covers row.conversationId (f row).revision) :
    Consistent { tables with turns := updateWhere p f tables.turns } := by
  have conversation : ∀ row, (f row).conversationId = row.conversationId :=
    fun row => congrArg Prod.fst (kept row).1
  have turnsOf : ∀ key, (∃ turn ∈ tables.turns, turn.key = key) →
      ∃ turn ∈ updateWhere p f tables.turns, turn.key = key := by
    rintro key ⟨turn, found, rfl⟩
    refine ⟨_, mem_updateWhere_of_mem found, ?_⟩
    split
    · exact (kept turn).1
    · rfl
  have grouped : ∀ id, (updateWhere p f tables.turns).filter (·.conversationId == id) =
      updateWhere p f (tables.turns.filter (·.conversationId == id)) :=
    fun id => filter_updateWhere fun row => by rw [conversation row]
  refine { h with
    turnKeys := ?_, turnCovered := ?_, ordinals := ?_, partTurns := ?_, executionTurns := ?_ }
  · rw [map_updateWhere fun row => (kept row).1]
    exact h.turnKeys
  · refine forall_mem_updateWhere h.turnCovered ?_
    intro row old selected _
    rw [conversation row]
    exact covered row old selected
  · intro id
    rw [grouped, map_updateWhere fun row => (kept row).2, h.ordinals id]
    simp [updateWhere]
  · exact fun row mem => turnsOf _ (h.partTurns row mem)
  · exact fun row mem => turnsOf _ (h.executionTurns row mem)

theorem addPart {part : ConversationPartRecord}
    (pending : ∃ turn ∈ tables.turns, turn.key = part.turnKey ∧ turn.status.isOpen)
    (next : part.partIndex = (tables.parts.filter (·.turnKey == part.turnKey)).length) :
    Consistent { tables with parts := tables.parts ++ [part] } where
  __ := h
  partTurns := by
    refine forall_mem_concat h.partTurns ?_
    obtain ⟨turn, found, same, -⟩ := pending
    exact ⟨turn, found, same⟩
  partIndexes := by
    intro key
    rw [range_eq_range']
    refine range'_concat (by rw [h.partIndexes key, range_eq_range']) ?_
    intro same
    obtain rfl : part.turnKey = key := beq_iff_eq.mp same
    rw [next, Nat.zero_add]

theorem addExecution {row : ConversationExecutionRecord}
    (fresh : ∀ other ∈ tables.executions, other.executionId ≠ row.executionId)
    (covered : tables.Covers row.conversationId row.revision)
    (pending : ∃ turn ∈ tables.turns, turn.key = row.turnKey ∧ turn.status.isOpen)
    (idle : tables.Idle row.turnKey) (unmarked : row.checkpointSeq = 0) :
    Consistent { tables with executions := tables.executions ++ [row] } where
  __ := h
  executionKeys := nodup_map_concat h.executionKeys fresh
  executionCovered := forall_mem_concat h.executionCovered covered
  executionTurns := by
    refine forall_mem_concat h.executionTurns ?_
    obtain ⟨turn, found, same, -⟩ := pending
    exact ⟨turn, found, same⟩
  oneRunning := by
    intro first firstMem second secondMem firstRuns secondRuns same
    obtain old | rfl := mem_concat_cases firstMem <;>
      obtain old' | rfl := mem_concat_cases secondMem
    · exact h.oneRunning first old second old' firstRuns secondRuns same
    · exact absurd firstRuns (idle first old same)
    · exact absurd secondRuns (idle second old' same.symm)
    · rfl
  checkpointOwners := by
    intro checkpoint mem
    obtain ⟨execution, found, same⟩ := h.checkpointOwners checkpoint mem
    exact ⟨execution, mem_append_left _ found, same⟩
  sequences := by
    intro other mem
    obtain old | rfl := mem_concat_cases mem
    · exact h.sequences other old
    · -- the execution is new, so no checkpoint refers to it yet
      have none : tables.checkpoints.filter (·.executionId == other.executionId) = [] := by
        rw [filter_eq_nil_iff]
        intro checkpoint mem used
        obtain ⟨execution, found, owner⟩ := h.checkpointOwners checkpoint mem
        exact fresh execution found (owner.trans (beq_iff_eq.mp used))
      simp [none, unmarked]

theorem endExecutions {p : ConversationExecutionRecord → Bool}
    {f : ConversationExecutionRecord → ConversationExecutionRecord}
    (kept : ∀ row, (f row).executionId = row.executionId ∧ (f row).turnKey = row.turnKey ∧
      (f row).checkpointSeq = row.checkpointSeq)
    (covered : ∀ row ∈ tables.executions, p row →
      tables.Covers row.conversationId (f row).revision)
    (ends : ∀ row, (f row).status ≠ .running) :
    Consistent { tables with executions := updateWhere p f tables.executions } where
  __ := h
  executionKeys := by
    rw [map_updateWhere fun row => (kept row).1]
    exact h.executionKeys
  executionCovered := by
    refine forall_mem_updateWhere h.executionCovered ?_
    intro row old selected _
    rw [show (f row).conversationId = row.conversationId from
      congrArg Prod.fst (kept row).2.1]
    exact covered row old selected
  executionTurns := by
    refine forall_mem_updateWhere h.executionTurns ?_
    intro row _ _ old
    rwa [(kept row).2.1]
  oneRunning := by
    intro first firstMem second secondMem
    obtain ⟨row, old, rfl⟩ := mem_updateWhere.mp firstMem
    obtain ⟨row', old', rfl⟩ := mem_updateWhere.mp secondMem
    intro firstRuns secondRuns same
    -- a rewritten execution no longer runs
    split at firstRuns
    · exact absurd firstRuns (ends row)
    · split at secondRuns
      · exact absurd secondRuns (ends row')
      · simp_all only [Bool.not_eq_true, Bool.false_eq_true, if_false]
        exact h.oneRunning row old row' old' firstRuns secondRuns same
  checkpointOwners := by
    intro checkpoint mem
    obtain ⟨execution, found, same⟩ := h.checkpointOwners checkpoint mem
    refine ⟨_, mem_updateWhere_of_mem found, ?_⟩
    split
    · rw [(kept execution).1, same]
    · exact same
  sequences := by
    refine forall_mem_updateWhere h.sequences ?_
    intro row _ _ old
    rwa [(kept row).1, (kept row).2.2]

theorem addCheckpoint {row : ConversationCheckpointRecord}
    {execution : ConversationExecutionRecord} {revision : Nat}
    (found : execution ∈ tables.executions) (owner : execution.executionId = row.executionId)
    (running : execution.status = .running)
    (covered : tables.Covers execution.conversationId revision)
    (next : row.sequence = execution.checkpointSeq + 1) :
    Consistent { tables with
      executions := updateWhere
        (fun other => other.executionId == row.executionId && other.status == .running)
        (fun other => { other with checkpointSeq := row.sequence, revision }) tables.executions
      checkpoints := tables.checkpoints ++ [row] } := by
  have selected : ∀ other ∈ tables.executions, other.executionId = row.executionId →
      other = execution := fun other mem same =>
    eq_of_key_eq h.executionKeys mem found (same.trans owner.symm)
  refine { h with
    executionKeys := ?_, executionCovered := ?_, executionTurns := ?_, oneRunning := ?_
    checkpointOwners := ?_, sequences := ?_ }
  · rw [map_updateWhere]
    · exact h.executionKeys
    · exact fun _ => rfl
  · refine forall_mem_updateWhere h.executionCovered ?_
    intro old oldMem marked _
    simp only [Bool.and_eq_true, beq_iff_eq] at marked
    obtain rfl := selected old oldMem marked.1
    exact covered
  · exact forall_mem_updateWhere h.executionTurns fun _ _ _ old => old
  · -- marking an execution changes neither its turn nor its status
    intro first firstMem second secondMem
    obtain ⟨old, oldMem, rfl⟩ := mem_updateWhere.mp firstMem
    obtain ⟨old', oldMem', rfl⟩ := mem_updateWhere.mp secondMem
    intro firstRuns secondRuns same
    have shared : old = old' := by
      apply h.oneRunning old oldMem old' oldMem'
      · split at firstRuns <;> exact firstRuns
      · split at secondRuns <;> exact secondRuns
      · split at same <;> split at same <;> exact same
    rw [shared]
  · intro checkpoint mem
    obtain ⟨other, otherMem, same⟩ :
        ∃ other ∈ tables.executions, other.executionId = checkpoint.executionId := by
      obtain old | rfl := mem_concat_cases mem
      · exact h.checkpointOwners checkpoint old
      · exact ⟨execution, found, owner⟩
    refine ⟨_, mem_updateWhere_of_mem otherMem, ?_⟩
    split <;> exact same
  · intro other mem
    obtain ⟨old, oldMem, rfl⟩ := mem_updateWhere.mp mem
    split
    next marked =>
      simp only [Bool.and_eq_true, beq_iff_eq] at marked
      obtain rfl := selected old oldMem marked.1
      simp only
      rw [List.filter_append, List.filter_cons_of_pos (by simp [owner]), List.filter_nil,
        List.map_append, h.sequences old oldMem, next, List.range'_concat, List.map_singleton, next]
      simp [Nat.add_comm]
    next unmarked =>
      have out : (row.executionId == old.executionId) = false := by
        rw [beq_eq_false_iff_ne]
        intro same
        obtain rfl := selected old oldMem same.symm
        simp [owner, running] at unmarked
      simp only
      rw [List.filter_append, List.filter_cons_of_neg (by simp [out]), List.filter_nil,
        List.append_nil]
      exact h.sequences old oldMem

theorem addToolCall {row : ConversationToolCallRecord}
    (fresh : ∀ other ∈ tables.toolCalls, other.callId ≠ row.callId)
    (covered : tables.Covers row.conversationId row.revision) :
    Consistent { tables with toolCalls := tables.toolCalls ++ [row] } where
  __ := h
  callKeys := nodup_map_concat h.callKeys fresh
  callCovered := forall_mem_concat h.callCovered covered

theorem moveToolCalls {p : ConversationToolCallRecord → Bool}
    {f : ConversationToolCallRecord → ConversationToolCallRecord}
    (kept : ∀ row, (f row).callId = row.callId ∧ (f row).conversationId = row.conversationId)
    (covered : ∀ row ∈ tables.toolCalls, p row →
      tables.Covers row.conversationId (f row).revision) :
    Consistent { tables with toolCalls := updateWhere p f tables.toolCalls } where
  __ := h
  callKeys := by
    rw [map_updateWhere fun row => (kept row).1]
    exact h.callKeys
  callCovered := by
    refine forall_mem_updateWhere h.callCovered ?_
    intro row old selected _
    rw [(kept row).2]
    exact covered row old selected

end

end Consistent

theorem Edit.consistent (edit : Edit coupled tables after) (h : Consistent tables) :
    Consistent after := by
  cases edit with
  | addConversation row fresh usable => exact h.addConversation fresh usable
  | reviseConversations p f kept advances => exact h.reviseConversations kept advances
  | addTurn row part fresh covered next first => exact h.addTurn fresh covered next first
  | reviseTurns p f kept covered pending closes => exact h.reviseTurns kept covered
  | addPart part pending next => exact h.addPart pending next
  | addExecution row fresh covered pending idle unmarked =>
      exact h.addExecution fresh covered pending idle unmarked
  | endExecutions p f kept covered ends => exact h.endExecutions kept covered ends
  | addCheckpoint row execution revision found owner running covered next =>
      exact h.addCheckpoint found owner running covered next
  | addToolCall row fresh covered requested => exact h.addToolCall fresh covered
  | moveToolCalls p f kept covered moves => exact h.moveToolCalls kept covered

theorem Edits.consistent (edits : Edits coupled tables after) (h : Consistent tables) :
    Consistent after := by
  induction edits with
  | refl => exact h
  | tail _ last ih => exact last.consistent ih

end Aegis.Conversation
