import AegisCognition.Conversation.Edit

/-!
# What a committed call has done

A transaction that commits has found the conversation of its request at the expected
revision, has moved it to the next one, and has otherwise made the edits of its operation.
-/

namespace Aegis.Conversation

open Foundation Tables ToolCallStatus List

variable {coupled : Prop} {externals : Externals} {tables after : Tables} {scope : Scope}
variable {assign : ConversationRecord → ConversationRecord} {revision value : Nat}

theorem pure_eq_ok_iff {ε α : Type} {a b : α} : (pure a : Except ε α) = .ok b ↔ a = b := by
  simp [pure, Except.pure]

theorem nextRevision_eq_ok_iff :
    nextRevision value = .ok revision ↔ value + 1 ≤ u64Max ∧ value + 1 = revision := by
  unfold nextRevision
  split <;> simp_all

theorem toI64Revision_eq_ok_iff :
    toI64Revision value = .ok revision ↔ value ≤ i64Max ∧ value = revision := by
  unfold toI64Revision
  split <;> simp_all

theorem toI64Timestamp_eq_ok_iff :
    toI64Timestamp value = .ok revision ↔ value ≤ i64Max ∧ value = revision := by
  unfold toI64Timestamp
  split <;> simp_all

/-- The tables once the conversation of a request is at its next revision. -/
def Tables.revised (tables : Tables) (scope : Scope)
    (assign : ConversationRecord → ConversationRecord) : Tables :=
  { tables with
    conversations := updateWhere
      (fun row => row.conversationId == scope.conversationId && row.ownerId == scope.ownerId &&
        row.revision == scope.expectedRevision)
      (fun row => assign
        { row with revision := scope.expectedRevision + 1, updatedAtMs := scope.atMs })
      tables.conversations }

section Revised

variable (tables : Tables) (scope : Scope) (assign : ConversationRecord → ConversationRecord)

@[simp] theorem revised_turns : (tables.revised scope assign).turns = tables.turns := rfl

end Revised

/-- The next revision and the time of the request fit their columns. -/
def Scope.Fits (scope : Scope) : Prop :=
  scope.expectedRevision + 1 ≤ i64Max ∧ scope.atMs ≤ i64Max

theorem revise_next_iff :
    (∃ revision, nextRevision scope.expectedRevision = .ok revision ∧
      tables.revise scope revision assign = .ok after) ↔
    scope.Fits ∧ after = tables.revised scope assign := by
  simp only [Tables.revise, bind_eq_ok_iff, nextRevision_eq_ok_iff, toI64Revision_eq_ok_iff,
    toI64Timestamp_eq_ok_iff, pure_eq_ok_iff]
  constructor
  · rintro ⟨_, ⟨-, rfl⟩, _, ⟨fits, rfl⟩, _, ⟨time, rfl⟩, _, ⟨-, rfl⟩, rfl⟩
    exact ⟨⟨fits, time⟩, rfl⟩
  · rintro ⟨⟨fits, time⟩, rfl⟩
    have wide : i64Max ≤ u64Max := by decide
    exact ⟨_, ⟨by omega, rfl⟩, _, ⟨fits, rfl⟩, _, ⟨time, rfl⟩, _, ⟨by omega, rfl⟩, rfl⟩

/-- What the two steps that advance a conversation leave behind. -/
theorem revise_ok (bumped : nextRevision scope.expectedRevision = .ok revision)
    (moved : tables.revise scope revision assign = .ok after) :
    scope.Fits ∧ scope.expectedRevision + 1 = revision ∧ tables.revised scope assign = after := by
  obtain ⟨fits, rfl⟩ := revise_next_iff.mp ⟨revision, bumped, moved⟩
  exact ⟨fits, (nextRevision_eq_ok_iff.mp bumped).2, rfl⟩

/-- A rewriting of a conversation that leaves its identity and revision alone. -/
def KeepsRevision (assign : ConversationRecord → ConversationRecord) : Prop :=
  ∀ row, (assign row).conversationId = row.conversationId ∧
    (assign row).ownerId = row.ownerId ∧ (assign row).revision = row.revision

theorem keepsRevision_id : KeepsRevision id := fun _ => ⟨rfl, rfl, rfl⟩

/-- The conversation of a request is at the revision the client has seen. -/
def Tables.AtRevision (tables : Tables) (scope : Scope) : Prop :=
  ∃ row ∈ tables.conversations, row.conversationId = scope.conversationId ∧
    row.ownerId = scope.ownerId ∧ row.revision = scope.expectedRevision

/-- A committed call: it met the revision it expected, moved the conversation to the next
one, edited the tables and can read back its answer. -/
structure Commits (coupled : Prop) (tables after : Tables) (scope : Scope) (call : Call) :
    Prop where
  current : tables.AtRevision scope
  fits : scope.Fits
  conversations : ∃ assign, KeepsRevision assign ∧
    after.conversations = (tables.revised scope assign).conversations
  edits : Edits coupled tables after
  answers : ∃ reply, readBack after call = .ok reply

theorem edit_revised (keeps : KeepsRevision assign) :
    Edit coupled tables (tables.revised scope assign) := by
  refine .reviseConversations _ _ ?_ ?_
  · intro row
    exact ⟨(keeps _).1, (keeps _).2.1⟩
  · intro row _ selected
    simp only [Bool.and_eq_true, beq_iff_eq] at selected
    rw [(keeps _).2.2, selected.2]
    exact Nat.le_succ _

theorem Consistent.revised (h : Consistent tables) (keeps : KeepsRevision assign) :
    Consistent (tables.revised scope assign) :=
  (edit_revised keeps : Edit True tables _).consistent h

theorem covers_revised (keeps : KeepsRevision assign) (current : tables.AtRevision scope) :
    (tables.revised scope assign).Covers scope.conversationId (scope.expectedRevision + 1) := by
  obtain ⟨row, mem, id, owner, rev⟩ := current
  refine ⟨_, mem_updateWhere_of_mem mem, ?_⟩
  simp only [id, owner, rev, beq_self_eq_true, Bool.and_self, if_true]
  refine ⟨(keeps _).1, ?_⟩
  rw [(keeps _).2.2]

variable {conversation : ConversationRecord}

theorem atRevision_of_owned
    (found : tables.ownedConversation scope = some conversation)
    (rev : conversation.revision = scope.expectedRevision) : tables.AtRevision scope := by
  have meets := List.find?_some found
  simp only [Bool.and_eq_true, beq_iff_eq] at meets
  exact ⟨conversation, mem_of_find?_eq_some found, meets.1, meets.2, rev⟩

theorem atRevision_of_active
    (found : tables.activeConversation scope = some conversation)
    (rev : conversation.revision = scope.expectedRevision) : tables.AtRevision scope := by
  have meets := List.find?_some found
  simp only [Bool.and_eq_true, beq_iff_eq] at meets
  exact ⟨conversation, mem_of_find?_eq_some found, meets.1.1, meets.1.2, rev⟩

/-! ### Reading back -/

theorem found_of_key {α κ : Type} [BEq κ] [LawfulBEq κ] {rows : List α} {key : α → κ} {value : κ}
    (present : ∃ row ∈ rows, key row = value) :
    ∃ row, rows.find? (key · == value) = some row := by
  rw [← Option.isSome_iff_exists, List.find?_isSome]
  obtain ⟨row, mem, same⟩ := present
  exact ⟨row, mem, beq_iff_eq.mpr same⟩

variable {conversationId : String}

theorem getTurn_ok {turnId : String}
    (present : ∃ turn ∈ tables.turns, turn.key = (conversationId, turnId)) :
    ∃ reply, Reply.turn <$> tables.getTurn conversationId turnId = .ok reply := by
  obtain ⟨row, found⟩ := found_of_key present
  exact ⟨.turn (tables.turnRecord row), by rw [getTurn, Tables.turn?, found]; rfl⟩

theorem getExecution_ok {executionId : String}
    (present : ∃ execution ∈ tables.executions, execution.executionId = executionId) :
    ∃ reply, Reply.execution <$> tables.getExecution executionId = .ok reply := by
  obtain ⟨row, found⟩ := found_of_key present
  exact ⟨.execution row, by rw [getExecution, Tables.execution?, found]; rfl⟩

theorem getToolCall_ok {callId : String}
    (present : ∃ call ∈ tables.toolCalls, call.callId = callId) :
    ∃ reply, Reply.toolCall <$> tables.getToolCall callId = .ok reply := by
  obtain ⟨row, found⟩ := found_of_key present
  exact ⟨.toolCall row, by rw [getToolCall, toolCall?, found]; rfl⟩

/-- A stored conversation has a usable identity, so reading it back does not refuse. -/
theorem getConversationRecord_ok {ownerId : String} (h : Consistent tables)
    (present : ∃ row ∈ tables.conversations,
      row.conversationId = conversationId ∧ row.ownerId = ownerId) :
    ∃ reply, Reply.conversation <$> tables.getConversationRecord conversationId ownerId =
      .ok reply := by
  obtain ⟨row, mem, rfl, rfl⟩ := present
  obtain ⟨usableId, usableOwner⟩ := h.usable row mem
  cases found : tables.conversations.find? fun other =>
      other.conversationId == row.conversationId && other.ownerId == row.ownerId with
  | none => simpa using List.find?_eq_none.mp found row mem
  | some other =>
      refine ⟨.conversation other, ?_⟩
      simp [getConversationRecord, getConversation, refuseWhen, found, usableId,
        usableOwner, okOr, bind, Except.bind, pure, Except.pure, Functor.map, Except.map]

/-! ### The operations -/

theorem any_eq_false_iff {α : Type} {p : α → Bool} {rows : List α} :
    ¬ rows.any p = true ↔ ∀ row ∈ rows, ¬ p row = true := by
  simp

theorem mem_of_turn? {turnId : String} {turn : TurnRow}
    (found : tables.turn? conversationId turnId = some turn) :
    turn ∈ tables.turns ∧ turn.key = (conversationId, turnId) := by
  have meets := List.find?_some found
  exact ⟨mem_of_find?_eq_some found, beq_iff_eq.mp meets⟩

theorem eq_of_turn? (h : Consistent tables) {turnId : String} {turn row : TurnRow}
    (found : tables.turn? conversationId turnId = some turn) (mem : row ∈ tables.turns)
    (key : row.key = (conversationId, turnId)) : row = turn := by
  obtain ⟨here, same⟩ := mem_of_turn? found
  exact eq_of_key_eq h.turnKeys mem here (key.trans same.symm)

theorem nextIndex_eq_ok_iff {start count next : Nat} {column : List Nat}
    (numbered : column = List.range' start count) :
    nextIndex start column = .ok next ↔ start + count ≤ i64Max ∧ start + count = next := by
  have following : column.max?.elim start (· + 1) = start + count := by
    subst numbered
    cases count with
    | zero => rfl
    | succ count =>
        have largest : (List.range' start (count + 1)).max? = some (start + count) := by
          rw [List.max?_eq_some_iff]
          simp only [mem_range'_1]
          exact ⟨by omega, fun _ bound => by omega⟩
        rw [largest]
        rfl
  simp only [nextIndex, bind_eq_ok_iff, refuseWhen_eq_ok_iff, pure_eq_ok_iff, following,
    Nat.not_lt, exists_const]

theorem appendTurn_commits {request : AppendTurn} (h : Consistent tables)
    (ok : appendTurn tables request = .ok after) :
    Commits coupled tables after request.toScope (.appendTurn request) := by
  simp only [appendTurn, bind_eq_ok_iff, refuseWhen_eq_ok_iff, okOr_eq_ok_iff, requireRevision,
    insertTurn, insertPart, pure_eq_ok_iff, not_not] at ok
  obtain ⟨parsed, -, conversation, found, -, rev, -, -, -, -, ordinal, next, revision, bumped,
    revised, moved, _, ⟨-, fresh, -, -, -, -, rfl⟩, -, -, -, -, rfl⟩ := ok
  obtain ⟨fits, rfl, rfl⟩ := revise_ok bumped moved
  have current := atRevision_of_owned found rev
  refine ⟨current, fits, ⟨id, keepsRevision_id, rfl⟩, ?_, getTurn_ok ⟨_, mem_concat_self, rfl⟩⟩
  refine .tail (.single (edit_revised keepsRevision_id)) (.addTurn _ _ ?_ ?_ ?_ ⟨rfl, rfl⟩)
  · exact fun other mem same => any_eq_false_iff.mp fresh other mem (beq_iff_eq.mpr same)
  · exact covers_revised keepsRevision_id current
  · rw [← ((nextIndex_eq_ok_iff (h.ordinals _)).mp next).2, Nat.add_comm]
    rfl

theorem Edit.turn (h : Consistent tables) {turn : TurnRow} {key : String × String}
    (mem : turn ∈ tables.turns) (own : turn.key = key) (isOpen : turn.status.isOpen)
    (f : TurnRow → TurnRow)
    (kept : ∀ row, (f row).key = row.key ∧ (f row).ordinal = row.ordinal)
    (covered : tables.Covers key.1 (f turn).revision)
    (closes : coupled → (f turn).status.isOpen = false → tables.Idle key) :
    Edit coupled tables { tables with turns := updateWhere (·.key == key) f tables.turns } := by
  have same : ∀ row ∈ tables.turns, row.key == key → row = turn := fun row here selected =>
    eq_of_key_eq h.turnKeys here mem ((beq_iff_eq.mp selected).trans own.symm)
  subst own
  refine .reviseTurns _ f kept ?_ ?_ ?_
  · intro row here selected
    obtain rfl := same row here selected
    exact covered
  · intro row here selected
    obtain rfl := same row here selected
    exact isOpen
  · intro both row here selected closed
    obtain rfl := same row here selected
    exact closes both closed

theorem startedTurns_eq {request : StartExecution} {revision : Nat} {rows : List TurnRow}
    {turn : TurnRow} (only : ∀ row ∈ rows, row.key = (request.conversationId, request.turnId) →
      row = turn) :
    updateWhere (fun row => row.key == (request.conversationId, request.turnId))
      (fun row => { row with executionId := some request.executionId, revision })
      (if turn.status = .queued then
        updateWhere
          (fun row => row.key == (request.conversationId, request.turnId) &&
            row.status == .queued)
          (fun row => { row with status := .running, revision }) rows
      else rows) =
    updateWhere (fun row => row.key == (request.conversationId, request.turnId))
      (fun row =>
        { row with
          status := if row.status = .queued then .running else row.status
          executionId := some request.executionId, revision }) rows := by
  split
  next queued =>
    rw [updateWhere_updateWhere]
    · apply map_congr_left
      intro row _
      cases row with
      | mk conversationId turnId ordinal role status connectionId modelId revision createdAtMs
          finishedAtMs executionId => cases status <;> rfl
    · exact fun _ => rfl
  next busy =>
    apply map_congr_left
    intro row mem
    split
    next selected =>
      obtain rfl := only row mem (beq_iff_eq.mp selected)
      simp only [if_neg busy]
    next => rfl

theorem startExecution_commits {request : StartExecution} (h : Consistent tables)
    (ok : startExecution tables request = .ok after) :
    Commits coupled tables after request.toScope (.startExecution request) := by
  simp only [startExecution, bind_eq_ok_iff, refuseWhen_eq_ok_iff, okOr_eq_ok_iff,
    requireRevision, insertExecution, pure_eq_ok_iff, not_not] at ok
  obtain ⟨-, -, -, -, -, -, conversation, found, -, rev, turn, located, -, status, -, -, -, idle,
    revision, bumped, revised, moved, -, fresh, -, -, rfl⟩ := ok
  obtain ⟨fits, rfl, rfl⟩ := revise_ok bumped moved
  have current := atRevision_of_active found rev
  have covered := covers_revised keepsRevision_id current
  obtain ⟨mem, key⟩ := mem_of_turn? located
  have pending : turn.status.isOpen ∧
      (if turn.status = .queued then .running else turn.status).isOpen := by
    cases turnStatus : turn.status <;> simp_all [TurnStatus.isOpen]
  refine ⟨current, fits, ⟨id, keepsRevision_id, rfl⟩, ?_,
    getExecution_ok ⟨_, mem_concat_self, rfl⟩⟩
  rw [revised_turns, startedTurns_eq fun row here same => eq_of_turn? h located here same]
  refine .tail (.tail (.single (edit_revised keepsRevision_id))
    (.turn (h.revised keepsRevision_id) mem key pending.1 _ ?_ covered ?_))
    (.addExecution _ ?_ covered ?_ ?_ rfl)
  · exact fun _ => ⟨rfl, rfl⟩
  · intro _ closed
    simp [pending.2] at closed
  · exact fun other here same => any_eq_false_iff.mp fresh other here (beq_iff_eq.mpr same)
  · refine ⟨_, mem_updateWhere_of_mem mem, ?_⟩
    simp only [key, beq_self_eq_true, if_true]
    exact ⟨key, pending.2⟩
  · intro other here same runs
    apply any_eq_false_iff.mp idle other here
    simp only [Bool.and_eq_true, beq_iff_eq]
    exact ⟨same, runs⟩

theorem mem_of_activeConversation
    (found : tables.activeConversation scope = some conversation) :
    conversation ∈ tables.conversations ∧ conversation.conversationId = scope.conversationId ∧
      conversation.ownerId = scope.ownerId ∧ conversation.status = .active := by
  have meets := List.find?_some found
  simp only [Bool.and_eq_true, beq_iff_eq] at meets
  exact ⟨mem_of_find?_eq_some found, meets.1.1, meets.1.2, meets.2⟩

theorem mem_of_runningExecution {executionId : String}
    {joined : ConversationRecord × ConversationExecutionRecord}
    (found : tables.runningExecution scope executionId = some joined) :
    tables.activeConversation scope = some joined.1 ∧ joined.2 ∈ tables.executions ∧
      joined.2.conversationId = scope.conversationId ∧ joined.2.executionId = executionId ∧
      joined.2.status = .running := by
  simp only [runningExecution, Option.bind_eq_bind, Option.bind_eq_some_iff,
    Option.pure_def, Option.some.injEq] at found
  obtain ⟨conversation, active, execution, located, rfl⟩ := found
  have meets := List.find?_some located
  simp only [Bool.and_eq_true, beq_iff_eq] at meets
  exact ⟨active, mem_of_find?_eq_some located,
    meets.1.1.trans (mem_of_activeConversation active).2.1, meets.1.2, meets.2⟩

theorem checkpointExecution_commits {request : CheckpointExecution} (h : Consistent tables)
    (ok : checkpointExecution externals tables request = .ok after) :
    Commits coupled tables after request.toScope (.checkpointExecution request) := by
  simp only [checkpointExecution, bind_eq_ok_iff, refuseWhen_eq_ok_iff, okOr_eq_ok_iff,
    requireRevision, insertCheckpoint, toI64Revision_eq_ok_iff, pure_eq_ok_iff, not_not] at ok
  obtain ⟨-, -, -, -, joined, found, -, rev, execution, located, -, -, -, next, revision, bumped,
    revised, moved, _, ⟨-, rfl⟩, -, -, -, -, rfl⟩ := ok
  obtain ⟨fits, rfl, rfl⟩ := revise_ok bumped moved
  obtain ⟨active, mem, conversation, executionId, running⟩ := mem_of_runningExecution found
  have current := atRevision_of_active active rev
  -- the lookup by key alone finds the execution that the join found
  obtain rfl : joined.2 = execution := by
    have meets := List.find?_some located
    exact eq_of_key_eq h.executionKeys mem (mem_of_find?_eq_some located)
      (executionId.trans (beq_iff_eq.mp meets).symm)
  refine ⟨current, fits, ⟨id, keepsRevision_id, rfl⟩, ?_, getExecution_ok ?_⟩
  · refine .tail (.single (edit_revised keepsRevision_id))
      (.addCheckpoint
        { executionId := request.executionId, sequence := request.sequence
          state := request.state, continuationJson := request.continuationJson
          continuationHash := externals.blake3Hex request.continuationJson
          createdAtMs := request.atMs } joined.2 _ ?_ executionId running ?_ next)
    · exact mem
    · rw [conversation]
      exact covers_revised keepsRevision_id current
  · refine ⟨_, mem_updateWhere_of_mem mem, ?_⟩
    split <;> exact executionId

theorem turn_isOpen_of_allowed {current next : TurnStatus}
    (allowed : turnTransitionAllowed current next = true) : current.isOpen = true := by
  cases current <;> cases next <;> simp_all [turnTransitionAllowed, TurnStatus.isOpen]

theorem toExecution_ne_running (status : TerminalStatus) : status.toExecution ≠ .running := by
  cases status <;> simp [TerminalStatus.toExecution]

/-- Closing a running execution leaves its turn without one. -/
theorem idle_endExecution (h : Consistent tables) {execution : ConversationExecutionRecord}
    {f : ConversationExecutionRecord → ConversationExecutionRecord}
    (mem : execution ∈ tables.executions) (running : execution.status = .running)
    (ends : ∀ row, (f row).status ≠ .running) :
    Tables.Idle { tables with
      executions := updateWhere
        (fun row => row.executionId == execution.executionId && row.status == .running) f
        tables.executions } execution.turnKey := by
  intro other otherMem
  obtain ⟨row, here, rfl⟩ := mem_updateWhere.mp otherMem
  intro same runs
  split at runs
  next => exact ends row runs
  next unselected =>
    rw [if_neg unselected] at same
    obtain rfl := h.oneRunning row here execution mem runs running same
    simp [running] at unselected

theorem finishExecution_commits {request : FinishExecution} (h : Consistent tables)
    (ok : finishExecution tables request = .ok after) :
    Commits coupled tables after request.toScope (.finishExecution request) := by
  simp only [finishExecution, bind_eq_ok_iff, refuseWhen_eq_ok_iff, okOr_eq_ok_iff,
    requireRevision, pure_eq_ok_iff, not_not] at ok
  obtain ⟨status, -, -, -, joined, found, -, rev, turn, located, -, allowed, revision, bumped,
    revised, moved, rfl⟩ := ok
  obtain ⟨fits, rfl, rfl⟩ := revise_ok bumped moved
  obtain ⟨active, mem, conversation, executionId, running⟩ := mem_of_runningExecution found
  have current := atRevision_of_active active rev
  have covered := covers_revised keepsRevision_id current
  obtain ⟨turnMem, key⟩ := mem_of_turn? located
  have sameTurn : joined.2.turnKey = turn.key := by
    rw [key]
    exact Prod.ext conversation rfl
  have executionsEnd : Edit coupled (tables.revised request.toScope id)
      { tables.revised request.toScope id with
        executions := updateWhere
          (fun row => row.executionId == request.executionId && row.status == .running)
          (fun row => { row with
            status := status.toExecution, revision := request.expectedRevision + 1
            finishedAtMs := some request.atMs }) tables.executions } := by
    refine .endExecutions _ _ (fun _ => ⟨rfl, rfl, rfl⟩) ?_ fun _ => toExecution_ne_running status
    intro row here selected
    simp only [Bool.and_eq_true, beq_iff_eq] at selected
    obtain rfl := eq_of_key_eq h.executionKeys here mem (selected.1.trans executionId.symm)
    rw [conversation]
    exact covered
  refine ⟨current, fits, ⟨id, keepsRevision_id, rfl⟩, ?_, getExecution_ok ?_⟩
  · refine .tail (.tail (.single (edit_revised keepsRevision_id)) executionsEnd)
      (.turn (executionsEnd.consistent (h.revised keepsRevision_id)) turnMem key ?_ _ ?_ covered
        ?_)
    · exact turn_isOpen_of_allowed (by simpa using allowed)
    · exact fun _ => ⟨rfl, rfl⟩
    · intro _ _
      rw [← key, ← sameTurn, ← executionId]
      exact idle_endExecution (h.revised keepsRevision_id) mem running
        fun _ => toExecution_ne_running status
  · refine ⟨_, mem_updateWhere_of_mem mem, ?_⟩
    split <;> exact executionId

theorem recordToolCall_commits {request : RecordToolCall}
    (ok : recordToolCall externals tables request = .ok after) :
    Commits coupled tables after request.toScope (.recordToolCall request) := by
  simp only [recordToolCall, bind_eq_ok_iff, refuseWhen_eq_ok_iff, okOr_eq_ok_iff,
    requireRevision, insertToolCall, pure_eq_ok_iff, not_not] at ok
  obtain ⟨-, -, -, -, -, -, -, -, conversation, found, -, rev, turn, -, -, -, -, -, revision,
    bumped, revised, moved, -, fresh, -, -, rfl⟩ := ok
  obtain ⟨fits, rfl, rfl⟩ := revise_ok bumped moved
  have current := atRevision_of_active found rev
  refine ⟨current, fits, ⟨id, keepsRevision_id, rfl⟩, ?_,
    getToolCall_ok ⟨_, mem_concat_self, rfl⟩⟩
  refine .tail (.single (edit_revised keepsRevision_id)) (.addToolCall _ ?_ ?_ rfl)
  · exact fun other here same => any_eq_false_iff.mp fresh other here (beq_iff_eq.mpr same)
  · exact covers_revised keepsRevision_id current

theorem moves_of_parseResult {text : String} {status : ToolCallStatus}
    (parsed : parseResult text = some status) :
    ToolCallStatus.moves .requested status = true := by
  unfold parseResult at parsed
  split at parsed
  · cases parsed
    rfl
  · cases parsed
    rfl
  · cases parsed

theorem moves_of_parseReconciliation {text : String} {status : ToolCallStatus}
    (parsed : parseReconciliation text = some status) :
    ToolCallStatus.moves .ambiguous status = true := by
  unfold parseReconciliation at parsed
  split at parsed
  · cases parsed
    rfl
  · cases parsed
    rfl
  · cases parsed

/-- A call that advances its conversation and rewrites the tool call its lookup has found. -/
theorem commits_toolCall {request : Call} (h : Consistent tables)
    {call : ConversationToolCallRecord} {p : ConversationToolCallRecord → Bool}
    {f : ConversationToolCallRecord → ConversationToolCallRecord}
    (current : tables.AtRevision scope) (fits : scope.Fits) (mem : call ∈ tables.toolCalls)
    (only : ∀ row, p row → row.callId = call.callId)
    (kept : ∀ row, (f row).callId = row.callId ∧ (f row).conversationId = row.conversationId)
    (own : call.conversationId = scope.conversationId)
    (next : (f call).revision = scope.expectedRevision + 1)
    (moves : call.status.moves (f call).status)
    (reads : ∀ tables, readBack tables request = .toolCall <$> tables.getToolCall call.callId) :
    Commits coupled tables { tables.revised scope id with
      toolCalls := updateWhere p f tables.toolCalls } scope request := by
  have same : ∀ row ∈ tables.toolCalls, p row → row = call := fun row here selected =>
    eq_of_key_eq h.callKeys here mem (only row selected)
  refine ⟨current, fits, ⟨id, keepsRevision_id, rfl⟩, ?_, ?_⟩
  · refine .tail (.single (edit_revised keepsRevision_id)) (.moveToolCalls p f kept ?_ ?_)
    · intro row here selected
      obtain rfl := same row here selected
      rw [own, next]
      exact covers_revised keepsRevision_id current
    · intro row here selected
      obtain rfl := same row here selected
      exact moves
  · rw [reads]
    refine getToolCall_ok ⟨_, mem_updateWhere_of_mem mem, ?_⟩
    split
    · exact (kept call).1
    · rfl

theorem recordToolResult_commits {request : RecordToolResult} (h : Consistent tables)
    (ok : recordToolResult tables request = .ok after) :
    Commits coupled tables after request.toScope (.recordToolResult request) := by
  simp only [recordToolResult, bind_eq_ok_iff, refuseWhen_eq_ok_iff, okOr_eq_ok_iff,
    requireRevision, pure_eq_ok_iff, not_not] at ok
  obtain ⟨-, -, -, -, status, parsed, conversation, found, -, rev, call, located, -, requested,
    turn, -, -, -, revision, bumped, revised, moved, rfl⟩ := ok
  obtain ⟨fits, rfl, rfl⟩ := revise_ok bumped moved
  have meets := List.find?_some located
  simp only [Bool.and_eq_true, beq_iff_eq] at meets
  refine commits_toolCall h (atRevision_of_active found rev) fits (mem_of_find?_eq_some located)
    ?_ (fun _ => ⟨rfl, rfl⟩) meets.2 rfl ?_ fun _ => by rw [meets.1]; rfl
  · intro row selected
    simp only [Bool.and_eq_true, beq_iff_eq] at selected
    exact selected.1.trans meets.1.symm
  · rw [requested]
    exact moves_of_parseResult parsed

theorem reconcileToolCall_commits {request : ReconcileToolCall} (h : Consistent tables)
    (ok : reconcileToolCall tables request = .ok after) :
    Commits coupled tables after request.toScope (.reconcileToolCall request) := by
  simp only [reconcileToolCall, bind_eq_ok_iff, refuseWhen_eq_ok_iff, okOr_eq_ok_iff,
    requireRevision, ambiguousToolCall, Option.bind_eq_bind, Option.bind_eq_some_iff,
    Option.pure_def, Option.some.injEq, pure_eq_ok_iff, not_not] at ok
  obtain ⟨-, -, -, -, status, parsed, _, ⟨conversation, found, call, located, rfl⟩, -, rev,
    revision, bumped, revised, moved, rfl⟩ := ok
  obtain ⟨fits, rfl, rfl⟩ := revise_ok bumped moved
  have meets := List.find?_some located
  simp only [Bool.and_eq_true, beq_iff_eq] at meets
  refine commits_toolCall h (atRevision_of_active found rev) fits (mem_of_find?_eq_some located)
    ?_ (fun _ => ⟨rfl, rfl⟩) (meets.1.1.trans (mem_of_activeConversation found).2.1) rfl ?_
    fun _ => by rw [meets.1.2]; rfl
  · intro row selected
    simp only [Bool.and_eq_true, beq_iff_eq] at selected
    exact selected.1.1.trans meets.1.2.symm
  · rw [meets.2]
    exact moves_of_parseReconciliation parsed

theorem appendTurnPart_commits {request : AppendTurnPart} (h : Consistent tables)
    (ok : appendTurnPart tables request = .ok after) :
    Commits coupled tables after request.toScope (.appendTurnPart request) := by
  simp only [appendTurnPart, bind_eq_ok_iff, refuseWhen_eq_ok_iff, okOr_eq_ok_iff,
    requireRevision, insertPart, pure_eq_ok_iff, not_not] at ok
  obtain ⟨-, -, -, -, kind, -, -, -, conversation, found, -, rev, turn, located, -, pending,
    partIndex, next, revision, bumped, revised, moved, -, -, -, -, rfl⟩ := ok
  obtain ⟨fits, rfl, rfl⟩ := revise_ok bumped moved
  have current := atRevision_of_active found rev
  obtain ⟨mem, key⟩ := mem_of_turn? located
  have isOpen : turn.status.isOpen = true := by simpa using pending
  refine ⟨current, fits, ⟨id, keepsRevision_id, rfl⟩, ?_, getTurn_ok ?_⟩
  · refine .tail (.tail (.single (edit_revised keepsRevision_id))
      (.turn (h.revised keepsRevision_id) mem key isOpen _ ?_
        (covers_revised keepsRevision_id current) ?_)) (.addPart _ ?_ ?_)
    · exact fun _ => ⟨rfl, rfl⟩
    · intro _ closed
      simp [isOpen] at closed
    · refine ⟨_, mem_updateWhere_of_mem mem, ?_⟩
      simp only [key, beq_self_eq_true, if_true]
      exact ⟨key, isOpen⟩
    · have numbered := h.partIndexes (request.conversationId, request.turnId)
      rw [range_eq_range'] at numbered
      rw [← ((nextIndex_eq_ok_iff numbered).mp next).2, Nat.zero_add]
      rfl
  · refine ⟨_, mem_updateWhere_of_mem mem, ?_⟩
    split <;> exact key

/-- The conditions under which a transition of a turn to this status is accepted. -/
structure AcceptsTransition (tables : Tables) (request : TransitionTurn) (status : TurnStatus) :
    Prop where
  identity : validateIdentity request.conversationId request.ownerId request.turnId = .ok ()
  parsed : TurnStatus.parse request.status = some status
  timed : request.atMs ≠ 0
  current : ∃ conversation, tables.activeConversation request.toScope = some conversation ∧
    conversation.revision = request.expectedRevision
  allowed : ∃ turn, tables.turn? request.conversationId request.turnId = some turn ∧
    turnTransitionAllowed turn.status status = true
  fits : request.toScope.Fits

theorem validateTurnStatus_eq_ok_iff {text : String} {status : TurnStatus} :
    validateTurnStatus text = .ok status ↔ TurnStatus.parse text = some status := by
  unfold validateTurnStatus
  split <;> simp_all

theorem finishedAt_of_fits {status : TurnStatus} {atMs : Nat} (fits : atMs ≤ i64Max) :
    finishedAt status atMs = .ok (if status.recordsFinish then some atMs else none) := by
  unfold finishedAt
  split <;> simp [toI64Timestamp, fits, Functor.map, Except.map]

theorem transitionTurn_ok_iff {request : TransitionTurn} :
    transitionTurn tables request = .ok after ↔ ∃ status, AcceptsTransition tables request status ∧
      after = { tables.revised request.toScope id with
        turns := updateWhere (fun row => row.key == (request.conversationId, request.turnId))
          (fun row => { row with
            status, revision := request.expectedRevision + 1
            finishedAtMs := if status.recordsFinish then some request.atMs else none })
          tables.turns } := by
  simp only [transitionTurn, bind_eq_ok_iff, refuseWhen_eq_ok_iff, okOr_eq_ok_iff,
    validateTurnStatus_eq_ok_iff, requireRevision, pure_eq_ok_iff, not_not]
  constructor
  · rintro ⟨⟨⟩, identity, status, parsed, -, timed, conversation, found, -, rev, turn, located, -,
      allowed, revision, bumped, finished, finishing, revised, moved, rfl⟩
    obtain ⟨fits, rfl, rfl⟩ := revise_ok bumped moved
    refine ⟨status, ⟨identity, parsed, timed, ⟨conversation, found, rev⟩,
      ⟨turn, located, by simpa using allowed⟩, fits⟩, ?_⟩
    rw [finishedAt_of_fits fits.2] at finishing
    rw [Except.ok.inj finishing]
    rfl
  · rintro ⟨status, accepts, rfl⟩
    obtain ⟨conversation, found, rev⟩ := accepts.current
    obtain ⟨turn, located, allowed⟩ := accepts.allowed
    obtain ⟨revision, bumped, moved⟩ :=
      revise_next_iff.mpr ⟨accepts.fits, rfl (a := tables.revised request.toScope id)⟩
    obtain ⟨-, rfl, -⟩ := revise_ok bumped moved
    exact ⟨⟨⟩, accepts.identity, status, accepts.parsed, ⟨⟩, accepts.timed, conversation, found,
      ⟨⟩, rev, turn, located, ⟨⟩, by simpa using allowed, _, bumped, _,
      finishedAt_of_fits accepts.fits.2, _, moved, rfl⟩

/-- The transition closes a turn that still has a running execution. -/
def Tables.Strands (tables : Tables) (request : TransitionTurn) : Prop :=
  ∃ status, AcceptsTransition tables request status ∧ status.isOpen = false ∧
    ¬ tables.Idle (request.conversationId, request.turnId)

section

variable (h : Consistent tables)
include h

theorem transitionTurn_commits {request : TransitionTurn}
    (closes : coupled → ¬ tables.Strands request)
    (ok : transitionTurn tables request = .ok after) :
    Commits coupled tables after request.toScope (.transitionTurn request) := by
  obtain ⟨status, accepts, rfl⟩ := transitionTurn_ok_iff.mp ok
  obtain ⟨conversation, found, rev⟩ := accepts.current
  obtain ⟨turn, located, allowed⟩ := accepts.allowed
  have current := atRevision_of_active found rev
  obtain ⟨mem, key⟩ := mem_of_turn? located
  refine ⟨current, accepts.fits, ⟨id, keepsRevision_id, rfl⟩, ?_, getTurn_ok ?_⟩
  · refine .tail (.single (edit_revised keepsRevision_id))
      (.turn (h.revised keepsRevision_id) mem key (turn_isOpen_of_allowed allowed) _ ?_
        (covers_revised keepsRevision_id current) ?_)
    · exact fun _ => ⟨rfl, rfl⟩
    · intro both closed
      by_contra busy
      exact closes both ⟨status, accepts, closed, busy⟩
  · refine ⟨_, mem_updateWhere_of_mem mem, ?_⟩
    split <;> exact key

/-- An operation that only assigns columns of its conversation. -/
theorem commits_revised {call : Call} (keeps : KeepsRevision assign)
    (current : tables.AtRevision scope) (fits : scope.Fits)
    (reads : ∀ tables, readBack tables call =
      Reply.conversation <$> tables.getConversationRecord scope.conversationId scope.ownerId) :
    Commits coupled tables (tables.revised scope assign) scope call := by
  refine ⟨current, fits, ⟨assign, keeps, rfl⟩, .single (edit_revised keeps), ?_⟩
  rw [reads]
  apply getConversationRecord_ok (h.revised keeps)
  obtain ⟨row, mem, id, owner, -⟩ := current
  refine ⟨_, mem_updateWhere_of_mem mem, ?_⟩
  split
  · exact ⟨(keeps _).1.trans id, (keeps _).2.1.trans owner⟩
  · exact ⟨id, owner⟩

theorem switchModel_commits {request : SwitchModel}
    (ok : switchModel tables request = .ok after) :
    Commits coupled tables after request.toScope (.switchModel request) := by
  simp only [switchModel, bind_eq_ok_iff, refuseWhen_eq_ok_iff, okOr_eq_ok_iff, requireRevision,
    not_not] at ok
  obtain ⟨-, -, conversation, found, -, rev, -, -, revision, bumped, moved⟩ := ok
  obtain ⟨fits, rfl, rfl⟩ := revise_ok bumped moved
  exact commits_revised h (fun _ => ⟨rfl, rfl, rfl⟩) (atRevision_of_active found rev) fits
    fun _ => rfl

theorem setStatus_commits {request : SetStatus}
    (ok : setStatus tables request = .ok after) :
    Commits coupled tables after request.toScope (.setStatus request) := by
  simp only [setStatus, bind_eq_ok_iff, refuseWhen_eq_ok_iff, okOr_eq_ok_iff, requireRevision,
    not_not] at ok
  obtain ⟨status, -, -, -, conversation, found, -, rev, revision, bumped, moved⟩ := ok
  obtain ⟨fits, rfl, rfl⟩ := revise_ok bumped moved
  exact commits_revised h (fun _ => ⟨rfl, rfl, rfl⟩) (atRevision_of_owned found rev) fits
    fun _ => rfl

theorem createConversation_edits {request : CreateConversation}
    (ok : createConversation tables request = .ok after) :
    Edits coupled tables after ∧
      ∃ reply, readBack after (.createConversation request) = .ok reply := by
  simp only [createConversation, validateConversation, bind_eq_ok_iff, refuseWhen_eq_ok_iff,
    ite_error_eq_ok_iff, insertConversation, pure_eq_ok_iff] at ok
  obtain ⟨-, ⟨usable, -⟩, -, -, createdAtMs, -, -, fresh, created⟩ := ok
  simp only [Bool.or_eq_true, not_or, Bool.not_eq_true] at usable
  have edit : Edit coupled tables after := by
    rw [← created]
    refine .addConversation _ ?_ ⟨usable.1.1.1, usable.1.1.2⟩
    exact fun other here same => any_eq_false_iff.mp fresh other here (beq_iff_eq.mpr same)
  refine ⟨.single edit, getConversationRecord_ok (edit.consistent h) ?_⟩
  rw [← created]
  exact ⟨_, mem_concat_self, rfl, rfl⟩

end

/-! ### Recovery -/

/-- The tables after the recovery of one active conversation. -/
def Tables.recovered (tables : Tables) (nowMs revision : Nat) (conversationId : String) :
    Tables :=
  { tables with
    conversations := updateWhere
      (fun row => row.conversationId == conversationId && row.status == .active)
      (fun row => { row with revision, updatedAtMs := nowMs }) tables.conversations
    turns := updateWhere (fun row => row.conversationId == conversationId && row.status.isOpen)
      (fun row => { row with status := .interrupted, revision, finishedAtMs := some nowMs })
      tables.turns
    executions := updateWhere
      (fun row => row.conversationId == conversationId && row.status == .running)
      (fun row => { row with status := .interrupted, revision, finishedAtMs := some nowMs })
      tables.executions
    toolCalls := updateWhere
      (fun row => row.conversationId == conversationId && row.status == .requested)
      (fun row => { row with status := .ambiguous, revision })
      (updateWhere
        (fun row => row.conversationId == conversationId && row.status == .requested &&
          tables.turns.any fun turn =>
            turn.key == row.requestKey && turn.status == .waitingApproval)
        (fun row => { row with
          status := .cancelled
          resultContent := some "Not run: approval was pending when the application restarted."
          revision, completedAtMs := some nowMs })
        tables.toolCalls) }

variable {nowMs : Nat} {conversationId : String}

theorem recoverConversation_ok_iff :
    recoverConversation nowMs tables conversationId = .ok after ↔
      ((∀ row ∈ tables.conversations, row.conversationId = conversationId →
          row.status ≠ .active) ∧ after = tables) ∨
      ∃ conversation, tables.conversations.find? (fun row =>
          row.conversationId == conversationId && row.status == .active) = some conversation ∧
        conversation.revision + 1 ≤ i64Max ∧ nowMs ≤ i64Max ∧
        after = tables.recovered nowMs (conversation.revision + 1) conversationId := by
  unfold recoverConversation
  split
  next missing =>
    have inactive : ∀ row ∈ tables.conversations, row.conversationId = conversationId →
        row.status ≠ .active := by
      intro row mem same active
      simpa [same, active] using List.find?_eq_none.mp missing row mem
    simp only [missing, reduceCtorEq, false_and, exists_false, or_false, Except.ok.injEq]
    exact ⟨fun same => ⟨inactive, same.symm⟩, fun both => both.2.symm⟩
  next conversation found =>
    have meets := List.find?_some found
    simp only [Bool.and_eq_true, beq_iff_eq] at meets
    have active : ¬ ∀ row ∈ tables.conversations, row.conversationId = conversationId →
        row.status ≠ .active := fun inactive =>
      inactive conversation (mem_of_find?_eq_some found) meets.1 meets.2
    simp only [bind_eq_ok_iff, nextRevision_eq_ok_iff, toI64Revision_eq_ok_iff,
      toI64Timestamp_eq_ok_iff, pure_eq_ok_iff, found, Option.some.injEq, active, false_and,
      false_or]
    constructor
    · rintro ⟨_, ⟨-, rfl⟩, _, ⟨fits, rfl⟩, _, ⟨time, rfl⟩, rfl⟩
      exact ⟨conversation, rfl, fits, time, rfl⟩
    · rintro ⟨_, rfl, fits, time, rfl⟩
      have wide : i64Max ≤ u64Max := by decide
      exact ⟨_, ⟨by omega, rfl⟩, _, ⟨fits, rfl⟩, _, ⟨time, rfl⟩, rfl⟩

theorem recovered_edits (h : Consistent tables)
    (found : tables.conversations.find? (fun row =>
      row.conversationId == conversationId && row.status == .active) = some conversation) :
    Edits coupled tables (tables.recovered nowMs (conversation.revision + 1) conversationId) := by
  have mem := mem_of_find?_eq_some found
  have meets := List.find?_some found
  simp only [Bool.and_eq_true, beq_iff_eq] at meets
  have own {id : String} {other : Bool} (selected : (id == conversationId && other) = true) :
      id = conversationId :=
    beq_iff_eq.mp (Bool.and_eq_true_iff.mp selected).1
  have conversations : Edit coupled tables { tables with
      conversations := updateWhere
        (fun row => row.conversationId == conversationId && row.status == .active)
        (fun row => { row with revision := conversation.revision + 1, updatedAtMs := nowMs })
        tables.conversations } := by
    refine .reviseConversations _ _ (fun _ => ⟨rfl, rfl⟩) ?_
    intro row here selected
    simp only [Bool.and_eq_true, beq_iff_eq] at selected
    obtain rfl := eq_of_key_eq h.conversationKeys here mem (selected.1.trans meets.1.symm)
    exact Nat.le_succ _
  have covered : ∀ {turns executions toolCalls}, Tables.Covers { tables with
      conversations := updateWhere
        (fun row => row.conversationId == conversationId && row.status == .active)
        (fun row => { row with revision := conversation.revision + 1, updatedAtMs := nowMs })
        tables.conversations
      turns, executions, toolCalls } conversationId (conversation.revision + 1) := by
    intro turns executions toolCalls
    refine ⟨_, mem_updateWhere_of_mem mem, ?_⟩
    simp only [meets, beq_self_eq_true, Bool.and_self, if_true]
    exact ⟨trivial, le_refl _⟩
  -- the executions are closed before the turns, so that no closed turn has a running one
  refine .tail (.tail (.tail (.tail (.single conversations)
    (.moveToolCalls _ _ ?_ ?_ ?_)) (.moveToolCalls _ _ ?_ ?_ ?_))
    (.endExecutions _ _ ?_ ?_ ?_)) (.reviseTurns _ _ ?_ ?_ ?_ ?_)
  · exact fun _ => ⟨rfl, rfl⟩
  · intro row _ selected
    rw [own (Bool.and_eq_true_iff.mp selected).1]
    exact covered
  · intro row _ selected
    simp only [Bool.and_eq_true, beq_iff_eq] at selected
    rw [selected.1.2]
    rfl
  · exact fun _ => ⟨rfl, rfl⟩
  · intro row _ selected
    rw [own selected]
    exact covered
  · intro row _ selected
    simp only [Bool.and_eq_true, beq_iff_eq] at selected
    rw [selected.2]
    rfl
  · exact fun _ => ⟨rfl, rfl, rfl⟩
  · intro row _ selected
    rw [own selected]
    exact covered
  · exact fun _ => nofun
  · exact fun _ => ⟨rfl, rfl⟩
  · intro row _ selected
    rw [own selected]
    exact covered
  · intro row _ selected
    simp only [Bool.and_eq_true] at selected
    exact selected.2
  · intro _ row _ selected _ execution here
    obtain ⟨old, oldMem, rfl⟩ := mem_updateWhere.mp here
    simp only [Bool.and_eq_true, beq_iff_eq] at selected
    intro same runs
    split at runs
    next => cases runs
    next unselected =>
      rw [if_neg unselected] at same
      apply unselected
      simp only [Bool.and_eq_true, beq_iff_eq]
      exact ⟨(congrArg Prod.fst same).trans selected.1, runs⟩

theorem recoverConversation_edits (h : Consistent tables)
    (ok : recoverConversation nowMs tables conversationId = .ok after) :
    Edits coupled tables after := by
  obtain ⟨-, rfl⟩ | ⟨conversation, found, -, -, rfl⟩ := recoverConversation_ok_iff.mp ok
  · exact .refl
  · exact recovered_edits h found

theorem recoverIncompleteRuns_edits (h : Consistent tables)
    (ok : recoverIncompleteRuns nowMs tables = .ok after) : Edits coupled tables after := by
  simp only [recoverIncompleteRuns, bind_eq_ok_iff, refuseWhen_eq_ok_iff] at ok
  obtain ⟨-, -, ok⟩ := ok
  refine foldlM_invariant (motive := fun _ middle => Edits coupled tables middle) ?_ .refl ok
  intro _ id _ middle next _ edits round
  exact edits.trans (recoverConversation_edits (edits.consistent h) round)

/-! ### Calls -/

/-- The call closes a turn that still has a running execution. -/
def Tables.StrandedBy (tables : Tables) : Call → Prop
  | .transitionTurn request => tables.Strands request
  | _ => False

theorem transaction_commits {call : Call} (h : Consistent tables)
    (closes : coupled → ¬ tables.StrandedBy call) (revisioned : call.scope? = some scope)
    (ok : transaction externals tables call = .ok after) :
    Commits coupled tables after scope call := by
  cases call with
  | createConversation request => cases revisioned
  | reopen nowMs => cases revisioned
  | appendTurn request =>
      cases revisioned
      exact appendTurn_commits h ok
  | startExecution request =>
      cases revisioned
      exact startExecution_commits h ok
  | checkpointExecution request =>
      cases revisioned
      exact checkpointExecution_commits h ok
  | finishExecution request =>
      cases revisioned
      exact finishExecution_commits h ok
  | recordToolCall request =>
      cases revisioned
      exact recordToolCall_commits ok
  | recordToolResult request =>
      cases revisioned
      exact recordToolResult_commits h ok
  | reconcileToolCall request =>
      cases revisioned
      exact reconcileToolCall_commits h ok
  | appendTurnPart request =>
      cases revisioned
      exact appendTurnPart_commits h ok
  | transitionTurn request =>
      cases revisioned
      exact transitionTurn_commits h closes ok
  | switchModel request =>
      cases revisioned
      exact switchModel_commits h ok
  | setStatus request =>
      cases revisioned
      exact setStatus_commits h ok

theorem transaction_edits {call : Call} (h : Consistent tables)
    (closes : coupled → ¬ tables.StrandedBy call)
    (ok : transaction externals tables call = .ok after) :
    Edits coupled tables after ∧ ∃ reply, readBack after call = .ok reply := by
  cases revisioned : call.scope? with
  | some scope =>
      have commits := transaction_commits h closes revisioned ok
      exact ⟨commits.edits, commits.answers⟩
  | none =>
      cases call with
      | createConversation request => exact createConversation_edits h ok
      | reopen nowMs => exact ⟨recoverIncompleteRuns_edits h ok, .opened, rfl⟩
      | _ => cases revisioned

/-- A call either fails and leaves the tables as they were, or commits and answers. -/
theorem perform_cases (externals : Externals) (call : Call) (h : Consistent tables) :
    (∃ error, perform externals tables call = ⟨.error error, tables⟩) ∨
      ∃ after reply, transaction externals tables call = .ok after ∧
        perform externals tables call = ⟨.ok reply, after⟩ := by
  cases ran : transaction externals tables call with
  | error error => exact .inl ⟨error, by simp [perform, ran]⟩
  | ok after =>
      obtain ⟨-, reply, answers⟩ : Edits False tables after ∧ _ := transaction_edits h nofun ran
      exact .inr ⟨after, reply, rfl, by simp [perform, ran, answers]⟩

theorem step_edits {call : Call} (h : Consistent tables)
    (closes : coupled → ¬ tables.StrandedBy call) :
    Edits coupled tables (step externals tables call) := by
  cases ran : transaction externals tables call with
  | error error => simpa [step, perform, ran] using Relation.ReflTransGen.refl
  | ok after => simpa [step, perform, ran] using (transaction_edits h closes ran).1

theorem Consistent.step {call : Call} (h : Consistent tables) :
    Consistent (step externals tables call) :=
  (step_edits h nofun : Edits False tables _).consistent h

theorem reached_consistent (calls : List Call) : Consistent (reached externals calls) := by
  have keep : ∀ tables call, Consistent tables → Consistent (step externals tables call) :=
    fun _ _ h => h.step
  exact run_invariant keep calls consistent_empty

end Aegis.Conversation
