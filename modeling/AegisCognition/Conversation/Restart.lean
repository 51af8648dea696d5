import Mathlib.Data.List.Dedup
import AegisCognition.Conversation.Transition

/-!
# What a restart settles

Opening the repository repairs every active conversation in which something was left
running. The repair closes each open turn, ends each running execution and decides each
requested tool call. The conversations to repair are chosen by a query that does not look
for turns waiting for an approval, so such a turn survives the restart when nothing else
in its conversation is unfinished.

The proof follows the statuses of the rows through the recovery loop: each round decides
the rows of one conversation and leaves the others as they are.
-/

namespace Aegis.Conversation

open Foundation Tables ConversationToolCallRecord TurnStatus List

variable {externals : Externals} {tables middle after : Tables} {nowMs revision : Nat}
variable {id conversationId : String} {seen : List String}

def Tables.isActive (tables : Tables) (conversationId : String) : Bool :=
  tables.conversations.any fun row =>
    row.conversationId == conversationId && row.status == .active

/-- The turn that requested the call waits for an approval. -/
def Tables.awaitsApproval (tables : Tables) (call : ConversationToolCallRecord) : Bool :=
  tables.turns.any fun turn => turn.key == call.requestKey && turn.status == .waitingApproval

section

variable (tables : Tables) (seen : List String)

/-- What the recovery of these conversations makes of a turn's status. -/
def Tables.recoveredTurn (row : TurnRow) : TurnStatus :=
  if row.conversationId ∈ seen ∧ tables.isActive row.conversationId ∧ row.status.isOpen then
    .interrupted
  else row.status

def Tables.recoveredExecution (row : ConversationExecutionRecord) : ExecutionStatus :=
  if row.conversationId ∈ seen ∧ tables.isActive row.conversationId ∧ row.status = .running then
    .interrupted
  else row.status

def Tables.recoveredCall (row : ConversationToolCallRecord) : ToolCallStatus :=
  if row.conversationId ∈ seen ∧ tables.isActive row.conversationId ∧ row.status = .requested then
    if tables.awaitsApproval row then .cancelled else .ambiguous
  else row.status

end

/-- The tables while the recovery has repaired the conversations in `seen`. -/
structure Recovering (tables : Tables) (seen : List String) (middle : Tables) : Prop where
  conversations : middle.conversations.map (fun row => (row.conversationId, row.status)) =
    tables.conversations.map (fun row => (row.conversationId, row.status))
  untouched : ∀ row ∈ middle.conversations, row.conversationId ∉ seen →
    row ∈ tables.conversations
  turns : middle.turns.map (fun row => (row.key, row.status)) =
    tables.turns.map (fun row => (row.key, tables.recoveredTurn seen row))
  executions : middle.executions.map (fun row => (row.executionId, row.turnKey, row.status)) =
    tables.executions.map
      (fun row => (row.executionId, row.turnKey, tables.recoveredExecution seen row))
  toolCalls : middle.toolCalls.map (fun row => (row.callId, row.requestKey, row.status)) =
    tables.toolCalls.map (fun row => (row.callId, row.requestKey, tables.recoveredCall seen row))

theorem Recovering.start (tables : Tables) : Recovering tables [] tables where
  conversations := rfl
  untouched := fun _ mem _ => mem
  turns := by simp [recoveredTurn]
  executions := by simp [recoveredExecution]
  toolCalls := by simp [recoveredCall]

namespace Recovering

theorem isActive (h : Recovering tables seen middle) : middle.isActive id = tables.isActive id := by
  have view : ∀ tables : Tables, tables.isActive id =
      (tables.conversations.map fun row => (row.conversationId, row.status)).any fun pair =>
        pair.1 == id && pair.2 == .active := by
    intro tables
    rw [any_map]
    rfl
  rw [view, view, h.conversations]

/-- A tool call of a conversation that is not repaired yet waits as it did. -/
theorem awaitsApproval (h : Recovering tables seen middle) {call old : ConversationToolCallRecord}
    (same : call.requestKey = old.requestKey) (fresh : old.conversationId ∉ seen) :
    middle.awaitsApproval call = tables.awaitsApproval old := by
  have view : middle.awaitsApproval call =
      (middle.turns.map fun row => (row.key, row.status)).any fun pair =>
        pair.1 == old.requestKey && pair.2 == .waitingApproval := by
    rw [any_map, Tables.awaitsApproval, same]
    rfl
  rw [view, h.turns, any_map, Tables.awaitsApproval]
  congr 1
  funext turn
  by_cases key : turn.key = old.requestKey
  · have unseen : turn.conversationId ∉ seen := by
      rwa [show turn.conversationId = old.conversationId from congrArg Prod.fst key]
    simp [Tables.recoveredTurn, unseen]
  · simp only [Function.comp, beq_eq_false_iff_ne.mpr key, Bool.false_and]

theorem recoveredTurn_concat (active : tables.isActive id = true) (row : TurnRow) :
    tables.recoveredTurn (seen ++ [id]) row =
      if row.conversationId == id && (tables.recoveredTurn seen row).isOpen then .interrupted
      else tables.recoveredTurn seen row := by
  by_cases same : row.conversationId = id
  · by_cases isIn : id ∈ seen <;> cases status : row.status <;>
      simp_all [recoveredTurn, isOpen]
  · simp [recoveredTurn, same]

theorem recoveredExecution_concat (active : tables.isActive id = true)
    (row : ConversationExecutionRecord) :
    tables.recoveredExecution (seen ++ [id]) row =
      if row.conversationId == id && tables.recoveredExecution seen row == .running then
        .interrupted
      else tables.recoveredExecution seen row := by
  by_cases same : row.conversationId = id
  · by_cases isIn : id ∈ seen <;> cases status : row.status <;>
      simp_all [recoveredExecution]
  · simp [recoveredExecution, same]

theorem recoveredCall_concat (active : tables.isActive id = true) (fresh : id ∉ seen)
    (row : ConversationToolCallRecord) :
    tables.recoveredCall (seen ++ [id]) row =
      if row.conversationId == id && row.status == .requested then
        if tables.awaitsApproval row then .cancelled else .ambiguous
      else tables.recoveredCall seen row := by
  by_cases same : row.conversationId = id
  · simp_all [recoveredCall]
  · simp [recoveredCall, same]

/-- A conversation that is not active is passed over. -/
theorem skip (h : Recovering tables seen middle) (inactive : tables.isActive id = false) :
    Recovering tables (seen ++ [id]) middle := by
  have same : ∀ conversation, (conversation ∈ seen ++ [id] ∧ tables.isActive conversation = true) ↔
      conversation ∈ seen ∧ tables.isActive conversation = true := by
    intro conversation
    by_cases last : conversation = id
    · simp [last, inactive]
    · simp [last]
  refine ⟨h.conversations, ?_, ?_, ?_, ?_⟩
  · intro row mem unseen
    exact h.untouched row mem fun isIn => unseen (mem_append_left _ isIn)
  · simp only [h.turns, recoveredTurn, ← and_assoc, same]
  · simp only [h.executions, recoveredExecution, ← and_assoc, same]
  · simp only [h.toolCalls, recoveredCall, ← and_assoc, same]

theorem turns_recovered : (middle.recovered nowMs revision id).turns.map
      (fun row => (row.key, row.status)) =
    updateWhere (fun pair => pair.1.1 == id && pair.2.isOpen) (fun pair => (pair.1, .interrupted))
      (middle.turns.map fun row => (row.key, row.status)) :=
  map_updateWhere_view (fun _ => rfl) fun _ => rfl

theorem executions_recovered : (middle.recovered nowMs revision id).executions.map
      (fun row => (row.executionId, row.turnKey, row.status)) =
    updateWhere (fun row => row.2.1.1 == id && row.2.2 == .running)
      (fun row => (row.1, row.2.1, .interrupted))
      (middle.executions.map fun row => (row.executionId, row.turnKey, row.status)) :=
  map_updateWhere_view (fun _ => rfl) fun _ => rfl

/-- The two updates of the tool calls, as one. -/
theorem toolCalls_recovered : (middle.recovered nowMs revision id).toolCalls.map
      (fun row => (row.callId, row.requestKey, row.status)) =
    (middle.toolCalls.map fun row => (row.callId, row.requestKey, row.status)).map fun row =>
      (row.1, row.2.1, if row.2.1.1 == id && row.2.2 == .requested then
        if middle.turns.any fun turn => turn.key == row.2.1 && turn.status == .waitingApproval then
          .cancelled
        else .ambiguous
      else row.2.2) := by
  simp only [Tables.recovered, updateWhere, map_map]
  apply map_congr_left
  intro row _
  simp only [Function.comp]
  generalize middle.turns.any (fun turn =>
    turn.key == row.requestKey && turn.status == .waitingApproval) = waits
  cases waits <;> cases status : row.status <;> cases same : row.conversationId == id <;>
    simp_all [requestKey]

theorem repair (h : Recovering tables seen middle) (active : tables.isActive id = true)
    (fresh : id ∉ seen) :
    Recovering tables (seen ++ [id]) (middle.recovered nowMs revision id) := by
  refine ⟨?_, ?_, ?_, ?_, ?_⟩
  · rw [← h.conversations]
    exact map_updateWhere fun _ => rfl
  · intro row mem unseen
    obtain ⟨old, oldMem, rfl⟩ := mem_updateWhere.mp mem
    split at unseen
    next selected =>
      simp only [Bool.and_eq_true, beq_iff_eq] at selected
      simp [selected.1] at unseen
    next unselected =>
      rw [if_neg unselected]
      exact h.untouched old oldMem fun isIn => unseen (mem_append_left _ isIn)
  · rw [turns_recovered, h.turns, updateWhere, map_map]
    apply map_congr_left
    intro row _
    rw [recoveredTurn_concat active row]
    simp only [Function.comp, TurnRow.key]
    split <;> simp_all
  · rw [executions_recovered, h.executions, updateWhere, map_map]
    apply map_congr_left
    intro row _
    rw [recoveredExecution_concat active row]
    simp only [Function.comp, ConversationExecutionRecord.turnKey]
    split <;> simp_all
  · rw [toolCalls_recovered, h.toolCalls, map_map]
    apply map_congr_left
    intro row _
    rw [recoveredCall_concat active fresh row]
    simp only [Function.comp]
    by_cases same : row.conversationId = id
    · -- the call has not been touched and its turn waits as it did
      have unseen : row.conversationId ∉ seen := same ▸ fresh
      have status : tables.recoveredCall seen row = row.status := by
        simp [recoveredCall, unseen]
      rw [status, ← h.awaitsApproval rfl unseen]
      rfl
    · simp [requestKey, same]

theorem isActive_of_mem {conversation : ConversationRecord}
    (mem : conversation ∈ tables.conversations) (active : conversation.status = .active) :
    tables.isActive conversation.conversationId = true :=
  any_eq_true.mpr ⟨conversation, mem, by simp [active]⟩

theorem round (h : Recovering tables seen middle) (fresh : id ∉ seen)
    (ok : recoverConversation nowMs middle id = .ok after) :
    Recovering tables (seen ++ [id]) after := by
  obtain ⟨inactive, rfl⟩ | ⟨conversation, found, -, -, rfl⟩ := recoverConversation_ok_iff.mp ok
  · apply h.skip
    rw [← h.isActive, Tables.isActive, any_eq_false]
    intro row mem meets
    simp only [Bool.and_eq_true, beq_iff_eq] at meets
    exact inactive row mem meets.1 meets.2
  · have meets := List.find?_some found
    simp only [Bool.and_eq_true, beq_iff_eq] at meets
    refine h.repair ?_ fresh
    rw [← h.isActive, ← meets.1]
    exact isActive_of_mem (mem_of_find?_eq_some found) meets.2

end Recovering

theorem recovering_of_ok (ok : recoverIncompleteRuns nowMs tables = .ok after) :
    Recovering tables (incompleteConversations tables) after := by
  simp only [recoverIncompleteRuns, bind_eq_ok_iff, refuseWhen_eq_ok_iff] at ok
  obtain ⟨-, -, ok⟩ := ok
  refine foldlM_invariant (motive := fun seen middle => Recovering tables seen middle) ?_
    (.start tables) ok
  intro seen id rest middle next whole recovering round
  have once : (seen ++ id :: rest).Nodup := whole ▸ nodup_dedup _
  exact recovering.round (fun isIn => (nodup_append.mp once).2.2 id isIn id (by simp) rfl)
    round

/-- The recovery goes through unless a revision or the clock is out of range. -/
theorem recoverIncompleteRuns_total (time : nowMs ≤ i64Max)
    (room : ∀ row ∈ tables.conversations, row.status = .active → row.revision < i64Max) :
    ∃ after, recoverIncompleteRuns nowMs tables = .ok after := by
  have rounds : ∀ rest seen middle, (seen ++ rest).Nodup → Recovering tables seen middle →
      ∃ after, rest.foldlM (recoverConversation nowMs) middle = .ok after := by
    intro rest
    induction rest with
    | nil => exact fun seen middle _ _ => ⟨middle, rfl⟩
    | cons id rest ih =>
        intro seen middle once recovering
        have fresh : id ∉ seen :=
          fun isIn => (nodup_append.mp once).2.2 id isIn id (by simp) rfl
        obtain ⟨next, done⟩ : ∃ next, recoverConversation nowMs middle id = .ok next := by
          cases found : middle.conversations.find? fun row =>
              row.conversationId == id && row.status == .active with
          | none =>
              refine ⟨middle, recoverConversation_ok_iff.mpr (.inl ⟨?_, rfl⟩)⟩
              intro row mem same active
              simpa [same, active] using List.find?_eq_none.mp found row mem
          | some conversation =>
              have meets := List.find?_some found
              simp only [Bool.and_eq_true, beq_iff_eq] at meets
              have original := recovering.untouched conversation
                (mem_of_find?_eq_some found) (meets.1 ▸ fresh)
              exact ⟨_, recoverConversation_ok_iff.mpr (.inr
                ⟨conversation, found, room conversation original meets.2, time, rfl⟩)⟩
        rw [foldlM_cons, done]
        exact ih (seen ++ [id]) next (by simpa using once) (recovering.round fresh done)
  have wide : i64Max ≤ u64Max := by decide
  obtain ⟨after, done⟩ := rounds (incompleteConversations tables) [] tables
    (nodup_dedup _) (.start tables)
  refine ⟨after, ?_⟩
  simp only [recoverIncompleteRuns, bind_eq_ok_iff, refuseWhen_eq_ok_iff]
  exact ⟨⟨⟩, by omega, done⟩

/-! ### What is left -/

/-- In the active conversations nothing waits, runs or is requested. -/
def Tables.Settled (tables : Tables) : Prop :=
  ∀ conversation ∈ tables.conversations, conversation.status = .active →
    (∀ turn ∈ tables.turns, turn.conversationId = conversation.conversationId →
      turn.status ≠ .queued ∧ turn.status ≠ .running ∧ turn.status ≠ .waitingApproval) ∧
    (∀ execution ∈ tables.executions,
      execution.conversationId = conversation.conversationId → execution.status ≠ .running) ∧
    ∀ call ∈ tables.toolCalls, call.conversationId = conversation.conversationId →
      call.status ≠ .requested

/-- Every requested call of an active conversation has been decided by what its turn was
waiting for. -/
def Tables.CallsDecided (tables after : Tables) : Prop :=
  ∀ conversation ∈ tables.conversations, conversation.status = .active →
    ∀ call ∈ tables.toolCalls, call.conversationId = conversation.conversationId →
      call.status = .requested → ∃ decided ∈ after.toolCalls, decided.callId = call.callId ∧
        decided.status = if ∃ turn ∈ tables.turns, turn.key = call.requestKey ∧
          turn.status = .waitingApproval then .cancelled else .ambiguous

/-- What a restart is for: everything is settled and a second restart changes nothing. -/
structure RestartSettles (tables after : Tables) : Prop where
  settled : after.Settled
  decided : tables.CallsDecided after
  stable : ∀ nowMs ≤ u64Max, recoverIncompleteRuns nowMs after = .ok after

/-- An active conversation with a turn that waits for an approval has something else left
unfinished: a turn that is queued or runs, a running execution or a requested call. -/
def Tables.WaitsAreNoticed (tables : Tables) : Prop :=
  ∀ conversation ∈ tables.conversations, conversation.status = .active →
    ∀ turn ∈ tables.turns, turn.conversationId = conversation.conversationId →
      turn.status = .waitingApproval →
    (∃ other ∈ tables.turns, other.conversationId = conversation.conversationId ∧
      (other.status = .queued ∨ other.status = .running)) ∨
    (∃ execution ∈ tables.executions,
      execution.conversationId = conversation.conversationId ∧ execution.status = .running) ∨
    ∃ call ∈ tables.toolCalls,
      call.conversationId = conversation.conversationId ∧ call.status = .requested

theorem mem_incompleteConversations : id ∈ incompleteConversations tables ↔
    (∃ turn ∈ tables.turns, turn.conversationId = id ∧
      (turn.status = .queued ∨ turn.status = .running)) ∨
    (∃ execution ∈ tables.executions, execution.conversationId = id ∧
      execution.status = .running) ∨
    ∃ call ∈ tables.toolCalls, call.conversationId = id ∧ call.status = .requested := by
  simp only [incompleteConversations, mem_dedup, mem_append, mem_map,
    mem_filter, Bool.or_eq_true, beq_iff_eq, or_assoc]
  refine or_congr ?_ (or_congr ?_ ?_)
  all_goals exact exists_congr fun row => by rw [and_assoc, and_comm (b := _ = id)]

/-- Once everything is settled a restart finds no conversation to repair. -/
theorem stable_of_settled (settled : tables.Settled) (time : nowMs ≤ u64Max) :
    recoverIncompleteRuns nowMs tables = .ok tables := by
  have rounds : ∀ ids : List String, (∀ id ∈ ids, id ∈ incompleteConversations tables) →
      ids.foldlM (recoverConversation nowMs) tables = .ok tables := by
    intro ids
    induction ids with
    | nil => exact fun _ => rfl
    | cons id ids ih =>
        intro incomplete
        have passed : recoverConversation nowMs tables id = .ok tables := by
          refine recoverConversation_ok_iff.mpr (.inl ⟨?_, rfl⟩)
          rintro row mem rfl active
          obtain ⟨turns, executions, calls⟩ := settled row mem active
          obtain ⟨turn, here, same, status⟩ | ⟨execution, here, same, runs⟩ |
            ⟨call, here, same, requested⟩ :=
              mem_incompleteConversations.mp (incomplete _ mem_cons_self)
          · obtain ⟨idle, still, -⟩ := turns turn here same
            exact status.elim idle still
          · exact executions execution here same runs
          · exact calls call here same requested
        rw [foldlM_cons, passed]
        exact ih fun other mem => incomplete other (mem_cons_of_mem _ mem)
  simp only [recoverIncompleteRuns, bind_eq_ok_iff, refuseWhen_eq_ok_iff]
  exact ⟨⟨⟩, by omega, rounds _ fun _ mem => mem⟩

namespace Recovering

theorem active_before (h : Recovering tables seen after) {conversation : ConversationRecord}
    (mem : conversation ∈ after.conversations) (active : conversation.status = .active) :
    ∃ old ∈ tables.conversations, old.conversationId = conversation.conversationId ∧
      old.status = .active := by
  have was : tables.isActive conversation.conversationId = true := by
    rw [← h.isActive]
    exact isActive_of_mem mem active
  obtain ⟨old, oldMem, meets⟩ := any_eq_true.mp was
  simp only [Bool.and_eq_true, beq_iff_eq] at meets
  exact ⟨old, oldMem, meets⟩

section

variable (h : Recovering tables (incompleteConversations tables) after)
include h

theorem settled
    (noticed : tables.WaitsAreNoticed) : after.Settled := by
  intro conversation mem active
  obtain ⟨old, oldMem, same, oldActive⟩ := h.active_before mem active
  have oldIsActive := isActive_of_mem oldMem oldActive
  rw [same] at oldIsActive
  refine ⟨?_, ?_, ?_⟩
  · intro turn turnMem owner
    have shown : (turn.key, turn.status) ∈ after.turns.map fun row => (row.key, row.status) :=
      mem_map_of_mem turnMem
    rw [h.turns] at shown
    obtain ⟨row, rowMem, view⟩ := mem_map.mp shown
    obtain ⟨key, status⟩ := Prod.mk.inj view
    have conversationId : row.conversationId = conversation.conversationId :=
      (congrArg Prod.fst key).trans owner
    -- an open turn makes its conversation one of those to repair
    have chosen : row.status.isOpen = true →
        conversation.conversationId ∈ incompleteConversations tables := by
      intro isOpen
      rw [mem_incompleteConversations]
      cases rowStatus : row.status with
      | queued => exact .inl ⟨row, rowMem, conversationId, .inl rowStatus⟩
      | running => exact .inl ⟨row, rowMem, conversationId, .inr rowStatus⟩
      | waitingApproval =>
          rw [← same]
          exact noticed old oldMem oldActive row rowMem (conversationId.trans same.symm) rowStatus
      | completed | failed | cancelled | interrupted =>
          simp [rowStatus, TurnStatus.isOpen] at isOpen
    rw [← status, recoveredTurn, conversationId]
    cases isOpen : row.status.isOpen with
    | true => simp [chosen isOpen, oldIsActive]
    | false => cases rowStatus : row.status <;> simp_all [TurnStatus.isOpen]
  · intro execution executionMem owner
    have shown : (execution.executionId, execution.turnKey, execution.status) ∈
        after.executions.map fun row => (row.executionId, row.turnKey, row.status) :=
      mem_map_of_mem executionMem
    rw [h.executions] at shown
    obtain ⟨row, rowMem, view⟩ := mem_map.mp shown
    simp only [Prod.mk.injEq] at view
    have conversationId : row.conversationId = conversation.conversationId :=
      (congrArg Prod.fst view.2.1).trans owner
    rw [← view.2.2, recoveredExecution, conversationId]
    by_cases runs : row.status = .running
    · have chosen : conversation.conversationId ∈ incompleteConversations tables :=
        mem_incompleteConversations.mpr (.inr (.inl ⟨row, rowMem, conversationId, runs⟩))
      simp [chosen, oldIsActive, runs]
    · simp [runs]
  · intro call callMem owner
    have shown : (call.callId, call.requestKey, call.status) ∈
        after.toolCalls.map fun row => (row.callId, row.requestKey, row.status) :=
      mem_map_of_mem callMem
    rw [h.toolCalls] at shown
    obtain ⟨row, rowMem, view⟩ := mem_map.mp shown
    simp only [Prod.mk.injEq] at view
    have conversationId : row.conversationId = conversation.conversationId :=
      (congrArg Prod.fst view.2.1).trans owner
    rw [← view.2.2, recoveredCall, conversationId]
    by_cases requested : row.status = .requested
    · have chosen : conversation.conversationId ∈ incompleteConversations tables :=
        mem_incompleteConversations.mpr (.inr (.inr ⟨row, rowMem, conversationId, requested⟩))
      simp only [chosen, oldIsActive, requested, and_self, if_true]
      split <;> simp
    · simp [requested]

theorem decided :
    tables.CallsDecided after := by
  intro conversation mem active call callMem owner requested
  have shown : (call.callId, call.requestKey,
      tables.recoveredCall (incompleteConversations tables) call) ∈
        tables.toolCalls.map fun row => (row.callId, row.requestKey,
          tables.recoveredCall (incompleteConversations tables) row) :=
    mem_map_of_mem callMem
  rw [← h.toolCalls] at shown
  obtain ⟨row, rowMem, view⟩ := mem_map.mp shown
  simp only [Prod.mk.injEq] at view
  refine ⟨row, rowMem, view.1, ?_⟩
  have chosen : call.conversationId ∈ incompleteConversations tables :=
    mem_incompleteConversations.mpr (.inr (.inr ⟨call, callMem, rfl, requested⟩))
  have isActive : tables.isActive call.conversationId = true := by
    rw [owner]
    exact isActive_of_mem mem active
  have waits : tables.awaitsApproval call = true ↔ ∃ turn ∈ tables.turns,
      turn.key = call.requestKey ∧ turn.status = .waitingApproval := by
    simp [Tables.awaitsApproval]
  rw [view.2.2, Tables.recoveredCall, if_pos ⟨chosen, isActive, requested⟩]
  simp only [waits]

/-- A turn that waits in a conversation with nothing else unfinished still waits. -/
theorem noticed_of_settled
    (settled : after.Settled) : tables.WaitsAreNoticed := by
  intro conversation mem active turn turnMem owner waits
  rw [← mem_incompleteConversations]
  by_contra skipped
  have shown : (turn.key, tables.recoveredTurn (incompleteConversations tables) turn) ∈
      tables.turns.map fun row =>
        (row.key, tables.recoveredTurn (incompleteConversations tables) row) :=
    mem_map_of_mem turnMem
  rw [← h.turns] at shown
  obtain ⟨row, rowMem, view⟩ := mem_map.mp shown
  obtain ⟨key, status⟩ := Prod.mk.inj view
  have still : row.status = .waitingApproval := by
    rw [status, recoveredTurn, owner, if_neg fun chosen => skipped chosen.1, waits]
  have isActive : after.isActive conversation.conversationId = true := by
    rw [h.isActive]
    exact isActive_of_mem mem active
  obtain ⟨kept, keptMem, meets⟩ := any_eq_true.mp isActive
  simp only [Bool.and_eq_true, beq_iff_eq] at meets
  obtain ⟨turns, -⟩ := settled kept keptMem meets.2
  refine (turns row rowMem ?_).2.2 still
  rw [meets.1, ← owner]
  exact congrArg Prod.fst key

end

end Recovering

/-- The recovery of a restart goes through while revisions and the clock are in range, and
it settles everything exactly when no turn waits for an approval unnoticed. -/
theorem restart_settles_iff (externals : Externals) (calls : List Call) (nowMs : Nat) :
    (nowMs ≤ i64Max → (∀ conversation ∈ (reached externals calls).conversations,
        conversation.status = .active → conversation.revision < i64Max) →
      ∃ after, recoverIncompleteRuns nowMs (reached externals calls) = .ok after) ∧
    ∀ after, recoverIncompleteRuns nowMs (reached externals calls) = .ok after →
      (RestartSettles (reached externals calls) after ↔
        (reached externals calls).WaitsAreNoticed) := by
  refine ⟨fun time room => recoverIncompleteRuns_total time room, ?_⟩
  intro after ok
  have recovering := recovering_of_ok ok
  constructor
  · exact fun settles => recovering.noticed_of_settled settles.settled
  · intro noticed
    have settled := recovering.settled noticed
    exact ⟨settled, recovering.decided, fun _ time => stable_of_settled settled time⟩

/-- A turn is added that waits for an approval from the start. -/
def turnWaiting : Call :=
  .appendTurn
    { conversationId := "conv-1", ownerId := "owner-a", expectedRevision := 1, atMs := 2
      turnId := "turn-1", role := "assistant", content := "tool call", connectionId := none
      modelId := none, status := "WAITING_APPROVAL" }

def waitingConversation : ConversationRecord :=
  { conversationId := "conv-1", ownerId := "owner-a", title := "Test", connectionId := "local"
    modelId := "model-a", status := .active, revision := 2, createdAtMs := 1, updatedAtMs := 2 }

def waitingTurn : TurnRow :=
  { conversationId := "conv-1", turnId := "turn-1", ordinal := 1, role := .assistant
    status := .waitingApproval, connectionId := none, modelId := none, revision := 2
    createdAtMs := 2, finishedAtMs := none, executionId := none }

theorem turnWaiting_survives_restart :
    ∃ after, recoverIncompleteRuns 3 (reached plainExternals [conversationOpened, turnWaiting]) =
        .ok after ∧
      ¬ RestartSettles (reached plainExternals [conversationOpened, turnWaiting]) after := by
  refine ⟨reached plainExternals [conversationOpened, turnWaiting], by decide +kernel, ?_⟩
  intro settles
  have conversation : waitingConversation ∈
      (reached plainExternals [conversationOpened, turnWaiting]).conversations := by
    decide +kernel
  have turn : waitingTurn ∈ (reached plainExternals [conversationOpened, turnWaiting]).turns := by
    decide +kernel
  obtain ⟨turns, -⟩ := settles.settled waitingConversation conversation rfl
  exact (turns waitingTurn turn rfl).2.2 rfl

end Aegis.Conversation
