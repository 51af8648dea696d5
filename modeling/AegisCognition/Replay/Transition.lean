import AegisCognition.Replay.Append

/-!
# What replay and the appends can do

One iteration of replay is the shared transition guarded by the shared rules and two
more. An append either leaves the ledger as it was or takes the same transition; which of
the two is decided by its prerequisites instead of the lists of kinds.
-/

namespace Aegis.Replay

open Foundation ReplayFlags

variable {blake3 : Hasher} {runId : RunId} {event : RunEvent}

/-- What the ledger remembers after the event. -/
def LedgerFlags.advance (flags : LedgerFlags) (event : RunEvent) : LedgerFlags where
  toReplayFlags := flags.toReplayFlags.advance event
  hasBrowserObservationPacketRecorded :=
    flags.hasBrowserObservationPacketRecorded ||
      decide (event.kind = .browserObservationPacketRecorded)
  lastBrowserObservationPacketHash :=
    if event.kind = .browserObservationPacketRecorded then event.primaryHash
    else flags.lastBrowserObservationPacketHash

namespace RunEventLedger

section Replay

variable {locals : ReplayLocals}

/-- The part of the loop's variables that the shared rules read. -/
def ReplayLocals.cursor (locals : ReplayLocals) : Cursor where
  toReplayFlags := locals.toReplayFlags
  index := locals.index
  previousEventHash := locals.previousEventHash

def ReplayLocals.advance (locals : ReplayLocals) (event : RunEvent) : ReplayLocals where
  toLedgerFlags := locals.toLedgerFlags.advance event
  index := locals.index + 1
  previousEventHash := event.eventHash

theorem ReplayLocals.cursor_advance (locals : ReplayLocals) (event : RunEvent) :
    (locals.advance event).cursor = locals.cursor.advance event := rfl

theorem replayRecord_eq
    (present : event.kind.requiresSecondaryHash → event.secondaryHash.isSome) :
    replayRecord locals event =
      .ok { locals with toLedgerFlags := locals.toLedgerFlags.advance event } := by
  obtain ⟨eventId, eventRun, kind, subject, primary, secondary, previous, hash⟩ := event
  cases kind
  case toolCallCompleted | policyDecisionRecorded =>
      obtain ⟨secondary, rfl⟩ := Option.isSome_iff_exists.mp (present rfl)
      simp [replayRecord, LedgerFlags.advance, ReplayFlags.advance]
  all_goals simp [replayRecord, LedgerFlags.advance, ReplayFlags.advance]

/-- One iteration of replay is the shared transition under the rules of replay. -/
theorem replayEvent_guards :
    Guards (replayEvent blake3 runId) (fun locals event => locals.cursor.Replays blake3 runId event)
      ReplayLocals.advance := by
  intro locals event next
  simp only [replayEvent, ite_error_eq_ok_iff, Bool.or_eq_true, Bool.and_eq_true, bne_iff_ne,
    beq_iff_eq, not_or, not_and, not_not, ne_eq, Bool.not_eq_true', Bool.not_eq_true,
    Bool.not_eq_false, RunEvent.isValid_iff, checkWhen_bind_eq_ok_iff]
  constructor
  · rintro ⟨⟨⟨⟨wellFormed, named, numbered⟩, rfl⟩, position⟩, chained, goal, once, pack, llm,
      request, pending, completed, policy, completion, memory, rest⟩
    rw [replayRecord_eq wellFormed.present] at rest
    refine ⟨⟨⟨wellFormed, rfl, position, chained, goal, pack, llm, policy, request, ?_, ?_⟩,
      named, numbered, once⟩, ?_⟩
    · exact fun h => ⟨checkCompletion_ok_iff.mp (completion h), pending h⟩
    · exact fun h => (checkMemoryCommit_ok_iff (completed h)).mp (memory h)
    · exact (Except.ok.inj rest).symm
  · rintro ⟨⟨⟨wellFormed, rfl, position, chained, goal, pack, llm, policy, request, completion,
      memory⟩, named, numbered, once⟩, rfl⟩
    refine ⟨⟨⟨⟨wellFormed, named, numbered⟩, rfl⟩, position⟩, chained, goal, once, pack, llm,
      request, fun h => (completion h).pending, fun h => (memory h).completed, policy, ?_, ?_, ?_⟩
    · exact fun h => checkCompletion_ok_iff.mpr (completion h).toCompletionBound
    · exact fun h => (checkMemoryCommit_ok_iff (memory h).completed).mpr (memory h)
    · rw [replayRecord_eq wellFormed.present]
      rfl

variable {events : List RunEvent} {ledger : RunEventLedger}

/-- Replay accepts the histories that keep its rules from the start, and the ledger it
returns remembers what a run over them remembers. -/
theorem fromEvents_ok_iff :
    fromEvents blake3 runId events = .ok ledger ↔
      Along Cursor.advance (Cursor.Replays blake3 runId) {} events ∧
        ledger = { toLedgerFlags := (run ReplayLocals.advance {} events).toLedgerFlags
                   runId, events } := by
  have rules :
      Along ReplayLocals.advance (fun locals event => locals.cursor.Replays blake3 runId event)
          {} events ↔
        Along Cursor.advance (Cursor.Replays blake3 runId) {} events :=
    along_project ReplayLocals.cursor_advance
  simp only [fromEvents, bind_eq_ok_iff, replayEvent_guards.scan_ok_iff, rules]
  constructor
  · rintro ⟨locals, ⟨accepted, rfl⟩, h⟩
    exact ⟨accepted, by simpa [pure, Except.pure, eq_comm] using h⟩
  · rintro ⟨accepted, rfl⟩
    exact ⟨_, ⟨accepted, rfl⟩, rfl⟩

end Replay

section Append

variable {ledger : RunEventLedger} {requires : Prerequisites}

def cursor (ledger : RunEventLedger) : Cursor where
  toReplayFlags := ledger.toReplayFlags
  index := ledger.events.length
  previousEventHash := ledger.lastHash

def extend (ledger : RunEventLedger) (event : RunEvent) : RunEventLedger where
  toLedgerFlags := ledger.toLedgerFlags.advance event
  runId := ledger.runId
  events := ledger.events ++ [event]

/-- Everything that an append asks of its event. -/
structure Accepts (blake3 : Hasher) (ledger : RunEventLedger) (requires : Prerequisites)
    (event : RunEvent) : Prop where
  wellFormed : event.WellFormed blake3
  named : event.runId ≠ 0
  numbered : event.eventId ≠ 0
  run : event.runId = ledger.runId
  position : event.eventId = ledger.nextEventId
  chained : event.previousEventHash = ledger.lastHash
  goalIntake : requires.goalIntake → ledger.hasGoalIntakeRecorded
  contextPack : requires.contextPack → ledger.hasContextPackBuilt
  llmResponse : requires.llmResponse → ledger.hasLlmResponseReceived
  toolCall : requires.toolCall → ledger.hasPendingToolCall
  policyDecision : requires.policyDecision → ledger.hasPolicyDecisionRecorded
  completion : event.kind = .toolCallCompleted →
    ledger.toReplayFlags.CompletionBound blake3 event
  memoryCommit : event.kind = .memoryCommitRecorded →
    ledger.toReplayFlags.CommittedBy blake3 event
  oneGoalIntake : event.kind = .goalIntakeRecorded → ledger.hasGoalIntakeRecorded = false
  request : event.kind = .toolCallRequested → ledger.hasPendingToolCall = false

theorem validateToolCallCompleted_ok_iff :
    ledger.validateToolCallCompleted blake3 event = .ok () ↔
      ledger.toReplayFlags.CompletionBound blake3 event := by
  rw [← @checkCompletion_ok_iff _ _ _ Unit () ()]
  unfold validateToolCallCompleted checkCompletion
  cases event.secondaryHash with
  | none => exact iff_of_false nofun nofun
  | some evidence =>
      simp only [ite_error_eq_ok_iff, Bool.or_eq_true, not_or, decide_eq_true_eq, and_assoc]

theorem validateMemoryCommitRecorded_ok_iff :
    ledger.validateMemoryCommitRecorded blake3 event = .ok () ↔
      ledger.toReplayFlags.CommittedBy blake3 event := by
  simp only [validateMemoryCommitRecorded, ite_error_eq_ok_iff, Bool.or_eq_true, beq_iff_eq,
    not_or, Bool.not_eq_true', Bool.not_eq_true, Bool.not_eq_false]
  cases hs : event.secondaryHash with
  | none =>
      refine ⟨nofun, fun h => ?_⟩
      have := h.bound
      simp [hs] at this
  | some binding =>
      simp only [ite_error_eq_ok_iff, bne_iff_ne, ne_eq, not_not, and_true]
      constructor
      · rintro ⟨⟨⟨⟨completed, settled⟩, subject⟩, evidence⟩, bound⟩
        exact ⟨completed, settled, subject, evidence, by rw [hs, bound]⟩
      · rintro ⟨completed, settled, subject, evidence, bound⟩
        exact ⟨⟨⟨⟨completed, settled⟩, subject⟩, evidence⟩, by simpa [hs] using bound⟩

theorem appendRecord_eq
    (present : event.kind.requiresSecondaryHash → event.secondaryHash.isSome)
    (once : event.kind = .goalIntakeRecorded → ledger.hasGoalIntakeRecorded = false)
    (request : event.kind = .toolCallRequested → ledger.hasPendingToolCall = false) :
    ledger.appendRecord event = (.ok event, ledger.extend event) := by
  obtain ⟨eventId, eventRun, kind, subject, primary, secondary, previous, hash⟩ := event
  cases kind
  case toolCallCompleted | policyDecisionRecorded =>
      obtain ⟨secondary, rfl⟩ := Option.isSome_iff_exists.mp (present rfl)
      simp [appendRecord, push, extend, LedgerFlags.advance, ReplayFlags.advance]
  case goalIntakeRecorded =>
      simp [appendRecord, once rfl, push, extend, LedgerFlags.advance, ReplayFlags.advance]
  case toolCallRequested =>
      simp [appendRecord, request rfl, push, extend, LedgerFlags.advance, ReplayFlags.advance]
  all_goals simp [appendRecord, push, extend, LedgerFlags.advance, ReplayFlags.advance]

theorem appendChecks_ok_iff :
    ledger.appendChecks blake3 event requires = .ok () ↔
      ((event.WellFormed blake3 ∧ event.runId ≠ 0 ∧ event.eventId ≠ 0) ∧
        (event.runId = ledger.runId ∧ event.eventId = ledger.nextEventId) ∧
        event.previousEventHash = ledger.lastHash ∧
        (requires.goalIntake → ledger.hasGoalIntakeRecorded) ∧
        (requires.contextPack → ledger.hasContextPackBuilt) ∧
        (requires.llmResponse → ledger.hasLlmResponseReceived) ∧
        (requires.toolCall → ledger.hasPendingToolCall) ∧
        (requires.policyDecision → ledger.hasPolicyDecisionRecorded) ∧
        (event.kind = .toolCallCompleted → ledger.toReplayFlags.CompletionBound blake3 event) ∧
        (event.kind = .memoryCommitRecorded → ledger.toReplayFlags.CommittedBy blake3 event)) := by
  simp only [appendChecks, ite_error_eq_ok_iff, Bool.or_eq_true, Bool.and_eq_true, bne_iff_ne,
    beq_iff_eq, not_or, not_and, not_not, ne_eq, Bool.not_eq_true', Bool.not_eq_false,
    RunEvent.isValid_iff, checkWhen_bind_eq_ok_iff, checkWhen_eq_ok_iff,
    validateToolCallCompleted_ok_iff, validateMemoryCommitRecorded_ok_iff]

section

variable (blake3 : Hasher) (ledger : RunEventLedger)

/-- An append takes the shared transition or changes nothing. -/
theorem append_cases (event : RunEvent) (requires : Prerequisites) :
    (ledger.Accepts blake3 requires event ∧
      ledger.append blake3 event requires = (.ok event, ledger.extend event)) ∨
    (¬ ledger.Accepts blake3 requires event ∧
      ∃ error, ledger.append blake3 event requires = (.error error, ledger)) := by
  unfold append
  cases hc : ledger.appendChecks blake3 event requires with
  | error error =>
      refine .inr ⟨fun h => ?_, error, rfl⟩
      have := appendChecks_ok_iff.mpr ⟨⟨h.wellFormed, h.named, h.numbered⟩, ⟨h.run, h.position⟩,
        h.chained, h.goalIntake, h.contextPack, h.llmResponse, h.toolCall, h.policyDecision,
        h.completion, h.memoryCommit⟩
      simp [hc] at this
  | ok done =>
      obtain ⟨⟨wellFormed, named, numbered⟩, ⟨run, position⟩, chained, goal, pack, llm, call,
        policy, completion, memory⟩ := appendChecks_ok_iff.mp hc
      by_cases once : event.kind = .goalIntakeRecorded → ledger.hasGoalIntakeRecorded = false
      · by_cases request : event.kind = .toolCallRequested → ledger.hasPendingToolCall = false
        · exact .inl ⟨⟨wellFormed, named, numbered, run, position, chained, goal, pack, llm, call,
            policy, completion, memory, once, request⟩,
            appendRecord_eq wellFormed.present once request⟩
        · refine .inr ⟨fun h => request h.request, .invalidEvent, ?_⟩
          obtain ⟨kind, pending⟩ := Classical.not_imp.mp request
          simp_all [appendRecord]
      · refine .inr ⟨fun h => once h.oneGoalIntake, .invalidEvent, ?_⟩
        obtain ⟨kind, recorded⟩ := Classical.not_imp.mp once
        simp_all [appendRecord]

/-- Every call is refused before it builds an event, or it is an append of an event with
the prerequisites of the event's kind. -/
theorem perform_eq (call : AppendCall) :
    ledger.perform blake3 call = (.error .invalidEvent, ledger) ∨
      ∃ event requires, event.kind.prerequisites = some requires ∧
        ledger.perform blake3 call = ledger.append blake3 event requires := by
  cases call with
  | contextPackBuilt => exact .inr ⟨_, _, rfl, rfl⟩
  | llmResponseReceived => exact .inr ⟨_, _, rfl, rfl⟩
  | llmDerivedToolCallRequested => exact .inr ⟨_, _, rfl, rfl⟩
  | policyDecisionRecorded => exact .inr ⟨_, _, rfl, rfl⟩
  | approvalTokenRecorded => exact .inr ⟨_, _, rfl, rfl⟩
  | operatorReviewArtifactRecorded => exact .inr ⟨_, _, rfl, rfl⟩
  | circuitBreakerTripped => exact .inr ⟨_, _, rfl, rfl⟩
  | checkpointSealed => exact .inr ⟨_, _, rfl, rfl⟩
  | _ =>
      -- The remaining operations refuse their arguments first.
      exact (ite_eq_or_eq _ _ _).imp id fun h => ⟨_, _, rfl, h⟩

/-- A call records an event of a kind it may produce, or it changes nothing. -/
theorem perform_cases (call : AppendCall) :
    (∃ event requires, event.kind.prerequisites = some requires ∧
      ledger.Accepts blake3 requires event ∧
      ledger.perform blake3 call = (.ok event, ledger.extend event)) ∨
    ∃ error, ledger.perform blake3 call = (.error error, ledger) := by
  obtain refused | ⟨event, requires, produced, made⟩ := perform_eq blake3 ledger call
  · exact .inr ⟨_, refused⟩
  · obtain ⟨accepted, done⟩ | ⟨-, error, failed⟩ := append_cases blake3 ledger event requires
    · exact .inl ⟨event, requires, produced, accepted, made.trans done⟩
    · exact .inr ⟨error, made.trans failed⟩

end

end Append

end RunEventLedger

end Aegis.Replay
