import AegisCognition.Replay.Transition

/-!
# The scan-only validators

The column scan, the record scan and the segment writer repeat the ordering rules in one
and the same order, each with error texts of its own. The rules are written once below
with the texts as a parameter; the column scan follows, and the record scan and the writer
are in the modules of their formats.

A scan checks neither that the run id is nonzero nor that a goal intake comes only once.
It accepts a history that replay refuses exactly when one of these two is all that is
wrong with it.
-/

namespace Aegis.Replay

open Foundation ReplayFlags

/-- The error texts of the ordering rules. -/
structure OrderingMessages where
  missingGoalIntake : String
  missingContextPack : String
  missingLlmResponse : String
  missingToolCall : String
  missingToolCompletion : String
  nestedToolCall : String
  missingPolicyDecision : String
  missingEvidence : String
  completionMismatch : String
  missingMemoryBinding : String
  memoryMismatch : String
  missingPolicyToolIr : String

/-- The error texts of a scan. -/
structure ScanMessages extends OrderingMessages where
  invalidFields : String
  missingSecondaryHash : String
  hashMismatch : String

section Check

variable (blake3 : Hasher)

/-- The ordering rules, in the order in which the scans and the writer make them. -/
def scanOrdering (messages : OrderingMessages) (state : ReplayFlags) (event : RunEvent) :
    Except String Unit :=
  if event.kind.requiresGoalIntake && !state.hasGoalIntakeRecorded then
    .error messages.missingGoalIntake
  else if event.kind.requiresContextPack && !state.hasContextPackBuilt then
    .error messages.missingContextPack
  else if event.kind.requiresLlmResponse && !state.hasLlmResponseReceived then
    .error messages.missingLlmResponse
  else if event.kind == .toolCallCompleted && !state.hasPendingToolCall then
    .error messages.missingToolCall
  else if event.kind == .memoryCommitRecorded && !state.hasToolCompletionRecorded then
    .error messages.missingToolCompletion
  else if event.kind == .toolCallRequested && state.hasPendingToolCall then
    .error messages.nestedToolCall
  else if event.kind.requiresPolicyDecision && !state.hasPolicyDecisionRecorded then
    .error messages.missingPolicyDecision
  else do
    checkWhen (event.kind == .toolCallCompleted)
      (state.checkCompletion blake3 event messages.missingEvidence messages.completionMismatch)
    checkWhen (event.kind == .memoryCommitRecorded)
      (state.checkMemoryCommit blake3 event messages.missingMemoryBinding
        messages.memoryMismatch)

/-- The state change of the scans and of the writer's checking pass. -/
def scanUpdate (messages : OrderingMessages) (state : ReplayFlags) (event : RunEvent) :
    Except String ReplayFlags :=
  match event.kind with
  | .goalIntakeRecorded => .ok { state with hasGoalIntakeRecorded := true }
  | .contextPackBuilt => .ok { state with hasContextPackBuilt := true }
  | .llmResponseReceived => .ok { state with hasLlmResponseReceived := true }
  | .toolCallRequested =>
    .ok { state with
      hasPendingToolCall := true
      hasToolCompletionRecorded := false
      lastToolCallId := event.subjectId
      lastToolCallEventId := event.eventId
      lastToolIrHash := event.primaryHash }
  | .toolCallCompleted =>
    match event.secondaryHash with
    | none => .error messages.missingEvidence
    | some evidenceHash =>
      .ok { state with
        hasPendingToolCall := false
        hasToolCompletionRecorded := true
        lastToolExecutionEvidenceHash := evidenceHash }
  | .policyDecisionRecorded =>
    match event.secondaryHash with
    | none => .error messages.missingPolicyToolIr
    | some toolIrHash =>
      .ok { state with
        hasPolicyDecisionRecorded := true
        lastPolicyEventId := event.eventId
        lastPolicyProofTraceHash := event.primaryHash
        lastPolicyToolIrHash := toolIrHash }
  | _ => .ok state

/-- The checks that the column scan and the record scan make of the fields of an event. -/
def scanEvent (messages : ScanMessages) (event : RunEvent) (expectedRunId : RunId)
    (expectedEventId : EventId) (expectedPreviousHash : Hash) (state : ReplayFlags) :
    Except String ReplayFlags :=
  if event.runId != expectedRunId || event.eventId != expectedEventId ||
      event.previousEventHash != expectedPreviousHash || !nonzeroHash event.primaryHash ||
      event.secondaryHash.any (!nonzeroHash ·) then
    .error messages.invalidFields
  else if event.kind.requiresSecondaryHash && event.secondaryHash.isNone then
    .error messages.missingSecondaryHash
  else do
    scanOrdering blake3 messages.toOrderingMessages state event
    if event.eventHash != event.computeHash blake3 then .error messages.hashMismatch
    else scanUpdate messages.toOrderingMessages state event

def columnScanMessages : ScanMessages where
  invalidFields := "invalid mmap arrow run event column fields"
  missingSecondaryHash := "missing mmap arrow run event secondary hash"
  missingGoalIntake := "mmap arrow run event missing prior goal intake"
  missingContextPack := "mmap arrow run event missing prior context pack"
  missingLlmResponse := "mmap arrow run event missing prior llm response"
  missingToolCall := "mmap arrow run event missing prior tool call"
  missingToolCompletion := "mmap arrow run event memory commit missing tool completion"
  nestedToolCall := "mmap arrow run event nested pending tool call"
  missingPolicyDecision := "mmap arrow run event missing prior policy decision"
  missingEvidence := "missing mmap arrow tool execution evidence hash"
  completionMismatch := "mmap arrow run event tool completion binding mismatch"
  missingMemoryBinding := "missing mmap arrow memory commit binding"
  memoryMismatch := "mmap arrow run event memory commit binding mismatch"
  hashMismatch := "mmap arrow run event hash mismatch"
  missingPolicyToolIr := "missing mmap arrow policy typed tool ir hash"

/-- The decoded row of the columns is an event's fields. -/
def validateRunEventColumnScanRow (row : RunEvent) (expectedRunId : RunId)
    (expectedEventId : EventId) (expectedPreviousHash : Hash) (scanState : ReplayFlags) :
    Except String ReplayFlags :=
  scanEvent blake3 columnScanMessages row expectedRunId expectedEventId expectedPreviousHash
    scanState

/-- One row of the column scan: the next expected id is one more, the next expected hash
the row's. -/
def columnScanRow (runId : RunId) (cursor : Cursor) (row : RunEvent) : Except String Cursor := do
  let state ← validateRunEventColumnScanRow blake3 row runId (BitVec.ofNat 64 cursor.index + 1)
    cursor.previousEventHash cursor.toReplayFlags
  return { toReplayFlags := state, index := cursor.index + 1, previousEventHash := row.eventHash }

def columnScan (runId : RunId) (rows : List RunEvent) : Except String Cursor :=
  rows.foldlM (columnScanRow blake3 runId) {}

end Check

variable {blake3 : Hasher} {runId : RunId} {event : RunEvent} {state : ReplayFlags}

theorem scanOrdering_ok_iff {messages : OrderingMessages} :
    scanOrdering blake3 messages state event = .ok () ↔ state.Allows blake3 event := by
  simp only [scanOrdering, ite_error_eq_ok_iff, Bool.and_eq_true, beq_iff_eq, not_and,
    Bool.not_eq_true', Bool.not_eq_true, Bool.not_eq_false, checkWhen_bind_eq_ok_iff,
    checkWhen_eq_ok_iff]
  constructor
  · rintro ⟨goal, pack, llm, pending, completed, request, policy, completion, memory⟩
    refine ⟨goal, pack, llm, policy, request, ?_, ?_⟩
    · exact fun h => ⟨checkCompletion_ok_iff.mp (completion h), pending h⟩
    · exact fun h => (checkMemoryCommit_ok_iff (completed h)).mp (memory h)
  · rintro ⟨goal, pack, llm, policy, request, completion, memory⟩
    refine ⟨goal, pack, llm, fun h => (completion h).pending, fun h => (memory h).completed,
      request, policy, ?_, ?_⟩
    · exact fun h => checkCompletion_ok_iff.mpr (completion h).toCompletionBound
    · exact fun h =>
        (checkMemoryCommit_ok_iff (memory h).completed).mpr (memory h)

theorem scanUpdate_eq {messages : OrderingMessages}
    (present : event.kind.requiresSecondaryHash → event.secondaryHash.isSome) :
    scanUpdate messages state event = .ok (state.advance event) := by
  obtain ⟨eventId, eventRun, kind, subject, primary, secondary, previous, hash⟩ := event
  cases kind
  case toolCallCompleted | policyDecisionRecorded =>
      obtain ⟨secondary, rfl⟩ := Option.isSome_iff_exists.mp (present rfl)
      rfl
  all_goals rfl

/-- A scan takes the shared transition under the shared rules and no others. -/
theorem scanEvent_ok_iff {messages : ScanMessages} {cursor : Cursor} {next : ReplayFlags} :
    scanEvent blake3 messages event runId (BitVec.ofNat 64 cursor.index + 1)
        cursor.previousEventHash cursor.toReplayFlags = .ok next ↔
      cursor.Admits blake3 runId event ∧ next = cursor.toReplayFlags.advance event := by
  have nonzero : ¬ event.secondaryHash.any (!nonzeroHash ·) = true ↔
      event.secondaryHash.all nonzeroHash := by
    cases event.secondaryHash <;> simp
  have present : ¬ (event.kind.requiresSecondaryHash && event.secondaryHash.isNone) = true ↔
      (event.kind.requiresSecondaryHash → event.secondaryHash.isSome) := by
    cases event.secondaryHash <;> simp
  simp only [scanEvent, ite_error_eq_ok_iff, Bool.or_eq_true, bne_iff_ne, not_or, not_not,
    ne_eq, Bool.not_eq_true', Bool.not_eq_false, nonzero, present, bind_eq_ok_iff]
  constructor
  · rintro ⟨⟨⟨⟨⟨rfl, position⟩, chained⟩, primary⟩, secondary⟩, required, ⟨⟩, ordered, hash,
      recorded⟩
    rw [scanUpdate_eq required] at recorded
    exact ⟨⟨⟨primary, secondary, hash, required⟩, rfl, position, chained,
      scanOrdering_ok_iff.mp ordered⟩, (Except.ok.inj recorded).symm⟩
  · rintro ⟨⟨⟨primary, secondary, hash, required⟩, rfl, position, chained, allowed⟩, rfl⟩
    exact ⟨⟨⟨⟨⟨rfl, position⟩, chained⟩, primary⟩, secondary⟩, required, (),
      scanOrdering_ok_iff.mpr allowed, hash, scanUpdate_eq required⟩

theorem columnScanRow_guards :
    Guards (columnScanRow blake3 runId) (Cursor.Admits blake3 runId) Cursor.advance := by
  intro cursor row next
  simp only [columnScanRow, validateRunEventColumnScanRow, bind_eq_ok_iff, scanEvent_ok_iff]
  constructor
  · rintro ⟨state, ⟨admitted, rfl⟩, rest⟩
    exact ⟨admitted, (Except.ok.inj rest).symm⟩
  · rintro ⟨admitted, rfl⟩
    exact ⟨_, ⟨admitted, rfl⟩, rfl⟩

theorem columnScan_ok_iff {rows : List RunEvent} {last : Cursor} :
    columnScan blake3 runId rows = .ok last ↔
      Along Cursor.advance (Cursor.Admits blake3 runId) {} rows ∧
        last = run Cursor.advance {} rows :=
  columnScanRow_guards.scan_ok_iff

/-- The number of goal intakes in a history. -/
def goalIntakes (events : List RunEvent) : Nat :=
  events.countP fun event => decide (event.kind = .goalIntakeRecorded)

/-- The two rules that the scans leave out: a history that names no run is empty, and a goal
intake comes at most once. -/
def NamedOnce (runId : RunId) (events : List RunEvent) : Prop :=
  (runId ≠ 0 ∨ events = []) ∧ goalIntakes events ≤ 1

instance (runId : RunId) (events : List RunEvent) : Decidable (NamedOnce runId events) :=
  inferInstanceAs (Decidable (_ ∧ _))

namespace Cursor

variable {cursor : Cursor} {events : List RunEvent}

theorem position_ne_zero {n : Nat} (fits : n + 1 < 2 ^ 64) : BitVec.ofNat 64 n + 1 ≠ 0 := by
  intro zero
  have value := congrArg BitVec.toNat zero
  simp [BitVec.toNat_add] at value
  omega

theorem replays_iff_of_fits (fits : cursor.index + 1 < 2 ^ 64) :
    cursor.Replays blake3 runId event ↔ cursor.Admits blake3 runId event ∧ runId ≠ 0 ∧
      (event.kind = .goalIntakeRecorded → cursor.hasGoalIntakeRecorded = false) := by
  constructor
  · exact fun h => ⟨h.toAdmits, h.namedRun, h.oneGoalIntake⟩
  · rintro ⟨admitted, named, once⟩
    exact ⟨admitted, named, admitted.position ▸ position_ne_zero fits, once⟩

/-- Along an admitted history, the rules of replay are the shared ones and the two that
the scans leave out. -/
theorem along_replays_iff_from (fits : cursor.index + events.length < 2 ^ 64) :
    Along advance (Replays blake3 runId) cursor events ↔
      Along advance (Admits blake3 runId) cursor events ∧ (runId ≠ 0 ∨ events = []) ∧
        goalIntakes events + cursor.hasGoalIntakeRecorded.toNat ≤ 1 := by
  induction events generalizing cursor with
  | nil =>
      have := cursor.hasGoalIntakeRecorded.toNat_le
      simpa [Along, goalIntakes] using this
  | cons event events ih =>
      rw [List.length_cons] at fits
      have rest : (cursor.advance event).index + events.length < 2 ^ 64 := by
        rw [advance_index]
        omega
      rw [Along, Along, ih rest, replays_iff_of_fits (by omega), advance_toReplayFlags,
        advance_hasGoalIntakeRecorded, goalIntakes, goalIntakes, List.countP_cons]
      by_cases kind : event.kind = .goalIntakeRecorded
      · cases cursor.hasGoalIntakeRecorded with
        | true => simp [kind]
        | false =>
            simp only [kind, decide_true, Bool.or_true, Bool.toNat_true, Bool.toNat_false, ite_true,
              Nat.add_zero, imp_self, and_true, reduceCtorEq, or_false]
            tauto
      · simp only [kind, decide_false, Bool.or_false, Bool.false_eq_true, ite_false, Nat.add_zero,
          false_implies, and_true, reduceCtorEq, or_false]
        tauto

theorem along_replays_iff (fits : events.length < 2 ^ 64) :
    Along advance (Replays blake3 runId) {} events ↔
      Along advance (Admits blake3 runId) {} events ∧ NamedOnce runId events := by
  rw [along_replays_iff_from (by simpa using fits)]
  rfl

end Cursor

/-- The first event of the run one, a goal intake. -/
def firstIntake (blake3 : Hasher) : RunEvent :=
  RunEvent.new blake3 1 1 .goalIntakeRecorded 1 (.fill 1) (some (.fill 2)) .zero

/-- The first event, and a second goal intake chained to it. -/
def repeatedIntake (blake3 : Hasher) : List RunEvent :=
  [firstIntake blake3, RunEvent.new blake3 2 1 .goalIntakeRecorded 2 (.fill 3) (some (.fill 4))
    (firstIntake blake3).eventHash]

theorem repeatedIntake_admitted (blake3 : Hasher) :
    Along Cursor.advance (Cursor.Admits blake3 1) {} (repeatedIntake blake3) := by
  refine ⟨⟨⟨rfl, rfl, rfl, fun _ => rfl⟩, rfl, rfl, rfl, ?_⟩,
    ⟨⟨rfl, rfl, rfl, fun _ => rfl⟩, rfl, rfl, rfl, ?_⟩, trivial⟩
  · exact allows_goalIntake rfl
  · exact allows_goalIntake rfl

theorem repeatedIntake_not_replayed (blake3 : Hasher) (ledger : RunEventLedger) :
    RunEventLedger.fromEvents blake3 1 (repeatedIntake blake3) ≠ .ok ledger := by
  intro replayed
  obtain ⟨-, rule, -⟩ := (RunEventLedger.fromEvents_ok_iff.mp replayed).1
  have once : true = false := rule.oneGoalIntake rfl
  cases once

end Aegis.Replay
