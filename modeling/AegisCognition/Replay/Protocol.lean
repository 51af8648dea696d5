import AegisCognition.Foundation.Scan
import AegisCognition.Replay.Event

/-!
# The history protocol

What a run's history has to look like, stated once and independently of the five
validators that check it: the live ledger, its replay, the column scan, the record scan
and the segment writer. A cursor holds what a validator remembers of the events read so
far, `Allows` says which event may come next, and `advance` what is remembered after it.

The rules do not mention the run id zero or repeated goal intakes. Validators that
refuse those say so on top of the shared rules.
-/

namespace Aegis.Replay

open Foundation

namespace RunEventKind

/-- The kinds that may only follow a goal intake. -/
def requiresGoalIntake : RunEventKind → Bool
  | contextPackBuilt | contextPackCandidateProofRecorded | taskSelectionProofRecorded
  | llmResponseReceived | contextFoldRecorded | toolCallRequested | toolCallCompleted
  | policyDecisionRecorded | approvalTokenRecorded | operatorReviewArtifactRecorded
  | coldVectorExpansionRecorded | agenticEvidenceExecutionRecorded | skillAdmissionRecorded
  | browserOpsBenchVerificationRecorded | clusterCandidateAccepted | shadowSealRecorded
  | circuitBreakerTripped | memoryCommitRecorded | checkpointSealed => true
  | _ => false

def requiresContextPack : RunEventKind → Bool
  | llmResponseReceived | contextFoldRecorded | contextPackCandidateProofRecorded => true
  | _ => false

def requiresLlmResponse : RunEventKind → Bool
  | toolCallRequested | circuitBreakerTripped => true
  | _ => false

def requiresPolicyDecision : RunEventKind → Bool
  | toolCallCompleted | approvalTokenRecorded | operatorReviewArtifactRecorded => true
  | _ => false

end RunEventKind

/-- What a validator remembers of the events it has read. The ledger, both scan states
and the segment writer hold exactly these fields. -/
structure ReplayFlags where
  hasContextPackBuilt : Bool := false
  hasGoalIntakeRecorded : Bool := false
  hasLlmResponseReceived : Bool := false
  hasPendingToolCall : Bool := false
  hasPolicyDecisionRecorded : Bool := false
  hasToolCompletionRecorded : Bool := false
  lastToolCallId : SubjectId := 0
  lastToolCallEventId : EventId := 0
  lastToolIrHash : Hash := Hash.zero
  lastToolExecutionEvidenceHash : Hash := Hash.zero
  lastPolicyEventId : EventId := 0
  lastPolicyProofTraceHash : Hash := Hash.zero
  lastPolicyToolIrHash : Hash := Hash.zero

/-- The remembered fields together with the position in the history. -/
structure Cursor extends ReplayFlags where
  index : Nat := 0
  previousEventHash : Hash := Hash.zero

variable (blake3 : Hasher)

/-- The fields of an event are in order, whatever run and position it claims. -/
structure RunEvent.WellFormed (event : RunEvent) : Prop where
  primary : nonzeroHash event.primaryHash
  secondary : event.secondaryHash.all nonzeroHash
  hash : event.eventHash = event.computeHash blake3
  present : event.kind.requiresSecondaryHash → event.secondaryHash.isSome

namespace ReplayFlags

variable (flags : ReplayFlags) (event : RunEvent)

/-- The event is bound to the latest request and to a policy decision made after it. -/
structure CompletionBound : Prop where
  subject : event.subjectId = flags.lastToolCallId
  decided : flags.lastToolCallEventId < flags.lastPolicyEventId
  sameIr : flags.lastToolIrHash = flags.lastPolicyToolIrHash
  bound : ∃ evidence, event.secondaryHash = some evidence ∧
    event.primaryHash = toolCallCompletionBindingHash blake3 event.subjectId
      flags.lastToolIrHash flags.lastPolicyProofTraceHash evidence

structure CompletedBy : Prop extends CompletionBound blake3 flags event where
  pending : flags.hasPendingToolCall

/-- The event commits the evidence of the latest completion, which no request follows. -/
structure CommittedBy : Prop where
  completed : flags.hasToolCompletionRecorded
  settled : flags.hasPendingToolCall = false
  subject : event.subjectId ≠ 0
  evidence : nonzeroHash flags.lastToolExecutionEvidenceHash
  bound : event.secondaryHash = some (memoryCommitBindingHash blake3 event.subjectId
    flags.lastToolExecutionEvidenceHash event.primaryHash)

/-- The ordering and binding rules for the next event. -/
structure Allows : Prop where
  goalIntake : event.kind.requiresGoalIntake → flags.hasGoalIntakeRecorded
  contextPack : event.kind.requiresContextPack → flags.hasContextPackBuilt
  llmResponse : event.kind.requiresLlmResponse → flags.hasLlmResponseReceived
  policyDecision : event.kind.requiresPolicyDecision → flags.hasPolicyDecisionRecorded
  request : event.kind = .toolCallRequested → flags.hasPendingToolCall = false
  completion : event.kind = .toolCallCompleted → flags.CompletedBy blake3 event
  memoryCommit : event.kind = .memoryCommitRecorded → flags.CommittedBy blake3 event

/-- What is remembered after the event. -/
def advance : ReplayFlags :=
  match event.kind with
  | .goalIntakeRecorded => { flags with hasGoalIntakeRecorded := true }
  | .contextPackBuilt => { flags with hasContextPackBuilt := true }
  | .llmResponseReceived => { flags with hasLlmResponseReceived := true }
  | .toolCallRequested =>
    { flags with
      hasPendingToolCall := true
      hasToolCompletionRecorded := false
      lastToolCallId := event.subjectId
      lastToolCallEventId := event.eventId
      lastToolIrHash := event.primaryHash }
  | .toolCallCompleted =>
    { flags with
      hasPendingToolCall := false
      hasToolCompletionRecorded := true
      lastToolExecutionEvidenceHash :=
        event.secondaryHash.getD flags.lastToolExecutionEvidenceHash }
  | .policyDecisionRecorded =>
    { flags with
      hasPolicyDecisionRecorded := true
      lastPolicyEventId := event.eventId
      lastPolicyProofTraceHash := event.primaryHash
      lastPolicyToolIrHash := event.secondaryHash.getD flags.lastPolicyToolIrHash }
  | _ => flags

variable {blake3 flags event} in
/-- The ordering rules ask nothing of a goal intake. -/
theorem allows_goalIntake (kind : event.kind = .goalIntakeRecorded) :
    flags.Allows blake3 event := by
  constructor <;> rw [kind] <;> nofun

/-- The binding checks of a completion as replay, the scans and the writer make them. They
differ in the errors for a missing evidence hash and for a mismatch. -/
def checkCompletion {ε : Type} (missing mismatch : ε) : Except ε Unit :=
  match event.secondaryHash with
  | none => .error missing
  | some evidenceHash =>
    if event.subjectId != flags.lastToolCallId ||
        decide (flags.lastPolicyEventId ≤ flags.lastToolCallEventId) ||
        flags.lastToolIrHash != flags.lastPolicyToolIrHash ||
        event.primaryHash != toolCallCompletionBindingHash blake3 event.subjectId
          flags.lastToolIrHash flags.lastPolicyProofTraceHash evidenceHash then
      .error mismatch
    else .ok ()

/-- The binding checks of a memory commit, with the same two errors. -/
def checkMemoryCommit {ε : Type} (missing mismatch : ε) : Except ε Unit :=
  match event.secondaryHash with
  | none => .error missing
  | some bindingHash =>
    if event.subjectId == 0 || flags.hasPendingToolCall ||
        !nonzeroHash flags.lastToolExecutionEvidenceHash ||
        bindingHash != memoryCommitBindingHash blake3 event.subjectId
          flags.lastToolExecutionEvidenceHash event.primaryHash then
      .error mismatch
    else .ok ()

variable {blake3 flags event} {ε : Type} {missing mismatch : ε}

theorem checkCompletion_ok_iff :
    flags.checkCompletion blake3 event missing mismatch = .ok () ↔
      flags.CompletionBound blake3 event := by
  unfold checkCompletion
  cases hs : event.secondaryHash with
  | none =>
      refine ⟨nofun, fun h => ?_⟩
      obtain ⟨evidence, present, -⟩ := h.bound
      simp [hs] at present
  | some evidence =>
      simp only [ite_error_eq_ok_iff, Bool.or_eq_true, bne_iff_ne, decide_eq_true_eq, not_or,
        not_not, ne_eq, BitVec.not_le, and_true]
      constructor
      · rintro ⟨⟨⟨subject, decided⟩, sameIr⟩, bound⟩
        exact ⟨subject, decided, sameIr, evidence, hs, bound⟩
      · rintro ⟨subject, decided, sameIr, other, present, bound⟩
        obtain rfl : evidence = other := by simpa [hs] using present
        exact ⟨⟨⟨subject, decided⟩, sameIr⟩, bound⟩

theorem checkMemoryCommit_ok_iff (completed : flags.hasToolCompletionRecorded) :
    flags.checkMemoryCommit blake3 event missing mismatch = .ok () ↔
      flags.CommittedBy blake3 event := by
  unfold checkMemoryCommit
  cases hs : event.secondaryHash with
  | none =>
      refine ⟨nofun, fun h => ?_⟩
      have := h.bound
      simp [hs] at this
  | some binding =>
      simp only [ite_error_eq_ok_iff, Bool.or_eq_true, bne_iff_ne, beq_iff_eq, not_or, not_not,
        ne_eq, and_true, Bool.not_eq_true', Bool.not_eq_true, Bool.not_eq_false]
      constructor
      · rintro ⟨⟨⟨subject, settled⟩, evidence⟩, bound⟩
        exact ⟨completed, settled, subject, evidence, by rw [hs, bound]⟩
      · rintro ⟨-, settled, subject, evidence, bound⟩
        exact ⟨⟨⟨subject, settled⟩, evidence⟩, by simpa [hs] using bound⟩

theorem advance_hasGoalIntakeRecorded (flags : ReplayFlags) (event : RunEvent) :
    (flags.advance event).hasGoalIntakeRecorded =
      (flags.hasGoalIntakeRecorded || decide (event.kind = .goalIntakeRecorded)) := by
  unfold advance
  cases event.kind <;> simp

end ReplayFlags

variable {blake3} in
/-- A valid event is well formed, and neither its run nor its position is zero. -/
theorem RunEvent.isValid_iff {event : RunEvent} :
    event.isValid blake3 ↔ event.WellFormed blake3 ∧ event.runId ≠ 0 ∧ event.eventId ≠ 0 := by
  have positive : ∀ {w : Nat} (v : BitVec w), 0 < v ↔ v ≠ 0 := fun v => BitVec.pos_iff_ne_zero v
  simp only [RunEvent.isValid, Bool.and_eq_true, Bool.or_eq_true, Bool.not_eq_true',
    decide_eq_true_eq, beq_iff_eq, positive]
  constructor
  · rintro ⟨⟨⟨⟨⟨run, position⟩, primary⟩, secondary⟩, hash⟩, present⟩
    refine ⟨⟨primary, secondary, hash, ?_⟩, run, position⟩
    intro required
    simpa [required] using present
  · rintro ⟨⟨primary, secondary, hash, present⟩, run, position⟩
    refine ⟨⟨⟨⟨⟨run, position⟩, primary⟩, secondary⟩, hash⟩, ?_⟩
    cases required : event.kind.requiresSecondaryHash with
    | false => exact .inl rfl
    | true => exact .inr (present required)

namespace Cursor

/-- The position after the event, and what is remembered there. -/
def advance (cursor : Cursor) (event : RunEvent) : Cursor where
  toReplayFlags := cursor.toReplayFlags.advance event
  index := cursor.index + 1
  previousEventHash := event.eventHash

/-- The rules that every validator shares. -/
structure Admits (runId : RunId) (cursor : Cursor) (event : RunEvent) : Prop where
  wellFormed : event.WellFormed blake3
  run : event.runId = runId
  position : event.eventId = BitVec.ofNat 64 cursor.index + 1
  chained : event.previousEventHash = cursor.previousEventHash
  allowed : cursor.toReplayFlags.Allows blake3 event

/-- The two rules that replay adds to the shared ones. -/
structure Replays (runId : RunId) (cursor : Cursor) (event : RunEvent) : Prop
    extends Admits blake3 runId cursor event where
  namedRun : runId ≠ 0
  numbered : event.eventId ≠ 0
  oneGoalIntake : event.kind = .goalIntakeRecorded → cursor.hasGoalIntakeRecorded = false

variable {blake3} {runId : RunId} {cursor : Cursor} {event : RunEvent} {events : List RunEvent}

@[simp] theorem advance_index : (cursor.advance event).index = cursor.index + 1 := rfl

@[simp] theorem advance_previousEventHash :
    (cursor.advance event).previousEventHash = event.eventHash := rfl

@[simp] theorem advance_toReplayFlags :
    (cursor.advance event).toReplayFlags = cursor.toReplayFlags.advance event := rfl

@[simp] theorem run_index : (run advance cursor events).index = cursor.index + events.length := by
  induction events generalizing cursor with
  | nil => rfl
  | cons event events ih => simp [ih, Nat.add_assoc, Nat.add_comm 1]

theorem run_previousEventHash :
    (run advance cursor events).previousEventHash =
      events.getLast?.elim cursor.previousEventHash RunEvent.eventHash := by
  induction events generalizing cursor with
  | nil => rfl
  | cons event events ih =>
      rw [run_cons, ih, List.getLast?_cons]
      cases events.getLast? <;> rfl

theorem run_hasGoalIntakeRecorded :
    (run advance cursor events).hasGoalIntakeRecorded =
      (cursor.hasGoalIntakeRecorded ||
        events.any fun event => decide (event.kind = .goalIntakeRecorded)) := by
  induction events generalizing cursor with
  | nil => simp
  | cons event events ih => simp [ih, ReplayFlags.advance_hasGoalIntakeRecorded, Bool.or_assoc]

end Cursor

end Aegis.Replay
