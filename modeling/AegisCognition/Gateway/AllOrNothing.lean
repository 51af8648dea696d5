import AegisCognition.Gateway.Attempt

/-!
# Attempts are all or nothing

A call either fails before it has touched the ledger or the sandbox, or it returns a receipt for
exactly the events it has recorded. The calls that take browser evidence always do one or the
other. A sandbox call does so unless the sandbox answers with a result that passes its own
validity check and yet names the zero artifact or no changed byte: that check does not read these
two fields, and what does read them comes after the request and the decision are in the ledger.
-/

namespace Aegis.Gateway

open Foundation Replay ToolExecutionArtifactEvidence ToolExecutionReceipt RunEventLedger Option

/-- What an attempt is about. -/
structure AttemptSubject where
  callId : SubjectId
  policyTraceId : SubjectId
  ir : TypedToolIR
  browser : Bool

structure AttemptEvents where
  request : RunEvent
  packet : Option RunEvent
  policy : RunEvent
  completion : RunEvent

/-- The events in the order in which an attempt records them. -/
def AttemptEvents.toList (events : AttemptEvents) : List RunEvent :=
  events.request :: (events.packet.toList ++ [events.policy, events.completion])

/-- The events are those of the attempt, and the receipt names each of them. -/
structure AttemptEvents.Record (blake3 : Hasher) (events : AttemptEvents)
    (subject : AttemptSubject) (receipt : ToolExecutionReceipt) (trace : PolicyProofTrace) :
    Prop where
  callId : receipt.callId = subject.callId
  request : events.request.kind = .toolCallRequested ∧
    events.request.subjectId = subject.callId ∧
    events.request.primaryHash = subject.ir.canonicalHash
  packetPresent : events.packet.isSome = subject.browser
  packet : ∀ packet ∈ events.packet, packet.kind = .browserObservationPacketRecorded ∧
    packet.subjectId = subject.callId ∧ packet.primaryHash = receipt.toolOutputHash
  policy : events.policy.kind = .policyDecisionRecorded ∧
    events.policy.subjectId = subject.policyTraceId ∧
    events.policy.primaryHash = trace.computeHash blake3 ∧
    events.policy.secondaryHash = some subject.ir.canonicalHash
  completion : events.completion.kind = .toolCallCompleted ∧
    events.completion.subjectId = subject.callId ∧
    events.completion.secondaryHash = some receipt.toolExecutionEvidence.evidenceHash
  requestBound : receipt.requestEventHash = events.request.eventHash
  packetBound : receipt.browserObservationEventHash = events.packet.map RunEvent.eventHash
  policyBound : receipt.policyEventHash = events.policy.eventHash
  completionBound : receipt.completionEventHash = events.completion.eventHash

/-- The attempt has been recorded: its events are appended in order, and the receipt is valid for
the request and the trace and bound to these events. -/
def Attempted (blake3 : Hasher) (subject : AttemptSubject) (before after : RunEventLedger)
    (receipt : ToolExecutionReceipt) (trace : PolicyProofTrace) : Prop :=
  ∃ events : AttemptEvents, after.events = before.events ++ events.toList ∧
    events.Record blake3 subject receipt trace ∧
    receipt.isValidFor blake3 subject.ir trace ∧ replayEventsAreBound receipt events.toList

/-- Nothing has happened, or the whole attempt has. -/
def AllOrNothing (blake3 : Hasher) (subject : AttemptSubject) (before : Session) :
    Outcome (ToolExecutionReceipt × PolicyProofTrace) → Prop
  | (.error _, after) => after = before
  | (.ok (receipt, trace), after) =>
    Attempted blake3 subject before.ledger after.ledger receipt trace

variable {blake3 : Hasher}

theorem Attempted.isValidFor {subject : AttemptSubject} {before after : RunEventLedger}
    {receipt : ToolExecutionReceipt} {trace : PolicyProofTrace}
    (attempted : Attempted blake3 subject before after receipt trace) :
    receipt.isValidFor blake3 subject.ir trace := by
  obtain ⟨-, -, -, valid, -⟩ := attempted
  exact valid

theorem AttemptEvents.Record.replayEventsAreBound {events : AttemptEvents}
    {subject : AttemptSubject} {receipt : ToolExecutionReceipt} {trace : PolicyProofTrace}
    (record : events.Record blake3 subject receipt trace) :
    replayEventsAreBound receipt events.toList := by
  have hash_mem : ∀ event ∈ events.toList,
      events.toList.any (·.eventHash == event.eventHash) := by
    intro event member
    exact List.any_eq_true.mpr ⟨event, member, beq_self_eq_true _⟩
  simp only [Gateway.replayEventsAreBound, Bool.and_eq_true, record.requestBound,
    record.policyBound, record.completionBound, record.packetBound]
  refine ⟨⟨⟨hash_mem _ ?_, hash_mem _ ?_⟩, hash_mem _ ?_⟩, ?_⟩
  · simp [AttemptEvents.toList]
  · simp [AttemptEvents.toList]
  · simp [AttemptEvents.toList]
  · cases packet : events.packet with
    | none => rfl
    | some event => exact hash_mem event (by simp [AttemptEvents.toList, packet])

section Validity

variable {ir : TypedToolIR} {trace : PolicyProofTrace}

theorem TypedToolIR.canonicalHash_eq (valid : ir.isValid blake3) :
    ir.canonicalHash = typedToolIrHash blake3 ir := by
  simp only [TypedToolIR.isValid, Bool.and_eq_true, beq_iff_eq] at valid
  exact valid.1.1.1.2

theorem TypedToolIR.canonicalHash_nonzero (digests : NonzeroDigests blake3)
    (valid : ir.isValid blake3) : nonzeroHash ir.canonicalHash := by
  rw [TypedToolIR.canonicalHash_eq valid]
  exact digests _

/-- Evidence built by its constructor is valid when the four hashes it names are present. -/
theorem toolExecutionEvidence_isValid (digests : NonzeroDigests blake3)
    {irHash traceHash output physical : Hash} {kind : ToolExecutorKind}
    {status : ToolExecutionStatus} (irOk : nonzeroHash irHash) (traceOk : nonzeroHash traceHash)
    (physicalOk : nonzeroHash physical) :
    (toolExecutionEvidence blake3 irHash traceHash output physical kind status).isValid blake3 =
      nonzeroHash output := by
  have sealed := digests (utf8Bytes "aegis-tool-execution-evidence-v1" ++ irHash.bytes ++
    traceHash.bytes ++ output.bytes ++ physical.bytes ++ [kind.toU8, status.toU8])
  simp only [ToolExecutionEvidence.isValid, toolExecutionEvidence, irOk, traceOk, physicalOk,
    toolExecutionEvidenceHash, sealed, Bool.true_and, Bool.and_true, beq_self_eq_true]

theorem fromArtifact_isValid (digests : NonzeroDigests blake3) {artifact : PhysicalArtifact} :
    (fromArtifact blake3 artifact).isValid blake3 =
      (nonzeroHash artifact.artifactHash && 0 < artifact.fuelConsumed &&
        0 < artifact.bytesChanged) := by
  have sealed := digests (utf8Bytes "aegis-tool-execution-artifact-evidence-v1" ++
    artifact.artifactHash.bytes ++ u64Bytes artifact.astFingerprint ++
    u64Bytes artifact.fuelConsumed ++ u64Bytes artifact.bytesChanged)
  simp only [isValid, fromArtifact,
    toolExecutionArtifactEvidenceHash, sealed, beq_self_eq_true, Bool.and_true]
  rfl

end Validity

section Wasm

variable {session : Session} {sandbox : WasmExecutionSandbox} {callId policyTraceId : SubjectId}
  {ir : TypedToolIR} {proof : PolicyProofTrace} {wasmBytes : List UInt8} {fuelLimit : BitVec 64}

/-- What the gateway checks of a sandbox call before it records anything. -/
structure WasmCallChecked (blake3 : Hasher) (sandbox : WasmExecutionSandbox)
    (callId policyTraceId : SubjectId) (ir : TypedToolIR) (proof : PolicyProofTrace)
    (wasmBytes : List UInt8) (fuelLimit : BitVec 64) : Prop where
  named : callId ≠ 0
  traced : policyTraceId ≠ 0
  irValid : ir.isValid blake3
  consistent : proof.isReplayConsistentWith blake3 ir
  allowed : proof.decision = .allow
  fueled : fuelLimit ≠ 0
  nonempty : wasmBytes ≠ []
  hardened : sandbox.backendConfig.isHardened

/-- The sandbox's answer names an artifact and a change when the gateway takes it for valid. -/
def ReportsChange : Except TrapReason SandboxResult → Prop
  | .ok result => result.isValid →
    nonzeroHash result.artifact.artifactHash ∧ 0 < result.artifact.bytesChanged
  | .error _ => True

/-- The evidence that a sandbox call hands to the ledger. -/
def wasmEvidence (blake3 : Hasher) (sandbox : WasmExecutionSandbox) (callId : SubjectId)
    (ir : TypedToolIR) (proof : PolicyProofTrace) (wasmBytes : List UInt8)
    (fuelLimit : BitVec 64) : ToolExecutionEvidence :=
  let report := sandboxReport blake3 sandbox.backendConfig wasmBytes fuelLimit
    (sandbox.executeWasmBinary wasmBytes fuelLimit)
  toolExecutionEvidence blake3 ir.canonicalHash (proof.computeHash blake3) report.1
    (toolPhysicalEvidenceHash blake3 callId ir.canonicalHash (proof.computeHash blake3) report.1
      report.2.1 report.2.2.1 sandbox.backendConfig.maxMemoryPages wasmBytes)
    .wasmtime report.2.2.2.2

theorem WasmCallChecked.passed
    (checked : WasmCallChecked blake3 sandbox callId policyTraceId ir proof wasmBytes fuelLimit) :
    (callId == 0 || policyTraceId == 0 || !ir.isValid blake3 ||
      !proof.isReplayConsistentWith blake3 ir || proof.decision != .allow || fuelLimit == 0 ||
      wasmBytes.isEmpty) = false := by
  simp only [checked.irValid, checked.consistent, checked.allowed, Bool.not_true, Bool.or_false,
    bne_self_eq_false, Bool.or_eq_false_iff, beq_eq_false_iff_ne, List.isEmpty_eq_false_iff]
  exact ⟨⟨⟨checked.named, checked.traced⟩, checked.fueled⟩, checked.nonempty⟩

theorem executeWasm_refused
    (refused : ¬ WasmCallChecked blake3 sandbox callId policyTraceId ir proof wasmBytes fuelLimit) :
    executeWasmWithReplay blake3 session sandbox callId policyTraceId ir proof wasmBytes fuelLimit =
      session.trap := by
  unfold executeWasmWithReplay
  split
  · rfl
  · rename_i checks
    split
    · rfl
    · rename_i hardened
      simp only [Bool.or_eq_true, not_or, beq_iff_eq, Bool.not_eq_true', Bool.not_eq_false,
        bne_iff_ne, ne_eq, not_not, List.isEmpty_iff] at checks hardened
      obtain ⟨⟨⟨⟨⟨⟨call, policy⟩, irOk⟩, consistent⟩, allowed⟩, fuel⟩, bytes⟩ := checks
      exact absurd ⟨call, policy, irOk, consistent, allowed, fuel, bytes, hardened⟩ refused

/-- The receipt that a sandbox call returns for its three events. -/
def wasmReceipt (blake3 : Hasher) (sandbox : WasmExecutionSandbox) (callId : SubjectId)
    (ir : TypedToolIR) (proof : PolicyProofTrace) (wasmBytes : List UInt8)
    (fuelLimit : BitVec 64) (request policy completion : RunEvent) : ToolExecutionReceipt :=
  let evidence := wasmEvidence blake3 sandbox callId ir proof wasmBytes fuelLimit
  { callId
    typedToolIrHash := ir.canonicalHash
    policyProofTraceHash := proof.computeHash blake3
    toolOutputHash := evidence.toolOutputHash
    physicalEvidenceHash := evidence.physicalEvidenceHash
    artifactEvidence := (sandboxReport blake3 sandbox.backendConfig wasmBytes fuelLimit
      (sandbox.executeWasmBinary wasmBytes fuelLimit)).2.2.2.1
    toolExecutionEvidence := evidence
    requestEventHash := request.eventHash
    policyEventHash := policy.eventHash
    completionEventHash := completion.eventHash
    browserObservationEventHash := none }

theorem wasmEvidence_isValid (digests : NonzeroDigests blake3) (irValid : ir.isValid blake3) :
    (wasmEvidence blake3 sandbox callId ir proof wasmBytes fuelLimit).isValid blake3 =
      nonzeroHash
        (wasmEvidence blake3 sandbox callId ir proof wasmBytes fuelLimit).toolOutputHash :=
  toolExecutionEvidence_isValid digests (TypedToolIR.canonicalHash_nonzero digests irValid)
    (digests _) (digests _)

theorem executeWasm_decided (digests : NonzeroDigests blake3)
    (checked : WasmCallChecked blake3 sandbox callId policyTraceId ir proof wasmBytes fuelLimit)
    (takes : TakesRequest session.ledger) (room : HasRoom session.ledger) :
    executeWasmWithReplay blake3 session sandbox callId policyTraceId ir proof wasmBytes fuelLimit =
      Session.record
        { ledger := decidedLedger blake3 session.ledger callId policyTraceId ir.canonicalHash
            (proof.computeHash blake3)
          executions := session.executions ++ [(wasmBytes, fuelLimit)] }
        (·.appendToolCallCompleted blake3 callId
          (wasmEvidence blake3 sandbox callId ir proof wasmBytes fuelLimit))
        fun completion after =>
          (.ok (wasmReceipt blake3 sandbox callId ir proof wasmBytes fuelLimit
            (requestEvent blake3 session.ledger callId ir.canonicalHash)
            (policyEvent blake3
              (session.ledger.extend (requestEvent blake3 session.ledger callId ir.canonicalHash))
              policyTraceId (proof.computeHash blake3) ir.canonicalHash) completion), after) := by
  have irOk := TypedToolIR.canonicalHash_nonzero digests checked.irValid
  have traceOk : nonzeroHash (proof.computeHash blake3) := digests _
  have requested : Requested
      (session.ledger.extend (requestEvent blake3 session.ledger callId ir.canonicalHash)) callId
      ir.canonicalHash := requested_of_takesRequest takes room
  have roomLeft : (session.ledger.extend
      (requestEvent blake3 session.ledger callId ir.canonicalHash)).events.length + 1 < 2 ^ 64 := by
    unfold HasRoom at room
    rw [length_extend_events]
    omega
  unfold executeWasmWithReplay
  simp only [checked.passed, Bool.false_eq_true, if_false, checked.hardened, Bool.not_true]
  rw [record_of_accepts rfl ((accepts_request_iff room irOk).mpr takes),
    record_of_accepts rfl (accepts_policy requested roomLeft irOk traceOk)]
  rfl

theorem executeWasm_not_taken (digests : NonzeroDigests blake3)
    (checked : WasmCallChecked blake3 sandbox callId policyTraceId ir proof wasmBytes fuelLimit)
    (room : HasRoom session.ledger) (refuses : ¬ TakesRequest session.ledger) :
    executeWasmWithReplay blake3 session sandbox callId policyTraceId ir proof wasmBytes fuelLimit =
      session.trap := by
  unfold executeWasmWithReplay
  simp only [checked.passed, Bool.false_eq_true, if_false, checked.hardened, Bool.not_true]
  exact record_request_of_not_takes room
    (TypedToolIR.canonicalHash_nonzero digests checked.irValid) refuses

variable {answer : Except TrapReason SandboxResult} {config : SandboxBackendConfig}

theorem sandboxReport_of_valid {result : SandboxResult} (valid : result.isValid) :
    sandboxReport blake3 config wasmBytes fuelLimit (.ok result) =
      (result.artifact.artifactHash, result.fuelConsumed, result.backend,
        some (fromArtifact blake3 result.artifact), .succeeded) :=
  if_pos valid

theorem sandboxReport_of_invalid {result : SandboxResult} (invalid : ¬ result.isValid) :
    sandboxReport blake3 config wasmBytes fuelLimit (.ok result) =
      sandboxReport blake3 config wasmBytes fuelLimit (.error .invariantViolation) :=
  if_neg invalid

/-- The sandbox's answer names an artifact and a change exactly when the report made of it has an
output hash and, where it has artifact evidence, the evidence is valid. -/
theorem reportsChange_iff (digests : NonzeroDigests blake3) :
    ReportsChange answer ↔
      nonzeroHash (sandboxReport blake3 config wasmBytes fuelLimit answer).1 ∧
        (sandboxReport blake3 config wasmBytes fuelLimit answer).2.2.2.1.all
          (·.isValid blake3) := by
  cases answer with
  | error reason => exact ⟨fun _ => ⟨digests _, rfl⟩, fun _ => trivial⟩
  | ok result =>
    by_cases valid : result.isValid
    · have fuel : 0 < result.artifact.fuelConsumed := by
        simp only [SandboxResult.isValid, Bool.and_eq_true, decide_eq_true_eq, beq_iff_eq] at valid
        exact valid.2 ▸ valid.1
      simp only [ReportsChange, sandboxReport_of_valid valid, valid, forall_const,
        all_some, fromArtifact_isValid digests, fuel, decide_true, Bool.and_true,
        Bool.and_eq_true, decide_eq_true_eq]
      exact ⟨fun ⟨named, changed⟩ => ⟨named, named, changed⟩,
        fun ⟨_, named, changed⟩ => ⟨named, changed⟩⟩
    · rw [sandboxReport_of_invalid valid]
      exact ⟨fun _ => ⟨digests _, rfl⟩, fun _ claimed => absurd claimed valid⟩

/-- A report with artifact evidence has succeeded with the artifact's hash as its output, and one
without has failed. -/
theorem wasmReceipt_artifactEvidenceMatchesStatus {request policy completion : RunEvent} :
    (wasmReceipt blake3 sandbox callId ir proof wasmBytes fuelLimit request policy
        completion).artifactEvidenceMatchesStatus blake3 =
      (sandboxReport blake3 sandbox.backendConfig wasmBytes fuelLimit
        (sandbox.executeWasmBinary wasmBytes fuelLimit)).2.2.2.1.all (·.isValid blake3) := by
  unfold artifactEvidenceMatchesStatus wasmReceipt wasmEvidence
    toolExecutionEvidence
  cases sandbox.executeWasmBinary wasmBytes fuelLimit with
  | error reason => rfl
  | ok result =>
    by_cases valid : result.isValid
    · simp [sandboxReport_of_valid valid, fromArtifact]
    · simp only [sandboxReport_of_invalid valid]
      rfl

theorem wasmReceipt_isValidFor_iff (digests : NonzeroDigests blake3)
    (checked : WasmCallChecked blake3 sandbox callId policyTraceId ir proof wasmBytes fuelLimit)
    (output : nonzeroHash
      (wasmEvidence blake3 sandbox callId ir proof wasmBytes fuelLimit).toolOutputHash)
    {request policy completion : RunEvent} (requestOk : nonzeroHash request.eventHash)
    (policyOk : nonzeroHash policy.eventHash) (completionOk : nonzeroHash completion.eventHash) :
    (wasmReceipt blake3 sandbox callId ir proof wasmBytes fuelLimit request policy
        completion).isValidFor blake3 ir proof ↔
      (sandboxReport blake3 sandbox.backendConfig wasmBytes fuelLimit
        (sandbox.executeWasmBinary wasmBytes fuelLimit)).2.2.2.1.all (·.isValid blake3) := by
  have named : 0 < callId := BitVec.pos_iff_ne_zero callId |>.mpr checked.named
  have irOk := TypedToolIR.canonicalHash_nonzero digests checked.irValid
  have traceOk : nonzeroHash (proof.computeHash blake3) := digests _
  have evidenceOk : (wasmEvidence blake3 sandbox callId ir proof wasmBytes fuelLimit).isValid
      blake3 := (wasmEvidence_isValid digests checked.irValid).trans output
  have physicalOk : nonzeroHash
      (wasmEvidence blake3 sandbox callId ir proof wasmBytes fuelLimit).physicalEvidenceHash :=
    digests _
  simp only [isValidFor, hasValidFields,
    wasmReceipt_artifactEvidenceMatchesStatus, Bool.and_eq_true]
  simp only [wasmReceipt, checked.irValid, checked.consistent, named, irOk, traceOk, output,
    physicalOk, evidenceOk, requestOk, policyOk, completionOk, beq_self_eq_true, decide_true,
    all_none, true_and, and_true]
  exact ⟨fun h => h.1.1, fun matches_ => ⟨⟨matches_, beq_self_eq_true _, beq_self_eq_true _⟩, rfl⟩⟩

/-- The three events of a sandbox call. -/
def wasmEvents (blake3 : Hasher) (ledger : RunEventLedger) (callId policyTraceId : SubjectId)
    (irHash traceHash : Hash) (evidence : ToolExecutionEvidence) : AttemptEvents where
  request := requestEvent blake3 ledger callId irHash
  packet := none
  policy := policyEvent blake3 (ledger.extend (requestEvent blake3 ledger callId irHash))
    policyTraceId traceHash irHash
  completion := completionEvent blake3
    (decidedLedger blake3 ledger callId policyTraceId irHash traceHash) callId evidence

/-- A sandbox call is all or nothing unless the gateway gets as far as the sandbox and takes an
answer for valid that names the zero artifact or no change. -/
theorem wasm_allOrNothing_iff (digests : NonzeroDigests blake3) (room : HasRoom session.ledger) :
    AllOrNothing blake3 ⟨callId, policyTraceId, ir, false⟩ session
        ((executeWasmWithReplay blake3 session sandbox callId policyTraceId ir proof wasmBytes
          fuelLimit).map (Except.map (·, proof)) id) ↔
      (WasmCallChecked blake3 sandbox callId policyTraceId ir proof wasmBytes fuelLimit →
        TakesRequest session.ledger →
          ReportsChange (sandbox.executeWasmBinary wasmBytes fuelLimit)) := by
  by_cases checked :
      WasmCallChecked blake3 sandbox callId policyTraceId ir proof wasmBytes fuelLimit
  swap
  · rw [executeWasm_refused checked]
    exact ⟨fun _ h => absurd h checked, fun _ => rfl⟩
  by_cases takes : TakesRequest session.ledger
  swap
  · rw [executeWasm_not_taken digests checked room takes]
    exact ⟨fun _ _ h => absurd h takes, fun _ => rfl⟩
  have roomLeft : (decidedLedger blake3 session.ledger callId policyTraceId ir.canonicalHash
      (proof.computeHash blake3)).events.length + 1 < 2 ^ 64 := by
    unfold HasRoom at room
    simp only [decidedLedger, length_extend_events]
    omega
  rw [executeWasm_decided digests checked takes room,
    record_completion digests (decided_decidedLedger takes room) roomLeft rfl rfl,
    wasmEvidence_isValid digests checked.irValid]
  have report : ReportsChange (sandbox.executeWasmBinary wasmBytes fuelLimit) ↔
      nonzeroHash
          (wasmEvidence blake3 sandbox callId ir proof wasmBytes fuelLimit).toolOutputHash ∧
        (sandboxReport blake3 sandbox.backendConfig wasmBytes fuelLimit
          (sandbox.executeWasmBinary wasmBytes fuelLimit)).2.2.2.1.all (·.isValid blake3) :=
    reportsChange_iff digests
  by_cases output : nonzeroHash
      (wasmEvidence blake3 sandbox callId ir proof wasmBytes fuelLimit).toolOutputHash
  · rw [if_pos output]
    constructor
    · rintro ⟨events, -, -, valid, -⟩ - -
      exact report.mpr ⟨output,
        (wasmReceipt_isValidFor_iff digests checked output (digests _) (digests _)
          (digests _)).mp valid⟩
    · intro reports
      have artifact := (report.mp (reports checked takes)).2
      let events := wasmEvents blake3 session.ledger callId policyTraceId ir.canonicalHash
        (proof.computeHash blake3)
        (wasmEvidence blake3 sandbox callId ir proof wasmBytes fuelLimit)
      have record : events.Record blake3 ⟨callId, policyTraceId, ir, false⟩
          (wasmReceipt blake3 sandbox callId ir proof wasmBytes fuelLimit events.request
            events.policy events.completion) proof :=
        ⟨rfl, ⟨rfl, rfl, rfl⟩, rfl, nofun, ⟨rfl, rfl, rfl, rfl⟩, ⟨rfl, rfl, rfl⟩, rfl, rfl, rfl,
          rfl⟩
      refine ⟨events, ?_, record, (wasmReceipt_isValidFor_iff digests checked output (digests _)
        (digests _) (digests _)).mpr artifact, record.replayEventsAreBound⟩
      simp [events, wasmEvents, decidedLedger, AttemptEvents.toList]
  · rw [if_neg output]
    constructor
    · -- The request and the decision are in the ledger, so the session is not as it was.
      intro unchanged
      have lengths := congrArg (fun after : Session => after.ledger.events.length) unchanged
      simp [decidedLedger] at lengths
    · intro reports
      exact absurd (report.mp (reports checked takes)).1 output

end Wasm

section Observation

variable {session : Session} {callId policyTraceId : SubjectId} {ir : TypedToolIR}
  {facts : PolicyFacts} {proof : PolicyProofTrace} {packet : BrowserObservationPacket}

/-- What the gateway checks of an observation call before it records anything. -/
structure ObservationChecked (blake3 : Hasher) (runId : RunId)
    (callId policyTraceId : SubjectId) (ir : TypedToolIR) (facts : PolicyFacts)
    (proof : PolicyProofTrace) (packet : BrowserObservationPacket) : Prop where
  named : callId ≠ 0
  traced : policyTraceId ≠ 0
  irValid : ir.isValid blake3
  capability : ir.capability = .browser ∨ ir.capability = .computer
  consistent : proof.isReplayConsistentWith blake3 ir
  allowed : proof.decision = .allow
  factsValid : facts.isValid blake3
  version : proof.policyVersionHash = facts.policyVersionHash
  factsBound : proof.factsHash = facts.factsHash
  staged : facts.hasStagingEnvironment
  stagingProof : facts.stagingProofRefHash = some packet.packetHash
  stagingKind : facts.stagingEvidenceKind = some .isolatedBrowserSession
  packetValid : packet.isValid blake3
  run : packet.runId = runId
  action : packet.actionId = callId
  sideEffect : packet.proof.sideEffectClass = ir.sideEffect

theorem observation_checked_iff {runId : RunId} :
    (callId == 0 || policyTraceId == 0 || !ir.isValid blake3 ||
      !(ir.capability == .browser || ir.capability == .computer) ||
      !proof.isReplayConsistentWith blake3 ir || proof.decision != .allow ||
      !facts.isValid blake3 || proof.policyVersionHash != facts.policyVersionHash ||
      proof.factsHash != facts.factsHash || !facts.hasStagingEnvironment ||
      facts.stagingProofRefHash != some packet.packetHash ||
      facts.stagingEvidenceKind != some .isolatedBrowserSession || !packet.isValid blake3 ||
      packet.runId != runId || packet.actionId != callId ||
      packet.proof.sideEffectClass != ir.sideEffect) = false ↔
      ObservationChecked blake3 runId callId policyTraceId ir facts proof packet := by
  simp only [Bool.or_eq_false_iff, beq_eq_false_iff_ne, Bool.not_eq_false', Bool.or_eq_true,
    beq_iff_eq, bne_eq_false_iff_eq, and_assoc]
  constructor <;>
    rintro ⟨named, traced, irValid, capability, consistent, allowed, factsValid, version,
      factsBound, staged, stagingProof, stagingKind, packetValid, run, action, sideEffect⟩ <;>
    exact ⟨named, traced, irValid, capability, consistent, allowed, factsValid, version,
      factsBound, staged, stagingProof, stagingKind, packetValid, run, action, sideEffect⟩

/-- Valid facts that name a packet as their staging proof name a packet that has a hash. -/
theorem ObservationChecked.packetHash_nonzero {runId : RunId}
    (checked : ObservationChecked blake3 runId callId policyTraceId ir facts proof packet) :
    nonzeroHash packet.packetHash := by
  have valid := checked.factsValid
  simp only [PolicyFacts.isValid, checked.staged, checked.stagingProof, checked.stagingKind,
    Bool.and_eq_true] at valid
  exact valid.1.1.2.1

/-- The evidence that an observation call hands to the ledger. -/
def observationEvidence (blake3 : Hasher) (callId : SubjectId) (ir : TypedToolIR)
    (proof : PolicyProofTrace) (packet : BrowserObservationPacket) : ToolExecutionEvidence :=
  toolExecutionEvidence blake3 ir.canonicalHash (proof.computeHash blake3) packet.packetHash
    (browserToolPhysicalEvidenceHash blake3 callId ir.canonicalHash (proof.computeHash blake3)
      packet)
    (browserExecutorKind packet.collectorKind) .succeeded

/-- The ledger once the request and the packet are recorded. -/
def observedLedger (blake3 : Hasher) (ledger : RunEventLedger) (callId : SubjectId)
    (irHash : Hash) (packet : BrowserObservationPacket) : RunEventLedger :=
  let requested := ledger.extend (requestEvent blake3 ledger callId irHash)
  requested.extend (packetEvent blake3 requested packet)

/-- The four events of an observation call. -/
def observationEvents (blake3 : Hasher) (ledger : RunEventLedger)
    (callId policyTraceId : SubjectId) (irHash traceHash : Hash)
    (packet : BrowserObservationPacket) (evidence : ToolExecutionEvidence) : AttemptEvents :=
  let requested := ledger.extend (requestEvent blake3 ledger callId irHash)
  let observed := observedLedger blake3 ledger callId irHash packet
  let policy := policyEvent blake3 observed policyTraceId traceHash irHash
  { request := requestEvent blake3 ledger callId irHash
    packet := some (packetEvent blake3 requested packet)
    policy
    completion := completionEvent blake3 (observed.extend policy) callId evidence }

/-- The receipt that an observation call returns for its events. -/
def observationReceipt (blake3 : Hasher) (callId : SubjectId) (ir : TypedToolIR)
    (proof : PolicyProofTrace) (packet : BrowserObservationPacket) (events : AttemptEvents) :
    ToolExecutionReceipt :=
  let evidence := observationEvidence blake3 callId ir proof packet
  { callId
    typedToolIrHash := ir.canonicalHash
    policyProofTraceHash := proof.computeHash blake3
    toolOutputHash := packet.packetHash
    physicalEvidenceHash := evidence.physicalEvidenceHash
    artifactEvidence := none
    toolExecutionEvidence := evidence
    requestEventHash := events.request.eventHash
    policyEventHash := events.policy.eventHash
    completionEventHash := events.completion.eventHash
    browserObservationEventHash := events.packet.map RunEvent.eventHash }

variable {ledger : RunEventLedger}

theorem length_observedLedger {irHash : Hash} :
    (observedLedger blake3 ledger callId irHash packet).events.length =
      ledger.events.length + 2 := by
  simp [observedLedger]

/-- The decision that follows a packet is recorded like any other. -/
theorem appendPolicy_after_packet {irHash traceHash : Hash}
    (packetOk : nonzeroHash packet.packetHash) :
    (observedLedger blake3 ledger callId irHash
        packet).appendPolicyDecisionRecordedAfterBrowserObservation blake3 policyTraceId traceHash
          irHash packet.packetHash =
      (observedLedger blake3 ledger callId irHash packet).append blake3
        (policyEvent blake3 (observedLedger blake3 ledger callId irHash packet) policyTraceId
          traceHash irHash) { goalIntake := true } := by
  obtain ⟨recorded, last⟩ := @hasPacket_extend blake3
    (ledger.extend (requestEvent blake3 ledger callId irHash)) packet
  change (observedLedger blake3 ledger callId irHash
    packet).hasBrowserObservationPacketRecorded at recorded
  change (observedLedger blake3 ledger callId irHash packet).lastBrowserObservationPacketHash =
    packet.packetHash at last
  simp [appendPolicyDecisionRecordedAfterBrowserObservation, recorded, last,
    packetOk, appendPolicyDecisionRecorded, policyEvent]

theorem executeBrowserObservation_recorded (digests : NonzeroDigests blake3)
    (checked : ObservationChecked blake3 session.ledger.runId callId policyTraceId ir facts proof
      packet)
    (takes : TakesRequest session.ledger) (room : HasRoom session.ledger) :
    let events := observationEvents blake3 session.ledger callId policyTraceId ir.canonicalHash
      (proof.computeHash blake3) packet (observationEvidence blake3 callId ir proof packet)
    ∃ after, executeBrowserObservationWithReplay blake3 session callId policyTraceId ir facts proof
        packet = (.ok (observationReceipt blake3 callId ir proof packet events), after) ∧
      after.ledger.events = session.ledger.events ++ events.toList ∧
      after.ledger.runId = session.ledger.runId := by
  intro events
  have irOk := TypedToolIR.canonicalHash_nonzero digests checked.irValid
  have traceOk : nonzeroHash (proof.computeHash blake3) := digests _
  have packetOk := checked.packetHash_nonzero
  have requested : Requested
      (session.ledger.extend (requestEvent blake3 session.ledger callId ir.canonicalHash)) callId
      ir.canonicalHash := requested_of_takesRequest takes room
  have observed : Requested (observedLedger blake3 session.ledger callId ir.canonicalHash packet)
      callId ir.canonicalHash :=
    -- A packet leaves the attempt open.
    { requested with
      earlier := by
        rw [observedLedger, length_extend_events]
        exact Nat.le_succ_of_le requested.earlier }
  have evidenceOk : (observationEvidence blake3 callId ir proof packet).isValid blake3 :=
    (toolExecutionEvidence_isValid digests irOk traceOk (digests _)).trans packetOk
  have roomOne : (session.ledger.extend
      (requestEvent blake3 session.ledger callId ir.canonicalHash)).events.length + 1 < 2 ^ 64 := by
    unfold HasRoom at room
    rw [length_extend_events]
    omega
  have roomTwo : (observedLedger blake3 session.ledger callId ir.canonicalHash
      packet).events.length + 1 < 2 ^ 64 := by
    unfold HasRoom at room
    rw [length_observedLedger]
    omega
  have roomThree : ((observedLedger blake3 session.ledger callId ir.canonicalHash packet).extend
      events.policy).events.length + 1 < 2 ^ 64 := by
    unfold HasRoom at room
    rw [length_extend_events, length_observedLedger]
    omega
  have packetMade :
      (session.ledger.extend (requestEvent blake3 session.ledger callId
          ir.canonicalHash)).appendBrowserObservationPacketRecorded blake3
          { record := packet.toReplay, valid := packet.isValid blake3 } =
        (session.ledger.extend (requestEvent blake3 session.ledger callId ir.canonicalHash)).append
          blake3 (packetEvent blake3 (session.ledger.extend
            (requestEvent blake3 session.ledger callId ir.canonicalHash)) packet)
          { goalIntake := true } := by
    simp [appendBrowserObservationPacketRecorded, checked.packetValid, packetEvent]
  unfold executeBrowserObservationWithReplay
  simp only [observation_checked_iff.mpr checked, Bool.false_eq_true, if_false]
  rw [record_of_accepts rfl ((accepts_request_iff room irOk).mpr takes),
    record_of_accepts packetMade (accepts_packet digests requested roomOne packetOk),
    record_of_accepts (appendPolicy_after_packet packetOk)
      (accepts_policy observed roomTwo irOk traceOk),
    record_completion digests (observed.decided roomTwo) roomThree rfl rfl]
  refine ⟨{ session with ledger := ((observedLedger blake3 session.ledger callId ir.canonicalHash
    packet).extend events.policy).extend events.completion },
    (if_pos evidenceOk).trans ?_, ?_, rfl⟩
  · exact if_neg (by simp [RunEvent.browserObservationPacketRecorded, packetEvent, RunEvent.new,
      BrowserObservationPacket.toReplay])
  · simp [events, observationEvents, observedLedger, AttemptEvents.toList]

theorem isBrowserExecutor_browserExecutorKind (kind : BrowserCollectorKind) :
    isBrowserExecutor (browserExecutorKind kind) := by
  cases kind <;> rfl

theorem observationReceipt_isValidFor (digests : NonzeroDigests blake3) {runId : RunId}
    (checked : ObservationChecked blake3 runId callId policyTraceId ir facts proof packet)
    {events : AttemptEvents} {recorded : RunEvent} (present : events.packet = some recorded)
    (requestOk : nonzeroHash events.request.eventHash) (packetOk : nonzeroHash recorded.eventHash)
    (policyOk : nonzeroHash events.policy.eventHash)
    (completionOk : nonzeroHash events.completion.eventHash) :
    (observationReceipt blake3 callId ir proof packet events).isValidFor blake3 ir proof := by
  have named : 0 < callId := BitVec.pos_iff_ne_zero callId |>.mpr checked.named
  have irOk := TypedToolIR.canonicalHash_nonzero digests checked.irValid
  have traceOk : nonzeroHash (proof.computeHash blake3) := digests _
  have physicalOk :
      nonzeroHash (observationEvidence blake3 callId ir proof packet).physicalEvidenceHash :=
    digests _
  have evidenceOk : (observationEvidence blake3 callId ir proof packet).isValid blake3 :=
    (toolExecutionEvidence_isValid digests irOk traceOk (digests _)).trans
      checked.packetHash_nonzero
  have executor : isBrowserExecutor
      (observationEvidence blake3 callId ir proof packet).executorKind :=
    isBrowserExecutor_browserExecutorKind _
  have status : (observationReceipt blake3 callId ir proof packet
      events).artifactEvidenceMatchesStatus blake3 := executor
  simp only [isValidFor, hasValidFields, status, Bool.and_eq_true]
  simp only [observationReceipt, checked.irValid, checked.consistent, named, irOk, traceOk,
    checked.packetHash_nonzero, physicalOk, evidenceOk, requestOk, policyOk, completionOk,
    present, packetOk, executor, map_some, all_some, isSome_some,
    beq_self_eq_true, decide_true, and_true, true_and]
  exact ⟨beq_self_eq_true _, beq_self_eq_true _, beq_self_eq_true _⟩

theorem observationEvents_record :
    let events := observationEvents blake3 ledger callId policyTraceId ir.canonicalHash
      (proof.computeHash blake3) packet (observationEvidence blake3 callId ir proof packet)
    packet.actionId = callId →
      events.Record blake3 ⟨callId, policyTraceId, ir, true⟩
        (observationReceipt blake3 callId ir proof packet events) proof := by
  intro events action
  refine ⟨rfl, ⟨rfl, rfl, rfl⟩, rfl, ?_, ⟨rfl, rfl, rfl, rfl⟩, ⟨rfl, rfl, rfl⟩, rfl, rfl, rfl, rfl⟩
  rintro recorded ⟨⟩
  exact ⟨rfl, action, rfl⟩

/-- An observation call fails with the session untouched, or it has passed its checks and recorded
the whole attempt. -/
theorem executeBrowserObservation_cases (digests : NonzeroDigests blake3)
    (room : HasRoom session.ledger) :
    executeBrowserObservationWithReplay blake3 session callId policyTraceId ir facts proof packet =
        session.trap ∨
      ObservationChecked blake3 session.ledger.runId callId policyTraceId ir facts proof packet ∧
        session.ledger.runId ≠ 0 ∧
        ∃ receipt after,
          executeBrowserObservationWithReplay blake3 session callId policyTraceId ir facts proof
            packet = (.ok receipt, after) ∧
          after.ledger.runId = session.ledger.runId ∧
          receipt.toolOutputHash = packet.packetHash ∧
          receipt.browserObservationEventHash.isSome ∧
          Attempted blake3 ⟨callId, policyTraceId, ir, true⟩ session.ledger after.ledger receipt
            proof := by
  by_cases checked : ObservationChecked blake3 session.ledger.runId callId policyTraceId ir facts
      proof packet
  swap
  · refine .inl (if_pos ?_)
    exact Bool.eq_true_of_not_eq_false fun passed => checked (observation_checked_iff.mp passed)
  by_cases takes : TakesRequest session.ledger
  swap
  · refine .inl ?_
    unfold executeBrowserObservationWithReplay
    simp only [observation_checked_iff.mpr checked, Bool.false_eq_true, if_false]
    exact record_request_of_not_takes room
      (TypedToolIR.canonicalHash_nonzero digests checked.irValid) takes
  obtain ⟨after, returned, recorded, sameRun⟩ :=
    executeBrowserObservation_recorded digests checked takes room
  have record := @observationEvents_record blake3 callId policyTraceId ir proof packet
    session.ledger checked.action
  exact .inr ⟨checked, takes.run, _, after, returned, sameRun, rfl, rfl, _, recorded, record,
    observationReceipt_isValidFor digests checked rfl (digests _) (digests _) (digests _)
      (digests _), record.replayEventsAreBound⟩

theorem observation_allOrNothing (digests : NonzeroDigests blake3)
    (room : HasRoom session.ledger) :
    AllOrNothing blake3 ⟨callId, policyTraceId, ir, true⟩ session
      ((executeBrowserObservationWithReplay blake3 session callId policyTraceId ir facts proof
        packet).map (Except.map (·, proof)) id) := by
  obtain trapped | ⟨-, -, receipt, after, returned, -, -, -, attempted⟩ :=
    @executeBrowserObservation_cases blake3 session callId policyTraceId ir facts proof packet
      digests room
  · rw [trapped]
    rfl
  · rw [returned]
    exact attempted

end Observation

end Aegis.Gateway
