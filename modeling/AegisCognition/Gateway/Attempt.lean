import AegisCognition.Gateway.Execution
import AegisCognition.Replay.Transition

/-!
# Recording an attempt

What the ledger remembers between the appends of one attempt, and that the next append of the
attempt is then accepted. A request is accepted or refused by what the ledger holds before the
call; the packet and the decision that follow it are always accepted, and a completion is accepted
exactly when its evidence is valid.

Two facts are used throughout: a digest is never zero, and the ledger has room for the ids of the
events that an attempt adds.
-/

namespace Aegis.Gateway

open Foundation Replay RunEvent RunEventLedger

/-- No input has the zero digest, which the ledger takes for a missing one. -/
def NonzeroDigests (blake3 : Hasher) : Prop :=
  ∀ input, nonzeroHash (blake3 input)

/-- The ids of the next four events fit their word. -/
def HasRoom (ledger : RunEventLedger) : Prop :=
  ledger.events.length + 4 < 2 ^ 64

variable {blake3 : Hasher} {ledger : RunEventLedger} {callId policyTraceId : SubjectId}
  {irHash traceHash : Hash}

section Ids

theorem toNat_nextEventId (room : ledger.events.length + 1 < 2 ^ 64) :
    ledger.nextEventId.toNat = ledger.events.length + 1 := by
  rw [nextEventId, BitVec.toNat_add, BitVec.toNat_ofNat]
  have one : (1 : BitVec 64).toNat = 1 := rfl
  rw [one, Nat.mod_eq_of_lt (by omega : ledger.events.length < 2 ^ 64), Nat.mod_eq_of_lt room]

theorem nextEventId_ne_zero (room : ledger.events.length + 1 < 2 ^ 64) :
    ledger.nextEventId ≠ 0 := by
  intro h
  have := toNat_nextEventId room
  simp [h] at this

end Ids

section Extend

variable {event : RunEvent}

@[simp] theorem extend_events : (ledger.extend event).events = ledger.events ++ [event] := rfl

@[simp] theorem length_extend_events :
    (ledger.extend event).events.length = ledger.events.length + 1 := by
  simp

end Extend

theorem record_of_accepts {α : Type} {session : Session} {append : RunEventLedger → AppendResult}
    {next : RunEvent → Session → Outcome α} {event : RunEvent} {requires : Prerequisites}
    (made : append session.ledger = session.ledger.append blake3 event requires)
    (accepted : session.ledger.Accepts blake3 requires event) :
    session.record append next =
      next event { session with ledger := session.ledger.extend event } := by
  obtain ⟨-, done⟩ | ⟨refused, -⟩ :=
    append_cases blake3 session.ledger event requires
  · simp only [Session.record, made, done]
  · exact absurd accepted refused

/-- An append that is refused ends the call and leaves the session as it was. -/
theorem record_of_refused {α : Type} {session : Session} {append : RunEventLedger → AppendResult}
    {next : RunEvent → Session → Outcome α} {error : ReplayLedgerError}
    (refused : append session.ledger = (.error error, session.ledger)) :
    session.record append next = session.trap := by
  simp only [Session.record, refused]

/-- An event built at the end of the ledger is accepted when its hashes are in order, the
prerequisites hold, and the rules of its kind allow it. -/
theorem accepts_new {kind : RunEventKind} {subject : SubjectId} {primary : Hash}
    {secondary : Option Hash} {requires : Prerequisites}
    (room : ledger.events.length + 1 < 2 ^ 64) (run : ledger.runId ≠ 0)
    (primaryOk : nonzeroHash primary) (secondaryOk : secondary.all nonzeroHash)
    (present : kind.requiresSecondaryHash → secondary.isSome)
    (goal : requires.goalIntake → ledger.hasGoalIntakeRecorded)
    (context : requires.contextPack → ledger.hasContextPackBuilt)
    (llm : requires.llmResponse → ledger.hasLlmResponseReceived)
    (call : requires.toolCall → ledger.hasPendingToolCall)
    (policy : requires.policyDecision → ledger.hasPolicyDecisionRecorded)
    (completion : kind = .toolCallCompleted → ledger.toReplayFlags.CompletionBound blake3
      (RunEvent.new blake3 ledger.nextEventId ledger.runId kind subject primary secondary
        ledger.lastHash))
    (notCommit : kind ≠ .memoryCommitRecorded) (notIntake : kind ≠ .goalIntakeRecorded)
    (request : kind = .toolCallRequested → ledger.hasPendingToolCall = false) :
    ledger.Accepts blake3 requires
      (RunEvent.new blake3 ledger.nextEventId ledger.runId kind subject primary secondary
        ledger.lastHash) where
  wellFormed := ⟨primaryOk, secondaryOk, rfl, present⟩
  named := run
  numbered := nextEventId_ne_zero room
  run := rfl
  position := rfl
  chained := rfl
  goalIntake := goal
  contextPack := context
  llmResponse := llm
  toolCall := call
  policyDecision := policy
  completion := completion
  memoryCommit := fun h => absurd h notCommit
  oneGoalIntake := fun h => absurd h notIntake
  request := request

/-- What an accepted request asks of the ledger. -/
structure TakesRequest (ledger : RunEventLedger) : Prop where
  run : ledger.runId ≠ 0
  goalIntake : ledger.hasGoalIntakeRecorded
  llmResponse : ledger.hasLlmResponseReceived
  idle : ledger.hasPendingToolCall = false

instance : Decidable (TakesRequest ledger) :=
  decidable_of_iff (ledger.runId ≠ 0 ∧ ledger.hasGoalIntakeRecorded ∧
      ledger.hasLlmResponseReceived ∧ ledger.hasPendingToolCall = false)
    ⟨fun ⟨run, goal, llm, idle⟩ => ⟨run, goal, llm, idle⟩,
      fun h => ⟨h.run, h.goalIntake, h.llmResponse, h.idle⟩⟩

/-- The ledger awaits the rest of the attempt that the request began. -/
structure Requested (ledger : RunEventLedger) (callId : SubjectId) (irHash : Hash) : Prop where
  run : ledger.runId ≠ 0
  goalIntake : ledger.hasGoalIntakeRecorded
  pending : ledger.hasPendingToolCall
  call : ledger.lastToolCallId = callId
  ir : ledger.lastToolIrHash = irHash
  earlier : ledger.lastToolCallEventId.toNat ≤ ledger.events.length

/-- The ledger awaits the completion: the request has been decided on. -/
structure Decided (ledger : RunEventLedger) (callId : SubjectId) (irHash traceHash : Hash) :
    Prop where
  run : ledger.runId ≠ 0
  goalIntake : ledger.hasGoalIntakeRecorded
  pending : ledger.hasPendingToolCall
  decision : ledger.hasPolicyDecisionRecorded
  call : ledger.lastToolCallId = callId
  ir : ledger.lastToolIrHash = irHash
  policyIr : ledger.lastPolicyToolIrHash = irHash
  trace : ledger.lastPolicyProofTraceHash = traceHash
  later : ledger.lastToolCallEventId < ledger.lastPolicyEventId

section Request

def requestEvent (blake3 : Hasher) (ledger : RunEventLedger) (callId : SubjectId)
    (irHash : Hash) : RunEvent :=
  toolCallRequested blake3 ledger.nextEventId ledger.runId callId irHash ledger.lastHash

theorem accepts_request_iff (room : HasRoom ledger) (irOk : nonzeroHash irHash) :
    ledger.Accepts blake3 { goalIntake := true, llmResponse := true }
        (requestEvent blake3 ledger callId irHash) ↔ TakesRequest ledger := by
  constructor
  · intro accepted
    exact ⟨accepted.named, accepted.goalIntake rfl, accepted.llmResponse rfl, accepted.request rfl⟩
  · rintro ⟨run, goal, llm, idle⟩
    unfold HasRoom at room
    exact accepts_new (by omega) run irOk rfl nofun (fun _ => goal) nofun (fun _ => llm) nofun
      nofun nofun nofun nofun (fun _ => idle)

theorem record_request_of_not_takes {α : Type} {session : Session}
    {next : RunEvent → Session → Outcome α} (room : HasRoom session.ledger)
    (irOk : nonzeroHash irHash) (refuses : ¬ TakesRequest session.ledger) :
    session.record (·.appendLlmDerivedToolCallRequested blake3 callId irHash) next =
      session.trap := by
  obtain ⟨accepted, -⟩ | ⟨-, error, refused⟩ := append_cases blake3 session.ledger
    (requestEvent blake3 session.ledger callId irHash) { goalIntake := true, llmResponse := true }
  · exact absurd ((accepts_request_iff room irOk).mp accepted) refuses
  · exact record_of_refused refused

theorem requested_of_takesRequest (takes : TakesRequest ledger) (room : HasRoom ledger) :
    Requested (ledger.extend (requestEvent blake3 ledger callId irHash)) callId irHash where
  run := takes.run
  goalIntake := takes.goalIntake
  pending := rfl
  call := rfl
  ir := rfl
  earlier := by
    unfold HasRoom at room
    have position := @toNat_nextEventId ledger (by omega)
    rw [length_extend_events]
    exact position.le

end Request

section Packet

variable {packet : BrowserObservationPacket}

def packetEvent (blake3 : Hasher) (ledger : RunEventLedger) (packet : BrowserObservationPacket) :
    RunEvent :=
  browserObservationPacketRecorded blake3 ledger.nextEventId ledger.runId packet.toReplay
    ledger.lastHash

theorem accepts_packet (digests : NonzeroDigests blake3)
    (requested : Requested ledger callId irHash) (room : ledger.events.length + 1 < 2 ^ 64)
    (packetOk : nonzeroHash packet.packetHash) :
    ledger.Accepts blake3 { goalIntake := true } (packetEvent blake3 ledger packet) :=
  accepts_new room requested.run packetOk (digests _) (fun _ => rfl)
    (fun _ => requested.goalIntake) nofun nofun nofun nofun nofun nofun nofun nofun

theorem hasPacket_extend :
    (ledger.extend (packetEvent blake3 ledger packet)).hasBrowserObservationPacketRecorded ∧
      (ledger.extend (packetEvent blake3 ledger packet)).lastBrowserObservationPacketHash =
        packet.packetHash := by
  simp [RunEventLedger.extend, LedgerFlags.advance, packetEvent,
    browserObservationPacketRecorded, RunEvent.new, BrowserObservationPacket.toReplay]

end Packet

section Policy

def policyEvent (blake3 : Hasher) (ledger : RunEventLedger) (policyTraceId : SubjectId)
    (traceHash irHash : Hash) : RunEvent :=
  policyDecisionRecorded blake3 ledger.nextEventId ledger.runId policyTraceId traceHash
    irHash ledger.lastHash

theorem accepts_policy (requested : Requested ledger callId irHash)
    (room : ledger.events.length + 1 < 2 ^ 64) (irOk : nonzeroHash irHash)
    (traceOk : nonzeroHash traceHash) :
    ledger.Accepts blake3 { goalIntake := true }
      (policyEvent blake3 ledger policyTraceId traceHash irHash) :=
  accepts_new room requested.run traceOk irOk (fun _ => rfl) (fun _ => requested.goalIntake)
    nofun nofun nofun nofun nofun nofun nofun nofun

theorem Requested.decided (requested : Requested ledger callId irHash)
    (room : ledger.events.length + 1 < 2 ^ 64) :
    Decided (ledger.extend (policyEvent blake3 ledger policyTraceId traceHash irHash)) callId
      irHash traceHash where
  run := requested.run
  goalIntake := requested.goalIntake
  pending := requested.pending
  decision := rfl
  call := requested.call
  ir := requested.ir
  policyIr := rfl
  trace := rfl
  later := by
    have position := toNat_nextEventId room
    have earlier := requested.earlier
    change ledger.lastToolCallEventId < ledger.nextEventId
    rw [BitVec.lt_def, position]
    exact Nat.lt_succ_of_le earlier

end Policy

section Decided

/-- The ledger once the request and the decision of an attempt are recorded. -/
def decidedLedger (blake3 : Hasher) (ledger : RunEventLedger) (callId policyTraceId : SubjectId)
    (irHash traceHash : Hash) : RunEventLedger :=
  let requested := ledger.extend (requestEvent blake3 ledger callId irHash)
  requested.extend (policyEvent blake3 requested policyTraceId traceHash irHash)

theorem decided_decidedLedger (takes : TakesRequest ledger) (room : HasRoom ledger) :
    Decided (decidedLedger blake3 ledger callId policyTraceId irHash traceHash) callId irHash
      traceHash := by
  refine (requested_of_takesRequest takes room).decided ?_
  unfold HasRoom at room
  rw [length_extend_events]
  omega

end Decided

section Completion

variable {evidence : ToolExecutionEvidence}

def completionEvent (blake3 : Hasher) (ledger : RunEventLedger) (callId : SubjectId)
    (evidence : ToolExecutionEvidence) : RunEvent :=
  toolCallCompleted blake3 ledger.nextEventId ledger.runId callId evidence
    ledger.lastHash

theorem accepts_completion (digests : NonzeroDigests blake3)
    (decided : Decided ledger callId irHash traceHash)
    (room : ledger.events.length + 1 < 2 ^ 64) (evidenceOk : evidence.isValid blake3)
    (ir : evidence.typedToolIrHash = irHash) (trace : evidence.policyProofTraceHash = traceHash) :
    ledger.Accepts blake3 { goalIntake := true, toolCall := true, policyDecision := true }
      (completionEvent blake3 ledger callId evidence) := by
  have bound : nonzeroHash evidence.evidenceHash := by
    simp only [ToolExecutionEvidence.isValid, Bool.and_eq_true] at evidenceOk
    exact evidenceOk.1.2
  refine accepts_new room decided.run (digests _) bound (fun _ => rfl)
    (fun _ => decided.goalIntake) nofun nofun (fun _ => decided.pending)
    (fun _ => decided.decision) (fun _ => ?_) nofun nofun nofun
  refine ⟨decided.call.symm, decided.later, decided.ir.trans decided.policyIr.symm, _, rfl, ?_⟩
  rw [decided.ir, decided.trace, ← ir, ← trace]
  rfl

/-- The last append of an attempt: it is made exactly when its evidence is valid. -/
theorem record_completion {α : Type} {session : Session} {next : RunEvent → Session → Outcome α}
    (digests : NonzeroDigests blake3) (decided : Decided session.ledger callId irHash traceHash)
    (room : session.ledger.events.length + 1 < 2 ^ 64)
    (ir : evidence.typedToolIrHash = irHash) (trace : evidence.policyProofTraceHash = traceHash) :
    session.record (·.appendToolCallCompleted blake3 callId evidence) next =
      if evidence.isValid blake3 then
        let completion := completionEvent blake3 session.ledger callId evidence
        next completion { session with ledger := session.ledger.extend completion }
      else session.trap := by
  by_cases valid : evidence.isValid blake3
  · rw [if_pos valid]
    refine record_of_accepts ?_ (accepts_completion digests decided room valid ir trace)
    simp [appendToolCallCompleted, valid, completionEvent]
  · rw [if_neg valid]
    have refused : session.ledger.appendToolCallCompleted blake3 callId evidence =
        (.error .invalidEvent, session.ledger) := by
      simp [appendToolCallCompleted, valid]
    exact record_of_refused refused

end Completion

end Aegis.Gateway
