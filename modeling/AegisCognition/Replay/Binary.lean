import AegisCognition.Foundation.Machine
import AegisCognition.Replay.Scan

/-!
# The binary segment format

A segment file is a header of 88 bytes and one record of 184 bytes an event. It can be
replayed in full, scanned without building events, or recovered up to its first bad
record. Each of the three takes the bytes of the file.
-/

namespace Aegis.Replay

open Foundation

/-- The digest with the given bytes, when there are 32 of them. -/
def Hash.ofBytes (bytes : List UInt8) : Hash :=
  if h : bytes.length = 32 then ⟨bytes, h⟩ else Hash.zero

@[simp] theorem Hash.ofBytes_bytes (hash : Hash) : Hash.ofBytes hash.bytes = hash := by
  simp [Hash.ofBytes]

def hashFromSlice (bytes : List UInt8) : Except String Hash :=
  if bytes.length = 32 then .ok (Hash.ofBytes bytes)
  else .error "invalid binary run event hash length"

-- The offsets are small constants, so the overflow checks of the source always pass.

section

variable (bytes : List UInt8) (offset : Nat)

def readU64Le : Except String (BitVec 64) :=
  if offset + 8 ≤ bytes.length then
    .ok (BitVec.ofNat 64 (ofLeBytes (slice bytes offset (offset + 8))))
  else .error "binary run event u64 out of bounds"

def readUsizeLe : Except String Nat :=
  (readU64Le bytes offset).map BitVec.toNat

def readU128Le : Except String (BitVec 128) :=
  if offset + 16 ≤ bytes.length then
    .ok (BitVec.ofNat 128 (ofLeBytes (slice bytes offset (offset + 16))))
  else .error "binary run event u128 out of bounds"

def byteAt : UInt8 := bytes.getD offset 0

end

def readKind (byte : UInt8) : Except String RunEventKind :=
  match RunEventKind.fromU8 byte with
  | some kind => .ok kind
  | none => .error "invalid binary run event kind"

namespace BinaryRunEventSegment

def magic : List UInt8 := utf8Bytes "AEGRUN06"
def formatVersion : Nat := 8
def headerBytes : Nat := 88
def recordBytes : Nat := 184

section Format

variable (blake3 : Hasher)

def binaryRunEventSchemaHash : Hash :=
  blake3 (utf8Bytes "binary-run-event-schema-v11" ++ magic ++ leBytes 8 formatVersion ++
    leBytes 8 headerBytes ++ leBytes 8 recordBytes ++
    utf8Bytes ("event_id:u64,run_id:u128,kind:u8,secondary_flag:u8," ++
      "reserved:u8[6],subject_id:u128,primary_hash:blake3[32]," ++
      "secondary_hash:optional-blake3[32],previous_event_hash:blake3[32]," ++
      "event_hash:blake3[32],record_hash_prefix:blake3[8]," ++
      "kind14:memory_commit_recorded,kind15:context_pack_candidate_proof_recorded," ++
      "kind16:task_selection_proof_recorded,kind17:browser_observation_packet_recorded," ++
      "kind18:goal_intake_recorded,kind19:agentic_evidence_execution_recorded," ++
      "kind20:skill_admission_recorded,kind21:browser_ops_bench_verification_recorded," ++
      "kind22:cluster_candidate_accepted,kind23:shadow_seal_recorded," ++
      "kind24:lab_event_recorded"))

def binaryRunEventRecordHash (bytes : List UInt8) : Hash :=
  blake3 (utf8Bytes "binary-run-event-record-v1" ++ bytes)

/-- The payload hash of the given records. -/
def binaryRunEventPayloadHash (records : List (List UInt8)) : Hash :=
  blake3 (utf8Bytes "binary-run-event-segment-v8" ++ (binaryRunEventSchemaHash blake3).bytes ++
    leBytes 8 headerBytes ++ leBytes 8 recordBytes ++ leBytes 8 records.length ++
    records.flatten)

def binaryRunEventRecoveryHash (runId : RunId)
    (declaredEventCount recoveredEventCount fileBytes trailingPartialBytes : Nat)
    (lastValidEventId : EventId) (lastEventHash recoveredPayloadHash : Hash) : Hash :=
  blake3 (utf8Bytes "binary-run-event-recovery-v1" ++ u128Bytes runId ++
    leBytes 8 declaredEventCount ++ leBytes 8 recoveredEventCount ++ leBytes 8 fileBytes ++
    leBytes 8 trailingPartialBytes ++ u64Bytes lastValidEventId ++ lastEventHash.bytes ++
    recoveredPayloadHash.bytes)

/-- The place of the secondary hash in a record; zero where there is none. -/
def secondaryHashBytes : Option Hash → List UInt8
  | some hash => hash.bytes
  | none => List.replicate 32 0

/-- The bytes of a record before its checksum. -/
def encodeFields (event : RunEvent) : List UInt8 :=
  u64Bytes event.eventId ++ u128Bytes event.runId ++
    [event.kind.toU8, boolByte event.secondaryHash.isSome] ++ List.replicate 6 0 ++
    u128Bytes event.subjectId ++ event.primaryHash.bytes ++
    secondaryHashBytes event.secondaryHash ++
    event.previousEventHash.bytes ++ event.eventHash.bytes

def encodeBinaryRunEventRecord (event : RunEvent) : List UInt8 :=
  encodeFields event ++ (binaryRunEventRecordHash blake3 (encodeFields event)).bytes.take 8

/-- The secondary hash as decoding reads it, once the flag is known to be 0 or 1. -/
def decodeSecondaryHash (record : List UInt8) : Except String (Option Hash) :=
  if byteAt record 25 == 1 then (hashFromSlice (slice record 80 112)).map some
  else if (slice record 80 112).any (· != 0) then
    .error "unexpected binary run event secondary hash bytes"
  else .ok none

def scanSecondaryHash (record : List UInt8) : Except String (Option Hash) :=
  if byteAt record 25 == 0 then
    if (slice record 80 112).any (· != 0) then
      .error "unexpected binary run event secondary hash bytes"
    else .ok none
  else if byteAt record 25 == 1 then (hashFromSlice (slice record 80 112)).map some
  else .error "invalid binary run event secondary flag"

def decodeBinaryRunEventRecord (record : List UInt8) : Except String RunEvent :=
  if record.length != recordBytes then .error "invalid binary run event record length"
  else if slice record 176 184 !=
      (binaryRunEventRecordHash blake3 (slice record 0 176)).bytes.take 8 then
    .error "binary run event record hash mismatch"
  else if decide (1 < byteAt record 25) || (slice record 26 32).any (· != 0) then
    .error "invalid binary run event record flags"
  else do
    let secondaryHash ← decodeSecondaryHash record
    let eventId ← readU64Le record 0
    let runId ← readU128Le record 8
    let kind ← readKind (byteAt record 24)
    let subjectId ← readU128Le record 32
    let primaryHash ← hashFromSlice (slice record 48 80)
    let previousEventHash ← hashFromSlice (slice record 112 144)
    let eventHash ← hashFromSlice (slice record 144 176)
    let event : RunEvent :=
      { eventId, runId, kind, subjectId, primaryHash, secondaryHash, previousEventHash,
        eventHash }
    if !event.isValid blake3 then .error "invalid binary run event" else .ok event

def scanMessages : ScanMessages where
  invalidFields := "invalid binary run event fields"
  missingSecondaryHash := "missing binary run event secondary hash"
  missingGoalIntake := "binary run event missing prior goal intake"
  missingContextPack := "binary run event missing prior context pack"
  missingLlmResponse := "binary run event missing prior llm response"
  missingToolCall := "binary run event missing prior tool call"
  missingToolCompletion := "binary run event memory commit missing tool completion"
  nestedToolCall := "binary run event nested pending tool call"
  missingPolicyDecision := "binary run event missing prior policy decision"
  missingEvidence := "missing binary tool execution evidence hash"
  completionMismatch := "binary run event tool completion binding mismatch"
  missingMemoryBinding := "missing binary memory commit binding"
  memoryMismatch := "binary run event memory commit binding mismatch"
  hashMismatch := "binary run event hash mismatch"
  missingPolicyToolIr := "missing binary policy typed tool ir hash"

/-- The record scan reads the fields in place. It returns the event hash and the state. -/
def validateBinaryRunEventRecord (record : List UInt8) (expectedRunId : RunId)
    (expectedEventId : EventId) (expectedPreviousHash : Hash) (scanState : ReplayFlags) :
    Except String (Hash × ReplayFlags) :=
  if record.length != recordBytes then .error "invalid binary run event record length"
  else if slice record 176 184 !=
      (binaryRunEventRecordHash blake3 (slice record 0 176)).bytes.take 8 then
    .error "binary run event record hash mismatch"
  else if (slice record 26 32).any (· != 0) then .error "invalid binary run event record flags"
  else do
    let eventId ← readU64Le record 0
    let runId ← readU128Le record 8
    let kind ← readKind (byteAt record 24)
    let subjectId ← readU128Le record 32
    let primaryHash ← hashFromSlice (slice record 48 80)
    let secondaryHash ← scanSecondaryHash record
    let previousEventHash ← hashFromSlice (slice record 112 144)
    let eventHash ← hashFromSlice (slice record 144 176)
    let event : RunEvent :=
      { eventId, runId, kind, subjectId, primaryHash, secondaryHash, previousEventHash,
        eventHash }
    let state ← scanEvent blake3 scanMessages event expectedRunId expectedEventId
      expectedPreviousHash scanState
    return (eventHash, state)

/-- One record of a scan: the next expected id is one more, the next expected hash the
record's. -/
def scanRecord (runId : RunId) (cursor : Cursor) (record : List UInt8) : Except String Cursor := do
  let (eventHash, state) ← validateBinaryRunEventRecord blake3 record runId
    (BitVec.ofNat 64 cursor.index + 1) cursor.previousEventHash cursor.toReplayFlags
  return { toReplayFlags := state, index := cursor.index + 1, previousEventHash := eventHash }

structure Header where
  eventCount : Nat
  runId : RunId

/-- The header checks, which the three readers make in the same way. -/
def readHeader (bytes : List UInt8) : Except String Header :=
  if bytes.length < headerBytes then .error "invalid binary run event segment length"
  else if slice bytes 0 8 != magic then .error "invalid binary run event segment magic"
  else do
    let version ← readUsizeLe bytes 8
    if version != formatVersion then .error "invalid binary run event format version"
    else do
      let size ← readUsizeLe bytes 16
      if size != headerBytes then .error "invalid binary run event header size"
      else do
        let size ← readUsizeLe bytes 24
        if size != recordBytes then .error "invalid binary run event record size"
        else do
          let eventCount ← readUsizeLe bytes 32
          let runId ← readU128Le bytes 40
          let schema ← hashFromSlice (slice bytes 56 88)
          if schema != binaryRunEventSchemaHash blake3 then
            .error "invalid binary run event schema hash"
          else .ok { eventCount, runId }

/-- The length check of the two readers that take whole segments. -/
def checkLength (bytes : List UInt8) (eventCount : Nat) : Except String Unit :=
  if u64Max < eventCount * recordBytes || u64Max < headerBytes + eventCount * recordBytes then
    .error "binary run event length overflow"
  else if headerBytes + eventCount * recordBytes != bytes.length then
    .error "invalid binary run event segment length"
  else .ok ()

/-- The first `count` records after the header. -/
def recordsOf (bytes : List UInt8) (count : Nat) : List (List UInt8) :=
  (List.range count).map fun index =>
    slice bytes (headerBytes + recordBytes * index)
      (headerBytes + recordBytes * index + recordBytes)

/-- The header of a segment that declares `eventCount` events. -/
def encodeHeader (runId : RunId) (eventCount : Nat) : List UInt8 :=
  magic ++ leBytes 8 formatVersion ++ leBytes 8 headerBytes ++ leBytes 8 recordBytes ++
    leBytes 8 eventCount ++ u128Bytes runId ++ (binaryRunEventSchemaHash blake3).bytes

/-- The bytes of a whole segment. -/
def encodeSegment (runId : RunId) (events : List RunEvent) : List UInt8 :=
  encodeHeader blake3 runId events.length ++
    (events.map (encodeBinaryRunEventRecord blake3)).flatten

/-- Writing returns the bytes of the file and the payload hash. -/
def writeLedger (ledger : RunEventLedger) : Except String (List UInt8 × Hash) :=
  if ledger.events.isEmpty || !ledger.verifyHashChain blake3 then
    .error "invalid binary run event ledger"
  else
    .ok (encodeSegment blake3 ledger.runId ledger.events,
      binaryRunEventPayloadHash blake3 (ledger.events.map (encodeBinaryRunEventRecord blake3)))

end Format

/-- A replay error is reported as one text. -/
def reportAs {ε α : Type} (text : String) (result : Except ε α) : Except String α :=
  result.mapError fun _ => text

section Readers

variable (blake3 : Hasher) (bytes : List UInt8)

def readLedgerMmap (expectedPayloadHash : Hash) : Except String RunEventLedger := do
  let header ← readHeader blake3 bytes
  checkLength bytes header.eventCount
  let records := recordsOf bytes header.eventCount
  let events ← records.mapM (decodeBinaryRunEventRecord blake3)
  if binaryRunEventPayloadHash blake3 records != expectedPayloadHash then
    .error "binary run event payload hash mismatch"
  else
    reportAs "invalid binary run event ledger"
      (RunEventLedger.fromEvents blake3 header.runId events)

structure ScanReport where
  eventCount : Nat
  fileBytes : Nat
  lastEventHash : Hash
  payloadHash : Hash

def verifyMmap (expectedPayloadHash : Hash) : Except String ScanReport := do
  let header ← readHeader blake3 bytes
  checkLength bytes header.eventCount
  let records := recordsOf bytes header.eventCount
  let last ← records.foldlM (scanRecord blake3 header.runId) {}
  let hash := binaryRunEventPayloadHash blake3 records
  if hash != expectedPayloadHash then .error "binary run event payload hash mismatch"
  else
    .ok { eventCount := header.eventCount, fileBytes := bytes.length,
          lastEventHash := last.previousEventHash, payloadHash := hash }

/-- The recovery loop: it stops at the first record that the scan refuses, and returns the
events before it with the last event hash. -/
def recoverRecords (runId : RunId) : Cursor → List (List UInt8) →
    Except String (List RunEvent × Hash)
  | cursor, [] => .ok ([], cursor.previousEventHash)
  | cursor, record :: records =>
    match scanRecord blake3 runId cursor record with
    | .error _ => .ok ([], cursor.previousEventHash)
    | .ok next => do
      let event ← decodeBinaryRunEventRecord blake3 record
      let (events, last) ← recoverRecords runId next records
      return (event :: events, last)

structure RecoveryReport where
  ledger : RunEventLedger
  declaredEventCount : Nat
  recoveredEventCount : Nat
  fileBytes : Nat
  trailingPartialBytes : Nat
  lastValidEventId : EventId
  lastEventHash : Hash
  recoveredPayloadHash : Hash
  recoveryHash : Hash

/-- The number of complete records within the declared count. -/
def completeRecordCount (declaredEventCount : Nat) : Nat :=
  min ((bytes.length - headerBytes) / recordBytes) declaredEventCount

def recoverLastValidPrefixMmap : Except String RecoveryReport := do
  let header ← readHeader blake3 bytes
  let trailingPartialBytes := (bytes.length - headerBytes) % recordBytes
  let records := recordsOf bytes (completeRecordCount bytes header.eventCount)
  let (events, lastEventHash) ← recoverRecords blake3 header.runId {} records
  let recoveredPayloadHash :=
    binaryRunEventPayloadHash blake3 (events.map (encodeBinaryRunEventRecord blake3))
  let lastValidEventId := events.getLast?.elim 0 RunEvent.eventId
  let ledger ← reportAs "invalid binary run event recovery ledger"
    (RunEventLedger.fromEvents blake3 header.runId events)
  let recoveredEventCount := ledger.events.length
  return {
    ledger
    declaredEventCount := header.eventCount
    recoveredEventCount
    fileBytes := bytes.length
    trailingPartialBytes
    lastValidEventId
    lastEventHash
    recoveredPayloadHash
    recoveryHash := binaryRunEventRecoveryHash blake3 header.runId header.eventCount
      recoveredEventCount bytes.length trailingPartialBytes lastValidEventId lastEventHash
      recoveredPayloadHash }

end Readers

end BinaryRunEventSegment

end Aegis.Replay
