import AegisCognition.Replay.Binary

/-!
# Arrow event streams

An Arrow stream file holds events as rows of ten columns. The stream encoding itself is
not part of this development: the writer, the flatbuffer reader and the decoder are
parameters, and `Inverts` says what is relied on. What the source does around them is
written out: the split of an event into columns, the walk over the message framing and
the reading of rows back into events.
-/

namespace Aegis.Replay

open Foundation RunEventKind List

/-- A row of the event schema. -/
structure ArrowRow where
  eventId : BitVec 64
  runIdHi : BitVec 64
  runIdLo : BitVec 64
  kind : UInt8
  subjectIdHi : BitVec 64
  subjectIdLo : BitVec 64
  primaryHash : List UInt8
  secondaryHash : Option (List UInt8)
  previousEventHash : List UInt8
  eventHash : List UInt8

def splitU128 (value : BitVec 128) : BitVec 64 × BitVec 64 :=
  ((value >>> 64).setWidth 64, value.setWidth 64)

def joinU128 (hi lo : BitVec 64) : BitVec 128 :=
  hi.setWidth 128 <<< 64 ||| lo.setWidth 128

theorem joinU128_splitU128 (value : BitVec 128) :
    joinU128 (splitU128 value).1 (splitU128 value).2 = value := by
  apply BitVec.eq_of_getLsbD_eq
  intro i h
  by_cases low : i < 64
  · simp [joinU128, splitU128, low, h]
  · have high : i - 64 < 64 := by omega
    simp [joinU128, splitU128, low, h, high, show 64 + (i - 64) = i by omega]

def RunEvent.toRow (event : RunEvent) : ArrowRow where
  eventId := event.eventId
  runIdHi := (splitU128 event.runId).1
  runIdLo := (splitU128 event.runId).2
  kind := event.kind.toU8
  subjectIdHi := (splitU128 event.subjectId).1
  subjectIdLo := (splitU128 event.subjectId).2
  primaryHash := event.primaryHash.bytes
  secondaryHash := event.secondaryHash.map Hash.bytes
  previousEventHash := event.previousEventHash.bytes
  eventHash := event.eventHash.bytes

def batchFromEvents (events : List RunEvent) : List ArrowRow :=
  events.map RunEvent.toRow

def hashFromBinary (value : List UInt8) : Except String Hash :=
  if value.length = 32 then .ok (Hash.ofBytes value) else .error "invalid persisted hash length"

/-- One row of a batch. The readers that check hashes afterwards skip the validity check. -/
def eventFromRow (blake3 : Hasher) (validateEvents : Bool) (row : ArrowRow) :
    Except String RunEvent := do
  let secondaryHash ← match row.secondaryHash with
    | none => pure none
    | some value => (hashFromBinary value).map some
  let kind ← match fromU8 row.kind with
    | none => .error "invalid run event kind"
    | some kind => pure kind
  let primaryHash ← hashFromBinary row.primaryHash
  let previousEventHash ← hashFromBinary row.previousEventHash
  let eventHash ← hashFromBinary row.eventHash
  let event : RunEvent :=
    { eventId := row.eventId
      runId := joinU128 row.runIdHi row.runIdLo
      kind
      subjectId := joinU128 row.subjectIdHi row.subjectIdLo
      primaryHash
      secondaryHash
      previousEventHash
      eventHash }
  if validateEvents && !event.isValid blake3 then .error "invalid persisted run event"
  else return event

def appendEventsFromBatch (blake3 : Hasher) (batch : List ArrowRow) (validateEvents : Bool) :
    Except String (List RunEvent) :=
  batch.mapM (eventFromRow blake3 validateEvents)

/-- The header of a stream message. A record batch may lack its own header, and else says
whether it is compressed. -/
inductive IpcHeader where
  | schema
  | recordBatch (compressed : Option Bool)
  | dictionaryBatch
  | none
  | other

structure IpcMessage where
  header : IpcHeader
  bodyLength : Int

/-- What a decoder yields until the buffer is used up, and the error that stopped it. -/
structure DecodedStream where
  batches : List (List ArrowRow)
  failure : Option String

/-- The Arrow library: the stream of one batch, the flatbuffer of a message, and the
batches of a stream. -/
structure ArrowIpc where
  encodeStream : List ArrowRow → List UInt8
  rootAsMessage : List UInt8 → Option IpcMessage
  decodeStream : List UInt8 → DecodedStream

section Framing

def continuationMarker : List UInt8 := [0xff, 0xff, 0xff, 0xff]

/-- A message as the stream writer frames it. -/
def frame (metadata body : List UInt8) : List UInt8 :=
  continuationMarker ++ leBytes 4 metadata.length ++ metadata ++ body

def endOfStream : List UInt8 := continuationMarker ++ leBytes 4 0

variable (arrow : ArrowIpc)

-- A mapped file has fewer than 2^63 bytes, so the overflow checks on offsets always pass.

/-- The size of the metadata and the bytes after it. A stream of the old format has no
continuation marker before the size. -/
def metadataSize (bytes : List UInt8) : Except String (Nat × List UInt8) :=
  if bytes.length < 4 then .error "truncated arrow ipc metadata prefix"
  else if bytes.take 4 == continuationMarker then
    if (bytes.drop 4).length < 4 then .error "truncated arrow ipc continuation size"
    else .ok (ofLeBytes ((bytes.drop 4).take 4), bytes.drop 8)
  else .ok (ofLeBytes (bytes.take 4), bytes.drop 4)

/-- The next message and the bytes after its metadata; a size of zero ends the stream. -/
def nextMessage (bytes : List UInt8) : Except String (Option (IpcMessage × List UInt8)) := do
  let (size, rest) ← metadataSize bytes
  if size == 0 then return none
  else if rest.length < size then .error "truncated arrow ipc metadata"
  else
    match arrow.rootAsMessage (rest.take size) with
    | none => .error "invalid arrow ipc metadata message"
    | some message => return some (message, rest.drop size)

/-- Whether the schema has been seen, and the number of record batches, after the header. -/
def checkHeader (sawSchema : Bool) (recordBatchCount : Nat) :
    IpcHeader → Except String (Bool × Nat)
  | .schema => .ok (true, recordBatchCount)
  | .recordBatch compressed =>
    if !sawSchema then .error "arrow ipc record batch before schema"
    else
      match compressed with
      | none => .error "invalid arrow ipc record batch header"
      | some true => .error "compressed arrow ipc cannot prove mmap zero-copy"
      | some false => .ok (sawSchema, recordBatchCount + 1)
  | .dictionaryBatch => .error "dictionary arrow ipc batch cannot prove mmap zero-copy"
  | .none => .ok (sawSchema, recordBatchCount)
  | .other => .error "unsupported arrow ipc stream message"

def skipBody (bodyLength : Int) (rest : List UInt8) : Except String (List UInt8) :=
  if bodyLength < 0 then .error "invalid negative arrow ipc body length"
  else if rest.length < bodyLength.toNat then .error "truncated arrow ipc body"
  else .ok (rest.drop bodyLength.toNat)

/-- The walk over the messages. Each takes at least four bytes, so the length of the stream
is enough rounds. -/
def countRecordBatches : Nat → List UInt8 → Bool → Nat → Except String Nat
  | 0, _, _, recordBatchCount => .ok recordBatchCount
  | rounds + 1, bytes, sawSchema, recordBatchCount =>
    if bytes.isEmpty then .ok recordBatchCount
    else do
      match ← nextMessage arrow bytes with
      | none => return recordBatchCount
      | some (message, rest) => do
        let (sawSchema, recordBatchCount) ← checkHeader sawSchema recordBatchCount message.header
        let rest ← skipBody message.bodyLength rest
        countRecordBatches rounds rest sawSchema recordBatchCount

def validateArrowIpcStreamZeroCopyMetadata (bytes : List UInt8) : Except String Nat := do
  let recordBatchCount ← countRecordBatches arrow bytes.length bytes false 0
  if recordBatchCount == 0 then .error "arrow ipc stream has no record batch"
  else return recordBatchCount

/-- The events of a mapped stream file. -/
def appendEventsMmap (blake3 : Hasher) (bytes : List UInt8) (validateEvents : Bool) :
    Except String (List RunEvent) := do
  let _ ← validateArrowIpcStreamZeroCopyMetadata arrow bytes
  if bytes.isEmpty then .error "empty mmap arrow buffer"
  else do
    let decoded := arrow.decodeStream bytes
    let batches ← decoded.batches.mapM (appendEventsFromBatch blake3 · validateEvents)
    match decoded.failure with
    | some error => .error error
    | none => return batches.flatten

end Framing

def maxEventsPerSegment : Nat := 65536

/-- What the segment writer and its readers rely on, for the batches that a segment can
hold: an uncompressed stream of a schema and one record batch, which is decoded back. -/
structure ArrowIpc.Inverts (arrow : ArrowIpc) : Prop where
  framed : ∀ events : List RunEvent, events ≠ [] → events.length ≤ maxEventsPerSegment →
    ∃ schema batch body,
      arrow.encodeStream (batchFromEvents events) =
        frame schema [] ++ (frame batch body ++ endOfStream) ∧
      (0 < schema.length ∧ schema.length < 2 ^ 32) ∧
      (0 < batch.length ∧ batch.length < 2 ^ 32) ∧
      arrow.rootAsMessage schema = some ⟨.schema, 0⟩ ∧
      arrow.rootAsMessage batch = some ⟨.recordBatch (some false), body.length⟩
  decoded : ∀ events : List RunEvent, events ≠ [] → events.length ≤ maxEventsPerSegment →
    arrow.decodeStream (arrow.encodeStream (batchFromEvents events)) =
      ⟨[batchFromEvents events], none⟩

variable {blake3 : Hasher} {arrow : ArrowIpc} {metadata body rest : List UInt8}

theorem hashFromBinary_bytes (hash : Hash) : hashFromBinary hash.bytes = .ok hash := by
  simp [hashFromBinary]

theorem eventFromRow_toRow (event : RunEvent) :
    eventFromRow blake3 false event.toRow = .ok event := by
  obtain ⟨eventId, runId, kind, subjectId, primary, secondary, previous, hash⟩ := event
  cases secondary with
  | none =>
      simp [eventFromRow, RunEvent.toRow, hashFromBinary_bytes, fromU8_toU8,
        joinU128_splitU128, bind, Except.bind, pure, Except.pure]
  | some secondary =>
      simp [eventFromRow, RunEvent.toRow, hashFromBinary_bytes, fromU8_toU8,
        joinU128_splitU128, bind, Except.bind, pure, Except.pure, Except.map]

theorem appendEventsFromBatch_batchFromEvents (events : List RunEvent) :
    appendEventsFromBatch blake3 (batchFromEvents events) false = .ok events := by
  induction events with
  | nil => rfl
  | cons event events ih =>
      simp only [appendEventsFromBatch, batchFromEvents, map_cons, mapM_cons,
        eventFromRow_toRow] at ih ⊢
      rw [ih]
      rfl

theorem metadataSize_frame (size : metadata.length < 2 ^ 32) :
    metadataSize (frame metadata body ++ rest) =
      .ok (metadata.length, metadata ++ (body ++ rest)) := by
  have head : frame metadata body ++ rest =
      continuationMarker ++ (leBytes 4 metadata.length ++ (metadata ++ (body ++ rest))) := by
    simp [frame, append_assoc]
  have word : (leBytes 4 metadata.length).length = 4 := length_leBytes 4 _
  have long : ¬ (frame metadata body ++ rest).length < 4 := by
    rw [head, length_append, show continuationMarker.length = 4 from rfl]
    omega
  have first : (frame metadata body ++ rest).take 4 = continuationMarker := by
    rw [head]
    rfl
  have afterMarker : (frame metadata body ++ rest).drop 4 =
      leBytes 4 metadata.length ++ (metadata ++ (body ++ rest)) := by
    rw [head]
    rfl
  have afterSize : (frame metadata body ++ rest).drop 8 = metadata ++ (body ++ rest) := by
    rw [show 8 = 4 + 4 from rfl, ← drop_drop, afterMarker, drop_left' word]
  have room : ¬ ((frame metadata body ++ rest).drop 4).length < 4 := by
    rw [afterMarker, length_append, word]
    omega
  have value : ofLeBytes (((frame metadata body ++ rest).drop 4).take 4) = metadata.length := by
    rw [afterMarker, take_left' word, ofLeBytes_leBytes size]
  rw [metadataSize, if_neg long, first, if_pos (beq_self_eq_true _), if_neg room, value, afterSize]

/-- A framed message is read back, and the body comes next. -/
theorem nextMessage_frame {message : IpcMessage}
    (size : 0 < metadata.length ∧ metadata.length < 2 ^ 32)
    (root : arrow.rootAsMessage metadata = some message) :
    nextMessage arrow (frame metadata body ++ rest) = .ok (some (message, body ++ rest)) := by
  have positive : ¬ (metadata.length == 0) = true := by
    rw [beq_iff_eq]
    omega
  have inside : ¬ (metadata ++ (body ++ rest)).length < metadata.length := by
    rw [length_append]
    omega
  simp only [nextMessage, metadataSize_frame size.2, bind, Except.bind]
  rw [if_neg positive, if_neg inside, take_left, root, drop_left]
  rfl

theorem nextMessage_endOfStream : nextMessage arrow endOfStream = .ok none := by
  rfl

/-- The stream of a schema and one uncompressed batch passes the metadata walk. -/
theorem validate_encodeStream {schema batch : List UInt8}
    (schemaSize : 0 < schema.length ∧ schema.length < 2 ^ 32)
    (batchSize : 0 < batch.length ∧ batch.length < 2 ^ 32)
    (schemaRoot : arrow.rootAsMessage schema = some ⟨.schema, 0⟩)
    (batchRoot : arrow.rootAsMessage batch = some ⟨.recordBatch (some false), body.length⟩) :
    validateArrowIpcStreamZeroCopyMetadata arrow
      (frame schema [] ++ (frame batch body ++ endOfStream)) = .ok 1 := by
  have schemaNext : nextMessage arrow (frame schema [] ++ (frame batch body ++ endOfStream)) =
      .ok (some (⟨.schema, 0⟩, frame batch body ++ endOfStream)) :=
    nextMessage_frame schemaSize schemaRoot
  have batchNext : nextMessage arrow (frame batch body ++ endOfStream) =
      .ok (some (⟨.recordBatch (some false), body.length⟩, body ++ endOfStream)) :=
    nextMessage_frame batchSize batchRoot
  have skipped : skipBody body.length (body ++ endOfStream) = .ok endOfStream := by
    simp [skipBody]
  obtain ⟨rounds, count⟩ : ∃ rounds,
      (frame schema [] ++ (frame batch body ++ endOfStream)).length = rounds + 3 := by
    refine ⟨(frame schema [] ++ (frame batch body ++ endOfStream)).length - 3, ?_⟩
    simp only [frame, length_append, show continuationMarker.length = 4 from rfl]
    omega
  have nonempty : (frame schema [] ++ (frame batch body ++ endOfStream)).isEmpty = false := rfl
  have nonempty' : (frame batch body ++ endOfStream).isEmpty = false := rfl
  have noBody : skipBody 0 (frame batch body ++ endOfStream) =
      .ok (frame batch body ++ endOfStream) := by
    simp [skipBody]
  have walked : countRecordBatches arrow (rounds + 3)
      (frame schema [] ++ (frame batch body ++ endOfStream)) false 0 = .ok 1 := by
    simp only [countRecordBatches, nonempty, nonempty', schemaNext, batchNext, noBody, skipped,
      checkHeader, bind, Except.bind, nextMessage_endOfStream]
    rfl
  rw [validateArrowIpcStreamZeroCopyMetadata, count, walked]
  rfl

/-- A segment's stream is read back as its events. -/
theorem appendEventsMmap_encodeStream (inverts : arrow.Inverts) {events : List RunEvent}
    (nonempty : events ≠ []) (size : events.length ≤ maxEventsPerSegment) :
    appendEventsMmap arrow blake3 (arrow.encodeStream (batchFromEvents events)) false =
      .ok events := by
  obtain ⟨schema, batch, body, stream, schemaSize, batchSize, schemaRoot, batchRoot⟩ :=
    inverts.framed events nonempty size
  have valid := validate_encodeStream schemaSize batchSize schemaRoot batchRoot
  rw [← stream] at valid
  have decoded := inverts.decoded events nonempty size
  have nonvoid : (arrow.encodeStream (batchFromEvents events)).isEmpty = false := by
    rw [stream]
    rfl
  simp [appendEventsMmap, valid, decoded, nonvoid, appendEventsFromBatch_batchFromEvents, bind,
    Except.bind, pure, Except.pure]

end Aegis.Replay
