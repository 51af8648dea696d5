import AegisCognition.Replay.Binary

/-!
# What a record says

A record is well formed when its length, checksum, reserved bytes, flag and kind are in
order; the event it holds is then a function of its bytes. Decoding accepts a well-formed
record whose event is valid, the record scan one whose event the shared rules admit next.
-/

namespace Aegis.Replay

open Foundation Hash RunEventKind List

namespace BinaryRunEventSegment

variable {blake3 : Hasher} {runId : RunId} {record : List UInt8} {event : RunEvent}

/-- The event that the bytes of a record spell. -/
def recordEvent (record : List UInt8) : RunEvent where
  eventId := BitVec.ofNat 64 (ofLeBytes (slice record 0 8))
  runId := BitVec.ofNat 128 (ofLeBytes (slice record 8 24))
  kind := (fromU8 (byteAt record 24)).getD .missionCompiled
  subjectId := BitVec.ofNat 128 (ofLeBytes (slice record 32 48))
  primaryHash := ofBytes (slice record 48 80)
  secondaryHash :=
    if byteAt record 25 = 1 then some (ofBytes (slice record 80 112)) else none
  previousEventHash := ofBytes (slice record 112 144)
  eventHash := ofBytes (slice record 144 176)

/-- The flag of a record and the bytes it speaks of are in order. -/
def FlagWellFormed (record : List UInt8) : Prop :=
  byteAt record 25 = 1 ∨ byteAt record 25 = 0 ∧ (slice record 80 112).any (· != 0) = false

/-- The checks of a record that do not look at what its event means. -/
structure RecordWellFormed (blake3 : Hasher) (record : List UInt8) : Prop where
  length : record.length = recordBytes
  checksum : slice record 176 184 =
    (binaryRunEventRecordHash blake3 (slice record 0 176)).bytes.take 8
  reserved : (slice record 26 32).any (· != 0) = false
  flag : FlagWellFormed record
  kind : (fromU8 (byteAt record 24)).isSome

theorem hashFromSlice_slice {start stop : Nat} (inside : stop ≤ record.length)
    (width : stop - start = 32) :
    hashFromSlice (slice record start stop) = .ok (ofBytes (slice record start stop)) := by
  rw [hashFromSlice, if_pos ((length_slice inside).trans width)]

theorem readU64Le_eq {offset : Nat} (inside : offset + 8 ≤ record.length) :
    readU64Le record offset =
      .ok (BitVec.ofNat 64 (ofLeBytes (slice record offset (offset + 8)))) :=
  if_pos inside

theorem readU128Le_eq {offset : Nat} (inside : offset + 16 ≤ record.length) :
    readU128Le record offset =
      .ok (BitVec.ofNat 128 (ofLeBytes (slice record offset (offset + 16)))) :=
  if_pos inside

theorem readKind_ok_iff {byte : UInt8} {kind : RunEventKind} :
    readKind byte = .ok kind ↔ fromU8 byte = some kind := by
  unfold readKind
  cases fromU8 byte <;> simp

/-- The reads at fixed places inside a record of the right length all succeed. -/
theorem reads_of_length (length : record.length = recordBytes) :
    readU64Le record 0 = .ok (recordEvent record).eventId ∧
    readU128Le record 8 = .ok (recordEvent record).runId ∧
    readU128Le record 32 = .ok (recordEvent record).subjectId ∧
    hashFromSlice (slice record 48 80) = .ok (recordEvent record).primaryHash ∧
    hashFromSlice (slice record 80 112) = .ok (ofBytes (slice record 80 112)) ∧
    hashFromSlice (slice record 112 144) = .ok (recordEvent record).previousEventHash ∧
    hashFromSlice (slice record 144 176) = .ok (recordEvent record).eventHash := by
  have inside : record.length = 184 := length
  exact ⟨readU64Le_eq (by omega), readU128Le_eq (by omega), readU128Le_eq (by omega),
    hashFromSlice_slice (by omega) rfl, hashFromSlice_slice (by omega) rfl,
    hashFromSlice_slice (by omega) rfl, hashFromSlice_slice (by omega) rfl⟩

theorem secondaryHash_of_flag (h : byteAt record 25 = 1) :
    (recordEvent record).secondaryHash = some (ofBytes (slice record 80 112)) :=
  if_pos h

theorem secondaryHash_of_no_flag (h : byteAt record 25 = 0) :
    (recordEvent record).secondaryHash = none :=
  if_neg (by rw [h]; decide)

theorem not_flagWellFormed (h : byteAt record 25 = 0)
    (dirty : (slice record 80 112).any (· != 0) = true) : ¬ FlagWellFormed record := by
  rintro (one | ⟨-, clean⟩)
  · rw [h] at one
    contradiction
  · rw [dirty] at clean
    contradiction

theorem flag_cases {byte : UInt8} (h : ¬ 1 < byte) : byte = 0 ∨ byte = 1 := by
  have small : byte.toNat ≤ 1 := UInt8.le_iff_toNat_le.mp (UInt8.not_lt.mp h)
  obtain zero | one := Nat.le_one_iff_eq_zero_or_eq_one.mp small
  · exact .inl (UInt8.toNat_inj.mp zero)
  · exact .inr (UInt8.toNat_inj.mp one)

theorem decodeSecondaryHash_ok_iff (length : record.length = recordBytes)
    (flag : ¬ 1 < byteAt record 25) {secondary : Option Hash} :
    decodeSecondaryHash record = .ok secondary ↔
      FlagWellFormed record ∧ secondary = (recordEvent record).secondaryHash := by
  obtain ⟨-, -, -, -, hash, -, -⟩ := reads_of_length length
  unfold decodeSecondaryHash
  obtain zero | one := flag_cases flag
  · rw [zero, if_neg (by decide), secondaryHash_of_no_flag zero]
    cases dirty : (slice record 80 112).any (· != 0) with
    | true => simp [not_flagWellFormed zero dirty]
    | false =>
        have wellFormed : FlagWellFormed record := .inr ⟨zero, dirty⟩
        simp [wellFormed, eq_comm]
  · have wellFormed : FlagWellFormed record := .inl one
    rw [one, if_pos (by decide), hash, secondaryHash_of_flag one]
    simp [Except.map, wellFormed, eq_comm]

theorem scanSecondaryHash_ok_iff (length : record.length = recordBytes)
    {secondary : Option Hash} :
    scanSecondaryHash record = .ok secondary ↔
      FlagWellFormed record ∧ secondary = (recordEvent record).secondaryHash := by
  by_cases flag : 1 < byteAt record 25
  · have more : byteAt record 25 ≠ 0 ∧ byteAt record 25 ≠ 1 := by
      constructor <;> rintro h <;> rw [h] at flag <;> contradiction
    have wrong : ¬ FlagWellFormed record := by
      rintro (one | ⟨zero, -⟩)
      · exact more.2 one
      · exact more.1 zero
    simp [scanSecondaryHash, more, wrong]
  · -- With the flag at most one, the two ways to read the hash are the same.
    rw [← decodeSecondaryHash_ok_iff length flag]
    unfold scanSecondaryHash decodeSecondaryHash
    obtain zero | one := flag_cases flag
    · rw [zero]
      rfl
    · rw [one]
      rfl

theorem kind_of_fromU8 {kind : RunEventKind}
    (h : fromU8 (byteAt record 24) = some kind) : (recordEvent record).kind = kind := by
  simp [recordEvent, h]

theorem decodeBinaryRunEventRecord_ok_iff :
    decodeBinaryRunEventRecord blake3 record = .ok event ↔
      RecordWellFormed blake3 record ∧ event = recordEvent record ∧ event.isValid blake3 := by
  by_cases length : record.length = recordBytes
  · obtain ⟨eventId, run, subject, primary, -, previous, hash⟩ := reads_of_length length
    simp only [decodeBinaryRunEventRecord, eventId, run, subject, primary, previous, hash,
      ite_error_eq_ok_iff, bind_eq_ok_iff, readKind_ok_iff, Except.ok.injEq, exists_eq_left',
      bne_iff_ne, ne_eq, not_not, Bool.or_eq_true, decide_eq_true_eq, not_or, Bool.not_eq_true,
      Bool.not_eq_true', Bool.not_eq_false]
    constructor
    · rintro ⟨-, checksum, ⟨flag, reserved⟩, secondary, read, kind, known, valid, rfl⟩
      obtain ⟨flagged, rfl⟩ := (decodeSecondaryHash_ok_iff length flag).mp read
      obtain rfl := kind_of_fromU8 known
      exact ⟨⟨length, checksum, reserved, flagged, by rw [known]; rfl⟩, rfl, valid⟩
    · rintro ⟨wellFormed, rfl, valid⟩
      obtain ⟨kind, known⟩ := Option.isSome_iff_exists.mp wellFormed.kind
      have flag : ¬ 1 < byteAt record 25 := by
        rcases wellFormed.flag with h | ⟨h, -⟩ <;> rw [h] <;> decide
      obtain rfl := kind_of_fromU8 known
      exact ⟨length, wellFormed.checksum, ⟨flag, wellFormed.reserved⟩, _,
        (decodeSecondaryHash_ok_iff length flag).mpr ⟨wellFormed.flag, rfl⟩, _, known, valid, rfl⟩
  · constructor
    · simp [decodeBinaryRunEventRecord, length]
    · exact fun h => absurd h.1.length length

theorem validateBinaryRunEventRecord_ok_iff {cursor : Cursor} {result : Hash × ReplayFlags} :
    validateBinaryRunEventRecord blake3 record runId (BitVec.ofNat 64 cursor.index + 1)
        cursor.previousEventHash cursor.toReplayFlags = .ok result ↔
      (RecordWellFormed blake3 record ∧ cursor.Admits blake3 runId (recordEvent record)) ∧
        result = ((recordEvent record).eventHash,
          cursor.toReplayFlags.advance (recordEvent record)) := by
  by_cases length : record.length = recordBytes
  · obtain ⟨eventId, run, subject, primary, -, previous, hash⟩ := reads_of_length length
    simp only [validateBinaryRunEventRecord, eventId, run, subject, primary, previous, hash,
      ite_error_eq_ok_iff, bind_eq_ok_iff, readKind_ok_iff, Except.ok.injEq, exists_eq_left',
      bne_iff_ne, ne_eq, not_not, Bool.not_eq_true, scanSecondaryHash_ok_iff length,
      scanEvent_ok_iff]
    constructor
    · rintro ⟨-, checksum, reserved, kind, known, secondary, ⟨flagged, rfl⟩, state,
        ⟨admitted, rfl⟩, done⟩
      obtain rfl := kind_of_fromU8 known
      exact ⟨⟨⟨length, checksum, reserved, flagged, by rw [known]; rfl⟩, admitted⟩,
        (Except.ok.inj done).symm⟩
    · rintro ⟨⟨wellFormed, admitted⟩, rfl⟩
      obtain ⟨kind, known⟩ := Option.isSome_iff_exists.mp wellFormed.kind
      obtain rfl := kind_of_fromU8 known
      exact ⟨length, wellFormed.checksum, wellFormed.reserved, _, known, _,
        ⟨wellFormed.flag, rfl⟩, _, ⟨admitted, rfl⟩, rfl⟩
  · constructor
    · simp [validateBinaryRunEventRecord, length]
    · exact fun h => absurd h.1.1.length length

theorem scanRecord_guards :
    Guards (scanRecord blake3 runId)
      (fun cursor record => RecordWellFormed blake3 record ∧
        cursor.Admits blake3 runId (recordEvent record))
      (fun cursor record => cursor.advance (recordEvent record)) := by
  intro cursor record next
  simp only [scanRecord, bind_eq_ok_iff, validateBinaryRunEventRecord_ok_iff]
  constructor
  · rintro ⟨result, ⟨accepted, rfl⟩, done⟩
    exact ⟨accepted, (Except.ok.inj done).symm⟩
  · rintro ⟨accepted, rfl⟩
    exact ⟨_, ⟨accepted, rfl⟩, rfl⟩

section Encode

@[simp] theorem length_secondaryHashBytes (secondary : Option Hash) :
    (secondaryHashBytes secondary).length = 32 := by
  cases secondary <;> simp only [secondaryHashBytes, length_eq, length_replicate]

theorem length_encodeFields (event : RunEvent) : (encodeFields event).length = 176 := by
  simp only [encodeFields, length_append, length_cons, length_nil,
    length_replicate, length_u64Bytes, length_u128Bytes, length_secondaryHashBytes, length_eq]

section

variable (blake3 : Hasher) (event : RunEvent)

theorem length_encodeRecord : (encodeBinaryRunEventRecord blake3 event).length = recordBytes := by
  simp [encodeBinaryRunEventRecord, length_encodeFields, recordBytes]

/-- The fields of an encoded record, each at its place. -/
theorem encodeRecord_slices :
    slice (encodeBinaryRunEventRecord blake3 event) 0 8 = u64Bytes event.eventId ∧
    slice (encodeBinaryRunEventRecord blake3 event) 8 24 = u128Bytes event.runId ∧
    slice (encodeBinaryRunEventRecord blake3 event) 26 32 = List.replicate 6 0 ∧
    slice (encodeBinaryRunEventRecord blake3 event) 32 48 = u128Bytes event.subjectId ∧
    slice (encodeBinaryRunEventRecord blake3 event) 48 80 = event.primaryHash.bytes ∧
    slice (encodeBinaryRunEventRecord blake3 event) 80 112 =
      secondaryHashBytes event.secondaryHash ∧
    slice (encodeBinaryRunEventRecord blake3 event) 112 144 = event.previousEventHash.bytes ∧
    slice (encodeBinaryRunEventRecord blake3 event) 144 176 = event.eventHash.bytes ∧
    byteAt (encodeBinaryRunEventRecord blake3 event) 24 = event.kind.toU8 ∧
    byteAt (encodeBinaryRunEventRecord blake3 event) 25 =
      boolByte event.secondaryHash.isSome := by
  unfold encodeBinaryRunEventRecord
  generalize List.take 8 _ = checksum
  simp only [encodeFields, append_assoc]
  refine ⟨?_, ?_, ?_, ?_, ?_, ?_, ?_, ?_, ?_, ?_⟩
  case refine_9 | refine_10 => simp [byteAt, getD, getElem?_append]
  all_goals
    simp (disch := simp) only [slice_skip, slice_head, length_u64Bytes, length_u128Bytes,
      length_cons, length_nil, length_replicate, length_secondaryHashBytes,
      length_eq, Nat.reduceSub, Nat.reduceAdd]

theorem encodeRecord_checksum :
    slice (encodeBinaryRunEventRecord blake3 event) 0 176 = encodeFields event ∧
    slice (encodeBinaryRunEventRecord blake3 event) 176 184 =
      (binaryRunEventRecordHash blake3 (encodeFields event)).bytes.take 8 := by
  have width := length_encodeFields event
  constructor
  · exact slice_head width
  · rw [encodeBinaryRunEventRecord, slice_skip (by omega), width]
    exact slice_all (by simp)

theorem recordEvent_encodeRecord :
    recordEvent (encodeBinaryRunEventRecord blake3 event) = event := by
  obtain ⟨eventId, run, -, subject, primary, secondary, previous, hash, kind, flag⟩ :=
    encodeRecord_slices blake3 event
  obtain ⟨id, runId, kind, subjectId, primaryHash, secondaryHash, previousHash, eventHash⟩ := event
  simp only [recordEvent, eventId, run, subject, primary, secondary, previous, hash, kind, flag,
    ofNat_ofLeBytes_u64Bytes, ofNat_ofLeBytes_u128Bytes, ofBytes_bytes,
    fromU8_toU8, Option.getD_some]
  cases secondaryHash <;> simp [boolByte, secondaryHashBytes]

theorem recordWellFormed_encodeRecord :
    RecordWellFormed blake3 (encodeBinaryRunEventRecord blake3 event) := by
  obtain ⟨-, -, reserved, -, -, secondary, -, -, kind, flag⟩ := encodeRecord_slices blake3 event
  obtain ⟨fields, checksum⟩ := encodeRecord_checksum blake3 event
  refine ⟨length_encodeRecord blake3 event, by rw [checksum, fields], ?_, ?_, ?_⟩
  · rw [reserved]
    rfl
  · unfold FlagWellFormed
    rw [flag, secondary]
    cases event.secondaryHash with
    | none => exact .inr ⟨rfl, rfl⟩
    | some hash => exact .inl rfl
  · rw [kind, fromU8_toU8]
    rfl

end

end Encode

section Segment

variable (blake3 : Hasher) (runId : RunId)

theorem length_encodeHeader (eventCount : Nat) :
    (encodeHeader blake3 runId eventCount).length = headerBytes := by
  have start : magic.length = 8 := rfl
  simp [encodeHeader, start, headerBytes]

theorem readUsizeLe_of_slice {bytes : List UInt8} {offset value : Nat}
    (inside : offset + 8 ≤ bytes.length)
    (place : slice bytes offset (offset + 8) = leBytes 8 value) (fits : value < 2 ^ 64) :
    readUsizeLe bytes offset = .ok value := by
  rw [readUsizeLe, readU64Le_eq inside, place, ofLeBytes_leBytes fits, Except.map,
    BitVec.toNat_ofNat, Nat.mod_eq_of_lt fits]

/-- The fields of an encoded header, each at its place. -/
theorem encodeHeader_slices (eventCount : Nat) (rest : List UInt8) :
    slice (encodeHeader blake3 runId eventCount ++ rest) 0 8 = magic ∧
    slice (encodeHeader blake3 runId eventCount ++ rest) 8 16 = leBytes 8 formatVersion ∧
    slice (encodeHeader blake3 runId eventCount ++ rest) 16 24 = leBytes 8 headerBytes ∧
    slice (encodeHeader blake3 runId eventCount ++ rest) 24 32 = leBytes 8 recordBytes ∧
    slice (encodeHeader blake3 runId eventCount ++ rest) 32 40 = leBytes 8 eventCount ∧
    slice (encodeHeader blake3 runId eventCount ++ rest) 40 56 = u128Bytes runId ∧
    slice (encodeHeader blake3 runId eventCount ++ rest) 56 88 =
      (binaryRunEventSchemaHash blake3).bytes := by
  have width : magic.length = 8 := rfl
  generalize hash : binaryRunEventSchemaHash blake3 = schema
  simp only [encodeHeader, append_assoc, hash]
  refine ⟨?_, ?_, ?_, ?_, ?_, ?_, ?_⟩
  all_goals
    simp (disch := simp [width]) only [slice_skip, slice_head, width, length_leBytes,
      length_u128Bytes, Nat.reduceSub]

/-- A header is read back as it was written, whatever follows it. -/
theorem readHeader_encodeHeader {eventCount : Nat} (fits : eventCount < 2 ^ 64)
    (rest : List UInt8) :
    readHeader blake3 (encodeHeader blake3 runId eventCount ++ rest) =
      .ok { eventCount, runId } := by
  obtain ⟨start, version, header, record, count, run, schema⟩ :=
    encodeHeader_slices blake3 runId eventCount rest
  have inside : 88 ≤ (encodeHeader blake3 runId eventCount ++ rest).length := by
    rw [length_append, length_encodeHeader, headerBytes]
    omega
  generalize encodeHeader blake3 runId eventCount ++ rest = bytes at *
  have versionRead := readUsizeLe_of_slice (by omega) version (by decide)
  have headerRead := readUsizeLe_of_slice (by omega) header (by decide)
  have recordRead := readUsizeLe_of_slice (by omega) record (by decide)
  have countRead := readUsizeLe_of_slice (by omega) count fits
  have runRead : readU128Le bytes 40 = .ok runId := by
    rw [readU128Le_eq (by omega), run, ofNat_ofLeBytes_u128Bytes]
  have schemaRead : hashFromSlice (slice bytes 56 88) = .ok (binaryRunEventSchemaHash blake3) := by
    rw [hashFromSlice_slice inside rfl, schema, ofBytes_bytes]
  have long : ¬ bytes.length < headerBytes := by
    rw [headerBytes]
    omega
  simp [readHeader, long, start, versionRead, headerRead, recordRead, countRead, runRead,
    schemaRead, bind, Except.bind]

variable {blake3 runId}

/-- Slicing a sequence of equally long parts at the place of one gives that part. -/
theorem slice_flatten {parts : List (List UInt8)} {rest : List UInt8}
    (width : ∀ part ∈ parts, part.length = recordBytes) {index : Nat} (h : index < parts.length) :
    slice (parts.flatten ++ rest) (recordBytes * index) (recordBytes * index + recordBytes) =
      parts[index] := by
  induction parts generalizing index with
  | nil => simp at h
  | cons part parts ih =>
      have first := width part mem_cons_self
      have others := fun other member => width other (mem_cons_of_mem part member)
      rw [flatten_cons, append_assoc]
      cases index with
      | zero => simpa using slice_head first
      | succ index =>
          have inside : part.length ≤ recordBytes * (index + 1) := by
            rw [first, Nat.mul_succ]
            omega
          rw [slice_skip inside, first, Nat.mul_succ]
          simpa using ih others (Nat.lt_of_succ_lt_succ h)

theorem length_of_mem_records (events : List RunEvent) :
    ∀ record ∈ events.map (encodeBinaryRunEventRecord blake3), record.length = recordBytes := by
  intro record member
  obtain ⟨event, -, rfl⟩ := mem_map.mp member
  exact length_encodeRecord blake3 event

/-- The records of a segment are read back as they were written, whatever follows them. -/
theorem recordsOf_append {header rest : List UInt8} {records : List (List UInt8)}
    (size : header.length = headerBytes) (width : ∀ part ∈ records, part.length = recordBytes) :
    recordsOf (header ++ (records.flatten ++ rest)) records.length = records := by
  apply ext_getElem
  · simp [recordsOf]
  · intro index h h'
    simp only [recordsOf, getElem_map, getElem_range]
    rw [slice_skip (by omega), size, Nat.add_sub_cancel_left, Nat.add_assoc,
      Nat.add_sub_cancel_left]
    exact slice_flatten width h'

theorem recordsOf_encodeSegment (events : List RunEvent) :
    recordsOf (encodeSegment blake3 runId events) events.length =
      events.map (encodeBinaryRunEventRecord blake3) := by
  have read : recordsOf (encodeHeader blake3 runId events.length ++
      ((events.map (encodeBinaryRunEventRecord blake3)).flatten ++ [])) _ = _ :=
    recordsOf_append (length_encodeHeader blake3 runId events.length) (length_of_mem_records _)
  simpa [encodeSegment] using read

theorem length_encodeSegment (events : List RunEvent) :
    (encodeSegment blake3 runId events).length = headerBytes + events.length * recordBytes := by
  induction events with
  | nil => simp [encodeSegment, length_encodeHeader]
  | cons event events ih =>
      simp only [encodeSegment, length_append, length_encodeHeader, map_cons,
        flatten_cons, length_encodeRecord, length_cons] at ih ⊢
      rw [Nat.succ_mul]
      omega

end Segment

end BinaryRunEventSegment

end Aegis.Replay
