import AegisCognition.Replay.BinaryRecovery

/-!
# Round trips of the binary segment

Encoding and decoding of records are inverse to each other where decoding succeeds. A
segment written from a live ledger is read back as that ledger, and wherever the file is
cut behind its header, recovery finds exactly the events whose records are complete.
-/

namespace Aegis.Replay

open Foundation RunEventLedger Hash List

theorem RunEventKind.toU8_of_fromU8 {byte : UInt8} {kind : RunEventKind}
    (h : fromU8 byte = some kind) : kind.toU8 = byte := by
  unfold fromU8 at h
  split at h <;> first | (obtain rfl := Option.some.inj h; rfl) | cases h

section

variable {bytes : List UInt8}

theorem u64Bytes_ofLeBytes (width : bytes.length = 8) :
    u64Bytes (BitVec.ofNat 64 (ofLeBytes bytes)) = bytes := by
  have bound : ofLeBytes bytes < 2 ^ 64 := by simpa [width] using ofLeBytes_lt bytes
  rw [u64Bytes, BitVec.toNat_ofNat, Nat.mod_eq_of_lt bound, ← width, leBytes_ofLeBytes]

theorem u128Bytes_ofLeBytes (width : bytes.length = 16) :
    u128Bytes (BitVec.ofNat 128 (ofLeBytes bytes)) = bytes := by
  have bound : ofLeBytes bytes < 2 ^ 128 := by simpa [width] using ofLeBytes_lt bytes
  rw [u128Bytes, BitVec.toNat_ofNat, Nat.mod_eq_of_lt bound, ← width, leBytes_ofLeBytes]

theorem Hash.bytes_ofBytes (width : bytes.length = 32) : (ofBytes bytes).bytes = bytes := by
  rw [ofBytes, dif_pos width]

theorem eq_replicate_of_clean (clean : bytes.any (· != 0) = false) :
    bytes = List.replicate bytes.length 0 := by
  refine eq_replicate_iff.mpr ⟨rfl, fun byte member => ?_⟩
  simpa using any_eq_false.mp clean byte member

theorem slice_singleton {place : Nat} (h : place < bytes.length) :
    slice bytes place (place + 1) = [byteAt bytes place] := by
  have value : byteAt bytes place = bytes[place] := by simp [byteAt, h]
  rw [value, slice, Nat.add_sub_cancel_left, drop_eq_getElem_cons h]
  rfl

end

namespace BinaryRunEventSegment

variable {blake3 : Hasher} {runId : RunId} {record : List UInt8} {event : RunEvent}

theorem secondaryHashBytes_recordEvent (wellFormed : RecordWellFormed blake3 record) :
    secondaryHashBytes (recordEvent record).secondaryHash = slice record 80 112 ∧
      boolByte (recordEvent record).secondaryHash.isSome = byteAt record 25 := by
  have length : record.length = 184 := wellFormed.length
  have width : (slice record 80 112).length = 32 := length_slice (by omega)
  obtain one | ⟨zero, clean⟩ := wellFormed.flag
  · rw [secondaryHash_of_flag one, one]
    exact ⟨bytes_ofBytes width, rfl⟩
  · have blank := eq_replicate_of_clean clean
    rw [width] at blank
    rw [secondaryHash_of_no_flag zero, zero, blank]
    exact ⟨rfl, rfl⟩

theorem encodeFields_recordEvent (wellFormed : RecordWellFormed blake3 record) :
    encodeFields (recordEvent record) = slice record 0 176 := by
  have length : record.length = 184 := wellFormed.length
  have width {start stop : Nat} (h : stop ≤ 184) :
      (slice record start stop).length = stop - start :=
    length_slice (by omega)
  obtain ⟨secondary, flag⟩ := secondaryHashBytes_recordEvent wellFormed
  obtain ⟨kind, known⟩ := Option.isSome_iff_exists.mp wellFormed.kind
  have kindByte : (recordEvent record).kind.toU8 = byteAt record 24 := by
    rw [kind_of_fromU8 known]
    exact RunEventKind.toU8_of_fromU8 known
  have reserved : List.replicate 6 0 = slice record 26 32 := by
    have blank := eq_replicate_of_clean wellFormed.reserved
    rw [width (by omega)] at blank
    exact blank.symm
  have eventId : u64Bytes (recordEvent record).eventId = slice record 0 8 :=
    u64Bytes_ofLeBytes (width (by omega))
  have run : u128Bytes (recordEvent record).runId = slice record 8 24 :=
    u128Bytes_ofLeBytes (width (by omega))
  have subject : u128Bytes (recordEvent record).subjectId = slice record 32 48 :=
    u128Bytes_ofLeBytes (width (by omega))
  have primary : (recordEvent record).primaryHash.bytes = slice record 48 80 :=
    bytes_ofBytes (width (by omega))
  have previous : (recordEvent record).previousEventHash.bytes = slice record 112 144 :=
    bytes_ofBytes (width (by omega))
  have hash : (recordEvent record).eventHash.bytes = slice record 144 176 :=
    bytes_ofBytes (width (by omega))
  have pair : [byteAt record 24, byteAt record 25] = slice record 24 26 := by
    rw [← slice_append_slice (by omega : 24 ≤ 25) (by omega : 25 ≤ 26),
      slice_singleton (by omega : 24 < record.length),
      slice_singleton (by omega : 25 < record.length)]
    rfl
  rw [encodeFields, eventId, run, kindByte, flag, pair, reserved, subject, primary, secondary,
    previous, hash]
  simp only [slice_append_slice, Nat.reduceLeDiff]

theorem encodeRecord_recordEvent (wellFormed : RecordWellFormed blake3 record) :
    encodeBinaryRunEventRecord blake3 (recordEvent record) = record := by
  have length : record.length = 184 := wellFormed.length
  rw [encodeBinaryRunEventRecord, encodeFields_recordEvent wellFormed, ← wellFormed.checksum,
    slice_append_slice (by omega) (by omega), slice_all length]

/-- Cutting a sequence of equally long parts leaves the complete ones and less than one more. -/
theorem take_flatten {parts : List (List UInt8)} {width : Nat} (positive : 0 < width)
    (equal : ∀ part ∈ parts, part.length = width) (n : Nat) :
    ∃ rest, rest.length < width ∧
      parts.flatten.take n = (parts.take (n / width)).flatten ++ rest := by
  induction parts generalizing n with
  | nil => exact ⟨[], positive, by simp⟩
  | cons part parts ih =>
      have first := equal part mem_cons_self
      by_cases inside : n < width
      · refine ⟨part.take n, ?_, ?_⟩
        · rw [length_take]
          omega
        · rw [Nat.div_eq_of_lt inside, flatten_cons, take_append_of_le_length (by omega)]
          simp
      · obtain ⟨rest, short, cut⟩ := ih (fun other member => equal other
          (mem_cons_of_mem part member)) (n - width)
        refine ⟨rest, short, ?_⟩
        have count : n / width = (n - width) / width + 1 :=
          Nat.div_eq_sub_div positive (Nat.le_of_not_lt inside)
        rw [count, take_succ_cons, flatten_cons, flatten_cons, append_assoc,
          ← cut, take_append, first, take_of_length_le (by omega)]

/-- A segment cut at any place behind its header is a cut segment of its first events. -/
theorem take_encodeSegment {events : List RunEvent} {n : Nat} (behind : headerBytes ≤ n) :
    ∃ rest, rest.length < recordBytes ∧ (encodeSegment blake3 runId events).take n =
      cutSegment blake3 runId events.length (events.take ((n - headerBytes) / recordBytes))
        rest := by
  obtain ⟨rest, short, cut⟩ :=
    take_flatten (by decide) (length_of_mem_records events) (n - headerBytes)
  refine ⟨rest, short, ?_⟩
  have header := length_encodeHeader blake3 runId events.length
  rw [encodeSegment, cutSegment, map_take, ← cut, take_append, header,
    take_of_length_le (by omega)]

theorem trailingPartialBytes_of_recover {bytes : List UInt8} {report : RecoveryReport}
    (recovered : recoverLastValidPrefixMmap blake3 bytes = .ok report) :
    report.trailingPartialBytes = (bytes.length - headerBytes) % recordBytes := by
  simp only [recoverLastValidPrefixMmap, bind_eq_ok_iff] at recovered
  obtain ⟨header, -, events, -, ledger, -, done⟩ := recovered
  cases done
  rfl

variable {ledger : RunEventLedger}

/-- Cutting the segment of a replayed history anywhere behind its header loses the records
that are not complete, and nothing else. -/
theorem recover_take_encodeSegment {events : List RunEvent} {n : Nat}
    (named : runId ≠ 0) (fits : events.length < 2 ^ 64)
    (replayed : fromEvents blake3 runId events = .ok ledger)
    (behind : headerBytes ≤ n) :
    ∃ report, recoverLastValidPrefixMmap blake3 ((encodeSegment blake3 runId events).take n) =
        .ok report ∧
      report.ledger.events = events.take ((n - headerBytes) / recordBytes) ∧
      report.trailingPartialBytes =
        (min n (encodeSegment blake3 runId events).length - headerBytes) % recordBytes := by
  have history := (fromEvents_ok_iff.mp replayed).1
  obtain ⟨rest, short, cut⟩ : ∃ rest, rest.length < recordBytes ∧
      (encodeSegment blake3 runId events).take n = cutSegment blake3 runId events.length
        (events.take ((n - headerBytes) / recordBytes)) rest := take_encodeSegment behind
  have kept : Along Cursor.advance (Cursor.Replays blake3 runId) {}
      (events.take ((n - headerBytes) / recordBytes)) := by
    rw [← take_append_drop ((n - headerBytes) / recordBytes) events] at history
    exact history.append_left
  have admitted : Along Cursor.advance (Cursor.Admits blake3 runId) {}
      (events.take ((n - headerBytes) / recordBytes)) := kept.imp fun _ _ rule => rule.toAdmits
  have inside : (events.take ((n - headerBytes) / recordBytes)).length ≤ events.length := by
    rw [length_take]
    exact Nat.min_le_right _ _
  have replayedPart := fromEvents_ok_iff.mpr ⟨kept, rfl⟩
  obtain ⟨report, recovered, ledgerEq⟩ :=
    (recover_cutSegment_iff named fits inside short admitted).mpr replayedPart
  rw [← cut] at recovered
  refine ⟨report, recovered, ?_, ?_⟩
  · rw [ledgerEq]
  · rw [trailingPartialBytes_of_recover recovered, length_take]

/-- A replayed history passes the chain check of the writer. -/
theorem verifyHashChain_of_replayed {events : List RunEvent}
    (replayed : fromEvents blake3 runId events = .ok ledger) :
    ledger.verifyHashChain blake3 = true := by
  have links : ∀ (events : List RunEvent) (cursor : Cursor),
      Along Cursor.advance (Cursor.Replays blake3 runId) cursor events →
      verifyHashChain.links blake3 cursor.previousEventHash events = true := by
    intro events
    induction events with
    | nil => exact fun _ _ => rfl
    | cons event events ih =>
        intro cursor history
        have valid : event.isValid blake3 := RunEvent.isValid_iff.mpr
          ⟨history.1.wellFormed, history.1.run ▸ history.1.namedRun, history.1.numbered⟩
        rw [verifyHashChain.links, history.1.chained, beq_self_eq_true, valid]
        exact ih (cursor.advance event) history.2
  rw [verifyHashChain, events_of_fromEvents replayed]
  exact links events {} (fromEvents_ok_iff.mp replayed).1

theorem readLedgerMmap_encodeSegment {events : List RunEvent}
    (fits : headerBytes + events.length * recordBytes ≤ u64Max)
    (replayed : fromEvents blake3 runId events = .ok ledger) :
    readLedgerMmap blake3 (encodeSegment blake3 runId events)
      (binaryRunEventPayloadHash blake3 (events.map (encodeBinaryRunEventRecord blake3))) =
        .ok ledger := by
  have history := (fromEvents_ok_iff.mp replayed).1
  have admitted := admitted_encodeSegment fits (history.imp fun _ _ rule => rule.toAdmits)
  have decoded : (recordsOf (encodeSegment blake3 runId events) events.length).mapM
      (decodeBinaryRunEventRecord blake3) = .ok events := by
    refine decodeAll_ok_iff.mpr ⟨fun record member => ⟨admitted.records record member, ?_⟩, ?_⟩
    · have spelled : segmentEvents (encodeSegment blake3 runId events) events.length = events :=
        segmentEvents_encodeSegment events
      refine isValid_of_along_replays history _ ?_
      rw [← spelled]
      exact mem_map_of_mem member
    · exact (segmentEvents_encodeSegment events).symm
  simp only [readLedgerMmap, bind_eq_ok_iff]
  refine ⟨_, admitted.head, (), admitted.length, events, decoded, ?_⟩
  rw [ite_error_eq_ok_iff, bne_iff_ne, not_not]
  exact ⟨admitted.payload, reportAs_ok_iff.mpr replayed⟩

end BinaryRunEventSegment

open BinaryRunEventSegment

/-- Decoding inverts encoding and encoding inverts decoding. A live ledger with events is
written, read back as it is, and recovered from any cut up to its complete records. -/
theorem binary_segment_round_trips (blake3 : Hasher) :
    (∀ event : RunEvent, event.isValid blake3 →
      decodeBinaryRunEventRecord blake3 (encodeBinaryRunEventRecord blake3 event) = .ok event) ∧
    (∀ record event, decodeBinaryRunEventRecord blake3 record = .ok event →
      encodeBinaryRunEventRecord blake3 event = record) ∧
    (∀ (runId : RunId) (calls : List AppendCall),
      let live := run (RunEventLedger.step blake3) (RunEventLedger.new runId) calls
      live.events ≠ [] → headerBytes + live.events.length * recordBytes ≤ u64Max →
      ∃ bytes hash, writeLedger blake3 live = .ok (bytes, hash) ∧
        readLedgerMmap blake3 bytes hash = .ok live ∧
        ∀ n, headerBytes ≤ n → ∃ report,
          recoverLastValidPrefixMmap blake3 (bytes.take n) = .ok report ∧
          report.ledger.events = live.events.take ((n - headerBytes) / recordBytes) ∧
          report.trailingPartialBytes = (min n bytes.length - headerBytes) % recordBytes) := by
  refine ⟨?_, ?_, ?_⟩
  · intro event valid
    have spelled := recordEvent_encodeRecord blake3 event
    exact decodeBinaryRunEventRecord_ok_iff.mpr
      ⟨recordWellFormed_encodeRecord blake3 event, spelled.symm, valid⟩
  · intro record event decoded
    obtain ⟨wellFormed, rfl, -⟩ := decodeBinaryRunEventRecord_ok_iff.mp decoded
    exact encodeRecord_recordEvent wellFormed
  · intro runId calls live nonempty fits
    have replayed : fromEvents blake3 runId live.events = .ok live :=
      run_reproduced calls
    have run : live.runId = runId := runId_of_fromEvents replayed
    have named : runId ≠ 0 := by
      obtain ⟨first, rest, whole⟩ := exists_cons_of_ne_nil nonempty
      have history := (fromEvents_ok_iff.mp replayed).1
      rw [whole] at history
      exact history.1.namedRun
    have count : live.events.length < 2 ^ 64 := by
      rw [recordBytes, headerBytes, u64Max] at fits
      omega
    have chained := verifyHashChain_of_replayed replayed
    have written : writeLedger blake3 live = .ok (encodeSegment blake3 runId live.events,
        binaryRunEventPayloadHash blake3
          (live.events.map (encodeBinaryRunEventRecord blake3))) := by
      rw [writeLedger, chained, run, isEmpty_eq_false_iff.mpr nonempty]
      rfl
    refine ⟨_, _, written, readLedgerMmap_encodeSegment fits replayed, ?_⟩
    exact fun n behind => recover_take_encodeSegment named count replayed behind

end Aegis.Replay
