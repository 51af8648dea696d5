import AegisCognition.Replay.Equivalence
import AegisCognition.Replay.BinaryRecord

/-!
# The scans against full replay

A scan and a full replay of the same bytes, or of the same rows, agree unless a history
that keeps the shared rules names no run or records a second goal intake.
-/

namespace Aegis.Replay

open Foundation RunEventLedger

namespace BinaryRunEventSegment

variable {blake3 : Hasher} {bytes : List UInt8} {expected : Hash}

/-- The events that the declared records of a segment spell. -/
def segmentEvents (bytes : List UInt8) (count : Nat) : List RunEvent :=
  (recordsOf bytes count).map recordEvent

/-- The segment keeps the shared rules: its header, its length, each of its records, the
history they spell and the payload hash. -/
structure Admitted (blake3 : Hasher) (bytes : List UInt8) (expected : Hash) (header : Header) :
    Prop where
  head : readHeader blake3 bytes = .ok header
  length : checkLength bytes header.eventCount = .ok ()
  records : ∀ record ∈ recordsOf bytes header.eventCount, RecordWellFormed blake3 record
  history : Along Cursor.advance (Cursor.Admits blake3 header.runId) {}
    (segmentEvents bytes header.eventCount)
  payload : binaryRunEventPayloadHash blake3 (recordsOf bytes header.eventCount) = expected

variable {runId : RunId}

theorem scan_ok_iff {records : List (List UInt8)} :
    (∃ last, records.foldlM (scanRecord blake3 runId) {} = .ok last) ↔
      (∀ record ∈ records, RecordWellFormed blake3 record) ∧
        Along Cursor.advance (Cursor.Admits blake3 runId) {} (records.map recordEvent) := by
  simp only [scanRecord_guards.scan_ok_iff, exists_and_left, exists_eq, and_true, along_and,
    along_const, along_map]

theorem verifyMmap_ok_iff :
    (∃ report, verifyMmap blake3 bytes expected = .ok report) ↔
      ∃ header, Admitted blake3 bytes expected header := by
  simp only [verifyMmap, bind_eq_ok_iff, ite_error_eq_ok_iff, bne_iff_ne, ne_eq, not_not]
  constructor
  · rintro ⟨report, header, head, ⟨⟩, length, last, scanned, payload, -⟩
    obtain ⟨records, history⟩ := scan_ok_iff.mp ⟨last, scanned⟩
    exact ⟨header, head, length, records, history, payload⟩
  · rintro ⟨header, admitted⟩
    obtain ⟨last, scanned⟩ := scan_ok_iff.mpr ⟨admitted.records, admitted.history⟩
    exact ⟨_, header, admitted.head, (), admitted.length, last, scanned, admitted.payload, rfl⟩

theorem segmentEvents_encodeSegment (events : List RunEvent) :
    segmentEvents (encodeSegment blake3 runId events) events.length = events := by
  rw [segmentEvents, recordsOf_encodeSegment, List.map_map]
  simp [Function.comp_def, recordEvent_encodeRecord]

/-- A segment written from a history that keeps the shared rules keeps them too. -/
theorem admitted_encodeSegment {events : List RunEvent}
    (fits : headerBytes + events.length * recordBytes ≤ u64Max)
    (history : Along Cursor.advance (Cursor.Admits blake3 runId) {} events) :
    Admitted blake3 (encodeSegment blake3 runId events)
      (binaryRunEventPayloadHash blake3 (events.map (encodeBinaryRunEventRecord blake3)))
      { eventCount := events.length, runId } where
  head := by
    apply readHeader_encodeHeader
    rw [headerBytes, recordBytes, u64Max] at fits
    omega
  length := by
    have mul : ¬ u64Max < events.length * recordBytes := by omega
    have add : ¬ u64Max < headerBytes + events.length * recordBytes := by omega
    simp [checkLength, mul, add, length_encodeSegment]
  records := by
    intro record member
    rw [recordsOf_encodeSegment] at member
    obtain ⟨event, -, rfl⟩ := List.mem_map.mp member
    exact recordWellFormed_encodeRecord blake3 event
  history := by
    rw [segmentEvents_encodeSegment]
    exact history
  payload := by rw [recordsOf_encodeSegment]

theorem eventCount_lt {count : Nat} (length : checkLength bytes count = .ok ()) :
    count < 2 ^ 64 := by
  rw [checkLength, ite_error_eq_ok_iff, Bool.or_eq_true, not_or] at length
  have bound := length.1.1
  rw [decide_eq_true_iff, recordBytes] at bound
  unfold u64Max at bound
  omega

theorem decodeAll_ok_iff {records : List (List UInt8)} {events : List RunEvent} :
    records.mapM (decodeBinaryRunEventRecord blake3) = .ok events ↔
      (∀ record ∈ records, RecordWellFormed blake3 record ∧ (recordEvent record).isValid blake3) ∧
        events = records.map recordEvent := by
  refine mapM_eq_ok_iff fun record event => ?_
  rw [decodeBinaryRunEventRecord_ok_iff]
  constructor
  · rintro ⟨wellFormed, rfl, valid⟩
    exact ⟨⟨wellFormed, valid⟩, rfl⟩
  · rintro ⟨⟨wellFormed, valid⟩, rfl⟩
    exact ⟨wellFormed, rfl, valid⟩

theorem isValid_of_along_replays {events : List RunEvent}
    (h : Along Cursor.advance (Cursor.Replays blake3 runId) {} events) :
    ∀ event ∈ events, event.isValid blake3 := by
  refine along_const.mp (h.imp fun cursor event rule => ?_)
  exact RunEvent.isValid_iff.mpr ⟨rule.wellFormed, rule.run ▸ rule.namedRun, rule.numbered⟩

/-- Decoding all records and replaying what they spell asks for well-formed records and a
replayable history. -/
theorem decodeAll_replay_iff {records : List (List UInt8)} :
    (∃ events ledger, records.mapM (decodeBinaryRunEventRecord blake3) = .ok events ∧
      fromEvents blake3 runId events = .ok ledger) ↔
    (∀ record ∈ records, RecordWellFormed blake3 record) ∧
      Along Cursor.advance (Cursor.Replays blake3 runId) {} (records.map recordEvent) := by
  simp only [decodeAll_ok_iff, fromEvents_ok_iff]
  constructor
  · rintro ⟨events, ledger, ⟨records, rfl⟩, history, -⟩
    exact ⟨fun record member => (records record member).1, history⟩
  · rintro ⟨wellFormed, history⟩
    refine ⟨_, _, ⟨fun record member => ⟨wellFormed record member, ?_⟩, rfl⟩, history, rfl⟩
    exact isValid_of_along_replays history _ (List.mem_map_of_mem member)

theorem reportAs_ok_iff {ε α : Type} {text : String} {result : Except ε α} {value : α} :
    reportAs text result = .ok value ↔ result = .ok value := by
  cases result <;> simp [reportAs, Except.mapError]

theorem readLedgerMmap_ok_iff :
    (∃ ledger, readLedgerMmap blake3 bytes expected = .ok ledger) ↔
      ∃ header, Admitted blake3 bytes expected header ∧
        NamedOnce header.runId (segmentEvents bytes header.eventCount) := by
  have fits {header : Header} (length : checkLength bytes header.eventCount = .ok ()) :
      (segmentEvents bytes header.eventCount).length < 2 ^ 64 := by
    simpa [segmentEvents, recordsOf] using eventCount_lt length
  simp only [readLedgerMmap, bind_eq_ok_iff, ite_error_eq_ok_iff, bne_iff_ne, ne_eq, not_not,
    reportAs_ok_iff]
  constructor
  · rintro ⟨ledger, header, head, ⟨⟩, length, events, decoded, payload, replayed⟩
    obtain ⟨records, history⟩ := decodeAll_replay_iff.mp ⟨events, ledger, decoded, replayed⟩
    obtain ⟨history, named⟩ := (Cursor.along_replays_iff (fits length)).mp history
    exact ⟨header, ⟨head, length, records, history, payload⟩, named⟩
  · rintro ⟨header, admitted, named⟩
    have history := (Cursor.along_replays_iff (fits admitted.length)).mpr ⟨admitted.history, named⟩
    obtain ⟨events, ledger, decoded, replayed⟩ :=
      decodeAll_replay_iff.mpr ⟨admitted.records, history⟩
    exact ⟨ledger, header, admitted.head, (), admitted.length, events, decoded,
      admitted.payload, replayed⟩

/-- Whatever the header says, the segment names a run and records at most one goal intake. -/
def SegmentNamedOnce (blake3 : Hasher) (bytes : List UInt8) : Prop :=
  ∀ header, readHeader blake3 bytes = .ok header →
    NamedOnce header.runId (segmentEvents bytes header.eventCount)

end BinaryRunEventSegment

open BinaryRunEventSegment in
/-- The scans agree with full replay exactly on what breaks a shared rule or names its run
and records at most one goal intake. -/
theorem scans_agree_with_replay_iff (blake3 : Hasher) (bytes : List UInt8) (expected : Hash)
    (runId : RunId) (rows : List RunEvent) (fits : rows.length < 2 ^ 64) :
    (((∃ report, verifyMmap blake3 bytes expected = .ok report) ↔
        ∃ ledger, readLedgerMmap blake3 bytes expected = .ok ledger) ↔
      ((∃ header, Admitted blake3 bytes expected header) → SegmentNamedOnce blake3 bytes)) ∧
    (((∃ last, columnScan blake3 runId rows = .ok last) ↔
        ∃ ledger, fromEvents blake3 runId rows = .ok ledger) ↔
      (Along Cursor.advance (Cursor.Admits blake3 runId) {} rows → NamedOnce runId rows)) := by
  constructor
  · rw [verifyMmap_ok_iff, readLedgerMmap_ok_iff]
    constructor
    · rintro agree admitted header head
      obtain ⟨other, accepted, named⟩ := agree.mp admitted
      obtain rfl : header = other := Except.ok.inj (head.symm.trans accepted.head)
      exact named
    · intro condition
      constructor
      · rintro ⟨header, admitted⟩
        exact ⟨header, admitted, condition ⟨header, admitted⟩ header admitted.head⟩
      · rintro ⟨header, admitted, -⟩
        exact ⟨header, admitted⟩
  · simp only [columnScan_ok_iff, fromEvents_ok_iff, exists_and_left, exists_eq,
      and_true, Cursor.along_replays_iff fits]
    tauto

/-- The sample history names its run and records one goal intake. -/
theorem sampleHistory_scan_agrees :
    sampleHistory.length < 2 ^ 64 ∧
      ((∃ last, columnScan sampleHasher 7 sampleHistory = .ok last) ↔
        ∃ ledger, fromEvents sampleHasher 7 sampleHistory = .ok ledger) := by
  refine ⟨by decide, ?_⟩
  exact (scans_agree_with_replay_iff sampleHasher [] .zero 7 sampleHistory (by decide)).2.mpr
    fun _ => by decide

/-- A lab event of the run zero, which needs nothing before it. -/
def unnamedLabEvent (blake3 : Hasher) : RunEvent :=
  RunEvent.new blake3 1 0 .labEventRecorded 1 (.fill 1) (some (.fill 2)) .zero

theorem unnamedLabEvent_admitted (blake3 : Hasher) :
    Along Cursor.advance (Cursor.Admits blake3 0) {} [unnamedLabEvent blake3] := by
  refine ⟨⟨⟨rfl, rfl, rfl, fun _ => rfl⟩, rfl, rfl, rfl, ?_⟩, trivial⟩
  exact ⟨nofun, nofun, nofun, nofun, nofun, nofun, nofun⟩

open BinaryRunEventSegment in
/-- Under any hash function, both scans accept the lab event of the run zero, as a segment
and as a row, and full replay refuses it. -/
theorem unnamedLabEvent_scans_disagree :
    (¬ ∃ blake3 : Hasher, ∀ bytes expected,
      (∃ report, verifyMmap blake3 bytes expected = .ok report) ↔
        ∃ ledger, readLedgerMmap blake3 bytes expected = .ok ledger) ∧
    (¬ ∃ blake3 : Hasher, ∀ runId rows,
      (∃ last, columnScan blake3 runId rows = .ok last) ↔
        ∃ ledger, fromEvents blake3 runId rows = .ok ledger) := by
  constructor
  · rintro ⟨blake3, agree⟩
    have fits : headerBytes + [unnamedLabEvent blake3].length * recordBytes ≤ u64Max := by
      show 88 + 1 * 184 ≤ u64Max
      decide
    have admitted := admitted_encodeSegment fits (unnamedLabEvent_admitted blake3)
    obtain ⟨header, accepted, named⟩ := readLedgerMmap_ok_iff.mp
      ((agree _ _).mp (verifyMmap_ok_iff.mpr ⟨_, admitted⟩))
    obtain rfl := Except.ok.inj (admitted.head.symm.trans accepted.head)
    rw [segmentEvents_encodeSegment] at named
    exact named.1.elim (fun h => h rfl) nofun
  · rintro ⟨blake3, agree⟩
    obtain ⟨ledger, replayed⟩ := (agree 0 [unnamedLabEvent blake3]).mp
      ⟨_, columnScan_ok_iff.mpr ⟨unnamedLabEvent_admitted blake3, rfl⟩⟩
    obtain ⟨rule, -⟩ := (fromEvents_ok_iff.mp replayed).1
    exact rule.namedRun rfl

end Aegis.Replay
