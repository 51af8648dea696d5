import AegisCognition.Replay.BinaryAgreement

/-!
# Recovery of a damaged segment

Recovery keeps the records up to the first one that the record scan refuses, and then
replays what it has kept. The two validators differ, so a record that only the scan
accepts makes the whole recovery fail. Under a named run the one such record is a second
goal intake, correctly chained, right after the longest valid prefix.
-/

namespace Aegis.Replay

open Foundation RunEventLedger Cursor List

namespace BinaryRunEventSegment

variable {blake3 : Hasher} {runId : RunId} {records : List (List UInt8)} {ledger : RunEventLedger}

/-- The complete records of a file within the count that its header declares. -/
def completeRecords (bytes : List UInt8) (header : Header) : List (List UInt8) :=
  recordsOf bytes (completeRecordCount bytes header.eventCount)

section

variable (blake3 : Hasher) (runId : RunId) (records : List (List UInt8))

/-- The first `n` records decode and are accepted together by replay, as this ledger. -/
def ValidPrefix (n : Nat) (ledger : RunEventLedger) : Prop :=
  n ≤ records.length ∧ ∃ events,
    (records.take n).mapM (decodeBinaryRunEventRecord blake3) = .ok events ∧
    fromEvents blake3 runId events = .ok ledger

def LongestValidPrefix (ledger : RunEventLedger) : Prop :=
  ∃ n, ValidPrefix blake3 runId records n ledger ∧
    ∀ m other, ValidPrefix blake3 runId records m other → m ≤ n

/-- No valid prefix that holds a goal intake is followed by a record that decodes to another
one at the right place in the chain. -/
def NoRepeatedIntake : Prop :=
  ∀ n ledger event, ValidPrefix blake3 runId records n ledger → (h : n < records.length) →
    decodeBinaryRunEventRecord blake3 records[n] = .ok event →
    event.kind = .goalIntakeRecorded → event.runId = runId →
    event.eventId = BitVec.ofNat 64 n + 1 → event.previousEventHash = ledger.lastHash →
    ∀ earlier ∈ ledger.events, earlier.kind ≠ .goalIntakeRecorded

/-- The records up to the first one that the scan refuses. -/
def scannedPrefix : List (List UInt8) :=
  acceptedPrefix (scanRecord blake3 runId) {} records

end

theorem decodeRecord_of_admitted {cursor : Cursor} {record : List UInt8} (named : runId ≠ 0)
    (fits : cursor.index + 1 < 2 ^ 64) (wellFormed : RecordWellFormed blake3 record)
    (admitted : cursor.Admits blake3 runId (recordEvent record)) :
    decodeBinaryRunEventRecord blake3 record = .ok (recordEvent record) := by
  refine decodeBinaryRunEventRecord_ok_iff.mpr ⟨wellFormed, rfl, ?_⟩
  exact RunEvent.isValid_iff.mpr ⟨admitted.wellFormed, admitted.run ▸ named,
    admitted.position ▸ position_ne_zero fits⟩

/-- Under a named run, decoding never fails on what the scan has accepted. -/
theorem recoverRecords_ok (named : runId ≠ 0) {cursor : Cursor}
    (fits : cursor.index + records.length < 2 ^ 64) :
    ∃ last, recoverRecords blake3 runId cursor records =
      .ok ((acceptedPrefix (scanRecord blake3 runId) cursor records).map recordEvent, last) := by
  induction records generalizing cursor with
  | nil => exact ⟨_, rfl⟩
  | cons record records ih =>
      rw [length_cons] at fits
      simp only [recoverRecords, acceptedPrefix]
      cases scanned : scanRecord blake3 runId cursor record with
      | error => exact ⟨_, rfl⟩
      | ok next =>
          obtain ⟨⟨wellFormed, admitted⟩, rfl⟩ := (scanRecord_guards cursor record next).mp scanned
          have decoded := decodeRecord_of_admitted named (by omega) wellFormed admitted
          have rest : (cursor.advance (recordEvent record)).index + records.length < 2 ^ 64 := by
            rw [advance_index]
            omega
          obtain ⟨last, recovered⟩ := ih rest
          refine ⟨last, ?_⟩
          simp only [decoded, recovered, bind, Except.bind, pure, Except.pure, map_cons]

/-- What the scan has kept are well-formed records of an admitted history. -/
theorem scannedPrefix_admitted :
    (∀ record ∈ scannedPrefix blake3 runId records, RecordWellFormed blake3 record) ∧
      Along Cursor.advance (Cursor.Admits blake3 runId) {}
        ((scannedPrefix blake3 runId records).map recordEvent) := by
  have accepted : Along (fun cursor record => Cursor.advance cursor (recordEvent record)) _ {}
      (scannedPrefix blake3 runId records) := scanRecord_guards.along_acceptedPrefix
  simpa only [along_and, along_const, along_map] using accepted

theorem prefix_scannedPrefix {pre : List (List UInt8)} (isPrefix : pre <+: records)
    (wellFormed : ∀ record ∈ pre, RecordWellFormed blake3 record)
    (history : Along Cursor.advance (Cursor.Admits blake3 runId) {} (pre.map recordEvent)) :
    pre <+: scannedPrefix blake3 runId records := by
  refine scanRecord_guards.prefix_acceptedPrefix isPrefix ?_
  simp only [along_and, along_const, along_map]
  exact ⟨wellFormed, history⟩

theorem validPrefix_iff {n : Nat} :
    ValidPrefix blake3 runId records n ledger ↔ n ≤ records.length ∧
      (∀ record ∈ records.take n, RecordWellFormed blake3 record) ∧
      fromEvents blake3 runId ((records.take n).map recordEvent) = .ok ledger := by
  simp only [ValidPrefix, decodeAll_ok_iff]
  refine and_congr_right fun _ => ?_
  constructor
  · rintro ⟨events, ⟨decoded, rfl⟩, replayed⟩
    exact ⟨fun record member => (decoded record member).1, replayed⟩
  · rintro ⟨wellFormed, replayed⟩
    refine ⟨_, ⟨fun record member => ⟨wellFormed record member, ?_⟩, rfl⟩, replayed⟩
    exact isValid_of_along_replays (fromEvents_ok_iff.mp replayed).1 _
      (mem_map_of_mem member)

theorem readUsizeLe_lt {bytes : List UInt8} {offset value : Nat}
    (read : readUsizeLe bytes offset = .ok value) : value < 2 ^ 64 := by
  unfold readUsizeLe at read
  cases word : readU64Le bytes offset with
  | error => simp [word, Except.map] at read
  | ok word' =>
      rw [word] at read
      cases read
      exact word'.isLt

section

variable {bytes : List UInt8} {header : Header} (head : readHeader blake3 bytes = .ok header)
include bytes head

theorem eventCount_lt_of_readHeader : header.eventCount < 2 ^ 64 := by
  simp only [readHeader, ite_error_eq_ok_iff, bind_eq_ok_iff] at head
  obtain ⟨-, -, _, -, -, _, -, -, _, -, -, count, read, _, -, _, -, -, done⟩ := head
  cases done
  exact readUsizeLe_lt read

theorem length_completeRecords_lt : (completeRecords bytes header).length < 2 ^ 64 := by
  have bound := eventCount_lt_of_readHeader head
  simp only [completeRecords, recordsOf, length_map, length_range, completeRecordCount]
  omega

/-- Recovery succeeds exactly when replay accepts what the scan has kept. -/
theorem recover_ok_iff (named : header.runId ≠ 0) :
    (∃ report, recoverLastValidPrefixMmap blake3 bytes = .ok report ∧ report.ledger = ledger) ↔
      fromEvents blake3 header.runId
        ((scannedPrefix blake3 header.runId (completeRecords bytes header)).map recordEvent) =
          .ok ledger := by
  have fits : ({} : Cursor).index + (completeRecords bytes header).length < 2 ^ 64 := by
    simpa using length_completeRecords_lt head
  obtain ⟨last, recovered⟩ :
      ∃ last, recoverRecords blake3 header.runId {} (completeRecords bytes header) =
        .ok ((scannedPrefix blake3 header.runId (completeRecords bytes header)).map recordEvent,
          last) :=
    recoverRecords_ok named fits
  rw [completeRecords] at recovered
  simp only [recoverLastValidPrefixMmap, head, bind_eq_ok_iff, reportAs_ok_iff, Except.ok.injEq,
    exists_eq_left', recovered, completeRecords]
  constructor
  · rintro ⟨report, ⟨ledger, replayed, done⟩, rfl⟩
    cases done
    exact replayed
  · intro replayed
    exact ⟨_, ⟨ledger, replayed, rfl⟩, rfl⟩

end

/-- When replay accepts what the scan has kept, that is the longest valid prefix. -/
theorem longestValidPrefix_of_replayed
    (replayed : fromEvents blake3 runId
      ((scannedPrefix blake3 runId records).map recordEvent) = .ok ledger) :
    LongestValidPrefix blake3 runId records ledger := by
  have kept : scannedPrefix blake3 runId records <+: records := acceptedPrefix_isPrefix
  have taken := prefix_iff_eq_take.mp kept
  refine ⟨(scannedPrefix blake3 runId records).length, ?_, ?_⟩
  · rw [validPrefix_iff, ← taken]
    exact ⟨kept.length_le, scannedPrefix_admitted.1, replayed⟩
  · intro m other valid
    obtain ⟨inside, wellFormed, replayed⟩ := validPrefix_iff.mp valid
    have history := (fromEvents_ok_iff.mp replayed).1
    have shorter := prefix_scannedPrefix (List.take_prefix m records) wellFormed
      (history.imp fun _ _ rule => rule.toAdmits)
    simpa [Nat.min_eq_left inside] using shorter.length_le

/-- Without a repeated goal intake after a valid prefix, replay accepts what the scan has
kept. -/
theorem replayed_of_noRepeatedIntake (named : runId ≠ 0) (fits : records.length < 2 ^ 64)
    (single : NoRepeatedIntake blake3 runId records) :
    ∃ ledger, fromEvents blake3 runId
      ((scannedPrefix blake3 runId records).map recordEvent) = .ok ledger := by
  obtain ⟨wellFormed, history⟩ := scannedPrefix_admitted
  obtain accepted | ⟨before, event, after, split, valid, admitted, refused⟩ :=
    history.or_first_failure
  · exact ⟨_, fromEvents_ok_iff.mpr ⟨accepted, rfl⟩⟩
  · -- The record at the first failure is a second goal intake after a valid prefix.
    exfalso
    obtain ⟨first, second, kept, rfl, secondSplit⟩ := map_eq_append_iff.mp split
    obtain ⟨record, rest, rfl, rfl, -⟩ := map_eq_cons_iff.mp secondSplit
    obtain ⟨unread, whole⟩ : scannedPrefix blake3 runId records <+: records :=
      acceptedPrefix_isPrefix
    rw [kept] at whole wellFormed
    have whole : records = first ++ record :: (rest ++ unread) := by rw [← whole]; simp
    have place : first.length < records.length := by rw [whole]; simp
    have replayed := fromEvents_ok_iff.mpr ⟨valid, rfl⟩
    have index : (run Cursor.advance {} (first.map recordEvent)).index + 1 < 2 ^ 64 := by
      simp only [run_index, length_map, Nat.zero_add]
      omega
    have cursor := cursor_of_fromEvents replayed
    have intake : (recordEvent record).kind = .goalIntakeRecorded ∧
        (run Cursor.advance {} (first.map recordEvent)).hasGoalIntakeRecorded = true := by
      rw [replays_iff_of_fits index] at refused
      by_contra none
      refine refused ⟨admitted, named, fun kind => ?_⟩
      simpa using fun has => none ⟨kind, has⟩
    have validFirst := validPrefix_iff.mpr (show first.length ≤ records.length ∧
        (∀ record ∈ records.take first.length, RecordWellFormed blake3 record) ∧
        fromEvents blake3 runId ((records.take first.length).map recordEvent) = _ by
      rw [show records.take first.length = first by rw [whole]; simp]
      exact ⟨place.le, fun r member => wellFormed r (mem_append_left _ member), replayed⟩)
    have decoded : decodeBinaryRunEventRecord blake3 records[first.length] =
        .ok (recordEvent record) := by
      rw [show records[first.length] = record by simp [whole]]
      exact decodeRecord_of_admitted named index
        (wellFormed record (mem_append_right _ mem_cons_self)) admitted
    have quiet := single _ _ _ validFirst place decoded intake.1 admitted.run
      (by simpa using admitted.position) (by rw [admitted.chained, cursor]; rfl)
    rw [cursor] at intake
    obtain ⟨earlier, member, kind⟩ :=
      (hasGoalIntakeRecorded_of_fromEvents replayed).mp intake.2
    exact quiet earlier member kind

/-- When replay accepts what the scan has kept, no goal intake is repeated after a valid
prefix. -/
theorem noRepeatedIntake_of_replayed
    (replayed : fromEvents blake3 runId
      ((scannedPrefix blake3 runId records).map recordEvent) = .ok ledger) :
    NoRepeatedIntake blake3 runId records := by
  intro n early event valid place decoded kind sameRun position chained earlier member kind'
  obtain ⟨-, wellFormed, replayedEarly⟩ := validPrefix_iff.mp valid
  obtain ⟨formed, rfl, isValid⟩ := decodeBinaryRunEventRecord_ok_iff.mp decoded
  have history := (fromEvents_ok_iff.mp replayedEarly).1
  have cursor := cursor_of_fromEvents replayedEarly
  have admitted : Cursor.Admits blake3 runId
      (run Cursor.advance {} ((records.take n).map recordEvent)) (recordEvent records[n]) := by
    refine ⟨(RunEvent.isValid_iff.mp isValid).1, sameRun, ?_, ?_,
      ReplayFlags.allows_goalIntake kind⟩
    · simpa [Nat.min_eq_left place.le] using position
    · rw [chained, cursor]
      rfl
  have next : records.take (n + 1) = records.take n ++ [records[n]] := by simp
  have longer := prefix_scannedPrefix (List.take_prefix (n + 1) records) (by
      rw [next]
      intro record member
      obtain member | member := mem_append.mp member
      · exact wellFormed record member
      · exact mem_singleton.mp member ▸ formed) (by
      rw [next, map_append, along_append]
      exact ⟨history.imp fun _ _ rule => rule.toAdmits, admitted, trivial⟩)
  obtain ⟨tail, split⟩ := longer
  have rules := (fromEvents_ok_iff.mp replayed).1
  rw [← split, next, append_assoc, map_append, map_append] at rules
  have once := rules.at_step.oneGoalIntake kind
  rw [cursor] at once
  have intake := (hasGoalIntakeRecorded_of_fromEvents replayedEarly).mpr
    ⟨earlier, by rwa [events_of_fromEvents replayedEarly] at member, kind'⟩
  exact absurd (intake.symm.trans once) nofun

/-- A segment that is cut behind its header: the records of these events are complete, and
less than a record of what followed them is left. -/
def cutSegment (blake3 : Hasher) (runId : RunId) (count : Nat) (events : List RunEvent)
    (rest : List UInt8) : List UInt8 :=
  encodeHeader blake3 runId count ++
    ((events.map (encodeBinaryRunEventRecord blake3)).flatten ++ rest)

section Cut

variable {count : Nat} {events : List RunEvent} {rest : List UInt8}

theorem length_cutSegment :
    (cutSegment blake3 runId count events rest).length =
      headerBytes + (events.length * recordBytes + rest.length) := by
  have whole : (encodeSegment blake3 runId events).length = _ := length_encodeSegment events
  simp only [encodeSegment, cutSegment, length_append, length_encodeHeader] at whole ⊢
  omega

theorem readHeader_cutSegment (fits : count < 2 ^ 64) :
    readHeader blake3 (cutSegment blake3 runId count events rest) =
      .ok { eventCount := count, runId } :=
  readHeader_encodeHeader blake3 runId fits _

theorem completeRecords_cutSegment (inside : events.length ≤ count)
    (short : rest.length < recordBytes) :
    completeRecords (cutSegment blake3 runId count events rest) { eventCount := count, runId } =
      events.map (encodeBinaryRunEventRecord blake3) := by
  have complete : completeRecordCount (cutSegment blake3 runId count events rest) count =
      (events.map (encodeBinaryRunEventRecord blake3)).length := by
    rw [completeRecordCount, length_cutSegment, Nat.add_sub_cancel_left, length_map]
    rw [recordBytes] at short ⊢
    omega
  rw [completeRecords, complete]
  exact recordsOf_append (length_encodeHeader blake3 runId count) (length_of_mem_records _)

/-- Recovery of a cut segment of an admitted history gives what replay gives of the events
that are left. -/
theorem recover_cutSegment_iff (named : runId ≠ 0) (fits : count < 2 ^ 64)
    (inside : events.length ≤ count) (short : rest.length < recordBytes)
    (history : Along Cursor.advance (Cursor.Admits blake3 runId) {} events) :
    (∃ report, recoverLastValidPrefixMmap blake3 (cutSegment blake3 runId count events rest) =
        .ok report ∧ report.ledger = ledger) ↔
      fromEvents blake3 runId events = .ok ledger := by
  have spelled : (events.map (encodeBinaryRunEventRecord blake3)).map recordEvent = events := by
    simp [Function.comp_def, recordEvent_encodeRecord]
  have whole : scannedPrefix blake3 runId (events.map (encodeBinaryRunEventRecord blake3)) =
      events.map (encodeBinaryRunEventRecord blake3) := by
    refine acceptedPrefix_isPrefix.eq_of_length_le ?_
    refine (prefix_scannedPrefix prefix_rfl ?_ (by rwa [spelled])).length_le
    intro record member
    obtain ⟨event, -, rfl⟩ := mem_map.mp member
    exact recordWellFormed_encodeRecord blake3 event
  rw [recover_ok_iff (readHeader_cutSegment fits) named, completeRecords_cutSegment inside short,
    whole, spelled]

end Cut

end BinaryRunEventSegment

open BinaryRunEventSegment

/-- Recovery returns the longest valid prefix exactly when no valid prefix with a goal
intake is followed by a record of another one at the right place. -/
theorem recovery_longest_prefix_iff (blake3 : Hasher) (bytes : List UInt8) (header : Header)
    (head : readHeader blake3 bytes = .ok header) (named : header.runId ≠ 0) :
    (∃ report, recoverLastValidPrefixMmap blake3 bytes = .ok report ∧
        LongestValidPrefix blake3 header.runId (completeRecords bytes header) report.ledger) ↔
      NoRepeatedIntake blake3 header.runId (completeRecords bytes header) := by
  constructor
  · rintro ⟨report, recovered, -⟩
    have replayed := (recover_ok_iff head named).mp ⟨report, recovered, rfl⟩
    exact noRepeatedIntake_of_replayed replayed
  · intro single
    obtain ⟨ledger, replayed⟩ :=
      replayed_of_noRepeatedIntake named (length_completeRecords_lt head) single
    obtain ⟨report, recovered, rfl⟩ := (recover_ok_iff head named).mpr replayed
    exact ⟨report, recovered, longestValidPrefix_of_replayed replayed⟩

/-- A segment of two events, torn one byte after its first record, which is a goal intake. -/
def tornSegment (blake3 : Hasher) : List UInt8 :=
  cutSegment blake3 1 2 [firstIntake blake3] [0]

theorem completeRecords_tornSegment (blake3 : Hasher) :
    completeRecords (tornSegment blake3) { eventCount := 2, runId := 1 } =
      [encodeBinaryRunEventRecord blake3 (firstIntake blake3)] :=
  completeRecords_cutSegment (Nat.le_succ 1) (by decide)

/-- Under any hash function, the torn segment is recovered. -/
theorem tornSegment_recovered :
    (1 : RunId) ≠ 0 ∧ ∀ blake3 : Hasher, ∃ report,
      recoverLastValidPrefixMmap blake3 (tornSegment blake3) = .ok report ∧
      LongestValidPrefix blake3 1 [encodeBinaryRunEventRecord blake3 (firstIntake blake3)]
        report.ledger := by
  refine ⟨by decide, fun blake3 => ?_⟩
  have head : readHeader blake3 (tornSegment blake3) = .ok { eventCount := 2, runId := 1 } :=
    readHeader_cutSegment (by decide)
  rw [← completeRecords_tornSegment]
  refine (recovery_longest_prefix_iff blake3 (tornSegment blake3) _ head (by decide)).mpr ?_
  rw [completeRecords_tornSegment]
  intro n ledger event valid place _ _ _ _ _
  obtain rfl : n = 0 := by simpa using place
  obtain ⟨-, -, replayed⟩ := validPrefix_iff.mp valid
  rw [events_of_fromEvents replayed]
  nofun

/-- Under any hash function, recovery fails on an intact segment of two goal intakes. -/
theorem repeatedIntake_not_recovered :
    ¬ ∃ blake3 : Hasher, ∀ bytes header, readHeader blake3 bytes = .ok header →
      header.runId ≠ 0 →
      ∃ report, recoverLastValidPrefixMmap blake3 bytes = .ok report ∧
        LongestValidPrefix blake3 header.runId (completeRecords bytes header) report.ledger := by
  rintro ⟨blake3, recovers⟩
  have head : readHeader blake3 (cutSegment blake3 1 2 (repeatedIntake blake3) []) =
      .ok { eventCount := 2, runId := 1 } := readHeader_cutSegment (by decide)
  obtain ⟨report, recovered, -⟩ := recovers _ _ head (by decide : (1 : RunId) ≠ 0)
  have inside : (repeatedIntake blake3).length ≤ 2 := le_rfl
  have replayed := (recover_cutSegment_iff (by decide) (by decide : 2 < 2 ^ 64) inside (by decide)
    (repeatedIntake_admitted blake3)).mp ⟨report, recovered, rfl⟩
  exact repeatedIntake_not_replayed blake3 report.ledger replayed

end Aegis.Replay
