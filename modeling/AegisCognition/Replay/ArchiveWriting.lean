import AegisCognition.Replay.ArchiveStream

/-!
# What a finished archive holds

The stream's checking pass makes the shared rules of a history and no others. Along a run
of the stream every sealed segment stays readable: its file holds its events, its sidecar
binds its entry, and the entries form the chain that the manifest check asks for.
-/

namespace Aegis.Replay

open Foundation RunEventSegmentCommitProof RunEventSegmentEntry Cursor List Option

namespace Files

variable {files other : Files} {path : SegmentPath} {bytes : List UInt8}

/-- Every file is still there with its content. -/
def Extends (files other : Files) : Prop :=
  ∀ path bytes, files path = some bytes → other path = some bytes

theorem Extends.trans {third : Files} (h : files.Extends other) (h' : other.Extends third) :
    files.Extends third :=
  fun path bytes found => h' path bytes (h path bytes found)

@[simp] theorem write_self : files.write path bytes path = some bytes :=
  if_pos rfl

theorem extends_write (fresh : files path = none) : files.Extends (files.write path bytes) := by
  intro place content found
  have elsewhere : place ≠ path := by
    rintro rfl
    rw [fresh] at found
    cases found
  rw [Files.write, if_neg elsewhere, found]

end Files

variable {blake3 : Hasher} {arrow : ArrowIpc} {runId : RunId} {files files' : Files}

namespace RunEventSegmentCommitProof

variable {path : SegmentPath} {entry : RunEventSegmentEntry}

theorem readSidecar_of_extends {proof : RunEventSegmentCommitProof}
    (extended : files.Extends files') (read : readSidecar blake3 files path = .ok proof) :
    readSidecar blake3 files' path = .ok proof := by
  unfold readSidecar at read ⊢
  cases found : files path with
  | none => simp [found] at read
  | some bytes =>
      rw [found] at read
      rw [extended path bytes found]
      exact read

theorem writeSidecar_ok (written : writeSidecar blake3 files path runId entry = .ok files') :
    (fromEntry blake3 runId entry).bindsEntry blake3 entry ∧ files.Extends files' ∧
      readSidecar blake3 files' path = .ok (fromEntry blake3 runId entry) := by
  simp only [writeSidecar, ite_error_eq_ok_iff, bind_eq_ok_iff, Bool.not_eq_true',
    Bool.not_eq_false, Bool.not_eq_true, isSome_eq_false_iff, isNone_iff_eq_none]
    at written
  obtain ⟨fresh, binds, recovered, read, done⟩ := written
  split at done
  · rename_i same
    rw [Bool.and_eq_true, beq_iff_eq] at same
    rw [same.1, Except.ok.inj done] at read
    refine ⟨binds, ?_, read⟩
    rw [← Except.ok.inj done]
    exact Files.extends_write fresh
  · cases done

end RunEventSegmentCommitProof

/-- What the reader finds of a sealed segment. -/
structure SealedSegment (blake3 : Hasher) (arrow : ArrowIpc) (runId : RunId) (files : Files)
    (events : List RunEvent) (entry : RunEventSegmentEntry) : Prop where
  nonempty : events ≠ []
  size : events.length ≤ maxEventsPerSegment
  file : files (.segment runId entry.segmentId) =
    some (arrow.encodeStream (batchFromEvents events))
  fileBytes : entry.arrowFileBytes =
    BitVec.ofNat 64 (arrow.encodeStream (batchFromEvents events)).length
  fileHash : entry.arrowFileHash = blake3 (arrow.encodeStream (batchFromEvents events))
  matched : entry.matchesEventsAfterManifestValidation blake3 events
  sidecar : readSidecar blake3 files (.commit runId entry.segmentId) =
    .ok (fromEntry blake3 runId entry)
  bound : (fromEntry blake3 runId entry).bindsEntry blake3 entry

namespace SealedSegment

variable {events : List RunEvent} {entry : RunEventSegmentEntry}

section

variable (h : SealedSegment blake3 arrow runId files events entry)
include h

/-- The fields that the sidecar vouches for. -/
theorem bound_fields :
    (fromEntry blake3 runId entry).commitHash =
        entry.segmentCommitHash ∧
      (fromEntry blake3 runId entry).hasValidFields blake3 ∧
      nonzeroHash entry.segmentCommitHash := by
  have bound := h.bound
  simp only [bindsEntry, bindsEntryFields, isValid, Bool.and_eq_true, beq_iff_eq] at bound
  obtain ⟨⟨⟨-, commit⟩, fields⟩, -, nonzero⟩ := bound
  exact ⟨commit, fields, commit ▸ nonzero⟩

theorem refreshed :
    entry.refreshSegmentCommitHash blake3 runId = entry := by
  rw [refreshSegmentCommitHash, h.bound_fields.1]

theorem span {first last : RunEvent}
    (head : events.head? = some first) (tail : events.getLast? = some last) :
    entry.startEventId = first.eventId ∧ entry.endEventId = last.eventId := by
  have matched := h.matched
  simp only [matchesEventsAfterManifestValidation, matchesEnds, head, tail, any_some,
    Bool.and_eq_true, beq_iff_eq] at matched
  obtain ⟨⟨⟨⟨⟨⟨⟨⟨start, -⟩, stop, -⟩, -⟩, -⟩, -⟩, -⟩, -⟩, -⟩ := matched
  exact ⟨start.symm, stop.symm⟩

theorem toNat_eventCount :
    entry.eventCount.toNat = events.length := by
  have matched := h.matched
  simp only [matchesEventsAfterManifestValidation,
    matchesEnds, Bool.and_eq_true, beq_iff_eq] at matched
  obtain ⟨⟨⟨⟨⟨⟨-, count⟩, -⟩, -⟩, -⟩, -⟩, -⟩ := matched
  have size := h.size
  rw [maxEventsPerSegment] at size
  rw [count, BitVec.toNat_ofNat, Nat.mod_eq_of_lt (by omega)]

/-- A sealed segment that follows the position passes the manifest check. -/
theorem checkEntry_eq {position : RunEventSegmentManifest.Position}
    (segment : entry.segmentId = BitVec.ofNat 64 position.index + 1)
    (previous : entry.previousSegmentHash = position.previousHash)
    (room : position.previousEnd ≠ BitVec.allOnes 64)
    (start : entry.startEventId = position.previousEnd + 1) :
    RunEventSegmentManifest.checkEntry blake3 runId position entry =
      some ⟨position.index + 1, entry.segmentHash, entry.endEventId⟩ := by
  obtain ⟨commit, fields, -⟩ := h.bound_fields
  simp only [hasValidFields, fromEntry, Bool.and_eq_true, bne_iff_ne, beq_iff_eq] at fields
  obtain ⟨⟨⟨⟨⟨⟨⟨⟨⟨⟨⟨-, -⟩, -⟩, ordered⟩, count⟩, schema⟩, size⟩, hash⟩, -⟩, -⟩, -⟩, complete⟩ :=
    fields
  have follows : position.startOk entry.startEventId = true := by
    rw [RunEventSegmentManifest.Position.startOk, start, bne_iff_ne.mpr room, beq_self_eq_true]
    exact Bool.or_true _
  rw [RunEventSegmentManifest.checkEntry, if_pos]
  simp only [Bool.and_eq_true, beq_iff_eq]
  exact ⟨⟨⟨⟨⟨⟨⟨⟨⟨segment, previous⟩, schema⟩, size⟩, hash⟩, commit.symm⟩, complete⟩, ordered⟩,
    count⟩, follows⟩

end

end SealedSegment

theorem RunEventSegmentEntry.fromEvents_ok {segmentId : BitVec 64} {events : List RunEvent}
    {previous : Hash} {fileBytes : BitVec 64} {fileHash : Hash} {entry : RunEventSegmentEntry}
    (made : fromEvents blake3 segmentId events previous fileBytes fileHash
      (.syncedTempPublish true) = .ok entry) :
    entry.matchesEventsAfterManifestValidation blake3 events ∧ entry.segmentId = segmentId ∧
      entry.previousSegmentHash = previous ∧ entry.arrowFileBytes = fileBytes ∧
      entry.arrowFileHash = fileHash := by
  unfold fromEvents at made
  split at made
  · rename_i first last head tail
    rw [ite_error_eq_ok_iff, Bool.or_eq_true, beq_iff_eq, not_or, Bool.not_eq_true',
      Bool.not_eq_false] at made
    obtain ⟨⟨size, nonzero⟩, done⟩ := made
    cases done
    refine ⟨?_, rfl, rfl, rfl, rfl⟩
    have positive : 0 < fileBytes := (BitVec.pos_iff_ne_zero fileBytes).mpr size
    simp only [matchesEventsAfterManifestValidation, matchesEnds, refreshSegmentCommitHash, head,
      tail, any_some, beq_self_eq_true, Bool.and_self, Bool.true_and, Bool.and_true,
      positive, decide_true, nonzero]
    rfl
  · cases made

theorem ofNat_ne_allOnes {n : Nat} (fits : n + 1 < 2 ^ 64) :
    BitVec.ofNat 64 n ≠ BitVec.allOnes 64 := by
  intro same
  have value := congrArg BitVec.toNat same
  rw [BitVec.toNat_ofNat, BitVec.toNat_allOnes] at value
  omega

/-- The id that the stream expects at an index; it stays at the largest one. -/
def eventIdAt (index : Nat) : EventId :=
  BitVec.ofNat 64 (min (index + 1) u64Max)

theorem eventIdAt_of_fits {index : Nat} (fits : index + 1 < 2 ^ 64) :
    eventIdAt index = BitVec.ofNat 64 index + 1 := by
  rw [eventIdAt, Nat.min_eq_left (Nat.le_sub_one_of_lt fits), BitVec.ofNat_add]
  rfl

theorem saturatingNext_eventIdAt (index : Nat) :
    saturatingNext (eventIdAt index) = eventIdAt (index + 1) := by
  by_cases full : u64Max ≤ index + 1
  · rw [eventIdAt, eventIdAt, Nat.min_eq_right full, Nat.min_eq_right (Nat.le_succ_of_le full)]
    rfl
  · have below : index + 1 < 2 ^ 64 - 1 := Nat.lt_of_not_le full
    have moves : eventIdAt index ≠ BitVec.allOnes 64 := by
      rw [eventIdAt, Nat.min_eq_left below.le]
      exact ofNat_ne_allOnes (by omega)
    rw [saturatingNext, if_neg moves, eventIdAt_of_fits (by omega : index + 1 + 1 < 2 ^ 64),
      eventIdAt_of_fits (by omega), BitVec.ofNat_add]
    rfl

/-- What the stream expects after the events that the cursor has read. -/
def ExpectedEvent.after (cursor : Cursor) : ExpectedEvent where
  toReplayFlags := cursor.toReplayFlags
  eventId := eventIdAt cursor.index
  previousHash := cursor.previousEventHash

namespace SegmentedArrowAuditStream

variable {stream next : SegmentedArrowAuditStream}

theorem encodePending_ok {events : List RunEvent} {bytes : List UInt8}
    (encoded : encodePending blake3 arrow events = .ok bytes) :
    bytes = arrow.encodeStream (batchFromEvents events) := by
  rw [encodePending, ite_error_eq_ok_iff] at encoded
  exact (Except.ok.inj encoded.2).symm

/-- Sealing leaves older files alone and makes one more segment, chained to the last. -/
theorem flushSegment_ok (size : stream.pendingEvents.length ≤ Replay.maxEventsPerSegment)
    (flushed : flushSegment blake3 arrow files stream = .ok (files', next)) :
    files.Extends files' ∧ ∃ entry,
      SealedSegment blake3 arrow stream.runId files' stream.pendingEvents entry ∧
      entry.segmentId = BitVec.ofNat 64 stream.entries.length + 1 ∧
      entry.previousSegmentHash = stream.previousSegmentHash ∧
      next = { stream with
        previousSegmentHash := entry.segmentHash
        entries := stream.entries ++ [entry]
        pendingEvents := [] } := by
  simp only [flushSegment, ite_error_eq_ok_iff, bind_eq_ok_iff, Bool.not_eq_true,
    isSome_eq_false_iff, isNone_iff_eq_none, isEmpty_eq_false_iff]
    at flushed
  obtain ⟨nonempty, fresh, -, bytes, encoded, ⟨fileBytes, fileHash⟩, evidence, entry, made,
    committed, written, done⟩ := flushed
  obtain rfl := encodePending_ok encoded
  obtain ⟨rfl, rfl⟩ := Prod.mk.inj (Except.ok.inj done)
  obtain ⟨bound, extended, sidecar⟩ := writeSidecar_ok written
  obtain ⟨matched, segment, previous, sizeEq, hashEq⟩ :=
    fromEvents_ok made
  simp only [arrowStreamFileEvidence, Files.write_self, ite_error_eq_ok_iff, Except.ok.injEq,
    Prod.mk.injEq] at evidence
  obtain ⟨-, rfl, rfl⟩ := evidence
  refine ⟨(Files.extends_write fresh).trans extended, entry, ?_, segment, previous, rfl⟩
  rw [← segment] at sidecar
  refine ⟨nonempty, size, ?_, sizeEq, hashEq, matched, sidecar, bound⟩
  apply extended
  rw [segment, Files.write_self]

/-- One event of the checking pass meets the shared rules. -/
theorem checkEvent_ok {cursor : Cursor} {event : RunEvent} {next : ExpectedEvent}
    (fits : cursor.index + 1 < 2 ^ 64)
    (checked : checkEvent blake3 runId (.after cursor) event = .ok next) :
    cursor.Admits blake3 runId event ∧ next = .after (cursor.advance event) := by
  simp only [checkEvent, ite_error_eq_ok_iff, Bool.or_eq_true, bne_iff_ne, not_or, not_not, ne_eq,
    Bool.not_eq_true', Bool.not_eq_false, bind_eq_ok_iff] at checked
  obtain ⟨⟨⟨⟨valid, run⟩, position⟩, chained⟩, ⟨⟩, ordered, flags, recorded, done⟩ := checked
  have wellFormed := (RunEvent.isValid_iff.mp valid).1
  have position : event.eventId = BitVec.ofNat 64 cursor.index + 1 := by
    rw [position, ← eventIdAt_of_fits fits]
    rfl
  refine ⟨⟨wellFormed, run, position, chained, scanOrdering_ok_iff.mp ordered⟩, ?_⟩
  rw [scanUpdate_eq wellFormed.present] at recorded
  cases recorded
  cases done
  rw [ExpectedEvent.after, ExpectedEvent.after, saturatingNext_eventIdAt]
  rfl

theorem checkEvents_ok {cursor : Cursor} {events : List RunEvent} {last : ExpectedEvent}
    (fits : cursor.index + events.length < 2 ^ 64)
    (checked : events.foldlM (checkEvent blake3 runId) (.after cursor) = .ok last) :
    Along Cursor.advance (Cursor.Admits blake3 runId) cursor events := by
  induction events generalizing cursor with
  | nil => trivial
  | cons event events ih =>
      rw [foldlM_cons, bind_eq_ok_iff] at checked
      rw [length_cons] at fits
      obtain ⟨next, first, rest⟩ := checked
      obtain ⟨admitted, rfl⟩ := checkEvent_ok (by omega) first
      refine ⟨admitted, ih ?_ rest⟩
      rw [advance_index]
      omega

/-- Whatever the rules of a history, an event's id is its place. -/
theorem eventId_of_along {before after : List RunEvent} {event : RunEvent}
    (history : Along Cursor.advance (Cursor.Admits blake3 runId) {} (before ++ event :: after)) :
    event.eventId = BitVec.ofNat 64 before.length + 1 := by
  simpa using history.at_step.position

/-- The events given to the stream so far: those of the sealed segments and the pending. -/
structure Stored (blake3 : Hasher) (arrow : ArrowIpc) (runId : RunId) (files : Files)
    (stream : SegmentedArrowAuditStream) (events : List RunEvent) : Prop where
  sameRun : stream.runId = runId
  limit : stream.maxEventsPerSegment ≤ Replay.maxEventsPerSegment
  expects : stream.expected = .after (run Cursor.advance {} events)
  segments : ∃ segments, events = segments.flatten ++ stream.pendingEvents ∧
    List.Forall₂ (SealedSegment blake3 arrow runId files) segments stream.entries ∧
    stream.entries.foldlM (RunEventSegmentManifest.checkEntry blake3 runId) {} =
      some ⟨stream.entries.length, stream.previousSegmentHash,
        BitVec.ofNat 64 segments.flatten.length⟩

namespace Stored

variable {events : List RunEvent} {event : RunEvent}

/-- Sealing the pending events keeps the invariant. -/
theorem flushSegment (stored : Stored blake3 arrow runId files stream events)
    (history : Along Cursor.advance (Cursor.Admits blake3 runId) {} events)
    (fits : events.length < 2 ^ 64)
    (size : stream.pendingEvents.length ≤ stream.maxEventsPerSegment)
    (flushed : flushSegment blake3 arrow files stream = .ok (files', next)) :
    Stored blake3 arrow runId files' next events ∧ next.pendingEvents = [] ∧
      next.maxEventsPerSegment = stream.maxEventsPerSegment := by
  obtain ⟨extended, entry, newest, segment, previous, rfl⟩ :=
    flushSegment_ok (size.trans stored.limit) flushed
  obtain ⟨segments, whole, olds, chain⟩ := stored.segments
  refine ⟨⟨stored.sameRun, stored.limit, stored.expects, segments ++ [stream.pendingEvents], ?_, ?_,
    ?_⟩, rfl, rfl⟩
  · simp [whole]
  · rw [stored.sameRun] at newest
    refine rel_append (olds.imp fun _ _ old => { old with
      file := extended _ _ old.file
      sidecar := readSidecar_of_extends extended old.sidecar }) ?_
    exact List.Forall₂.cons newest .nil
  · rw [stored.sameRun] at newest
    obtain ⟨first, rest, pending⟩ := exists_cons_of_ne_nil newest.nonempty
    have head : stream.pendingEvents.head? = some first := by rw [pending]; rfl
    have tail := getLast?_eq_some_getLast newest.nonempty
    obtain ⟨start, stop⟩ := newest.span head tail
    have startId : first.eventId = BitVec.ofNat 64 segments.flatten.length + 1 := by
      rw [whole, pending] at history
      exact eventId_of_along history
    have stopId : (stream.pendingEvents.getLast newest.nonempty).eventId =
        BitVec.ofNat 64 (segments ++ [stream.pendingEvents]).flatten.length := by
      have split := dropLast_append_getLast newest.nonempty
      rw [whole, ← split, ← append_assoc] at history
      have length : (segments ++ [stream.pendingEvents]).flatten.length =
          (segments.flatten ++ stream.pendingEvents.dropLast).length + 1 := by
        have positive := length_pos_iff.mpr newest.nonempty
        rw [flatten_append, flatten_singleton, length_append, length_append,
          length_dropLast]
        omega
      rw [eventId_of_along history, length, BitVec.ofNat_add]
      rfl
    have room : BitVec.ofNat 64 segments.flatten.length ≠ BitVec.allOnes 64 := by
      rw [whole, pending, length_append, length_cons] at fits
      exact ofNat_ne_allOnes (by omega)
    rw [foldlM_append, chain]
    simp only [bind_eq_bind, bind_some, foldlM_cons, foldlM_nil]
    rw [newest.checkEntry_eq segment previous room (start.trans startId), stop, stopId]
    simp

theorem pushEvent (stored : Stored blake3 arrow runId files stream events)
    (history : Along Cursor.advance (Cursor.Admits blake3 runId) {} (events ++ [event]))
    (fits : (events ++ [event]).length < 2 ^ 64) (pushed : pushEvent stream event = .ok next) :
    Stored blake3 arrow runId files next (events ++ [event]) ∧
      next.pendingEvents = stream.pendingEvents ++ [event] ∧
      next.maxEventsPerSegment = stream.maxEventsPerSegment := by
  have admitted := history.at_step
  rw [SegmentedArrowAuditStream.pushEvent, ite_error_eq_ok_iff,
    scanUpdate_eq admitted.wellFormed.present] at pushed
  obtain rfl := Except.ok.inj pushed.2
  obtain ⟨segments, whole, sealed, chain⟩ := stored.segments
  refine ⟨⟨stored.sameRun, stored.limit, ?_, segments, ?_, sealed, chain⟩, rfl, rfl⟩
  · have flags : stream.toReplayFlags = (run Cursor.advance {} events).toReplayFlags :=
      congrArg ExpectedEvent.toReplayFlags stored.expects
    have index : event.eventId = eventIdAt (run Cursor.advance {} events).index := by
      rw [length_append, length_singleton] at fits
      rw [admitted.position, eventIdAt_of_fits (by simpa using fits)]
    simp only [expected, ExpectedEvent.after, run_append, run_cons, run_nil, index, flags,
      saturatingNext_eventIdAt, advance_index, advance_toReplayFlags, advance_previousEventHash]
  · rw [whole, append_assoc]

/-- One event of the second pass is stored, and there is room for another. -/
theorem storeEvent {state state' : Files × SegmentedArrowAuditStream}
    (stored : Stored blake3 arrow runId state.1 state.2 events)
    (room : state.2.pendingEvents.length < state.2.maxEventsPerSegment)
    (history : Along Cursor.advance (Cursor.Admits blake3 runId) {} (events ++ [event]))
    (fits : (events ++ [event]).length < 2 ^ 64)
    (done : storeEvent blake3 arrow state event = .ok state') :
    Stored blake3 arrow runId state'.1 state'.2 (events ++ [event]) ∧
      state'.2.pendingEvents.length < state'.2.maxEventsPerSegment := by
  rw [SegmentedArrowAuditStream.storeEvent, bind_eq_ok_iff] at done
  obtain ⟨stream, pushed, done⟩ := done
  obtain ⟨stored, pending, limit⟩ := stored.pushEvent history fits pushed
  have length : stream.pendingEvents.length = state.2.pendingEvents.length + 1 := by
    rw [pending, length_append, length_singleton]
  split at done
  · rename_i full
    rw [beq_iff_eq] at full
    obtain ⟨stored, empty, limit'⟩ := stored.flushSegment history fits full.le done
    refine ⟨stored, ?_⟩
    rw [empty, limit', length_nil]
    omega
  · rename_i room'
    rw [beq_iff_eq] at room'
    cases done
    refine ⟨stored, ?_⟩
    show stream.pendingEvents.length < stream.maxEventsPerSegment
    omega

theorem appendEvents {state state' : Files × SegmentedArrowAuditStream} {batch : List RunEvent}
    (stored : Stored blake3 arrow runId state.1 state.2 events)
    (room : state.2.pendingEvents.length < state.2.maxEventsPerSegment)
    (history : Along Cursor.advance (Cursor.Admits blake3 runId) {} events)
    (fits : (events ++ batch).length < 2 ^ 64)
    (done : appendEvents blake3 arrow state batch = .ok state') :
    (Stored blake3 arrow runId state'.1 state'.2 (events ++ batch) ∧
      state'.2.pendingEvents.length < state'.2.maxEventsPerSegment) ∧
      Along Cursor.advance (Cursor.Admits blake3 runId) {} (events ++ batch) := by
  rw [SegmentedArrowAuditStream.appendEvents, ite_error_eq_ok_iff, bind_eq_ok_iff,
    stored.expects, stored.sameRun] at done
  obtain ⟨-, last, checked, done⟩ := done
  have longer : Along Cursor.advance (Cursor.Admits blake3 runId) {} (events ++ batch) := by
    refine along_append.mpr ⟨history, checkEvents_ok ?_ checked⟩
    simpa using fits
  refine ⟨?_, longer⟩
  refine foldlM_invariant (motive := fun seen state =>
    Stored blake3 arrow runId state.1 state.2 (events ++ seen) ∧
      state.2.pendingEvents.length < state.2.maxEventsPerSegment) ?_ ?_ done
  · intro seen event rest state next split inv step
    have whole : events ++ batch = events ++ seen ++ [event] ++ rest := by simp [split]
    rw [whole] at longer fits
    rw [← append_assoc]
    refine inv.1.storeEvent inv.2 longer.append_left ?_ step
    rw [length_append] at fits
    omega
  · rw [append_nil]
    exact ⟨stored, room⟩

theorem create {directory locked : ArchiveDirectory} {maxEvents : Nat}
    (created : create directory runId maxEvents = .ok (locked, stream)) :
    runId ≠ 0 ∧ Stored blake3 arrow runId locked.files stream [] ∧
      stream.pendingEvents.length < stream.maxEventsPerSegment := by
  simp only [SegmentedArrowAuditStream.create, ite_error_eq_ok_iff, Bool.or_eq_true, beq_iff_eq,
    decide_eq_true_eq, not_or] at created
  obtain ⟨⟨⟨named, positive⟩, limit⟩, -, done⟩ := created
  obtain ⟨rfl, rfl⟩ := Prod.mk.inj (Except.ok.inj done)
  refine ⟨named, ⟨rfl, Nat.le_of_not_lt limit, rfl, [], rfl, .nil, rfl⟩, ?_⟩
  exact Nat.pos_of_ne_zero positive

theorem flush (stored : Stored blake3 arrow runId files stream events)
    (room : stream.pendingEvents.length < stream.maxEventsPerSegment)
    (history : Along Cursor.advance (Cursor.Admits blake3 runId) {} events)
    (fits : events.length < 2 ^ 64) (done : flush blake3 arrow files stream = .ok (files', next)) :
    Stored blake3 arrow runId files' next events ∧ next.pendingEvents = [] := by
  unfold SegmentedArrowAuditStream.flush at done
  split at done
  · rename_i empty
    obtain ⟨rfl, rfl⟩ := Prod.mk.inj (Except.ok.inj done)
    exact ⟨stored, isEmpty_iff.mp empty⟩
  · obtain ⟨stored, empty, -⟩ := stored.flushSegment history fits room.le done
    exact ⟨stored, empty⟩

end Stored

end SegmentedArrowAuditStream

/-- What a finished archive holds: the segments of the history, in order, under a manifest
that passes its check. -/
structure Archived (blake3 : Hasher) (arrow : ArrowIpc) (runId : RunId) (files : Files)
    (manifest : RunEventSegmentManifest) (events : List RunEvent) : Prop where
  named : runId ≠ 0
  sameRun : manifest.runId = runId
  valid : manifest.isValid blake3
  history : Along Cursor.advance (Cursor.Admits blake3 runId) {} events
  segments : ∃ segments, events = segments.flatten ∧
    List.Forall₂ (SealedSegment blake3 arrow runId files) segments manifest.entries

theorem refreshed_entries {segments : List (List RunEvent)}
    {entries : List RunEventSegmentEntry}
    (sealed : List.Forall₂ (SealedSegment blake3 arrow runId files) segments entries) :
    entries.map (refreshSegmentCommitHash blake3 runId) = entries := by
  induction sealed with
  | nil => rfl
  | cons first _ ih => rw [map_cons, ih, first.refreshed]

open SegmentedArrowAuditStream in
/-- A stream that is finished after accepting every batch leaves an archive of them. -/
theorem writeArchive_archived {directory finished : ArchiveDirectory} {maxEvents : Nat}
    {batches : List (List RunEvent)} {manifest : RunEventSegmentManifest}
    (written : writeArchive blake3 arrow directory runId maxEvents batches =
      .ok (finished, manifest))
    (fits : batches.flatten.length < 2 ^ 64) :
    Archived blake3 arrow runId finished.files manifest batches.flatten := by
  simp only [writeArchive, bind_eq_ok_iff] at written
  obtain ⟨⟨locked, stream⟩, created, ⟨files, last⟩, appended, done⟩ := written
  obtain ⟨named, stored, room⟩ : runId ≠ 0 ∧ Stored blake3 arrow runId locked.files stream [] ∧
      stream.pendingEvents.length < stream.maxEventsPerSegment := Stored.create created
  obtain ⟨⟨stored, room⟩, history⟩ := foldlM_invariant (motive := fun seen state =>
      (Stored blake3 arrow runId state.1 state.2 seen.flatten ∧
        state.2.pendingEvents.length < state.2.maxEventsPerSegment) ∧
        Along Cursor.advance (Cursor.Admits blake3 runId) {} seen.flatten)
    (by
      intro seen batch rest state next split inv step
      rw [flatten_append, flatten_singleton]
      refine inv.1.1.appendEvents inv.1.2 inv.2 ?_ step
      rw [split, flatten_append, flatten_cons, ← append_assoc,
        length_append] at fits
      omega)
    ⟨⟨stored, room⟩, trivial⟩ appended
  simp only [finish, bind_eq_ok_iff, ite_error_eq_ok_iff] at done
  obtain ⟨⟨files', sealed⟩, flushed, -, done⟩ := done
  obtain ⟨rfl, rfl⟩ := Prod.mk.inj (Except.ok.inj done)
  obtain ⟨stored, empty⟩ := stored.flush room history fits flushed
  obtain ⟨segments, whole, sealedSegments, chain⟩ := stored.segments
  rw [empty, append_nil] at whole
  have entries := refreshed_entries sealedSegments
  refine ⟨named, stored.sameRun, ?_, history, segments, whole, ?_⟩
  · rw [RunEventSegmentManifest.new, stored.sameRun, entries, RunEventSegmentManifest.isValid,
      chain, beq_self_eq_true]
    rfl
  · rw [RunEventSegmentManifest.new, stored.sameRun, entries]
    exact sealedSegments

end Aegis.Replay
