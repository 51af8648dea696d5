import Mathlib.Data.List.Sublists
import Mathlib.Data.Set.Function
import AegisCognition.Replay.ToolProtocol
import AegisCognition.Replay.BinaryAgreement
import AegisCognition.Replay.ArchiveWriting
import AegisCognition.Replay.IoEvidence

/-!
# Reading an archive back

The reader's checks all hold of what a finished stream has left, whatever the process has
cached before, as long as no two of the files involved share a hash. What is left to go
wrong is the replay at the end, which knows one rule more than the stream.

The cache only ever gets what decoding a file has given. So what decoding establishes of a key
and its segment is known of all that is cached, over all calls of the process.
-/

namespace Aegis.Replay

open Foundation RunEventLedger RunEventSegmentCommitProof RunEventSegmentEntry List

variable {blake3 : Hasher} {arrow : ArrowIpc} {runEventSize : Nat} {runId : RunId}
variable {files : Files} {seen : Set (List UInt8)} {cache after : RunEventSegmentCache}

def Files.contents (files : Files) : Set (List UInt8) :=
  { bytes | ∃ runId segmentId, files (.segment runId segmentId) = some bytes }

namespace RunEventSegmentArchive

variable {entry : RunEventSegmentEntry} {entries : List RunEventSegmentEntry}
variable {events : List RunEvent} {verify : Bool} {segment : RunEventSegmentCacheEntry}
variable {bytes : List UInt8} {totals : SegmentTotals}

theorem decodeFile_eq_ok_iff : decodeFile blake3 arrow runEventSize bytes entry = .ok segment ↔
    appendEventsMmap arrow blake3 bytes false = .ok segment.events ∧
      BitVec.ofNat 64 bytes.length = entry.arrowFileBytes ∧ blake3 bytes = entry.arrowFileHash ∧
      entry.matchesEventsAfterManifestValidation blake3 segment.events ∧
      segment.evidence = .forMmapSegment blake3 runEventSize entry.arrowFileBytes.toNat
        segment.events := by
  simp only [decodeFile, bind_eq_ok_iff, ite_error_eq_ok_iff, pure_eq_ok_iff, Bool.or_eq_true,
    bne_iff_ne, ne_eq, not_or, not_not, Bool.not_eq_true', Bool.not_eq_false]
  constructor
  · rintro ⟨events, read, ⟨size, hash⟩, matched, rfl⟩
    exact ⟨read, size, hash, matched, by rw [size]⟩
  · rintro ⟨read, size, hash, matched, evidence⟩
    refine ⟨segment.events, read, ⟨size, hash⟩, matched, ?_⟩
    rw [size, ← evidence]

/-- The files pass the checks exactly if the sidecar and the evidence of the file match. -/
theorem checkSegmentFiles_eq_ok_iff {u : PUnit} :
    checkSegmentFiles blake3 files runId verify entry = .ok u ↔
      (verify → entry.matchesCommitFile blake3 files (.commit runId entry.segmentId) runId) ∧
      arrowStreamFileEvidence blake3 files (.segment runId entry.segmentId) =
        .ok (entry.arrowFileBytes, entry.arrowFileHash) := by
  simp only [checkSegmentFiles, ite_error_eq_ok_iff, bind_eq_ok_iff, Bool.and_eq_true,
    Bool.or_eq_true, bne_iff_ne, ne_eq, not_or, not_not, not_and, Bool.not_eq_true',
    Bool.not_eq_false, and_true]
  refine and_congr_right fun _ => ?_
  constructor
  · rintro ⟨⟨size, hash⟩, found, rfl, rfl⟩
    exact found
  · intro found
    exact ⟨_, found, rfl, rfl⟩

/-- A call of the reader: the files it finds, its flag and its manifest. -/
structure ReadCall where
  files : Files
  verifyCommitSidecars : Bool
  manifest : RunEventSegmentManifest

/-- The cache of a process that has made the given calls. -/
def cacheAfter (blake3 : Hasher) (arrow : ArrowIpc) (runEventSize : Nat)
    (calls : List ReadCall) : RunEventSegmentCache :=
  run (fun cache call => (readLedgerMmapWithEvidenceInner blake3 arrow runEventSize call.files
    call.verifyCommitSidecars cache call.manifest).2) ∅ calls

section Known

variable {known : RunEventSegmentCacheKey → RunEventSegmentCacheEntry → Prop}

/-- Decoding the file of an entry establishes what is to be known of the entry's key. -/
def Establishes (blake3 : Hasher) (arrow : ArrowIpc) (runEventSize : Nat)
    (known : RunEventSegmentCacheKey → RunEventSegmentCacheEntry → Prop) (runId : RunId)
    (files : Files) (entry : RunEventSegmentEntry) : Prop :=
  ∀ bytes segment, files (.segment runId entry.segmentId) = some bytes →
    decodeFile blake3 arrow runEventSize bytes entry = .ok segment →
    known (.fromEntry runId entry) segment

theorem readSegmentWithEvidence_remembers (remembers : Remembers known cache)
    (establishes : Establishes blake3 arrow runEventSize known runId files entry)
    (read : readSegmentWithEvidence blake3 arrow runEventSize files runId verify cache entry =
      .ok (segment, after)) :
    Remembers known after := by
  simp only [readSegmentWithEvidence, bind_eq_ok_iff] at read
  obtain ⟨-, -, read⟩ := read
  split at read
  · rw [ite_error_eq_ok_iff] at read
    obtain ⟨-, rfl⟩ := Prod.mk.inj (Except.ok.inj read.2)
    exact remembers
  · obtain ⟨segment', decoded, done⟩ := bind_eq_ok_iff.mp read
    obtain ⟨rfl, rfl⟩ := Prod.mk.inj (Except.ok.inj done)
    rw [decodeSegmentWithEvidence] at decoded
    split at decoded
    · cases decoded
    · rename_i bytes found
      exact remembers.put (establishes bytes segment' found decoded)

theorem readSegmentsWithEvidence_remembers (remembers : Remembers known cache)
    (establishes : ∀ entry ∈ entries,
      Establishes blake3 arrow runEventSize known runId files entry) :
    Remembers known (readSegmentsWithEvidence blake3 arrow runEventSize files runId verify cache
      totals entries).2 := by
  induction entries generalizing cache totals with
  | nil => exact remembers
  | cons entry entries ih =>
      obtain ⟨first, rest⟩ := forall_mem_cons.mp establishes
      rw [readSegmentsWithEvidence]
      split
      · exact remembers
      · rename_i segment after read
        exact ih (readSegmentWithEvidence_remembers remembers first read) rest

theorem readLedger_remembers {manifest : RunEventSegmentManifest}
    (remembers : Remembers known cache)
    (establishes : manifest.isValid blake3 → ∀ entry ∈ manifest.entries,
      Establishes blake3 arrow runEventSize known manifest.runId files entry) :
    Remembers known (readLedgerMmapWithEvidenceInner blake3 arrow runEventSize files verify cache
      manifest).2 := by
  rw [readLedgerMmapWithEvidenceInner]
  split
  · exact remembers
  · rename_i valid
    rw [Bool.not_eq_true', Bool.not_eq_false] at valid
    split
    · exact remembers
    · exact readSegmentsWithEvidence_remembers remembers (establishes valid)

/-- What every call of a process establishes is known of all that it has cached. -/
theorem cacheAfter_remembers {calls : List ReadCall}
    (establishes : ∀ call ∈ calls, call.manifest.isValid blake3 →
      ∀ entry ∈ call.manifest.entries,
        Establishes blake3 arrow runEventSize known call.manifest.runId call.files entry) :
    Remembers known (cacheAfter blake3 arrow runEventSize calls) := by
  have members : Along (fun cache call => (readLedgerMmapWithEvidenceInner blake3 arrow
      runEventSize call.files call.verifyCommitSidecars cache call.manifest).2)
      (fun _ call => call ∈ calls) ∅ calls := along_const.mpr fun _ mem => mem
  refine run_invariant_along ?_ members Remembers.empty
  intro cache call remembers mem
  exact readLedger_remembers remembers (establishes call mem)

end Known

/-- The events of the segment are those of a file that was seen, under that file's hash. -/
def OfSeenFile (blake3 : Hasher) (arrow : ArrowIpc) (seen : Set (List UInt8))
    (key : RunEventSegmentCacheKey) (segment : RunEventSegmentCacheEntry) : Prop :=
  ∃ bytes ∈ seen, blake3 bytes = key.arrowFileHash ∧
    appendEventsMmap arrow blake3 bytes false = .ok segment.events

theorem establishes_ofSeenFile
    (inside : ∀ bytes, files (.segment runId entry.segmentId) = some bytes → bytes ∈ seen) :
    Establishes blake3 arrow runEventSize (OfSeenFile blake3 arrow seen) runId files entry := by
  intro bytes segment found decoded
  obtain ⟨read, -, hash, -, -⟩ := decodeFile_eq_ok_iff.mp decoded
  exact ⟨bytes, inside bytes found, hash, read⟩

/-- The Arrow files that the calls could see. -/
def seenBy (calls : List ReadCall) : Set (List UInt8) :=
  { bytes | ∃ call ∈ calls, bytes ∈ call.files.contents }

theorem cacheAfter_ofSeenFile {calls : List ReadCall} (inside : seenBy calls ⊆ seen) :
    Remembers (OfSeenFile blake3 arrow seen) (cacheAfter blake3 arrow runEventSize calls) :=
  cacheAfter_remembers fun call member _ _ _ =>
    establishes_ofSeenFile fun _ found => inside ⟨call, member, _, _, found⟩

section Sealed

variable {segments : List (List RunEvent)}

theorem matchesCommitFile_of_sealed
    (sealed : SealedSegment blake3 arrow runId files events entry) :
    entry.matchesCommitFile blake3 files (.commit runId entry.segmentId) runId := by
  have bound := sealed.bound
  rw [bindsEntry, Bool.and_eq_true] at bound
  simp only [matchesCommitFile, sealed.sidecar, bound.1, Bool.and_true]
  exact beq_self_eq_true runId

theorem evidence_of_sealed (sealed : SealedSegment blake3 arrow runId files events entry) :
    arrowStreamFileEvidence blake3 files (.segment runId entry.segmentId) =
      .ok (entry.arrowFileBytes, entry.arrowFileHash) := by
  have fields := sealed.bound_fields.2.1
  simp only [hasValidFields, fromEntry, Bool.and_eq_true] at fields
  obtain ⟨⟨⟨⟨⟨⟨-, positive⟩, -⟩, -⟩, -⟩, -⟩, -⟩ := fields
  have nonzero : ¬ (entry.arrowFileBytes == 0) = true := by
    rw [beq_iff_eq]
    exact (BitVec.pos_iff_ne_zero _).mp (of_decide_eq_true positive)
  simp only [arrowStreamFileEvidence, sealed.file, ← sealed.fileBytes, ← sealed.fileHash]
  rw [if_neg nonzero]

theorem decodeFile_of_sealed (inverts : arrow.Inverts)
    (sealed : SealedSegment blake3 arrow runId files events entry) :
    decodeFile blake3 arrow runEventSize (arrow.encodeStream (batchFromEvents events)) entry =
      .ok ⟨events, .forMmapSegment blake3 runEventSize entry.arrowFileBytes.toNat events⟩ := by
  have read : appendEventsMmap arrow blake3 (arrow.encodeStream (batchFromEvents events)) false =
      .ok events := appendEventsMmap_encodeStream inverts sealed.nonempty sealed.size
  exact decodeFile_eq_ok_iff.mpr
    ⟨read, sealed.fileBytes.symm, sealed.fileHash.symm, sealed.matched, rfl⟩

theorem matchesCachedEvents_of_sealed
    (sealed : SealedSegment blake3 arrow runId files events entry) :
    entry.matchesCachedEvents blake3 events := by
  obtain ⟨-, fields, commit⟩ := sealed.bound_fields
  simp only [hasValidFields, fromEntry, Bool.and_eq_true] at fields
  obtain ⟨⟨-, segment⟩, -⟩ := fields
  have matched := sealed.matched
  rw [matchesEventsAfterManifestValidation, Bool.and_eq_true] at matched
  rw [matchesCachedEvents, matched.1, segment, commit]
  rfl

theorem readSegment_of_sealed (inverts : arrow.Inverts)
    (remembers : Remembers (OfSeenFile blake3 arrow seen) cache)
    (member : arrow.encodeStream (batchFromEvents events) ∈ seen)
    (noCollision : Set.InjOn blake3 seen)
    (sealed : SealedSegment blake3 arrow runId files events entry) :
    ∃ segment after, readSegmentWithEvidence blake3 arrow runEventSize files runId verify cache
      entry = .ok (segment, after) ∧ segment.events = events := by
  have checked : checkSegmentFiles blake3 files runId verify entry = .ok ⟨⟩ :=
    checkSegmentFiles_eq_ok_iff.mpr
      ⟨fun _ => matchesCommitFile_of_sealed sealed, evidence_of_sealed sealed⟩
  rw [readSegmentWithEvidence, checked]
  simp only [bind, Except.bind]
  cases found : cache.lookup (RunEventSegmentCacheKey.fromEntry runId entry) with
  | none =>
      simp only [decodeSegmentWithEvidence, sealed.file, decodeFile_of_sealed inverts sealed]
      exact ⟨_, _, rfl, rfl⟩
  | some cached =>
      -- The cached events come from a file with the same hash, which is the same file.
      obtain ⟨bytes, known, hash, read⟩ := remembers _ _ found
      have same : bytes = arrow.encodeStream (batchFromEvents events) :=
        noCollision known member (hash.trans sealed.fileHash)
      rw [same, appendEventsMmap_encodeStream inverts sealed.nonempty sealed.size] at read
      have matched := matchesCachedEvents_of_sealed sealed
      rw [Except.ok.inj read] at matched
      exact ⟨cached, cache, by simp only [matched]; rfl, (Except.ok.inj read).symm⟩

theorem readSegments_of_sealed (inverts : arrow.Inverts)
    (remembers : Remembers (OfSeenFile blake3 arrow seen) cache)
    (members : ∀ events ∈ segments, arrow.encodeStream (batchFromEvents events) ∈ seen)
    (noCollision : Set.InjOn blake3 seen)
    (sealed : List.Forall₂ (SealedSegment blake3 arrow runId files) segments entries) :
    ∃ read, (readSegmentsWithEvidence blake3 arrow runEventSize files runId verify cache totals
      entries).1 = .ok read ∧ read.events = totals.events ++ segments.flatten := by
  induction sealed generalizing cache totals with
  | nil => exact ⟨totals, rfl, (append_nil totals.events).symm⟩
  | @cons events entry segments entries first _ ih =>
      obtain ⟨member, members⟩ := forall_mem_cons.mp members
      obtain ⟨segment, after, read, same⟩ : ∃ segment after,
          readSegmentWithEvidence blake3 arrow runEventSize files runId verify cache entry =
            .ok (segment, after) ∧ segment.events = events :=
        readSegment_of_sealed inverts remembers member noCollision first
      have establishes : Establishes blake3 arrow runEventSize (OfSeenFile blake3 arrow seen) runId
          files entry := by
        refine establishes_ofSeenFile fun bytes found => ?_
        rw [first.file] at found
        exact Option.some.inj found ▸ member
      have remembers' := readSegmentWithEvidence_remembers remembers establishes read
      simp only [readSegmentsWithEvidence, read]
      obtain ⟨rest, readRest, total⟩ := ih remembers' members
      refine ⟨rest, readRest, ?_⟩
      rw [total, SegmentTotals.add, same, flatten_cons, append_assoc]

theorem totalEventCount_of_sealed (fits : segments.flatten.length < 2 ^ 64)
    (sealed : List.Forall₂ (SealedSegment blake3 arrow runId files) segments entries) :
    totalEventCount entries = some segments.flatten.length := by
  have general : ∀ total, total + segments.flatten.length < 2 ^ 64 →
      entries.foldlM (fun total entry => checkedAdd u64Max total entry.eventCount.toNat) total =
        some (total + segments.flatten.length) := by
    clear fits
    induction sealed with
    | nil => exact fun total _ => rfl
    | @cons events entry segments entries first _ ih =>
        intro total fits
        rw [flatten_cons, length_append, ← Nat.add_assoc] at fits ⊢
        have next : checkedAdd u64Max total entry.eventCount.toNat =
            some (total + events.length) := by
          rw [first.toNat_eventCount]
          exact checkedAdd_eq_some_iff.mpr ⟨Nat.le_sub_one_of_lt (by omega), rfl⟩
        rw [foldlM_cons, next]
        exact ih (total + events.length) fits
  have whole := general 0 (by rwa [Nat.zero_add])
  rwa [Nat.zero_add] at whole

end Sealed

def streamsOf (arrow : ArrowIpc) (events : List RunEvent) : Set (List UInt8) :=
  { bytes | ∃ part, part <:+: events ∧ arrow.encodeStream (batchFromEvents part) = bytes }

variable {manifest : RunEventSegmentManifest} {ledger : RunEventLedger}

theorem readLedgerMmap_fst : (readLedgerMmap blake3 arrow runEventSize files cache manifest).1 =
    Prod.fst <$> (readLedgerMmapWithEvidenceInner blake3 arrow runEventSize files true cache
      manifest).1 := rfl

/-- The reader returns what replay makes of the events it has read. -/
theorem replayed_of_readLedgerMmap
    (read : (readLedgerMmap blake3 arrow runEventSize files cache manifest).1 = .ok ledger) :
    fromEvents blake3 manifest.runId ledger.events = .ok ledger := by
  rw [readLedgerMmap_fst, map_eq_ok_iff] at read
  obtain ⟨⟨ledger, evidence⟩, read, rfl⟩ := read
  rw [readLedgerMmapWithEvidenceInner] at read
  split at read
  · cases read
  · split at read
    · cases read
    · obtain ⟨totals, -, read⟩ := bind_eq_ok_iff.mp read
      rw [replayTotals, bind_eq_ok_iff] at read
      obtain ⟨ledger', rebuilt, done⟩ := read
      obtain ⟨rfl, -⟩ := Prod.mk.inj (Except.ok.inj done)
      rw [replaySegments, bind_eq_ok_iff] at rebuilt
      obtain ⟨ledger, replayed, rebuilt⟩ := rebuilt
      obtain ⟨-, same⟩ := ite_error_eq_ok_iff.mp rebuilt
      cases same
      have replayed := BinaryRunEventSegment.reportAs_ok_iff.mp replayed
      rwa [events_of_fromEvents replayed]

theorem readLedgerMmap_of_archived (inverts : arrow.Inverts)
    (remembers : Remembers (OfSeenFile blake3 arrow seen) cache)
    (inside : streamsOf arrow events ⊆ seen)
    (noCollision : Set.InjOn blake3 seen) (fits : events.length < 2 ^ 64)
    (archived : Archived blake3 arrow runId files manifest events)
    (replayed : fromEvents blake3 runId events = .ok ledger) :
    (readLedgerMmap blake3 arrow runEventSize files cache manifest).1 = .ok ledger := by
  obtain ⟨segments, rfl, sealed⟩ := archived.segments
  have valid := archived.valid
  have total := totalEventCount_of_sealed fits sealed
  obtain ⟨totals, read, events⟩ : ∃ totals : SegmentTotals,
      (readSegmentsWithEvidence blake3 arrow runEventSize files runId true cache {}
        manifest.entries).1 = .ok totals ∧ totals.events = [] ++ segments.flatten := by
    refine readSegments_of_sealed inverts remembers (fun part member => inside ⟨part, ?_, rfl⟩)
      noCollision sealed
    exact infix_of_mem_flatten member
  rw [nil_append] at events
  have rebuilt : replaySegments blake3 manifest segments.flatten.length segments.flatten =
      .ok ledger := by
    rw [replaySegments, archived.sameRun, bind_eq_ok_iff]
    refine ⟨ledger, BinaryRunEventSegment.reportAs_ok_iff.mpr replayed, ?_⟩
    rw [ite_error_eq_ok_iff, events_of_fromEvents replayed, bne_self_eq_false]
    exact ⟨Bool.false_ne_true, rfl⟩
  rw [readLedgerMmap_fst, map_eq_ok_iff]
  refine ⟨⟨ledger, evidenceOfTotals blake3 runEventSize totals⟩, ?_, rfl⟩
  simp only [readLedgerMmapWithEvidenceInner, valid, Bool.not_true, Bool.false_eq_true, if_false,
    total, archived.sameRun, read]
  refine bind_eq_ok_iff.mpr ⟨totals, rfl, ?_⟩
  rw [replayTotals, events, rebuilt]
  rfl

end RunEventSegmentArchive

/-- A replayed history records at most one goal intake, and its length is a 64-bit count. -/
theorem goalIntakes_of_replayed {events : List RunEvent} {ledger : RunEventLedger}
    (replayed : fromEvents blake3 runId events = .ok ledger) :
    goalIntakes events ≤ 1 ∧ events.length < 2 ^ 64 := by
  have history := (fromEvents_ok_iff.mp replayed).1
  have fits := (Cursor.placed_of_along history).numbered.1
  exact ⟨((Cursor.along_replays_iff fits).mp history).2.2, fits⟩

open SegmentedArrowAuditStream RunEventSegmentArchive

/-- What a finished stream has accepted is read back exactly when it records at most one
goal intake, its length being that of a 64-bit count. -/
theorem archive_reads_back_iff (blake3 : Hasher) (arrow : ArrowIpc) (runEventSize : Nat)
    (inverts : arrow.Inverts) (directory finished : ArchiveDirectory) (runId : RunId)
    (maxEvents : Nat) (batches : List (List RunEvent)) (manifest : RunEventSegmentManifest)
    (written : writeArchive blake3 arrow directory runId maxEvents batches =
      .ok (finished, manifest))
    (earlier : List ReadCall)
    (noCollision : Set.InjOn blake3 (seenBy earlier ∪ streamsOf arrow batches.flatten)) :
    (∃ ledger, (readLedgerMmap blake3 arrow runEventSize finished.files
        (cacheAfter blake3 arrow runEventSize earlier) manifest).1 = .ok ledger ∧
        ledger.events = batches.flatten) ↔
      goalIntakes batches.flatten ≤ 1 ∧ batches.flatten.length < 2 ^ 64 := by
  constructor
  · rintro ⟨ledger, read, events⟩
    have replayed := replayed_of_readLedgerMmap read
    rw [events] at replayed
    exact goalIntakes_of_replayed replayed
  · rintro ⟨once, fits⟩
    have archived := writeArchive_archived written fits
    have history := (Cursor.along_replays_iff fits).mpr
      ⟨archived.history, .inl archived.named, once⟩
    have replayed := fromEvents_ok_iff.mpr ⟨history, rfl⟩
    refine ⟨_, ?_, events_of_fromEvents replayed⟩
    exact readLedgerMmap_of_archived inverts (cacheAfter_ofSeenFile Set.subset_union_left)
      Set.subset_union_right noCollision fits archived replayed

section Sample

open BinaryRunEventSegment

def recordSchema : List UInt8 := List.replicate 63 1

def recordBatchMetadata (bodyLength : Nat) : List UInt8 := 2 :: leBytes 8 bodyLength

def recordOfRow (row : ArrowRow) : List UInt8 :=
  match eventFromRow (fun _ => .zero) false row with
  | .ok event => encodeBinaryRunEventRecord (fun _ => .zero) event
  | .error _ => []

/-- A stream library with Arrow's framing whose batches are records of the binary format. -/
def recordArrow : ArrowIpc where
  encodeStream rows :=
    let body := (rows.map recordOfRow).flatten
    frame recordSchema [] ++ (frame (recordBatchMetadata body.length) body ++ endOfStream)
  rootAsMessage metadata :=
    if metadata = recordSchema then some ⟨.schema, 0⟩
    else some ⟨.recordBatch (some false), ofLeBytes (metadata.drop 1)⟩
  decodeStream bytes :=
    ⟨[(recordsOf bytes ((bytes.length - headerBytes) / recordBytes)).map fun record =>
      (recordEvent record).toRow], none⟩

theorem recordOfRow_toRow (event : RunEvent) :
    recordOfRow event.toRow = encodeBinaryRunEventRecord (fun _ => .zero) event := by
  rw [recordOfRow, eventFromRow_toRow]

theorem recordBody_batchFromEvents (events : List RunEvent) :
    (batchFromEvents events).map recordOfRow =
      events.map (encodeBinaryRunEventRecord fun _ => .zero) := by
  simp [batchFromEvents, Function.comp_def, recordOfRow_toRow]

theorem length_recordBody (events : List RunEvent) :
    ((batchFromEvents events).map recordOfRow).flatten.length = events.length * recordBytes := by
  rw [recordBody_batchFromEvents]
  induction events with
  | nil => rfl
  | cons event events ih =>
      rw [map_cons, flatten_cons, length_append, length_encodeRecord, ih,
        length_cons, Nat.succ_mul, Nat.add_comm]

theorem recordArrow_inverts : recordArrow.Inverts where
  framed events _ size := by
    have bounded : ((batchFromEvents events).map recordOfRow).flatten.length < 256 ^ 8 := by
      rw [length_recordBody, recordBytes]
      rw [maxEventsPerSegment] at size
      omega
    refine ⟨_, _, _, rfl, by decide, ?_, rfl, ?_⟩
    · simp [recordBatchMetadata]
    · have other (n : Nat) : recordBatchMetadata n ≠ recordSchema := by
        intro same
        have length := congrArg List.length same
        simp [recordBatchMetadata, recordSchema] at length
      simp only [recordArrow]
      rw [if_neg (other _), recordBatchMetadata, drop_one, tail_cons,
        ofLeBytes_leBytes bounded]
  decoded events _ _ := by
    have width : ∀ part ∈ (batchFromEvents events).map recordOfRow,
        part.length = recordBytes := by
      rw [recordBody_batchFromEvents]
      intro part member
      obtain ⟨event, -, rfl⟩ := mem_map.mp member
      exact length_encodeRecord _ event
    have stream : recordArrow.encodeStream (batchFromEvents events) =
        (frame recordSchema [] ++ frame (recordBatchMetadata
          ((batchFromEvents events).map recordOfRow).flatten.length) []) ++
        (((batchFromEvents events).map recordOfRow).flatten ++ endOfStream) := by
      simp [recordArrow, frame]
    have header (n : Nat) :
        (frame recordSchema [] ++ frame (recordBatchMetadata n) []).length = headerBytes := by
      simp [frame, recordBatchMetadata, recordSchema, continuationMarker, headerBytes]
    have count : ((recordArrow.encodeStream (batchFromEvents events)).length - headerBytes) /
        recordBytes = ((batchFromEvents events).map recordOfRow).length := by
      rw [stream, length_append, header, Nat.add_sub_cancel_left, length_append,
        length_recordBody, length_map, batchFromEvents, length_map]
      show (events.length * 184 + 8) / 184 = events.length
      omega
    have read : recordsOf (recordArrow.encodeStream (batchFromEvents events))
        ((batchFromEvents events).map recordOfRow).length =
          (batchFromEvents events).map recordOfRow := by
      rw [stream]
      exact recordsOf_append (header _) width
    have decode (bytes : List UInt8) : recordArrow.decodeStream bytes =
        ⟨[(recordsOf bytes ((bytes.length - headerBytes) / recordBytes)).map fun record =>
          (recordEvent record).toRow], none⟩ := rfl
    rw [decode, count, read, recordBody_batchFromEvents, map_map]
    simp [Function.comp_def, recordEvent_encodeRecord, batchFromEvents]

/-- Two goal intakes of the run one, the second chained to the first. -/
def intakeHistory : List RunEvent :=
  let hash₁ := Hash.ofNat 0xda2a4d4c0b9b1e683dd7bd36d198a89110b154410a75c3c960fe9fe9456e7b8b
  let hash₂ := Hash.ofNat 0x5a16c3cfed7e5e48e373356978dd1b559e427292e7c59f92a1738f83f6e9598d
  [⟨1, 1, .goalIntakeRecorded, 1, .fill 1, some (.fill 2), .zero, hash₁⟩,
    ⟨2, 1, .goalIntakeRecorded, 2, .fill 3, some (.fill 4), hash₁, hash₂⟩]

/-- The entry of the first events of the history as one segment. -/
def intakeEntry (count : Nat) (fileHash segmentHash commitHash : Hash) : RunEventSegmentEntry where
  segmentId := 1
  startEventId := 1
  endEventId := BitVec.ofNat 64 count
  eventCount := BitVec.ofNat 64 count
  firstEventHash := (intakeHistory.head?.elim .zero RunEvent.eventHash)
  lastEventHash := ((intakeHistory.take count).getLast?.elim .zero RunEvent.eventHash)
  segmentHash
  previousSegmentHash := .zero
  arrowSchemaHash := .ofNat 0x838618b58256ffaafd7bce027e6a931ab137bacfc2a8b6500b315117e8788d37
  arrowFileBytes := BitVec.ofNat 64 (96 + 184 * count)
  arrowFileHash := fileHash
  segmentCommitHash := commitHash
  publishEvidence := .syncedTempPublish true

def intakeEntry₁ : RunEventSegmentEntry :=
  intakeEntry 1
    (.ofNat 0xad66172812437f4e5dd1308afcc14aa53acf2f95295ecdeacb8759015df38e9f)
    (.ofNat 0x41b22e1868b4f5cd135e273e6bf807dedfc06a3f347d4d737a46f39e0a8dfdf2)
    (.ofNat 0x998bafd6d3eb0e46880bd0a632a689442b991514a75e52e287c1b679edadfafe)

def intakeEntry₂ : RunEventSegmentEntry :=
  intakeEntry 2
    (.ofNat 0xc4b9d9113d5dce507357f2378b4e156fca7c6b08e02a9d57a5a990c9eeaeb5)
    (.ofNat 0x45bc8c6cdee54e2810ff3805db0b691e250e746c5a205695f6043251e5a3bb8e)
    (.ofNat 0x488dc7c6581b329e098d3ed0ba7779eae2eef954019488171b116ae6383cb096)

/-- BLAKE3 on the inputs of archiving one or both of the intakes. -/
def intakeHasher : Hasher :=
  let commitPreimage entry :=
    (fromEntry (fun _ => .zero) 1 entry).preimage
  let stream events := recordArrow.encodeStream (batchFromEvents events)
  Hasher.ofTable <|
    (intakeHistory.map fun event =>
      (runEventPreimage event.eventId event.runId event.kind event.subjectId event.primaryHash
        event.secondaryHash event.previousEventHash, event.eventHash)) ++
    [(arrowRunEventSchemaPreimage, intakeEntry₁.arrowSchemaHash),
      (stream [], .ofNat 0xf3579e907410d6b8903f49e9ed5b10cdd65a233f9e173569dab219baa53d11cc),
      (stream (intakeHistory.drop 1), .ofNat
        0x9276263975c223a6a10aecc79fdcf5701aa52941b30f54804e33fbb2c0705de5),
      (stream (intakeHistory.take 1), intakeEntry₁.arrowFileHash),
      (stream intakeHistory, intakeEntry₂.arrowFileHash),
      (runEventSegmentPreimage 1 (intakeHistory.take 1) .zero, intakeEntry₁.segmentHash),
      (runEventSegmentPreimage 1 intakeHistory .zero, intakeEntry₂.segmentHash),
      (commitPreimage intakeEntry₁, intakeEntry₁.segmentCommitHash),
      (commitPreimage intakeEntry₂, intakeEntry₂.segmentCommitHash),
      (runEventManifestPreimage 1 [intakeEntry₁], .ofNat
        0x5ca6b4cd4da1123dc3c00a32b7795233b1dfe245bb49a748bc1f1e53f0930229),
      (runEventManifestPreimage 1 [intakeEntry₂], .ofNat
        0xd0a136c1ea57856697fe057f02bae01b93d5bc081bc9227da7f8bdbae893542d)]

def emptyArchive : ArchiveDirectory where
  files _ := none
  writerLocks _ := false

/-- The streams of the stretches of the two intakes have different hashes. -/
theorem intakes_noCollision {events : List RunEvent} (inside : events <:+: intakeHistory) :
    Set.InjOn intakeHasher (seenBy [] ∪ streamsOf recordArrow events) := by
  have distinct : ∀ part ∈ intakeHistory.sublists, ∀ other ∈ intakeHistory.sublists,
      intakeHasher (recordArrow.encodeStream (batchFromEvents part)) =
        intakeHasher (recordArrow.encodeStream (batchFromEvents other)) →
      recordArrow.encodeStream (batchFromEvents part) =
        recordArrow.encodeStream (batchFromEvents other) := by
    decide +kernel
  have listed {part : List RunEvent} (h : part <:+: events) : part ∈ intakeHistory.sublists :=
    mem_sublists.mpr (h.trans inside).sublist
  rintro bytes (⟨call, none, -⟩ | ⟨part, first, rfl⟩) other
    (⟨call, none, -⟩ | ⟨part', second, rfl⟩) same
  · cases none
  · cases none
  · cases none
  · exact distinct part (listed first) part' (listed second) same

theorem intake_written (events : List RunEvent)
    (member : events ∈ [intakeHistory.take 1, intakeHistory]) :
    ∃ finished manifest,
      writeArchive intakeHasher recordArrow emptyArchive 1 2 [events] =
        .ok (finished, manifest) := by
  have accepted : ∀ events ∈ [intakeHistory.take 1, intakeHistory],
      (writeArchive intakeHasher recordArrow emptyArchive 1 2 [events]).isOk = true := by
    decide +kernel
  have written := accepted events member
  cases outcome : writeArchive intakeHasher recordArrow emptyArchive 1 2 [events] with
  | error error =>
      rw [outcome] at written
      cases written
  | ok archive => exact ⟨archive.1, archive.2, rfl⟩

/-- The first intake alone is archived and read back, by a fresh process. -/
theorem singleIntake_reads_back :
    ∃ finished manifest,
      writeArchive intakeHasher recordArrow emptyArchive 1 2 [intakeHistory.take 1] =
        .ok (finished, manifest) ∧
      ∃ ledger, (readLedgerMmap intakeHasher recordArrow 176 finished.files
        (cacheAfter intakeHasher recordArrow 176 []) manifest).1 = .ok ledger ∧
        ledger.events = intakeHistory.take 1 := by
  obtain ⟨finished, manifest, written⟩ :=
    intake_written (intakeHistory.take 1) mem_cons_self
  refine ⟨finished, manifest, written, ?_⟩
  exact (archive_reads_back_iff intakeHasher recordArrow 176 recordArrow_inverts emptyArchive
    finished 1 2 [intakeHistory.take 1] manifest written []
    (intakes_noCollision (List.take_prefix 1 intakeHistory).isInfix)).mpr (by decide)

/-- Both intakes are archived, no hashes collide, and the archive cannot be read back. -/
theorem repeatedIntake_not_read_back :
    recordArrow.Inverts ∧ Set.InjOn intakeHasher (seenBy [] ∪ streamsOf recordArrow intakeHistory) ∧
    ∃ finished manifest,
      writeArchive intakeHasher recordArrow emptyArchive 1 2 [intakeHistory] =
        .ok (finished, manifest) ∧
      ¬ ∃ ledger, (readLedgerMmap intakeHasher recordArrow 176 finished.files
        (cacheAfter intakeHasher recordArrow 176 []) manifest).1 = .ok ledger ∧
        ledger.events = intakeHistory := by
  refine ⟨recordArrow_inverts, intakes_noCollision infix_rfl, ?_⟩
  obtain ⟨finished, manifest, written⟩ :=
    intake_written intakeHistory (mem_cons_of_mem _ mem_cons_self)
  refine ⟨finished, manifest, written, ?_⟩
  rintro ⟨ledger, read, events⟩
  have replayed := replayed_of_readLedgerMmap read
  rw [events] at replayed
  have once := (goalIntakes_of_replayed replayed).1
  exact absurd once (by decide)

end Sample

end Aegis.Replay
