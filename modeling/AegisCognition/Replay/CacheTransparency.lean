import AegisCognition.Replay.ArchiveReading
import AegisCognition.Replay.TamperEvidence
import AegisCognition.Replay.Sidecar

/-!
# The segment cache is transparent

A cached segment is found under a part of an entry only, but that part holds the hash of all
fields of the entry and the hash of the file. So unless two of the hashed byte strings collide,
the entry and the file are those that the segment was decoded for, and decoding them again would
give the same. The checks that a hit leaves out have been passed then, and the one check that it
adds is among those of the sidecar.
-/

namespace Aegis.Replay

open Foundation RunEventSegmentCommitProof RunEventSegmentManifest List Option

variable {blake3 : Hasher} {arrow : ArrowIpc} {runEventSize : Nat} {runId : RunId}
variable {files : Files} {verify : Bool} {cache : RunEventSegmentCache}
variable {entry other : RunEventSegmentEntry} {entries : List RunEventSegmentEntry}
variable {segment : RunEventSegmentCacheEntry} {bytes : List UInt8} {hashed : Set (List UInt8)}

namespace RunEventSegmentEntry

/-- The bytes that are hashed for the commit of an entry. -/
def commitPreimage (blake3 : Hasher) (runId : RunId) (entry : RunEventSegmentEntry) :
    List UInt8 :=
  (fromEntry blake3 runId entry).preimage

/-- The entry names the hash of its own fields. -/
def Committed (blake3 : Hasher) (runId : RunId) (entry : RunEventSegmentEntry) : Prop :=
  entry.segmentCommitHash = blake3 (entry.commitPreimage blake3 runId)

/-- An entry is determined by its commit hash, unless two commits collide. -/
theorem eq_of_segmentCommitHash (apart : Set.InjOn blake3 hashed)
    (mem : entry.commitPreimage blake3 runId ∈ hashed)
    (mem' : other.commitPreimage blake3 runId ∈ hashed)
    (committed : entry.Committed blake3 runId) (committed' : other.Committed blake3 runId)
    (same : entry.segmentCommitHash = other.segmentCommitHash) : entry = other := by
  have hashes : blake3 (entry.commitPreimage blake3 runId) =
      blake3 (other.commitPreimage blake3 runId) :=
    committed.symm.trans (same.trans committed')
  have proofs := preimage_inj (apart mem mem' hashes)
  simp only [fromEntry, RunEventSegmentCommitProof.mk.injEq] at proofs
  obtain ⟨-, segment, first, last, count, schema, size, file, firstEvent, lastEvent, segmentHash,
    previous, published, -⟩ := proofs
  cases entry
  cases other
  congr

theorem nonzero_of_matchesCommitFile {path : SegmentPath}
    (matched : entry.matchesCommitFile blake3 files path runId) :
    nonzeroHash entry.segmentHash ∧ nonzeroHash entry.segmentCommitHash := by
  rw [matchesCommitFile] at matched
  cases read : readSidecar blake3 files path with
  | error error =>
      rw [read] at matched
      cases matched
  | ok proof =>
      rw [read] at matched
      have valid : proof.isValid blake3 := by
        rw [readSidecar] at read
        cases found : files path with
        | none =>
            rw [found] at read
            cases read
        | some bytes =>
            rw [found] at read
            obtain ⟨-, decoded⟩ := ite_error_eq_ok_iff.mp read
            exact (decode_eq_ok_iff_laid.mp decoded).2
      obtain ⟨-, -, commit⟩ := isValid_iff.mp valid
      simp only [bindsEntryFields, hasValidFields, Bool.and_eq_true, beq_iff_eq] at matched
      obtain ⟨-, ⟨⟨⟨⟨-, segmentHash⟩, -⟩, -⟩, commitHash⟩, ⟨-, nonzero⟩, -⟩ := matched
      rw [← segmentHash, ← commitHash]
      exact ⟨nonzero, commit⟩

end RunEventSegmentEntry

namespace RunEventSegmentManifest

variable {manifest : RunEventSegmentManifest} {position after : Position}

theorem committed_of_checkEntry
    (checked : checkEntry blake3 runId position entry = some after) :
    entry.Committed blake3 runId := by
  rw [checkEntry] at checked
  split at checked
  · rename_i conjuncts
    simp only [Bool.and_eq_true, beq_iff_eq] at conjuncts
    obtain ⟨⟨⟨⟨⟨-, commit⟩, -⟩, -⟩, -⟩, -⟩ := conjuncts
    exact commit
  · cases checked

theorem committed_of_foldlM
    (checked : entries.foldlM (checkEntry blake3 runId) position = some after) :
    ∀ entry ∈ entries, entry.Committed blake3 runId := by
  induction entries generalizing position with
  | nil => exact nofun
  | cons entry entries ih =>
      rw [foldlM_cons, bind_eq_bind, bind_eq_some_iff] at checked
      obtain ⟨next, first, rest⟩ := checked
      exact forall_mem_cons.mpr ⟨committed_of_checkEntry first, ih rest⟩

theorem committed_of_isValid (valid : manifest.isValid blake3) :
    ∀ entry ∈ manifest.entries, entry.Committed blake3 manifest.runId := by
  rw [isValid, Bool.and_eq_true] at valid
  obtain ⟨after, checked⟩ := isSome_iff_exists.mp valid.2
  exact committed_of_foldlM checked

end RunEventSegmentManifest

namespace RunEventSegmentArchive

/-- What is known of a cached segment: it is what a file gives for an entry with the key. -/
def Decoded (blake3 : Hasher) (arrow : ArrowIpc) (runEventSize : Nat) (hashed : Set (List UInt8))
    (key : RunEventSegmentCacheKey) (segment : RunEventSegmentCacheEntry) : Prop :=
  ∃ entry bytes, key = .fromEntry key.runId entry ∧ entry.Committed blake3 key.runId ∧
    entry.commitPreimage blake3 key.runId ∈ hashed ∧ bytes ∈ hashed ∧
    decodeFile blake3 arrow runEventSize bytes entry = .ok segment

theorem file_of_evidence {path : SegmentPath} {size : BitVec 64} {hash : Hash}
    (evidence : arrowStreamFileEvidence blake3 files path = .ok (size, hash)) :
    ∃ bytes, files path = some bytes ∧ blake3 bytes = hash := by
  rw [arrowStreamFileEvidence] at evidence
  cases found : files path with
  | none =>
      rw [found] at evidence
      cases evidence
  | some bytes =>
      rw [found] at evidence
      obtain ⟨-, same⟩ := ite_error_eq_ok_iff.mp evidence
      exact ⟨bytes, rfl, (Prod.mk.inj (Except.ok.inj same)).2⟩

/-- Where a segment is found in the cache, decoding the file would give that segment. -/
theorem decodeSegment_of_lookup (apart : Set.InjOn blake3 hashed)
    (remembers : Remembers (Decoded blake3 arrow runEventSize hashed) cache)
    (committed : entry.Committed blake3 runId)
    (commit : entry.commitPreimage blake3 runId ∈ hashed) (inside : files.contents ⊆ hashed)
    (checked : checkSegmentFiles blake3 files runId verify entry = .ok ⟨⟩)
    (found : cache.lookup (.fromEntry runId entry) = some segment) :
    decodeSegmentWithEvidence blake3 arrow runEventSize files (.segment runId entry.segmentId)
      entry = .ok segment := by
  obtain ⟨entry', bytes', key, committed', commit', mem', decoded⟩ := remembers _ _ found
  simp only [RunEventSegmentCacheKey.fromEntry, RunEventSegmentCacheKey.mk.injEq] at key
  obtain ⟨-, -, -, -, -, sameCommit⟩ := key
  obtain rfl : entry = entry' := RunEventSegmentEntry.eq_of_segmentCommitHash apart commit commit'
    committed committed' sameCommit
  obtain ⟨-, evidence⟩ := checkSegmentFiles_eq_ok_iff.mp checked
  obtain ⟨bytes, file, hash⟩ := file_of_evidence evidence
  obtain ⟨-, -, hash', -, -⟩ := decodeFile_eq_ok_iff.mp decoded
  obtain rfl : bytes = bytes' := apart (inside ⟨_, _, file⟩) mem' (hash.trans hash'.symm)
  rw [decodeSegmentWithEvidence, file]
  exact decoded

/-- The check of a hit passes for what decoding gives, once the sidecar has been checked. -/
theorem matchesCachedEvents_of_decodeFile
    (checked : checkSegmentFiles blake3 files runId true entry = .ok ⟨⟩)
    (decoded : decodeFile blake3 arrow runEventSize bytes entry = .ok segment) :
    entry.matchesCachedEvents blake3 segment.events := by
  obtain ⟨-, -, -, matched, -⟩ := decodeFile_eq_ok_iff.mp decoded
  rw [RunEventSegmentEntry.matchesEventsAfterManifestValidation, Bool.and_eq_true] at matched
  obtain ⟨sidecar, -⟩ := checkSegmentFiles_eq_ok_iff.mp checked
  obtain ⟨segmentHash, commitHash⟩ :=
    RunEventSegmentEntry.nonzero_of_matchesCommitFile (sidecar rfl)
  rw [RunEventSegmentEntry.matchesCachedEvents, matched.1, segmentHash, commitHash]
  rfl

/-- One segment without a cache. -/
def readSegmentAfresh (blake3 : Hasher) (arrow : ArrowIpc) (runEventSize : Nat) (files : Files)
    (runId : RunId) (entry : RunEventSegmentEntry) : Except String RunEventSegmentCacheEntry := do
  checkSegmentFiles blake3 files runId true entry
  decodeSegmentWithEvidence blake3 arrow runEventSize files (.segment runId entry.segmentId) entry

/-- With the sidecars checked, reading a segment gives what it gives without a cache. -/
theorem readSegmentWithEvidence_fst (apart : Set.InjOn blake3 hashed)
    (remembers : Remembers (Decoded blake3 arrow runEventSize hashed) cache)
    (committed : entry.Committed blake3 runId)
    (commit : entry.commitPreimage blake3 runId ∈ hashed) (inside : files.contents ⊆ hashed) :
    Prod.fst <$> readSegmentWithEvidence blake3 arrow runEventSize files runId true cache entry =
      readSegmentAfresh blake3 arrow runEventSize files runId entry := by
  rw [readSegmentWithEvidence, readSegmentAfresh]
  cases checked : checkSegmentFiles blake3 files runId true entry with
  | error error => rfl
  | ok u =>
      simp only [bind, Except.bind]
      cases found : cache.lookup (.fromEntry runId entry) with
      | none =>
          cases decodeSegmentWithEvidence blake3 arrow runEventSize files
            (.segment runId entry.segmentId) entry with
          | error error => rfl
          | ok segment => rfl
      | some segment =>
          have decoded := decodeSegment_of_lookup apart remembers committed commit inside checked
            found
          have matched : entry.matchesCachedEvents blake3 segment.events := by
            rw [decodeSegmentWithEvidence] at decoded
            split at decoded
            · cases decoded
            · exact matchesCachedEvents_of_decodeFile checked decoded
          rw [decoded]
          simp only [matched, Bool.not_true, Bool.false_eq_true, ite_false]
          rfl

theorem establishes_decoded (committed : entry.Committed blake3 runId)
    (commit : entry.commitPreimage blake3 runId ∈ hashed) (inside : files.contents ⊆ hashed) :
    Establishes blake3 arrow runEventSize (Decoded blake3 arrow runEventSize hashed) runId files
      entry := by
  intro bytes segment found decoded
  exact ⟨entry, bytes, rfl, committed, commit, inside ⟨_, _, found⟩, decoded⟩

/-- The loop without a cache. -/
def readSegmentsAfresh (blake3 : Hasher) (arrow : ArrowIpc) (runEventSize : Nat) (files : Files)
    (runId : RunId) : SegmentTotals → List RunEventSegmentEntry → Except String SegmentTotals
  | totals, [] => .ok totals
  | totals, entry :: entries => do
    let segment ← readSegmentAfresh blake3 arrow runEventSize files runId entry
    readSegmentsAfresh blake3 arrow runEventSize files runId (totals.add segment) entries

theorem readSegmentsWithEvidence_fst {totals : SegmentTotals} (apart : Set.InjOn blake3 hashed)
    (remembers : Remembers (Decoded blake3 arrow runEventSize hashed) cache)
    (committed : ∀ entry ∈ entries, entry.Committed blake3 runId)
    (commits : ∀ entry ∈ entries, entry.commitPreimage blake3 runId ∈ hashed)
    (inside : files.contents ⊆ hashed) :
    (readSegmentsWithEvidence blake3 arrow runEventSize files runId true cache totals entries).1 =
      readSegmentsAfresh blake3 arrow runEventSize files runId totals entries := by
  induction entries generalizing cache totals with
  | nil => rfl
  | cons entry entries ih =>
      obtain ⟨first, rest⟩ := forall_mem_cons.mp committed
      obtain ⟨commit, commits⟩ := forall_mem_cons.mp commits
      have same := readSegmentWithEvidence_fst apart remembers first commit inside
      rw [readSegmentsWithEvidence, readSegmentsAfresh, ← same]
      cases read : readSegmentWithEvidence blake3 arrow runEventSize files runId true cache
          entry with
      | error error => rfl
      | ok result =>
          obtain ⟨segment, after⟩ := result
          have remembers' := readSegmentWithEvidence_remembers remembers
            (establishes_decoded first commit inside) read
          exact ih remembers' rest commits

/-- The byte strings that the calls hash: the files, and the commits of the entries. -/
def hashedBy (blake3 : Hasher) (calls : List ReadCall) : Set (List UInt8) :=
  { bytes | ∃ call ∈ calls, bytes ∈ call.files.contents ∨
    ∃ entry ∈ call.manifest.entries, entry.commitPreimage blake3 call.manifest.runId = bytes }

def ReadCall.answer (blake3 : Hasher) (arrow : ArrowIpc) (runEventSize : Nat) (call : ReadCall)
    (cache : RunEventSegmentCache) : Except String (RunEventLedger × ReplayIoEvidence) :=
  (readLedgerMmapWithEvidenceInner blake3 arrow runEventSize call.files call.verifyCommitSidecars
    cache call.manifest).1

variable {call : ReadCall} {calls : List ReadCall}

theorem cacheAfter_decoded (inside : hashedBy blake3 calls ⊆ hashed) :
    Remembers (Decoded blake3 arrow runEventSize hashed)
      (cacheAfter blake3 arrow runEventSize calls) := by
  refine cacheAfter_remembers fun call mem valid entry member => establishes_decoded ?_ ?_ ?_
  · exact committed_of_isValid valid entry member
  · exact inside ⟨call, mem, .inr ⟨entry, member, rfl⟩⟩
  · exact fun bytes found => inside ⟨call, mem, .inl found⟩

/-- The answer of a call that checks the sidecars, from the files and the manifest alone. -/
theorem answer_eq_afresh (apart : Set.InjOn blake3 hashed)
    (remembers : Remembers (Decoded blake3 arrow runEventSize hashed) cache)
    (inside : hashedBy blake3 [call] ⊆ hashed) (verifies : call.verifyCommitSidecars) :
    call.answer blake3 arrow runEventSize cache =
      if !call.manifest.isValid blake3 then .error "invalid mmap run event segment manifest"
      else
        match totalEventCount call.manifest.entries with
        | none => .error "run event count overflow"
        | some total =>
          (readSegmentsAfresh blake3 arrow runEventSize call.files call.manifest.runId {}
            call.manifest.entries).bind (replayTotals blake3 runEventSize call.manifest total) := by
  rw [ReadCall.answer, readLedgerMmapWithEvidenceInner, verifies]
  split
  · rfl
  · rename_i valid
    rw [Bool.not_eq_true', Bool.not_eq_false] at valid
    cases totalEventCount call.manifest.entries with
    | none => rfl
    | some total =>
        show (readSegmentsWithEvidence blake3 arrow runEventSize call.files call.manifest.runId true
          cache {} call.manifest.entries).1.bind _ = _
        rw [readSegmentsWithEvidence_fst apart remembers]
        · exact committed_of_isValid valid
        · exact fun entry mem => inside ⟨call, mem_singleton_self call, .inr ⟨entry, mem, rfl⟩⟩
        · exact fun bytes mem => inside ⟨call, mem_singleton_self call, .inl mem⟩

/-- Every call that checks the sidecars answers as it would with an empty cache: the ledger and
the evidence, or the error. The calls before it, and what has become of the files between them,
make no difference, unless two of the byte strings hashed for all of them collide. -/
theorem read_transparent (blake3 : Hasher) (arrow : ArrowIpc) (runEventSize : Nat)
    (calls : List ReadCall) (noCollision : Set.InjOn blake3 (hashedBy blake3 calls)) :
    ∀ before call after, calls = before ++ call :: after → call.verifyCommitSidecars →
      call.answer blake3 arrow runEventSize (cacheAfter blake3 arrow runEventSize before) =
        call.answer blake3 arrow runEventSize ∅ := by
  rintro before call after rfl verifies
  have here : hashedBy blake3 [call] ⊆ hashedBy blake3 (before ++ call :: after) := by
    rintro bytes ⟨other, single, hashes⟩
    obtain rfl := mem_singleton.mp single
    exact ⟨other, mem_append_right _ mem_cons_self, hashes⟩
  have earlier : hashedBy blake3 before ⊆ hashedBy blake3 (before ++ call :: after) := by
    rintro bytes ⟨other, mem, hashes⟩
    exact ⟨other, mem_append_left _ mem, hashes⟩
  rw [answer_eq_afresh noCollision (cacheAfter_decoded earlier) here verifies,
    answer_eq_afresh noCollision Remembers.empty here verifies]

/-- The archive of the first intake: its stream and its sidecar. -/
def intakeFiles : Files
  | .segment runId segmentId =>
    if runId = 1 ∧ segmentId = 1 then
      some (recordArrow.encodeStream (batchFromEvents (intakeHistory.take 1)))
    else none
  | .commit runId segmentId =>
    if runId = 1 ∧ segmentId = 1 then
      some ((fromEntry intakeHasher 1 intakeEntry₁).encode intakeHasher)
    else none

def intakeManifest : RunEventSegmentManifest where
  runId := 1
  entries := [intakeEntry₁]
  manifestHash := .ofNat 0x5ca6b4cd4da1123dc3c00a32b7795233b1dfe245bb49a748bc1f1e53f0930229

def intakeCall : ReadCall := ⟨intakeFiles, true, intakeManifest⟩

/-- The stream and the commit of the first intake are all that reading it hashes. -/
theorem intakeCalls_noCollision :
    Set.InjOn intakeHasher (hashedBy intakeHasher [intakeCall, intakeCall]) := by
  have apart : intakeHasher (recordArrow.encodeStream (batchFromEvents (intakeHistory.take 1))) ≠
      intakeHasher (intakeEntry₁.commitPreimage intakeHasher 1) := by
    decide +kernel
  have only : ∀ bytes ∈ hashedBy intakeHasher [intakeCall, intakeCall],
      bytes = recordArrow.encodeStream (batchFromEvents (intakeHistory.take 1)) ∨
        bytes = intakeEntry₁.commitPreimage intakeHasher 1 := by
    rintro bytes ⟨call, mem, hashes⟩
    obtain rfl : call = intakeCall := by simpa using mem
    obtain ⟨runId, segmentId, found⟩ | ⟨entry, inside, rfl⟩ := hashes
    · obtain ⟨-, same⟩ := (ite_none_right_eq_some).mp found
      exact .inl (Option.some.inj same).symm
    · obtain rfl := mem_singleton.mp inside
      exact .inr rfl
  intro first mem second mem' same
  obtain rfl | rfl := only first mem
  · obtain rfl | rfl := only second mem'
    · rfl
    · exact absurd same apart
  · obtain rfl | rfl := only second mem'
    · exact absurd same.symm apart
    · rfl

/-- The first intake is read, and read again from the cache with the same answer. -/
theorem intake_read_twice :
    (intakeCall.answer intakeHasher recordArrow 176 ∅).isOk ∧
    (cacheAfter intakeHasher recordArrow 176 [intakeCall]).keys =
      [.fromEntry 1 intakeEntry₁] ∧
    intakeCall.answer intakeHasher recordArrow 176
        (cacheAfter intakeHasher recordArrow 176 [intakeCall]) =
      intakeCall.answer intakeHasher recordArrow 176 ∅ := by
  refine ⟨by decide +kernel, by decide +kernel, ?_⟩
  exact read_transparent intakeHasher recordArrow 176 [intakeCall, intakeCall]
    intakeCalls_noCollision [intakeCall] intakeCall [] rfl rfl

end RunEventSegmentArchive

end Aegis.Replay
