import AegisCognition.Foundation.BoundedCache
import AegisCognition.Replay.Archive

/-!
# Reading an archive

The reader checks the manifest, the sidecars and the files, and replays all events at once. It
reports what it has read and how, and keeps that report with the decoded events of a segment.
The size of an event in memory is a parameter, since it depends on the compiler's layout. The
counts are saturating numbers of 64 bits.
-/

namespace Aegis.Replay

open Foundation

structure ReplayIoEvidence where
  segmentCount : Nat
  mmapSegmentCount : Nat
  totalFileBytes : Nat
  materializedEventCount : Nat
  materializedRunEventBytes : Nat
  materializedHashBytes : Nat
  mmapBackingUsed : Bool
  streamReaderMaterializesEvents : Bool
  evidenceHash : Hash

/-- The bytes of the hashes that an event holds. -/
def RunEvent.hashBytes (event : RunEvent) : Nat :=
  32 * 3 + event.secondaryHash.elim 0 fun _ => 32

namespace ReplayIoEvidence

variable (blake3 : Hasher) (runEventSize : Nat)

def replayIoEvidenceHash (segmentCount mmapSegmentCount totalFileBytes materializedEventCount
    materializedRunEventBytes materializedHashBytes : Nat)
    (mmapBackingUsed streamReaderMaterializesEvents : Bool) : Hash :=
  blake3 (leBytes 8 segmentCount ++ leBytes 8 mmapSegmentCount ++ leBytes 8 totalFileBytes ++
    leBytes 8 materializedEventCount ++ leBytes 8 materializedRunEventBytes ++
    leBytes 8 materializedHashBytes ++
    [boolByte mmapBackingUsed, boolByte streamReaderMaterializesEvents])

def fromTotals (segmentCount mmapSegmentCount totalFileBytes materializedEventCount
    materializedRunEventBytes materializedHashBytes : Nat)
    (mmapBackingUsed streamReaderMaterializesEvents : Bool) : ReplayIoEvidence where
  segmentCount
  mmapSegmentCount
  totalFileBytes
  materializedEventCount
  materializedRunEventBytes
  materializedHashBytes
  mmapBackingUsed
  streamReaderMaterializesEvents
  evidenceHash := replayIoEvidenceHash blake3 segmentCount mmapSegmentCount totalFileBytes
    materializedEventCount materializedRunEventBytes materializedHashBytes mmapBackingUsed
    streamReaderMaterializesEvents

def new (segmentCount mmapSegmentCount totalFileBytes : Nat) (events : List RunEvent)
    (mmapBackingUsed streamReaderMaterializesEvents : Bool) : ReplayIoEvidence :=
  fromTotals blake3 segmentCount mmapSegmentCount totalFileBytes events.length
    (events.length * runEventSize) (events.map RunEvent.hashBytes).sum mmapBackingUsed
    streamReaderMaterializesEvents

def forMmapSegment (fileBytes : Nat) (events : List RunEvent) : ReplayIoEvidence :=
  new blake3 runEventSize 1 1 fileBytes events true true

end ReplayIoEvidence

structure RunEventSegmentCacheKey where
  runId : RunId
  segmentId : BitVec 64
  eventCount : BitVec 64
  arrowFileBytes : BitVec 64
  arrowFileHash : Hash
  segmentCommitHash : Hash
  deriving DecidableEq

def RunEventSegmentCacheKey.fromEntry (runId : RunId) (entry : RunEventSegmentEntry) :
    RunEventSegmentCacheKey where
  runId
  segmentId := entry.segmentId
  eventCount := entry.eventCount
  arrowFileBytes := entry.arrowFileBytes
  arrowFileHash := entry.arrowFileHash
  segmentCommitHash := entry.segmentCommitHash

def runEventSegmentCacheMaxEntries : Nat := 256

/-- The decoded events of a segment, and the report of their decoding. -/
structure RunEventSegmentCacheEntry where
  events : List RunEvent
  evidence : ReplayIoEvidence

/-- The cache of the process. -/
abbrev RunEventSegmentCache :=
  AList fun _ : RunEventSegmentCacheKey => RunEventSegmentCacheEntry

/-- What the loop over the segments adds up. -/
structure SegmentTotals where
  events : List RunEvent := []
  segmentCount : Nat := 0
  mmapSegmentCount : Nat := 0
  totalFileBytes : Nat := 0
  materializedHashBytes : Nat := 0
  mmapBackingUsed : Bool := true
  streamReaderMaterializesEvents : Bool := false

/-- A segment is added in the same way whether it was decoded or found in the cache. -/
def SegmentTotals.add (totals : SegmentTotals) (segment : RunEventSegmentCacheEntry) :
    SegmentTotals where
  events := totals.events ++ segment.events
  segmentCount := saturatingAdd u64Max totals.segmentCount segment.evidence.segmentCount
  mmapSegmentCount :=
    saturatingAdd u64Max totals.mmapSegmentCount segment.evidence.mmapSegmentCount
  totalFileBytes := saturatingAdd u64Max totals.totalFileBytes segment.evidence.totalFileBytes
  materializedHashBytes :=
    saturatingAdd u64Max totals.materializedHashBytes segment.evidence.materializedHashBytes
  mmapBackingUsed := totals.mmapBackingUsed && segment.evidence.mmapBackingUsed
  streamReaderMaterializesEvents :=
    totals.streamReaderMaterializesEvents || segment.evidence.streamReaderMaterializesEvents

namespace RunEventSegmentArchive

variable (blake3 : Hasher) (arrow : ArrowIpc) (runEventSize : Nat)

def evidenceOfTotals (totals : SegmentTotals) : ReplayIoEvidence :=
  .fromTotals blake3 totals.segmentCount totals.mmapSegmentCount totals.totalFileBytes
    totals.events.length (totals.events.length * runEventSize) totals.materializedHashBytes
    totals.mmapBackingUsed totals.streamReaderMaterializesEvents

/-- The events of a mapped file that an entry names, and the report of reading them. -/
def decodeFile (bytes : List UInt8) (entry : RunEventSegmentEntry) :
    Except String RunEventSegmentCacheEntry := do
  let events ← appendEventsMmap arrow blake3 bytes false
  let fileBytes := BitVec.ofNat 64 bytes.length
  if fileBytes != entry.arrowFileBytes || blake3 bytes != entry.arrowFileHash then
    .error "mmap run event arrow segment file evidence mismatch"
  else if !entry.matchesEventsAfterManifestValidation blake3 events then
    .error "mmap run event segment hash mismatch"
  else return { events, evidence := .forMmapSegment blake3 runEventSize fileBytes.toNat events }

def decodeSegmentWithEvidence (files : Files) (path : SegmentPath)
    (entry : RunEventSegmentEntry) : Except String RunEventSegmentCacheEntry :=
  match files path with
  | none => .error "failed to open mmap run event arrow stream"
  | some bytes => decodeFile blake3 arrow runEventSize bytes entry

/-- The sidecar and the file of a segment, before its events are wanted. -/
def checkSegmentFiles (files : Files) (runId : RunId) (verifyCommitSidecars : Bool)
    (entry : RunEventSegmentEntry) : Except String PUnit :=
  if verifyCommitSidecars &&
      !entry.matchesCommitFile blake3 files (.commit runId entry.segmentId) runId then
    .error "mmap run event arrow segment commit evidence mismatch"
  else do
    let (arrowFileBytes, arrowFileHash) ←
      arrowStreamFileEvidence blake3 files (.segment runId entry.segmentId)
    if arrowFileBytes != entry.arrowFileBytes || arrowFileHash != entry.arrowFileHash then
      .error "mmap run event arrow segment file evidence mismatch"
    else .ok ⟨⟩

/-- One segment of the manifest, from the cache where it is there. -/
def readSegmentWithEvidence (files : Files) (runId : RunId) (verifyCommitSidecars : Bool)
    (cache : RunEventSegmentCache) (entry : RunEventSegmentEntry) :
    Except String (RunEventSegmentCacheEntry × RunEventSegmentCache) := do
  checkSegmentFiles blake3 files runId verifyCommitSidecars entry
  let key := RunEventSegmentCacheKey.fromEntry runId entry
  match cache.lookup key with
  | some cached =>
    if !entry.matchesCachedEvents blake3 cached.events then
      .error "cached mmap run event segment hash mismatch"
    else return (cached, cache)
  | none =>
    let segment ← decodeSegmentWithEvidence blake3 arrow runEventSize files
      (.segment runId entry.segmentId) entry
    return (segment, boundedPut runEventSegmentCacheMaxEntries cache key segment)

/-- The loop over the segments. A failure keeps what has been cached before it. -/
def readSegmentsWithEvidence (files : Files) (runId : RunId) (verifyCommitSidecars : Bool) :
    RunEventSegmentCache → SegmentTotals → List RunEventSegmentEntry →
      Except String SegmentTotals × RunEventSegmentCache
  | cache, totals, [] => (.ok totals, cache)
  | cache, totals, entry :: entries =>
    match readSegmentWithEvidence blake3 arrow runEventSize files runId verifyCommitSidecars cache
        entry with
    | .error error => (.error error, cache)
    | .ok (segment, cache) =>
      readSegmentsWithEvidence files runId verifyCommitSidecars cache (totals.add segment) entries

def totalEventCount (entries : List RunEventSegmentEntry) : Option Nat :=
  entries.foldlM (fun total entry => checkedAdd u64Max total entry.eventCount.toNat) 0

/-- The ledger of the events read. -/
def replaySegments (manifest : RunEventSegmentManifest) (total : Nat) (events : List RunEvent) :
    Except String RunEventLedger := do
  let ledger ← BinaryRunEventSegment.reportAs "invalid recovered mmap run event segment ledger"
    (RunEventLedger.fromEvents blake3 manifest.runId events)
  if ledger.events.length != total then .error "run event count mismatch"
  else return ledger

/-- The ledger of what the loop has read, and the report. -/
def replayTotals (manifest : RunEventSegmentManifest) (total : Nat) (totals : SegmentTotals) :
    Except String (RunEventLedger × ReplayIoEvidence) := do
  let ledger ← replaySegments blake3 manifest total totals.events
  return (ledger, evidenceOfTotals blake3 runEventSize totals)

def readLedgerMmapWithEvidenceInner (files : Files) (verifyCommitSidecars : Bool)
    (cache : RunEventSegmentCache) (manifest : RunEventSegmentManifest) :
    Except String (RunEventLedger × ReplayIoEvidence) × RunEventSegmentCache :=
  if !manifest.isValid blake3 then (.error "invalid mmap run event segment manifest", cache)
  else
    match totalEventCount manifest.entries with
    | none => (.error "run event count overflow", cache)
    | some total =>
      let (totals, cache) := readSegmentsWithEvidence blake3 arrow runEventSize files
        manifest.runId verifyCommitSidecars cache {} manifest.entries
      (totals.bind (replayTotals blake3 runEventSize manifest total), cache)

def readLedgerMmapWithEvidence (files : Files) (cache : RunEventSegmentCache)
    (manifest : RunEventSegmentManifest) :
    Except String (RunEventLedger × ReplayIoEvidence) × RunEventSegmentCache :=
  readLedgerMmapWithEvidenceInner blake3 arrow runEventSize files true cache manifest

/-- The same reader, its report thrown away. -/
def readLedgerMmap (files : Files) (cache : RunEventSegmentCache)
    (manifest : RunEventSegmentManifest) : Except String RunEventLedger × RunEventSegmentCache :=
  let (read, cache) := readLedgerMmapWithEvidence blake3 arrow runEventSize files cache manifest
  (read.map Prod.fst, cache)

end RunEventSegmentArchive

end Aegis.Replay
