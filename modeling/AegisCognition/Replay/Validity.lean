import AegisCognition.Replay.Archive

/-!
# Validity checks and their arithmetic

The validity of a manifest and of an audit proof is decided on numbers that a file may hold, and
both checks count the events of a range as `end - start + 1`. Here an evaluation is modelled with
the overflow it may meet: it is `none` where a step of the arithmetic does not fit.

The check of a manifest looks at `start <= end` first, so only the full range of 64 bits is too
long to be counted. The check of an audit proof looks at its range after it has counted it.
-/

namespace Aegis.Replay

open Foundation RunEventSegmentManifest List

/-- The number of events from `start` to `stop`, each step checked for overflow. -/
def countEvents (start stop : EventId) : Option (BitVec 64) :=
  if stop < start then none
  else if stop - start = BitVec.allOnes 64 then none
  else some (stop - start + 1)

variable {start stop : EventId} {count : BitVec 64}

theorem sub_eq_allOnes_iff (ordered : start ≤ stop) :
    stop - start = BitVec.allOnes 64 ↔ start = 0 ∧ stop = BitVec.allOnes 64 := by
  rw [BitVec.toNat_eq, BitVec.toNat_sub_of_le ordered, BitVec.toNat_eq, BitVec.toNat_eq,
    BitVec.toNat_allOnes]
  have bound := stop.isLt
  show stop.toNat - start.toNat = 2 ^ 64 - 1 ↔ start.toNat = 0 ∧ stop.toNat = 2 ^ 64 - 1
  omega

theorem countEvents_eq_none_iff : countEvents start stop = none ↔
    stop < start ∨ start = 0 ∧ stop = BitVec.allOnes 64 := by
  rw [countEvents]
  by_cases reversed : stop < start
  · rw [if_pos reversed]
    exact iff_of_true rfl (.inl reversed)
  · rw [if_neg reversed, ← sub_eq_allOnes_iff (BitVec.not_lt.mp reversed)]
    by_cases full : stop - start = BitVec.allOnes 64
    · rw [if_pos full]
      exact iff_of_true rfl (.inr full)
    · rw [if_neg full]
      exact iff_of_false nofun (not_or.mpr ⟨reversed, full⟩)

/-- What is counted is the length of the range. -/
theorem toNat_of_countEvents (counted : countEvents start stop = some count) :
    start ≤ stop ∧ count = stop - start + 1 ∧
      start.toNat + count.toNat = stop.toNat + 1 := by
  have some : ¬ (stop < start ∨ start = 0 ∧ stop = BitVec.allOnes 64) := by
    intro overflows
    rw [countEvents_eq_none_iff.mpr overflows] at counted
    cases counted
  obtain ⟨ordered, partly⟩ := not_or.mp some
  rw [BitVec.not_lt] at ordered
  rw [← sub_eq_allOnes_iff ordered] at partly
  rw [countEvents, if_neg (BitVec.not_lt.mpr ordered), if_neg partly] at counted
  cases counted
  refine ⟨ordered, rfl, ?_⟩
  have fits : (stop - start).toNat ≠ 2 ^ 64 - 1 := by
    intro same
    apply partly
    rw [BitVec.toNat_eq, BitVec.toNat_allOnes, same]
  rw [BitVec.toNat_sub_of_le ordered] at fits
  rw [BitVec.toNat_add, BitVec.toNat_sub_of_le ordered]
  have bound := stop.isLt
  have below : start.toNat ≤ stop.toNat := ordered
  show start.toNat + (stop.toNat - start.toNat + 1) % 2 ^ 64 = stop.toNat + 1
  omega

namespace RunEventSegmentManifest

/-- Why the check of an entry stops: it refuses, or its arithmetic overflows. -/
inductive Stop where
  | refused
  | overflowed

variable (blake3 : Hasher)

def checksBeforeCount (runId : RunId) (position : Position) (entry : RunEventSegmentEntry) :
    Bool :=
  entry.segmentId == BitVec.ofNat 64 position.index + 1 &&
    entry.previousSegmentHash == position.previousHash &&
    entry.arrowSchemaHash == arrowRunEventSchemaHash blake3 &&
    decide (0 < entry.arrowFileBytes) && nonzeroHash entry.arrowFileHash &&
    entry.segmentCommitHash ==
      (RunEventSegmentCommitProof.fromEntry blake3 runId entry).commitHash &&
    entry.publishEvidence.complete && decide (entry.startEventId ≤ entry.endEventId)

def Position.next (position : Position) (entry : RunEventSegmentEntry) : Position where
  index := position.index + 1
  previousHash := entry.segmentHash
  previousEnd := entry.endEventId

/-- The check of one entry, with the overflow of its count. -/
def evaluateEntry (runId : RunId) (position : Position) (entry : RunEventSegmentEntry) :
    Except Stop Position :=
  if checksBeforeCount blake3 runId position entry then
    match countEvents entry.startEventId entry.endEventId with
    | none => .error .overflowed
    | some count =>
      if entry.eventCount == count && position.startOk entry.startEventId then
        .ok (position.next entry)
      else .error .refused
  else .error .refused

/-- The validity check of a manifest, with the overflow that it may meet. -/
def isValidChecked (manifest : RunEventSegmentManifest) : Option Bool :=
  if manifest.manifestHash == runEventManifestHash blake3 manifest.runId manifest.entries then
    match manifest.entries.foldlM (evaluateEntry blake3 manifest.runId) {} with
    | .ok _ => some true
    | .error .refused => some false
    | .error .overflowed => none
  else some false

/-- An entry that the check lets through. -/
structure Accepts (runId : RunId) (position : Position) (entry : RunEventSegmentEntry) : Prop where
  checked : checksBeforeCount blake3 runId position entry
  counted : countEvents entry.startEventId entry.endEventId = some entry.eventCount
  follows : position.startOk entry.startEventId

/-- An entry that the check reaches and cannot count: it spans all numbers of 64 bits. -/
structure Overflows (runId : RunId) (position : Position) (entry : RunEventSegmentEntry) :
    Prop where
  checked : checksBeforeCount blake3 runId position entry
  first : entry.startEventId = 0
  last : entry.endEventId = BitVec.allOnes 64

/-- Entries that are non-empty ranges, each starting where the one before it ends. -/
structure RangesJoin (entries : List RunEventSegmentEntry) : Prop where
  nonempty : ∀ entry ∈ entries, entry.startEventId ≤ entry.endEventId
  adjacent : entries.IsChain fun entry next =>
    next.startEventId.toNat = entry.endEventId.toNat + 1
  increasing : entries.Pairwise fun entry later => entry.endEventId < later.startEventId
  total : ∀ first ∈ entries.head?, ∀ last ∈ entries.getLast?,
    first.startEventId.toNat + (entries.map fun entry => entry.eventCount.toNat).sum =
      last.endEventId.toNat + 1

variable {blake3} {runId : RunId} {position : Position} {entry : RunEventSegmentEntry}
variable {entries : List RunEventSegmentEntry} {manifest : RunEventSegmentManifest}

theorem evaluateEntry_guards :
    Guards (evaluateEntry blake3 runId) (Accepts blake3 runId) Position.next := by
  intro position entry after
  rw [evaluateEntry]
  constructor
  · intro passed
    split at passed
    · rename_i checked
      cases counted : countEvents entry.startEventId entry.endEventId with
      | none =>
          rw [counted] at passed
          cases passed
      | some count =>
          simp only [counted] at passed
          split at passed
          · rename_i agrees
            obtain ⟨same, follows⟩ := Bool.and_eq_true_iff.mp agrees
            obtain rfl : entry.eventCount = count := eq_of_beq same
            exact ⟨⟨checked, counted, follows⟩, (Except.ok.inj passed).symm⟩
          · cases passed
    · cases passed
  · rintro ⟨accepted, rfl⟩
    simp only [accepted.checked, accepted.counted, accepted.follows, beq_self_eq_true,
      Bool.and_self, ite_true]

theorem start_le_of_checked (checked : checksBeforeCount blake3 runId position entry) :
    entry.startEventId ≤ entry.endEventId := by
  rw [checksBeforeCount, Bool.and_eq_true] at checked
  exact of_decide_eq_true checked.2

/-- Since the ends are compared first, the count overflows for the full range only. -/
theorem evaluateEntry_overflowed_iff :
    evaluateEntry blake3 runId position entry = .error .overflowed ↔
      Overflows blake3 runId position entry := by
  rw [evaluateEntry]
  by_cases checked : checksBeforeCount blake3 runId position entry
  · have ordered := start_le_of_checked checked
    have none_iff : countEvents entry.startEventId entry.endEventId = none ↔
        entry.startEventId = 0 ∧ entry.endEventId = BitVec.allOnes 64 := by
      rw [countEvents_eq_none_iff, or_iff_right (BitVec.not_lt.mpr ordered)]
    rw [if_pos checked]
    cases counted : countEvents entry.startEventId entry.endEventId with
    | none =>
        obtain ⟨first, last⟩ := none_iff.mp counted
        exact iff_of_true rfl ⟨checked, first, last⟩
    | some count =>
        refine iff_of_false ?_ fun overflows => ?_
        · simp only
          split <;> exact nofun
        · rw [none_iff.mpr ⟨overflows.first, overflows.last⟩] at counted
          cases counted
  · rw [if_neg checked]
    exact iff_of_false nofun fun overflows => checked overflows.checked

/-- Where a manifest has its own hash, no entry that follows on accepted ones spans all numbers
of 64 bits. -/
def NoFullRange (blake3 : Hasher) (manifest : RunEventSegmentManifest) : Prop :=
  manifest.manifestHash = runEventManifestHash blake3 manifest.runId manifest.entries →
    ∀ before entry after, manifest.entries = before ++ entry :: after →
      Along Position.next (Accepts blake3 manifest.runId) {} before →
        ¬ Overflows blake3 manifest.runId (run Position.next {} before) entry

theorem isValidChecked_isSome_iff :
    (manifest.isValidChecked blake3).isSome ↔ manifest.NoFullRange blake3 := by
  rw [isValidChecked]
  by_cases own : manifest.manifestHash =
      runEventManifestHash blake3 manifest.runId manifest.entries
  · rw [if_pos (beq_iff_eq.mpr own)]
    have overflows : manifest.entries.foldlM (evaluateEntry blake3 manifest.runId) {} =
        .error .overflowed ↔ ¬ manifest.NoFullRange blake3 := by
      rw [evaluateEntry_guards.scan_error_iff]
      simp only [evaluateEntry_overflowed_iff, NoFullRange, own, true_implies, not_forall, not_not,
        exists_prop]
    cases scanned : manifest.entries.foldlM (evaluateEntry blake3 manifest.runId) {} with
    | ok position =>
        rw [scanned] at overflows
        exact iff_of_true rfl (not_not.mp fun full => nomatch overflows.mpr full)
    | error stop =>
        rw [scanned] at overflows
        cases stop with
        | refused => exact iff_of_true rfl (not_not.mp fun full => nomatch overflows.mpr full)
        | overflowed => exact iff_of_false nofun (overflows.mp rfl)
  · rw [if_neg (by simpa using own)]
    exact iff_of_true rfl fun same => absurd same own

theorem isValidChecked_eq_true_iff : manifest.isValidChecked blake3 = some true ↔
    manifest.manifestHash = runEventManifestHash blake3 manifest.runId manifest.entries ∧
      Along Position.next (Accepts blake3 manifest.runId) {} manifest.entries := by
  rw [isValidChecked]
  by_cases own : manifest.manifestHash =
      runEventManifestHash blake3 manifest.runId manifest.entries
  · rw [if_pos (beq_iff_eq.mpr own), and_iff_right own]
    have accepted (after : Position) :
        manifest.entries.foldlM (evaluateEntry blake3 manifest.runId) {} = .ok after ↔ _ :=
      evaluateEntry_guards.scan_ok_iff
    cases scanned : manifest.entries.foldlM (evaluateEntry blake3 manifest.runId) {} with
    | ok position => exact iff_of_true rfl ((accepted position).mp scanned).1
    | error stop =>
        refine iff_of_false ?_ fun along => ?_
        · cases stop <;> exact nofun
        · rw [(accepted _).mpr ⟨along, rfl⟩] at scanned
          cases scanned
  · rw [if_neg (by simpa using own)]
    exact iff_of_false nofun fun valid => own valid.1

theorem startOk_next {start : EventId} (ok : (position.next entry).startOk start) :
    start.toNat = entry.endEventId.toNat + 1 := by
  obtain first | ⟨room, same⟩ := by
    simpa only [Position.startOk, Bool.or_eq_true, Bool.and_eq_true, beq_iff_eq,
      bne_iff_ne] using ok
  · cases first
  · rw [same]
    have bound := (position.next entry).previousEnd.isLt
    have below : (position.next entry).previousEnd.toNat ≠ 2 ^ 64 - 1 := by
      intro full
      apply room
      rw [BitVec.toNat_eq, full, BitVec.toNat_allOnes]
    rw [BitVec.toNat_add]
    show (entry.endEventId.toNat + 1) % 2 ^ 64 = entry.endEventId.toNat + 1
    have : entry.endEventId.toNat ≠ 2 ^ 64 - 1 := below
    omega

theorem RangesJoin.cons {next : RunEventSegmentEntry} (rest : RangesJoin (next :: entries))
    (ordered : entry.startEventId ≤ entry.endEventId)
    (counted : entry.startEventId.toNat + entry.eventCount.toNat = entry.endEventId.toNat + 1)
    (joined : next.startEventId.toNat = entry.endEventId.toNat + 1) :
    RangesJoin (entry :: next :: entries) where
  nonempty := forall_mem_cons.mpr ⟨ordered, rest.nonempty⟩
  adjacent := isChain_cons_cons.mpr ⟨joined, rest.adjacent⟩
  increasing := by
    have behind : entry.endEventId < next.startEventId := by
      show entry.endEventId.toNat < next.startEventId.toNat
      omega
    refine pairwise_cons.mpr ⟨forall_mem_cons.mpr ⟨behind, ?_⟩, rest.increasing⟩
    intro later mem
    have inside : next.startEventId.toNat ≤ next.endEventId.toNat :=
      rest.nonempty next mem_cons_self
    have after : next.endEventId.toNat < later.startEventId.toNat :=
      (pairwise_cons.mp rest.increasing).1 later mem
    show entry.endEventId.toNat < later.startEventId.toNat
    omega
  total := by
    rintro first ⟨⟩ last ended
    rw [getLast?_cons_cons] at ended
    have whole := rest.total next rfl last ended
    rw [map_cons, sum_cons]
    omega

/-- Accepted entries are ranges that join, since each is counted and follows on the one before. -/
theorem rangesJoin_of_along
    (accepted : Along Position.next (Accepts blake3 runId) position entries) :
    RangesJoin entries := by
  induction entries generalizing position with
  | nil => exact ⟨nofun, .nil, .nil, nofun⟩
  | cons entry entries ih =>
      obtain ⟨accepts, along⟩ := accepted
      have ordered := start_le_of_checked accepts.checked
      obtain ⟨-, -, counted⟩ := toNat_of_countEvents accepts.counted
      have rest := ih along
      cases entries with
      | nil =>
          refine ⟨by simpa using ordered, .singleton _, pairwise_singleton _ _, ?_⟩
          rintro first ⟨⟩ last ⟨⟩
          rw [map_singleton, sum_singleton]
          exact counted
      | cons next entries => exact rest.cons ordered counted (startOk_next along.1.follows)

theorem rangesJoin_of_isValidChecked (valid : manifest.isValidChecked blake3 = some true) :
    RangesJoin manifest.entries :=
  rangesJoin_of_along (isValidChecked_eq_true_iff.mp valid).2

end RunEventSegmentManifest

structure SegmentedArrowAuditProof where
  runId : RunId
  segmentCount : BitVec 64
  eventCount : BitVec 64
  totalArrowFileBytes : BitVec 64
  mmapBufferCount : BitVec 64
  firstEventId : EventId
  lastEventId : EventId
  manifestHash : Hash
  arrowSchemaHash : Hash
  segmentChainHash : Hash
  segmentWitnessHash : Hash
  fileEvidenceHash : Hash
  logicalReplayHash : Hash
  mmapEvidenceHash : Hash
  semanticScanHash : Hash
  proofHash : Hash

namespace SegmentedArrowAuditProof

variable (blake3 : Hasher)

section

variable (proof : SegmentedArrowAuditProof)

def semanticScanPreimage : List UInt8 :=
  utf8Bytes "aegis-segmented-arrow-semantic-scan-v2" ++ u128Bytes proof.runId ++
    u64Bytes proof.segmentCount ++ u64Bytes proof.eventCount ++
    u64Bytes proof.totalArrowFileBytes ++ u64Bytes proof.mmapBufferCount ++
    u64Bytes proof.firstEventId ++ u64Bytes proof.lastEventId ++ proof.manifestHash.bytes ++
    proof.arrowSchemaHash.bytes ++ proof.segmentChainHash.bytes ++
    proof.segmentWitnessHash.bytes ++ proof.fileEvidenceHash.bytes ++
    proof.logicalReplayHash.bytes ++ proof.mmapEvidenceHash.bytes

def proofPreimage : List UInt8 :=
  utf8Bytes "aegis-segmented-arrow-audit-proof-v2" ++ u128Bytes proof.runId ++
    u64Bytes proof.segmentCount ++ u64Bytes proof.eventCount ++
    u64Bytes proof.totalArrowFileBytes ++ u64Bytes proof.firstEventId ++
    u64Bytes proof.lastEventId ++ proof.manifestHash.bytes ++ proof.arrowSchemaHash.bytes ++
    u64Bytes proof.mmapBufferCount ++ proof.segmentChainHash.bytes ++
    proof.segmentWitnessHash.bytes ++ proof.fileEvidenceHash.bytes ++
    proof.logicalReplayHash.bytes ++ proof.mmapEvidenceHash.bytes ++
    proof.semanticScanHash.bytes

/-- The validity check of an audit proof, with the overflow that it may meet. -/
def isValidChecked : Option Bool :=
  if proof.runId != 0 && decide (0 < proof.segmentCount) && decide (0 < proof.eventCount) then
    match countEvents proof.firstEventId proof.lastEventId with
    | none => none
    | some count =>
      some (proof.eventCount == count && decide (0 < proof.totalArrowFileBytes) &&
        decide (0 < proof.mmapBufferCount) && decide (0 < proof.firstEventId) &&
        decide (proof.firstEventId ≤ proof.lastEventId) &&
        proof.arrowSchemaHash == arrowRunEventSchemaHash blake3 &&
        nonzeroHash proof.manifestHash && nonzeroHash proof.segmentChainHash &&
        nonzeroHash proof.segmentWitnessHash && nonzeroHash proof.fileEvidenceHash &&
        nonzeroHash proof.logicalReplayHash && nonzeroHash proof.mmapEvidenceHash &&
        proof.semanticScanHash == blake3 proof.semanticScanPreimage &&
        nonzeroHash proof.semanticScanHash && proof.proofHash == blake3 proof.proofPreimage &&
        nonzeroHash proof.proofHash)
  else some false

/-- Where the run is named and both counts are positive, the range is neither reversed nor the
full one of 64 bits. -/
def RangeFits : Prop :=
  proof.runId ≠ 0 → 0 < proof.segmentCount → 0 < proof.eventCount →
    proof.firstEventId ≤ proof.lastEventId ∧
      ¬ (proof.firstEventId = 0 ∧ proof.lastEventId = BitVec.allOnes 64)

end

variable {blake3} {proof : SegmentedArrowAuditProof}

theorem isValidChecked_isSome_iff : (proof.isValidChecked blake3).isSome ↔ proof.RangeFits := by
  have none_iff : countEvents proof.firstEventId proof.lastEventId = none ↔
      ¬ (proof.firstEventId ≤ proof.lastEventId ∧
        ¬ (proof.firstEventId = 0 ∧ proof.lastEventId = BitVec.allOnes 64)) := by
    rw [countEvents_eq_none_iff, not_and_or, BitVec.not_le, not_not]
  have reached_iff : (proof.runId != 0 && decide (0 < proof.segmentCount) &&
      decide (0 < proof.eventCount)) = true ↔
        proof.runId ≠ 0 ∧ 0 < proof.segmentCount ∧ 0 < proof.eventCount := by
    simp only [Bool.and_eq_true, bne_iff_ne, decide_eq_true_eq, and_assoc]
  rw [isValidChecked]
  by_cases reached : proof.runId ≠ 0 ∧ 0 < proof.segmentCount ∧ 0 < proof.eventCount
  · rw [if_pos (reached_iff.mpr reached)]
    obtain ⟨named, segments, events⟩ := reached
    cases counted : countEvents proof.firstEventId proof.lastEventId with
    | none => exact iff_of_false nofun fun fits => none_iff.mp counted (fits named segments events)
    | some count =>
        refine iff_of_true rfl fun _ _ _ => ?_
        by_contra unfit
        rw [none_iff.mpr unfit] at counted
        cases counted
  · rw [if_neg (reached_iff.not.mpr reached)]
    exact iff_of_true rfl fun named segments events => absurd ⟨named, segments, events⟩ reached

end SegmentedArrowAuditProof

/-- Both validity checks can be evaluated without overflow, and a valid manifest has ranges that
join, exactly when no range that they count is the full one or reversed. -/
theorem validity_evaluates_iff (blake3 : Hasher) (manifest : RunEventSegmentManifest)
    (proof : SegmentedArrowAuditProof) :
    ((manifest.isValidChecked blake3).isSome ∧ (proof.isValidChecked blake3).isSome ∧
      (manifest.isValidChecked blake3 = some true →
        RunEventSegmentManifest.RangesJoin manifest.entries)) ↔
    manifest.NoFullRange blake3 ∧ proof.RangeFits := by
  rw [isValidChecked_isSome_iff, SegmentedArrowAuditProof.isValidChecked_isSome_iff]
  constructor
  · rintro ⟨manifest, proof, -⟩
    exact ⟨manifest, proof⟩
  · rintro ⟨manifest, proof⟩
    exact ⟨manifest, proof, rangesJoin_of_isValidChecked⟩

/-- A segment that claims all event numbers of 64 bits, with the fields that are checked before
they are counted. -/
def fullRangeEntry (blake3 : Hasher) : RunEventSegmentEntry :=
  RunEventSegmentEntry.refreshSegmentCommitHash blake3 1
    { segmentId := 1
      startEventId := 0
      endEventId := BitVec.allOnes 64
      eventCount := 0
      firstEventHash := .fill 1
      lastEventHash := .fill 1
      segmentHash := .fill 1
      previousSegmentHash := .zero
      arrowSchemaHash := arrowRunEventSchemaHash blake3
      arrowFileBytes := 1
      arrowFileHash := .fill 1
      segmentCommitHash := .zero
      publishEvidence := .syncedTempPublish true }

/-- An audit proof whose last event comes before its first one. -/
def reversedAuditProof : SegmentedArrowAuditProof where
  runId := 1
  segmentCount := 1
  eventCount := 1
  totalArrowFileBytes := 1
  mmapBufferCount := 1
  firstEventId := 2
  lastEventId := 1
  manifestHash := .fill 1
  arrowSchemaHash := .fill 1
  segmentChainHash := .fill 1
  segmentWitnessHash := .fill 1
  fileEvidenceHash := .fill 1
  logicalReplayHash := .fill 1
  mmapEvidenceHash := .fill 1
  semanticScanHash := .fill 1
  proofHash := .fill 1

/-- Whatever the hashes are, neither check can be evaluated. -/
theorem full_and_reversed_ranges_overflow :
    ¬ ∃ blake3 : Hasher,
      ((RunEventSegmentManifest.new blake3 1 [fullRangeEntry blake3]).isValidChecked
        blake3).isSome ∨ (reversedAuditProof.isValidChecked blake3).isSome := by
  rintro ⟨blake3, manifest | proof⟩
  · have checked : checksBeforeCount blake3 1 {} (fullRangeEntry blake3) = true := by
      simp only [checksBeforeCount, Bool.and_eq_true, beq_iff_eq]
      exact ⟨⟨⟨⟨⟨⟨⟨rfl, rfl⟩, rfl⟩, rfl⟩, rfl⟩, rfl⟩, rfl⟩, rfl⟩
    exact isValidChecked_isSome_iff.mp manifest rfl [] (fullRangeEntry blake3) [] rfl
      trivial ⟨checked, rfl, rfl⟩
  · cases proof

end Aegis.Replay
