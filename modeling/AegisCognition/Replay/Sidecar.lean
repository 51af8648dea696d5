import AegisCognition.Foundation.Delimiting
import AegisCognition.Replay.Archive
import AegisCognition.Replay.BinaryRoundTrip

/-!
# The commit sidecar

A sidecar is read field by field at fixed places, and the fields together cover all of its bytes.
The version, the flags and the hash that are read must be the ones that encoding writes. So a
valid proof has one encoding, and nothing else is decoded to it.
-/

namespace Aegis.Replay

open Foundation BinaryRunEventSegment List

variable {bytes : List UInt8} {offset : Nat}

theorem readU64Le_eq_ok_iff {value : BitVec 64} :
    readU64Le bytes offset = .ok value ↔ slice bytes offset (offset + 8) = u64Bytes value := by
  constructor
  · intro read
    by_cases inside : offset + 8 ≤ bytes.length
    · rw [readU64Le_eq inside] at read
      rw [← Except.ok.inj read, u64Bytes_ofLeBytes]
      rw [length_slice inside, Nat.add_sub_cancel_left]
    · rw [readU64Le, if_neg inside] at read
      cases read
  · intro spelled
    have width := congrArg List.length spelled
    rw [length_u64Bytes, slice, length_take, length_drop] at width
    rw [readU64Le_eq (by omega), spelled, ofNat_ofLeBytes_u64Bytes]

theorem readU128Le_eq_ok_iff {value : BitVec 128} :
    readU128Le bytes offset = .ok value ↔ slice bytes offset (offset + 16) = u128Bytes value := by
  constructor
  · intro read
    by_cases inside : offset + 16 ≤ bytes.length
    · rw [readU128Le_eq inside] at read
      rw [← Except.ok.inj read, u128Bytes_ofLeBytes]
      rw [length_slice inside, Nat.add_sub_cancel_left]
    · rw [readU128Le, if_neg inside] at read
      cases read
  · intro spelled
    have width := congrArg List.length spelled
    rw [length_u128Bytes, slice, length_take, length_drop] at width
    rw [readU128Le_eq (by omega), spelled, ofNat_ofLeBytes_u128Bytes]

theorem hashFromSlice_eq_ok_iff {hash : Hash} :
    hashFromSlice bytes = .ok hash ↔ bytes = hash.bytes := by
  constructor
  · intro read
    by_cases width : bytes.length = 32
    · rw [hashFromSlice, if_pos width] at read
      rw [← Except.ok.inj read, Hash.bytes_ofBytes width]
    · rw [hashFromSlice, if_neg width] at read
      cases read
  · rintro rfl
    rw [hashFromSlice, if_pos hash.length_eq, Hash.ofBytes_bytes]

namespace RunEventSegmentCommitProof

variable {blake3 : Hasher} {proof : RunEventSegmentCommitProof}

theorem decodeBoolFlag_eq_ok_iff {value : UInt8} {flag : Bool} :
    decodeBoolFlag value = .ok flag ↔ value = boolByte flag := by
  rw [decodeBoolFlag]
  by_cases zero : value = 0
  · subst zero
    cases flag <;> decide
  · by_cases one : value = 1
    · subst one
      cases flag <;> decide
    · rw [if_neg (by simpa using zero), if_neg (by simpa using one)]
      cases flag
      · exact iff_of_false nofun zero
      · exact iff_of_false nofun one

/-- The fields of a sidecar, in the order in which they stand in the file. -/
def parts (proof : RunEventSegmentCommitProof) : List (List UInt8) :=
  [magic, u64Bytes version, u128Bytes proof.runId, u64Bytes proof.segmentId,
    u64Bytes proof.startEventId, u64Bytes proof.endEventId, u64Bytes proof.eventCount,
    proof.arrowSchemaHash.bytes, u64Bytes proof.arrowFileBytes, proof.arrowFileHash.bytes,
    proof.firstEventHash.bytes, proof.lastEventHash.bytes, proof.segmentHash.bytes,
    proof.previousSegmentHash.bytes, [boolByte proof.publishEvidence.stagedTempFileUsed],
    [boolByte proof.publishEvidence.tempFileSyncedBeforePublish],
    [boolByte proof.publishEvidence.publishCompleted],
    [boolByte proof.publishEvidence.parentDirectorySyncAttempted], proof.commitHash.bytes]

/-- A proof that holds its own hash is encoded field by field. -/
theorem encode_eq_flatten (own : proof.commitHash = proof.computeHash blake3) :
    proof.encode blake3 = proof.parts.flatten := by
  rw [encode, ← own]
  simp only [parts, flatten_cons, flatten_nil, append_nil, append_assoc,
    RunEventSegmentPublishEvidence.bytes, cons_append, nil_append]

theorem length_magic : magic.length = 8 := by decide

theorem isValid_iff : proof.isValid blake3 ↔ proof.hasValidFields blake3 ∧
    proof.commitHash = proof.computeHash blake3 ∧ nonzeroHash proof.commitHash := by
  rw [isValid, Bool.and_eq_true, Bool.and_eq_true, beq_iff_eq, and_assoc]

/-- Decoding finds every field at its place and checks the proof that they make. -/
theorem decode_eq_ok_iff_laid : decode blake3 bytes = .ok proof ↔
    Laid bytes 0 proof.parts ∧ proof.isValid blake3 := by
  have single {offset : Nat} (inside : offset < 300) (length : bytes.length = 300) :
      slice bytes offset (offset + 1) = [byteAt bytes offset] :=
    slice_singleton (by omega)
  simp only [decode, ite_error_eq_ok_iff, bind_eq_ok_iff, readU64Le_eq_ok_iff,
    readU128Le_eq_ok_iff, hashFromSlice_eq_ok_iff, decodeBoolFlag_eq_ok_iff, pure_eq_ok_iff,
    parts, Laid, length_magic, length_u64Bytes, length_u128Bytes, Hash.length_eq,
    length_singleton, Nat.reduceAdd, hashOffset, commitBytes, bne_iff_ne, ne_eq, not_not,
    Bool.or_eq_true, not_or, Bool.not_eq_true', Bool.not_eq_false, isValid_iff]
  constructor
  · rintro ⟨length, start, _, found, rfl, _, staged, _, synced, _, published, _, parent, _, runId,
      _, segment, _, first, _, last, _, count, _, schema, _, size, _, file, _, firstEvent, _,
      lastEvent, _, segmentHash, _, previous, _, commit, ⟨⟨own, fields⟩, nonzero⟩, rfl⟩
    refine ⟨⟨start, found, runId, segment, first, last, count, schema, size, file, firstEvent,
      lastEvent, segmentHash, previous, ?_, ?_, ?_, ?_, commit, length⟩, fields, own, nonzero⟩
    · rw [single (by decide) length, staged]
    · rw [single (by decide) length, synced]
    · rw [single (by decide) length, published]
    · rw [single (by decide) length, parent]
  · rintro ⟨⟨start, found, runId, segment, first, last, count, schema, size, file, firstEvent,
      lastEvent, segmentHash, previous, staged, synced, published, parent, commit, length⟩,
      fields, own, nonzero⟩
    rw [single (by decide) length] at staged synced published parent
    exact ⟨length, start, _, found, rfl, _, head_eq_of_cons_eq staged, _,
      head_eq_of_cons_eq synced, _, head_eq_of_cons_eq published, _,
      head_eq_of_cons_eq parent, _, runId, _, segment, _, first, _, last, _, count, _,
      schema, _, size, _, file, _, firstEvent, _, lastEvent, _, segmentHash, _, previous, _,
      commit, ⟨⟨own, fields⟩, nonzero⟩, rfl⟩

/-- A sidecar is decoded to a proof exactly when the proof is valid and the sidecar is its
encoding. -/
theorem decode_ok_iff_encodes (blake3 : Hasher) (bytes : List UInt8)
    (proof : RunEventSegmentCommitProof) :
    decode blake3 bytes = .ok proof ↔ proof.isValid blake3 ∧ proof.encode blake3 = bytes := by
  rw [decode_eq_ok_iff_laid, laid_iff, and_comm]
  refine and_congr_right fun valid => ?_
  rw [encode_eq_flatten (isValid_iff.mp valid).2.1]
  exact eq_comm

end RunEventSegmentCommitProof

end Aegis.Replay
