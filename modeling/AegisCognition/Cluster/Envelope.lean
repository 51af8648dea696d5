import AegisCognition.Goal.Contract
import Std.Data.ExtTreeMap.Lemmas

/-!
# Cluster work and candidate artifacts

An envelope describes one attempt at a piece of work; a candidate artifact is what a worker
offers for it. Both carry hashes over their own fields. The idempotency key of an envelope
covers everything except the deadline, so two envelopes may share a key and differ in it.
-/

namespace Aegis.Cluster

open Foundation
open Goal (SideEffectClass)
open Replay

abbrev WorkId := BitVec 128
abbrev WorkerId := BitVec 128
abbrev TaskId := BitVec 128

/-- The order of the byte strings, as the keys of the source's maps have it. -/
abbrev hashCompare (a b : Hash) : Ordering :=
  compareOn (fun hash : Hash => ofLeBytes hash.bytes.reverse) a b

instance : Std.TransCmp hashCompare :=
  inferInstanceAs (Std.TransCmp (compareOn fun hash : Hash => ofLeBytes hash.bytes.reverse))

instance : Std.LawfulEqCmp hashCompare where
  eq_of_compare := by
    rintro ⟨first, first_length⟩ ⟨second, second_length⟩ same
    have value : ofLeBytes first.reverse = ofLeBytes second.reverse := by
      simpa [hashCompare, compareOn, Nat.compare_eq_eq] using same
    have recovered := congrArg (leBytes 32) value
    rw [← first_length, ← @List.length_reverse _ first, leBytes_ofLeBytes, List.length_reverse,
      first_length, ← second_length, ← @List.length_reverse _ second,
      leBytes_ofLeBytes] at recovered
    obtain rfl := List.reverse_injective recovered
    rfl

inductive WorkerRole
  | wasmSandbox | browserWitness | computerWitness | inferenceBackend | retrievalIndexer
  | benchmarkRunner
  deriving DecidableEq

/-- The discriminant of the source's `repr(u8)` enumeration. -/
def WorkerRole.toU8 : WorkerRole → UInt8
  | wasmSandbox => 1
  | browserWitness => 2
  | computerWitness => 3
  | inferenceBackend => 4
  | retrievalIndexer => 5
  | benchmarkRunner => 6

inductive ClusterPartitionState
  | writerReachable | writerPartitioned
  deriving DecidableEq

inductive DistributedRuntimeError
  | invalidEnvelope | invalidLease | leaseAlreadyHeld | leaseExpired | workerMismatch
  | policyWindowMismatch | artifactMismatch | evidenceContractMismatch
  | partitionPausesSideEffects | directWorkerCommitRejected | replayAppendRejected

def sideEffectClassCode : SideEffectClass → UInt8
  | .none => 1
  | .localReversible => 2
  | .externalRead => 3
  | .externalWrite => 4
  | .destructive => 5
  | .financialLegal => 6

/-! ### Envelopes -/

structure ClusterWorkEnvelope where
  runId : RunId
  workId : WorkId
  taskId : TaskId
  workerRole : WorkerRole
  attempt : BitVec 32
  inputArtifactHashes : List Hash
  evidenceContractHash : Hash
  policyWindowHash : Hash
  sideEffectClass : SideEffectClass
  deadlineMs : BitVec 64
  idempotencyKey : Hash
  envelopeHash : Hash

namespace ClusterWorkEnvelope

/-- The fields that both hashes of an envelope cover, in the order they are hashed. -/
def workBytes (envelope : ClusterWorkEnvelope) : List UInt8 :=
  u128Bytes envelope.runId ++ u128Bytes envelope.workId ++ u128Bytes envelope.taskId ++
    [envelope.workerRole.toU8] ++ u32Bytes envelope.attempt ++
    leBytes 8 envelope.inputArtifactHashes.length ++
    envelope.inputArtifactHashes.flatMap Hash.bytes ++ envelope.evidenceContractHash.bytes ++
    envelope.policyWindowHash.bytes ++ [sideEffectClassCode envelope.sideEffectClass]

variable (blake3 : Hasher)

section

variable (envelope : ClusterWorkEnvelope)

def clusterWorkIdempotencyKey : Hash :=
  blake3 (utf8Bytes "aegis-cluster-work-idempotency-v1" ++ envelope.workBytes)

def clusterWorkEnvelopeHash : Hash :=
  blake3 (utf8Bytes "aegis-cluster-work-envelope-v1" ++ envelope.workBytes ++
    u64Bytes envelope.deadlineMs ++ envelope.idempotencyKey.bytes)

/-- What the fields other than the two hashes must satisfy. -/
def fieldsValid : Bool :=
  envelope.runId != 0 && envelope.workId != 0 && envelope.taskId != 0 && envelope.attempt != 0 &&
    envelope.deadlineMs != 0 && !envelope.inputArtifactHashes.isEmpty &&
    envelope.inputArtifactHashes.all nonzeroHash && nonzeroHash envelope.evidenceContractHash &&
    nonzeroHash envelope.policyWindowHash

def isValid : Bool :=
  envelope.fieldsValid &&
    envelope.idempotencyKey == envelope.clusterWorkIdempotencyKey blake3 &&
    envelope.envelopeHash == envelope.clusterWorkEnvelopeHash blake3

def pausesOnPartition : Bool :=
  envelope.sideEffectClass = .externalWrite || envelope.sideEffectClass = .destructive ||
    envelope.sideEffectClass = .financialLegal

end

variable {blake3}

end ClusterWorkEnvelope

/-! ### Candidate artifacts -/

structure CandidateArtifactRef where
  runId : RunId
  workId : WorkId
  workerId : WorkerId
  artifactHash : Hash
  artifactKindHash : Hash
  byteLen : BitVec 64
  evidenceContractHash : Hash
  policyWindowHash : Hash
  workerResultHash : Hash

namespace CandidateArtifactRef

variable (blake3 : Hasher)

def candidateArtifactRefHash (candidate : CandidateArtifactRef) : Hash :=
  blake3 (utf8Bytes "aegis-candidate-artifact-ref-v1" ++ u128Bytes candidate.runId ++
    u128Bytes candidate.workId ++ u128Bytes candidate.workerId ++ candidate.artifactHash.bytes ++
    candidate.artifactKindHash.bytes ++ u64Bytes candidate.byteLen ++
    candidate.evidenceContractHash.bytes ++ candidate.policyWindowHash.bytes)

def isValidFor (candidate : CandidateArtifactRef) (envelope : ClusterWorkEnvelope) : Bool :=
  candidate.runId == envelope.runId && candidate.workId == envelope.workId &&
    candidate.workerId != 0 && decide (0 < candidate.byteLen) &&
    candidate.evidenceContractHash == envelope.evidenceContractHash &&
    candidate.policyWindowHash == envelope.policyWindowHash &&
    nonzeroHash candidate.artifactHash && nonzeroHash candidate.artifactKindHash &&
    candidate.workerResultHash == candidate.candidateArtifactRefHash blake3

variable {blake3}

end CandidateArtifactRef

end Aegis.Cluster
