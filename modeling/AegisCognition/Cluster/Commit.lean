import AegisCognition.Cluster.Envelope
import AegisCognition.Foundation.OrderedMap
import AegisCognition.Replay.Transition

/-!
# Work leases and commits

A lease lets one worker hold one attempt at a piece of work for a while. The table keeps the
latest lease of every idempotency key; a lease that has run out is replaced, not removed.
-/

namespace Aegis.Cluster

open Foundation
open Replay

structure WorkLease where
  runId : RunId
  workId : WorkId
  workerId : WorkerId
  workerRole : WorkerRole
  attempt : BitVec 32
  acquiredAtMs : BitVec 64
  expiresAtMs : BitVec 64
  idempotencyKey : Hash
  leaseHash : Hash

namespace WorkLease

variable (blake3 : Hasher)

def workLeaseHash (lease : WorkLease) : Hash :=
  blake3 (utf8Bytes "aegis-work-lease-v1" ++ u128Bytes lease.runId ++ u128Bytes lease.workId ++
    u128Bytes lease.workerId ++ [lease.workerRole.toU8] ++ u32Bytes lease.attempt ++
    u64Bytes lease.acquiredAtMs ++ u64Bytes lease.expiresAtMs ++ lease.idempotencyKey.bytes)

def isValidFor (lease : WorkLease) (envelope : ClusterWorkEnvelope) (nowMs : BitVec 64) : Bool :=
  lease.runId == envelope.runId && lease.workId == envelope.workId &&
    lease.workerRole == envelope.workerRole && lease.attempt == envelope.attempt &&
    lease.idempotencyKey == envelope.idempotencyKey &&
    decide (lease.acquiredAtMs < lease.expiresAtMs) && decide (nowMs < lease.expiresAtMs) &&
    lease.leaseHash == lease.workLeaseHash blake3

end WorkLease

/-- The sum of two words, or the greatest word where it does not fit. -/
def saturatingAdd64 (a b : BitVec 64) : BitVec 64 :=
  BitVec.ofNat 64 (saturatingAdd u64Max a.toNat b.toNat)

/-- When a lease taken now runs out. -/
def leaseEnd (nowMs leaseTtlMs deadlineMs : BitVec 64) : BitVec 64 :=
  if saturatingAdd64 nowMs leaseTtlMs ≤ deadlineMs then saturatingAdd64 nowMs leaseTtlMs
  else deadlineMs

structure WorkLeaseTable where
  leases : Std.ExtTreeMap Hash WorkLease hashCompare

namespace WorkLeaseTable

def new : WorkLeaseTable := ⟨∅⟩

variable (blake3 : Hasher)

/-- The lease that an acquisition at this time hands out, if nothing speaks against it. -/
def lease (envelope : ClusterWorkEnvelope) (workerId : WorkerId) (nowMs leaseTtlMs : BitVec 64) :
    WorkLease :=
  let lease : WorkLease :=
    { runId := envelope.runId, workId := envelope.workId, workerId,
      workerRole := envelope.workerRole, attempt := envelope.attempt, acquiredAtMs := nowMs,
      expiresAtMs := leaseEnd nowMs leaseTtlMs envelope.deadlineMs,
      idempotencyKey := envelope.idempotencyKey, leaseHash := .zero }
  { lease with leaseHash := lease.workLeaseHash blake3 }

def acquire (table : WorkLeaseTable) (envelope : ClusterWorkEnvelope) (workerId : WorkerId)
    (nowMs leaseTtlMs : BitVec 64) : Except DistributedRuntimeError WorkLease × WorkLeaseTable :=
  if !envelope.isValid blake3 || workerId == 0 || leaseTtlMs == 0 ||
      decide (envelope.deadlineMs ≤ nowMs) then
    (.error .invalidLease, table)
  else if (table.leases[envelope.idempotencyKey]?).any (nowMs < ·.expiresAtMs) then
    (.error .leaseAlreadyHeld, table)
  else
    let lease := lease blake3 envelope workerId nowMs leaseTtlMs
    if lease.expiresAtMs ≤ nowMs then (.error .invalidLease, table)
    else (.ok lease, ⟨table.leases.insert envelope.idempotencyKey lease⟩)

section Acquire

variable {blake3} {table : WorkLeaseTable} {envelope : ClusterWorkEnvelope} {workerId : WorkerId}
variable {nowMs leaseTtlMs : BitVec 64}

/-- The lease table refuses and stays as it was, or the key's last lease has run out and a
lease that is valid for the envelope takes its place. -/
theorem acquire_cases (blake3 : Hasher) (table : WorkLeaseTable) (envelope : ClusterWorkEnvelope)
    (workerId : WorkerId) (nowMs leaseTtlMs : BitVec 64) :
    (∃ error, table.acquire blake3 envelope workerId nowMs leaseTtlMs = (.error error, table)) ∨
      (∀ held, table.leases[envelope.idempotencyKey]? = some held → held.expiresAtMs ≤ nowMs) ∧
      nowMs < (lease blake3 envelope workerId nowMs leaseTtlMs).expiresAtMs ∧
      table.acquire blake3 envelope workerId nowMs leaseTtlMs =
        (.ok (lease blake3 envelope workerId nowMs leaseTtlMs),
          ⟨table.leases.insert envelope.idempotencyKey
            (lease blake3 envelope workerId nowMs leaseTtlMs)⟩) := by
  simp only [acquire]
  split
  · exact .inl ⟨_, rfl⟩
  split
  · exact .inl ⟨_, rfl⟩
  · rename_i free
    split
    · exact .inl ⟨_, rfl⟩
    · rename_i live
      refine .inr ⟨?_, BitVec.not_le.mp live, rfl⟩
      intro held present
      simpa [present] using free

theorem lease_expires_le :
    (lease blake3 envelope workerId nowMs leaseTtlMs).expiresAtMs ≤ envelope.deadlineMs := by
  show leaseEnd nowMs leaseTtlMs envelope.deadlineMs ≤ envelope.deadlineMs
  simp only [leaseEnd]
  split
  · assumption
  · exact BitVec.le_refl _

end Acquire

end WorkLeaseTable

/-! ## Committing candidates

One writer admits candidates to a run. A candidate is known by its commit key, the hash of the
envelope's idempotency key and the artifact: the first candidate under a key is recorded in the
ledger, every later one gets the proof of the first. -/

structure ClusterCandidateAdmissionProof where
  runId : RunId
  workId : WorkId
  taskId : TaskId
  workerId : WorkerId
  attempt : BitVec 32
  envelopeHash : Hash
  leaseHash : Hash
  candidateArtifactHash : Hash
  workerResultHash : Hash
  idempotencyKey : Hash
  replayEventHash : Hash
  admissionHash : Hash

inductive SingleWriterAdmission
  | accepted (proof : ClusterCandidateAdmissionProof)
  | duplicate (proof : ClusterCandidateAdmissionProof)

structure SingleWriterRunLog where
  runId : RunId
  committed : Std.ExtTreeMap Hash ClusterCandidateAdmissionProof hashCompare

section Hashes

variable (blake3 : Hasher)

def clusterCandidateReplayBindingHash (envelope : ClusterWorkEnvelope) (lease : WorkLease)
    (candidate : CandidateArtifactRef) : Hash :=
  blake3 (utf8Bytes "aegis-cluster-candidate-replay-binding-v1" ++ envelope.envelopeHash.bytes ++
    lease.leaseHash.bytes ++ candidate.workerResultHash.bytes ++ envelope.idempotencyKey.bytes ++
    candidate.artifactHash.bytes)

def clusterCommitKey (idempotencyKey artifactHash : Hash) : Hash :=
  blake3 (utf8Bytes "aegis-cluster-commit-key-v1" ++ idempotencyKey.bytes ++ artifactHash.bytes)

def clusterCandidateAdmissionHash
    (envelopeHash leaseHash artifactHash workerResultHash idempotencyKey replayEventHash : Hash) :
    Hash :=
  blake3 (utf8Bytes "aegis-cluster-candidate-admission-v1" ++ envelopeHash.bytes ++
    leaseHash.bytes ++ artifactHash.bytes ++ workerResultHash.bytes ++ idempotencyKey.bytes ++
    replayEventHash.bytes)

/-- The proof for a candidate whose ledger event has the given hash. -/
def admissionProof (runId : RunId) (envelope : ClusterWorkEnvelope) (lease : WorkLease)
    (candidate : CandidateArtifactRef) (eventHash : Hash) : ClusterCandidateAdmissionProof where
  runId := runId
  workId := envelope.workId
  taskId := envelope.taskId
  workerId := candidate.workerId
  attempt := envelope.attempt
  envelopeHash := envelope.envelopeHash
  leaseHash := lease.leaseHash
  candidateArtifactHash := candidate.artifactHash
  workerResultHash := candidate.workerResultHash
  idempotencyKey := envelope.idempotencyKey
  replayEventHash := eventHash
  admissionHash := clusterCandidateAdmissionHash blake3 envelope.envelopeHash lease.leaseHash
    candidate.artifactHash candidate.workerResultHash envelope.idempotencyKey eventHash

end Hashes

namespace SingleWriterRunLog

def new (runId : RunId) : SingleWriterRunLog := ⟨runId, ∅⟩

variable (blake3 : Hasher)

/-- The checks of a commit that look at nothing that was committed before. -/
def checkCandidate (log : SingleWriterRunLog) (ledger : RunEventLedger)
    (envelope : ClusterWorkEnvelope) (lease : WorkLease) (candidate : CandidateArtifactRef)
    (partitionState : ClusterPartitionState) (nowMs : BitVec 64) :
    Except DistributedRuntimeError Unit :=
  if envelope.runId != log.runId || ledger.runId != log.runId || !envelope.isValid blake3 then
    .error .invalidEnvelope
  else if partitionState = .writerPartitioned && envelope.pausesOnPartition then
    .error .partitionPausesSideEffects
  else if !lease.isValidFor blake3 envelope nowMs then .error .leaseExpired
  else if lease.workerId != candidate.workerId then .error .workerMismatch
  else if candidate.evidenceContractHash != envelope.evidenceContractHash then
    .error .evidenceContractMismatch
  else if candidate.policyWindowHash != envelope.policyWindowHash then
    .error .policyWindowMismatch
  else if !candidate.isValidFor blake3 envelope then .error .artifactMismatch
  else .ok ()

/-- The answer, the log and the ledger after the call. -/
def commitCandidate (log : SingleWriterRunLog) (ledger : RunEventLedger)
    (envelope : ClusterWorkEnvelope) (lease : WorkLease) (candidate : CandidateArtifactRef)
    (partitionState : ClusterPartitionState) (nowMs : BitVec 64) :
    Except DistributedRuntimeError SingleWriterAdmission × SingleWriterRunLog × RunEventLedger :=
  match log.checkCandidate blake3 ledger envelope lease candidate partitionState nowMs with
  | .error error => (.error error, log, ledger)
  | .ok () =>
    let commitKey := clusterCommitKey blake3 envelope.idempotencyKey candidate.artifactHash
    match log.committed[commitKey]? with
    | some existing => (.ok (.duplicate existing), log, ledger)
    | none =>
      match ledger.appendClusterCandidateAccepted blake3 envelope.workId candidate.workerResultHash
          (clusterCandidateReplayBindingHash blake3 envelope lease candidate) with
      | (.error _, ledger) => (.error .replayAppendRejected, log, ledger)
      | (.ok appended, ledger) =>
        let proof := admissionProof blake3 log.runId envelope lease candidate appended.eventHash
        (.ok (.accepted proof), { log with committed := log.committed.insert commitKey proof },
          ledger)

end SingleWriterRunLog

section Append

variable (blake3 : Hasher) (ledger : RunEventLedger) (workId : SubjectId)
variable (workerResultHash replayBindingHash : Hash)

/-- Recording a candidate adds one event of its kind, or it changes nothing. -/
theorem appendClusterCandidateAccepted_cases :
    (∃ event : RunEvent, event.kind = .clusterCandidateAccepted ∧
      ledger.appendClusterCandidateAccepted blake3 workId workerResultHash replayBindingHash =
        (.ok event, ledger.extend event)) ∨
    ∃ error, ledger.appendClusterCandidateAccepted blake3 workId workerResultHash
      replayBindingHash = (.error error, ledger) := by
  simp only [RunEventLedger.appendClusterCandidateAccepted]
  split
  · exact .inr ⟨_, rfl⟩
  · obtain ⟨-, done⟩ | ⟨-, error, failed⟩ := RunEventLedger.append_cases blake3 ledger
      (RunEvent.clusterCandidateAccepted blake3 ledger.nextEventId ledger.runId workId
        workerResultHash replayBindingHash ledger.lastHash) { goalIntake := true }
    · exact .inl ⟨_, rfl, done⟩
    · exact .inr ⟨error, failed⟩

end Append

namespace SingleWriterRunLog

/-- What an answer means for the log and the ledger of the call. -/
def Settles (log : SingleWriterRunLog) (ledger : RunEventLedger) :
    Except DistributedRuntimeError SingleWriterAdmission × SingleWriterRunLog × RunEventLedger →
      Prop
  | (.ok (.accepted proof), _, ledger') =>
    ∃ event : RunEvent, event.kind = .clusterCandidateAccepted ∧
      event.eventHash = proof.replayEventHash ∧ ledger'.events = ledger.events ++ [event]
  | (.ok (.duplicate _), log', ledger') | (.error _, log', ledger') =>
    log' = log ∧ ledger' = ledger

variable (blake3 : Hasher) (log : SingleWriterRunLog) (ledger : RunEventLedger)
variable (envelope : ClusterWorkEnvelope) (lease : WorkLease) (candidate : CandidateArtifactRef)
variable (partitionState : ClusterPartitionState) (nowMs : BitVec 64)

/-- A commit answers without touching anything, or its key is new, one event joins the ledger
and the key joins the log. -/
theorem commitCandidate_cases :
    (∃ answer, (∀ proof, answer ≠ .ok (.accepted proof)) ∧
      log.commitCandidate blake3 ledger envelope lease candidate partitionState nowMs =
        (answer, log, ledger)) ∨
    ∃ (event : RunEvent) (proof : ClusterCandidateAdmissionProof),
      event.kind = .clusterCandidateAccepted ∧ event.eventHash = proof.replayEventHash ∧
      log.committed[clusterCommitKey blake3 envelope.idempotencyKey
        candidate.artifactHash]? = none ∧
      log.commitCandidate blake3 ledger envelope lease candidate partitionState nowMs =
        (.ok (.accepted proof),
          { log with
            committed := log.committed.insert
              (clusterCommitKey blake3 envelope.idempotencyKey candidate.artifactHash) proof },
          ledger.extend event) := by
  simp only [commitCandidate]
  split
  · exact .inl ⟨_, fun _ => by simp, rfl⟩
  split
  · exact .inl ⟨_, fun _ => by simp, rfl⟩
  · rename_i fresh
    obtain ⟨event, kind, done⟩ | ⟨error, failed⟩ := appendClusterCandidateAccepted_cases blake3
      ledger envelope.workId candidate.workerResultHash
      (clusterCandidateReplayBindingHash blake3 envelope lease candidate)
    · rw [done]
      refine .inr ⟨event, admissionProof blake3 log.runId envelope lease candidate event.eventHash,
        kind, rfl, fresh, rfl⟩
    · rw [failed]
      exact .inl ⟨_, fun _ => by simp, rfl⟩

theorem commitCandidate_settles :
    Settles log ledger
      (log.commitCandidate blake3 ledger envelope lease candidate partitionState nowMs) := by
  obtain ⟨answer, notAccepted, same⟩ | ⟨event, proof, kind, hash, -, done⟩ :=
    commitCandidate_cases blake3 log ledger envelope lease candidate partitionState nowMs
  · rw [same]
    match answer with
    | .error _ => exact ⟨rfl, rfl⟩
    | .ok (.duplicate _) => exact ⟨rfl, rfl⟩
    | .ok (.accepted proof) => exact absurd rfl (notAccepted proof)
  · rw [done]
    exact ⟨event, kind, hash, rfl⟩

end SingleWriterRunLog

end Aegis.Cluster
