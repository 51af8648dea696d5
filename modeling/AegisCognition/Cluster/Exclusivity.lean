import AegisCognition.Cluster.Commit

/-!
# Exclusivity in a cluster

Workers acquire leases and commit candidates in any order while the clock does not go back. At
any time one key has at most one lease that has not run out, and a candidate is accepted at
most once for each key and artifact. Nothing ties one key to one artifact: divergent results of
the same work have different commit keys and are all accepted.
-/

namespace Aegis.Cluster

open Foundation SingleWriterRunLog List
open Replay

/-- One call of a worker with its arguments; a commit brings the ledger it writes to. -/
inductive ClusterCall
  | acquire (envelope : ClusterWorkEnvelope) (workerId : WorkerId) (leaseTtlMs : BitVec 64)
  | commitCandidate (ledger : RunEventLedger) (envelope : ClusterWorkEnvelope) (lease : WorkLease)
      (candidate : CandidateArtifactRef) (partitionState : ClusterPartitionState)

/-- The lease table and the run log, with what they have handed out so far: every lease beside
its envelope, and the idempotency key and artifact of every accepted candidate. -/
structure ClusterState where
  table : WorkLeaseTable
  log : SingleWriterRunLog
  clock : BitVec 64
  issued : List (ClusterWorkEnvelope × WorkLease)
  accepted : List (Hash × Hash)

namespace ClusterState

def start (runId : RunId) : ClusterState where
  table := .new
  log := .new runId
  clock := 0
  issued := []
  accepted := []

variable (blake3 : Hasher)

section

variable (state : ClusterState)

/-- The state after an acquisition that ended in the given answer and table. -/
def afterAcquire (envelope : ClusterWorkEnvelope) (nowMs : BitVec 64) :
    Except DistributedRuntimeError WorkLease × WorkLeaseTable → ClusterState
  | (.ok lease, table) =>
    { state with table, clock := nowMs, issued := state.issued ++ [(envelope, lease)] }
  | (.error _, table) => { state with table, clock := nowMs }

/-- The state after a commit that ended in the given answer and log. -/
def afterCommit (key artifact : Hash) (nowMs : BitVec 64) :
    Except DistributedRuntimeError SingleWriterAdmission × SingleWriterRunLog × RunEventLedger →
      ClusterState
  | (.ok (.accepted _), log, _) =>
    { state with log, clock := nowMs, accepted := state.accepted ++ [(key, artifact)] }
  | (.ok (.duplicate _), log, _) | (.error _, log, _) => { state with log, clock := nowMs }

/-- The state after a call made at the given time. -/
def step (call : BitVec 64 × ClusterCall) : ClusterState :=
  match call.2 with
  | .acquire envelope workerId leaseTtlMs =>
    state.afterAcquire envelope call.1
      (state.table.acquire blake3 envelope workerId call.1 leaseTtlMs)
  | .commitCandidate ledger envelope lease candidate partitionState =>
    state.afterCommit envelope.idempotencyKey candidate.artifactHash call.1
      (state.log.commitCandidate blake3 ledger envelope lease candidate partitionState call.1)

/-- The leases of a key that have not run out at the given time. -/
def unexpired (key : Hash) (nowMs : BitVec 64) : List WorkLease :=
  (state.issued.map Prod.snd).filter fun lease =>
    lease.idempotencyKey == key && decide (nowMs < lease.expiresAtMs)

end

/-- What holds of the leases and the accepted candidates after every call. -/
structure Inv (state : ClusterState) : Prop where
  keyed : ∀ entry ∈ state.issued, entry.2.idempotencyKey = entry.1.idempotencyKey
  bounded : ∀ entry ∈ state.issued, entry.2.expiresAtMs ≤ entry.1.deadlineMs
  /-- A lease that the table no longer holds has run out. -/
  held : ∀ entry ∈ state.issued,
    state.table.leases[entry.2.idempotencyKey]? = some entry.2 ∨
      entry.2.expiresAtMs ≤ state.clock
  exclusive : ∀ key nowMs, state.clock ≤ nowMs → (state.unexpired key nowMs).length ≤ 1
  recorded : ∀ pair ∈ state.accepted,
    state.log.committed[clusterCommitKey blake3 pair.1 pair.2]?.isSome
  once : state.accepted.Nodup

variable {blake3} {state : ClusterState} {nowMs : BitVec 64}

theorem clock_start_le (runId : RunId) (nowMs : BitVec 64) : (start runId).clock ≤ nowMs := by
  show (0 : BitVec 64) ≤ nowMs
  bv_omega

/-- What a call can do to the state. -/
theorem step_cases (blake3 : Hasher) (state : ClusterState) (nowMs : BitVec 64)
    (call : ClusterCall) :
    state.step blake3 (nowMs, call) = { state with clock := nowMs } ∨
    (∃ envelope lease, lease.idempotencyKey = envelope.idempotencyKey ∧
      lease.expiresAtMs ≤ envelope.deadlineMs ∧
      (∀ held, state.table.leases[envelope.idempotencyKey]? = some held →
        held.expiresAtMs ≤ nowMs) ∧
      state.step blake3 (nowMs, call) =
        { state with
          table := ⟨state.table.leases.insert envelope.idempotencyKey lease⟩, clock := nowMs
          issued := state.issued ++ [(envelope, lease)] }) ∨
    ∃ key artifact proof, state.log.committed[clusterCommitKey blake3 key artifact]? = none ∧
      state.step blake3 (nowMs, call) =
        { state with
          log.committed := state.log.committed.insert (clusterCommitKey blake3 key artifact) proof
          clock := nowMs, accepted := state.accepted ++ [(key, artifact)] } := by
  cases call with
  | acquire envelope workerId leaseTtlMs =>
      obtain ⟨error, refused⟩ | ⟨free, -, done⟩ := WorkLeaseTable.acquire_cases blake3 state.table
        envelope workerId nowMs leaseTtlMs
      · exact .inl (congrArg (state.afterAcquire envelope nowMs) refused)
      · exact .inr (.inl ⟨envelope, _, rfl, WorkLeaseTable.lease_expires_le, free,
          congrArg (state.afterAcquire envelope nowMs) done⟩)
  | commitCandidate ledger envelope lease candidate partitionState =>
      obtain ⟨answer, notAccepted, same⟩ | ⟨event, proof, -, -, fresh, done⟩ :=
        commitCandidate_cases blake3 state.log ledger envelope lease candidate
          partitionState nowMs
      · refine .inl (.trans (congrArg (state.afterCommit envelope.idempotencyKey
          candidate.artifactHash nowMs) same) ?_)
        match answer with
        | .error _ => rfl
        | .ok (.duplicate _) => rfl
        | .ok (.accepted proof) => exact absurd rfl (notAccepted proof)
      · exact .inr (.inr ⟨_, _, proof, fresh, congrArg (state.afterCommit envelope.idempotencyKey
          candidate.artifactHash nowMs) done⟩)

theorem Inv.start (runId : RunId) : Inv blake3 (ClusterState.start runId) where
  keyed _ mem := absurd mem not_mem_nil
  bounded _ mem := absurd mem not_mem_nil
  held _ mem := absurd mem not_mem_nil
  exclusive := fun _ _ _ => Nat.zero_le 1
  recorded _ mem := absurd mem not_mem_nil
  once := nodup_nil

section

variable (inv : Inv blake3 state)
include inv

/-- A later time leaves everything as it was. -/
theorem Inv.tick (forward : state.clock ≤ nowMs) :
    Inv blake3 { state with clock := nowMs } where
  keyed := inv.keyed
  bounded := inv.bounded
  held := fun entry mem =>
    (inv.held entry mem).imp id fun expired => BitVec.le_trans expired forward
  exclusive := fun key later late => inv.exclusive key later (BitVec.le_trans forward late)
  recorded := inv.recorded
  once := inv.once

/-- When the lease that the table holds for a key has run out, so have all leases of the key. -/
theorem Inv.unexpired_eq_nil {key : Hash}
    (free : ∀ held, state.table.leases[key]? = some held → held.expiresAtMs ≤ nowMs)
    (forward : state.clock ≤ nowMs) {later : BitVec 64} (late : nowMs ≤ later) :
    state.unexpired key later = [] := by
  simp only [unexpired, filter_eq_nil_iff, mem_map, Bool.and_eq_true, beq_iff_eq,
    decide_eq_true_eq, not_and]
  rintro lease ⟨entry, mem, rfl⟩ rfl
  have expired : entry.2.expiresAtMs ≤ nowMs := by
    obtain holds | expired := inv.held entry mem
    · exact free _ holds
    · exact BitVec.le_trans expired forward
  bv_omega

/-- A lease that takes the place of one that has run out. -/
theorem Inv.acquire (forward : state.clock ≤ nowMs)
    {envelope : ClusterWorkEnvelope} {lease : WorkLease}
    (keyed : lease.idempotencyKey = envelope.idempotencyKey)
    (bounded : lease.expiresAtMs ≤ envelope.deadlineMs)
    (free : ∀ held, state.table.leases[envelope.idempotencyKey]? = some held →
      held.expiresAtMs ≤ nowMs) :
    Inv blake3
      { state with
        table := ⟨state.table.leases.insert envelope.idempotencyKey lease⟩, clock := nowMs
        issued := state.issued ++ [(envelope, lease)] } where
  keyed := by
    intro entry mem
    obtain old | new := mem_append.mp mem
    · exact inv.keyed entry old
    · obtain rfl := mem_singleton.mp new
      exact keyed
  bounded := by
    intro entry mem
    obtain old | new := mem_append.mp mem
    · exact inv.bounded entry old
    · obtain rfl := mem_singleton.mp new
      exact bounded
  held := by
    intro entry mem
    obtain old | new := mem_append.mp mem
    · by_cases same : envelope.idempotencyKey = entry.2.idempotencyKey
      · -- The key's lease is replaced; the one it held before has run out.
        refine .inr ?_
        obtain holds | expired := inv.held entry old
        · exact free entry.2 (same ▸ holds)
        · exact BitVec.le_trans expired forward
      · refine (inv.held entry old).imp (fun holds => ?_) fun expired =>
          BitVec.le_trans expired forward
        rw [OrderedMap.getElem?_insert_of_ne same, holds]
    · obtain rfl := mem_singleton.mp new
      exact .inl (by rw [keyed, Std.ExtTreeMap.getElem?_insert_self])
  exclusive := by
    intro key later late
    have before := inv.exclusive key later (BitVec.le_trans forward late)
    by_cases same : envelope.idempotencyKey = key
    · have none_left : state.unexpired key later = [] :=
        inv.unexpired_eq_nil (same ▸ free) forward late
      simp only [unexpired, map_append, filter_append, length_append] at none_left ⊢
      rw [none_left]
      exact (Nat.zero_add _).trans_le (length_filter_le _ _)
    · have apart : lease.idempotencyKey ≠ key := keyed ▸ same
      simpa [unexpired, apart] using before
  recorded := inv.recorded
  once := inv.once

theorem Inv.accept (forward : state.clock ≤ nowMs) {key artifact : Hash}
    {proof : ClusterCandidateAdmissionProof}
    (fresh : state.log.committed[clusterCommitKey blake3 key artifact]? = none) :
    Inv blake3
      { state with
        log.committed := state.log.committed.insert (clusterCommitKey blake3 key artifact) proof
        clock := nowMs, accepted := state.accepted ++ [(key, artifact)] } where
  keyed := inv.keyed
  bounded := inv.bounded
  held := (inv.tick forward).held
  exclusive := (inv.tick forward).exclusive
  recorded := by
    intro pair mem
    rw [Std.ExtTreeMap.getElem?_insert]
    split
    · rfl
    · obtain old | new := mem_append.mp mem
      · exact inv.recorded pair old
      · obtain rfl := mem_singleton.mp new
        rename_i apart
        exact absurd Std.ReflCmp.compare_self apart
  once := by
    rw [nodup_append]
    refine ⟨inv.once, nodup_singleton _, ?_⟩
    rintro pair mem _ new rfl
    obtain rfl := mem_singleton.mp new
    have present := inv.recorded _ mem
    simp [fresh] at present

theorem Inv.step (call : BitVec 64 × ClusterCall)
    (forward : state.clock ≤ call.1) : Inv blake3 (state.step blake3 call) := by
  obtain ⟨nowMs, call⟩ := call
  obtain same | ⟨envelope, lease, keyed, bounded, free, same⟩ |
    ⟨key, artifact, proof, fresh, same⟩ := step_cases blake3 state nowMs call
  · rw [same]
    exact inv.tick forward
  · rw [same]
    exact inv.acquire forward keyed bounded free
  · rw [same]
    exact inv.accept forward fresh

end

@[simp] theorem clock_step (blake3 : Hasher) (state : ClusterState) (nowMs : BitVec 64)
    (call : ClusterCall) : (state.step blake3 (nowMs, call)).clock = nowMs := by
  obtain same | ⟨_, _, -, -, -, same⟩ | ⟨_, _, _, -, same⟩ := step_cases blake3 state nowMs call <;>
    rw [same]

/-- Calls at times that do not go back keep the invariant, and the clock shows the last time. -/
theorem Inv.run {calls : List (BitVec 64 × ClusterCall)} (inv : Inv blake3 state)
    (forward : calls.Pairwise fun first second => first.1 ≤ second.1)
    (later : ∀ call ∈ calls, state.clock ≤ call.1) (past : state.clock ≤ nowMs)
    (seen : ∀ call ∈ calls, call.1 ≤ nowMs) :
    Inv blake3 (Foundation.run (ClusterState.step blake3) state calls) ∧
      (Foundation.run (ClusterState.step blake3) state calls).clock ≤ nowMs := by
  induction calls generalizing state with
  | nil => exact ⟨inv, past⟩
  | cons call calls ih =>
      obtain ⟨first, rest⟩ := pairwise_cons.mp forward
      refine ih (inv.step call (later call mem_cons_self)) rest ?_ ?_ ?_
      · intro next mem
        rw [clock_step]
        exact first next mem
      · rw [clock_step]
        exact seen call mem_cons_self
      · exact fun next mem => seen next (mem_cons_of_mem _ mem)

end ClusterState

/-- What a run of calls makes of the lease table and the log of a new run. -/
def reached (blake3 : Hasher) (runId : RunId) (calls : List (BitVec 64 × ClusterCall)) :
    ClusterState :=
  run (ClusterState.step blake3) (.start runId) calls

/-- While the clock does not go back, a key has at most one lease that has not run out, no
lease outlives its envelope's deadline, and no candidate is accepted twice under one key and
artifact. An accepted commit adds one event to its ledger; any other leaves log and ledger as
they were. -/
theorem leases_and_commits_exclusive (blake3 : Hasher) (runId : RunId)
    (calls : List (BitVec 64 × ClusterCall))
    (forward : calls.Pairwise fun first second => first.1 ≤ second.1) :
    (∀ key nowMs, (∀ call ∈ calls, call.1 ≤ nowMs) →
      ((reached blake3 runId calls).unexpired key nowMs).length ≤ 1) ∧
    (∀ entry ∈ (reached blake3 runId calls).issued,
      entry.2.idempotencyKey = entry.1.idempotencyKey ∧
        entry.2.expiresAtMs ≤ entry.1.deadlineMs) ∧
    (reached blake3 runId calls).accepted.Nodup ∧
    ∀ ledger envelope lease candidate partitionState nowMs,
      (reached blake3 runId calls).log.Settles ledger
        ((reached blake3 runId calls).log.commitCandidate blake3 ledger envelope lease candidate
          partitionState nowMs) := by
  have kept {nowMs : BitVec 64} (seen : ∀ call ∈ calls, call.1 ≤ nowMs) :
      (reached blake3 runId calls).Inv blake3 ∧ (reached blake3 runId calls).clock ≤ nowMs :=
    (ClusterState.Inv.start runId).run forward (fun _ _ => ClusterState.clock_start_le ..)
      (ClusterState.clock_start_le ..) seen
  have inv : (reached blake3 runId calls).Inv blake3 :=
    (kept fun _ _ => BitVec.not_lt.mp BitVec.not_allOnes_lt).1
  refine ⟨?_, ?_, inv.once, ?_⟩
  · intro key nowMs seen
    obtain ⟨inv, past⟩ := kept seen
    exact inv.exclusive key nowMs past
  · exact fun entry mem => ⟨inv.keyed entry mem, inv.bounded entry mem⟩
  · exact fun ledger envelope lease candidate partitionState nowMs =>
      commitCandidate_settles blake3 _ ledger envelope lease candidate
        partitionState nowMs

/-! ### Divergent results of one piece of work -/

def divergentEnvelope : ClusterWorkEnvelope where
  runId := 1
  workId := 1
  taskId := 1
  workerRole := .wasmSandbox
  attempt := 1
  inputArtifactHashes := [.fill 1]
  evidenceContractHash := .fill 2
  policyWindowHash := .fill 3
  sideEffectClass := .externalRead
  deadlineMs := 100
  idempotencyKey := .ofNat 0x2c21cede59b34b7d072f34e215215b21926fecbe3f7e10936ae319ba5e575f24
  envelopeHash := .ofNat 0xbd8ab554f2712ac72179d86d9a478fb5d511f3faaa87bb59171470401d6a24c6

def divergentLease : WorkLease where
  runId := 1
  workId := 1
  workerId := 7
  workerRole := .wasmSandbox
  attempt := 1
  acquiredAtMs := 10
  expiresAtMs := 60
  idempotencyKey := divergentEnvelope.idempotencyKey
  leaseHash := .ofNat 0x8fb43d6e40ec98b6629bd0d9185f675055684aad257e07f6ee644b2b54a1baec

def divergentCandidate (artifactHash workerResultHash : Hash) : CandidateArtifactRef where
  runId := 1
  workId := 1
  workerId := 7
  artifactHash
  artifactKindHash := .fill 6
  byteLen := 1
  evidenceContractHash := .fill 2
  policyWindowHash := .fill 3
  workerResultHash

def firstCandidate : CandidateArtifactRef :=
  divergentCandidate (.fill 4)
    (.ofNat 0x5ce4e192d752872643766c0db4bee151b628aa85f89c6144a60a431e1383e5b0)

def secondCandidate : CandidateArtifactRef :=
  divergentCandidate (.fill 5)
    (.ofNat 0xdf61c945b8a1fc9c11688b2487c3aa05195dcad519939ae7869f8eaef88c8abd)

/-- BLAKE3 on the inputs of the two commits. -/
def divergentHasher : Hasher :=
  let binding candidate :=
    utf8Bytes "aegis-cluster-candidate-replay-binding-v1" ++
      divergentEnvelope.envelopeHash.bytes ++ divergentLease.leaseHash.bytes ++
      candidate.workerResultHash.bytes ++ divergentEnvelope.idempotencyKey.bytes ++
      candidate.artifactHash.bytes
  let commitKey (artifactHash : Hash) :=
    utf8Bytes "aegis-cluster-commit-key-v1" ++ divergentEnvelope.idempotencyKey.bytes ++
      artifactHash.bytes
  let admission candidate eventHash :=
    utf8Bytes "aegis-cluster-candidate-admission-v1" ++ divergentEnvelope.envelopeHash.bytes ++
      divergentLease.leaseHash.bytes ++ candidate.artifactHash.bytes ++
      candidate.workerResultHash.bytes ++ divergentEnvelope.idempotencyKey.bytes ++ eventHash.bytes
  let result candidate :=
    utf8Bytes "aegis-candidate-artifact-ref-v1" ++ u128Bytes 1 ++ u128Bytes 1 ++ u128Bytes 7 ++
      candidate.artifactHash.bytes ++ candidate.artifactKindHash.bytes ++ u64Bytes 1 ++
      candidate.evidenceContractHash.bytes ++ candidate.policyWindowHash.bytes
  let intakeHash := Hash.ofNat 0xda2a4d4c0b9b1e683dd7bd36d198a89110b154410a75c3c960fe9fe9456e7b8b
  let binding₁ := Hash.ofNat 0x8641445643ea267b43f988d66d4fc2879c22ae82d87e5295f0da19ff7b8d8104
  let binding₂ := Hash.ofNat 0x37cd76d6fd3f720600f672c2a7f83f660e5a2b2d730b9346e503957cf1915c0f
  let event₁ := Hash.ofNat 0xb4c8a13aab2bec2ce8b1ebd84bcf5e9d586da2090d224f42b1fd677afd947e8f
  let event₂ := Hash.ofNat 0x5f7def8b5ae1a82f14b7e8df65706c07d2aef1ea65ce3c1f7ea3fe9bea25ffed
  Hasher.ofTable
    [(utf8Bytes "aegis-cluster-work-idempotency-v1" ++ divergentEnvelope.workBytes,
        divergentEnvelope.idempotencyKey),
      (utf8Bytes "aegis-cluster-work-envelope-v1" ++ divergentEnvelope.workBytes ++ u64Bytes 100 ++
        divergentEnvelope.idempotencyKey.bytes, divergentEnvelope.envelopeHash),
      (utf8Bytes "aegis-work-lease-v1" ++ u128Bytes 1 ++ u128Bytes 1 ++ u128Bytes 7 ++
        [WorkerRole.wasmSandbox.toU8] ++ u32Bytes 1 ++ u64Bytes 10 ++ u64Bytes 60 ++
        divergentEnvelope.idempotencyKey.bytes, divergentLease.leaseHash),
      (result firstCandidate, firstCandidate.workerResultHash),
      (result secondCandidate, secondCandidate.workerResultHash),
      (binding firstCandidate, binding₁), (binding secondCandidate, binding₂),
      (commitKey (.fill 4), .ofNat
        0x721c3f9f21e628b5890bfe9996f30a32455fda0ac3ac068b4530580bfc80c328),
      (commitKey (.fill 5), .ofNat
        0x2fd158929610d39f26fead660b1ae820c75287429d92ede1b1266055d5e1b2e8),
      (runEventPreimage 1 1 .goalIntakeRecorded 1 (.fill 1) (some (.fill 2)) .zero, intakeHash),
      (runEventPreimage 2 1 .clusterCandidateAccepted 1 firstCandidate.workerResultHash
        (some binding₁) intakeHash, event₁),
      (runEventPreimage 3 1 .clusterCandidateAccepted 1 secondCandidate.workerResultHash
        (some binding₂) event₁, event₂),
      (admission firstCandidate event₁, .ofNat
        0xb88cd96ceef8cfbd40967cc2b8c4fa96c3f27c7c17dad37300a6102d55f72aaa),
      (admission secondCandidate event₂, .ofNat
        0x15e410a595faa1ba2b2eb4cc3922caf4e7be4e7d4f5a322df034ef2288046cd5)]

/-- The ledger of the run after its goal intake. -/
def intakeLedger : RunEventLedger :=
  (RunEventLedger.new 1).extend
    (.new divergentHasher 1 1 .goalIntakeRecorded 1 (.fill 1) (some (.fill 2)) .zero)

/-- One worker takes a lease and commits two different artifacts under it. -/
def divergentCalls : List (BitVec 64 × ClusterCall) :=
  let first := commitCandidate divergentHasher (.new 1) intakeLedger
    divergentEnvelope divergentLease firstCandidate .writerReachable 20
  [(10, .acquire divergentEnvelope 7 50),
    (20, .commitCandidate intakeLedger divergentEnvelope divergentLease firstCandidate
      .writerReachable),
    (21, .commitCandidate first.2.2 divergentEnvelope divergentLease secondCandidate
      .writerReachable)]

theorem divergentCalls_exclusive :
    (reached divergentHasher 1 divergentCalls).accepted.Nodup :=
  (leases_and_commits_exclusive divergentHasher 1 divergentCalls (by decide +kernel)).2.2.1

/-- The pairs of idempotency key and artifact that the commits of a run present. -/
def presented (calls : List (BitVec 64 × ClusterCall)) : List (Hash × Hash) :=
  calls.filterMap fun call =>
    match call.2 with
    | .acquire _ _ _ => none
    | .commitCandidate _ envelope _ candidate _ =>
      some (envelope.idempotencyKey, candidate.artifactHash)

/-- A key does not determine the artifact that is accepted under it, even when no two pairs
that are presented have the same commit key. -/
theorem divergent_artifacts_accepted :
    ¬ ∀ (blake3 : Hasher) (runId : RunId) (calls : List (BitVec 64 × ClusterCall)),
      calls.Pairwise (fun first second => first.1 ≤ second.1) →
      (∀ pair ∈ presented calls, ∀ other ∈ presented calls,
        clusterCommitKey blake3 pair.1 pair.2 = clusterCommitKey blake3 other.1 other.2 →
          pair = other) →
      ∀ pair ∈ (reached blake3 runId calls).accepted,
        ∀ other ∈ (reached blake3 runId calls).accepted, pair.1 = other.1 → pair.2 = other.2 := by
  intro exclusive
  have same := exclusive divergentHasher 1 divergentCalls (by decide +kernel) (by decide +kernel)
    (divergentEnvelope.idempotencyKey, .fill 4) (by decide +kernel)
    (divergentEnvelope.idempotencyKey, .fill 5) (by decide +kernel) rfl
  exact absurd same (by decide)

end Aegis.Cluster
