import AegisCognition.Foundation.OrderedMap
import AegisCognition.Foundation.Update
import AegisCognition.Goal.Binding

/-!
# Progress and its evidence

A progress ledger holds the status of every criterion of a contract and the artifact that shows a
verified one. An artifact counts for a criterion if it was validated for it and for the contract.
The evidence is looked at before the criterion, and a criterion that was invalidated has to be taken
up again before it can be verified.
-/

namespace Aegis.Goal

open Foundation Foundation.OrderedMap List
open Std (ExtTreeMap LawfulEqCmp)
open Lab (ContractError)
open Replay (Hash)

/-! ### Artifacts -/

inductive ArtifactValidationState
  | unvalidated | validated
  deriving DecidableEq

structure ArtifactRef where
  producer : String
  commitSha : Hash
  schema : String
  trustDomain : String
  validationState : ArtifactValidationState
  createdAtMs : Nat
  contentHash : Hash
  criterionId : Option String
  contractHash : Option Hash
  validatorId : Option String
  validationHash : Hash

section Artifacts

variable (blake3 : List UInt8 → Hash)

namespace ArtifactRef

def computeValidationHash (artifact : ArtifactRef) : Hash :=
  blake3 (utf8Bytes "AEGIS-GT96-ARTIFACT-VALIDATION\x00" ++ updateString artifact.producer ++
    artifact.commitSha.bytes ++ updateString artifact.schema ++
    updateString artifact.trustDomain ++ updateU64 artifact.createdAtMs ++
    artifact.contentHash.bytes ++ updateString (artifact.criterionId.getD "") ++
    (match artifact.contractHash with
      | some contractHash => [1] ++ contractHash.bytes
      | none => [0]) ++
    updateString (artifact.validatorId.getD ""))

def isValidated (artifact : ArtifactRef) : Bool :=
  artifact.validationState == .validated && artifact.commitSha != Hash.zero &&
    artifact.contentHash != Hash.zero && !isBlank artifact.producer &&
    !isBlank artifact.schema && !isBlank artifact.trustDomain &&
    artifact.criterionId.any (!isBlank ·) && artifact.contractHash.any (· != Hash.zero) &&
    artifact.validatorId.any (!isBlank ·) && artifact.validationHash != Hash.zero &&
    artifact.validationHash == artifact.computeValidationHash blake3

def isValidatedFor (artifact : ArtifactRef) (criterionId : String) (contractHash : Hash) : Bool :=
  artifact.isValidated blake3 && artifact.criterionId == some criterionId &&
    artifact.contractHash == some contractHash &&
    artifact.validationHash == artifact.computeValidationHash blake3

end ArtifactRef

end Artifacts

/-! ### The ledger -/

inductive CriterionStatus
  | opened | inProgress | verified | invalidated
  deriving DecidableEq

structure ProgressLedger where
  contractHash : Hash
  criteria : ExtTreeMap String CriterionStatus
  evidence : ExtTreeMap String ArtifactRef
  stateEpoch : Nat

abbrev ProgressUpdate := EStateM ContractError ProgressLedger Unit

namespace ProgressLedger

def new (contract : GoalContract) : ProgressLedger where
  contractHash := contract.contractHash
  criteria := .ofList
    (contract.acceptanceCriteria.map fun criterion => (criterion.id, CriterionStatus.opened))
  evidence := ∅
  stateEpoch := 0

def status (ledger : ProgressLedger) (criterionId : String) : Option CriterionStatus :=
  ledger.criteria[criterionId]?

def advanceEpoch (ledger : ProgressLedger) : Nat :=
  saturatingAdd u64Max ledger.stateEpoch 1

def markInProgress (criterionId : String) : ProgressUpdate := do
  let ledger ← get
  let criterion ← checked (okOr .missingCriterion (ledger.status criterionId))
  refuse (criterion = .verified) .invalidTransition
  set { ledger with
    criteria := ledger.criteria.insert criterionId .inProgress
    stateEpoch := ledger.advanceEpoch }

def markVerified (blake3 : List UInt8 → Hash) (criterionId : String) (evidence : ArtifactRef) :
    ProgressUpdate := do
  let ledger ← get
  refuse (evidence.isValidatedFor blake3 criterionId ledger.contractHash = false) .invalidEvidence
  let criterion ← checked (okOr .missingCriterion (ledger.status criterionId))
  refuse (criterion = .verified ∨ criterion = .invalidated) .invalidTransition
  set { ledger with
    criteria := ledger.criteria.insert criterionId .verified
    evidence := ledger.evidence.insert criterionId evidence
    stateEpoch := ledger.advanceEpoch }

def invalidate (criterionId : String) : ProgressUpdate := do
  let ledger ← get
  let _ ← checked (okOr .missingCriterion (ledger.status criterionId))
  set { ledger with
    criteria := ledger.criteria.insert criterionId .invalidated
    evidence := ledger.evidence.erase criterionId
    stateEpoch := ledger.advanceEpoch }

def closure (ledger : ProgressLedger) : Nat × Nat :=
  ((valueList ledger.criteria).countP (· == .verified), ledger.criteria.size)

def isClosed (ledger : ProgressLedger) : Bool :=
  let (closed, total) := ledger.closure
  0 < total && closed == total && ledger.evidence.size == total

end ProgressLedger

inductive ProgressCall
  | markInProgress (criterionId : String)
  | markVerified (criterionId : String) (evidence : ArtifactRef)
  | invalidate (criterionId : String)

def ProgressCall.update (blake3 : List UInt8 → Hash) : ProgressCall → ProgressUpdate
  | markInProgress criterionId => ProgressLedger.markInProgress criterionId
  | markVerified criterionId evidence => ProgressLedger.markVerified blake3 criterionId evidence
  | invalidate criterionId => ProgressLedger.invalidate criterionId

/-! ### What a call does -/

section Calls

variable {blake3 : List UInt8 → Hash} {ledger next : ProgressLedger} {call : ProgressCall}
variable {contract : GoalContract} {id : String}

theorem update_cases (done : call.update blake3 ledger = .ok () next) :
    (∃ id old, call = .markInProgress id ∧ ledger.status id = some old ∧ old ≠ .verified ∧
      next = { ledger with
        criteria := ledger.criteria.insert id .inProgress
        stateEpoch := ledger.advanceEpoch }) ∨
    (∃ id artifact old, call = .markVerified id artifact ∧
      artifact.isValidatedFor blake3 id ledger.contractHash = true ∧ ledger.status id = some old ∧
      old ≠ .verified ∧ old ≠ .invalidated ∧
      next = { ledger with
        criteria := ledger.criteria.insert id .verified
        evidence := ledger.evidence.insert id artifact
        stateEpoch := ledger.advanceEpoch }) ∨
    (∃ id old, call = .invalidate id ∧ ledger.status id = some old ∧
      next = { ledger with
        criteria := ledger.criteria.insert id .invalidated
        evidence := ledger.evidence.erase id
        stateEpoch := ledger.advanceEpoch }) := by
  cases call with
  | markInProgress id =>
      simp only [ProgressCall.update, ProgressLedger.markInProgress, bind_ok_iff, get_ok_iff,
        checked_ok_iff, okOr_eq_ok_iff, refuse_ok_iff, set_ok_iff] at done
      obtain ⟨_, _, ⟨rfl, rfl⟩, old, _, ⟨held, rfl⟩, _, _, ⟨other, rfl⟩, rfl⟩ := done
      exact .inl ⟨id, old, rfl, held, other, rfl⟩
  | markVerified id artifact =>
      simp only [ProgressCall.update, ProgressLedger.markVerified, bind_ok_iff, get_ok_iff,
        checked_ok_iff, okOr_eq_ok_iff, refuse_ok_iff, set_ok_iff, Bool.not_eq_false,
        not_or] at done
      obtain ⟨_, _, ⟨rfl, rfl⟩, _, _, ⟨valid, rfl⟩, old, _, ⟨held, rfl⟩, _, _,
        ⟨⟨other, other'⟩, rfl⟩, rfl⟩ := done
      exact .inr (.inl ⟨id, artifact, old, rfl, valid, held, other, other', rfl⟩)
  | invalidate id =>
      simp only [ProgressCall.update, ProgressLedger.invalidate, bind_ok_iff, get_ok_iff,
        checked_ok_iff, okOr_eq_ok_iff, set_ok_iff] at done
      obtain ⟨_, _, ⟨rfl, rfl⟩, old, _, ⟨held, rfl⟩, rfl⟩ := done
      exact .inr (.inr ⟨id, old, rfl, held, rfl⟩)

/-- A call that fails leaves the ledger as it was. -/
theorem update_atomic (blake3 : List UInt8 → Hash) (call : ProgressCall) :
    Atomic (call.update blake3) := by
  cases call with
  | markInProgress id =>
      exact Reads.get.bind fun ledger => Reads.checked.bind fun old => Reads.refuse.bind fun _ =>
        Atomic.set
  | markVerified id artifact =>
      exact Reads.get.bind fun ledger => Reads.refuse.bind fun _ => Reads.checked.bind fun old =>
        Reads.refuse.bind fun _ => Atomic.set
  | invalidate id =>
      exact Reads.get.bind fun ledger => Reads.checked.bind fun old => Atomic.set

/-- The ledger behind a call, whether it succeeds or not. -/
def perform (blake3 : List UInt8 → Hash) (ledger : ProgressLedger) (call : ProgressCall) :
    ProgressLedger :=
  after (call.update blake3) ledger

theorem perform_cases (blake3 : List UInt8 → Hash) (ledger : ProgressLedger)
    (call : ProgressCall) :
    call.update blake3 ledger = .ok () (perform blake3 ledger call) ∨
      perform blake3 ledger call = ledger := by
  obtain ⟨_, done⟩ | same := (update_atomic blake3 call).after_eq ledger
  · exact .inl done
  · exact .inr same

/-! ### What every run keeps -/

/-- The ledger knows the criteria of the contract, and it has an artifact that counts for each of
those that are verified and for no other. -/
structure Backed (blake3 : List UInt8 → Hash) (contract : GoalContract) (ledger : ProgressLedger) :
    Prop where
  binds : ledger.contractHash = contract.contractHash
  known : ∀ id, id ∈ ledger.criteria ↔ id ∈ contract.acceptanceCriteria.map (·.id)
  evidenced : ∀ id, id ∈ ledger.evidence ↔ ledger.status id = some .verified
  validated : ∀ id (artifact : ArtifactRef), ledger.evidence[id]? = some artifact →
    artifact.isValidatedFor blake3 id contract.contractHash = true

theorem backed_new (blake3 : List UInt8 → Hash) (contract : GoalContract) :
    Backed blake3 contract (.new contract) where
  binds := rfl
  known id := by
    rw [ProgressLedger.new, ExtTreeMap.mem_ofList, contains_iff_mem, map_map]
    rfl
  evidenced id := by
    constructor
    · exact fun mem => absurd mem ExtTreeMap.not_mem_empty
    · intro held
      obtain ⟨criterion, -, same⟩ := mem_map.mp (mem_of_getElem?_ofList held)
      cases same
  validated id artifact held := by
    rw [ProgressLedger.new, ExtTreeMap.getElem?_empty] at held
    cases held

theorem mem_of_status {status : CriterionStatus} (held : ledger.status id = some status) :
    id ∈ ledger.criteria :=
  ExtTreeMap.mem_iff_isSome_getElem?.mpr (Option.isSome_of_eq_some held)

theorem mem_insert_known {status status' : CriterionStatus}
    (held : ledger.status id = some status) {other : String} :
    other ∈ ledger.criteria.insert id status' ↔ other ∈ ledger.criteria := by
  rw [ExtTreeMap.mem_insert]
  constructor
  · rintro (same | mem)
    · rw [← LawfulEqCmp.eq_of_compare same]
      exact mem_of_status held
    · exact mem
  · exact .inr

theorem Backed.update (h : Backed blake3 contract ledger)
    (done : call.update blake3 ledger = .ok () next) : Backed blake3 contract next := by
  obtain ⟨id, old, -, held, other, rfl⟩ | ⟨id, artifact, old, -, valid, held, other, -, rfl⟩ |
    ⟨id, old, -, held, rfl⟩ := update_cases done
  · refine ⟨h.binds, fun id' => (mem_insert_known held).trans (h.known id'), fun id' => ?_,
      h.validated⟩
    rw [h.evidenced, ProgressLedger.status, ProgressLedger.status, getElem?_insert_eq_some_iff]
    constructor
    · intro verified
      refine .inr ⟨?_, verified⟩
      rintro rfl
      exact other (Option.some.inj (held.symm.trans verified))
    · rintro (⟨-, ⟨⟩⟩ | ⟨-, verified⟩)
      exact verified
  · refine ⟨h.binds, fun id' => (mem_insert_known held).trans (h.known id'), fun id' => ?_,
      fun id' artifact' stored => ?_⟩
    · rw [ProgressLedger.status, getElem?_insert_eq_some_iff, ExtTreeMap.mem_insert,
        Std.LawfulEqCmp.compare_eq_iff_eq, h.evidenced]
      by_cases same : id = id'
      · simp [same]
      · simp [same, ProgressLedger.status]
    · obtain ⟨rfl, rfl⟩ | ⟨-, earlier⟩ := getElem?_insert_eq_some_iff.mp stored
      · rw [← h.binds]
        exact valid
      · exact h.validated id' artifact' earlier
  · refine ⟨h.binds, fun id' => (mem_insert_known held).trans (h.known id'), fun id' => ?_,
      fun id' artifact' stored => ?_⟩
    · rw [ProgressLedger.status, getElem?_insert_eq_some_iff, ExtTreeMap.mem_erase,
        h.evidenced, ne_eq, Std.LawfulEqCmp.compare_eq_iff_eq]
      simp [ProgressLedger.status]
    · exact h.validated id' artifact' (getElem?_erase_eq_some_iff.mp stored).2

theorem backed_run (blake3 : List UInt8 → Hash) (contract : GoalContract)
    (calls : List ProgressCall) :
    Backed blake3 contract (run (perform blake3) (.new contract) calls) := by
  apply run_invariant
  · intro ledger call h
    obtain done | same := perform_cases blake3 ledger call
    · exact h.update done
    · rwa [same]
  · exact backed_new blake3 contract

/-- Only a call that takes a criterion up again ends its invalidation. -/
theorem markInProgress_of_revived (held : ledger.status id = some .invalidated)
    (left : (perform blake3 ledger call).status id ≠ some .invalidated) :
    call = .markInProgress id ∧
      call.update blake3 ledger = .ok () (perform blake3 ledger call) := by
  obtain done | same := perform_cases blake3 ledger call
  · refine ⟨?_, done⟩
    generalize perform blake3 ledger call = next at done left
    obtain ⟨id', old, rfl, -, -, rfl⟩ | ⟨id', artifact, old, -, -, held', -, other, rfl⟩ |
      ⟨id', old, -, -, rfl⟩ := update_cases done
    · by_cases same : id' = id
      · rw [same]
      · exact absurd ((getElem?_insert_of_ne same).trans held) left
    · by_cases same : id' = id
      · rw [same] at held'
        exact absurd (Option.some.inj (held'.symm.trans held)) other
      · exact absurd ((getElem?_insert_of_ne same).trans held) left
    · by_cases same : id' = id
      · rw [same] at left
        exact absurd (getElem?_insert_eq_some_iff.mpr (.inl ⟨rfl, rfl⟩)) left
      · exact absurd ((getElem?_insert_of_ne same).trans held) left
  · rw [same] at left
    exact absurd held left

theorem Backed.isClosed_iff (h : Backed blake3 contract ledger) : ledger.isClosed = true ↔
    contract.acceptanceCriteria ≠ [] ∧
      ∀ criterion ∈ contract.acceptanceCriteria, ledger.status criterion.id = some .verified := by
  have all : (valueList ledger.criteria).countP (· == .verified) = ledger.criteria.size ↔
      ∀ criterion ∈ contract.acceptanceCriteria, ledger.status criterion.id = some .verified := by
    have size : ledger.criteria.size = (valueList ledger.criteria).length := by
      rw [valueList, length_map, ExtTreeMap.length_toList]
    rw [size, countP_eq_length]
    constructor
    · intro verified criterion mem
      have known := (h.known criterion.id).mpr (mem_map_of_mem mem)
      obtain ⟨status, held⟩ :=
        Option.isSome_iff_exists.mp (ExtTreeMap.mem_iff_isSome_getElem?.mp known)
      have := verified status (mem_valueList_iff.mpr ⟨_, held⟩)
      rw [ProgressLedger.status, held, beq_iff_eq.mp this]
    · intro verified status mem
      obtain ⟨id, held⟩ := mem_valueList_iff.mp mem
      obtain ⟨criterion, mem, rfl⟩ := mem_map.mp ((h.known id).mp (mem_of_status held))
      rw [Option.some.inj (held.symm.trans (verified criterion mem))]
      rfl
  have some_criterion : 0 < ledger.criteria.size ↔ contract.acceptanceCriteria ≠ [] := by
    rw [← ExtTreeMap.length_keys, length_pos_iff_exists_mem]
    simp only [ExtTreeMap.mem_keys, h.known]
    rw [← length_pos_iff_exists_mem, length_map, length_pos_iff]
  simp only [ProgressLedger.isClosed, ProgressLedger.closure, Bool.and_eq_true, decide_eq_true_eq,
    beq_iff_eq, all, some_criterion]
  constructor
  · exact And.left
  · rintro ⟨given, verified⟩
    refine ⟨⟨given, verified⟩, size_eq_of_mem_iff fun id => ?_⟩
    rw [h.evidenced]
    refine ⟨mem_of_status, fun known => ?_⟩
    obtain ⟨criterion, mem, rfl⟩ := mem_map.mp ((h.known id).mp known)
    exact verified criterion mem

end Calls

/-! ### Progress needs evidence -/

section Runs

variable {blake3 : List UInt8 → Hash} {contract : GoalContract}

/-- The ledger of a contract behind some calls. -/
def ledgerAfter (blake3 : List UInt8 → Hash) (contract : GoalContract)
    (calls : List ProgressCall) : ProgressLedger :=
  run (perform blake3) (.new contract) calls

/-- What holds of the ledger behind some calls. -/
structure NeedsEvidence (blake3 : List UInt8 → Hash) (contract : GoalContract)
    (calls : List ProgressCall) : Prop where
  evidenced : ∀ id, id ∈ (ledgerAfter blake3 contract calls).evidence ↔
    (ledgerAfter blake3 contract calls).status id = some .verified
  validated : ∀ id (artifact : ArtifactRef),
    (ledgerAfter blake3 contract calls).evidence[id]? = some artifact →
      artifact.isValidatedFor blake3 id contract.contractHash = true
  /-- What was invalidated is verified again only after it was taken up again. -/
  revived : ∀ before later id, calls = before ++ later →
    (ledgerAfter blake3 contract before).status id = some .invalidated →
    (ledgerAfter blake3 contract calls).status id = some .verified →
    ∃ early late, later = early ++ .markInProgress id :: late ∧
      Foundation.succeeds ((ProgressCall.markInProgress id).update blake3)
        (ledgerAfter blake3 contract (before ++ early)) = true
  failed : ∀ (call : ProgressCall) error next,
    call.update blake3 (ledgerAfter blake3 contract calls) = .error error next →
      next = ledgerAfter blake3 contract calls

theorem needsEvidence (blake3 : List UInt8 → Hash) (contract : GoalContract)
    (calls : List ProgressCall) : NeedsEvidence blake3 contract calls where
  evidenced := (backed_run blake3 contract calls).evidenced
  validated := (backed_run blake3 contract calls).validated
  revived := by
    rintro before later id rfl invalidated verified
    rw [ledgerAfter, run_append, ← ledgerAfter] at verified
    have left : ¬ (run (perform blake3) (ledgerAfter blake3 contract before) later).status id =
        some .invalidated := by
      rw [verified]
      decide
    obtain ⟨early, call, late, rfl, inside, left⟩ :=
      exists_leaving (P := fun ledger : ProgressLedger => ledger.status id = some .invalidated)
        invalidated left
    obtain ⟨rfl, done⟩ := markInProgress_of_revived inside left
    refine ⟨early, late, rfl, ?_⟩
    rw [ledgerAfter, run_append, ← ledgerAfter, Foundation.succeeds, done]
  failed call error next := update_atomic blake3 call _ error next

/-- Behind any calls, exactly the verified criteria have an artifact, which counts for them, and the
ledger is closed if the contract has a criterion and all of them are verified. -/
theorem progress_needs_evidence (blake3 : List UInt8 → Hash) (contract : GoalContract)
    (calls : List ProgressCall) :
    NeedsEvidence blake3 contract calls ∧
      ((ledgerAfter blake3 contract calls).isClosed = true ↔ contract.acceptanceCriteria ≠ [] ∧
        ∀ criterion ∈ contract.acceptanceCriteria,
          (ledgerAfter blake3 contract calls).status criterion.id = some .verified) :=
  ⟨needsEvidence blake3 contract calls, (backed_run blake3 contract calls).isClosed_iff⟩

/-- The same contract with its own hash. -/
def GoalContract.hashed (blake3 : List UInt8 → Hash) (contract : GoalContract) : GoalContract :=
  { contract with contractHash := contract.computeHash blake3 }

theorem hashed_contractHash (blake3 : List UInt8 → Hash) (contract : GoalContract) :
    (contract.hashed blake3).contractHash = (contract.hashed blake3).computeHash blake3 := by
  simp only [GoalContract.hashed, computeHash_contractHash]

def idleContract : GoalContract :=
  ({ workContract with acceptanceCriteria := [] } : GoalContract).hashed reportBlake3

theorem idleContract_isSelfConsistent : idleContract.isSelfConsistent reportBlake3 = true := by
  have work := workContract_isSelfConsistent
  simp only [GoalContract.isSelfConsistent, Bool.and_eq_true] at work ⊢
  obtain ⟨⟨⟨⟨head, -⟩, target⟩, author⟩, budget⟩ := work
  exact ⟨⟨⟨⟨head, beq_iff_eq.mpr (hashed_contractHash _ _)⟩, target⟩, author⟩, budget⟩

/-- It is consistent and has no criterion that is not verified, and its ledger is not closed. -/
theorem idle_contract_stays_open :
    ¬ ∀ (blake3 : List UInt8 → Hash) (contract : GoalContract) (calls : List ProgressCall),
      contract.isSelfConsistent blake3 = true → NeedsEvidence blake3 contract calls ∧
        ((ledgerAfter blake3 contract calls).isClosed = true ↔
          ∀ criterion ∈ contract.acceptanceCriteria,
            (ledgerAfter blake3 contract calls).status criterion.id = some .verified) := by
  intro law
  have closes := (law reportBlake3 idleContract [] idleContract_isSelfConsistent).2.mpr
    fun _ mem => absurd mem not_mem_nil
  have given := ((backed_run reportBlake3 idleContract []).isClosed_iff.mp closes).1
  exact given rfl

end Runs

end Aegis.Goal
