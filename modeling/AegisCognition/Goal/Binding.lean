import AegisCognition.Goal.Evolution
import AegisCognition.Replay.TamperEvidence

/-!
# What the hash of a contract binds

The message that is hashed for a contract holds every field but the hash itself. Texts stand behind
their lengths and lists behind their counts, so that the message determines the fields. A consistent
contract has a reason exactly if it has a parent. So its hash determines the contract, and with it
the hash of its parent and all contracts before, unless two of them collide.
-/

namespace Aegis.Goal

open Foundation GoalContract List Option
open Lab (BudgetPolicy)
open Replay (Hash delimits_hash boolByte_injective)

/-! ### The parts of the message -/

theorem delimits_updateU64 : Delimits (· ≤ u64Max) updateU64 :=
  (delimits_leBytes 8).mono fun _ inside => Nat.lt_of_le_of_lt inside (by decide)

/-- The length of a text is a `usize`. -/
def IsTyped (text : String) : Prop :=
  text.utf8ByteSize ≤ u64Max

/-- So are the length of a list and those of its texts. -/
def AreTyped (values : List String) : Prop :=
  values.length ≤ u64Max ∧ ∀ value ∈ values, IsTyped value

theorem delimits_updateString : Delimits IsTyped updateString :=
  delimits_text delimits_updateU64

theorem delimits_updateStringList (label : String) :
    Delimits AreTyped (updateStringList label) := by
  have texts := (delimits_updateU64.counted delimits_updateString).behind (updateString label)
  simp only [← append_assoc] at texts
  exact texts

theorem delimits_criterion :
    Delimits (fun criterion => IsTyped criterion.id ∧ IsTyped criterion.description)
      fun criterion : AcceptanceCriterion =>
        updateString criterion.id ++ updateString criterion.description := by
  have injective : Function.Injective fun criterion : AcceptanceCriterion =>
      (criterion.id, criterion.description) := by
    rintro ⟨id, description⟩ ⟨id', description'⟩ same
    cases same
    rfl
  exact (delimits_updateString.pair delimits_updateString).comap injective

structure TargetDescriptor.Typed (target : TargetDescriptor) : Prop where
  kind : IsTyped target.kind
  stableId : IsTyped target.stableId
  revisionOrDigest : IsTyped target.revisionOrDigest
  readRoots : AreTyped target.readRoots
  writeRoots : AreTyped target.writeRoots
  networkAllowlist : AreTyped target.networkAllowlist
  externalSideEffects : AreTyped target.externalSideEffects
  owner : IsTyped target.owner

theorem delimits_updateTarget : Delimits TargetDescriptor.Typed updateTarget := by
  intro first second rest rest' hf hs same
  simp only [updateTarget, append_assoc] at same
  have same := append_cancel_left same
  obtain ⟨kind, same⟩ := delimits_updateString hf.kind hs.kind same
  obtain ⟨stableId, same⟩ := delimits_updateString hf.stableId hs.stableId same
  obtain ⟨revision, same⟩ := delimits_updateString hf.revisionOrDigest hs.revisionOrDigest same
  obtain ⟨reads, same⟩ := delimits_updateStringList _ hf.readRoots hs.readRoots same
  obtain ⟨writes, same⟩ := delimits_updateStringList _ hf.writeRoots hs.writeRoots same
  obtain ⟨hosts, same⟩ := delimits_updateStringList _ hf.networkAllowlist hs.networkAllowlist same
  obtain ⟨effects, same⟩ :=
    delimits_updateStringList _ hf.externalSideEffects hs.externalSideEffects same
  obtain ⟨owner, same⟩ := delimits_updateString hf.owner hs.owner same
  refine ⟨?_, same⟩
  cases first
  cases second
  congr

theorem delimits_updateBudget : Delimits (fun _ => True) updateBudget := by
  intro first second rest rest' _ _ same
  simp only [updateBudget, flatMap_cons, flatMap_nil, append_assoc,
    nil_append] at same
  obtain ⟨tokens, same⟩ := delimits_updateU64 first.fits.1 second.fits.1 same
  obtain ⟨money, same⟩ := delimits_updateU64 first.fits.2.1 second.fits.2.1 same
  obtain ⟨time, same⟩ := delimits_updateU64 first.fits.2.2.1 second.fits.2.2.1 same
  obtain ⟨tools, same⟩ := delimits_updateU64 first.fits.2.2.2.1 second.fits.2.2.2.1 same
  obtain ⟨api, same⟩ := delimits_updateU64 first.fits.2.2.2.2.1 second.fits.2.2.2.2.1 same
  obtain ⟨cpu, same⟩ := delimits_updateU64 first.fits.2.2.2.2.2.1 second.fits.2.2.2.2.2.1 same
  obtain ⟨risk, same⟩ := delimits_updateU64 first.fits.2.2.2.2.2.2 second.fits.2.2.2.2.2.2 same
  refine ⟨?_, same⟩
  cases first
  cases second
  congr

theorem budgetPolicy_eq {first second : BudgetPolicy} (total : first.total = second.total)
    (finalization : first.finalizationReserve = second.finalizationReserve)
    (recovery : first.recoveryReserve = second.recoveryReserve) : first = second := by
  cases first
  cases second
  congr

theorem SideEffectClass.byte_injective : Function.Injective SideEffectClass.byte := by
  intro first second same
  cases first <;> cases second <;> first | rfl | cases same

/-! ### The message -/

/-- What the types of the source hold. -/
structure GoalContract.Typed (contract : GoalContract) : Prop where
  schema : IsTyped contract.schema
  version : contract.version ≤ u64Max
  objective : IsTyped contract.objective
  acceptanceCriteria : contract.acceptanceCriteria.length ≤ u64Max ∧
    ∀ criterion ∈ contract.acceptanceCriteria,
      IsTyped criterion.id ∧ IsTyped criterion.description
  target : contract.target.Typed
  constraints : AreTyped contract.constraints
  invariants : AreTyped contract.invariants
  nonGoals : AreTyped contract.nonGoals
  authorId : IsTyped contract.authorId
  effectiveEpoch : contract.effectiveEpoch ≤ u64Max
  evolutionReason : ∀ reason ∈ contract.evolutionReason, IsTyped reason

section Binding

variable {blake3 : List UInt8 → Hash} {messages : Set (List UInt8)}
variable {first second : GoalContract}

theorem isSome_evolutionReason (consistent : first.isSelfConsistent blake3 = true) :
    first.evolutionReason.isSome = first.parentContractHash.isSome := by
  simp only [isSelfConsistent, Bool.and_eq_true, Bool.or_eq_true] at consistent
  obtain ⟨⟨⟨⟨⟨-, ⟨⟨-, parent⟩, reason⟩ | ⟨⟨-, parent⟩, reason⟩⟩, -⟩, -⟩, -⟩, -⟩ := consistent
  · rw [isNone_iff_eq_none.mp parent, isNone_iff_eq_none.mp reason]
    rfl
  · obtain ⟨hash, -⟩ := (any_eq_true_iff_get _ _).mp parent
    obtain ⟨text, -⟩ := (any_eq_true_iff_get _ _).mp reason
    rw [hash, text]

theorem hash_of_isSelfConsistent (consistent : first.isSelfConsistent blake3 = true) :
    first.contractHash = first.computeHash blake3 := by
  simp only [isSelfConsistent, Bool.and_eq_true, beq_iff_eq] at consistent
  exact consistent.1.1.1.2

def parentBytes (parent : Option (Hash × String)) : List UInt8 :=
  match parent with
  | some (hash, reason) => 1 :: (hash.bytes ++ updateString reason)
  | none => [0]

theorem delimits_parentBytes :
    Delimits (fun parent => ∀ inner ∈ parent, True ∧ IsTyped inner.2) parentBytes :=
  .option (by decide : (0 : UInt8) ≠ 1) (delimits_hash.pair delimits_updateString) rfl fun _ => rfl

/-- What the last part of the message is written from. -/
def GoalContract.parent (contract : GoalContract) : Option (Hash × String) :=
  contract.parentContractHash.map fun hash => (hash, contract.evolutionReason.getD "")

theorem parentBytes_parent (contract : GoalContract) :
    (match contract.parentContractHash with
      | some parent => [1] ++ parent.bytes ++ updateString (contract.evolutionReason.getD "")
      | none => [0]) = parentBytes contract.parent := by
  unfold GoalContract.parent
  cases contract.parentContractHash <;> rfl

theorem GoalContract.Typed.parent (typed : first.Typed) :
    ∀ inner ∈ first.parent, True ∧ IsTyped inner.2 := by
  intro inner mem
  obtain ⟨hash, -, rfl⟩ := map_eq_some_iff.mp mem
  refine ⟨trivial, ?_⟩
  cases reason : first.evolutionReason with
  | none => exact Nat.zero_le _
  | some text => exact typed.evolutionReason text reason

theorem parent_inj {parent parent' : Option Hash} {reason reason' : Option String}
    (given : reason.isSome = parent.isSome) (given' : reason'.isSome = parent'.isSome)
    (same : (parent.map fun hash => (hash, reason.getD "")) =
      parent'.map fun hash => (hash, reason'.getD "")) : parent = parent' ∧ reason = reason' := by
  rcases parent with _ | hash <;> rcases reason with _ | text <;> cases given <;>
    rcases parent' with _ | hash' <;> rcases reason' with _ | text' <;> cases given' <;>
    cases same <;> exact ⟨rfl, rfl⟩

/-- The message determines every field of a contract that has a reason exactly if it has a
parent. -/
theorem hashedBytes_inj (typed : first.Typed) (typed' : second.Typed)
    (given : first.evolutionReason.isSome = first.parentContractHash.isSome)
    (given' : second.evolutionReason.isSome = second.parentContractHash.isSome)
    (same : first.hashedBytes = second.hashedBytes) :
    { first with contractHash := second.contractHash } = second := by
  delta hashedBytes at same
  simp only [append_assoc, cons_append, nil_append] at same
  have same := append_cancel_left same
  obtain ⟨schema, same⟩ := delimits_updateString typed.schema typed'.schema same
  obtain ⟨version, same⟩ := delimits_updateU64 typed.version typed'.version same
  obtain ⟨objective, same⟩ := delimits_updateString typed.objective typed'.objective same
  obtain ⟨target, same⟩ := delimits_updateTarget typed.target typed'.target same
  rw [← append_assoc, ← append_assoc (updateU64 second.acceptanceCriteria.length)] at same
  obtain ⟨criteria, same⟩ := (delimits_updateU64.counted delimits_criterion)
    typed.acceptanceCriteria typed'.acceptanceCriteria same
  obtain ⟨constraints, same⟩ :=
    delimits_updateStringList _ typed.constraints typed'.constraints same
  obtain ⟨invariants, same⟩ := delimits_updateStringList _ typed.invariants typed'.invariants same
  obtain ⟨nonGoals, same⟩ := delimits_updateStringList _ typed.nonGoals typed'.nonGoals same
  obtain ⟨effect, same⟩ := List.cons.inj same
  obtain ⟨evidence, same⟩ := List.cons.inj same
  obtain ⟨total, same⟩ := delimits_updateBudget trivial trivial same
  obtain ⟨finalization, same⟩ := delimits_updateBudget trivial trivial same
  obtain ⟨recovery, same⟩ := delimits_updateBudget trivial trivial same
  obtain ⟨author, same⟩ := delimits_updateString typed.authorId typed'.authorId same
  obtain ⟨epoch, same⟩ := delimits_updateU64 typed.effectiveEpoch typed'.effectiveEpoch same
  have tails : parentBytes first.parent = parentBytes second.parent := by
    rw [← parentBytes_parent, ← parentBytes_parent]
    exact same
  have parents := delimits_parentBytes.inj typed.parent typed'.parent tails
  obtain ⟨parent, reason⟩ := parent_inj given given' parents
  have effects := SideEffectClass.byte_injective effect
  have required := boolByte_injective evidence
  have budget := budgetPolicy_eq total finalization recovery
  cases first
  cases second
  congr

/-- A consistent contract is determined by its hash, unless two contracts collide. -/
theorem eq_of_contractHash (apart : Set.InjOn blake3 messages) (mem : first.hashedBytes ∈ messages)
    (mem' : second.hashedBytes ∈ messages) (typed : first.Typed) (typed' : second.Typed)
    (consistent : first.isSelfConsistent blake3 = true)
    (consistent' : second.isSelfConsistent blake3 = true)
    (same : first.contractHash = second.contractHash) : first = second := by
  have own : first.contractHash = blake3 first.hashedBytes := hash_of_isSelfConsistent consistent
  have own' : second.contractHash = blake3 second.hashedBytes :=
    hash_of_isSelfConsistent consistent'
  have bytes := apart mem mem' (own.symm.trans (same.trans own'))
  have fields := hashedBytes_inj typed typed' (isSome_evolutionReason consistent)
    (isSome_evolutionReason consistent') bytes
  rw [← same] at fields
  exact fields

/-! ### Ancestors -/

/-- A contract names the hash of the contract it was evolved from. -/
def DescendsFrom (contract parent : GoalContract) : Prop :=
  contract.parentContractHash = some parent.contractHash

/-- The contracts that are known to stand behind a contract, the youngest first, go back to one
without a parent. -/
def ReachesGenesis (contract : GoalContract) (ancestors : List GoalContract) : Prop :=
  ((contract :: ancestors).getLast (cons_ne_nil _ _)).parentContractHash = none

/-- Among consistent contracts of which no two collide, the hash determines the contract and all
contracts that stand behind it. -/
theorem contractHash_binds (blake3 : List UInt8 → Hash) (contracts : Set GoalContract)
    (typed : ∀ contract ∈ contracts, contract.Typed)
    (noCollision : Set.InjOn blake3 (Set.image hashedBytes contracts))
    (consistent : ∀ contract ∈ contracts, contract.isSelfConsistent blake3 = true) :
    Set.InjOn contractHash contracts ∧
    ∀ first ∈ contracts, ∀ second ∈ contracts, first.contractHash = second.contractHash →
      ∀ ancestors ancestors' : List GoalContract,
        (∀ contract ∈ ancestors, contract ∈ contracts) →
        (∀ contract ∈ ancestors', contract ∈ contracts) →
        (first :: ancestors).IsChain DescendsFrom → (second :: ancestors').IsChain DescendsFrom →
        (ancestors <+: ancestors' ∨ ancestors' <+: ancestors) ∧
          (ReachesGenesis first ancestors → ReachesGenesis second ancestors' →
            ancestors = ancestors') := by
  have apart : Set.InjOn contractHash contracts := by
    intro first mem second mem' same
    exact eq_of_contractHash noCollision ⟨first, mem, rfl⟩ ⟨second, mem', rfl⟩ (typed first mem)
      (typed second mem') (consistent first mem) (consistent second mem') same
  refine ⟨apart, ?_⟩
  intro first mem second mem' same ancestors ancestors' known known' chain chain'
  obtain rfl := apart mem mem' same
  have unique (contract : GoalContract) : ∀ parent ∈ contracts, ∀ other ∈ contracts,
      DescendsFrom contract parent → DescendsFrom contract other → parent = other :=
    fun parent mem other mem' named named' =>
      apart mem mem' (Option.some.inj (named.symm.trans named'))
  have agree := isChain_comparable unique known known' chain chain'
  refine ⟨agree, fun ends ends' => ?_⟩
  have last {before : List GoalContract} (ends : ReachesGenesis first before)
      (parent : GoalContract) :
      ¬ DescendsFrom ((first :: before).getLast (cons_ne_nil _ _)) parent := by
    intro named
    cases ends.symm.trans named
  obtain part | part := agree
  · exact eq_of_ends chain' part (last ends)
  · exact (eq_of_ends chain part (last ends')).symm

end Binding

/-! ### Two generations -/

instance (text : String) : Decidable (IsTyped text) :=
  inferInstanceAs (Decidable (_ ≤ _))

instance (values : List String) : Decidable (AreTyped values) :=
  inferInstanceAs (Decidable (_ ∧ _))

/-- The contract to read below `/work`. -/
def workContract : GoalContract where
  schema := gt96ContractSchemaV1
  version := 1
  objective := "close the work"
  acceptanceCriteria := workCriteria
  target := readingTarget "/work"
  constraints := []
  invariants := []
  nonGoals := []
  effectPolicy := .localReversible
  evidenceRequired := true
  budgetPolicy := workBudget
  authorId := "operator"
  effectiveEpoch := 1
  parentContractHash := none
  evolutionReason := none
  contractHash := .ofNat 0x3701983f58dd5abe7e1804bea3d0f253de2b45929a6324300fd27b84f3ca75e9

/-- The next version of it, which reads less. -/
def reportContract : GoalContract :=
  { workContract with
    version := 2
    target := readingTarget "/work/report"
    effectiveEpoch := 2
    parentContractHash := some workContract.contractHash
    evolutionReason := some "narrow scope"
    contractHash := .ofNat 0xb718d2fb341fd34f8b35f510c781ab321707a39003672e8dbb0f42014c4a4916 }

theorem workContract_typed : workContract.Typed where
  schema := by decide +kernel
  version := by decide
  objective := by decide +kernel
  acceptanceCriteria := by decide +kernel
  target := by constructor <;> decide +kernel
  constraints := by decide
  invariants := by decide
  nonGoals := by decide
  authorId := by decide +kernel
  effectiveEpoch := by decide
  evolutionReason := by decide

theorem reportContract_typed : reportContract.Typed :=
  { workContract_typed with
    version := by decide
    target := by constructor <;> decide +kernel
    effectiveEpoch := by decide
    evolutionReason := by decide +kernel }

theorem length_workContract : workContract.hashedBytes.length = 630 := by decide +kernel

theorem length_reportContract : reportContract.hashedBytes.length = 689 := by decide +kernel

theorem reportBlake3_workContract :
    reportBlake3 workContract.hashedBytes = workContract.contractHash :=
  if_pos length_workContract

theorem reportBlake3_reportContract :
    reportBlake3 reportContract.hashedBytes = reportContract.contractHash :=
  if_neg (by rw [length_reportContract]; decide)

theorem workContract_isSelfConsistent : workContract.isSelfConsistent reportBlake3 = true := by
  rw [isSelfConsistent, computeHash, reportBlake3_workContract]
  decide +kernel

theorem reportContract_isSelfConsistent : reportContract.isSelfConsistent reportBlake3 = true := by
  rw [isSelfConsistent, computeHash, reportBlake3_reportContract]
  decide +kernel

theorem contracts_bound_by_hash :
    Set.InjOn contractHash {workContract, reportContract} := by
  have apart : workContract.contractHash ≠ reportContract.contractHash := by decide +kernel
  refine (contractHash_binds reportBlake3 {workContract, reportContract} ?_ ?_ ?_).1
  · rintro contract (rfl | rfl)
    · exact workContract_typed
    · exact reportContract_typed
  · rintro _ ⟨first, rfl | rfl, rfl⟩ _ ⟨second, rfl | rfl, rfl⟩ same
    · rfl
    · rw [reportBlake3_workContract, reportBlake3_reportContract] at same
      exact absurd same apart
    · rw [reportBlake3_workContract, reportBlake3_reportContract] at same
      exact absurd same.symm apart
    · rfl
  · rintro contract (rfl | rfl)
    · exact workContract_isSelfConsistent
    · exact reportContract_isSelfConsistent

end Aegis.Goal
