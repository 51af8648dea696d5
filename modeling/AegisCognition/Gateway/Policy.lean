import AegisCognition.Replay.Event

/-!
# The policy boundary

What a tool is asked to do, the facts known when it is asked, and the trace of the decision. The
kernel decides by closing a set of atoms under a few rules; the set is a word with one bit for
each atom. Records name the hash that binds their other fields, and their validity recomputes it.
-/

namespace Aegis.Gateway

open Foundation Replay

inductive CapabilityClass where
  | localRead
  | localWrite
  | externalRead
  | externalWrite
  | browser
  | computer
  | inference
  | retrieval
  | financialLegal
  deriving DecidableEq

/-- The discriminant of the source's enumeration; the same for the other classes below. -/
def CapabilityClass.toU8 : CapabilityClass → UInt8
  | localRead => 0
  | localWrite => 1
  | externalRead => 2
  | externalWrite => 3
  | browser => 4
  | computer => 5
  | inference => 6
  | retrieval => 7
  | financialLegal => 8

inductive SideEffectClass where
  | none
  | localReversible
  | externalRead
  | externalWrite
  | destructive
  | financialLegal
  deriving DecidableEq

def SideEffectClass.toU8 : SideEffectClass → UInt8
  | none => 0
  | localReversible => 1
  | externalRead => 2
  | externalWrite => 3
  | destructive => 4
  | financialLegal => 5

inductive RiskClass where
  | r0
  | r1
  | r2
  | r3
  | r4
  deriving DecidableEq

/-- The discriminant, in the order of which the classes are compared. -/
def RiskClass.toU8 : RiskClass → UInt8
  | r0 => 0
  | r1 => 1
  | r2 => 2
  | r3 => 3
  | r4 => 4

inductive PolicyDecision where
  | allow
  | requireApproval
  | requireStagingSandbox
  | hardBlock
  deriving DecidableEq

def PolicyDecision.toU8 : PolicyDecision → UInt8
  | allow => 0
  | requireApproval => 1
  | requireStagingSandbox => 2
  | hardBlock => 3

inductive StagingEvidenceKind where
  | sandboxExecution
  | testnetExecution
  | isolatedSnapshotExecution
  | isolatedBrowserSession
  | llmGeneratedText
  | mockLog
  deriving DecidableEq

namespace StagingEvidenceKind

def toU8 : StagingEvidenceKind → UInt8
  | sandboxExecution => 0
  | testnetExecution => 1
  | isolatedSnapshotExecution => 2
  | isolatedBrowserSession => 3
  | llmGeneratedText => 4
  | mockLog => 5

def isPhysical : StagingEvidenceKind → Bool
  | sandboxExecution | testnetExecution | isolatedSnapshotExecution | isolatedBrowserSession => true
  | llmGeneratedText | mockLog => false

end StagingEvidenceKind

/-- The schema of typed tool requests that is accepted. -/
def typedToolIrSchemaVersion : BitVec 16 := 1

structure EvidenceContract where
  requiresPhysicalWitness : Bool
  requiresApproval : Bool
  requiresStaging : Bool
  expectedArtifactHash : Option Hash

structure TypedToolIR where
  schemaVersion : BitVec 16
  toolId : BitVec 128
  operationId : BitVec 128
  capability : CapabilityClass
  sideEffect : SideEffectClass
  credentialScopeHash : Hash
  riskClass : RiskClass
  preconditionHash : Hash
  effectHash : Hash
  evidenceContract : EvidenceContract
  approvalScopeHash : Option Hash
  canonicalHash : Hash

structure PolicyProofTrace where
  policyVersionHash : Hash
  inputIrHash : Hash
  factsHash : Hash
  decision : PolicyDecision
  matchedRuleIds : List (BitVec 128)
  counterexampleRefHash : Option Hash

structure PolicyFacts where
  policyVersionHash : Hash
  factsHash : Hash
  hasValidApproval : Bool
  hasStagingEnvironment : Bool
  hasHitlSignature : Bool
  stagingProofRefHash : Option Hash
  stagingEvidenceKind : Option StagingEvidenceKind
  hitlSignatureRefHash : Option Hash

/-- The larger of the risks that the capability and the side effect call for. -/
def minimumRequiredRisk (capability : CapabilityClass) (sideEffect : SideEffectClass) :
    RiskClass :=
  let capabilityRisk : RiskClass := match capability with
    | .localRead | .inference | .retrieval => .r0
    | .localWrite => .r1
    | .externalRead | .browser => .r2
    | .externalWrite | .computer => .r3
    | .financialLegal => .r4
  let sideEffectRisk : RiskClass := match sideEffect with
    | .none => .r0
    | .localReversible => .r1
    | .externalRead => .r2
    | .externalWrite => .r3
    | .destructive | .financialLegal => .r4
  if capabilityRisk.toU8 ≤ sideEffectRisk.toU8 then sideEffectRisk else capabilityRisk

def optionalStagingEvidenceKindBytes : Option StagingEvidenceKind → List UInt8
  | some kind => [1, kind.toU8]
  | none => [0]

section Hashing

variable (blake3 : Hasher)

def typedToolIrHash (ir : TypedToolIR) : Hash :=
  blake3 (u128Bytes ir.toolId ++ u128Bytes ir.operationId ++
    [ir.capability.toU8, ir.sideEffect.toU8] ++ ir.credentialScopeHash.bytes ++
    [ir.riskClass.toU8] ++ ir.preconditionHash.bytes ++ ir.effectHash.bytes ++
    [boolByte ir.evidenceContract.requiresPhysicalWitness,
      boolByte ir.evidenceContract.requiresApproval,
      boolByte ir.evidenceContract.requiresStaging] ++
    optionalHashBytes ir.evidenceContract.expectedArtifactHash ++
    optionalHashBytes ir.approvalScopeHash)

def TypedToolIR.isValid (ir : TypedToolIR) : Bool :=
  ir.schemaVersion == typedToolIrSchemaVersion && 0 < ir.toolId && 0 < ir.operationId &&
    nonzeroHash ir.credentialScopeHash && nonzeroHash ir.preconditionHash &&
    nonzeroHash ir.effectHash && ir.canonicalHash == typedToolIrHash blake3 ir &&
    (ir.riskClass.toU8 < RiskClass.r3.toU8 || ir.evidenceContract.requiresApproval) &&
    (ir.riskClass.toU8 < RiskClass.r4.toU8 || ir.evidenceContract.requiresStaging) &&
    (minimumRequiredRisk ir.capability ir.sideEffect).toU8 ≤ ir.riskClass.toU8

namespace PolicyProofTrace

def isReplayConsistentWith (trace : PolicyProofTrace) (ir : TypedToolIR) : Bool :=
  ir.isValid blake3 && trace.inputIrHash == ir.canonicalHash &&
    nonzeroHash trace.policyVersionHash && nonzeroHash trace.factsHash

def computeHash (trace : PolicyProofTrace) : Hash :=
  blake3 (utf8Bytes "policy-proof-trace-v1" ++ trace.policyVersionHash.bytes ++
    trace.inputIrHash.bytes ++ trace.factsHash.bytes ++ [trace.decision.toU8] ++
    u64Bytes (BitVec.ofNat 64 trace.matchedRuleIds.length) ++
    trace.matchedRuleIds.flatMap u128Bytes ++ optionalHashBytes trace.counterexampleRefHash)

end PolicyProofTrace

def policyFactsHash (facts : PolicyFacts) : Hash :=
  blake3 (facts.policyVersionHash.bytes ++
    [boolByte facts.hasValidApproval, boolByte facts.hasStagingEnvironment,
      boolByte facts.hasHitlSignature] ++
    optionalHashBytes facts.stagingProofRefHash ++
    optionalStagingEvidenceKindBytes facts.stagingEvidenceKind ++
    optionalHashBytes facts.hitlSignatureRefHash)

namespace PolicyFacts

/-- The constructor for facts that rest on a staging proof. The facts hash is computed last. -/
def withStagingEvidence (policyVersionHash : Hash) (hasValidApproval : Bool)
    (stagingProofRefHash : Hash) (stagingEvidenceKind : StagingEvidenceKind) : PolicyFacts :=
  let facts : PolicyFacts :=
    { policyVersionHash, hasValidApproval
      factsHash := Hash.zero
      hasStagingEnvironment := true
      hasHitlSignature := false
      stagingProofRefHash := some stagingProofRefHash
      stagingEvidenceKind := some stagingEvidenceKind
      hitlSignatureRefHash := none }
  { facts with factsHash := policyFactsHash blake3 facts }

def isValid (facts : PolicyFacts) : Bool :=
  let stagingFactIsValid :=
    match facts.hasStagingEnvironment, facts.stagingProofRefHash, facts.stagingEvidenceKind with
    | true, some hash, some kind => nonzeroHash hash && kind.isPhysical
    | false, none, none => true
    | _, _, _ => false
  let hitlFactIsValid := match facts.hasHitlSignature, facts.hitlSignatureRefHash with
    | true, some hash => nonzeroHash hash
    | false, none => true
    | _, _ => false
  nonzeroHash facts.policyVersionHash && stagingFactIsValid && hitlFactIsValid &&
    facts.factsHash == policyFactsHash blake3 facts

end PolicyFacts

end Hashing

inductive PolicyAtom where
  | factsValid
  | factsInvalid
  | irValid
  | irInvalid
  | r4
  | contractRequiresStaging
  | contractRequiresApproval
  | approvalPresent
  | stagingPresent
  | hitlPresent
  | missingStagingAndHitl
  | r4WithoutStagingOrHitl
  | stagingRequired
  | approvalRequired

/-- The place of the atom's bit. -/
def PolicyAtom.bit : PolicyAtom → Nat
  | factsValid => 0
  | factsInvalid => 1
  | irValid => 2
  | irInvalid => 3
  | r4 => 4
  | contractRequiresStaging => 5
  | contractRequiresApproval => 6
  | approvalPresent => 7
  | stagingPresent => 8
  | hitlPresent => 9
  | missingStagingAndHitl => 10
  | r4WithoutStagingOrHitl => 11
  | stagingRequired => 12
  | approvalRequired => 13

/-- A set of atoms as a word. -/
abbrev PolicyAtoms := BitVec 64

namespace PolicyAtoms

def hasAtom (atoms : PolicyAtoms) (atom : PolicyAtom) : Bool :=
  atoms &&& (1 <<< atom.bit) != 0

def insertAtom (atoms : PolicyAtoms) (atom : PolicyAtom) : PolicyAtoms :=
  atoms ||| (1 <<< atom.bit)

def insertWhen (atoms : PolicyAtoms) (present : Bool) (atom : PolicyAtom) : PolicyAtoms :=
  if present then insertAtom atoms atom else atoms

/-- One pass over the rules; each reads what the ones before it have added. -/
def fireRules (atoms : PolicyAtoms) : PolicyAtoms :=
  let atoms := insertWhen atoms (!hasAtom atoms .stagingPresent && !hasAtom atoms .hitlPresent)
    .missingStagingAndHitl
  let atoms := insertWhen atoms (hasAtom atoms .r4 && hasAtom atoms .missingStagingAndHitl)
    .r4WithoutStagingOrHitl
  let atoms := insertWhen atoms
    (hasAtom atoms .contractRequiresStaging && hasAtom atoms .missingStagingAndHitl)
    .stagingRequired
  insertWhen atoms (hasAtom atoms .contractRequiresApproval && !hasAtom atoms .approvalPresent)
    .approvalRequired

/-- At most the given number of passes, until one adds nothing. -/
def close : Nat → PolicyAtoms → PolicyAtoms
  | 0, atoms => atoms
  | passes + 1, atoms =>
    let next := fireRules atoms
    if next = atoms then next else close passes next

end PolicyAtoms

section Kernel

variable (blake3 : Hasher)

/-- What is known before any rule fires. -/
def initialAtoms (ir : TypedToolIR) (facts : PolicyFacts) : PolicyAtoms :=
  let atoms := PolicyAtoms.insertAtom 0
    (if facts.isValid blake3 then .factsValid else .factsInvalid)
  let atoms := atoms.insertAtom (if ir.isValid blake3 then .irValid else .irInvalid)
  let atoms := atoms.insertWhen (ir.riskClass == .r4) .r4
  let atoms := atoms.insertWhen ir.evidenceContract.requiresStaging .contractRequiresStaging
  let atoms := atoms.insertWhen ir.evidenceContract.requiresApproval .contractRequiresApproval
  let atoms := atoms.insertWhen facts.hasValidApproval .approvalPresent
  let atoms := atoms.insertWhen facts.hasStagingEnvironment .stagingPresent
  atoms.insertWhen facts.hasHitlSignature .hitlPresent

def staticPolicyCounterexampleHash (label : String) : Hash :=
  blake3 (utf8Bytes "policy-counterexample:" ++ utf8Bytes label)

def policyDecisionFromDatalogAtoms (atoms : PolicyAtoms) :
    PolicyDecision × List (BitVec 128) × Option Hash :=
  if atoms.hasAtom .factsInvalid then
    (.hardBlock, [2], some (staticPolicyCounterexampleHash blake3 "invalid-policy-facts"))
  else if atoms.hasAtom .irInvalid then
    (.hardBlock, [1], some (staticPolicyCounterexampleHash blake3 "invalid-typed-tool-ir"))
  else if atoms.hasAtom .r4WithoutStagingOrHitl then
    (.hardBlock, [3], some (staticPolicyCounterexampleHash blake3 "r4-without-staging-or-hitl"))
  else if atoms.hasAtom .stagingRequired then (.requireStagingSandbox, [4], none)
  else if atoms.hasAtom .approvalRequired then (.requireApproval, [5], none)
  else (.allow, [6], none)

/-- The kernel's decision as a trace. -/
def evaluate (ir : TypedToolIR) (facts : PolicyFacts) : PolicyProofTrace :=
  let (decision, matchedRuleIds, counterexampleRefHash) :=
    policyDecisionFromDatalogAtoms blake3 (PolicyAtoms.close 4 (initialAtoms blake3 ir facts))
  { policyVersionHash := facts.policyVersionHash
    inputIrHash := ir.canonicalHash
    factsHash := facts.factsHash
    decision, matchedRuleIds, counterexampleRefHash }

end Kernel

end Aegis.Gateway
