import AegisCognition.Gateway.Policy
import AegisCognition.Replay.Record

/-!
# Browser evidence

What a browser collector hands over: the action, the artifacts as files or as references to them,
and the observation packet that binds all of it. The packet is what the ledger records, in the
reduced form of `Replay.BrowserObservationPacket`.

The file system is a parameter. A file is read in chunks, and a read may fail or end early.
-/

namespace Aegis.Gateway

open Foundation Replay

inductive BrowserActionKind where
  | navigate
  | click
  | typeText
  | selectOption
  | download
  | permissionPrompt
  | stateSnapshot
  | searchPage
  | findElements
  deriving DecidableEq

def BrowserActionKind.toU8 : BrowserActionKind → UInt8
  | navigate => 0
  | click => 1
  | typeText => 2
  | selectOption => 3
  | download => 4
  | permissionPrompt => 5
  | stateSnapshot => 6
  | searchPage => 7
  | findElements => 8

inductive BrowserActionPlanKind where
  | navigate
  | stateSnapshot
  | searchPage
  | findElements
  | click
  | inputText
  | selectOption
  | download
  | permissionPrompt

namespace BrowserActionPlanKind

def toU8 : BrowserActionPlanKind → UInt8
  | navigate => 0
  | stateSnapshot => 1
  | searchPage => 2
  | findElements => 3
  | click => 4
  | inputText => 5
  | selectOption => 6
  | download => 7
  | permissionPrompt => 8

def toActionKind : BrowserActionPlanKind → BrowserActionKind
  | navigate => .navigate
  | stateSnapshot => .stateSnapshot
  | searchPage => .searchPage
  | findElements => .findElements
  | click => .click
  | inputText => .typeText
  | selectOption => .selectOption
  | download => .download
  | permissionPrompt => .permissionPrompt

def requiresSequenceTermination : BrowserActionPlanKind → Bool
  | navigate | searchPage | download => true
  | _ => false

end BrowserActionPlanKind

inductive BrowserPromptDecision where
  | deny
  | allow
  | dismiss
  deriving DecidableEq

def BrowserPromptDecision.toU8 : BrowserPromptDecision → UInt8
  | deny => 0
  | allow => 1
  | dismiss => 2

inductive BrowserCollectorKind where
  | inAppBrowser
  | chromeExtension
  | computerUse
  | playwrightCdp

def BrowserCollectorKind.toU8 : BrowserCollectorKind → UInt8
  | inAppBrowser => 0
  | chromeExtension => 1
  | computerUse => 2
  | playwrightCdp => 3

inductive BrowserArtifactKind where
  | urlBefore
  | urlAfter
  | domSnapshotBefore
  | domSnapshotAfter
  | screenshotBefore
  | screenshotAfter
  | accessibilityTreeAfter
  | networkLog
  deriving DecidableEq

def BrowserArtifactKind.toU8 : BrowserArtifactKind → UInt8
  | urlBefore => 1
  | urlAfter => 2
  | domSnapshotBefore => 3
  | domSnapshotAfter => 4
  | screenshotBefore => 5
  | screenshotAfter => 6
  | accessibilityTreeAfter => 7
  | networkLog => 8

structure BrowserActionTrace where
  actionId : SubjectId
  actionKind : BrowserActionKind
  targetHash : Hash
  inputHash : Option Hash
  coordinateX : Option (BitVec 32)
  coordinateY : Option (BitVec 32)
  promptDecision : Option BrowserPromptDecision
  policyWindowHash : Hash
  traceHash : Hash
  deriving DecidableEq

structure BrowserActionPlanRecord where
  runId : RunId
  actionId : SubjectId
  planKind : BrowserActionPlanKind
  sequenceNumber : BitVec 64
  typedToolIrHash : Hash
  expectedUrlBeforeHash : Hash
  targetHash : Hash
  inputHash : Option Hash
  coordinateX : Option (BitVec 32)
  coordinateY : Option (BitVec 32)
  promptDecision : Option BrowserPromptDecision
  policyWindowHash : Hash
  browserSessionHash : Hash
  redactionPolicyHash : Hash
  terminatesSequence : Bool
  planHash : Hash

structure BrowserWitnessProof where
  runId : RunId
  actionId : SubjectId
  sideEffectClass : SideEffectClass
  urlBeforeHash : Hash
  urlAfterHash : Hash
  domSnapshotHashBefore : Hash
  domSnapshotHashAfter : Hash
  screenshotHashBefore : Hash
  screenshotHashAfter : Hash
  accessibilityTreeHashAfter : Hash
  networkLogHash : Hash
  actionTraceHash : Hash
  policyWindowHash : Hash
  browserSessionHash : Hash
  redactionPolicyHash : Hash
  proofHash : Hash

structure BrowserArtifactRef where
  kind : BrowserArtifactKind
  byteLen : BitVec 64
  contentHash : Hash
  storageRefHash : Hash
  artifactRefHash : Hash

structure BrowserArtifactFilePathRef (Path : Type) where
  kind : BrowserArtifactKind
  canonicalPath : Path
  normalizedPathHash : Hash
  pathRefHash : Hash

/-- The data that identify one observation of a collector. The records of the source that carry
them (manifest, envelope) repeat the fields. -/
structure BrowserCollection where
  collectorKind : BrowserCollectorKind
  runId : RunId
  actionId : SubjectId
  sequenceNumber : BitVec 64
  observedAtUnixMs : BitVec 64
  collectorConfigHash : Hash
  collectorCapabilityHash : Hash
  browserSessionHash : Hash
  redactionPolicyHash : Hash
  policyWindowHash : Hash

structure BrowserLiveCollectorManifest (Path : Type) extends BrowserCollection where
  artifactPathRefs : List (BrowserArtifactFilePathRef Path)
  manifestHash : Hash

inductive BrowserArtifactReadError where
  | invalidMaxBytes
  | missing
  | notFile
  | empty
  | oversized
  | pathCanonicalizationFailed
  | readFailed
  | modifiedDuringRead
  | artifactMismatch

structure BrowserCollectorEvidenceEnvelope extends BrowserCollection where
  artifacts : List BrowserArtifactRef
  artifactManifestHash : Hash
  envelopeHash : Hash

structure BrowserObservationPacket where
  collectorKind : BrowserCollectorKind
  runId : RunId
  actionId : SubjectId
  sequenceNumber : BitVec 64
  observedAtUnixMs : BitVec 64
  collectorConfigHash : Hash
  collectorCapabilityHash : Hash
  rawArtifactManifestHash : Hash
  actionTrace : BrowserActionTrace
  proof : BrowserWitnessProof
  modalityBundleHash : Hash
  collectorProvenanceHash : Hash
  packetHash : Hash

/-- The part of a packet that reaches the ledger. -/
def BrowserObservationPacket.toReplay (packet : BrowserObservationPacket) :
    Replay.BrowserObservationPacket where
  actionId := packet.actionId
  rawArtifactManifestHash := packet.rawArtifactManifestHash
  actionTraceHash := packet.actionTrace.traceHash
  proof :=
    { browserSessionHash := packet.proof.browserSessionHash
      redactionPolicyHash := packet.proof.redactionPolicyHash
      policyWindowHash := packet.proof.policyWindowHash
      proofHash := packet.proof.proofHash }
  modalityBundleHash := packet.modalityBundleHash
  collectorProvenanceHash := packet.collectorProvenanceHash
  packetHash := packet.packetHash

/-- A file that has been opened: what its metadata say, and what each read returns in turn. A
query or a read that fails is absent. -/
structure OpenFile where
  metadata : Option (Bool × BitVec 64)
  reads : List (Option (List UInt8))

/-- The platform: how it writes its paths and which files it opens. -/
structure Host (Path : Type) where
  isEmpty : Path → Bool
  toStringLossy : Path → String
  windows : Bool
  openFile : Path → Option OpenFile

def requiredBrowserArtifactKindCount : Nat := 8

def defaultBrowserArtifactMaxBytes : Nat := 64 * 1024 * 1024

def optionalI32Bytes : Option (BitVec 32) → List UInt8
  | some value => 1 :: u32Bytes value
  | none => [0]

def optionalPromptDecisionBytes : Option BrowserPromptDecision → List UInt8
  | some decision => [1, decision.toU8]
  | none => [0]

variable {Path : Type} (host : Host Path) (blake3 : Hasher)

section Action

def browserActionTraceHash (trace : BrowserActionTrace) : Hash :=
  blake3 (utf8Bytes "browser-action-trace-v1" ++ u128Bytes trace.actionId ++
    [trace.actionKind.toU8] ++ trace.targetHash.bytes ++ optionalHashBytes trace.inputHash ++
    optionalI32Bytes trace.coordinateX ++ optionalI32Bytes trace.coordinateY ++
    optionalPromptDecisionBytes trace.promptDecision ++ trace.policyWindowHash.bytes)

namespace BrowserActionTrace

def new (actionId : SubjectId) (actionKind : BrowserActionKind) (targetHash : Hash)
    (inputHash : Option Hash) (coordinates : Option (BitVec 32 × BitVec 32))
    (promptDecision : Option BrowserPromptDecision) (policyWindowHash : Hash) :
    BrowserActionTrace :=
  let trace : BrowserActionTrace :=
    { actionId, actionKind, targetHash, inputHash, promptDecision, policyWindowHash
      coordinateX := coordinates.map Prod.fst
      coordinateY := coordinates.map Prod.snd
      traceHash := Hash.zero }
  { trace with traceHash := browserActionTraceHash blake3 trace }

def isValid (trace : BrowserActionTrace) : Bool :=
  let coordinatesAreCoherent := trace.coordinateX.isSome == trace.coordinateY.isSome
  let inputIsValid := match trace.actionKind with
    | .navigate | .click | .stateSnapshot =>
      trace.inputHash.isNone && trace.promptDecision.isNone
    | .typeText | .selectOption | .download | .searchPage | .findElements =>
      trace.inputHash.any nonzeroHash
    | .permissionPrompt => trace.inputHash.isNone && trace.promptDecision.isSome
  0 < trace.actionId && nonzeroHash trace.targetHash && nonzeroHash trace.policyWindowHash &&
    coordinatesAreCoherent && inputIsValid &&
    trace.traceHash == browserActionTraceHash blake3 trace

end BrowserActionTrace

def browserActionPlanRecordHash (plan : BrowserActionPlanRecord) : Hash :=
  blake3 (utf8Bytes "aegis-browser-action-plan-record-v1" ++ u128Bytes plan.runId ++
    u128Bytes plan.actionId ++ [plan.planKind.toU8] ++ u64Bytes plan.sequenceNumber ++
    plan.typedToolIrHash.bytes ++ plan.expectedUrlBeforeHash.bytes ++ plan.targetHash.bytes ++
    optionalHashBytes plan.inputHash ++ optionalI32Bytes plan.coordinateX ++
    optionalI32Bytes plan.coordinateY ++ optionalPromptDecisionBytes plan.promptDecision ++
    plan.policyWindowHash.bytes ++ plan.browserSessionHash.bytes ++
    plan.redactionPolicyHash.bytes ++ [boolByte plan.terminatesSequence])

namespace BrowserActionPlanRecord

def isValid (plan : BrowserActionPlanRecord) : Bool :=
  let coordinatesAreCoherent := plan.coordinateX.isSome == plan.coordinateY.isSome
  let inputIsValid := match plan.planKind with
    | .navigate | .click | .stateSnapshot => plan.inputHash.isNone && plan.promptDecision.isNone
    | .searchPage | .findElements | .inputText | .selectOption | .download =>
      plan.inputHash.any nonzeroHash && plan.promptDecision.isNone
    | .permissionPrompt => plan.inputHash.isNone && plan.promptDecision.isSome
  0 < plan.runId && 0 < plan.actionId && 0 < plan.sequenceNumber &&
    nonzeroHash plan.typedToolIrHash && nonzeroHash plan.expectedUrlBeforeHash &&
    nonzeroHash plan.targetHash && nonzeroHash plan.policyWindowHash &&
    nonzeroHash plan.browserSessionHash && nonzeroHash plan.redactionPolicyHash &&
    coordinatesAreCoherent && inputIsValid &&
    (!plan.planKind.requiresSequenceTermination || plan.terminatesSequence) &&
    plan.planHash == browserActionPlanRecordHash blake3 plan && nonzeroHash plan.planHash

def toActionTrace (plan : BrowserActionPlanRecord) : Option BrowserActionTrace :=
  if plan.isValid blake3 then
    some (BrowserActionTrace.new blake3 plan.actionId plan.planKind.toActionKind plan.targetHash
      plan.inputHash (plan.coordinateX.bind fun x => plan.coordinateY.map (x, ·))
      plan.promptDecision plan.policyWindowHash)
  else none

end BrowserActionPlanRecord

end Action

section Witness

def browserWitnessProofHash (proof : BrowserWitnessProof) : Hash :=
  blake3 (utf8Bytes "browser-witness-proof-v1" ++ u128Bytes proof.runId ++
    u128Bytes proof.actionId ++ [proof.sideEffectClass.toU8] ++ proof.urlBeforeHash.bytes ++
    proof.urlAfterHash.bytes ++ proof.domSnapshotHashBefore.bytes ++
    proof.domSnapshotHashAfter.bytes ++ proof.screenshotHashBefore.bytes ++
    proof.screenshotHashAfter.bytes ++ proof.accessibilityTreeHashAfter.bytes ++
    proof.networkLogHash.bytes ++ proof.actionTraceHash.bytes ++ proof.policyWindowHash.bytes ++
    proof.browserSessionHash.bytes ++ proof.redactionPolicyHash.bytes)

namespace BrowserWitnessProof

section

variable (proof : BrowserWitnessProof)

/-- Every constructor of a witness proof computes its hash from the other fields. -/
def sealed : BrowserWitnessProof :=
  { proof with proofHash := browserWitnessProofHash blake3 proof }

def isValid : Bool :=
  0 < proof.runId && 0 < proof.actionId && nonzeroHash proof.urlBeforeHash &&
    nonzeroHash proof.urlAfterHash && nonzeroHash proof.domSnapshotHashBefore &&
    nonzeroHash proof.domSnapshotHashAfter && nonzeroHash proof.screenshotHashBefore &&
    nonzeroHash proof.screenshotHashAfter && nonzeroHash proof.accessibilityTreeHashAfter &&
    nonzeroHash proof.networkLogHash && nonzeroHash proof.actionTraceHash &&
    nonzeroHash proof.policyWindowHash && nonzeroHash proof.browserSessionHash &&
    nonzeroHash proof.redactionPolicyHash &&
    proof.proofHash == browserWitnessProofHash blake3 proof

def bindsActionTrace (action : BrowserActionTrace) : Bool :=
  proof.isValid blake3 && action.isValid blake3 && proof.actionId == action.actionId &&
    proof.actionTraceHash == action.traceHash && proof.policyWindowHash == action.policyWindowHash

def isValidStagingEvidenceFor (action : BrowserActionTrace) (expectedPolicyWindowHash : Hash) :
    Bool :=
  proof.bindsActionTrace blake3 action && nonzeroHash expectedPolicyWindowHash &&
    proof.policyWindowHash == expectedPolicyWindowHash

end

end BrowserWitnessProof

end Witness

section Packet

def browserModalityBundleHash (proof : BrowserWitnessProof) (rawArtifactManifestHash : Hash) :
    Hash :=
  blake3 (utf8Bytes "browser-modality-bundle-v1" ++ proof.urlBeforeHash.bytes ++
    proof.urlAfterHash.bytes ++ proof.domSnapshotHashBefore.bytes ++
    proof.domSnapshotHashAfter.bytes ++ proof.screenshotHashBefore.bytes ++
    proof.screenshotHashAfter.bytes ++ proof.accessibilityTreeHashAfter.bytes ++
    proof.networkLogHash.bytes ++ rawArtifactManifestHash.bytes)

def browserCollectorProvenanceHash (collectorKind : BrowserCollectorKind) (runId : RunId)
    (actionId : SubjectId) (sequenceNumber observedAtUnixMs : BitVec 64)
    (collectorConfigHash collectorCapabilityHash rawArtifactManifestHash : Hash)
    (browserSessionHash redactionPolicyHash policyWindowHash : Hash) : Hash :=
  blake3 (utf8Bytes "browser-collector-provenance-v1" ++ [collectorKind.toU8] ++
    u128Bytes runId ++ u128Bytes actionId ++ u64Bytes sequenceNumber ++
    u64Bytes observedAtUnixMs ++ collectorConfigHash.bytes ++ collectorCapabilityHash.bytes ++
    rawArtifactManifestHash.bytes ++ browserSessionHash.bytes ++ redactionPolicyHash.bytes ++
    policyWindowHash.bytes)

def browserObservationPacketHash (modalityBundleHash collectorProvenanceHash : Hash)
    (actionTraceHash proofHash : Hash) : Hash :=
  blake3 (utf8Bytes "browser-observation-packet-v1" ++ modalityBundleHash.bytes ++
    collectorProvenanceHash.bytes ++ actionTraceHash.bytes ++ proofHash.bytes)

namespace BrowserObservationPacket

def new (collectorKind : BrowserCollectorKind) (sequenceNumber observedAtUnixMs : BitVec 64)
    (collectorConfigHash collectorCapabilityHash rawArtifactManifestHash : Hash)
    (actionTrace : BrowserActionTrace) (proof : BrowserWitnessProof) :
    BrowserObservationPacket :=
  let modalityBundleHash := browserModalityBundleHash blake3 proof rawArtifactManifestHash
  let collectorProvenanceHash := browserCollectorProvenanceHash blake3 collectorKind proof.runId
    proof.actionId sequenceNumber observedAtUnixMs collectorConfigHash collectorCapabilityHash
    rawArtifactManifestHash proof.browserSessionHash proof.redactionPolicyHash
    proof.policyWindowHash
  { collectorKind, sequenceNumber, observedAtUnixMs, collectorConfigHash
    collectorCapabilityHash, rawArtifactManifestHash, actionTrace, proof, modalityBundleHash
    collectorProvenanceHash
    runId := proof.runId
    actionId := proof.actionId
    packetHash := browserObservationPacketHash blake3 modalityBundleHash collectorProvenanceHash
      actionTrace.traceHash proof.proofHash }

section

variable (packet : BrowserObservationPacket)

def isValid : Bool :=
  packet.runId == packet.proof.runId && packet.actionId == packet.proof.actionId &&
    0 < packet.sequenceNumber && 0 < packet.observedAtUnixMs &&
    nonzeroHash packet.collectorConfigHash && nonzeroHash packet.collectorCapabilityHash &&
    nonzeroHash packet.rawArtifactManifestHash &&
    packet.proof.isValidStagingEvidenceFor blake3 packet.actionTrace
      packet.actionTrace.policyWindowHash &&
    packet.modalityBundleHash ==
      browserModalityBundleHash blake3 packet.proof packet.rawArtifactManifestHash &&
    packet.collectorProvenanceHash == browserCollectorProvenanceHash blake3 packet.collectorKind
      packet.runId packet.actionId packet.sequenceNumber packet.observedAtUnixMs
      packet.collectorConfigHash packet.collectorCapabilityHash packet.rawArtifactManifestHash
      packet.proof.browserSessionHash packet.proof.redactionPolicyHash
      packet.proof.policyWindowHash &&
    packet.packetHash == browserObservationPacketHash blake3 packet.modalityBundleHash
      packet.collectorProvenanceHash packet.actionTrace.traceHash packet.proof.proofHash

def isValidStagingPacketFor (expectedPolicyWindowHash expectedBrowserSessionHash : Hash)
    (expectedRedactionPolicyHash : Hash) : Bool :=
  packet.isValid blake3 && nonzeroHash expectedPolicyWindowHash &&
    nonzeroHash expectedBrowserSessionHash && nonzeroHash expectedRedactionPolicyHash &&
    packet.proof.policyWindowHash == expectedPolicyWindowHash &&
    packet.proof.browserSessionHash == expectedBrowserSessionHash &&
    packet.proof.redactionPolicyHash == expectedRedactionPolicyHash

def isolatedBrowserPolicyFacts (policyVersionHash : Hash) (hasValidApproval : Bool)
    (expectedPolicyWindowHash expectedBrowserSessionHash : Hash)
    (expectedRedactionPolicyHash : Hash) : Option PolicyFacts :=
  if nonzeroHash policyVersionHash && packet.isValidStagingPacketFor blake3
      expectedPolicyWindowHash expectedBrowserSessionHash expectedRedactionPolicyHash then
    some (PolicyFacts.withStagingEvidence blake3 policyVersionHash hasValidApproval
      packet.packetHash .isolatedBrowserSession)
  else none

end

end BrowserObservationPacket

def BrowserActionPlanRecord.isValidForPacket (plan : BrowserActionPlanRecord)
    (expectedTypedToolIrHash : Hash) (packet : BrowserObservationPacket) : Bool :=
  match plan.toActionTrace blake3 with
  | none => false
  | some actionTrace =>
    plan.typedToolIrHash == expectedTypedToolIrHash && nonzeroHash expectedTypedToolIrHash &&
      packet.isValid blake3 && plan.runId == packet.runId && plan.actionId == packet.actionId &&
      plan.sequenceNumber == packet.sequenceNumber &&
      plan.expectedUrlBeforeHash == packet.proof.urlBeforeHash &&
      plan.policyWindowHash == packet.proof.policyWindowHash &&
      plan.browserSessionHash == packet.proof.browserSessionHash &&
      plan.redactionPolicyHash == packet.proof.redactionPolicyHash &&
      actionTrace == packet.actionTrace

end Packet

section Artifact

def browserArtifactRefHash (kind : BrowserArtifactKind) (byteLen : BitVec 64)
    (contentHash storageRefHash : Hash) : Hash :=
  blake3 (utf8Bytes "browser-artifact-ref-v1" ++ [kind.toU8] ++ u64Bytes byteLen ++
    contentHash.bytes ++ storageRefHash.bytes)

namespace BrowserArtifactRef

def new (kind : BrowserArtifactKind) (byteLen : BitVec 64) (contentHash storageRefHash : Hash) :
    BrowserArtifactRef where
  kind := kind
  byteLen := byteLen
  contentHash := contentHash
  storageRefHash := storageRefHash
  artifactRefHash := browserArtifactRefHash blake3 kind byteLen contentHash storageRefHash

def isValid (artifact : BrowserArtifactRef) : Bool :=
  0 < artifact.byteLen && nonzeroHash artifact.contentHash &&
    nonzeroHash artifact.storageRefHash &&
    artifact.artifactRefHash == browserArtifactRefHash blake3 artifact.kind artifact.byteLen
      artifact.contentHash artifact.storageRefHash &&
    nonzeroHash artifact.artifactRefHash

end BrowserArtifactRef

def normalizeBrowserArtifactPath (path : Path) : String :=
  let pathString := (host.toStringLossy path).map fun c => if c = '\\' then '/' else c
  if host.windows then pathString.map Char.toLower else pathString

def browserFileStorageRefHash (kind : BrowserArtifactKind) (path : Path) (byteLen : BitVec 64)
    (contentHash : Hash) : Hash :=
  let normalizedPath := utf8Bytes (normalizeBrowserArtifactPath host path)
  blake3 (utf8Bytes "browser-file-storage-ref-v1" ++ [kind.toU8] ++ u64Bytes byteLen ++
    contentHash.bytes ++ u64Bytes (BitVec.ofNat 64 normalizedPath.length) ++ normalizedPath)

def browserFileNormalizedPathHash (kind : BrowserArtifactKind) (path : Path) : Hash :=
  let normalizedPath := utf8Bytes (normalizeBrowserArtifactPath host path)
  blake3 (utf8Bytes "browser-file-normalized-path-v1" ++ [kind.toU8] ++
    u64Bytes (BitVec.ofNat 64 normalizedPath.length) ++ normalizedPath)

def browserFilePathRefHash (kind : BrowserArtifactKind) (normalizedPathHash : Hash) : Hash :=
  blake3 (utf8Bytes "browser-file-path-ref-v1" ++ [kind.toU8] ++ normalizedPathHash.bytes)

def BrowserArtifactFilePathRef.isValid (pathRef : BrowserArtifactFilePathRef Path) : Bool :=
  !host.isEmpty pathRef.canonicalPath &&
    pathRef.normalizedPathHash ==
      browserFileNormalizedPathHash host blake3 pathRef.kind pathRef.canonicalPath &&
    nonzeroHash pathRef.normalizedPathHash &&
    pathRef.pathRefHash ==
      browserFilePathRefHash blake3 pathRef.kind pathRef.normalizedPathHash &&
    nonzeroHash pathRef.pathRefHash

/-- The reading loop: what has been read so far is `content`. A read of nothing is the end. -/
def browserFileContentHashFromOpenFile (expectedLen maxBytes : Nat) :
    List UInt8 → List (Option (List UInt8)) → Except BrowserArtifactReadError Hash
  | content, [] | content, some [] :: _ =>
    if content.length ≠ expectedLen then .error .modifiedDuringRead else .ok (blake3 content)
  | _, none :: _ => .error .readFailed
  | content, some chunk :: reads =>
    if content.length + chunk.length ≥ 2 ^ 64 then .error .oversized
    else if content.length + chunk.length > maxBytes then .error .oversized
    else browserFileContentHashFromOpenFile expectedLen maxBytes (content ++ chunk) reads

def readBrowserArtifactRefFromFilePathRef (pathRef : BrowserArtifactFilePathRef Path)
    (maxBytes : Nat) : Except BrowserArtifactReadError BrowserArtifactRef :=
  if maxBytes = 0 then .error .invalidMaxBytes
  else if !pathRef.isValid host blake3 then .error .pathCanonicalizationFailed
  else match host.openFile pathRef.canonicalPath with
    | none => .error .readFailed
    | some file =>
      match file.metadata with
      | none => .error .readFailed
      | some (isFile, byteLen) =>
        if !isFile then .error .notFile
        else if byteLen = 0 then .error .empty
        else if byteLen.toNat > maxBytes then .error .oversized
        else
          match browserFileContentHashFromOpenFile blake3 byteLen.toNat maxBytes [] file.reads with
          | .error error => .error error
          | .ok contentHash =>
            .ok (BrowserArtifactRef.new blake3 pathRef.kind byteLen contentHash
              (browserFileStorageRefHash host blake3 pathRef.kind pathRef.canonicalPath byteLen
                contentHash))

end Artifact

section Envelope

def browserRawArtifactManifestHash (artifacts : List BrowserArtifactRef) : Hash :=
  blake3 (utf8Bytes "browser-raw-artifact-manifest-v1" ++
    u64Bytes (BitVec.ofNat 64 artifacts.length) ++
    artifacts.flatMap fun artifact => artifact.artifactRefHash.bytes)

/-- The bytes that the manifest's and the envelope's hashes both begin with. -/
def BrowserCollection.toBytes (collection : BrowserCollection) : List UInt8 :=
  [collection.collectorKind.toU8] ++ u128Bytes collection.runId ++ u128Bytes collection.actionId ++
    u64Bytes collection.sequenceNumber ++ u64Bytes collection.observedAtUnixMs ++
    collection.collectorConfigHash.bytes ++ collection.collectorCapabilityHash.bytes ++
    collection.browserSessionHash.bytes ++ collection.redactionPolicyHash.bytes ++
    collection.policyWindowHash.bytes

/-- The checks that the manifest and the envelope make of them. -/
def BrowserCollection.isValid (collection : BrowserCollection) : Bool :=
  0 < collection.runId && 0 < collection.actionId && 0 < collection.sequenceNumber &&
    0 < collection.observedAtUnixMs && nonzeroHash collection.collectorConfigHash &&
    nonzeroHash collection.collectorCapabilityHash && nonzeroHash collection.browserSessionHash &&
    nonzeroHash collection.redactionPolicyHash && nonzeroHash collection.policyWindowHash

def browserCollectorEvidenceEnvelopeHash (collection : BrowserCollection)
    (artifactManifestHash : Hash) : Hash :=
  blake3 (utf8Bytes "browser-collector-evidence-envelope-v1" ++ collection.toBytes ++
    artifactManifestHash.bytes)

namespace BrowserCollectorEvidenceEnvelope

def new (collection : BrowserCollection) (artifacts : List BrowserArtifactRef) :
    BrowserCollectorEvidenceEnvelope :=
  let artifacts := artifacts.mergeSort fun a b => a.kind.toU8 ≤ b.kind.toU8
  let artifactManifestHash := browserRawArtifactManifestHash blake3 artifacts
  { collection with
    artifacts, artifactManifestHash
    envelopeHash := browserCollectorEvidenceEnvelopeHash blake3 collection artifactManifestHash }

def hasExactRequiredArtifacts (envelope : BrowserCollectorEvidenceEnvelope) : Bool :=
  envelope.artifacts.length == requiredBrowserArtifactKindCount &&
    envelope.artifacts.zipIdx.all fun (artifact, index) =>
      artifact.isValid blake3 && artifact.kind.toU8 == UInt8.ofNat index + 1

def isValid (envelope : BrowserCollectorEvidenceEnvelope) : Bool :=
  envelope.toBrowserCollection.isValid && envelope.hasExactRequiredArtifacts blake3 &&
    envelope.artifactManifestHash == browserRawArtifactManifestHash blake3 envelope.artifacts &&
    nonzeroHash envelope.artifactManifestHash &&
    envelope.envelopeHash == browserCollectorEvidenceEnvelopeHash blake3
      envelope.toBrowserCollection envelope.artifactManifestHash &&
    nonzeroHash envelope.envelopeHash

def fromFilePathRefs (collection : BrowserCollection)
    (artifactPathRefs : List (BrowserArtifactFilePathRef Path)) :
    Except BrowserArtifactReadError BrowserCollectorEvidenceEnvelope := do
  let artifacts ← artifactPathRefs.mapM fun pathRef =>
    readBrowserArtifactRefFromFilePathRef host blake3 pathRef defaultBrowserArtifactMaxBytes
  return new blake3 collection artifacts

def contentHashForUnchecked (envelope : BrowserCollectorEvidenceEnvelope)
    (kind : BrowserArtifactKind) : Option Hash :=
  (envelope.artifacts.find? fun artifact => artifact.kind == kind).map
    BrowserArtifactRef.contentHash

def toObservationPacket (envelope : BrowserCollectorEvidenceEnvelope)
    (actionTrace : BrowserActionTrace) (sideEffectClass : SideEffectClass) :
    Option BrowserObservationPacket :=
  if !envelope.isValid blake3 || !actionTrace.isValid blake3 ||
      actionTrace.actionId != envelope.actionId ||
      actionTrace.policyWindowHash != envelope.policyWindowHash then
    none
  else do
    let proof := BrowserWitnessProof.sealed blake3
      { runId := envelope.runId
        actionId := envelope.actionId
        sideEffectClass
        urlBeforeHash := ← envelope.contentHashForUnchecked .urlBefore
        urlAfterHash := ← envelope.contentHashForUnchecked .urlAfter
        domSnapshotHashBefore := ← envelope.contentHashForUnchecked .domSnapshotBefore
        domSnapshotHashAfter := ← envelope.contentHashForUnchecked .domSnapshotAfter
        screenshotHashBefore := ← envelope.contentHashForUnchecked .screenshotBefore
        screenshotHashAfter := ← envelope.contentHashForUnchecked .screenshotAfter
        accessibilityTreeHashAfter := ← envelope.contentHashForUnchecked .accessibilityTreeAfter
        networkLogHash := ← envelope.contentHashForUnchecked .networkLog
        actionTraceHash := actionTrace.traceHash
        policyWindowHash := envelope.policyWindowHash
        browserSessionHash := envelope.browserSessionHash
        redactionPolicyHash := envelope.redactionPolicyHash
        proofHash := Hash.zero }
    let packet := BrowserObservationPacket.new blake3 envelope.collectorKind
      envelope.sequenceNumber envelope.observedAtUnixMs envelope.collectorConfigHash
      envelope.collectorCapabilityHash envelope.artifactManifestHash actionTrace proof
    if packet.isValid blake3 then some packet else none

end BrowserCollectorEvidenceEnvelope

end Envelope

section Manifest

def browserLiveCollectorManifestHash (collection : BrowserCollection)
    (artifactPathRefs : List (BrowserArtifactFilePathRef Path)) : Hash :=
  blake3 (utf8Bytes "aegis-browser-live-collector-manifest-v1" ++ collection.toBytes ++
    u64Bytes (BitVec.ofNat 64 artifactPathRefs.length) ++
    artifactPathRefs.flatMap fun pathRef => pathRef.kind.toU8 :: pathRef.pathRefHash.bytes)

namespace BrowserLiveCollectorManifest

variable (manifest : BrowserLiveCollectorManifest Path)

def hasExactRequiredPathRefs : Bool :=
  manifest.artifactPathRefs.length == requiredBrowserArtifactKindCount &&
    manifest.artifactPathRefs.zipIdx.all fun (pathRef, index) =>
      pathRef.isValid host blake3 && pathRef.kind.toU8 == UInt8.ofNat index + 1

def isValid : Bool :=
  manifest.toBrowserCollection.isValid && manifest.hasExactRequiredPathRefs host blake3 &&
    manifest.manifestHash == browserLiveCollectorManifestHash blake3
      manifest.toBrowserCollection manifest.artifactPathRefs &&
    nonzeroHash manifest.manifestHash

def toEnvelope : Except BrowserArtifactReadError BrowserCollectorEvidenceEnvelope :=
  if !manifest.isValid host blake3 then .error .artifactMismatch
  else
    BrowserCollectorEvidenceEnvelope.fromFilePathRefs host blake3 manifest.toBrowserCollection
      manifest.artifactPathRefs

def bindsActionTrace (actionTrace : BrowserActionTrace) : Bool :=
  manifest.isValid host blake3 && actionTrace.isValid blake3 &&
    manifest.actionId == actionTrace.actionId &&
    manifest.policyWindowHash == actionTrace.policyWindowHash

def bindsPlan (plan : BrowserActionPlanRecord) : Bool :=
  manifest.isValid host blake3 && plan.isValid blake3 && manifest.runId == plan.runId &&
    manifest.actionId == plan.actionId && manifest.sequenceNumber == plan.sequenceNumber &&
    manifest.browserSessionHash == plan.browserSessionHash &&
    manifest.redactionPolicyHash == plan.redactionPolicyHash &&
    manifest.policyWindowHash == plan.policyWindowHash

end BrowserLiveCollectorManifest

end Manifest

end Aegis.Gateway
