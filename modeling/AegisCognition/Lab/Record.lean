import Std.Data.ExtTreeMap
import Std.Data.ExtTreeSet
import AegisCognition.Foundation.Json
import AegisCognition.Foundation.Text
import AegisCognition.Lab.Budget
import AegisCognition.Replay.Event

/-!
# States, event kinds and records of the lab

The lab owns five typed records: the sources that were captured, the claims made from
them, the hypotheses that the claims support, the experiments scheduled to test a
hypothesis and the observations an experiment gives. A record refers to earlier records by
their ids, and it is checked against the records that are there when it comes in.
-/

namespace Aegis.Lab

open Foundation

open Replay (Hash)

/-- Records by their id. -/
abbrev Table (V : Type) := Std.ExtTreeMap String V

abbrev IdSet := Std.ExtTreeSet String

inductive LabRunState
  | planned | researching | experimenting | reviewing | completed | blocked | aborted
  deriving DecidableEq

namespace LabRunState

def canTransitionTo : LabRunState → LabRunState → Bool
  | .planned, .researching | .planned, .aborted | .planned, .blocked => true
  | .researching, .experimenting | .researching, .reviewing | .researching, .blocked
  | .researching, .aborted => true
  | .experimenting, .researching | .experimenting, .reviewing | .experimenting, .blocked
  | .experimenting, .aborted => true
  | .reviewing, .completed | .reviewing, .researching | .reviewing, .blocked
  | .reviewing, .aborted => true
  | .blocked, .researching | .blocked, .aborted => true
  | .completed, .blocked | .completed, .aborted => true
  | _, _ => false

/-- The seven states in the order in which a logged digest is compared with them. -/
def all : List LabRunState :=
  [.planned, .researching, .experimenting, .reviewing, .completed, .blocked, .aborted]

/-- The state that a projected payload names. -/
def ofName : String → Option LabRunState
  | "planned" => some .planned
  | "researching" => some .researching
  | "experimenting" => some .experimenting
  | "reviewing" => some .reviewing
  | "completed" => some .completed
  | "blocked" => some .blocked
  | "aborted" => some .aborted
  | _ => none

end LabRunState

inductive LabEventKind
  | missionCreated | executionCellManifestRecorded | stateChanged | sourceCaptured
  | claimRecorded | hypothesisRecorded | experimentScheduled | experimentExecutionAdmitted
  | experimentExecutionRecorded | toolExecutionAdmitted | toolExecutionRecorded
  | observationRecorded | browserActionAdmitted | browserActionRecorded
  | browserObservationAdmitted | browserObservationRecorded | benchmarkEvaluated
  | reviewRecorded | researchProgramAdmitted | researchProgramExecuted | securityEventRecorded
  | blockerRecorded | blockerResolved | skillAdmissionRecorded | skillExecutionRecorded
  | cancellationAdmitted | cancellationRecorded | budgetAdmitted | finalizationStarted
  | finalizationReopened
  deriving DecidableEq

/-- The admissions that the bound on external attempts counts. -/
def isExternalAdmissionKind : LabEventKind → Bool
  | .experimentExecutionAdmitted | .toolExecutionAdmitted | .researchProgramAdmitted
  | .browserActionAdmitted | .browserObservationAdmitted | .skillAdmissionRecorded => true
  | _ => false

/-- The events whose payload has to name the goal contract of the mission. -/
def isGoalBoundEventKind : LabEventKind → Bool
  | .experimentExecutionAdmitted | .experimentExecutionRecorded | .toolExecutionAdmitted
  | .toolExecutionRecorded | .researchProgramAdmitted | .researchProgramExecuted
  | .browserActionAdmitted | .browserActionRecorded | .browserObservationAdmitted
  | .browserObservationRecorded | .skillAdmissionRecorded | .skillExecutionRecorded
  | .cancellationAdmitted | .cancellationRecorded | .reviewRecorded => true
  | _ => false

inductive LabError
  | invalidMission | invalidRecord | invalidBenchmark | invalidTransition | invalidEvent
  | missingRecord | contract (error : ContractError) | incompleteMission
  deriving DecidableEq

/-! ### Sources, claims and hypotheses -/

structure SourceRecord where
  sourceId : String
  uri : String
  retrievedAtMs : Nat
  contentHash : Hash
  snapshotHash : Hash
  trustTier : Nat
  extractor : String
  provenanceCluster : String

def SourceRecord.validate (source : SourceRecord) : Except LabError Unit :=
  let uri := (trim source.uri).toList
  refuseWhen
    (isBlank source.sourceId || !"https://".toList.isPrefixOf uri || (uri.drop 8).isEmpty ||
      uri.contains '@' || source.retrievedAtMs == 0 || source.contentHash == Hash.zero ||
      source.snapshotHash == Hash.zero || isBlank source.extractor || source.trustTier == 0)
    .invalidRecord

inductive ClaimStatus
  | supported | contradicted | unresolved

structure ClaimRecord where
  claimId : String
  statement : String
  sourceIds : List String
  confidenceBps : Nat
  status : ClaimStatus

def ClaimRecord.validate (claim : ClaimRecord) (sources : Table SourceRecord) :
    Except LabError Unit :=
  refuseWhen
    (isBlank claim.claimId || isBlank claim.statement || claim.sourceIds.isEmpty ||
      10000 < claim.confidenceBps || claim.sourceIds.any fun sourceId => !sources.contains sourceId)
    .invalidRecord

structure HypothesisRecord where
  hypothesisId : String
  statement : String
  priorBps : Nat
  falsifiers : List String
  supportingClaimIds : List String
  contradictingClaimIds : List String

def HypothesisRecord.validate (hypothesis : HypothesisRecord) (claims : Table ClaimRecord) :
    Except LabError Unit :=
  refuseWhen
    (isBlank hypothesis.hypothesisId || isBlank hypothesis.statement ||
      10000 < hypothesis.priorBps || hypothesis.falsifiers.isEmpty ||
      hypothesis.falsifiers.any isBlank ||
      (hypothesis.supportingClaimIds ++ hypothesis.contradictingClaimIds).any
        fun claimId => !claims.contains claimId)
    .invalidRecord

/-! ### Units -/

/-- The exponents of mass, length, time, current and temperature that a unit symbol stands
for; the sixth place is not used. -/
def unitBase : String → Option (List Int)
  | "ratio" | "score" => some [0, 0, 0, 0, 0, 0]
  | "m" | "cm" | "mm" => some [0, 1, 0, 0, 0, 0]
  | "s" | "ms" => some [0, 0, 1, 0, 0, 0]
  | "kg" | "g" => some [1, 0, 0, 0, 0, 0]
  | "A" | "mA" | "uA" => some [0, 0, 0, 1, 0, 0]
  | "V" | "mV" => some [1, 2, -3, -1, 0, 0]
  | "W" | "mW" | "uW" => some [1, 2, -3, 0, 0, 0]
  | "J" | "mJ" => some [1, 2, -2, 0, 0, 0]
  | "K" => some [0, 0, 0, 0, 1, 0]
  | "Hz" => some [0, 0, -1, 0, 0, 0]
  | "N" => some [1, 1, -2, 0, 0, 0]
  | "Pa" => some [1, -1, -2, 0, 0, 0]
  | "C" => some [0, 0, 1, 1, 0, 0]
  | "Ohm" => some [1, 2, -3, -2, 0, 0]
  | _ => none

/-- A decimal `i8` with an optional sign. -/
def parseI8 (text : List Char) : Option Int :=
  let (sign, digits) : Int × List Char :=
    match text with
    | '-' :: rest => (-1, rest)
    | '+' :: rest => (1, rest)
    | _ => (1, text)
  if digits.isEmpty || !digits.all Char.isDigit then none else
    let value := sign * digits.foldl (fun n c => 10 * n + (c.toNat - '0'.toNat : Nat)) 0
    if -128 ≤ value ∧ value ≤ 127 then some value else none

/-- One factor of a unit, added to the exponents read so far. -/
def applyUnit (dimensions : List Int) (token : List Char) (operator : Int) : Option (List Int) := do
  let trimmed := trim (String.ofList token)
  if trimmed = "" ∨ trimmed = "1" then return dimensions
  let (symbol, exponent) ←
    match splitOnce ['^'] trimmed.toList with
    | some (symbol, exponent) => do pure (String.ofList symbol, ← parseI8 exponent)
    | none => pure (trimmed, 1)
  let base ← unitBase symbol
  (dimensions.zip base).mapM fun (dimension, component) =>
    let value := dimension + component * exponent * operator
    if -128 ≤ value ∧ value ≤ 127 then some value else none

structure UnitScan where
  dimensions : List Int
  operator : Int
  token : List Char

def UnitScan.read (scan : UnitScan) (character : Char) : Option UnitScan :=
  if character = '*' ∨ character = '/' then do
    let dimensions ← applyUnit scan.dimensions scan.token scan.operator
    pure ⟨dimensions, if character = '*' then 1 else -1, []⟩
  else
    some { scan with token := scan.token ++ [character] }

def unitDimension (unit : String) : Option (List Int) :=
  (((trim unit).toList ++ ['*']).foldlM UnitScan.read ⟨[0, 0, 0, 0, 0, 0], 1, []⟩).map
    (·.dimensions)

/-! ### Experiments and observations -/

structure ExperimentSpec where
  experimentId : String
  hypothesisId : String
  design : String
  variableNames : List String
  controls : List String
  preregisteredSeeds : List Nat
  expectedObservations : Nat
  measurementUnit : String
  uncertaintyRequired : Bool
  minCleanReplicates : Nat

def ExperimentSpec.validate (experiment : ExperimentSpec) (hypotheses : Table HypothesisRecord) :
    Except LabError Unit :=
  refuseWhen
    (isBlank experiment.experimentId || isBlank experiment.design ||
      experiment.variableNames.isEmpty || experiment.controls.isEmpty ||
      experiment.preregisteredSeeds.length < 5 || experiment.expectedObservations == 0 ||
      experiment.expectedObservations < experiment.minCleanReplicates ||
      (unitDimension experiment.measurementUnit).isNone ||
      !hypotheses.contains experiment.hypothesisId)
    .invalidRecord

structure ObservationRecord where
  observationId : String
  experimentId : String
  seed : Nat
  measurement : F64
  unit : String
  rawArtifactHash : Hash
  environmentHash : Hash
  valid : Bool
  uncertainty : Option F64
  replicationOf : Option String
  operatorId : String
  clean : Bool
  epistemicStatus : String

/-- The epistemic statuses that an observation may carry. -/
def isEpistemicStatus (status : String) : Bool :=
  ["OBSERVED", "DERIVED", "INFERRED", "SIMULATED", "UNKNOWN", "REJECTED"].contains status

namespace ObservationRecord

/-- The observation repeats a known observation of its experiment in another environment. -/
def replicates (observation parent : ObservationRecord) : Bool :=
  parent.experimentId == observation.experimentId && !isBlank observation.operatorId &&
    observation.environmentHash != parent.environmentHash && observation.clean

def validate (observation : ObservationRecord) (experiments : Table ExperimentSpec)
    (observations : Table ObservationRecord) : Except LabError Unit := do
  let experiment ← okOr .invalidRecord experiments[observation.experimentId]?
  refuseWhen
    (isBlank observation.observationId || isBlank observation.unit ||
      !observation.measurement.isFinite || observation.rawArtifactHash == Hash.zero ||
      observation.environmentHash == Hash.zero ||
      !isEpistemicStatus observation.epistemicStatus ||
      !experiment.preregisteredSeeds.contains observation.seed ||
      unitDimension observation.unit != unitDimension experiment.measurementUnit ||
      observation.uncertainty.any (fun value => !value.isFinite || value.isNegative) ||
      (experiment.uncertaintyRequired && observation.uncertainty.isNone))
    .invalidRecord
  match observation.replicationOf with
  | none => pure ()
  | some parentId =>
      let parent ← okOr .invalidRecord observations[parentId]?
      refuseWhen (!observation.replicates parent) .invalidRecord

end ObservationRecord

/-! ### Receipts -/

structure ResearchProgramReceipt where
  programHash : Hash
  operationCount : Nat
  candidateCount : Nat
  provider : String

def ResearchProgramReceipt.validate (receipt : ResearchProgramReceipt) : Except LabError Unit :=
  refuseWhen
    (receipt.programHash == Hash.zero || receipt.operationCount == 0 || isBlank receipt.provider)
    .invalidRecord

structure SecurityEventRecord where
  reason : String
  artifactHash : Hash

def SecurityEventRecord.validate (event : SecurityEventRecord) : Except LabError Unit :=
  refuseWhen (isBlank event.reason) .invalidRecord

end Aegis.Lab
