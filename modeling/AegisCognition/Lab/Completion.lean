import AegisCognition.Lab.Completeness
import AegisCognition.Lab.History

/-!
# Goal-gated completion

A mission with a goal contract is only completed behind a goal verification. The gate looks
at the last verification of the log and checks it again. What it cannot see is how the
verification came in: payloads are only retained by admissions of projected records, and a
verification is only admitted while the mission is being reviewed.
-/

namespace Aegis.Lab

open Foundation LabController Json List
open Replay (Hash)

/-! ### What a verification establishes -/

def goalContract (externals : Externals) (c : LabController) : Option JsonObject :=
  (c.mission.goalContractJson.bind externals.fromStr).bind asObject

def verificationOf (payload : Json) : Option JsonObject :=
  payload.asObject.bind (·.object? "verification")

/-- The object is a required predicate of a contract with this id. -/
def IsRequiredPredicate (predicate : JsonObject) (id : String) : Prop :=
  predicate.str? "predicate_id" = some id ∧ predicate.str? "severity" = some "required"

/-- The verification names the contract, comes from somebody that the contract accepts,
passes every required predicate, and its evidence is retained by the controller. -/
structure VerifiesGoal (contract : JsonObject) (c : LabController) (verification : JsonObject) :
    Prop where
  hash : ∃ hash, contract.str? "contract_hash" = some hash ∧
    verification.str? "contract_hash" = some hash
  generation : ∃ generation, contract.u64? "generation" = some generation ∧
    verification.u64? "generation" = some generation
  verifier : ∃ verifier author, verification.str? "verifier_id" = some verifier ∧
    contract.str? "author_id" = some author ∧ verifier ≠ author ∧
    ∃ policy, contract.object? "evidence_policy" = some policy ∧
      (policy.bool? "require_independent_verifier" = some true →
        verification.bool? "independent" = some true ∧
          ∃ trusted, policy.array? "trusted_verifier_ids" = some trusted ∧
            Json.string verifier ∈ trusted)
  passed : ∃ acceptance results, contract.array? "acceptance" = some acceptance ∧
    verification.array? "predicate_results" = some results ∧
    ∀ predicate id, Json.object predicate ∈ acceptance → IsRequiredPredicate predicate id →
      Json.array [.string id, .bool true] ∈ results
  evidence : ∃ acceptance refs, contract.array? "acceptance" = some acceptance ∧
    verification.array? "evidence_refs" = some refs ∧
    ∀ (predicate : JsonObject) id, Json.object predicate ∈ acceptance →
      IsRequiredPredicate predicate id →
      ∃ required, predicate.array? "evidence_refs" = some required ∧
        ∀ item ∈ required, ∃ ref, item = Json.string ref ∧ item ∈ refs ∧ c.retains ref = true
  sources : ∃ refs policy minimum sources, verification.array? "evidence_refs" = some refs ∧
    contract.object? "evidence_policy" = some policy ∧
    policy.u64? "minimum_sources" = some minimum ∧ minimum ≤ List.length sources ∧
    sources.Nodup ∧ ∀ id ∈ sources, Json.string id ∈ refs ∧ c.knowsSource id = true

section Reading

variable {externals : Externals} {c : LabController} {predicates : List GoalPredicate}

/-- A list of texts reads as exactly these texts. -/
theorem goalStringArray_ok {object : JsonObject} {key : String} {texts : List String}
    (h : goalStringArray object key = .ok texts) :
    object.array? key = some (texts.map .string) := by
  simp only [goalStringArray, bind_eq_ok_iff, okOr_eq_ok_iff, refuseWhen_eq_ok_iff] at h
  obtain ⟨values, read, result, mapped, _, -, done⟩ := h
  obtain rfl := Except.ok.inj done
  have same : result.map Json.string = values := by
    clear read done
    induction values generalizing result with
    | nil =>
        obtain rfl := Except.ok.inj mapped
        rfl
    | cons value values ih =>
        simp only [mapM_cons, bind_eq_ok_iff, okOr_eq_ok_iff] at mapped
        obtain ⟨text, ⟨item, asStr, _, -, first⟩, rest, mapped, done⟩ := mapped
        obtain rfl := Except.ok.inj done
        obtain rfl := Except.ok.inj first
        rw [map_cons, ih rest mapped, eq_string_of_asStr asStr]
  rw [read, same]

theorem goalRequiredString_ok {object : JsonObject} {key text : String}
    (h : goalRequiredString object key = .ok text) : object.str? key = some text := by
  simp only [goalRequiredString, bind_eq_ok_iff, okOr_eq_ok_iff, refuseWhen_eq_ok_iff] at h
  obtain ⟨value, read, _, -, done⟩ := h
  cases done
  exact read

theorem readPredicates_mem {acceptance : List Json} {predicate : JsonObject} {id : String}
    (h : acceptance.foldlM readGoalPredicate [] = .ok predicates)
    (mem : Json.object predicate ∈ acceptance) (required : IsRequiredPredicate predicate id) :
    ∃ refs, predicate.array? "evidence_refs" = some (refs.map .string) ∧
      { predicateId := id, required := true, evidenceRefs := refs } ∈ predicates := by
  have reading := foldlM_invariant (motive := fun seen known =>
    Json.object predicate ∈ seen → ∃ refs,
      predicate.array? "evidence_refs" = some (refs.map .string) ∧
        { predicateId := id, required := true, evidenceRefs := refs } ∈ known) ?_ (by simp) h
  · exact reading mem
  intro seen raw rest known next _ ih step here
  simp only [readGoalPredicate, bind_eq_ok_iff, okOr_eq_ok_iff] at step
  obtain ⟨object, read, name, named, severity, level, refs, evidence, _, -, done⟩ := step
  cases done
  obtain old | new := mem_append.mp here
  · obtain ⟨refs, array, known⟩ := ih old
    exact ⟨refs, array, mem_append_left _ known⟩
  · obtain rfl := mem_singleton.mp new
    cases read
    obtain rfl := Option.some.inj (required.1.symm.trans (goalRequiredString_ok named))
    obtain rfl := Option.some.inj (required.2.symm.trans (goalRequiredString_ok level))
    exact ⟨refs, goalStringArray_ok evidence, by simp⟩

/-- A result that was read was reported. -/
theorem readResults_mem {items : List Json} {results : List (String × Bool)} {id : String}
    (h : items.foldlM (readPredicateResult predicates) [] = .ok results)
    (mem : (id, true) ∈ results) : Json.array [.string id, .bool true] ∈ items := by
  have reading := foldlM_invariant (motive := fun seen known =>
    (id, true) ∈ known → Json.array [.string id, .bool true] ∈ seen) ?_ (by simp) h
  · exact reading mem
  intro seen raw rest known next _ ih step here
  simp only [readPredicateResult, bind_eq_ok_iff, okOr_eq_ok_iff] at step
  obtain ⟨pair, read, step⟩ := step
  split at step
  · rename_i name verdict
    simp only [bind_eq_ok_iff, okOr_eq_ok_iff, Option.filter_eq_some_iff] at step
    obtain ⟨passed, asBool, text, ⟨asStr, -⟩, _, -, done⟩ := step
    cases done
    obtain old | new := mem_append.mp here
    · exact mem_append_left _ (ih old)
    · obtain ⟨rfl, rfl⟩ := Prod.mk.inj (mem_singleton.mp new)
      rw [eq_array_of_asArray read, eq_string_of_asStr asStr, eq_bool_of_asBool asBool]
      simp
  · cases step

/-- The evidence references that were read are different and were given. -/
theorem readEvidence_mem {items : List Json} {ids : List String}
    (h : items.foldlM readEvidenceRef [] = .ok ids) :
    ids.Nodup ∧ ∀ id ∈ ids, Json.string id ∈ items := by
  refine foldlM_invariant (motive := fun seen known : List _ =>
    known.Nodup ∧ ∀ id ∈ known, Json.string id ∈ seen) ?_ (by simp) h
  intro seen raw rest known next _ ih step
  simp only [readEvidenceRef, bind_eq_ok_iff, okOr_eq_ok_iff, Option.filter_eq_some_iff,
    refuseWhen_eq_ok_iff] at step
  obtain ⟨text, ⟨asStr, -⟩, _, fresh, done⟩ := step
  cases done
  obtain ⟨nodup, given⟩ := ih
  refine ⟨?_, ?_⟩
  · rw [nodup_append]
    refine ⟨nodup, nodup_singleton _, fun id mem other new same => ?_⟩
    rw [same, mem_singleton.mp new] at mem
    exact fresh (by simpa using mem)
  · intro id mem
    obtain old | new := mem_append.mp mem
    · exact mem_append_left _ (given id old)
    · rw [mem_singleton.mp new, ← eq_string_of_asStr asStr]
      simp

theorem verifiesGoal_of_validate {verification : JsonObject}
    (h : validateGoalVerificationContract externals c verification = .ok ()) :
    ∃ contract, goalContract externals c = some contract ∧
      VerifiesGoal contract c verification := by
  simp only [validateGoalVerificationContract, bind_eq_ok_iff, okOr_eq_ok_iff,
    refuseWhen_eq_ok_iff] at h
  obtain ⟨contractJson, present, value, parsed, contract, object, hash, hashed, generation,
    generated, _, names, policy, policed, independent, independence, types, typed, trusted, trust,
    verifier, verified, claimed, claims, author, authored, _, accepts, acceptance, accepted,
    predicates, read, items, reported, results, readResults, refs, given, ids, readIds, complete,
    completed, _, -, _, -, _, passed, _, -, _, retained, minimum, bounded, enough⟩ := h
  simp only [not_or, ne_eq, not_not] at names
  simp only [Bool.or_eq_true, beq_iff_eq, Bool.and_eq_true, Bool.not_eq_true', not_or, not_and,
    Bool.not_eq_false] at accepts
  simp only [Bool.or_eq_true, any_eq_true, mem_filter, Bool.not_eq_true', not_or,
    not_exists, not_and, Bool.not_eq_false, and_imp] at passed retained
  obtain ⟨nodup, mem⟩ := readEvidence_mem readIds
  refine ⟨contract, by simp [goalContract, present, parsed, object], ?_⟩
  exact {
    hash := ⟨hash, hashed, names.1⟩
    generation := ⟨generation, generated, names.2⟩
    verifier := by
      refine ⟨verifier, author, verified, authored, accepts.1, policy, policed, fun required => ?_⟩
      obtain rfl := Option.some.inj (independence.symm.trans required)
      obtain ⟨own, known⟩ := accepts.2 rfl
      refine ⟨by rw [claims, own], _, goalStringArray_ok trust, ?_⟩
      exact mem_map_of_mem (contains_iff_mem.mp known)
    passed := by
      refine ⟨acceptance, items, accepted, reported, fun predicate id here required => ?_⟩
      obtain ⟨evidence, -, known⟩ := readPredicates_mem read here required
      exact readResults_mem readResults (contains_iff_mem.mp (passed.1.2 _ known rfl))
    evidence := by
      refine ⟨acceptance, refs, accepted, given, fun predicate id here required => ?_⟩
      obtain ⟨evidence, array, known⟩ := readPredicates_mem read here required
      refine ⟨_, array, fun item inside => ?_⟩
      obtain ⟨ref, within, rfl⟩ := mem_map.mp inside
      exact ⟨ref, rfl, mem ref (contains_iff_mem.mp (passed.2 _ known rfl ref within)),
        retained _ known rfl ref within⟩
    sources :=
      ⟨refs, policy, minimum, ids.filter c.knowsSource, given, policed, bounded,
        Nat.le_of_not_lt enough, nodup.filter _, fun id inside =>
          ⟨mem id (mem_of_mem_filter inside), of_mem_filter inside⟩⟩ }

end Reading

/-- The payload is a goal verification that verifies the goal of the mission. -/
def IsVerification (externals : Externals) (c : LabController) (payload : Json) : Prop :=
  isGoalVerification payload = true ∧ ∃ contract verification,
    goalContract externals c = some contract ∧ verificationOf payload = some verification ∧
      VerifiesGoal contract c verification

/-- The log holds a verification of the goal, with its payload. -/
def Verified (externals : Externals) (c : LabController) : Prop :=
  ∃ event payload, event ∈ c.runtime.events ∧ event.kind = .reviewRecorded ∧
    c.payloads[event.sequence]? = some payload ∧ IsVerification externals c payload

section Gate

variable {externals : Externals} {c d : LabController} {event : LabEvent} {payload : Json}
variable {call : Call} {object : JsonObject}

theorem isVerification_of_validate (verification : isGoalVerification payload = true)
    (read : payload.asObject = some object)
    (valid : validateGoalVerificationRecord externals c object = .ok ()) :
    IsVerification externals c payload := by
  have type : object.str? "record_type" = some "goal_verification" := by
    simpa [isGoalVerification, Json.get?, read, JsonObject.str?] using verification
  rw [validateGoalVerificationRecord, if_neg (not_not.mpr type)] at valid
  simp only [bind_eq_ok_iff, okOr_eq_ok_iff] at valid
  obtain ⟨given, found, _, -, _, -, _, -, _, -, _, -, _, -, _, -, checked⟩ := valid
  obtain ⟨contract, present, verifies⟩ := verifiesGoal_of_validate checked
  exact ⟨verification, contract, given, present, by simp [verificationOf, read, found], verifies⟩

variable {projectionState : Option LabRunState}

theorem Admission.isVerification
    (a : Admission externals c event payload projectionState) (kind : event.kind = .reviewRecorded)
    (verification : isGoalVerification payload = true) : IsVerification externals c payload := by
  have indexed := a.indexed
  rw [kind, validateProjectionPayload] at indexed
  simp only [bind_eq_ok_iff, okOr_eq_ok_iff] at indexed
  obtain ⟨object, read, _, valid, -⟩ := indexed
  exact isVerification_of_validate verification read valid

/-- The gate finds a verification in the log. -/
theorem HasCompletionEvidence.verified (h : HasCompletionEvidence externals c)
    (contract : c.mission.goalContractJson.isSome) : Verified externals c := by
  obtain absent | ⟨event, payload, last, -, holds⟩ := h
  · simp [absent] at contract
  obtain ⟨mem, read⟩ := lastGoalVerification_mem last
  obtain ⟨kind, retained, verification⟩ := goalVerificationPayload_eq_some_iff.mp read
  refine ⟨event, payload, mem, kind, retained, ?_⟩
  unfold goalVerificationHolds at holds
  split at holds
  · cases holds
  · rename_i object found
    simp only [Bool.and_eq_true] at holds
    apply isVerification_of_validate verification found
    cases valid : validateGoalVerificationRecord externals c object with
    | ok u => rfl
    | error e => simp [valid, Except.toOption] at holds

theorem SameEvidence.isVerification (same : SameEvidence c d)
    (h : IsVerification externals c payload) : IsVerification externals d payload := by
  obtain ⟨verification, contract, given, present, found, verifies⟩ := h
  refine ⟨verification, contract, given, by simpa [goalContract, same.mission] using present,
    found, ?_⟩
  exact { verifies with
    evidence := by simpa only [same.retains] using verifies.evidence
    sources := by simpa only [same.knowsSource] using verifies.sources }

theorem evidence_of_mayProject (h : c.mayProject externals .completed = true) :
    HasCompletionEvidence externals c := by
  apply hasCompletionEvidence_of_gate
  simpa [mayProject] using (Bool.and_eq_true_iff.mp h).2

/-- A completed mission takes no payload that changes the index. -/
theorem Admission.index_eq_of_completed
    (a : Admission externals c event payload projectionState)
    (state : c.runtime.state = .completed) : a.index = c.index := by
  have allows := a.allows
  have indexed := a.indexed
  rw [state] at allows
  cases kind : event.kind with
  | stateChanged => exact (a.eq_of_stateChanged kind).1
  | reviewRecorded =>
      rw [kind, validateProjectionPayload] at indexed
      simp only [bind_eq_ok_iff] at indexed
      obtain ⟨_, -, _, -, done⟩ := indexed
      exact (Except.ok.inj done).symm
  | _ =>
      rw [kind] at allows
      cases allows

theorem Admission.sameEvidence
    (a : Admission externals c event payload projectionState) (index : a.index = c.index)
    (runtime : a.runtime = c.runtime) : SameEvidence c a.result := by
  refine ⟨?_, index, ?_, ?_, ?_, ?_, ?_⟩ <;> simp only [Admission.result, runtime]

/-- A move that leaves the mission completed keeps its evidence; it starts from a completed
mission or passes the gate. -/
theorem Move.completed (move : Move externals call c d) (completed : d.runtime.state = .completed) :
    SameEvidence c d ∧ (c.runtime.state = .completed ∨ HasCompletionEvidence externals c) := by
  cases move with
  | @entered call c next label other allowed evidence =>
      exact ⟨⟨rfl, rfl, rfl, rfl, rfl, rfl, rfl⟩, .inr (evidence completed)⟩
  | @recorded call c kind payload runtime typed =>
      have state : c.runtime.state = .completed := typed.adds.state.symm.trans completed
      obtain rfl := typed.eq_of_completed state
      exact ⟨⟨rfl, rfl, rfl, rfl, rfl, rfl, rfl⟩, .inl state⟩
  | explored => exact ⟨⟨rfl, rfl, rfl, rfl, rfl, rfl, rfl⟩, .inl completed⟩
  | finalizing => exact ⟨⟨rfl, rfl, rfl, rfl, rfl, rfl, rfl⟩, .inl completed⟩
  | reopened => exact ⟨⟨rfl, rfl, rfl, rfl, rfl, rfl, rfl⟩, .inl completed⟩
  | projectedExploration => exact ⟨⟨rfl, rfl, rfl, rfl, rfl, rfl, rfl⟩, .inl completed⟩
  | @projectedEvent c event projectionState state finalization plain continues next =>
      obtain rfl : state = .completed := completed
      refine ⟨⟨rfl, rfl, rfl, rfl, rfl, rfl, rfl⟩, ?_⟩
      by_cases kind : event.kind = .stateChanged
      · rw [kind] at next
        right
        exact evidence_of_mayProject (projectedState_stateChanged_ok_iff.mp next).2
      · rw [projectedState, if_pos kind] at next
        exact .inl (Except.ok.inj next)
  | @projectedRecord c event payloadJson payload projectionState parsed a =>
      have state : a.state = .completed := completed
      by_cases here : c.runtime.state = .completed
      · exact ⟨a.sameEvidence (a.index_eq_of_completed here) (a.runtime_eq_of_completed here),
          .inl here⟩
      · by_cases kind : event.kind = .stateChanged
        · have next := a.entered
          obtain ⟨index, binding, runtime, -⟩ := a.eq_of_stateChanged kind
          simp only [kind, index, binding, runtime, Option.none_or] at next
          have allowed := (projectedState_stateChanged_ok_iff.mp next).2
          rw [state] at allowed
          exact ⟨a.sameEvidence index runtime, .inr (evidence_of_mayProject allowed)⟩
        · exact absurd ((a.state_eq kind).symm.trans state) here

theorem Move.verified (move : Move externals call c d) (logged : WellLogged c)
    (contract : c.mission.goalContractJson.isSome)
    (h : c.runtime.state = .completed → Verified externals c)
    (completed : d.runtime.state = .completed) : Verified externals d := by
  obtain ⟨same, before⟩ := move.completed completed
  have verified : Verified externals c := before.elim h fun evidence => evidence.verified contract
  obtain ⟨event, payload, mem, kind, retained, verification⟩ := verified
  obtain ⟨next, appends⟩ := move.appends
  refine ⟨event, payload, ?_, kind, ?_, same.isVerification verification⟩
  · rw [appends.events]
    exact mem_append_left _ mem
  · rw [appends.payloads _ (logged.sequence_le mem)]
    exact retained

end Gate

/-! ### How payloads come in -/

section History

variable {externals : Externals} {c d : LabController} {event : LabEvent} {payload : Json}
variable {call : Call}

/-- The call admits the event with this payload and leads to `d`. -/
def Admits (externals : Externals) (call : Call) (c d : LabController) (event : LabEvent)
    (payload : Json) : Prop :=
  ∃ payloadJson projectionState,
    call = .admitProjectionRecord event payloadJson projectionState ∧
      externals.fromStr payloadJson = some payload ∧
      ∃ a : Admission externals c event payload projectionState, d = a.result

theorem Move.retained (move : Move externals call c d) (logged : WellLogged c)
    (mem : event ∈ d.runtime.events) (held : d.payloads[event.sequence]? = some payload) :
    event ∈ c.runtime.events ∧ c.payloads[event.sequence]? = some payload ∨
      Admits externals call c d event payload := by
  obtain ⟨next, appends⟩ := move.appends
  have place : event ∈ c.runtime.events ∨ event = next := by
    simpa [appends.events] using mem
  obtain old | rfl := place
  · rw [appends.payloads _ (logged.sequence_le old)] at held
    exact .inl ⟨old, held⟩
  · -- The new event has a payload only if the move admitted one.
    have bare : c.payloads[event.sequence]? = none := by
      rw [appends.sequence]
      exact logged.payload_next
    cases move with
    | @projectedRecord c other payloadJson value projectionState parsed a =>
        obtain rfl : other = event := a.appends.event_eq appends
        have stored : value = payload := by
          simpa [Admission.result] using held
        exact .inr ⟨payloadJson, projectionState, rfl, stored ▸ parsed, stored ▸ ⟨a, rfl⟩⟩
    | _ =>
        have same : c.payloads[event.sequence]? = some payload := held
        rw [bare] at same
        cases same

/-- The same for a whole call. -/
theorem step_retained (logged : WellLogged c) (mem : event ∈ (step externals c call).runtime.events)
    (held : (step externals c call).payloads[event.sequence]? = some payload) :
    event ∈ c.runtime.events ∧ c.payloads[event.sequence]? = some payload ∨
      accepts externals c call = true ∧
        Admits externals call c (step externals c call) event payload := by
  obtain ⟨-, same⟩ | ⟨accepted, performed⟩ := step_cases externals c call
  · rw [same] at mem held
    exact .inl ⟨mem, held⟩
  have middle : WellLogged (prepared externals c call) := by
    obtain same | move := performed.first
    · rw [same]
      exact logged
    · exact logged.of_appends move.appends.choose_spec
  have second : (event ∈ (prepared externals c call).runtime.events ∧
        (prepared externals c call).payloads[event.sequence]? = some payload) ∨
      Admits externals call (prepared externals c call) (step externals c call) event payload := by
    obtain same | move := performed.second
    · rw [same] at mem held
      exact .inl ⟨mem, held⟩
    · exact move.retained middle mem held
  -- An admission is a single move, so the prepared controller is the one the call found.
  obtain ⟨mem, held⟩ | admits := second
  · obtain same | move := performed.first
    · rw [same] at mem held
      exact .inl ⟨mem, held⟩
    · obtain old | ⟨payloadJson, projectionState, rfl, parsed, a, reach⟩ :=
        move.retained logged mem held
      · exact .inl old
      · exact absurd (congrArg (fun d : LabController => d.runtime.events.length) reach)
          (by simp [prepared, a.appends.events])
  · obtain ⟨payloadJson, projectionState, rfl, rest⟩ := admits
    exact .inr ⟨accepted, payloadJson, projectionState, rfl, rest⟩

theorem reached_retained {start : LabController} (logged : WellLogged start)
    (fresh : start.payloads = ∅) {calls : List Call}
    (mem : event ∈ (reached externals start calls).runtime.events)
    (held : (reached externals start calls).payloads[event.sequence]? = some payload) :
    ∃ before call after, calls = before ++ call :: after ∧
      accepts externals (reached externals start before) call = true ∧
      Admits externals call (reached externals start before)
        (reached externals start (before ++ [call])) event payload := by
  induction calls using reverseRecOn with
  | nil => simp [reached, fresh] at held
  | append_singleton calls call ih =>
      have last : reached externals start (calls ++ [call]) =
          step externals (reached externals start calls) call := run_append ..
      rw [last] at mem held
      obtain ⟨mem, held⟩ | ⟨accepted, admits⟩ := step_retained logged.reached mem held
      · obtain ⟨before, earlier, after, rfl, rest⟩ := ih mem held
        exact ⟨before, earlier, after ++ [call], by simp, rest⟩
      · exact ⟨calls, call, [], rfl, accepted, last ▸ admits⟩

theorem reached_mission {start : LabController} {calls : List Call} :
    (reached externals start calls).mission = start.mission :=
  reached_keeps (P := fun d => d.mission = start.mission)
    (fun _ _ _ move h => move.appends.choose_spec.mission.trans h) rfl

theorem reached_verified {start : LabController} (logged : WellLogged start)
    (contract : start.mission.goalContractJson.isSome)
    (early : start.runtime.state ≠ .completed) {calls : List Call} :
    (reached externals start calls).runtime.state = .completed →
      Verified externals (reached externals start calls) := by
  have kept : WellLogged (reached externals start calls) ∧
      (reached externals start calls).mission.goalContractJson.isSome ∧
      ((reached externals start calls).runtime.state = .completed →
        Verified externals (reached externals start calls)) := reached_keeps
    (P := fun d => WellLogged d ∧ d.mission.goalContractJson.isSome ∧
      (d.runtime.state = .completed → Verified externals d))
    (fun call c d move h => ⟨h.1.of_appends move.appends.choose_spec,
      move.appends.choose_spec.mission ▸ h.2.1, move.verified h.1 h.2.1 h.2.2⟩)
    ⟨logged, contract, fun completed => absurd completed early⟩
  exact kept.2.2

/-- A completed mission with a goal contract has a goal verification in its log that was
admitted as a projected record while the mission was being reviewed. The verification names
the contract, comes from somebody that the contract accepts, passes every required predicate
and rests on evidence and sources that the controller retained then and still retains. -/
theorem completed_mission_verified {mission : LabMissionSpec} {start : LabController}
    (created : LabController.new externals mission = .ok start)
    (contract : mission.goalContractJson.isSome) (calls : List Call)
    (completed : (reached externals start calls).runtime.state = .completed) :
    ∃ before event payloadJson projectionState after payload,
      calls = before ++ .admitProjectionRecord event payloadJson projectionState :: after ∧
      accepts externals (reached externals start before)
        (.admitProjectionRecord event payloadJson projectionState) = true ∧
      (reached externals start before).runtime.state = .reviewing ∧
      (reached externals start
        (before ++ [.admitProjectionRecord event payloadJson projectionState])).runtime.state =
          .reviewing ∧
      event ∈ (reached externals start calls).runtime.events ∧
      event.kind = .reviewRecorded ∧ externals.fromStr payloadJson = some payload ∧
      IsVerification externals (reached externals start before) payload ∧
      IsVerification externals (reached externals start calls) payload := by
  have logged : WellLogged start := .of_new created
  have initial : start.mission = mission ∧ start.runtime.state = .planned ∧
      start.payloads = ∅ := by
    obtain ⟨-, budget, -, rfl⟩ := new_ok created
    exact ⟨rfl, rfl, rfl⟩
  obtain ⟨same, planned, fresh⟩ := initial
  obtain ⟨event, payload, mem, kind, held, verification⟩ :=
    reached_verified logged (same ▸ contract) (by simp [planned]) completed
  obtain ⟨before, call, after, split, accepted, payloadJson, projectionState, rfl, parsed, a,
    reach⟩ := reached_retained logged fresh mem held
  have reviewing : (reached externals start before).runtime.state = .reviewing :=
    a.reviewing (by rw [reached_mission, same]; exact contract) kind verification.1
  refine ⟨before, event, payloadJson, projectionState, after, payload, split, accepted,
    reviewing, ?_, mem, kind, parsed, a.isVerification kind verification.1, verification⟩
  -- A review is no state change.
  rw [reach, ← reviewing]
  exact a.state_eq (by simp [kind])

end History

/-! ### A verified mission -/

/-- A goal contract with one required predicate, as its author writes it. -/
def goalContractText : String :=
  "\x7b\"acceptance\":[\x7b\"description\":\"the report contains a reproducible result\"," ++
  "\"evaluator\":\"aegis.test.reproducibility\",\"evidence_refs\":[\"source-1\"]," ++
  "\"expected_result\":true,\"inputs\":[\"report\"],\"predicate_id\":\"reproducible-result\"," ++
  "\"reproducibility_requirements\":[\"same-inputs\"],\"severity\":\"required\"\x7d]," ++
  "\"author_id\":\"test-author\",\"budget\":\x7b\"attempt_limit\":20," ++
  "\"cost_limit_minor_units\":null,\"cpu_time_limit_ms\":null,\"reserved_tokens\":30," ++
  "\"token_limit\":100,\"wall_time_limit_ms\":null\x7d," ++
  "\"contract_hash\":\"7c11c990dc9671b4ff16cd039c4885cd68e81ab017bc0999067211daf55cee9f\"," ++
  "\"created_at_ms\":1,\"effective_epoch\":1,\"evidence_policy\":\x7b\"minimum_sources\":1," ++
  "\"require_independent_verifier\":true,\"required_record_types\":[\"source\"]," ++
  "\"trusted_verifier_ids\":[\"independent-verifier\"]\x7d,\"evolution_reason\":null," ++
  "\"generation\":1,\"goal_id\":\"goal-1\",\"non_goals\":[],\"objective\":\"test a hypothesis\"," ++
  "\"parent_contract_hash\":null,\"parent_goal_id\":null," ++
  "\"policy_digest\":\"aaaaaaaaaaaaaaaaaaaaaaaaaaaaaaaaaaaaaaaaaaaaaaaaaaaaaaaaaaaaaaaa\"," ++
  "\"schema\":\"aegis-goal-contract-v1\",\"scope\":[\"local deterministic fixture\"]," ++
  "\"target\":\x7b\"external_side_effects\":[],\"kind\":\"fixture\",\"network_allowlist\":[]," ++
  "\"owner\":\"test-author\",\"read_roots\":[\"fixture://input\"]," ++
  "\"revision_or_digest\":\"revision-1\",\"stable_id\":\"fixture-1\",\"write_roots\":[]\x7d\x7d"

def goalContractValue : Json :=
  .object [
    ("acceptance", .array [
        .object [
          ("description", .string "the report contains a reproducible result"),
          ("evaluator", .string "aegis.test.reproducibility"),
          ("evidence_refs", .array [.string "source-1"]), ("expected_result", .bool true),
          ("inputs", .array [.string "report"]), ("predicate_id", .string "reproducible-result"),
          ("reproducibility_requirements", .array [.string "same-inputs"]),
          ("severity", .string "required")]]),
    ("author_id", .string "test-author"),
    ("budget", .object [
        ("attempt_limit", .nat 20), ("cost_limit_minor_units", .null),
        ("cpu_time_limit_ms", .null), ("reserved_tokens", .nat 30), ("token_limit", .nat 100),
        ("wall_time_limit_ms", .null)]),
    ("contract_hash", .string "7c11c990dc9671b4ff16cd039c4885cd68e81ab017bc0999067211daf55cee9f"),
    ("created_at_ms", .nat 1), ("effective_epoch", .nat 1),
    ("evidence_policy", .object [
        ("minimum_sources", .nat 1), ("require_independent_verifier", .bool true),
        ("required_record_types", .array [.string "source"]),
        ("trusted_verifier_ids", .array [.string "independent-verifier"])]),
    ("evolution_reason", .null), ("generation", .nat 1), ("goal_id", .string "goal-1"),
    ("non_goals", .array []), ("objective", .string "test a hypothesis"),
    ("parent_contract_hash", .null), ("parent_goal_id", .null),
    ("policy_digest", .string "aaaaaaaaaaaaaaaaaaaaaaaaaaaaaaaaaaaaaaaaaaaaaaaaaaaaaaaaaaaaaaaa"),
    ("schema", .string "aegis-goal-contract-v1"),
    ("scope", .array [.string "local deterministic fixture"]),
    ("target", .object [
        ("external_side_effects", .array []), ("kind", .string "fixture"),
        ("network_allowlist", .array []), ("owner", .string "test-author"),
        ("read_roots", .array [.string "fixture://input"]),
        ("revision_or_digest", .string "revision-1"), ("stable_id", .string "fixture-1"),
        ("write_roots", .array [])])]

/-- A verification of this contract by its trusted verifier. -/
def goalVerificationText : String :=
  "\x7b\"goal_contract_hash\":" ++
  "\"7c11c990dc9671b4ff16cd039c4885cd68e81ab017bc0999067211daf55cee9f\"," ++
  "\"goal_generation\":1,\"goal_id\":\"goal-1\",\"record_type\":\"goal_verification\"," ++
  "\"target_digest\":\"126fb47163792f9cf0c6ffd0daf18247294283c23d5a74fc3f35fa2046860494\"," ++
  "\"verification\":\x7b" ++
  "\"contract_hash\":\"7c11c990dc9671b4ff16cd039c4885cd68e81ab017bc0999067211daf55cee9f\"," ++
  "\"evidence_complete\":true,\"evidence_refs\":[\"source-1\"],\"generation\":1," ++
  "\"independent\":true,\"predicate_results\":[[\"reproducible-result\",true]]," ++
  "\"schema\":\"aegis-goal-verification-v1\"," ++
  "\"verification_hash\":\"43f965d51e2d05394e33b2ca5f13488087d98c008adcf7cedf8dc4f000000c09\"," ++
  "\"verifier_id\":\"independent-verifier\"\x7d\x7d"

def goalVerificationValue : Json :=
  .object [
    ("goal_contract_hash",
      .string "7c11c990dc9671b4ff16cd039c4885cd68e81ab017bc0999067211daf55cee9f"),
    ("goal_generation", .nat 1), ("goal_id", .string "goal-1"),
    ("record_type", .string "goal_verification"),
    ("target_digest", .string "126fb47163792f9cf0c6ffd0daf18247294283c23d5a74fc3f35fa2046860494"),
    ("verification", .object [
        ("contract_hash",
          .string "7c11c990dc9671b4ff16cd039c4885cd68e81ab017bc0999067211daf55cee9f"),
        ("evidence_complete", .bool true), ("evidence_refs", .array [.string "source-1"]),
        ("generation", .nat 1), ("independent", .bool true),
        ("predicate_results", .array [.array [.string "reproducible-result", .bool true]]),
        ("schema", .string "aegis-goal-verification-v1"),
        ("verification_hash",
          .string "43f965d51e2d05394e33b2ca5f13488087d98c008adcf7cedf8dc4f000000c09"),
        ("verifier_id", .string "independent-verifier")])]

/-- The parser and the digests on what the verified mission hands them. The two texts differ
in their third byte. -/
def goalExternals : Externals where
  fromStr text :=
    match text.toByteArray.data.toList.take 3 with
    | [123, 34, 97] => some goalContractValue
    | [123, 34, 103] => some goalVerificationValue
    | _ => none
  canonicalHash
    | .state state => stateDigest state
    | .mission _ => .ofNat 0x4066df916a73b8039238ed8baaf1ca6d1d821763bbcfe5606185dabb1d89b7e1
    | .source _ => .ofNat 0x78f867fd80c85f62c91c8f1294dbe3d170c53d67ca1bcde0e04031a2223a586e
    | .event event =>
        match event.sequence with
        | 1 => .ofNat 0xfd1031941026aae957e5a63fe69ef6816dd6b0c08d499b89319f2b187b8a3dbd
        | 2 => .ofNat 0x15e29fd8b061ca1f45f268726c34f1c7e4724ebb39e07980719f3b9e62810920
        | 3 => .ofNat 0xc48f7f480138f0e15423413dfd30abb512a0baf634a42ab282a330dd73e47f1
        | 4 => .ofNat 0xf0d425f0fe5be397299fdac89c22fe8b0885152c030bfa01255bc6b152584162
        | 5 => .ofNat 0x92a3e6454d78c8873ebb41de409996dbc9958fb059cce85aaa7d8147fed3707e
        | 6 => .ofNat 0x75bfffef5affb49d4c913a892ac4713a7021c77fcbec1a88834f5089ad6c9b40
        | _ => .zero
    | _ => .zero
  projectionPayloadDigest value :=
    if (value.get? "record_type").isSome then
      .ofNat 0x6c1680aa08f81db38ab02611f753bfb816a6f2183cb866b3cab12af2bf04d89c
    else .ofNat 0x9404864620fa353ffc745a3dc28342294782f1dad0ffc6f09c2f796371b46f12
  goalContractDigest value :=
    if (value.get? "verifier_id").isSome then
      .ofNat 0x90c0000f0c48ddfcef7dc8a008cd9878048135fcab2334e39052d1ed565f943
    else .ofNat 0x9fee5cf5da1172069909bc17b01ae868cd85489c03cd16ffb47196dc90c9117c
  executionBindingDigest _ := .zero

def goalMission : LabMissionSpec :=
  { legacyMission with
    contractHash := .ofNat 0x9fee5cf5da1172069909bc17b01ae868cd85489c03cd16ffb47196dc90c9117c
    maxExternalAttempts := some 20
    goalContractJson := some goalContractText }

def goalSource : SourceRecord where
  sourceId := "source-1"
  uri := "https://example.invalid/paper"
  retrievedAtMs := 1
  contentHash := .fill 1
  snapshotHash := .fill 2
  trustTier := 1
  extractor := "test"
  provenanceCluster := "fixture-cluster"

def goalVerificationEvent : LabEvent where
  sequence := 5
  stateEpoch := 4
  kind := .reviewRecorded
  payloadHash := .ofNat 0x6c1680aa08f81db38ab02611f753bfb816a6f2183cb866b3cab12af2bf04d89c
  previousEventHash := .ofNat 0xf0d425f0fe5be397299fdac89c22fe8b0885152c030bfa01255bc6b152584162
  eventHash := .ofNat 0x92a3e6454d78c8873ebb41de409996dbc9958fb059cce85aaa7d8147fed3707e

/-- A source is captured, the mission is reviewed, verified and completed. -/
def goalCalls : List Call :=
  [.recordSource goalSource, .transition .reviewing,
    .admitProjectionRecord goalVerificationEvent goalVerificationText none, .transition .completed]

theorem goalMission_validates : goalMission.validate goalExternals = .ok () := by
  have wire : refuseWhen (maxGoalContractWireBytes < goalContractText.utf8ByteSize)
      LabError.invalidMission = .ok () :=
    refuseWhen_eq_ok_iff.mpr (by decide +kernel)
  have contract : validateGoalContractJson goalExternals goalContractText goalMission = .ok () := by
    rw [validateGoalContractJson, wire]
    decide +kernel
  simp only [LabMissionSpec.validate, bind_eq_ok_iff]
  exact ⟨(), by decide +kernel, (), by decide +kernel, contract⟩

/-- The controller of the verified mission before its first call. -/
def goalStart : LabController :=
  smallStart goalExternals goalMission

theorem goalMission_starts : LabController.new goalExternals goalMission = .ok goalStart := by
  simp only [LabController.new, LabRuntime.new, bind_eq_ok_iff, mapError_eq_ok_iff]
  exact ⟨goalStart.budget, rfl, goalStart.runtime, ⟨(), goalMission_validates, rfl⟩, rfl⟩

theorem goalCalls_complete :
    (reached goalExternals goalStart goalCalls).runtime.state = .completed := by
  decide +kernel

theorem goalMission_completed_verified :
    goalMission.goalContractJson.isSome ∧
    ∃ before event payloadJson projectionState after payload,
      goalCalls = before ++ .admitProjectionRecord event payloadJson projectionState :: after ∧
      accepts goalExternals (reached goalExternals goalStart before)
        (.admitProjectionRecord event payloadJson projectionState) = true ∧
      (reached goalExternals goalStart before).runtime.state = .reviewing ∧
      (reached goalExternals goalStart
        (before ++ [.admitProjectionRecord event payloadJson projectionState])).runtime.state =
          .reviewing ∧
      event ∈ (reached goalExternals goalStart goalCalls).runtime.events ∧
      event.kind = .reviewRecorded ∧ goalExternals.fromStr payloadJson = some payload ∧
      IsVerification goalExternals (reached goalExternals goalStart before) payload ∧
      IsVerification goalExternals (reached goalExternals goalStart goalCalls) payload :=
  ⟨rfl, completed_mission_verified goalMission_starts rfl goalCalls goalCalls_complete⟩

end Aegis.Lab
