import AegisCognition.Foundation.Settlement
import AegisCognition.Lab.Reachable

/-!
# Effects

Five kinds of effects come through the projection bridge in two events, an admission and a
record. The index keeps the members of an admitted experiment or tool call, and of every other
admission its id alone. So each kind has accounts: an admission opens one under a new key and
with a new id, and a record settles one that says the same as the record does.
-/

namespace Aegis.Lab

open Foundation OrderedMap Option
open Replay (Hash)

/-! ### Effects -/

/-- The kinds of effects that are admitted before they are recorded. -/
inductive Effect
  | experimentExecution
  | toolExecution
  | browserAction
  | browserObservation
  | researchProgram

/-- A text member, read without the white space around it. -/
def trimmedStr (object : JsonObject) (key : String) : Option String :=
  (object.str? key).map trim

/-- The id of an admission and the members that are kept with it. -/
structure Terms where
  admissionId : String
  texts : List (Option String)
  numbers : List (Option Nat)

/-- An id without members. -/
def idTerms (admissionId : String) : Terms :=
  { admissionId, texts := [], numbers := [] }

def experimentTerms (admission : ProjectionExperimentExecutionAdmission) : Terms where
  admissionId := admission.admissionId
  texts := [some admission.inputHash, some admission.policyHash, some admission.experimentId]
  numbers := [some admission.attempt]

def toolTerms (admission : ProjectionToolExecutionAdmission) : Terms where
  admissionId := admission.admissionId
  texts := [some admission.inputHash, some admission.policyHash, some admission.toolName,
    some admission.effectClass]
  numbers := [some admission.attempt, some admission.leaseId]

namespace Effect

def admitted : Effect → LabEventKind
  | experimentExecution => .experimentExecutionAdmitted
  | toolExecution => .toolExecutionAdmitted
  | browserAction => .browserActionAdmitted
  | browserObservation => .browserObservationAdmitted
  | researchProgram => .researchProgramAdmitted

def recorded : Effect → LabEventKind
  | experimentExecution => .experimentExecutionRecorded
  | toolExecution => .toolExecutionRecorded
  | browserAction => .browserActionRecorded
  | browserObservation => .browserObservationRecorded
  | researchProgram => .researchProgramExecuted

/-- The member that names the object of the effect. -/
def objectId : Effect → String
  | experimentExecution | toolExecution => "execution_id"
  | browserAction => "action_id"
  | browserObservation => "observation_id"
  | researchProgram => "program_hash"

/-- The text members that an admission and its record share. -/
def texts : Effect → List String
  | experimentExecution => ["input_hash", "policy_hash", "experiment_id"]
  | toolExecution => ["input_hash", "policy_hash", "tool_name", "effect_class"]
  | browserAction => ["input_hash", "policy_hash", "action_kind"]
  | browserObservation => ["input_hash", "policy_hash", "observation_kind"]
  | researchProgram => ["input_hash", "policy_hash"]

/-- The numbers that an admission and its record share. -/
def numbers : Effect → List String
  | experimentExecution => ["attempt"]
  | toolExecution => ["attempt", "lease_id"]
  | browserAction | browserObservation => ["lease_id"]
  | researchProgram => []

/-- The index keeps the members of the admission, not only its id. -/
def keepsTerms : Effect → Bool
  | experimentExecution | toolExecution => true
  | browserAction | browserObservation | researchProgram => false

/-- The terms that a payload states. -/
def terms? (e : Effect) (object : JsonObject) : Option Terms :=
  (trimmedStr object "admission_id").map fun admissionId =>
    { admissionId
      texts := if e.keepsTerms then e.texts.map (trimmedStr object) else []
      numbers := if e.keepsTerms then e.numbers.map (object.u64? ·) else [] }

/-- What an event of this kind does to the accounts of the effect. -/
def posting (e : Effect) (kind : LabEventKind) (object : JsonObject) :
    Option (Posting String Terms) := do
  let key ← trimmedStr object e.objectId
  let terms ← e.terms? object
  if kind = e.admitted then some (.grant key terms)
  else if kind = e.recorded then some (.settle key terms)
  else none

/-- The accounts of an effect, as the index keeps them. -/
def accounts (index : ProjectionIndex) : Effect → Accounts String Terms
  | experimentExecution =>
      { admitted := fun key => (index.experimentExecutionAdmissions[key]?).map experimentTerms
        settled := { key | key ∈ index.experimentExecutions } }
  | toolExecution =>
      { admitted := fun key => (index.toolExecutionAdmissions[key]?).map toolTerms
        settled := { key | key ∈ index.toolExecutions } }
  | browserAction =>
      { admitted := fun key => (index.browserActionAdmissions[key]?).map idTerms
        settled := { key | key ∈ index.browserActions } }
  | browserObservation =>
      { admitted := fun key => (index.browserObservationAdmissions[key]?).map idTerms
        settled := { key | key ∈ index.browserObservations } }
  | researchProgram =>
      { admitted := fun key => (index.researchProgramAdmissions[key]?).map idTerms
        settled := { key | key ∈ index.researchPrograms } }

end Effect

/-! ### What a payload does to the accounts -/

section Posting

variable {e : Effect} {c : LabController} {kind : LabEventKind} {object : JsonObject}
variable {index : ProjectionIndex}

/-- An admission under a new key and with a new id. -/
theorem posts_grant {V : Type} {table : Table V} (terms : V → Terms) {settled : Set String}
    {key : String} {v : V} (fresh : table.contains key = false)
    (unused : ∀ w ∈ valueList table, (terms w).admissionId ≠ (terms v).admissionId) :
    Posts Terms.admissionId ⟨fun k => (table[k]?).map terms, settled⟩
      (some (.grant key (terms v)))
      ⟨fun k => ((table.insert key v)[k]?).map terms, settled⟩ := by
  have updated : (fun k => ((table.insert key v)[k]?).map terms) =
      Function.update (fun k => (table[k]?).map terms) key (some (terms v)) := by
    funext k
    by_cases same : k = key
    · subst same
      simp
    · rw [Function.update_of_ne same, getElem?_insert_of_ne (Ne.symm same)]
  rw [updated]
  refine .grant ?_ ?_
  · simp [Std.ExtTreeMap.getElem?_eq_none_of_contains_eq_false fresh]
  · intro other held found
    obtain ⟨w, kept, rfl⟩ := map_eq_some_iff.mp found
    exact unused w (mem_valueList_iff.mpr ⟨other, kept⟩)

theorem posts_settle {admitted : String → Option Terms} {ids ids' : IdSet} {key : String}
    {terms : Terms} (held : admitted key = some terms)
    (inserted : insertFresh ids key = .ok ids') :
    Posts Terms.admissionId ⟨admitted, { k | k ∈ ids }⟩ (some (.settle key terms))
      ⟨admitted, { k | k ∈ ids' }⟩ := by
  have once : key ∉ ids := by
    simp only [insertFresh, bind_eq_ok_iff, refuseWhen_eq_ok_iff] at inserted
    obtain ⟨_, fresh, -⟩ := inserted
    simpa using fresh
  have settled : { k | k ∈ ids' } = insert key { k | k ∈ ids } := by
    rw [insertFresh_ok inserted]
    ext k
    simp only [Set.mem_insert_iff, Set.mem_ofPred_eq, Std.ExtTreeSet.mem_insert]
    refine or_congr_left ⟨fun same => (Std.LawfulEqCmp.eq_of_compare same).symm, ?_⟩
    rintro rfl
    exact Std.ReflCmp.compare_self
  rw [settled]
  exact .settle held once

theorem admitOnce_posts {admissions admissions' : Table String} {settled : Set String}
    {key admissionId : String} (h : admitOnce admissions key admissionId = .ok admissions') :
    Posts Terms.admissionId ⟨fun k => (admissions[k]?).map idTerms, settled⟩
      (some (.grant key (idTerms admissionId)))
      ⟨fun k => (admissions'[k]?).map idTerms, settled⟩ := by
  obtain rfl := admitOnce_ok h
  simp only [admitOnce, bind_eq_ok_iff, refuseWhen_eq_ok_iff, Bool.or_eq_true, not_or,
    Bool.not_eq_true] at h
  obtain ⟨_, ⟨fresh, unused⟩, -⟩ := h
  refine posts_grant idTerms fresh ?_
  rintro w mem same
  obtain rfl : w = admissionId := same
  simp [mem] at unused

theorem settleOnce_posts {admissions : Table String} {ids ids' : IdSet}
    {key admissionId : String} (h : settleOnce admissions ids key admissionId = .ok ids') :
    Posts Terms.admissionId
      ⟨fun k => (admissions[k]?).map idTerms, { k | k ∈ ids }⟩
      (some (.settle key (idTerms admissionId)))
      ⟨fun k => (admissions[k]?).map idTerms, { k | k ∈ ids' }⟩ := by
  simp only [settleOnce, bind_eq_ok_iff, refuseWhen_eq_ok_iff, ne_eq, not_not] at h
  obtain ⟨_, held, inserted⟩ := h
  exact posts_settle (by simp [held]) inserted

theorem Effect.recorded_ne_admitted : e.recorded ≠ e.admitted := by
  cases e <;> nofun

theorem Effect.posting_other (admits : kind ≠ e.admitted) (records : kind ≠ e.recorded) :
    e.posting kind object = none := by
  simp [Effect.posting, admits, records]

/-- An event of the kind `kind` with this payload takes the accounts of an effect from those of
one index to those of another. If it is about the effect at all, the payload names its object
and states its terms. -/
structure Effect.PostsPayload (e : Effect) (kind : LabEventKind) (object : JsonObject)
    (before after : ProjectionIndex) : Prop where
  posts : Posts Terms.admissionId (e.accounts before) (e.posting kind object) (e.accounts after)
  stated : kind = e.admitted ∨ kind = e.recorded → ∃ key terms,
    trimmedStr object e.objectId = some key ∧ e.terms? object = some terms

section Payloads

variable {before after : ProjectionIndex} {key : String} {terms : Terms}

theorem Effect.PostsPayload.of_grant (admits : kind = e.admitted)
    (named : trimmedStr object e.objectId = some key) (stated : e.terms? object = some terms)
    (posts : Posts Terms.admissionId (e.accounts before) (some (.grant key terms))
      (e.accounts after)) : e.PostsPayload kind object before after := by
  subst admits
  have posting : e.posting e.admitted object = some (.grant key terms) := by
    simp [Effect.posting, named, stated]
  exact ⟨posting ▸ posts, fun _ => ⟨key, terms, named, stated⟩⟩

theorem Effect.PostsPayload.of_settle (records : kind = e.recorded)
    (named : trimmedStr object e.objectId = some key) (stated : e.terms? object = some terms)
    (posts : Posts Terms.admissionId (e.accounts before) (some (.settle key terms))
      (e.accounts after)) : e.PostsPayload kind object before after := by
  subst records
  have posting : e.posting e.recorded object = some (.settle key terms) := by
    simp [Effect.posting, named, stated, Effect.recorded_ne_admitted]
  exact ⟨posting ▸ posts, fun _ => ⟨key, terms, named, stated⟩⟩

end Payloads

theorem trimmedStr_of_nonEmpty {key text : String} (h : nonEmpty object key = .ok text) :
    trimmedStr object key = some text :=
  (nonEmpty_ok h).2

theorem u64_of_attempt {attempt : Nat} (h : attemptField object = .ok attempt) :
    object.u64? "attempt" = some attempt :=
  (filter_eq_some_iff.mp (okOr_eq_ok_iff.mp h)).1

theorem experimentExecution_terms? {admission : ProjectionExperimentExecutionAdmission}
    (admits : nonEmpty object "admission_id" = .ok admission.admissionId)
    (tests : nonEmpty object "experiment_id" = .ok admission.experimentId)
    (counted : attemptField object = .ok admission.attempt)
    (input : nonEmpty object "input_hash" = .ok admission.inputHash)
    (policy : nonEmpty object "policy_hash" = .ok admission.policyHash) :
    Effect.experimentExecution.terms? object = some (experimentTerms admission) := by
  simp [Effect.terms?, Effect.keepsTerms, Effect.texts, Effect.numbers, experimentTerms,
    trimmedStr_of_nonEmpty admits, trimmedStr_of_nonEmpty input, trimmedStr_of_nonEmpty policy,
    trimmedStr_of_nonEmpty tests, u64_of_attempt counted]

theorem experimentExecutionAdmitted_posts
    (h : experimentExecutionAdmitted c object = .ok index) :
    Effect.experimentExecution.PostsPayload .experimentExecutionAdmitted object c.index index := by
  simp only [experimentExecutionAdmitted, bind_eq_ok_iff, refuseWhen_eq_ok_iff, Bool.or_eq_true,
    not_or, Bool.not_eq_true', Bool.not_eq_true] at h
  obtain ⟨admissionId, admits, executionId, executes, experimentId, tests, attempt, counted, _, -,
    inputHash, input, policyHash, policy, _, ⟨⟨-, fresh⟩, unused⟩, done⟩ := h
  cases done
  refine .of_grant rfl (trimmedStr_of_nonEmpty executes)
    (experimentExecution_terms? admits tests counted input policy) (posts_grant _ fresh ?_)
  intro w mem same
  exact List.any_eq_false.mp unused w mem (beq_iff_eq.mpr same)

theorem experimentExecutionRecorded_posts
    (h : experimentExecutionRecorded c object = .ok index) :
    Effect.experimentExecution.PostsPayload .experimentExecutionRecorded object c.index index := by
  simp only [experimentExecutionRecorded, bind_eq_ok_iff, refuseWhen_eq_ok_iff, Bool.or_eq_true,
    not_or, Bool.not_eq_true', bne_iff_ne, ne_eq, not_not] at h
  obtain ⟨admissionId, admits, executionId, executes, experimentId, tests, attempt, counted, _, -,
    inputHash, input, _, -, policyHash, policy, _, ⟨-, held⟩, executions, inserted, done⟩ := h
  cases done
  exact .of_settle rfl (trimmedStr_of_nonEmpty executes)
    (experimentExecution_terms? admits tests counted input policy)
    (posts_settle (map_eq_some_iff.mpr ⟨_, held, rfl⟩) inserted)

theorem toolExecution_stated {executionId : String} {admission : ProjectionToolExecutionAdmission}
    (h : toolExecution object = .ok (executionId, admission)) :
    trimmedStr object "execution_id" = some executionId ∧
      Effect.toolExecution.terms? object = some (toolTerms admission) := by
  simp only [toolExecution, bind_eq_ok_iff, okOr_eq_ok_iff, filter_eq_some_iff] at h
  obtain ⟨admissionId, admits, id, executes, toolName, named, effectClass, effects, _, -, _, -, _,
    -, attempt, counted, leaseId, ⟨leased, -⟩, inputHash, input, policyHash, policy, _, -, _, -,
    done⟩ := h
  obtain ⟨rfl, rfl⟩ := Prod.mk.inj (Except.ok.inj done)
  refine ⟨trimmedStr_of_nonEmpty executes, ?_⟩
  simp [Effect.terms?, Effect.keepsTerms, Effect.texts, Effect.numbers, toolTerms,
    trimmedStr_of_nonEmpty admits, trimmedStr_of_nonEmpty input, trimmedStr_of_nonEmpty policy,
    trimmedStr_of_nonEmpty named, trimmedStr_of_nonEmpty effects, u64_of_attempt counted, leased]

theorem toolExecutionAdmitted_posts (h : toolExecutionAdmitted c object = .ok index) :
    Effect.toolExecution.PostsPayload .toolExecutionAdmitted object c.index index := by
  simp only [toolExecutionAdmitted, bind_eq_ok_iff, refuseWhen_eq_ok_iff, Bool.or_eq_true,
    not_or, Bool.not_eq_true', Bool.not_eq_true] at h
  obtain ⟨⟨executionId, admission⟩, read, _, ⟨⟨-, fresh⟩, unused⟩, done⟩ := h
  cases done
  obtain ⟨named, stated⟩ := toolExecution_stated read
  refine .of_grant rfl named stated (posts_grant _ fresh ?_)
  intro w mem same
  exact List.any_eq_false.mp unused w mem (beq_iff_eq.mpr same)

theorem toolExecutionRecorded_posts (h : toolExecutionRecorded c object = .ok index) :
    Effect.toolExecution.PostsPayload .toolExecutionRecorded object c.index index := by
  simp only [toolExecutionRecorded, bind_eq_ok_iff, refuseWhen_eq_ok_iff, Bool.or_eq_true,
    not_or, Bool.not_eq_true', bne_iff_ne, ne_eq, not_not] at h
  obtain ⟨⟨executionId, admission⟩, read, _, -, _, ⟨-, held⟩, executions, inserted, done⟩ := h
  cases done
  obtain ⟨named, stated⟩ := toolExecution_stated read
  exact .of_settle rfl named stated
    (posts_settle (map_eq_some_iff.mpr ⟨_, held, rfl⟩) inserted)

theorem terms?_of_idTerms {admissionId : String} (keeps : e.keepsTerms = false)
    (admits : nonEmpty object "admission_id" = .ok admissionId) :
    e.terms? object = some (idTerms admissionId) := by
  simp [Effect.terms?, keeps, idTerms, trimmedStr_of_nonEmpty admits]

theorem browserActionAdmitted_posts (h : browserActionAdmitted c object = .ok index) :
    Effect.browserAction.PostsPayload .browserActionAdmitted object c.index index := by
  simp only [browserActionAdmitted, bind_eq_ok_iff] at h
  obtain ⟨⟨key, admissionId⟩, read, admissions, inserted, done⟩ := h
  cases done
  obtain ⟨admits, named⟩ := browserAction_ok read
  exact .of_grant rfl (trimmedStr_of_nonEmpty named) (terms?_of_idTerms rfl admits)
    (admitOnce_posts inserted)

theorem browserActionRecorded_posts (h : browserActionRecorded c object = .ok index) :
    Effect.browserAction.PostsPayload .browserActionRecorded object c.index index := by
  simp only [browserActionRecorded, bind_eq_ok_iff] at h
  obtain ⟨⟨key, admissionId⟩, read, actions, settled, done⟩ := h
  cases done
  obtain ⟨admits, named⟩ := browserAction_ok read
  exact .of_settle rfl (trimmedStr_of_nonEmpty named) (terms?_of_idTerms rfl admits)
    (settleOnce_posts settled)

theorem browserObservationAdmitted_posts (h : browserObservationAdmitted c object = .ok index) :
    Effect.browserObservation.PostsPayload .browserObservationAdmitted object c.index index := by
  simp only [browserObservationAdmitted, bind_eq_ok_iff] at h
  obtain ⟨⟨key, admissionId⟩, read, admissions, inserted, done⟩ := h
  cases done
  obtain ⟨admits, named⟩ := browserObservation_ok read
  exact .of_grant rfl (trimmedStr_of_nonEmpty named) (terms?_of_idTerms rfl admits)
    (admitOnce_posts inserted)

theorem browserObservationRecorded_posts (h : browserObservationRecorded c object = .ok index) :
    Effect.browserObservation.PostsPayload .browserObservationRecorded object c.index index := by
  simp only [browserObservationRecorded, bind_eq_ok_iff] at h
  obtain ⟨⟨key, admissionId⟩, read, observations, settled, done⟩ := h
  cases done
  obtain ⟨admits, named⟩ := browserObservation_ok read
  exact .of_settle rfl (trimmedStr_of_nonEmpty named) (terms?_of_idTerms rfl admits)
    (settleOnce_posts settled)

theorem researchProgramAdmitted_posts (h : researchProgramAdmitted c object = .ok index) :
    Effect.researchProgram.PostsPayload .researchProgramAdmitted object c.index index := by
  simp only [researchProgramAdmitted, bind_eq_ok_iff] at h
  obtain ⟨admissionId, admits, programHash, named, _, -, _, -, admissions, inserted, done⟩ := h
  cases done
  exact .of_grant rfl (trimmedStr_of_nonEmpty named) (terms?_of_idTerms rfl admits)
    (admitOnce_posts inserted)

theorem researchProgramExecuted_posts (h : researchProgramExecuted c object = .ok index) :
    Effect.researchProgram.PostsPayload .researchProgramExecuted object c.index index := by
  simp only [researchProgramExecuted, bind_eq_ok_iff] at h
  obtain ⟨admissionId, admits, programHash, named, _, -, _, -, programs, settled, done⟩ := h
  cases done
  exact .of_settle rfl (trimmedStr_of_nonEmpty named) (terms?_of_idTerms rfl admits)
    (settleOnce_posts settled)

end Posting

/-! ### Payloads that leave the accounts alone -/

/-- The index that comes out has the same accounts of this effect. -/
def LeavesAccounts (e : Effect) (before : ProjectionIndex)
    (result : Except LabError ProjectionIndex) : Prop :=
  ∀ after, result = .ok after → e.accounts after = e.accounts before

section Other

variable {e : Effect} {c : LabController} {kind : LabEventKind} {object : JsonObject}

theorem LeavesAccounts.bind {α : Type} {before : ProjectionIndex} {first : Except LabError α}
    {rest : α → Except LabError ProjectionIndex} (h : ∀ a, LeavesAccounts e before (rest a)) :
    LeavesAccounts e before (first >>= rest) := by
  intro after done
  obtain ⟨a, -, done⟩ := bind_eq_ok_iff.mp done
  exact h a after done

theorem LeavesAccounts.pure {before after : ProjectionIndex}
    (same : e.accounts after = e.accounts before) :
    LeavesAccounts e before (Pure.pure after) := by
  intro found done
  exact Except.ok.inj done ▸ same

theorem observationRecorded_leavesAccounts :
    LeavesAccounts e c.index (observationRecorded c object) := by
  unfold observationRecorded
  iterate 6 refine .bind fun _ => ?_
  split
  · exact .bind fun _ => .pure (by cases e <;> rfl)
  · exact .bind fun _ => .bind fun _ => .bind fun _ => .pure (by cases e <;> rfl)

theorem validateProjectionPayload_leavesAccounts {externals : Externals} {payload : Json}
    (admits : kind ≠ e.admitted) (records : kind ≠ e.recorded) :
    LeavesAccounts e c.index (validateProjectionPayload externals c kind payload) := by
  refine .bind fun object => ?_
  cases kind with
  | sourceCaptured | claimRecorded | hypothesisRecorded | experimentScheduled
  | skillAdmissionRecorded | skillExecutionRecorded | cancellationAdmitted
  | cancellationRecorded =>
      repeat' refine LeavesAccounts.bind fun _ => ?_
      exact .pure (by cases e <;> rfl)
  | experimentExecutionAdmitted | toolExecutionAdmitted | browserActionAdmitted
  | browserObservationAdmitted | researchProgramAdmitted =>
      repeat' refine LeavesAccounts.bind fun _ => ?_
      exact .pure (by cases e <;> first | rfl | exact absurd rfl admits)
  | experimentExecutionRecorded | toolExecutionRecorded | browserActionRecorded
  | browserObservationRecorded | researchProgramExecuted =>
      repeat' refine LeavesAccounts.bind fun _ => ?_
      exact .pure (by cases e <;> first | rfl | exact absurd rfl records)
  | observationRecorded => exact observationRecorded_leavesAccounts
  | executionCellManifestRecorded | reviewRecorded | securityEventRecorded | blockerRecorded
  | blockerResolved | finalizationStarted | finalizationReopened | stateChanged =>
      exact .bind fun _ => .pure rfl
  | missionCreated | benchmarkEvaluated | budgetAdmitted => exact .pure rfl

/-- What an accepted payload does to the accounts of an effect. -/
theorem validateProjectionPayload_posts {externals : Externals} {payload : Json}
    {index : ProjectionIndex} (e : Effect) (read : payload.asObject = some object)
    (h : validateProjectionPayload externals c kind payload = .ok index) :
    e.PostsPayload kind object c.index index := by
  by_cases about : kind = e.admitted ∨ kind = e.recorded
  · simp only [validateProjectionPayload, read, okOr, bind_eq_ok_iff, Except.ok.injEq,
      exists_eq_left'] at h
    cases e with
    | experimentExecution =>
        obtain rfl | rfl := about
        · exact experimentExecutionAdmitted_posts h
        · exact experimentExecutionRecorded_posts h
    | toolExecution =>
        obtain rfl | rfl := about
        · exact toolExecutionAdmitted_posts h
        · exact toolExecutionRecorded_posts h
    | browserAction =>
        obtain rfl | rfl := about
        · exact browserActionAdmitted_posts h
        · exact browserActionRecorded_posts h
    | browserObservation =>
        obtain rfl | rfl := about
        · exact browserObservationAdmitted_posts h
        · exact browserObservationRecorded_posts h
    | researchProgram =>
        obtain rfl | rfl := about
        · exact researchProgramAdmitted_posts h
        · exact researchProgramExecuted_posts h
  · obtain ⟨admits, records⟩ := not_or.mp about
    refine ⟨?_, fun h => absurd h about⟩
    rw [Effect.posting_other admits records,
      validateProjectionPayload_leavesAccounts admits records index h]
    exact .idle

end Other

end Aegis.Lab
