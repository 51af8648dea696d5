import AegisCognition.Lab.Index

/-!
# Goal bindings

The payload of a goal-bound event is checked against the goal and against the binding of the
run when it comes in. It passes the same check in every later controller: the manifest comes
before every goal-bound event, and a run that has taken a payload without a binding never
takes one with a binding.
-/

namespace Aegis.Lab

open Foundation LabController OrderedMap List
open Replay (Hash)

/-! ### Reading a binding again -/

/-- `d` reads goal bindings as `c` does, the binding of the run apart. -/
structure SameGoal (c d : LabController) : Prop where
  mission : d.mission = c.mission
  manifests : d.manifestPayloads = c.manifestPayloads
  internal : managedInternalEffectRegistered c = true → managedInternalEffectRegistered d = true

section Reading

variable {externals : Externals} {c d : LabController} {kind : LabEventKind}
variable {object : JsonObject} {goal : GoalReading} {manifestHash : Option String} {raw : Json}
variable {binding : ProjectionExecutionBinding} {found : Option ProjectionExecutionBinding}

theorem validateExecutionBinding_keeps (same : SameGoal c d)
    (bound : d.executionBinding = some binding)
    (h : validateExecutionBinding externals c goal manifestHash raw = .ok binding) :
    validateExecutionBinding externals d goal manifestHash raw = .ok binding := by
  simp only [validateExecutionBinding, bind_eq_ok_iff, refuseWhen_eq_ok_iff] at h ⊢
  obtain ⟨read, wire, owner, owned, _, agrees, rest⟩ := h
  refine ⟨read, wire, owner, owned, (), same.mission ▸ agrees, ?_⟩
  split at rest
  · simp only [bind_eq_ok_iff, refuseWhen_eq_ok_iff] at rest ⊢
    obtain ⟨_, chosen, matched, matching, _, only, _, -, _, -, done⟩ := rest
    cases done
    exact ⟨(), chosen, matched, same.manifests ▸ matching, (), only, (), by simp [bound], (),
      by simp [bound], rfl⟩
  · simp only [bind_eq_ok_iff, refuseWhen_eq_ok_iff] at rest ⊢
    obtain ⟨_, -, _, -, done⟩ := rest
    cases done
    exact ⟨(), by simp [bound], (), by simp [bound], rfl⟩

/-- The first binding of a run comes before every payload without one. -/
theorem validateExecutionBinding_first
    (h : validateExecutionBinding externals c goal manifestHash raw = .ok binding)
    (unbound : c.executionBinding = none) : c.hasUnboundPayload = false := by
  simp only [validateExecutionBinding, bind_eq_ok_iff, refuseWhen_eq_ok_iff] at h
  obtain ⟨read, -, owner, -, _, -, rest⟩ := h
  split at rest
  · simp only [bind_eq_ok_iff, refuseWhen_eq_ok_iff] at rest
    obtain ⟨_, -, _, -, _, -, _, first, -⟩ := rest
    simpa [unbound] using first
  · simp only [bind_eq_ok_iff, refuseWhen_eq_ok_iff] at rest
    obtain ⟨_, first, -⟩ := rest
    simpa [unbound] using first

theorem effectIsDeclared_mono {target : Json} (same : SameGoal c d)
    (h : effectIsDeclared c target object = true) : effectIsDeclared d target object = true := by
  cases name : object.str? "tool_name" with
  | none => simp [effectIsDeclared, name]
  | some toolName =>
      cases effect : object.str? "effect_class" with
      | none => simp [effectIsDeclared, name, effect]
      | some effectClass =>
          simp only [effectIsDeclared, name, effect, Bool.or_eq_true, Bool.and_eq_true] at h ⊢
          exact h.imp_left (·.imp_right fun declared => ⟨declared.1, same.internal declared.2⟩)

theorem declares_keeps {target : Json} {tool : Bool} (same : SameGoal c d)
    (h : ¬ (tool && !effectIsDeclared c target object) = true) :
    ¬ (tool && !effectIsDeclared d target object) = true := by
  have mono : effectIsDeclared c target object = true → effectIsDeclared d target object = true :=
    effectIsDeclared_mono same
  grind

/-- What was read once is read again when it is the binding of the run. -/
theorem validateGoalEventBinding_keeps (same : SameGoal c d) (bound : d.executionBinding = found)
    (h : validateGoalEventBinding externals c kind object = .ok found) :
    validateGoalEventBinding externals d kind object = .ok found := by
  unfold validateGoalEventBinding projectionExecutionCellManifestHash at h ⊢
  split
  · rename_i plain
    rwa [if_pos plain] at h
  · rename_i goalBound
    rw [if_neg goalBound] at h
    rw [same.mission]
    split at h
    · exact h
    · simp only [bind_eq_ok_iff, refuseWhen_eq_ok_iff] at h ⊢
      obtain ⟨goal, read, manifestHash, hashed, _, named, _, fields, rest⟩ := h
      refine ⟨goal, read, manifestHash, same.manifests ▸ hashed, (), named, (), fields, ?_⟩
      cases carried : object.get? "execution_binding" with
      | none =>
          simp only [carried, bind_eq_ok_iff, refuseWhen_eq_ok_iff] at rest ⊢
          obtain ⟨_, -, read, absent, _, declared, done⟩ := rest
          cases absent
          cases done
          exact ⟨(), by simp [bound], _, rfl, (), declares_keeps same declared, rfl⟩
      | some raw =>
          simp only [carried, bind_eq_ok_iff, refuseWhen_eq_ok_iff, map_eq_ok_iff] at rest ⊢
          obtain ⟨_, ⟨binding, valid, rfl⟩, _, declared, done⟩ := rest
          cases done
          exact ⟨_, ⟨binding, validateExecutionBinding_keeps same bound valid, rfl⟩, (),
            declares_keeps same declared, rfl⟩

/-- A payload that is read without a binding carries none, and comes into a run that has none
as far as its mission has a goal. -/
theorem unbound_of_read (goalBound : isGoalBoundEventKind kind = true)
    (h : validateGoalEventBinding externals c kind object = .ok none) :
    object.containsKey "execution_binding" = false ∧
      (c.mission.goalContractJson.isSome → c.executionBinding = none) := by
  simp only [validateGoalEventBinding, goalBound, Bool.not_true, Bool.false_eq_true, if_false] at h
  split at h
  · rename_i legacy
    simp only [bind_eq_ok_iff, refuseWhen_eq_ok_iff] at h
    obtain ⟨_, absent, -⟩ := h
    exact ⟨by simpa using absent, by simp [legacy]⟩
  · simp only [bind_eq_ok_iff, refuseWhen_eq_ok_iff] at h
    obtain ⟨goal, -, manifestHash, -, _, -, _, -, rest⟩ := h
    cases carried : object.get? "execution_binding" with
    | none =>
        simp only [carried, bind_eq_ok_iff, refuseWhen_eq_ok_iff] at rest
        obtain ⟨_, unbound, -⟩ := rest
        exact ⟨by simp [JsonObject.containsKey, carried], fun _ => by simpa using unbound⟩
    | some raw =>
        simp only [carried, bind_eq_ok_iff, map_eq_ok_iff] at rest
        obtain ⟨_, ⟨binding, -, rfl⟩, _, -, done⟩ := rest
        cases done

theorem first_of_read
    (h : validateGoalEventBinding externals c kind object = .ok (some binding))
    (unbound : c.executionBinding = none) : c.hasUnboundPayload = false := by
  unfold validateGoalEventBinding at h
  split at h
  · cases h
  split at h
  · simp only [bind_eq_ok_iff] at h
    obtain ⟨_, -, done⟩ := h
    cases done
  · simp only [bind_eq_ok_iff] at h
    obtain ⟨goal, -, manifestHash, -, _, -, _, -, rest⟩ := h
    cases carried : object.get? "execution_binding" with
    | none =>
        simp only [carried, bind_eq_ok_iff] at rest
        obtain ⟨_, -, read, absent, _, -, done⟩ := rest
        cases absent
        cases done
    | some raw =>
        simp only [carried, bind_eq_ok_iff, map_eq_ok_iff] at rest
        obtain ⟨_, ⟨other, valid, rfl⟩, -⟩ := rest
        exact validateExecutionBinding_first valid unbound

end Reading

/-! ### Bindings along a run -/

/-- Every retained payload of a goal-bound event reads as the binding of the run, and the
binding of a run comes from one of them. -/
structure Bound (externals : Externals) (c : LabController) : Prop where
  reads : ∀ event ∈ c.runtime.events, isGoalBoundEventKind event.kind = true →
    ∀ payload, c.payloads[event.sequence]? = some payload →
      ∃ object, payload.asObject = some object ∧
        validateGoalEventBinding externals c event.kind object = .ok c.executionBinding
  source : c.executionBinding.isSome → ∃ event ∈ c.runtime.events,
    isGoalBoundEventKind event.kind = true ∧ event.sequence ∈ c.payloads

section Moves

variable {externals : Externals} {c d : LabController} {event : LabEvent} {call : Call}
variable {payload : Json} {projectionState : Option LabRunState}

namespace Appends

section

variable (h : Appends externals c d event)
include h

section

variable (logged : WellLogged c)
include logged

theorem payload_eq {old : LabEvent}
    (mem : old ∈ c.runtime.events) : d.payloads[old.sequence]? = c.payloads[old.sequence]? :=
  h.payloads _ (logged.sequence_le mem)

theorem manifestPayloads
    (other : event.kind ≠ .executionCellManifestRecorded) :
    d.manifestPayloads = c.manifestPayloads := by
  simp only [LabController.manifestPayloads, h.events, filter_append, map_append]
  have plain : (event.kind == .executionCellManifestRecorded) = false := by simpa using other
  rw [filter_singleton, plain, cond_false, map_nil, append_nil]
  apply map_congr_left
  intro old mem
  exact h.payload_eq logged (mem_of_mem_filter mem)

theorem internal
    (registered : managedInternalEffectRegistered c = true) :
    managedInternalEffectRegistered d = true := by
  simp only [managedInternalEffectRegistered, any_eq_true] at registered ⊢
  obtain ⟨payload, mem, registers⟩ := registered
  obtain ⟨place, held⟩ := mem_valueList_iff.mp mem
  have bound : place ≤ c.runtime.events.length :=
    logged.places place (Std.ExtTreeMap.mem_iff_isSome_getElem?.mpr (by simp [held]))
  refine ⟨payload, mem_valueList_iff.mpr ⟨place, ?_⟩, registers⟩
  rw [h.payloads place bound]
  exact held

theorem sameGoal
    (other : event.kind ≠ .executionCellManifestRecorded) : SameGoal c d :=
  ⟨h.mission, h.manifestPayloads logged other, h.internal logged⟩

/-- What the log of `c` holds stays bound as long as the binding stays. -/
theorem reads_old
    (other : event.kind ≠ .executionCellManifestRecorded) (bound : Bound externals c)
    (same : d.executionBinding = c.executionBinding) {old : LabEvent}
    (mem : old ∈ c.runtime.events) (goalBound : isGoalBoundEventKind old.kind = true)
    {payload : Json} (held : d.payloads[old.sequence]? = some payload) :
    ∃ object, payload.asObject = some object ∧
      validateGoalEventBinding externals d old.kind object = .ok d.executionBinding := by
  rw [h.payload_eq logged mem] at held
  obtain ⟨object, read, valid⟩ := bound.reads old mem goalBound payload held
  rw [same]
  exact ⟨object, read, validateGoalEventBinding_keeps (h.sameGoal logged other) same valid⟩

end

end

end Appends

/-- A run without a binding that takes its first one has taken no payload without one. -/
theorem Bound.no_payload (h : Bound externals c) (unbound : c.executionBinding = none)
    (first : c.hasUnboundPayload = false) {old : LabEvent} (mem : old ∈ c.runtime.events)
    (goalBound : isGoalBoundEventKind old.kind = true) : c.payloads[old.sequence]? = none := by
  cases held : c.payloads[old.sequence]? with
  | none => rfl
  | some payload =>
      obtain ⟨object, read, valid⟩ := h.reads old mem goalBound payload held
      rw [unbound] at valid
      have absent := (unbound_of_read goalBound valid).1
      simp only [hasUnboundPayload, any_eq_false] at first
      have carries := first old mem
      simp [goalBound, held, read, absent] at carries

theorem Bound.unbound_of_legacy (h : Bound externals c)
    (legacy : c.mission.goalContractJson = none) :
    c.executionBinding = none := by
  cases binding : c.executionBinding with
  | none => rfl
  | some given =>
      obtain ⟨event, mem, goalBound, retained⟩ := h.source (by simp [binding])
      obtain ⟨payload, held⟩ := Option.isSome_iff_exists.mp
        (Std.ExtTreeMap.mem_iff_isSome_getElem?.mp retained)
      obtain ⟨object, -, valid⟩ := h.reads event mem goalBound payload held
      simp only [validateGoalEventBinding, goalBound, Bool.not_true, Bool.false_eq_true, if_false,
        legacy, bind_eq_ok_iff] at valid
      obtain ⟨_, -, done⟩ := valid
      exact binding.symm.trans (Except.ok.inj done).symm

/-- A move without a payload leaves every binding as it was. -/
theorem Bare.keepsBound (bare : Bare call c d event) (appends : Appends externals c d event)
    (logged : WellLogged c) (h : Bound externals c) : Bound externals d := by
  refine ⟨fun old mem goalBound payload held => ?_, fun given => ?_⟩
  · rw [appends.events, mem_append, mem_singleton] at mem
    obtain old | rfl := mem
    · exact appends.reads_old logged bare.manifest h bare.binding old goalBound held
    · rw [bare.payloads, appends.sequence, logged.payload_next] at held
      cases held
  · rw [bare.binding] at given
    obtain ⟨old, mem, goalBound, retained⟩ := h.source given
    refine ⟨old, ?_, goalBound, bare.payloads ▸ retained⟩
    rw [appends.events]
    exact mem_append_left _ mem

namespace Admission

section

variable (a : Admission externals c event payload projectionState)
include a

theorem reads :
    ∃ object, payload.asObject = some object ∧
      validateGoalEventBinding externals c event.kind object = .ok a.binding := by
  have bindings := a.bindings
  simp only [validateProjectionBinding, bind_eq_ok_iff, okOr_eq_ok_iff] at bindings
  obtain ⟨object, read, binding, valid, rest⟩ := bindings
  refine ⟨object, read, ?_⟩
  have same : binding = a.binding := by
    -- Whatever is checked besides, the binding of the goal is returned.
    split at rest <;>
      · simp only [bind_eq_ok_iff, pure_eq_ok_iff] at rest
        grind
  exact same ▸ valid

theorem unbound
    (plain : isGoalBoundEventKind event.kind = false) : a.binding = none := by
  obtain ⟨object, -, valid⟩ := a.reads
  simp only [validateGoalEventBinding, plain, Bool.not_false, if_true] at valid
  exact (Except.ok.inj valid).symm

/-- The manifest is the second event of its run. -/
theorem manifest
    (kind : event.kind = .executionCellManifestRecorded) :
    event.sequence = 2 ∧ event.stateEpoch = 1 := by
  have bindings := a.bindings
  simp only [validateProjectionBinding, kind, bind_eq_ok_iff, refuseWhen_eq_ok_iff] at bindings
  obtain ⟨_, -, _, -, _, place, -⟩ := bindings
  simp only [Bool.or_eq_true, bne_iff_ne, ne_eq, not_or, not_not] at place
  exact place.1

/-- After an admission the run has the binding that the payload was read with. -/
theorem binding_eq
    (goalBound : isGoalBoundEventKind event.kind = true) (h : Bound externals c) :
    a.result.executionBinding = a.binding := by
  obtain ⟨object, -, valid⟩ := a.reads
  cases binding : a.binding with
  | some given => simp [result, binding]
  | none =>
      rw [binding] at valid
      have unbound : c.executionBinding = none := by
        cases contract : c.mission.goalContractJson with
        | none => exact h.unbound_of_legacy contract
        | some text => exact (unbound_of_read goalBound valid).2 (by simp [contract])
      simp [result, binding, unbound]

/-- The manifest meets a run that has no goal-bound event yet. -/
theorem keepsBound_of_manifest
    (kind : event.kind = .executionCellManifestRecorded) (logged : WellLogged c)
    (h : Bound externals c) : Bound externals a.result := by
  have plain : isGoalBoundEventKind event.kind = false := by rw [kind]; rfl
  have short : c.runtime.events.length = 1 := by
    have place := (a.manifest kind).1
    rw [a.appends.sequence] at place
    omega
  have none_bound : ∀ old ∈ c.runtime.events, isGoalBoundEventKind old.kind = false := by
    obtain ⟨first, only⟩ := length_eq_one_iff.mp short
    have created := logged.created
    simp only [only, List.head?_cons, Option.map_some, Option.some.injEq] at created
    simp [only, created, isGoalBoundEventKind]
  refine ⟨fun old mem goalBound => ?_, fun given => ?_⟩
  · rw [a.appends.events, mem_append, mem_singleton] at mem
    obtain old | rfl := mem
    · rw [none_bound _ old] at goalBound
      cases goalBound
    · rw [plain] at goalBound
      cases goalBound
  · have given : c.executionBinding.isSome := by simpa [result, a.unbound plain] using given
    obtain ⟨old, mem, goalBound, -⟩ := h.source given
    rw [none_bound old mem] at goalBound
    cases goalBound

theorem keepsBound
    (logged : WellLogged c) (h : Bound externals c) : Bound externals a.result := by
  by_cases kind : event.kind = .executionCellManifestRecorded
  · exact a.keepsBound_of_manifest kind logged h
  have held : a.result.payloads[event.sequence]? = some payload := by simp [result]
  refine ⟨fun old mem goalBound payload' retained => ?_, fun given => ?_⟩
  · rw [a.appends.events, mem_append, mem_singleton] at mem
    obtain mem | rfl := mem
    · by_cases same : a.result.executionBinding = c.executionBinding
      · exact a.appends.reads_old logged kind h same mem goalBound retained
      · -- The binding is the first one, so nothing was bound before it.
        obtain ⟨object, -, valid⟩ := a.reads
        have first : c.executionBinding = none ∧ a.binding.isSome := by
          have agrees := a.agrees
          cases new : a.binding <;> cases given : c.executionBinding <;>
            simp_all [result]
        obtain ⟨binding, new⟩ := Option.isSome_iff_exists.mp first.2
        rw [new] at valid
        rw [a.appends.payload_eq logged mem,
          h.no_payload first.1 (first_of_read valid first.1) mem goalBound] at retained
        cases retained
    · obtain rfl : payload = payload' := Option.some.inj (held.symm.trans retained)
      obtain ⟨object, read, valid⟩ := a.reads
      have binding := a.binding_eq goalBound h
      refine ⟨object, read, ?_⟩
      rw [binding]
      exact validateGoalEventBinding_keeps (a.appends.sameGoal logged kind) binding valid
  · by_cases goalBound : isGoalBoundEventKind event.kind = true
    · refine ⟨event, ?_, goalBound, ?_⟩
      · rw [a.appends.events]
        exact mem_append_right _ (mem_singleton_self _)
      · exact Std.ExtTreeMap.mem_iff_isSome_getElem?.mpr (by simp [held])
    · have given : c.executionBinding.isSome := by
        simpa [result, a.unbound (by simpa using goalBound)] using given
      obtain ⟨old, mem, goalBound, retained⟩ := h.source given
      refine ⟨old, ?_, goalBound, ?_⟩
      · rw [a.appends.events]
        exact mem_append_left _ mem
      · rw [Std.ExtTreeMap.mem_iff_isSome_getElem?] at retained ⊢
        rw [a.appends.payload_eq logged mem]
        exact retained

end

end Admission

theorem Move.keepsBound (move : Move externals call c d) (logged : WellLogged c)
    (h : Bound externals c) : Bound externals d := by
  obtain ⟨event, appends, bare | ⟨payload, projectionState, ⟨admitted⟩⟩⟩ := move.bare_or_admitted
  · exact bare.keepsBound appends logged h
  · exact admitted.result ▸ admitted.admission.keepsBound logged h

theorem bound_new {mission : LabMissionSpec} {start : LabController}
    (created : LabController.new externals mission = .ok start) : Bound externals start := by
  obtain ⟨-, budget, -, rfl⟩ := new_ok created
  refine ⟨fun event mem goalBound payload held => ?_, nofun⟩
  simp at held

/-! ### Retained payloads -/

/-- The payloads belong to the log, and the manifest is as it was when it came in. -/
structure PayloadsValid (externals : Externals) (c : LabController) : Prop where
  payloads : c.payloads.toList.any (c.payloadIsInvalid externals) = false
  manifest : ∀ event ∈ c.runtime.events, event.kind = .executionCellManifestRecorded →
    event.sequence = 2 ∧ event.stateEpoch = 1 ∧ ∃ payload object,
      c.payloads[event.sequence]? = some payload ∧ payload.asObject = some object ∧
        validateManifestPayload externals object = .ok ()

/-- A payload that fits the log fits the longer one. -/
theorem Appends.payloadIsInvalid (appends : Appends externals c d event) (entry : Nat × Json)
    (invalid : d.payloadIsInvalid externals entry = true) :
    c.payloadIsInvalid externals entry = true := by
  simp only [LabController.payloadIsInvalid, appends.events, Bool.or_eq_true] at invalid ⊢
  refine invalid.imp_right fun fault => ?_
  cases found : c.runtime.events[entry.1 - 1]? with
  | none => rfl
  | some old =>
      have bound := (List.getElem?_eq_some_iff.mp found).1
      rw [List.getElem?_append_left bound, found] at fault
      exact fault

theorem Appends.manifest (appends : Appends externals c d event) (logged : WellLogged c)
    (h : PayloadsValid externals c) {old : LabEvent} (mem : old ∈ c.runtime.events)
    (kind : old.kind = .executionCellManifestRecorded) :
    old.sequence = 2 ∧ old.stateEpoch = 1 ∧ ∃ payload object,
      d.payloads[old.sequence]? = some payload ∧ payload.asObject = some object ∧
        validateManifestPayload externals object = .ok () := by
  rw [appends.payload_eq logged mem]
  exact h.manifest old mem kind

theorem Bare.payloadsFit (bare : Bare call c d event) (appends : Appends externals c d event)
    (h : c.payloads.toList.any (c.payloadIsInvalid externals) = false) :
    d.payloads.toList.any (d.payloadIsInvalid externals) = false := by
  rw [bare.payloads]
  exact any_eq_false_mono appends.payloadIsInvalid h

theorem Bare.payloadsValid (bare : Bare call c d event) (appends : Appends externals c d event)
    (logged : WellLogged c) (h : PayloadsValid externals c) : PayloadsValid externals d := by
  refine ⟨bare.payloadsFit appends h.payloads, fun old mem kind => ?_⟩
  rw [appends.events, mem_append, mem_singleton] at mem
  obtain mem | rfl := mem
  · exact appends.manifest logged h mem kind
  · exact absurd kind bare.manifest

theorem Admission.payloadsFit (a : Admission externals c event payload projectionState)
    (h : c.payloads.toList.any (c.payloadIsInvalid externals) = false) :
    a.result.payloads.toList.any (a.result.payloadIsInvalid externals) = false := by
  apply any_toList_insert (any_eq_false_mono a.appends.payloadIsInvalid h)
  obtain ⟨object, read, -⟩ := a.reads
  simp [payloadIsInvalid, a.appends.events, a.appends.sequence, read, a.hashed]

theorem Admission.payloadsValid (a : Admission externals c event payload projectionState)
    (logged : WellLogged c) (h : PayloadsValid externals c) :
    PayloadsValid externals a.result := by
  refine ⟨a.payloadsFit h.payloads, fun old mem kind => ?_⟩
  rw [a.appends.events, mem_append, mem_singleton] at mem
  obtain mem | rfl := mem
  · exact a.appends.manifest logged h mem kind
  · obtain ⟨second, first⟩ := a.manifest kind
    have indexed := a.indexed
    rw [kind, validateProjectionPayload] at indexed
    simp only [bind_eq_ok_iff, okOr_eq_ok_iff] at indexed
    obtain ⟨object, read, _, valid, -⟩ := indexed
    exact ⟨second, first, payload, object, by simp [Admission.result], read, valid⟩

theorem Move.payloadsValid (move : Move externals call c d) (logged : WellLogged c)
    (h : PayloadsValid externals c) : PayloadsValid externals d := by
  obtain ⟨event, appends, bare | ⟨payload, projectionState, ⟨admitted⟩⟩⟩ := move.bare_or_admitted
  · exact bare.payloadsValid appends logged h
  · exact admitted.result ▸ admitted.admission.payloadsValid logged h

theorem payloadsValid_new {mission : LabMissionSpec} {start : LabController}
    (created : LabController.new externals mission = .ok start) :
    PayloadsValid externals start := by
  obtain ⟨-, budget, -, rfl⟩ := new_ok created
  refine ⟨rfl, fun event mem kind => ?_⟩
  obtain rfl := mem_singleton.mp mem
  cases kind

/-! ### Reading a snapshot -/

theorem WellLogged.increasing (logged : WellLogged c) :
    c.runtime.events.Pairwise (·.sequence < ·.sequence) := by
  rw [pairwise_iff_getElem]
  intro i j first second before
  rw [logged.numbered i first, logged.numbered j second]
  omega

/-- The manifest passes again. -/
theorem PayloadsValid.validateManifest (h : PayloadsValid externals c) (logged : WellLogged c) :
    c.validateManifest externals = .ok () := by
  have increasing := logged.increasing.filter (·.kind == .executionCellManifestRecorded)
  have manifest : ∀ event ∈ c.runtime.events.filter (·.kind == .executionCellManifestRecorded),
      event.kind = .executionCellManifestRecorded ∧ event.sequence = 2 ∧ event.stateEpoch = 1 ∧
        ∃ payload object, c.payloads[event.sequence]? = some payload ∧
          payload.asObject = some object ∧ validateManifestPayload externals object = .ok () := by
    intro event mem
    obtain ⟨mem, kind⟩ := mem_filter.mp mem
    exact ⟨beq_iff_eq.mp kind, h.manifest event mem (beq_iff_eq.mp kind)⟩
  unfold LabController.validateManifest
  cases events : c.runtime.events.filter (·.kind == .executionCellManifestRecorded) with
  | nil => rfl
  | cons event rest =>
      rw [events] at increasing manifest
      obtain ⟨kind, second, first, payload, object, held, read, valid⟩ :=
        manifest event mem_cons_self
      cases rest with
      | cons other rest =>
          -- Two manifests would both be the second event.
          have before := (pairwise_cons.mp increasing).1 other mem_cons_self
          have again := (manifest other (mem_cons_of_mem _ mem_cons_self)).2.1
          omega
      | nil =>
          have created : c.runtime.events.head?.any (·.kind == .missionCreated) = true := by
            have created := logged.created
            cases head : c.runtime.events.head? <;> simp_all
          rw [second] at held
          simp only [length_singleton, List.head?_cons, bind_eq_ok_iff, refuseWhen_eq_ok_iff,
            okOr_eq_ok_iff, validateProjectionPayload, validateProjectionBinding,
            validateGoalEventBinding, isGoalBoundEventKind, kind, second, first, created]
          exact ⟨(), by decide, payload, held, c.index, ⟨object, read, (), valid, rfl⟩, none,
            ⟨object, read, none, rfl, (), by decide, rfl⟩, rfl⟩

/-- Every goal-bound event has its payload. -/
def Retains (c : LabController) : Prop :=
  ∀ event ∈ c.runtime.events, isGoalBoundEventKind event.kind = true → event.sequence ∈ c.payloads

theorem readSnapshotBinding_eq (h : Bound externals c) (retains : Retains c)
    (mem : event ∈ c.goalBoundEvents) {found : Option ProjectionExecutionBinding}
    (agrees : found = none ∨ found = c.executionBinding) :
    c.readSnapshotBinding externals found event = .ok (c.executionBinding) := by
  obtain ⟨mem, goalBound⟩ := mem_filter.mp mem
  obtain ⟨payload, held⟩ := Option.isSome_iff_exists.mp
    (Std.ExtTreeMap.mem_iff_isSome_getElem?.mp (retains event mem goalBound))
  obtain ⟨object, read, valid⟩ := h.reads event mem goalBound payload held
  cases binding : c.executionBinding <;> obtain rfl | rfl := agrees <;>
    simp_all [readSnapshotBinding, Except.mapError, bind_eq_ok_iff,
      map_eq_ok_iff, pure_eq_ok_iff, refuseWhen_eq_ok_iff]

theorem Bound.snapshotBinding (h : Bound externals c) (retains : Retains c) :
    c.goalBoundEvents.foldlM (c.readSnapshotBinding externals) none = .ok c.executionBinding := by
  have along : ∀ events : List LabEvent, (∀ event ∈ events, event ∈ c.goalBoundEvents) →
      events.foldlM (c.readSnapshotBinding externals) c.executionBinding =
        .ok c.executionBinding := by
    intro events
    induction events with
    | nil => exact fun _ => rfl
    | cons event rest ih =>
        intro mem
        rw [foldlM_cons, readSnapshotBinding_eq h retains (mem event mem_cons_self)
          (.inr rfl)]
        exact ih fun other later => mem other (mem_cons_of_mem _ later)
  cases events : c.goalBoundEvents with
  | cons event rest =>
      have mem : ∀ other ∈ event :: rest, other ∈ c.goalBoundEvents := fun _ mem => events ▸ mem
      rw [foldlM_cons, readSnapshotBinding_eq h retains (mem event mem_cons_self)
        (.inl rfl)]
      exact along rest fun other later => mem other (mem_cons_of_mem _ later)
  | nil =>
      cases binding : c.executionBinding with
      | none => rfl
      | some given =>
          obtain ⟨event, mem, goalBound, -⟩ := h.source (by simp [binding])
          have member : event ∈ c.goalBoundEvents := mem_filter.mpr ⟨mem, goalBound⟩
          rw [events] at member
          cases member

end Moves

end Aegis.Lab
