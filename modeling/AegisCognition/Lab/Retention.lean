import AegisCognition.Lab.History

/-!
# What a controller retains

A record that was valid when it came in stays valid: tables only grow, and a record in a
table is never replaced. The chain of events, the budget and the two bounds on a mission
are kept in the same way, whatever calls are made.
-/

namespace Aegis.Lab

open Foundation LabController ObservationRecord OrderedMap BudgetLedger List
open Replay (Hash)

/-! ### Typed records -/

section Records

/-- Every entry of the one table is an entry of the other. -/
def TableGrows {V : Type} (before after : Table V) : Prop :=
  ∀ (id : String) (v : V), before[id]? = some v → after[id]? = some v

namespace TableGrows

variable {V : Type} {before after : Table V} {id : String} {v : V}

theorem refl : TableGrows before before := fun _ _ h => h

theorem insert (fresh : id ∉ before) : TableGrows before (before.insert id v) := by
  intro other w held
  have different : id ≠ other := by
    rintro rfl
    rw [Std.ExtTreeMap.getElem?_eq_none fresh] at held
    cases held
  rw [getElem?_insert_of_ne different]
  exact held

theorem contains (h : TableGrows before after) (held : before.contains id = true) :
    after.contains id = true := by
  rw [Std.ExtTreeMap.contains_eq_isSome_getElem?] at held ⊢
  obtain ⟨v, found⟩ := Option.isSome_iff_exists.mp held
  rw [h id v found]
  rfl

end TableGrows

variable {sources sources' : Table SourceRecord} {claims claims' : Table ClaimRecord}
variable {hypotheses hypotheses' : Table HypothesisRecord}
variable {experiments experiments' : Table ExperimentSpec}
variable {observations observations' : Table ObservationRecord}

theorem ClaimRecord.validate_mono {claim : ClaimRecord} (grows : TableGrows sources sources')
    (h : claim.validate sources = .ok ()) : claim.validate sources' = .ok () := by
  simp only [validate, refuseWhen_eq_ok_iff, Bool.not_eq_true, Bool.or_eq_false_iff,
    any_eq_false, Bool.not_eq_false'] at h ⊢
  exact ⟨h.1, fun id mem => grows.contains (h.2 id mem)⟩

theorem HypothesisRecord.validate_mono {hypothesis : HypothesisRecord}
    (grows : TableGrows claims claims') (h : hypothesis.validate claims = .ok ()) :
    hypothesis.validate claims' = .ok () := by
  simp only [validate, refuseWhen_eq_ok_iff, Bool.not_eq_true, Bool.or_eq_false_iff,
    any_eq_false, Bool.not_eq_false'] at h ⊢
  exact ⟨h.1, fun id mem => grows.contains (h.2 id mem)⟩

theorem ExperimentSpec.validate_mono {experiment : ExperimentSpec}
    (grows : TableGrows hypotheses hypotheses') (h : experiment.validate hypotheses = .ok ()) :
    experiment.validate hypotheses' = .ok () := by
  simp only [validate, refuseWhen_eq_ok_iff, Bool.not_eq_true, Bool.or_eq_false_iff,
    Bool.not_eq_false'] at h ⊢
  exact ⟨h.1, grows.contains h.2⟩

theorem ObservationRecord.validate_mono {observation : ObservationRecord}
    (grows : TableGrows experiments experiments')
    (retains : TableGrows observations observations')
    (h : observation.validate experiments observations = .ok ()) :
    observation.validate experiments' observations' = .ok () := by
  simp only [validate, bind_eq_ok_iff, okOr_eq_ok_iff] at h ⊢
  obtain ⟨experiment, found, _, sound, parent⟩ := h
  refine ⟨experiment, grows _ _ found, (), sound, ?_⟩
  cases replicates : observation.replicationOf with
  | none => rfl
  | some parentId =>
      simp only [replicates, bind_eq_ok_iff, okOr_eq_ok_iff] at parent ⊢
      obtain ⟨parent, found, same⟩ := parent
      exact ⟨parent, retains _ _ found, same⟩

/-- Every typed record passes its own check against the tables it is in. -/
structure RecordsValid (r : LabRuntime) : Prop where
  sources : ∀ source ∈ valueList r.sources, source.validate = .ok ()
  claims : ∀ claim ∈ valueList r.claims, claim.validate r.sources = .ok ()
  hypotheses : ∀ hypothesis ∈ valueList r.hypotheses,
    hypothesis.validate r.claims = .ok ()
  experiments : ∀ experiment ∈ valueList r.experiments,
    experiment.validate r.hypotheses = .ok ()
  observations : ∀ observation ∈ valueList r.observations,
    observation.validate r.experiments r.observations = .ok ()

/-- A valid record joins the valid ones. -/
theorem valid_insert {V : Type} {table : Table V} {id : String} {v : V} {p : V → Prop}
    (h : ∀ w ∈ valueList table, p w) (new : p v) :
    ∀ w ∈ valueList (table.insert id v), p w := by
  intro w mem
  obtain ⟨key, found⟩ := mem_valueList_iff.mp mem
  obtain ⟨-, rfl⟩ | ⟨-, old⟩ := getElem?_insert_eq_some_iff.mp found
  · exact new
  · exact h w (mem_valueList_iff.mpr ⟨key, old⟩)

theorem AddsRecord.recordsValid {r s : LabRuntime} (adds : AddsRecord r s) (h : RecordsValid r) :
    RecordsValid s := by
  cases adds with
  | none => exact h
  | source valid fresh =>
      exact { h with
        sources := valid_insert h.sources valid
        claims := fun claim mem =>
          ClaimRecord.validate_mono (.insert fresh) (h.claims claim mem) }
  | claim valid fresh =>
      exact { h with
        claims := valid_insert h.claims valid
        hypotheses := fun hypothesis mem =>
          HypothesisRecord.validate_mono (.insert fresh) (h.hypotheses hypothesis mem) }
  | hypothesis valid fresh =>
      exact { h with
        hypotheses := valid_insert h.hypotheses valid
        experiments := fun experiment mem =>
          ExperimentSpec.validate_mono (.insert fresh) (h.experiments experiment mem) }
  | experiment valid fresh =>
      exact { h with
        experiments := valid_insert h.experiments valid
        observations := fun observation mem =>
          validate_mono (.insert fresh) .refl (h.observations observation mem) }
  | observation valid fresh =>
      exact { h with
        observations := valid_insert
          (fun observation mem => validate_mono .refl (.insert fresh)
            (h.observations observation mem))
          (validate_mono .refl (.insert fresh) valid) }

/-- The tables of the two reducers are the same. -/
structure SameRecords (r s : LabRuntime) : Prop where
  sources : s.sources = r.sources
  claims : s.claims = r.claims
  hypotheses : s.hypotheses = r.hypotheses
  experiments : s.experiments = r.experiments
  observations : s.observations = r.observations

theorem SameRecords.recordsValid {r s : LabRuntime} (same : SameRecords r s)
    (h : RecordsValid r) : RecordsValid s := by
  obtain ⟨sources, claims, hypotheses, experiments, observations⟩ := same
  constructor
  · rw [sources]
    exact h.sources
  · rw [sources, claims]
    exact h.claims
  · rw [claims, hypotheses]
    exact h.hypotheses
  · rw [hypotheses, experiments]
    exact h.experiments
  · rw [experiments, observations]
    exact h.observations

end Records

/-! ### Moves with and without a payload -/

section Moves

variable {externals : Externals} {c d : LabController} {event : LabEvent} {call : Call}

/-- The event comes without a payload, and the index and the binding are left alone. Such an
event is bound to the goal only if it records a research program or if it is a review. -/
structure Bare (call : Call) (c d : LabController) (event : LabEvent) : Prop where
  payloads : d.payloads = c.payloads
  index : d.index = c.index
  binding : d.executionBinding = c.executionBinding
  external : isExternalAdmissionKind event.kind = false
  manifest : event.kind ≠ .executionCellManifestRecorded
  bound : isGoalBoundEventKind event.kind = true →
    (∃ receipt, call = .recordResearchProgram receipt) ∨
      ∃ projectionState, call = .admitProjectionEvent event projectionState ∧
        event.kind = .reviewRecorded

/-- The event comes with a payload that the call brings. -/
structure Admitted (externals : Externals) (call : Call) (c d : LabController) (event : LabEvent)
    (payload : Json) (projectionState : Option LabRunState) : Type where
  payloadJson : String
  call_eq : call = .admitProjectionRecord event payloadJson projectionState
  parsed : externals.fromStr payloadJson = some payload
  admission : Admission externals c event payload projectionState
  result : d = admission.result

theorem needsPayload_of_bound {kind : LabEventKind} (bound : isGoalBoundEventKind kind = true)
    (plain : needsPayload kind = false) : kind = .reviewRecorded := by
  cases kind <;> simp_all [isGoalBoundEventKind, needsPayload]

theorem external_of_plain {kind : LabEventKind}
    (plain : needsPayload kind = false) : isExternalAdmissionKind kind = false := by
  cases kind <;> first | rfl | cases plain

theorem TypedRecord.bare {r s : LabRuntime} {kind : LabEventKind} {payload : Canonical}
    (h : TypedRecord r call kind payload s) :
    isExternalAdmissionKind kind = false ∧ kind ≠ .executionCellManifestRecorded ∧
      (isGoalBoundEventKind kind = true → ∃ receipt, call = .recordResearchProgram receipt) := by
  cases h with
  | researchProgram => exact ⟨rfl, nofun, fun _ => ⟨_, rfl⟩⟩
  | _ => exact ⟨rfl, nofun, nofun⟩

theorem Move.bare_or_admitted (move : Move externals call c d) :
    ∃ event, Appends externals c d event ∧
      (Bare call c d event ∨
        ∃ payload projectionState,
          Nonempty (Admitted externals call c d event payload projectionState)) := by
  cases move with
  | entered => exact ⟨_, appends_enter, .inl ⟨rfl, rfl, rfl, rfl, nofun, nofun⟩⟩
  | recorded typed =>
      obtain ⟨external, manifest, bound⟩ := typed.bare
      exact ⟨_, appends_record typed.adds rfl rfl,
        .inl ⟨rfl, rfl, rfl, external, manifest, fun h => .inl (bound h)⟩⟩
  | explored =>
      exact ⟨_, appends_record .none rfl rfl, .inl ⟨rfl, rfl, rfl, rfl, nofun, nofun⟩⟩
  | finalizing =>
      exact ⟨_, appends_record .none rfl rfl, .inl ⟨rfl, rfl, rfl, rfl, nofun, nofun⟩⟩
  | reopened =>
      exact ⟨_, appends_record .none rfl rfl, .inl ⟨rfl, rfl, rfl, rfl, nofun, nofun⟩⟩
  | projectedExploration kind continues =>
      refine ⟨_, .of_continues continues rfl rfl rfl (fun _ _ => rfl) fun _ h => .inl h,
        .inl ⟨rfl, rfl, rfl, ?_, ?_, ?_⟩⟩ <;>
        simp [kind, isExternalAdmissionKind, isGoalBoundEventKind]
  | projectedEvent plain continues =>
      refine ⟨_, .of_continues continues rfl rfl rfl (fun _ _ => rfl) fun _ h => .inl h,
        .inl ⟨rfl, rfl, rfl, external_of_plain plain, ?_, fun bound => .inr
          ⟨_, rfl, needsPayload_of_bound bound plain⟩⟩⟩
      intro manifest
      rw [manifest] at plain
      cases plain
  | projectedRecord parsed admission =>
      exact ⟨_, admission.appends, .inr ⟨_, _, ⟨_, rfl, parsed, admission, rfl⟩⟩⟩

theorem Move.records (move : Move externals call c d) :
    ∃ r, AddsRecord c.runtime r ∧ SameRecords r d.runtime := by
  cases move with
  | recorded typed => exact ⟨_, typed.adds, rfl, rfl, rfl, rfl, rfl⟩
  | projectedRecord parsed admission =>
      exact ⟨_, syncProjectionRecordToRuntime_adds admission.synced, rfl, rfl, rfl, rfl, rfl⟩
  | _ => exact ⟨_, .none, rfl, rfl, rfl, rfl, rfl⟩

theorem Move.recordsValid (move : Move externals call c d) (h : RecordsValid c.runtime) :
    RecordsValid d.runtime := by
  obtain ⟨r, adds, same⟩ := move.records
  exact same.recordsValid (adds.recordsValid h)

end Moves

/-! ### The chain of events -/

section Chain

variable {externals : Externals} {c d : LabController} {event : LabEvent}

/-- The log is a valid chain that starts with the mission and ends at the epoch. -/
structure ChainValid (externals : Externals) (c : LabController) : Prop where
  chain : c.runtime.events.foldlM (ChainEnd.follow externals) .start =
    some ⟨c.runtime.events.length, lastEventHash c.runtime.events, c.runtime.stateEpoch⟩
  first : ∃ event rest, c.runtime.events = event :: rest ∧ event.kind = .missionCreated ∧
    event.payloadHash = externals.canonicalHash (.mission c.mission)
  epoch : (c.runtime.events.getLast?.map (·.stateEpoch)).getD 0 = c.runtime.stateEpoch

theorem Appends.chainValid (appends : Appends externals c d event)
    (nonzero : ∀ event, externals.canonicalHash (.event event) ≠ Hash.zero)
    (h : ChainValid externals c) : ChainValid externals d where
  chain := by
    have valid : event.isValid externals = true := by
      simp only [LabEvent.isValid, appends.sealed, Bool.and_eq_true, bne_iff_ne, ne_eq,
        beq_self_eq_true, and_true]
      exact nonzero _
    rw [appends.events, foldlM_append, h.chain]
    simp [ChainEnd.follow, appends.sequence, appends.previous, appends.later, valid,
      appends.epoch, lastEventHash]
  first := by
    obtain ⟨first, rest, events, kind, hash⟩ := h.first
    exact ⟨first, rest ++ [event], by simp [appends.events, events], kind,
      by rw [hash, appends.mission]⟩
  epoch := by simp [appends.events, appends.epoch]

theorem chainValid_new {mission : LabMissionSpec} {start : LabController}
    (created : LabController.new externals mission = .ok start)
    (nonzero : ∀ event, externals.canonicalHash (.event event) ≠ Hash.zero) :
    ChainValid externals start := by
  obtain ⟨-, budget, -, rfl⟩ := new_ok created
  refine ⟨?_, ⟨_, [], rfl, rfl, rfl⟩, rfl⟩
  simp [LabRuntime.appendEvent, ChainEnd.follow, ChainEnd.start, LabEvent.new, LabEvent.isValid,
    lastEventHash, nonzero]

end Chain

/-! ### The budget and the bounds of a mission -/

section Budget

variable {externals : Externals} {c d : LabController} {event : LabEvent} {call : Call}

/-- The steps and the external attempts are within their bounds, and the budget adds up. -/
structure Funded (c : LabController) : Prop where
  steps : c.steps ≤ c.mission.maxSteps
  attempts : c.externalAttemptBudgetValid = true
  conserves : c.budget.Conserves
  total : c.budget.total = c.mission.budgetPolicy.total

theorem Appends.attempts (appends : Appends externals c d event)
    (allows : isExternalAdmissionKind event.kind = true →
      c.externalAttemptBudgetAllows event.kind = true)
    (h : c.externalAttemptBudgetValid = true) : d.externalAttemptBudgetValid = true := by
  unfold externalAttemptBudgetValid at h ⊢
  rw [appends.mission]
  cases bound : c.mission.maxExternalAttempts with
  | none => rfl
  | some bound' =>
      rw [bound] at h
      have before : c.externalAttempts ≤ bound' := of_decide_eq_true h
      simp only [Option.all_some, decide_eq_true_eq, externalAttempts,
        appends.events, countP_append, countP_singleton]
      split
      · rename_i external
        have room := allows external
        simp only [externalAttemptBudgetAllows, bound, Option.all_some, external,
          Bool.not_true, Bool.false_or] at room
        exact of_decide_eq_true room
      · exact before

theorem steps_le {c : LabController} (explores : c.explores = true) :
    saturatingAdd u32Max c.steps 1 ≤ c.mission.maxSteps := by
  simp only [LabController.explores, Bool.and_eq_true, decide_eq_true_eq] at explores
  have below := explores.1.1.1
  unfold saturatingAdd
  omega

theorem Move.steps (move : Move externals call c d) (h : c.steps ≤ c.mission.maxSteps) :
    d.steps ≤ d.mission.maxSteps := by
  rw [move.appends.choose_spec.mission]
  cases move with
  | explored explores => exact steps_le explores
  | projectedExploration kind continues explores => exact steps_le explores
  | _ => exact h

theorem Move.attempts (move : Move externals call c d)
    (h : c.externalAttemptBudgetValid = true) : d.externalAttemptBudgetValid = true := by
  obtain ⟨event, appends, kind⟩ := move.bare_or_admitted
  apply appends.attempts _ h
  intro external
  obtain bare | ⟨payload, projectionState, ⟨admitted⟩⟩ := kind
  · rw [bare.external] at external
    cases external
  · exact admitted.admission.budgetAllows

theorem Move.funded (move : Move externals call c d) (h : Funded c) : Funded d := by
  have steps := move.steps h.steps
  have attempts := move.attempts h.attempts
  have mission := move.appends.choose_spec.mission
  cases move with
  | recorded typed => exact ⟨steps, attempts, h.conserves, mission ▸ h.total⟩
  | explored explores consumed =>
      obtain ⟨conserves, total⟩ := consumeExploration_conserves consumed h.conserves
      exact ⟨steps, attempts, conserves, total.trans h.total⟩
  | projectedExploration kind continues explores consumed =>
      obtain ⟨conserves, total⟩ := consumeExploration_conserves consumed h.conserves
      exact ⟨steps, attempts, conserves, total.trans h.total⟩
  | projectedRecord parsed admission =>
      exact ⟨steps, attempts, h.conserves, mission ▸ h.total⟩
  | _ => exact ⟨steps, attempts, h.conserves, h.total⟩

theorem funded_new {mission : LabMissionSpec} {start : LabController}
    (created : LabController.new externals mission = .ok start) : Funded start := by
  obtain ⟨-, budget, funded, rfl⟩ := new_ok created
  obtain ⟨conserves, total⟩ := new_conserves funded
  refine ⟨Nat.zero_le _, ?_, conserves, total⟩
  change (mission.maxExternalAttempts.all fun bound => decide (0 ≤ bound)) = true
  cases mission.maxExternalAttempts <;> simp

end Budget

end Aegis.Lab
