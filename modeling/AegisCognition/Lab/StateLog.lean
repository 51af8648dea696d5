import AegisCognition.Lab.History

/-!
# The state and its log

A logged state change stands for the state that its payload names, or else for the state
whose digest it carries. The log agrees with the mission when every state change stands for
the state that was entered when it was appended; following the log from `Planned` then gives
the state of the mission. Typed methods log what they enter. A projected state change takes
the state and the event from separate arguments, and the log agrees along a run if and only
if the two agree in every projected state change of the run.
-/

namespace Aegis.Lab

open Foundation LabController List
open Replay (Hash)

/-! ### States entered and states logged -/

def LabController.stateChanges (c : LabController) : List LabEvent :=
  c.runtime.events.filter (·.kind == .stateChanged)

/-- What the state changes of the log stand for. -/
def LabController.loggedStates (externals : Externals) (c : LabController) :
    List (Option LabRunState) :=
  c.stateChanges.map (loggedState externals c)

/-- The state that the mission is in after the state changes that `d` has and `c` has not. -/
def entry (c d : LabController) : List LabRunState :=
  ((d.runtime.events.drop c.runtime.events.length).filter (·.kind == .stateChanged)).map
    fun _ => d.runtime.state

/-- The states that a call enters. A call that moves the mission on before it records
appends its first event on the way to the prepared controller. -/
def entered (externals : Externals) (c : LabController) (call : Call) : List LabRunState :=
  if accepts externals c call then
    entry c (prepared externals c call) ++
      entry (prepared externals c call) (step externals c call)
  else []

/-- The states that the calls of a run enter, in order. -/
def enteredAlong (externals : Externals) : LabController → List Call → List LabRunState
  | _, [] => []
  | c, call :: calls =>
      entered externals c call ++ enteredAlong externals (step externals c call) calls

/-- One step of a sequence of states. -/
def followState (state next : LabRunState) : Option LabRunState :=
  if state ≠ next ∧ !state.canTransitionTo next then none else some next

/-- Every state change stands for the state that was entered when it was appended, and
following the log leads to the state of the mission by allowed steps. -/
structure StatesLogged (externals : Externals) (start : LabController) (calls : List Call) :
    Prop where
  identified : (reached externals start calls).loggedStates externals =
    (enteredAlong externals start calls).map some
  folded : (reached externals start calls).runtime.events.foldlM
    (followLoggedState externals (reached externals start calls)) .planned =
      some (reached externals start calls).runtime.state

/-- What a projected state change will stand for in the log. -/
def StateProjection.logged (externals : Externals) (projection : StateProjection) :
    Option LabRunState :=
  (projection.text.bind LabRunState.ofName).or
    (LabRunState.all.find? fun state =>
      projection.event.payloadHash == externals.canonicalHash (.state state))

/-- A projected state change stands for the state that its caller names. -/
def ProjectsFaithfully (externals : Externals) (c : LabController) (call : Call) : Prop :=
  ∀ projection, c.stateProjection externals call = some projection →
    projection.logged externals = some projection.next

/-! ### Moves -/

section Moves

variable {externals : Externals} {c d : LabController} {event : LabEvent} {call : Call}

theorem Appends.loggedStates (h : Appends externals c d event) (logged : WellLogged c) :
    d.loggedStates externals = c.loggedStates externals ++
      if event.kind = .stateChanged then [loggedState externals d event] else [] := by
  have old : ∀ earlier ∈ c.stateChanges,
      loggedState externals d earlier = loggedState externals c earlier := by
    intro earlier mem
    have place := logged.sequence_le (mem_of_mem_filter mem)
    simp only [loggedState, projectedStateText, h.payloads _ place]
  simp only [LabController.loggedStates, LabController.stateChanges, h.events,
    filter_append, map_append]
  congr 1
  · exact map_congr_left old
  · by_cases kind : event.kind = .stateChanged <;> simp [kind]

theorem Appends.entry (h : Appends externals c d event) :
    Lab.entry c d = if event.kind = .stateChanged then [d.runtime.state] else [] := by
  rw [Lab.entry, h.events, drop_left]
  by_cases kind : event.kind = .stateChanged <;> simp [kind]

theorem loggedState_of_digest {state : LabRunState}
    (injective : Function.Injective fun state => externals.canonicalHash (.state state))
    (bare : c.payloads[event.sequence]? = none)
    (digest : event.payloadHash = externals.canonicalHash (.state state)) :
    loggedState externals c event = some state := by
  have found : LabRunState.all.find? (fun other =>
      event.payloadHash == externals.canonicalHash (.state other)) = some state := by
    have same : (fun other => event.payloadHash == externals.canonicalHash (.state other)) =
        fun other => other == state := by
      funext other
      rw [digest, Bool.eq_iff_iff, beq_iff_eq, beq_iff_eq]
      exact ⟨fun h => (injective h).symm, fun h => h ▸ rfl⟩
    rw [same]
    cases state <;> rfl
  simp [loggedState, projectedStateText, bare, found]

/-- How a move changes the state, and what its event stands for. -/
inductive LogsState (externals : Externals) (call : Call) (c d : LabController)
    (event : LabEvent) : Prop
  | quiet (kind : event.kind ≠ .stateChanged) (same : d.runtime.state = c.runtime.state)
      (typed : c.stateProjection externals call = none)
  | typed (kind : event.kind = .stateChanged)
      (allowed : c.runtime.state.canTransitionTo d.runtime.state = true)
      (logged : loggedState externals d event = some d.runtime.state)
      (typed : c.stateProjection externals call = none)
  | projected (projection : StateProjection) (kind : event.kind = .stateChanged)
      (allowed : c.runtime.state = d.runtime.state ∨
        c.runtime.state.canTransitionTo d.runtime.state = true)
      (logged : loggedState externals d event = projection.logged externals)
      (next : projection.next = d.runtime.state)
      (projects : c.stateProjection externals call = some projection)

theorem Enters.stateProjection {next : LabRunState} (h : Enters call next) :
    c.stateProjection externals call = none := by
  cases h <;> rfl

theorem TypedRecord.stateProjection {r s : LabRuntime} {kind : LabEventKind}
    {payload : Canonical} (h : TypedRecord r call kind payload s) :
    c.stateProjection externals call = none := by
  cases h <;> rfl

theorem LabController.mayProject_allowed {next : LabRunState}
    (h : c.mayProject externals next = true) :
    c.runtime.state = next ∨ c.runtime.state.canTransitionTo next = true := by
  simp only [mayProject, Bool.and_eq_true, Bool.or_eq_true, beq_iff_eq] at h
  exact h.1

variable {projectionState : Option LabRunState}

theorem Admission.logsState {payload : Json} {payloadJson : String}
    (a : Admission externals c event payload projectionState)
    (parsed : externals.fromStr payloadJson = some payload) :
    LogsState externals (.admitProjectionRecord event payloadJson projectionState) c a.result
      event := by
  by_cases kind : event.kind = .stateChanged
  · obtain ⟨index, binding, runtime, -⟩ := a.eq_of_stateChanged kind
    have entered := a.entered
    simp only [kind, index, binding, runtime, Option.none_or] at entered
    have allowed : c.mayProject externals a.state = true :=
      (projectedState_stateChanged_ok_iff.mp entered).2
    refine .projected _ kind (mayProject_allowed allowed) ?_ rfl
      (a.stateProjection parsed kind)
    simp [loggedState, projectedStateText, StateProjection.logged, Admission.result, stateText]
  · have next := a.entered
    rw [projectedState, if_pos kind] at next
    refine .quiet kind ?_ (by cases projectionState <;> simp [LabController.stateProjection, kind])
    exact (Except.ok.inj next).symm.trans (syncProjectionRecordToRuntime_adds a.synced).state

theorem logsState_projectedEvent {state : LabRunState}
    {finalization : FinalizationBoundary} (logged : WellLogged c)
    (continues : c.continuesLog externals event = true)
    (next : c.projectedState externals event.kind projectionState = .ok state) :
    LogsState externals (.admitProjectionEvent event projectionState) c
      (LabController.retain { c.withState state with finalization } event) event := by
  by_cases kind : event.kind = .stateChanged
  · have projects := stateProjection_of_event kind continues next
    rw [kind] at next
    have allowed := (projectedState_stateChanged_ok_iff.mp next).2
    refine .projected _ kind (mayProject_allowed allowed) ?_ rfl projects
    have bare : c.payloads[event.sequence]? = none := by
      rw [continuesLog_sequence continues]
      exact logged.payload_next
    simp [loggedState, projectedStateText, StateProjection.logged, LabController.retain,
      withState, bare]
  · rw [projectedState, if_pos kind] at next
    refine .quiet kind (Except.ok.inj next).symm ?_
    cases projectionState <;> simp [LabController.stateProjection, kind]

section

variable (injective : Function.Injective fun state => externals.canonicalHash (.state state))
include injective

section

variable (logged : WellLogged c) (move : Move externals call c d)
include logged move

theorem Move.logsState :
    ∃ event, Appends externals c d event ∧ LogsState externals call c d event := by
  cases move with
  | entered label other allowed =>
      refine ⟨_, appends_enter, .typed rfl allowed ?_ label.stateProjection⟩
      exact loggedState_of_digest injective logged.payload_next rfl
  | recorded typed =>
      exact ⟨_, appends_record typed.adds rfl rfl,
        .quiet (by cases typed <;> exact nofun) typed.adds.state typed.stateProjection⟩
  | explored => exact ⟨_, appends_record .none rfl rfl, .quiet nofun rfl rfl⟩
  | finalizing => exact ⟨_, appends_record .none rfl rfl, .quiet nofun rfl rfl⟩
  | reopened => exact ⟨_, appends_record .none rfl rfl, .quiet nofun rfl rfl⟩
  | projectedExploration kind continues =>
      refine ⟨_, .of_continues continues rfl rfl rfl (fun _ _ => rfl) fun _ h => .inl h,
        .quiet ?_ rfl rfl⟩
      simp [kind]
  | projectedEvent plain continues next =>
      exact ⟨_, .of_continues continues rfl rfl rfl (fun _ _ => rfl) fun _ h => .inl h,
        logsState_projectedEvent logged continues next⟩
  | projectedRecord parsed admission => exact ⟨_, admission.appends, admission.logsState parsed⟩

/-- A move keeps the log in step with the states entered if and only if it is faithful. -/
theorem Move.loggedStates_iff {states : List LabRunState}
    (h : c.loggedStates externals = states.map some) :
    d.loggedStates externals = (states ++ entry c d).map some ↔
      ProjectsFaithfully externals c call := by
  obtain ⟨event, appends, logs⟩ := move.logsState injective logged
  rw [appends.loggedStates logged, appends.entry, h, map_append, append_cancel_left_eq]
  cases logs with
  | quiet kind same typed => simp [kind, ProjectsFaithfully, typed]
  | typed kind allowed stands typed => simp [kind, ProjectsFaithfully, typed, stands]
  | projected projection kind allowed stands next projects =>
      simp [kind, ProjectsFaithfully, projects, stands, next]

/-- Following the states entered by a move leads to the state after it. -/
theorem Move.entry_follows :
    (entry c d).foldlM followState c.runtime.state = some d.runtime.state := by
  obtain ⟨event, appends, logs⟩ := move.logsState injective logged
  rw [appends.entry]
  cases logs with
  | quiet kind same => simp [kind, same]
  | typed kind allowed => simp [kind, followState, allowed]
  | projected projection kind allowed =>
      obtain same | allowed := allowed
      · simp [kind, followState, same]
      · simp [kind, followState, allowed]

end

end

theorem entry_self : entry c c = [] := by
  simp [entry]

end Moves

/-! ### Runs -/

section Runs

variable {externals : Externals}

variable {c : LabController}

/-- A call that changes nothing projects no state. -/
theorem faithful_of_idle {call : Call} (idle : step externals c call = c) :
    ProjectsFaithfully externals c call := by
  intro projection projects
  obtain ⟨payload, -, reach⟩ := step_of_stateProjection projects
  have longer := congrArg (fun d : LabController => d.runtime.events.length) (idle.symm.trans reach)
  simp [projectState] at longer

/-- A controller and the states that were entered on the way to it. -/
abbrev Traced := LabController × List LabRunState

def tracedStep (externals : Externals) (traced : Traced) (call : Call) : Traced :=
  (step externals traced.1 call, traced.2 ++ entered externals traced.1 call)

theorem run_tracedStep (c : LabController) (states : List LabRunState) (calls : List Call) :
    run (tracedStep externals) (c, states) calls =
      (reached externals c calls, states ++ enteredAlong externals c calls) := by
  induction calls generalizing c states with
  | nil => simp [reached, enteredAlong]
  | cons call calls ih =>
      rw [run_cons, tracedStep, ih, enteredAlong, append_assoc]
      rfl

/-- The log is numbered, and following the states entered leads to the state of the
mission. -/
structure Follows (traced : Traced) : Prop where
  logged : WellLogged traced.1
  follows : traced.2.foldlM followState .planned = some traced.1.runtime.state

/-- The state changes stand for the states entered. -/
def Identifies (externals : Externals) (traced : Traced) : Prop :=
  traced.1.loggedStates externals = traced.2.map some

variable (injective : Function.Injective fun state => externals.canonicalHash (.state state))
include injective

variable {states : List LabRunState}

theorem Follows.move {d : LabController} {call : Call}
    (h : Follows (c, states)) (move : Move externals call c d) :
    Follows (d, states ++ entry c d) where
  logged := h.logged.of_appends move.appends.choose_spec
  follows := by
    rw [foldlM_append, h.follows]
    exact move.entry_follows injective h.logged

theorem follows_prepared {call : Call}
    (performed : Performed externals c call (step externals c call)) (h : Follows (c, states)) :
    Follows (prepared externals c call, states ++ entry c (prepared externals c call)) := by
  obtain same | move := performed.first
  · rw [same, entry_self, append_nil]
    exact h
  · exact h.move injective move

theorem follows_step (traced : Traced) (call : Call) (h : Follows traced) :
    Follows (tracedStep externals traced call) := by
  obtain ⟨refused, same⟩ | ⟨accepted, performed⟩ := step_cases externals traced.1 call
  · simpa [tracedStep, same, entered, refused] using h
  · have middle := follows_prepared injective performed h
    rw [tracedStep, entered, if_pos accepted, ← append_assoc]
    obtain same | move := performed.second
    · rw [same, entry_self, append_nil]
      exact middle
    · exact middle.move injective move

theorem identifies_move {d : LabController} {call : Call}
    (logged : WellLogged c) (h : Identifies externals (c, states))
    (faithful : ProjectsFaithfully externals c call)
    (moved : d = c ∨ Move externals call c d) : Identifies externals (d, states ++ entry c d) := by
  obtain rfl | move := moved
  · rw [entry_self, append_nil]
    exact h
  · exact (move.loggedStates_iff injective logged h).mpr faithful

/-- A call keeps the log in step with the states entered if and only if it is faithful. -/
theorem identifies_step_iff (traced : Traced) (call : Call) (follows : Follows traced)
    (h : Identifies externals traced) :
    Identifies externals (tracedStep externals traced call) ↔
      ProjectsFaithfully externals traced.1 call := by
  obtain ⟨c, states⟩ := traced
  obtain ⟨refused, same⟩ | ⟨accepted, performed⟩ := step_cases externals c call
  · have keeps : Identifies externals (tracedStep externals (c, states) call) := by
      simpa [tracedStep, same, entered, refused] using h
    exact ⟨fun _ => faithful_of_idle same, fun _ => keeps⟩
  rw [tracedStep, entered, if_pos accepted, ← append_assoc]
  obtain same | ⟨typed, -⟩ := prepared_eq_or_typed externals c call
  · have second := performed.second
    rw [same] at second ⊢
    rw [entry_self, append_nil]
    obtain idle | move := second
    · exact ⟨fun _ => faithful_of_idle idle, fun faithful =>
        identifies_move injective follows.logged h faithful (.inl idle)⟩
    · exact move.loggedStates_iff injective follows.logged h
  · -- No typed method projects a state, so both of its moves are faithful.
    have faithful : ∀ d, ProjectsFaithfully externals d call := by
      intro d projection projects
      rw [typed d] at projects
      cases projects
    refine ⟨fun _ => faithful c, fun _ => ?_⟩
    have middle := identifies_move injective follows.logged h (faithful c) performed.first
    exact identifies_move injective (follows_prepared injective performed follows).logged middle
      (faithful _) performed.second

omit injective in
/-- Following the log is following what its state changes stand for. -/
theorem foldlM_followLoggedState (c : LabController) (events : List LabEvent)
    (state : LabRunState) :
    events.foldlM (followLoggedState externals c) state =
      ((events.filter (·.kind == .stateChanged)).map (loggedState externals c)).foldlM
        (fun state next => next.bind (followState state)) state := by
  induction events generalizing state with
  | nil => rfl
  | cons event events ih =>
      by_cases kind : event.kind = .stateChanged
      · have first : followLoggedState externals c state event =
            (loggedState externals c event).bind (followState state) := by
          simp only [followLoggedState, kind, ne_eq, not_true_eq_false, if_false]
          rfl
        simp [foldlM_cons, first, kind, ih]
      · simp [foldlM_cons, followLoggedState, kind, ih]

omit injective in
theorem foldlM_bind_some (states : List LabRunState) (state : LabRunState) :
    (states.map some).foldlM (fun state next => next.bind (followState state)) state =
      states.foldlM followState state := by
  induction states generalizing state with
  | nil => rfl
  | cons next states ih => simp [foldlM_cons, ih]

omit injective in
theorem statesLogged_of_identifies {start : LabController} {calls : List Call}
    (follows : Follows (run (tracedStep externals) (start, []) calls)) :
    StatesLogged externals start calls ↔
      Identifies externals (run (tracedStep externals) (start, []) calls) := by
  rw [run_tracedStep, nil_append] at follows ⊢
  refine ⟨fun h => h.identified, fun identifies => ⟨identifies, ?_⟩⟩
  have identified : (((reached externals start calls).runtime.events.filter
      (·.kind == .stateChanged)).map (loggedState externals (reached externals start calls))) =
        (enteredAlong externals start calls).map some := identifies
  rw [foldlM_followLoggedState, identified, foldlM_bind_some]
  exact follows.follows

omit injective in
theorem follows_new {mission : LabMissionSpec} {start : LabController}
    (created : LabController.new externals mission = .ok start) :
    Follows (start, []) ∧ Identifies externals (start, []) := by
  refine ⟨⟨.of_new created, ?_⟩, ?_⟩ <;>
    obtain ⟨-, budget, -, rfl⟩ := new_ok created <;> rfl

/-- The log agrees with the mission after every prefix of a run if and only if every
projected state change of the run stands for the state that its caller names. -/
theorem statesLogged_iff {mission : LabMissionSpec} {start : LabController}
    (created : LabController.new externals mission = .ok start) (calls : List Call) :
    (∀ before after, calls = before ++ after → StatesLogged externals start before) ↔
      ∀ before call after, calls = before ++ call :: after →
        ProjectsFaithfully externals (reached externals start before) call := by
  obtain ⟨follows, identifies⟩ := follows_new created
  have always : ∀ before, Follows (run (tracedStep externals) (start, []) before) :=
    fun before => run_invariant (follows_step injective) before follows
  have along : (∀ before after, calls = before ++ after →
        Identifies externals (run (tracedStep externals) (start, []) before)) ↔
      ∀ before call after, calls = before ++ call :: after →
        ProjectsFaithfully externals (run (tracedStep externals) (start, []) before).1 call :=
    (run_prefixes_iff_along (follows_step injective) (identifies_step_iff injective) follows
      identifies).trans along_iff_at_step
  simp only [fun before => statesLogged_of_identifies (always before)]
  rw [along]
  simp only [run_tracedStep]

omit injective in
/-- The typed calls of a legacy mission log what they enter. -/
theorem legacyCalls_states_logged :
    Function.Injective (fun state => legacyExternals.canonicalHash (.state state)) ∧
    ∃ start, LabController.new legacyExternals legacyMission = .ok start ∧
      ∀ before after, legacyCalls = before ++ after →
        StatesLogged legacyExternals start before := by
  obtain ⟨start, created⟩ := legacyMission_starts
  refine ⟨stateDigest_injective, start, created, ?_⟩
  apply (statesLogged_iff stateDigest_injective created legacyCalls).mpr
  intro before call after split projection projects
  have mem : call ∈ legacyCalls := by simp [split]
  simp only [legacyCalls, mem_cons, not_mem_nil, or_false] at mem
  obtain rfl | rfl := mem <;> cases projects

/-- An event whose payload digest is that of no state. -/
def foreignEvent : LabEvent where
  sequence := 2
  stateEpoch := 1
  kind := .stateChanged
  payloadHash := .fill 6
  previousEventHash := .ofNat 0x2f881500be97336f3d1ce983048f13aba41b122db6e1c919483fa7e272b8f9f1
  eventHash := .ofNat 0xbb7428a889d682c712c5ace3a508bf02f030d8905591dc4eed950114a8ec0489

omit injective in
/-- The bridge takes such an event as a change to any state that the caller names. -/
theorem foreignEvent_not_logged :
    Function.Injective (fun state => legacyExternals.canonicalHash (.state state)) ∧
    ¬ ∀ mission start calls, LabController.new legacyExternals mission = .ok start →
      StatesLogged legacyExternals start calls := by
  refine ⟨stateDigest_injective, fun always => ?_⟩
  have logged := (always legacyMission _
    [.admitProjectionEvent foreignEvent (some .researching)] rfl).identified
  revert logged
  decide +kernel

end Runs

end Aegis.Lab
