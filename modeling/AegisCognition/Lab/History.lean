import AegisCognition.Lab.StateChange

/-!
# The log

Every move appends one event that continues the chain, and leaves the retained payloads of
earlier events alone. So in every reachable controller the events are numbered from one,
and payloads are only retained for events of the log.
-/

namespace Aegis.Lab

open Foundation LabController LabRuntime
open Replay (Hash)

/-- The log of `d` is the log of `c` and one more event that continues it. -/
structure Appends (externals : Externals) (c d : LabController) (event : LabEvent) : Prop where
  mission : d.mission = c.mission
  events : d.runtime.events = c.runtime.events ++ [event]
  epoch : d.runtime.stateEpoch = event.stateEpoch
  sequence : event.sequence = c.runtime.events.length + 1
  previous : event.previousEventHash = lastEventHash c.runtime.events
  later : c.runtime.stateEpoch ≤ event.stateEpoch
  sealed : event.eventHash = externals.canonicalHash (.event event.toEventWithoutHash)
  payloads : ∀ place ≤ c.runtime.events.length, d.payloads[place]? = c.payloads[place]?
  places : ∀ place ∈ d.payloads, place ∈ c.payloads ∨ place = event.sequence

variable {externals : Externals} {c d : LabController} {event : LabEvent} {call : Call}

theorem Appends.of_continues (continues : c.continuesLog externals event = true)
    (mission : d.mission = c.mission) (events : d.runtime.events = c.runtime.events ++ [event])
    (epoch : d.runtime.stateEpoch = event.stateEpoch)
    (payloads : ∀ place ≤ c.runtime.events.length, d.payloads[place]? = c.payloads[place]?)
    (places : ∀ place ∈ d.payloads, place ∈ c.payloads ∨ place = event.sequence) :
    Appends externals c d event := by
  simp only [continuesLog, LabEvent.isValid, Bool.and_eq_true, beq_iff_eq,
    decide_eq_true_eq] at continues
  obtain ⟨⟨⟨sequence, previous⟩, later⟩, -, sealed⟩ := continues
  exact ⟨mission, events, epoch, sequence, previous, later, sealed, payloads, places⟩

theorem Appends.event_eq {other : LabEvent} (h : Appends externals c d event)
    (h' : Appends externals c d other) : event = other := by
  have same := h.events.symm.trans h'.events
  simpa using same

/-- The end of a typed method appends its event. -/
theorem appends_record {kind : LabEventKind} {payload : Canonical} {runtime : LabRuntime}
    (adds : AddsRecord c.runtime runtime) (same : d.payloads = c.payloads)
    (recorded : d.runtime = LabRuntime.record externals kind payload runtime) :
    Appends externals c d
      (.new externals (c.runtime.events.length + 1) (epochSucc c.runtime.stateEpoch) kind
        (externals.canonicalHash payload) (lastEventHash c.runtime.events)) where
  mission := by
    simp only [LabController.mission, recorded, LabRuntime.record, appendEvent]
    exact adds.mission
  events := by
    simp [recorded, LabRuntime.record, appendEvent, adds.events, adds.stateEpoch]
  epoch := by
    simp [recorded, LabRuntime.record, appendEvent, adds.stateEpoch, LabEvent.new]
  sequence := rfl
  previous := rfl
  later := le_epochSucc _
  sealed := rfl
  payloads _ _ := by rw [same]
  places _ h := .inl (same ▸ h)

theorem appends_enter {next : LabRunState} :
    Appends externals c { c with runtime := LabRuntime.enter externals next c.runtime }
      (.new externals (c.runtime.events.length + 1) (epochSucc c.runtime.stateEpoch) .stateChanged
        (externals.canonicalHash (.state next)) (lastEventHash c.runtime.events)) where
  mission := rfl
  events := rfl
  epoch := rfl
  sequence := rfl
  previous := rfl
  later := le_epochSucc _
  sealed := rfl
  payloads _ _ := rfl
  places _ h := .inl h

theorem Admission.appends {payload : Json} {projectionState : Option LabRunState}
    (a : Admission externals c event payload projectionState) :
    Appends externals c a.result event := by
  have adds := syncProjectionRecordToRuntime_adds a.synced
  refine .of_continues a.continues adds.mission ?_ rfl ?_ ?_
  · simp [Admission.result, adds.events]
  · intro place bound
    have other : event.sequence ≠ place := by
      have := continuesLog_sequence a.continues
      omega
    simp [Admission.result, Std.ExtTreeMap.getElem?_insert, other]
  · intro place held
    simp only [Admission.result, Std.ExtTreeMap.mem_insert, compare_eq_iff_eq] at held
    exact held.symm.imp id Eq.symm

theorem Move.appends (move : Move externals call c d) : ∃ event, Appends externals c d event := by
  cases move with
  | entered => exact ⟨_, appends_enter⟩
  | recorded typed => exact ⟨_, appends_record typed.adds rfl rfl⟩
  | explored => exact ⟨_, appends_record .none rfl rfl⟩
  | finalizing => exact ⟨_, appends_record .none rfl rfl⟩
  | reopened => exact ⟨_, appends_record .none rfl rfl⟩
  | projectedExploration kind continues =>
      exact ⟨_, .of_continues continues rfl rfl rfl (fun _ _ => rfl) fun _ h => .inl h⟩
  | projectedEvent plain continues =>
      exact ⟨_, .of_continues continues rfl rfl rfl (fun _ _ => rfl) fun _ h => .inl h⟩
  | projectedRecord parsed admission => exact ⟨_, admission.appends⟩

/-! ### Numbered logs -/

/-- The events are numbered from one, the first one created the mission, and payloads are
only retained for events of the log. -/
structure WellLogged (c : LabController) : Prop where
  numbered : ∀ (i : Nat) (h : i < c.runtime.events.length), c.runtime.events[i].sequence = i + 1
  created : c.runtime.events.head?.map (·.kind) = some .missionCreated
  places : ∀ place ∈ c.payloads, place ≤ c.runtime.events.length

namespace WellLogged

theorem of_new {mission : LabMissionSpec} {start : LabController}
    (created : LabController.new externals mission = .ok start) : WellLogged start := by
  obtain ⟨-, budget, -, rfl⟩ := new_ok created
  refine ⟨?_, rfl, ?_⟩
  · intro i h
    obtain rfl : i = 0 := by simpa [appendEvent] using h
    rfl
  · intro place held
    exact absurd held Std.ExtTreeMap.not_mem_empty

theorem of_appends (h : WellLogged c) (appends : Appends externals c d event) : WellLogged d := by
  refine ⟨?_, ?_, ?_⟩
  · intro i bound
    simp only [appends.events, List.length_append, List.length_singleton] at bound
    simp only [appends.events]
    rcases Nat.lt_succ_iff_lt_or_eq.mp bound with old | rfl
    · rw [List.getElem_append_left old]
      exact h.numbered i old
    · simp [appends.sequence]
  · have created := h.created
    rw [appends.events]
    cases events : c.runtime.events with
    | nil => simp [events] at created
    | cons first rest => simpa [events] using created
  · intro place held
    rw [appends.events, List.length_append, List.length_singleton]
    obtain old | rfl := appends.places place held
    · exact Nat.le_succ_of_le (h.places place old)
    · exact appends.sequence.le

theorem reached (h : WellLogged c) {calls : List Call} :
    WellLogged (Lab.reached externals c calls) :=
  reached_keeps (fun _ _ _ move inv => inv.of_appends move.appends.choose_spec) h

theorem sequence_le (h : WellLogged c) (mem : event ∈ c.runtime.events) :
    event.sequence ≤ c.runtime.events.length := by
  obtain ⟨i, bound, rfl⟩ := List.mem_iff_getElem.mp mem
  rw [h.numbered i bound]
  exact bound

theorem payload_next (h : WellLogged c) : c.payloads[c.runtime.events.length + 1]? = none := by
  rw [getElem?_eq_none_iff]
  intro held
  have := h.places _ held
  omega

end WellLogged

end Aegis.Lab
