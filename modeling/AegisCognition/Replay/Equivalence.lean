import AegisCognition.Replay.Transition

/-!
# Replay against the live ledger

Replaying the events of a live ledger gives that ledger back. In the other direction, a
history that replay accepts was acceptable live, step by step, exactly when every browser
observation in it follows a goal intake: replay does not ask for one there.
-/

namespace Aegis.Replay

open Foundation Hash RunEventLedger Cursor

variable {blake3 : Hasher} {runId : RunId} {event : RunEvent} {events before : List RunEvent}

/-- The two tables of prerequisites side by side. They differ on browser observations. -/
theorem RunEventKind.prerequisites_iff {kind : RunEventKind} {requires : Prerequisites}
    (produced : kind.prerequisites = some requires) :
    (requires.goalIntake ↔ kind.requiresGoalIntake ∨ kind = .browserObservationPacketRecorded) ∧
    (requires.contextPack ↔ kind.requiresContextPack) ∧
    (requires.llmResponse ↔ kind.requiresLlmResponse) ∧
    (requires.toolCall ↔ kind = .toolCallCompleted) ∧
    (requires.policyDecision ↔ kind.requiresPolicyDecision) := by
  cases kind <;> cases produced <;> decide

namespace RunEventLedger

variable {ledger : RunEventLedger} {requires : Prerequisites}

section

variable (replayed : fromEvents blake3 runId events = .ok ledger)
include replayed

theorem runId_of_fromEvents :
    ledger.runId = runId := by
  obtain ⟨-, rfl⟩ := fromEvents_ok_iff.mp replayed
  rfl

theorem events_of_fromEvents :
    ledger.events = events := by
  obtain ⟨-, rfl⟩ := fromEvents_ok_iff.mp replayed
  rfl

theorem cursor_of_fromEvents :
    run Cursor.advance {} events = ledger.cursor := by
  obtain ⟨-, rfl⟩ := fromEvents_ok_iff.mp replayed
  have flags : (run ReplayLocals.advance {} events).cursor = run Cursor.advance {} events :=
    run_project ReplayLocals.cursor_advance
  have index := congrArg Cursor.index flags
  have previous := congrArg previousEventHash flags
  rw [run_index] at index
  rw [run_previousEventHash] at previous
  rw [← flags]
  simp only [cursor, ReplayLocals.cursor, lastHash, Cursor.mk.injEq, true_and] at index previous ⊢
  exact ⟨by simpa using index, previous⟩

end

/-- An accepted append meets the rules of replay. -/
theorem Accepts.replays (produced : event.kind.prerequisites = some requires)
    (h : ledger.Accepts blake3 requires event) :
    ledger.cursor.Replays blake3 ledger.runId event := by
  obtain ⟨goal, pack, llm, call, policy⟩ := RunEventKind.prerequisites_iff produced
  refine ⟨⟨h.wellFormed, h.run, h.position, h.chained, ?_⟩, h.run ▸ h.named, h.numbered,
    h.oneGoalIntake⟩
  exact
    { goalIntake := fun required => h.goalIntake (goal.mpr (.inl required))
      contextPack := fun required => h.contextPack (pack.mpr required)
      llmResponse := fun required => h.llmResponse (llm.mpr required)
      policyDecision := fun required => h.policyDecision (policy.mpr required)
      request := h.request
      completion := fun kind => ⟨h.completion kind, h.toolCall (call.mpr kind)⟩
      memoryCommit := h.memoryCommit }

/-- What replay accepts next, an append accepts too once browser observations have their
goal intake. -/
theorem accepts_iff_of_replays (produced : event.kind.prerequisites = some requires)
    (h : ledger.cursor.Replays blake3 ledger.runId event) :
    ledger.Accepts blake3 requires event ↔
      (event.kind = .browserObservationPacketRecorded → ledger.hasGoalIntakeRecorded) := by
  obtain ⟨goal, pack, llm, call, policy⟩ := RunEventKind.prerequisites_iff produced
  constructor
  · exact fun accepted kind => accepted.goalIntake (goal.mpr (.inr kind))
  · intro browser
    exact
      { wellFormed := h.wellFormed
        named := h.run ▸ h.namedRun
        numbered := h.numbered
        run := h.run
        position := h.position
        chained := h.chained
        goalIntake := fun required => (goal.mp required).elim h.allowed.goalIntake browser
        contextPack := fun required => h.allowed.contextPack (pack.mp required)
        llmResponse := fun required => h.allowed.llmResponse (llm.mp required)
        toolCall := fun required => (h.allowed.completion (call.mp required)).pending
        policyDecision := fun required => h.allowed.policyDecision (policy.mp required)
        completion := fun kind => (h.allowed.completion kind).toCompletionBound
        memoryCommit := h.allowed.memoryCommit
        oneGoalIntake := h.oneGoalIntake
        request := h.allowed.request }

/-- Replay reads an event at the end of a replayed ledger as the transition it shares with
the appends. -/
theorem fromEvents_append_iff (replayed : fromEvents blake3 runId events = .ok ledger) :
    fromEvents blake3 runId (events ++ [event]) = .ok (ledger.extend event) ↔
      ledger.cursor.Replays blake3 runId event := by
  have cursor := cursor_of_fromEvents replayed
  obtain ⟨accepted, rfl⟩ := fromEvents_ok_iff.mp replayed
  rw [fromEvents_ok_iff, along_append, run_append, cursor]
  constructor
  · rintro ⟨⟨-, next, -⟩, -⟩
    exact next
  · intro next
    exact ⟨⟨accepted, next, trivial⟩, rfl⟩

/-- The ledger is what replaying its own events gives. -/
def Reproduced (blake3 : Hasher) (runId : RunId) (ledger : RunEventLedger) : Prop :=
  fromEvents blake3 runId ledger.events = .ok ledger

theorem Reproduced.step {call : AppendCall} (h : ledger.Reproduced blake3 runId) :
    (ledger.step blake3 call).Reproduced blake3 runId := by
  unfold RunEventLedger.step
  obtain ⟨event, requires, produced, accepted, done⟩ | ⟨error, failed⟩ :=
    perform_cases blake3 ledger call
  · rw [done]
    exact (fromEvents_append_iff h).mpr (runId_of_fromEvents h ▸ accepted.replays produced)
  · rw [failed]
    exact h

theorem run_reproduced (calls : List AppendCall) :
    (run (step blake3) (new runId) calls).Reproduced blake3 runId :=
  run_invariant (fun _ _ h => h.step) calls rfl

/-- Replaying the events of any live ledger gives that ledger back, and a failed append
leaves it as it was. -/
theorem live_ledger_replays (blake3 : Hasher) (runId : RunId) (calls : List AppendCall) :
    let live := run (step blake3) (new runId) calls
    fromEvents blake3 runId live.events = .ok live ∧
      ∀ call error, (live.perform blake3 call).1 = .error error →
        (live.perform blake3 call).2 = live := by
  intro live
  refine ⟨run_reproduced calls, ?_⟩
  intro call error failed
  obtain ⟨event, requires, -, -, done⟩ | ⟨error, unchanged⟩ := perform_cases blake3 live call
  · rw [done] at failed
    contradiction
  · rw [unchanged]

/-- The live ledger that holds the earlier events accepts this one under the
prerequisites that its kind's append passes. -/
def AcceptedLive (blake3 : Hasher) (runId : RunId) (before : List RunEvent) (event : RunEvent) :
    Prop :=
  ∃ live requires, fromEvents blake3 runId before = .ok live ∧
    event.kind.prerequisites = some requires ∧
    (live.append blake3 event requires).1 = .ok event

theorem acceptedLive_iff (replayed : fromEvents blake3 runId before = .ok ledger)
    (produced : event.kind.prerequisites = some requires)
    (next : ledger.cursor.Replays blake3 runId event) :
    AcceptedLive blake3 runId before event ↔
      (event.kind = .browserObservationPacketRecorded → ledger.hasGoalIntakeRecorded) := by
  obtain rfl := runId_of_fromEvents replayed
  rw [← accepts_iff_of_replays produced next]
  constructor
  · rintro ⟨live, other, replayed', produced', appended⟩
    obtain rfl : ledger = live := by simpa [replayed] using replayed'
    obtain rfl : requires = other := by simpa [produced] using produced'
    obtain ⟨accepted, -⟩ | ⟨-, error, failed⟩ := append_cases blake3 ledger event requires
    · exact accepted
    · simp [failed] at appended
  · intro accepted
    refine ⟨ledger, requires, replayed, produced, ?_⟩
    obtain ⟨-, done⟩ | ⟨refused, -⟩ := append_cases blake3 ledger event requires
    · rw [done]
    · exact absurd accepted refused

/-- A replayed history restricted to a prefix is a replayed history, and the event after
the prefix meets the rules of replay there. -/
theorem fromEvents_split {after : List RunEvent}
    (replayed : fromEvents blake3 runId (before ++ event :: after) = .ok ledger) :
    ∃ live, fromEvents blake3 runId before = .ok live ∧
      live.cursor.Replays blake3 runId event := by
  obtain ⟨accepted, -⟩ := fromEvents_ok_iff.mp replayed
  obtain ⟨first, next, -⟩ := along_append.mp accepted
  have earlier := fromEvents_ok_iff.mpr ⟨first, rfl⟩
  exact ⟨_, earlier, cursor_of_fromEvents earlier ▸ next⟩

theorem hasGoalIntakeRecorded_of_fromEvents
    (replayed : fromEvents blake3 runId events = .ok ledger) :
    ledger.hasGoalIntakeRecorded ↔ ∃ earlier ∈ events, earlier.kind = .goalIntakeRecorded := by
  have tracked : ledger.hasGoalIntakeRecorded =
      (run Cursor.advance {} events).hasGoalIntakeRecorded := by
    rw [cursor_of_fromEvents replayed]
    rfl
  rw [tracked, run_hasGoalIntakeRecorded]
  simp

/-- A replayed history was acceptable live at every index exactly when each of its
browser observations follows a goal intake. -/
theorem replayed_events_accepted_live_iff (blake3 : Hasher) (runId : RunId)
    (events : List RunEvent) (ledger : RunEventLedger)
    (replayed : fromEvents blake3 runId events = .ok ledger)
    (producible : ∀ event ∈ events, event.kind.prerequisites.isSome) :
    (∀ i (h : i < events.length), AcceptedLive blake3 runId (events.take i) events[i]) ↔
      ∀ i (h : i < events.length), events[i].kind = .browserObservationPacketRecorded →
        ∃ earlier ∈ events.take i, earlier.kind = .goalIntakeRecorded := by
  refine forall₂_congr fun i h => ?_
  have split : events = events.take i ++ events[i] :: events.drop (i + 1) := by simp
  rw [split] at replayed
  obtain ⟨live, earlier, next⟩ := fromEvents_split replayed
  obtain ⟨requires, produced⟩ :=
    Option.isSome_iff_exists.mp (producible events[i] (List.getElem_mem h))
  rw [acceptedLive_iff earlier produced next, hasGoalIntakeRecorded_of_fromEvents earlier]

end RunEventLedger

/-- A short history of run 7: a goal intake, a browser observation, a context pack, a
model response, and a tool call with its policy decision, completion and memory commit. -/
def sampleHistory : List RunEvent :=
  let hash₁ := ofNat 0x280c88a20f9243d9eb53a9bb4263f79055f43a9f39727534a9ed1ea2c024c776
  let hash₂ := ofNat 0x4424a20abf2a33381193be4d75e5f6fe91261afd5f39651461882b2379985545
  let hash₃ := ofNat 0xd86128f7de7cd46989c2669acdc80941e2a4518b9af75eacf8b911cba9f5e305
  let hash₄ := ofNat 0xddaf7557f66c11391b713ceeb3e4047936d36f03aff479e75d7c1f7ac8bccbae
  let hash₅ := ofNat 0xdcb6faf53a9d384bf73ce925ca5ff56a908af5cd8deccea3ea1fca9a7daf56e4
  let hash₆ := ofNat 0xf6e9ff08b5fb98c010d6c24d0d90ca997311d08c6299da7a1eec44f593de0dae
  let hash₇ := ofNat 0xb4b6f6c3de87ec5f662c9e450c7968122467b89b091c1f9bc231b1bbc1a2d80f
  let hash₈ := ofNat 0x1deb5d88ebf179d38f3998de625036e09e83d73abcb6d653826c6362cdffe4e6
  let completion := ofNat 0xa4edb3cba5a7b9b01008a8ca3fdaab1a41bf5c9fcc0988ad83cf830eeba39fa1
  let commit := ofNat 0x80db5c568fd2bd035ad782a0c45b9abe7110b8d665da42cade36e6329e5887b0
  [⟨1, 7, .goalIntakeRecorded, 11, .fill 1, some (.fill 2), .zero, hash₁⟩,
    ⟨2, 7, .browserObservationPacketRecorded, 12, .fill 3, some (.fill 4), hash₁, hash₂⟩,
    ⟨3, 7, .contextPackBuilt, 13, .fill 5, some (.fill 6), hash₂, hash₃⟩,
    ⟨4, 7, .llmResponseReceived, 0, .fill 7, some (.fill 8), hash₃, hash₄⟩,
    ⟨5, 7, .toolCallRequested, 14, .fill 9, none, hash₄, hash₅⟩,
    ⟨6, 7, .policyDecisionRecorded, 15, .fill 10, some (.fill 9), hash₅, hash₆⟩,
    ⟨7, 7, .toolCallCompleted, 14, completion, some (.fill 11), hash₆, hash₇⟩,
    ⟨8, 7, .memoryCommitRecorded, 16, .fill 12, some commit, hash₇, hash₈⟩]

/-- BLAKE3 on the inputs of the sample history. -/
def sampleHasher : Hasher :=
  Hasher.ofTable <|
    (toolCallCompletionPreimage 14 (.fill 9) (.fill 10) (.fill 11), .ofNat
      0xa4edb3cba5a7b9b01008a8ca3fdaab1a41bf5c9fcc0988ad83cf830eeba39fa1) ::
    (memoryCommitPreimage 16 (.fill 11) (.fill 12), .ofNat
      0x80db5c568fd2bd035ad782a0c45b9abe7110b8d665da42cade36e6329e5887b0) ::
    sampleHistory.map fun event =>
      (runEventPreimage event.eventId event.runId event.kind event.subjectId event.primaryHash
        event.secondaryHash event.previousEventHash, event.eventHash)

theorem sampleHistory_replayed :
    ∃ ledger, fromEvents sampleHasher 7 sampleHistory = .ok ledger := by
  have replayed : (fromEvents sampleHasher 7 sampleHistory).isOk = true := by decide
  cases outcome : fromEvents sampleHasher 7 sampleHistory with
  | error error =>
      rw [outcome] at replayed
      cases replayed
  | ok ledger => exact ⟨ledger, rfl⟩

/-- The browser observation of the sample history follows its goal intake. -/
theorem sampleHistory_accepted_live :
    ∃ ledger, fromEvents sampleHasher 7 sampleHistory = .ok ledger ∧
      ∀ i (h : i < sampleHistory.length),
        RunEventLedger.AcceptedLive sampleHasher 7 (sampleHistory.take i) sampleHistory[i] := by
  obtain ⟨ledger, replayed⟩ := sampleHistory_replayed
  refine ⟨ledger, replayed, ?_⟩
  exact (replayed_events_accepted_live_iff sampleHasher 7 sampleHistory ledger
    replayed (by decide)).mpr (by decide)

/-- A browser observation alone is a history that replay accepts, under any hash function,
and that no live ledger could have grown into. -/
theorem loneObservation_refused_live :
    ¬ ∃ blake3 : Hasher, ∀ runId events ledger,
      fromEvents blake3 runId events = .ok ledger →
      (∀ event ∈ events, event.kind.prerequisites.isSome) →
      ∀ i (h : i < events.length),
        RunEventLedger.AcceptedLive blake3 runId (events.take i) events[i] := by
  rintro ⟨blake3, accepted⟩
  let observation := RunEvent.new blake3 1 1 .browserObservationPacketRecorded 5 (.fill 1)
    (some (.fill 2)) .zero
  have next : Cursor.Replays blake3 1 {} observation := by
    refine ⟨⟨⟨rfl, rfl, rfl, fun _ => rfl⟩, rfl, rfl, rfl, ?_⟩, by decide,
      (by decide : (1 : EventId) ≠ 0), nofun⟩
    exact ⟨nofun, nofun, nofun, nofun, nofun, nofun, nofun⟩
  have along : Along Cursor.advance (Cursor.Replays blake3 1) {} [observation] := ⟨next, trivial⟩
  have replayed := fromEvents_ok_iff.mpr ⟨along, rfl⟩
  have producible : ∀ event ∈ [observation], event.kind.prerequisites.isSome := by
    rintro event (_ | ⟨_, ⟨⟩⟩)
    rfl
  have live : RunEventLedger.AcceptedLive blake3 1 [] observation :=
    accepted 1 [observation] _ replayed producible 0 (by simp)
  have start : fromEvents blake3 1 [] = .ok (RunEventLedger.new 1) := rfl
  rw [acceptedLive_iff start rfl next] at live
  exact absurd (live rfl) (by decide)

end Aegis.Replay
