import AegisCognition.Foundation.Latest
import AegisCognition.Replay.Equivalence

/-!
# Tool calls in a replayed history

Replay keeps flags and last-seen values only. In every history it accepts they stand for
places: the request that is pending, the latest policy decision, the latest completion.
From these places it follows that requests and completions alternate, that a completion
answers its own request under a decision made in between, and that a memory commit is
bound to the completion before it.
-/

namespace Aegis.Replay

open Foundation ReplayFlags List

variable {blake3 : Hasher} {runId : RunId} {events : List RunEvent} {event : RunEvent}

namespace RunEvent

def IsRequest (event : RunEvent) : Prop := event.kind = .toolCallRequested
def IsCompletion (event : RunEvent) : Prop := event.kind = .toolCallCompleted
def IsPolicyDecision (event : RunEvent) : Prop := event.kind = .policyDecisionRecorded

instance : DecidablePred IsRequest := fun event => inferInstanceAs (Decidable (event.kind = _))
instance : DecidablePred IsCompletion := fun event => inferInstanceAs (Decidable (event.kind = _))

end RunEvent

namespace ReplayFlags

variable {flags : ReplayFlags}

theorem advance_of_isRequest (h : event.IsRequest) :
    flags.advance event =
      { flags with
        hasPendingToolCall := true
        hasToolCompletionRecorded := false
        lastToolCallId := event.subjectId
        lastToolCallEventId := event.eventId
        lastToolIrHash := event.primaryHash } := by
  rw [advance, show event.kind = _ from h]

theorem advance_of_isCompletion (h : event.IsCompletion) :
    flags.advance event =
      { flags with
        hasPendingToolCall := false
        hasToolCompletionRecorded := true
        lastToolExecutionEvidenceHash :=
          event.secondaryHash.getD flags.lastToolExecutionEvidenceHash } := by
  rw [advance, show event.kind = _ from h]

/-- Only a request changes the remembered request. -/
theorem advance_request_frame (h : ¬ event.IsRequest) :
    (flags.advance event).lastToolCallId = flags.lastToolCallId ∧
    (flags.advance event).lastToolCallEventId = flags.lastToolCallEventId ∧
    (flags.advance event).lastToolIrHash = flags.lastToolIrHash := by
  unfold RunEvent.IsRequest at h
  unfold advance
  cases kind : event.kind <;> simp_all

/-- Only requests and completions open or close a call. -/
theorem advance_call_frame (hr : ¬ event.IsRequest) (hc : ¬ event.IsCompletion) :
    (flags.advance event).hasPendingToolCall = flags.hasPendingToolCall ∧
    (flags.advance event).hasToolCompletionRecorded = flags.hasToolCompletionRecorded ∧
    (flags.advance event).lastToolExecutionEvidenceHash =
      flags.lastToolExecutionEvidenceHash := by
  unfold RunEvent.IsRequest at hr
  unfold RunEvent.IsCompletion at hc
  unfold advance
  cases kind : event.kind <;> simp_all

/-- Only a policy decision changes the remembered decision. -/
theorem advance_policy_frame (h : ¬ event.IsPolicyDecision) :
    (flags.advance event).hasPolicyDecisionRecorded = flags.hasPolicyDecisionRecorded ∧
    (flags.advance event).lastPolicyEventId = flags.lastPolicyEventId ∧
    (flags.advance event).lastPolicyProofTraceHash = flags.lastPolicyProofTraceHash ∧
    (flags.advance event).lastPolicyToolIrHash = flags.lastPolicyToolIrHash := by
  unfold RunEvent.IsPolicyDecision at h
  unfold advance
  cases kind : event.kind <;> simp_all

end ReplayFlags

namespace Cursor

section Places

variable {history : List RunEvent} {cursor : Cursor}

section

variable (history : List RunEvent) (cursor : Cursor)

def RequestPlaced : Prop :=
  cursor.hasPendingToolCall → ∃ earlier request between,
    Latest RunEvent.IsRequest history earlier request between ∧
    cursor.lastToolCallId = request.subjectId ∧
    cursor.lastToolCallEventId = request.eventId ∧
    cursor.lastToolIrHash = request.primaryHash

/-- The remembered decision is the latest one. -/
def PolicyPlaced : Prop :=
  cursor.hasPolicyDecisionRecorded → ∃ earlier decision later,
    Latest RunEvent.IsPolicyDecision history earlier decision later ∧
    cursor.lastPolicyEventId = decision.eventId ∧
    cursor.lastPolicyProofTraceHash = decision.primaryHash ∧
    decision.secondaryHash = some cursor.lastPolicyToolIrHash

/-- The remembered evidence is that of the latest completion, which no request follows. -/
def CompletionPlaced : Prop :=
  cursor.hasToolCompletionRecorded → ∃ earlier completion between,
    Latest RunEvent.IsCompletion history earlier completion between ∧
    (∀ event ∈ between, ¬ event.IsRequest) ∧
    completion.secondaryHash = some cursor.lastToolExecutionEvidenceHash

end

theorem RequestPlaced.advance (h : RequestPlaced history cursor) :
    RequestPlaced (history ++ [event]) (cursor.advance event) := by
  intro pending
  by_cases hr : event.IsRequest
  · refine ⟨history, event, [], Latest.here hr, ?_⟩
    simp [advance_of_isRequest hr]
  · have hc : ¬ event.IsCompletion := by
      intro hc
      simp [advance_of_isCompletion hc] at pending
    obtain ⟨callId, callEvent, toolIr⟩ := advance_request_frame hr
    rw [advance_toReplayFlags, (advance_call_frame hr hc).1] at pending
    obtain ⟨earlier, request, between, latest, subject, id, ir⟩ := h pending
    exact ⟨earlier, request, between ++ [event], latest.past hr, callId.trans subject,
      callEvent.trans id, toolIr.trans ir⟩

theorem PolicyPlaced.advance (present : event.IsPolicyDecision → event.secondaryHash.isSome)
    (h : PolicyPlaced history cursor) :
    PolicyPlaced (history ++ [event]) (cursor.advance event) := by
  intro decided
  by_cases hp : event.IsPolicyDecision
  · obtain ⟨toolIr, secondary⟩ := Option.isSome_iff_exists.mp (present hp)
    refine ⟨history, event, [], Latest.here hp, ?_⟩
    simp [ReplayFlags.advance, show event.kind = _ from hp, secondary]
  · obtain ⟨has, eventId, trace, toolIr⟩ := advance_policy_frame hp
    rw [advance_toReplayFlags, has] at decided
    obtain ⟨earlier, decision, later, latest, id, primary, secondary⟩ := h decided
    exact ⟨earlier, decision, later ++ [event], latest.past hp, eventId.trans id,
      trace.trans primary, by rw [advance_toReplayFlags, toolIr, secondary]⟩

theorem CompletionPlaced.advance (present : event.IsCompletion → event.secondaryHash.isSome)
    (h : CompletionPlaced history cursor) :
    CompletionPlaced (history ++ [event]) (cursor.advance event) := by
  intro completed
  by_cases hc : event.IsCompletion
  · obtain ⟨evidence, secondary⟩ := Option.isSome_iff_exists.mp (present hc)
    refine ⟨history, event, [], Latest.here hc, nofun, ?_⟩
    simp [advance_of_isCompletion hc, secondary]
  · have hr : ¬ event.IsRequest := by
      intro hr
      simp [advance_of_isRequest hr] at completed
    obtain ⟨-, has, evidence⟩ := advance_call_frame hr hc
    rw [advance_toReplayFlags, has] at completed
    obtain ⟨earlier, completion, between, latest, quiet, secondary⟩ := h completed
    refine ⟨earlier, completion, between ++ [event], latest.past hc, ?_,
      by rw [advance_toReplayFlags, evidence, secondary]⟩
    intro later member
    obtain member | member := mem_append.mp member
    · exact quiet later member
    · obtain rfl := mem_singleton.mp member
      exact hr

def toolEvents (history : List RunEvent) : List RunEvent :=
  history.filter fun event => decide event.IsRequest || decide event.IsCompletion

/-- Requests stand at the even places, completions at the odd ones. -/
def Alternates (tools : List RunEvent) : Prop :=
  ∀ i (h : i < tools.length),
    tools[i].kind = if i % 2 = 0 then .toolCallRequested else .toolCallCompleted

theorem Alternates.append {tools : List RunEvent} (h : Alternates tools)
    (next : event.kind =
      if tools.length % 2 = 0 then .toolCallRequested else .toolCallCompleted) :
    Alternates (tools ++ [event]) := by
  intro i hi
  rw [length_append, length_singleton] at hi
  by_cases last : i < tools.length
  · rw [getElem_append_left last]
    exact h i last
  · obtain rfl : i = tools.length := by omega
    simpa using next

/-- The tool events alternate, and a call is pending after an odd number of them. -/
def CallsAlternate (history : List RunEvent) (cursor : Cursor) : Prop :=
  Alternates (toolEvents history) ∧
    (cursor.hasPendingToolCall ↔ (toolEvents history).length % 2 = 1)

theorem CallsAlternate.advance (allowed : cursor.toReplayFlags.Allows blake3 event)
    (h : CallsAlternate history cursor) :
    CallsAlternate (history ++ [event]) (cursor.advance event) := by
  obtain ⟨alternates, parity⟩ := h
  by_cases hr : event.IsRequest
  · have idle := allowed.request hr
    have even : (toolEvents history).length % 2 = 0 := by
      rw [idle] at parity
      simp only [Bool.false_eq_true, false_iff] at parity
      omega
    have tools : toolEvents (history ++ [event]) = toolEvents history ++ [event] := by
      simp [toolEvents, hr]
    rw [CallsAlternate, tools]
    refine ⟨alternates.append ?_, ?_⟩
    · rw [if_pos even]
      exact hr
    · rw [advance_toReplayFlags, advance_of_isRequest hr, length_append, length_singleton]
      simp only [true_iff]
      omega
  · by_cases hc : event.IsCompletion
    · have odd := parity.mp (allowed.completion hc).pending
      have tools : toolEvents (history ++ [event]) = toolEvents history ++ [event] := by
        simp [toolEvents, hc]
      rw [CallsAlternate, tools]
      refine ⟨alternates.append ?_, ?_⟩
      · rw [if_neg (by omega)]
        exact hc
      · rw [advance_toReplayFlags, advance_of_isCompletion hc, length_append,
          length_singleton]
        simp only [Bool.false_eq_true, false_iff]
        omega
    · have tools : toolEvents (history ++ [event]) = toolEvents history := by
        simp [toolEvents, hr, hc]
      rw [CallsAlternate, tools, advance_toReplayFlags, (advance_call_frame hr hc).1]
      exact ⟨alternates, parity⟩

/-- Every event carries its position, which never wraps. -/
def Numbered (history : List RunEvent) (_ : Cursor) : Prop :=
  history.length < 2 ^ 64 ∧ ∀ earlier event later, history = earlier ++ event :: later →
    event.eventId.toNat = earlier.length + 1

theorem toNat_position {n : Nat} (fits : n < 2 ^ 64) (nonzero : BitVec.ofNat 64 n + 1 ≠ 0) :
    n + 1 < 2 ^ 64 ∧ (BitVec.ofNat 64 n + 1).toNat = n + 1 := by
  have value : (BitVec.ofNat 64 n + 1).toNat = (n + 1) % 2 ^ 64 := by
    simp [BitVec.toNat_add]
  have wraps : n + 1 ≠ 2 ^ 64 := by
    intro full
    apply nonzero
    apply BitVec.eq_of_toNat_eq
    rw [value, full]
    rfl
  refine ⟨by omega, ?_⟩
  rw [value, Nat.mod_eq_of_lt (by omega)]

theorem Numbered.advance (place : cursor.index = history.length)
    (rule : cursor.Replays blake3 runId event) (h : Numbered history cursor) :
    Numbered (history ++ [event]) (cursor.advance event) := by
  obtain ⟨fits, positions⟩ := h
  have position := rule.position
  rw [place] at position
  obtain ⟨fits', value⟩ := toNat_position fits (position ▸ rule.numbered)
  refine ⟨by simpa using fits', ?_⟩
  intro earlier found later split
  obtain ⟨later, rfl, rfl⟩ | ⟨rfl, rfl, rfl⟩ := snoc_split split
  · exact positions earlier found later rfl
  · rw [position, value]

/-- What the remembered values stand for. -/
structure Placed (history : List RunEvent) (cursor : Cursor) : Prop where
  request : RequestPlaced history cursor
  policy : PolicyPlaced history cursor
  completion : CompletionPlaced history cursor
  calls : CallsAlternate history cursor
  numbered : Numbered history cursor

theorem Placed.advance (place : cursor.index = history.length)
    (rule : cursor.Replays blake3 runId event) (h : Placed history cursor) :
    Placed (history ++ [event]) (cursor.advance event) := by
  refine ⟨h.request.advance, h.policy.advance ?_, h.completion.advance ?_,
    h.calls.advance rule.allowed, h.numbered.advance place rule⟩
  · intro kind
    exact rule.wellFormed.present (by rw [show event.kind = _ from kind]; rfl)
  · intro kind
    exact rule.wellFormed.present (by rw [show event.kind = _ from kind]; rfl)

theorem placed_of_along (h : Along advance (Replays blake3 runId) {} events) :
    Placed events (run advance {} events) := by
  refine h.history_invariant ?_ ?_
  · exact ⟨nofun, nofun, nofun, ⟨nofun, by simp [toolEvents]⟩, by simp [Numbered]⟩
  · intro history event placed rule
    exact placed.advance (by simp) rule

end Places

end Cursor

namespace RunEventLedger

variable {ledger : RunEventLedger} {before after : List RunEvent}

theorem placed_of_fromEvents (replayed : fromEvents blake3 runId events = .ok ledger) :
    Cursor.Placed events ledger.cursor := by
  rw [← cursor_of_fromEvents replayed]
  exact Cursor.placed_of_along (fromEvents_ok_iff.mp replayed).1

/-- The completion answers the last request before it under the last policy decision,
which lies strictly between the two and names the request's tool IR. -/
def AnswersRequest (blake3 : Hasher) (before : List RunEvent) (completion : RunEvent) : Prop :=
  ∃ earlier request first decision second evidence,
    Latest RunEvent.IsRequest before earlier request (first ++ decision :: second) ∧
    Latest RunEvent.IsPolicyDecision before (earlier ++ request :: first) decision second ∧
    completion.subjectId = request.subjectId ∧
    decision.secondaryHash = some request.primaryHash ∧
    completion.secondaryHash = some evidence ∧
    completion.primaryHash = toolCallCompletionBindingHash blake3 completion.subjectId
      request.primaryHash decision.primaryHash evidence

/-- The commit is bound to the evidence of an earlier completion with no request in
between. -/
def CommitsCompletion (blake3 : Hasher) (before : List RunEvent) (commit : RunEvent) : Prop :=
  ∃ earlier completion between evidence,
    before = earlier ++ completion :: between ∧ completion.IsCompletion ∧
    (∀ event ∈ between, ¬ event.IsRequest) ∧
    completion.secondaryHash = some evidence ∧
    commit.secondaryHash =
      some (memoryCommitBindingHash blake3 commit.subjectId evidence commit.primaryHash)

theorem answersRequest_of_replays (replayed : fromEvents blake3 runId before = .ok ledger)
    (rule : ledger.cursor.Replays blake3 runId event) (kind : event.IsCompletion) :
    AnswersRequest blake3 before event := by
  have placed := placed_of_fromEvents replayed
  have completed := rule.allowed.completion kind
  have decided : ledger.hasPolicyDecisionRecorded :=
    rule.allowed.policyDecision (by rw [show event.kind = _ from kind]; rfl)
  obtain ⟨earlier, request, between, latest, subject, requestId, requestIr⟩ :=
    placed.request completed.pending
  obtain ⟨earlier', decision, second, latest', decisionId, trace, decisionIr⟩ :=
    placed.policy decided
  -- The later event id is the later place, so the decision follows the request.
  have order : earlier.length < earlier'.length := by
    have later := completed.decided
    rw [requestId, decisionId, BitVec.lt_def, placed.numbered.2 _ _ _ latest.split,
      placed.numbered.2 _ _ _ latest'.split] at later
    omega
  obtain ⟨first, rfl⟩ := latest.after latest' order
  have place : earlier' = earlier ++ request :: first := by
    have both := latest'.split.symm.trans latest.split
    rw [← cons_append, ← append_assoc] at both
    exact (append_inj' both rfl).1
  obtain ⟨evidence, present, bound⟩ := completed.bound
  refine ⟨earlier, request, first, decision, second, evidence, latest, place ▸ latest',
    completed.subject.trans subject, ?_, present, ?_⟩
  · rw [decisionIr, ← requestIr]
    exact congrArg some completed.sameIr.symm
  · rw [bound, ← requestIr, ← trace]

theorem commitsCompletion_of_replays (replayed : fromEvents blake3 runId before = .ok ledger)
    (rule : ledger.cursor.Replays blake3 runId event)
    (kind : event.kind = .memoryCommitRecorded) : CommitsCompletion blake3 before event := by
  have committed := rule.allowed.memoryCommit kind
  obtain ⟨earlier, completion, between, latest, quiet, evidence⟩ :=
    (placed_of_fromEvents replayed).completion committed.completed
  exact ⟨earlier, completion, between, _, latest.split, latest.holds, quiet, evidence,
    committed.bound⟩

/-- In every replayed history requests and completions alternate, each completion answers
its own request under a policy decision of its own, and each memory commit is bound to the
completion before it. -/
theorem replayed_tool_calls_answered (blake3 : Hasher) (runId : RunId) (events : List RunEvent)
    (ledger : RunEventLedger) (replayed : fromEvents blake3 runId events = .ok ledger) :
    Cursor.Alternates (Cursor.toolEvents events) ∧
    (∀ before completion after, events = before ++ completion :: after →
      completion.kind = .toolCallCompleted → AnswersRequest blake3 before completion) ∧
    (∀ before commit after, events = before ++ commit :: after →
      commit.kind = .memoryCommitRecorded → CommitsCompletion blake3 before commit) := by
  refine ⟨(placed_of_fromEvents replayed).calls.1, ?_, ?_⟩
  · rintro before completion after rfl kind
    obtain ⟨live, earlier, rule⟩ := fromEvents_split replayed
    exact answersRequest_of_replays earlier rule kind
  · rintro before commit after rfl kind
    obtain ⟨live, earlier, rule⟩ := fromEvents_split replayed
    exact commitsCompletion_of_replays earlier rule kind

end RunEventLedger

/-- The completion and the commit of the sample history. -/
theorem sampleHistory_calls_answered :
    ∃ ledger, RunEventLedger.fromEvents sampleHasher 7 sampleHistory = .ok ledger ∧
      Cursor.Alternates (Cursor.toolEvents sampleHistory) ∧
      RunEventLedger.AnswersRequest sampleHasher (sampleHistory.take 6) sampleHistory[6] ∧
      RunEventLedger.CommitsCompletion sampleHasher (sampleHistory.take 7) sampleHistory[7] := by
  obtain ⟨ledger, replayed⟩ := sampleHistory_replayed
  obtain ⟨alternates, answers, commits⟩ :=
    RunEventLedger.replayed_tool_calls_answered sampleHasher 7 sampleHistory ledger replayed
  exact ⟨ledger, replayed, alternates, answers _ _ (sampleHistory.drop 7) rfl rfl,
    commits _ _ (sampleHistory.drop 8) rfl rfl⟩

end Aegis.Replay
