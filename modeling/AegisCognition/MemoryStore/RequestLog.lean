import AegisCognition.MemoryStore.History

/-!
# The log of requests

A request that changes something leaves an event under its identifier, and a capture also the
record it made. Events are never rewritten, and of a record the identifier, the hash of the
request and the kind stay, so what was recorded under an identifier can be found ever after. Its
content hash does not stay.

A request is answered from this log after two kinds of checks: whether its subject may write,
which depends on the grants of the moment, and whether it is well formed, which does not depend
on the tables at all.
-/

namespace Aegis.MemoryStore

open Foundation Tables List

variable {H : Type} {externals : Externals H} {tables after : Tables H}

/-- The subject of the request may write in its scope. -/
def Tables.MayWrite (tables : Tables H) (request : MemoryRequest H) : Prop :=
  tables.requireAccess request.header.toAccess true request.header.observedAtMs = .ok ()

/-- The request passes the checks of its own fields. -/
def MemoryRequest.WellFormed [DecidableEq H] (externals : Externals H) : MemoryRequest H → Prop
  | .capture request provenance =>
      (∀ nudge, provenance = some nudge →
        validateProvenance externals nudge request.content = .ok ()) ∧
      validateCapture request = .ok ()
  | .validate request =>
      validateHeader request.toRequestHeader "invalid memory scope" false = .ok () ∧
      (∃ decision, validateDecision request.validation (trimmedText request.basis)
        (trimmedText request.reason) = .ok decision) ∧
      ¬ ((trimmedText request.basis).any (maxValidationEvidenceBytes < ·.utf8ByteSize) ||
        (trimmedText request.reason).any (maxValidationEvidenceBytes < ·.utf8ByteSize)) = true
  | .correct request =>
      validateHeader request.toRequestHeader "invalid correction input"
        (isUnusable maxMemoryContentBytes request.content) = .ok ()
  | .transition _ request =>
      validateHeader request.toRequestHeader "invalid memory scope" false = .ok ()

/-- What a request that is no capture is answered with from an event. -/
def MemoryRequest.replyFrom (event : EventRow H) : MemoryRequest H → Reply H
  | .transition _ _ => .changed false
  | _ => .revised event.revision

/-! ### No check answers with a conflict of requests -/

/-- The result is an answer, or the refusal of a request that conflicts with the log. -/
def Proper {α : Type} (result : Except MemoryRepositoryError α) : Prop :=
  ∀ error, result = .error error → error = .idempotencyConflict

theorem Proper.ok {α : Type} (answer : α) : Proper (.ok answer) := nofun

theorem Proper.conflict {α : Type} : Proper (.error .idempotencyConflict : Except _ α) := by
  rintro _ ⟨⟩
  rfl

/-- A check that never answers with a conflict of requests has passed where the result is
proper. -/
theorem Proper.bind_iff {α β : Type} {result : Except MemoryRepositoryError β}
    (proper : Proper result) {check : Except MemoryRepositoryError α}
    {f : α → Except MemoryRepositoryError β} (never : check ≠ .error .idempotencyConflict) :
    (check >>= f) = result ↔ ∃ a, check = .ok a ∧ f a = result := by
  apply bind_eq_iff
  intro error same failed
  rw [proper error same] at failed
  exact never failed

theorem refuseInvalid_ne_conflict {c : Prop} [Decidable c] {message : String} :
    refuseWhen c (.invalidInput message) ≠ .error MemoryRepositoryError.idempotencyConflict := by
  simp [refuseWhen_eq_error_iff]

theorem requireAccess_ne_conflict (tables : Tables H) (access : Access) (write : Bool)
    (atMs : Nat) : tables.requireAccess access write atMs ≠ .error .idempotencyConflict := by
  intro h
  simp only [requireAccess, validateIdentity, bind_eq_error_iff, refuseWhen_eq_error_iff,
    reduceCtorEq, and_false, false_or] at h
  obtain ⟨-, -, h⟩ := h
  split at h
  · cases h
  · simp [refuseWhen_eq_error_iff] at h

theorem validateHeader_ne_conflict (header : RequestHeader) (message : String) (wrong : Bool) :
    validateHeader header message wrong ≠ .error .idempotencyConflict := by
  simp [validateHeader, bind_eq_error_iff, refuseWhen_eq_error_iff]

theorem validateDecision_ne_conflict (validation : String) (basis reason : Option String) :
    validateDecision validation basis reason ≠ .error .idempotencyConflict := by
  unfold validateDecision
  split
  · nofun
  · split <;> nofun
  · split <;> nofun

theorem validateCapture_ne_conflict (request : CaptureRequest) :
    validateCapture request ≠ .error .idempotencyConflict := by
  simp [validateCapture, bind_eq_error_iff, refuseWhen_eq_error_iff]

/-- The insertion of a capture only fails as the store itself does, or on a time that does not
fit. -/
theorem insertCapture_ne_conflict {capture : CaptureRequest}
    {provenance : Option (MemoryNudgeProvenance H)} :
    tables.insertCapture externals capture provenance ≠ .error .idempotencyConflict := by
  have fits : ∀ value, toI64Timestamp value ≠ .error .idempotencyConflict := by
    intro value
    unfold toI64Timestamp toI64
    split <;> exact fun failed => by cases failed
  have counts : ∀ value, toI64Revision value ≠ .error .idempotencyConflict := by
    intro value
    unfold toI64Revision toI64
    split <;> exact fun failed => by cases failed
  have inserts : ∀ (tables : Tables H) row, tables.insertRecord row ≠
      .error .idempotencyConflict := by
    simp [insertRecord, bind_eq_error_iff, refuseWhen_eq_error_iff, pure, Except.pure]
  have revises : ∀ (tables : Tables H) row, tables.insertRevision row ≠
      .error .idempotencyConflict := by
    simp [insertRevision, bind_eq_error_iff, refuseWhen_eq_error_iff, pure, Except.pure]
  have tells : ∀ (tables : Tables H) row, tables.insertEvent row ≠
      .error .idempotencyConflict := by
    simp [insertEvent, bind_eq_error_iff, refuseWhen_eq_error_iff, pure, Except.pure, fits, counts]
  have nudges : ∀ (tables : Tables H) memoryId nudge, tables.insertNudge memoryId nudge ≠
      .error .idempotencyConflict := by
    rintro tables memoryId (_ | nudge)
    · exact fun failed => by cases failed
    · simp [insertNudge, insertProvenance, bind_eq_error_iff,
        refuseWhen_eq_error_iff, pure, Except.pure]
  have syncs : ∀ (tables : Tables H) memoryId atMs, tables.syncIndex memoryId (some atMs) ≠
      .error .idempotencyConflict := by
    simp [syncIndex, bind_eq_error_iff, refuseWhen_eq_error_iff, pure, Except.pure, fits]
  simp [insertCapture, bind_eq_error_iff, fits, inserts, revises, tells, nudges, syncs]

/-! ### Answers from the log -/

section Answers

variable [DecidableEq H] {request : MemoryRequest H} {reply : Reply H} {event : EventRow H}
variable {result : Except MemoryRepositoryError (Reply H × Tables H)}

/-- The answer that an event recorded under the identifier of a request gives. -/
def Tables.answerFrom (tables : Tables H) (externals : Externals H) (event : EventRow H)
    (request : MemoryRequest H) : Except MemoryRepositoryError (Reply H × Tables H) :=
  if event.requestHash = externals.blake3 request.material then
    .ok (request.replyFrom event, tables)
  else .error .idempotencyConflict

theorem ite_error_bind {c : Prop} [Decidable c] {ε α β : Type} {x : Except ε α} {e : ε}
    {f : α → Except ε β} :
    ((if c then x else .error e) >>= f) = if c then x >>= f else .error e := by
  split <;> rfl

theorem refuse_ne_bind {α β : Type} [DecidableEq α] {a b : α} {e : MemoryRepositoryError}
    {f : Unit → Except MemoryRepositoryError β} :
    (refuseWhen (a ≠ b) e >>= f) = if a = b then f () else .error e := by
  by_cases same : a = b
  · rw [refuseWhen, if_neg (not_not.mpr same), if_pos same]
    rfl
  · rw [refuseWhen, if_pos same, if_neg same]
    rfl

theorem replayOr_seen {requestId : Id} {requestHash : H}
    {fresh : Except MemoryRepositoryError (Nat × Tables H)}
    (seen : tables.event? requestId = some event) :
    tables.replayOr requestId requestHash fresh =
      if event.requestHash = requestHash then .ok (event.revision, tables)
      else .error .idempotencyConflict := by
  simp only [replayOr, seen, refuse_ne_bind]
  rfl

theorem perform_recorded_iff (proper : Proper result) (noCapture : request.isCapture = false)
    (seen : tables.event? request.header.requestId = some event) :
    tables.perform externals request = result ↔
      tables.MayWrite request ∧ request.WellFormed externals ∧
        tables.answerFrom externals event request = result := by
  cases request with
  | capture request provenance => cases noCapture
  | validate request =>
      have seen' : tables.event? request.requestId = some event := seen
      simp only [Tables.perform, validateAs, bind_assoc, replayOr_seen seen',
        proper.bind_iff (requireAccess_ne_conflict tables _ _ _),
        proper.bind_iff (validateHeader_ne_conflict _ _ _),
        proper.bind_iff (validateDecision_ne_conflict _ _ _),
        proper.bind_iff refuseInvalid_ne_conflict, refuseWhen_eq_ok_iff, ite_error_bind]
      constructor
      · rintro ⟨⟨⟩, access, ⟨⟩, header, decision, decided, -, fits, answer⟩
        exact ⟨access, ⟨header, ⟨decision, decided⟩, fits⟩, answer⟩
      · rintro ⟨access, ⟨header, ⟨decision, decided⟩, fits⟩, answer⟩
        exact ⟨⟨⟩, access, ⟨⟩, header, decision, decided, ⟨⟩, fits, answer⟩
  | correct request =>
      have seen' : tables.event? request.requestId = some event := seen
      simp only [Tables.perform, correctAs, bind_assoc, replayOr_seen seen',
        proper.bind_iff (requireAccess_ne_conflict tables _ _ _),
        proper.bind_iff (validateHeader_ne_conflict _ _ _), ite_error_bind]
      constructor
      · rintro ⟨⟨⟩, access, ⟨⟩, header, answer⟩
        exact ⟨access, header, answer⟩
      · rintro ⟨access, header, answer⟩
        exact ⟨⟨⟩, access, ⟨⟩, header, answer⟩
  | transition kind request =>
      have seen' : tables.event? request.requestId = some event := seen
      simp only [Tables.perform, Tables.transition, bind_assoc, seen', refuse_ne_bind,
        ite_error_bind, proper.bind_iff (requireAccess_ne_conflict tables _ _ _),
        proper.bind_iff (validateHeader_ne_conflict _ _ _)]
      constructor
      · rintro ⟨⟨⟩, access, ⟨⟩, header, answer⟩
        exact ⟨access, header, answer⟩
      · rintro ⟨access, header, answer⟩
        exact ⟨⟨⟩, access, ⟨⟩, header, answer⟩

/-! ### Captures -/

variable {capture : CaptureRequest} {provenance : Option (MemoryNudgeProvenance H)}
variable {row : MemoryRow H}

theorem perform_capture_iff (proper : Proper result) :
    tables.perform externals (.capture capture provenance) = result ↔
      tables.MayWrite (.capture capture provenance) ∧
        (MemoryRequest.capture capture provenance).WellFormed externals ∧
        (tables.answerCapture externals capture provenance >>= fun answer =>
          .ok (.captured answer.1, answer.2)) = result := by
  cases provenance with
  | none =>
      simp only [Tables.perform, Tables.capture, captureWithKindAsProvenance, bind_assoc,
        proper.bind_iff (requireAccess_ne_conflict tables _ _ _),
        proper.bind_iff (validateCapture_ne_conflict _)]
      constructor
      · rintro ⟨⟨⟩, access, ⟨⟩, fields, answer⟩
        exact ⟨access, ⟨fun _ given => (by cases given), fields⟩, answer⟩
      · rintro ⟨access, ⟨-, fields⟩, answer⟩
        exact ⟨⟨⟩, access, ⟨⟩, fields, answer⟩
  | some nudge =>
      simp only [Tables.perform, Tables.capture, captureWithKindAsProvenance, bind_assoc,
        proper.bind_iff (show validateProvenance .. ≠ _ from refuseInvalid_ne_conflict),
        proper.bind_iff (requireAccess_ne_conflict tables _ _ _),
        proper.bind_iff (validateCapture_ne_conflict _)]
      constructor
      · rintro ⟨⟨⟩, valid, ⟨⟩, access, ⟨⟩, fields, answer⟩
        exact ⟨access, ⟨by rintro _ ⟨⟩; exact valid, fields⟩, answer⟩
      · rintro ⟨access, ⟨valid, fields⟩, answer⟩
        exact ⟨⟨⟩, valid nudge rfl, ⟨⟩, access, ⟨⟩, fields, answer⟩

/-- The answer that a record made under the identifier of a capture gives. -/
theorem answerCapture_seen (seen : tables.capture? capture.requestId = some row) :
    tables.answerCapture externals capture provenance =
      match row.contentHash with
      | none => .error (.sqlite .invalidColumnType)
      | some contentHash =>
          if row.requestHash = hashRequest externals capture.toRequestHeader capture.content ∧
              row.memoryKind = capture.memoryKind then
            .ok (⟨contentHash, false, tables.isIndexDirty capture.memoryId⟩, tables)
          else .error .idempotencyConflict := by
  simp only [answerCapture, seen]
  cases row.contentHash with
  | none => rfl
  | some contentHash =>
      by_cases same : row.requestHash =
          hashRequest externals capture.toRequestHeader capture.content ∧
          row.memoryKind = capture.memoryKind
      · dsimp only
        rw [if_pos same, refuseWhen, if_neg (by tauto)]
        rfl
      · dsimp only
        rw [if_neg same, refuseWhen, if_pos (by tauto)]
        rfl

/-- A capture under an identifier that no record has is never refused as a conflict of
requests. -/
theorem answerCapture_unseen (unseen : tables.capture? capture.requestId = none) :
    tables.answerCapture externals capture provenance ≠ .error .idempotencyConflict := by
  intro h
  simp only [answerCapture, unseen] at h
  split at h
  · split at h <;> cases h
  · simp [bind_eq_error_iff, insertCapture_ne_conflict, pure, Except.pure] at h

/-! ### Transitions that were not recorded -/

/-- A transition under an unknown identifier changes nothing exactly where the memory is already
in the lifecycle asked for. A memory that is not forgotten is never restored. -/
theorem perform_transition_unseen_iff {kind : TransitionKind} {request : TransitionRequest}
    (unseen : tables.event? request.requestId = none) :
    tables.perform externals (.transition kind request) = .ok (.changed false, tables) ↔
      tables.MayWrite (.transition kind request) ∧
        (MemoryRequest.transition kind request).WellFormed externals ∧ kind ≠ .restore ∧
        ∃ row, tables.scopedRecord? request.toAccess request.memoryId = some row ∧
          row.lifecycle = kind.nextLifecycle ∧
          request.expectedRevision.all (· == row.revision) = true := by
  have proper : Proper (.ok (.changed false, tables) : Except _ (Reply H × Tables H)) := .ok _
  simp only [Tables.perform, Tables.transition, bind_assoc, unseen,
    proper.bind_iff (requireAccess_ne_conflict tables _ _ _),
    proper.bind_iff (validateHeader_ne_conflict _ _ _)]
  constructor
  · rintro ⟨⟨⟩, access, ⟨⟩, header, answer⟩
    obtain ⟨⟨_, _⟩, applied, same⟩ := bind_eq_ok_iff.mp answer
    obtain ⟨changed, rfl⟩ := Prod.mk.inj (pure_eq_ok_iff.mp same)
    obtain rfl := Reply.changed.inj changed
    obtain ⟨row, found, expected, ⟨-, already, -⟩ | ⟨⟨⟩, -⟩⟩ :=
      applyTransition_ok externals unseen applied
    refine ⟨access, header, ?_, row, found, already, expected⟩
    rintro rfl
    simp only [applyTransition, bind_eq_ok_iff, okOr_eq_ok_iff] at applied
    obtain ⟨row', found', -, -, ⟨⟩, allowed, -⟩ := applied
    obtain rfl := Option.some.inj (found.symm.trans found')
    have forgotten := (requireFrom_ok allowed).2 rfl
    rw [already] at forgotten
    cases forgotten
  · rintro ⟨access, header, other, row, found, already, expected⟩
    refine ⟨⟨⟩, access, ⟨⟩, header, ?_⟩
    have agrees : ¬ request.expectedRevision.any (· != row.revision) = true := by
      cases named : request.expectedRevision <;> simp_all
    have allowed : kind.requireFrom kind.nextLifecycle = .ok () := by
      cases kind with
      | forget => rfl
      | restore => exact absurd rfl other
      | purge => rfl
    simp only [applyTransition, found, okOr, refuseWhen, agrees, allowed, already, bind,
      Except.bind, if_true, Bool.false_eq_true, if_false, pure, Except.pure]

end Answers

/-! ### What the log keeps -/

/-- What a record keeps of the request that made it. -/
def MemoryRow.origin (row : MemoryRow H) : Id × H × String :=
  (row.requestId, row.requestHash, row.memoryKind)

/-- Whatever was recorded is still there. -/
structure Extends (tables after : Tables H) : Prop where
  events : tables.events <+: after.events
  captures : tables.records.map (·.origin) <+: after.records.map (·.origin)

theorem Extends.refl (tables : Tables H) : Extends tables tables :=
  ⟨prefix_rfl, prefix_rfl⟩

theorem Extends.trans {later : Tables H} (first : Extends tables after)
    (second : Extends after later) : Extends tables later :=
  ⟨first.events.trans second.events, first.captures.trans second.captures⟩

/-- The identifiers of the log: an event for each capture, and no identifier twice. -/
structure Tables.Logged (tables : Tables H) : Prop extends tables.Keyed where
  requests : (tables.events.map (·.requestId)).Nodup
  captured : ∀ row ∈ tables.records, ∃ event ∈ tables.events,
    event.requestId = row.requestId ∧ event.eventType = .memoryCandidateCreated

variable {header : RequestHeader} {row : MemoryRow H} {change : Change} {requestHash : H}

theorem event?_eq_none_iff {requestId : Id} :
    tables.event? requestId = none ↔ ∀ event ∈ tables.events, event.requestId ≠ requestId := by
  simp [Tables.event?, List.find?_eq_none]

/-- A change adds one event, under an identifier of its own, which is not that of a capture. -/
theorem Changes.logged (h : Changes externals tables header row change requestHash after)
    (logged : tables.Logged) : Extends tables after ∧ after.Logged := by
  obtain ⟨event, -, request, -, -, -, told⟩ := h.events
  have origins : after.records.map (·.origin) = tables.records.map (·.origin) := by
    rw [h.records]
    exact map_updateWhere fun _ => by simp [MemoryRow.origin]
  refine ⟨⟨told ▸ prefix_append _ _, origins ▸ prefix_rfl⟩, h.keyed logged.toKeyed,
    ?_, ?_⟩
  · rw [told]
    apply nodup_map_concat logged.requests
    rw [request]
    exact event?_eq_none_iff.mp h.fresh
  · intro other mem
    have origin : other.origin ∈ tables.records.map (·.origin) :=
      origins ▸ mem_map_of_mem mem
    obtain ⟨before, mem, same⟩ := mem_map.mp origin
    obtain ⟨captured, here, identifier, created⟩ := logged.captured before mem
    rw [told]
    refine ⟨captured, mem_append_left _ here, ?_, created⟩
    exact identifier.trans (Prod.mk.inj same).1

theorem Captures.logged {request : CaptureRequest}
    {provenance : Option (MemoryNudgeProvenance H)}
    (h : Captures externals tables request provenance after) (logged : tables.Logged) :
    Extends tables after ∧ after.Logged := by
  have records : after.records = tables.records ++ [request.record externals] := by
    rw [h.result]
    rfl
  obtain ⟨event, -, identifier, -, -, created, told⟩ := h.events
  have origins : after.records.map (·.origin) =
      tables.records.map (·.origin) ++ [(request.record externals).origin] := by
    rw [records, map_append, map_singleton]
  refine ⟨⟨told ▸ prefix_append _ _, origins ▸ prefix_append _ _⟩,
    h.keyed logged.toKeyed, ?_, ?_⟩
  · rw [told]
    apply nodup_map_concat logged.requests
    rw [identifier]
    exact event?_eq_none_iff.mp h.fresh
  · intro row mem
    rw [records, mem_append, mem_singleton] at mem
    rw [told]
    obtain old | rfl := mem
    · obtain ⟨captured, here, same⟩ := logged.captured row old
      exact ⟨captured, mem_append_left _ here, same⟩
    · exact ⟨event, mem_append_right _ (mem_singleton_self _), identifier, created⟩

theorem Tables.logged_empty : (Tables.empty : Tables H).Logged :=
  ⟨⟨nodup_nil, nodup_nil⟩, nodup_nil, fun _ mem => absurd mem not_mem_nil⟩

section Runs

variable [DecidableEq H]

theorem step_logged (externals : Externals H) (op : MemoryOp H) (logged : tables.Logged) :
    Extends tables (tables.step externals op) ∧ (tables.step externals op).Logged := by
  obtain ⟨records, events⟩ | ⟨_, _, -, captures⟩ | ⟨_, _, _, _, -, changes⟩ :=
    step_cases externals tables op
  · refine ⟨⟨events ▸ prefix_rfl, records ▸ prefix_rfl⟩, step_keyed op logged.toKeyed,
      events ▸ logged.requests, ?_⟩
    rw [records, events]
    exact logged.captured
  · exact captures.logged logged
  · exact changes.logged logged

theorem run_logged (externals : Externals H) (ops : List (MemoryOp H)) (logged : tables.Logged) :
    Extends tables (run (Tables.step externals) tables ops) ∧
      (run (Tables.step externals) tables ops).Logged := by
  induction ops generalizing tables with
  | nil => exact ⟨.refl tables, logged⟩
  | cons op ops ih =>
      obtain ⟨extends_step, logged⟩ := step_logged externals op logged
      obtain ⟨extends_rest, logged⟩ := ih logged
      exact ⟨extends_step.trans extends_rest, logged⟩

end Runs

end Aegis.MemoryStore
