import AegisCognition.MemoryStore.Lifecycle
import AegisCognition.MemoryStore.RequestLog
import Mathlib.Data.Set.Insert
import Mathlib.Data.Set.Function

/-!
# Repeated and reused requests

A request that has been answered can be sent again at any later time, and a request identifier
can be used again for something else. Whether the store then does what its log promises depends
on where it looks: events keep their answer for ever, a record gives the content hash of the
moment, a transition that found nothing to do leaves no trace, and a capture does not look at
the events at all.
-/

namespace Aegis.MemoryStore

open Foundation Replay Tables List

variable {H : Type} {externals : Externals H} {tables middle later : Tables H}

/-- The second answer says what the first one said, and that nothing was created or changed. -/
def Reply.Repeats : Reply H → Reply H → Prop
  | .captured second, .captured first =>
      second.contentHash = first.contentHash ∧ second.created = false
  | .revised second, .revised first => second = first
  | .changed second, .changed _ => second = false
  | _, _ => False

/-- The content hash of the record that was made under an identifier. -/
def Tables.capturedHash (tables : Tables H) (requestId : Id) : Option H :=
  (tables.capture? requestId).bind (·.contentHash)

/-- When a request that was answered with the tables `middle` can be repeated. The subject must
still be allowed to write. The record of a capture must have the content hash that it had. A
transition that was not recorded must still have nothing to do, or must have been recorded
since. -/
def Repeatable (externals : Externals H) (middle later : Tables H) (request : MemoryRequest H) :
    Prop :=
  later.MayWrite request ∧
    match request with
    | .capture request _ =>
        later.capturedHash request.requestId = middle.capturedHash request.requestId
    | .validate _ => True
    | .correct _ => True
    | .transition kind request =>
        middle.event? request.requestId = none →
          match later.event? request.requestId with
          | some event =>
              event.requestHash = hashRequest externals request.toRequestHeader kind.label
          | none => ∃ row, later.scopedRecord? request.toAccess request.memoryId = some row ∧
              row.lifecycle = kind.nextLifecycle ∧
              request.expectedRevision.all (· == row.revision) = true

/-- When a request under an identifier that `first` has recorded is refused as a conflict. It
must pass its own checks. A request that is no capture must be hashed from other bytes than the
first. A capture conflicts only with a capture, whose memory has not been purged, of other bytes
or of another kind. -/
def Refusable [DecidableEq H] (externals : Externals H) (later : Tables H)
    (first second : MemoryRequest H) : Prop :=
  later.MayWrite second ∧ second.WellFormed externals ∧
    match second, first with
    | .capture again _, .capture original _ =>
        later.capturedHash again.requestId ≠ none ∧
          (second.material ≠ first.material ∨ again.memoryKind ≠ original.memoryKind)
    | .capture _ _, _ => False
    | _, _ => second.material ≠ first.material

/-! ### What an answered request leaves in the log -/

variable {requestId : Id}

theorem event?_concat {event : EventRow H}
    (events : middle.events = tables.events ++ [event]) (same : event.requestId = requestId)
    (fresh : tables.event? requestId = none) : middle.event? requestId = some event := by
  rw [Tables.event?, events, List.find?_append]
  rw [Tables.event?] at fresh
  simp [fresh, same]

theorem Extends.event? {event : EventRow H} (h : Extends middle later)
    (seen : middle.event? requestId = some event) : later.event? requestId = some event := by
  obtain ⟨rest, same⟩ := h.events
  rw [Tables.event?] at seen
  rw [Tables.event?, ← same, List.find?_append, seen, Option.some_or]

theorem Extends.capture? {row : MemoryRow H} (h : Extends middle later)
    (logged : later.Logged) (seen : middle.capture? requestId = some row) :
    ∃ row', later.capture? requestId = some row' ∧ row'.requestHash = row.requestHash ∧
      row'.memoryKind = row.memoryKind := by
  have origin : row.origin ∈ later.records.map (·.origin) :=
    h.captures.subset (mem_map_of_mem (mem_of_find?_eq_some seen))
  obtain ⟨row', mem, same⟩ := mem_map.mp origin
  simp only [MemoryRow.origin, Prod.mk.injEq] at same
  have identifier : row.requestId = requestId := by simpa using List.find?_some seen
  refine ⟨row', ?_, same.2⟩
  apply find?_eq_some_of_unique logged.captures mem
  · simp [same.1, identifier]
  · intro other _ found
    rw [same.1, identifier]
    simpa using found

/-- An identifier recorded by another operation is not that of a record. -/
theorem Tables.Logged.capture?_eq_none {event : EventRow H}
    (logged : tables.Logged) (seen : tables.event? requestId = some event)
    (other : event.eventType ≠ .memoryCandidateCreated) : tables.capture? requestId = none := by
  cases found : tables.capture? requestId with
  | none => rfl
  | some row =>
      obtain ⟨created, mem, identifier, kind⟩ :=
        logged.captured row (mem_of_find?_eq_some found)
      have row_id : row.requestId = requestId := by simpa using List.find?_some found
      have event_id : event.requestId = requestId := by simpa using List.find?_some seen
      have same : event = created := eq_of_key_eq logged.requests
        (mem_of_find?_eq_some seen) mem (by rw [event_id, identifier, row_id])
      exact absurd (same ▸ kind) other

section Requests

variable [DecidableEq H] {request first second : MemoryRequest H} {reply : Reply H}

/-- A request that was answered has passed its checks. -/
theorem perform_checks (h : tables.perform externals request = .ok (reply, middle)) :
    tables.MayWrite request ∧ request.WellFormed externals := by
  cases request with
  | capture request provenance =>
      obtain ⟨access, fields, -⟩ := (perform_capture_iff (.ok _)).mp h
      exact ⟨access, fields⟩
  | validate request =>
      simp only [Tables.perform, validateAs, bind_eq_ok_iff, refuseWhen_eq_ok_iff] at h
      obtain ⟨_, ⟨⟨⟩, access, ⟨⟩, header, decision, decided, -, fits, -⟩, -⟩ := h
      exact ⟨access, header, ⟨decision, decided⟩, fits⟩
  | correct request =>
      simp only [Tables.perform, correctAs, bind_eq_ok_iff] at h
      obtain ⟨_, ⟨⟨⟩, access, ⟨⟩, header, -⟩, -⟩ := h
      exact ⟨access, header⟩
  | transition kind request =>
      simp only [Tables.perform, Tables.transition, bind_eq_ok_iff] at h
      obtain ⟨_, ⟨⟨⟩, access, ⟨⟩, header, -⟩, -⟩ := h
      exact ⟨access, header⟩

/-- A request that is no capture has left an event that answers it, or it was a transition with
nothing to do. -/
theorem perform_leaves_event (noCapture : request.isCapture = false)
    (h : tables.perform externals request = .ok (reply, middle)) :
    (∃ event, middle.event? request.header.requestId = some event ∧
      event.requestHash = externals.blake3 request.material ∧
      (request.replyFrom event).Repeats reply) ∨
    ∃ kind transition, request = .transition kind transition ∧ reply = .changed false ∧
      middle = tables ∧ tables.event? transition.requestId = none := by
  cases request with
  | capture request provenance => cases noCapture
  | validate request =>
      obtain ⟨revision, done, rfl⟩ := answered h fun _ _ => rfl
      left
      obtain ⟨event, seen, same, rfl, rfl⟩ | ⟨row, _, _, _, rfl, changes⟩ :=
        validateAs_ok done
      · exact ⟨event, seen, same, rfl⟩
      · obtain ⟨event, -, identifier, same, revision, -, told⟩ := changes.events
        exact ⟨event, event?_concat told identifier changes.fresh, same, revision⟩
  | correct request =>
      obtain ⟨revision, done, rfl⟩ := answered h fun _ _ => rfl
      left
      obtain ⟨event, seen, same, rfl, rfl⟩ | ⟨row, _, rfl, changes⟩ := correctAs_ok done
      · exact ⟨event, seen, same, rfl⟩
      · obtain ⟨event, -, identifier, same, revision, -, told⟩ := changes.events
        exact ⟨event, event?_concat told identifier changes.fresh, same, revision⟩
  | transition kind request =>
      obtain ⟨changed, done, rfl⟩ := answered h fun _ _ => rfl
      obtain ⟨event, seen, same, rfl, rfl⟩ |
        ⟨unseen, row, -, -, ⟨rfl, -, rfl⟩ | ⟨rfl, changes⟩⟩ := transition_ok done
      · exact .inl ⟨event, seen, same, rfl⟩
      · exact .inr ⟨kind, request, rfl, rfl, rfl, unseen⟩
      · obtain ⟨event, -, identifier, same, -, -, told⟩ := changes.events
        exact .inl ⟨event, event?_concat told identifier changes.fresh, same, rfl⟩

variable {provenance : Option (MemoryNudgeProvenance H)}

/-- A capture has left a record with the content hash it was answered with. -/
theorem capture_leaves_record {capture : CaptureRequest}
    (h : tables.perform externals (.capture capture provenance) = .ok (reply, middle)) :
    ∃ outcome row, reply = .captured outcome ∧ middle.capture? capture.requestId = some row ∧
      row.contentHash = some outcome.contentHash ∧
      row.requestHash = hashRequest externals capture.toRequestHeader capture.content ∧
      row.memoryKind = capture.memoryKind := by
  obtain ⟨outcome, done, rfl⟩ := answered h fun _ _ => rfl
  obtain ⟨row, contentHash, seen, stored, same, kind, rfl, rfl⟩ | ⟨rfl, captures⟩ :=
    capture_ok done
  · exact ⟨_, row, rfl, seen, stored, same, kind⟩
  · refine ⟨_, capture.record externals, rfl, ?_, rfl, rfl, rfl⟩
    rw [captures.result]
    have uncaptured := captures.uncaptured
    rw [Tables.capture?] at uncaptured
    simp [Tables.captured, Tables.capture?, List.find?_append, uncaptured, CaptureRequest.record]

/-! ### Repeating a request -/

theorem repeat_capture_iff {capture : CaptureRequest}
    (h : tables.perform externals (.capture capture provenance) = .ok (reply, middle))
    (grown : Extends middle later) (logged : later.Logged) :
    (∃ second, later.perform externals (.capture capture provenance) = .ok (second, later) ∧
      second.Repeats reply) ↔
      Repeatable externals middle later (.capture capture provenance) := by
  have wellFormed := (perform_checks h).2
  obtain ⟨outcome, row, rfl, seen, stored, same, kind⟩ := capture_leaves_record h
  obtain ⟨row', seen', same', kind'⟩ := grown.capture? logged seen
  have hashes : later.capturedHash capture.requestId = row'.contentHash := by
    rw [capturedHash, seen']
    rfl
  have before : middle.capturedHash capture.requestId = some outcome.contentHash := by
    rw [capturedHash, seen]
    exact stored
  simp only [perform_capture_iff (.ok _), Repeatable, hashes, before, wellFormed, true_and,
    answerCapture_seen seen', same'.trans same, kind'.trans kind, if_true]
  cases row'.contentHash with
  | none =>
      constructor
      · rintro ⟨second, ⟨-, ⟨⟩⟩, -⟩
      · rintro ⟨-, ⟨⟩⟩
  | some contentHash =>
      constructor
      · rintro ⟨second, ⟨access, ⟨⟩⟩, equal, -⟩
        exact ⟨access, congrArg some equal⟩
      · rintro ⟨access, equal⟩
        exact ⟨_, ⟨access, rfl⟩, Option.some.inj equal, rfl⟩

theorem repeat_unrecorded_iff {kind : TransitionKind} {transition : TransitionRequest}
    (h : tables.perform externals (.transition kind transition) = .ok (.changed false, tables))
    (unseen : tables.event? transition.requestId = none) :
    (∃ second, later.perform externals (.transition kind transition) = .ok (second, later) ∧
      second.Repeats (.changed false)) ↔
      Repeatable externals tables later (.transition kind transition) := by
  obtain ⟨-, wellFormed, other, -⟩ := (perform_transition_unseen_iff unseen).mp h
  have answers : (∃ second, later.perform externals (.transition kind transition) =
        .ok (second, later) ∧ second.Repeats (.changed false)) ↔
      later.perform externals (.transition kind transition) = .ok (.changed false, later) := by
    constructor
    · rintro ⟨second, answer, repeats⟩
      cases second with
      | changed flag =>
          obtain rfl : flag = false := repeats
          exact answer
      | captured _ => cases repeats
      | revised _ => cases repeats
    · exact fun answer => ⟨_, answer, rfl⟩
  rw [answers]
  cases seen : later.event? transition.requestId with
  | some event =>
      rw [perform_recorded_iff (.ok _) rfl seen]
      simp only [Repeatable, unseen, seen, wellFormed, true_and, true_implies]
      refine and_congr_right fun _ => ?_
      unfold answerFrom
      split <;> rename_i same
      · exact ⟨fun _ => same, fun _ => rfl⟩
      · exact ⟨fun failed => (by cases failed), fun equal => absurd equal same⟩
  | none =>
      rw [perform_transition_unseen_iff seen]
      simp only [Repeatable, unseen, seen, wellFormed, other, true_and, true_implies, ne_eq,
        not_false_eq_true]

/-- A request that was answered can be repeated exactly where it is repeatable. -/
theorem repeat_iff (h : tables.perform externals request = .ok (reply, middle))
    (grown : Extends middle later) (logged : later.Logged) :
    (∃ second, later.perform externals request = .ok (second, later) ∧ second.Repeats reply) ↔
      Repeatable externals middle later request := by
  have wellFormed := (perform_checks h).2
  cases noCapture : request.isCapture with
  | true =>
      cases request with
      | capture capture provenance => exact repeat_capture_iff h grown logged
      | _ => cases noCapture
  | false =>
      obtain ⟨event, seen, same, repeats⟩ | ⟨kind, transition, rfl, rfl, rfl, unseen⟩ :=
        perform_leaves_event noCapture h
      · have seen' := grown.event? seen
        have recorded : Repeatable externals middle later request ↔ later.MayWrite request := by
          refine and_iff_left ?_
          cases request with
          | capture _ _ => cases noCapture
          | validate _ => trivial
          | correct _ => trivial
          | transition kind transition =>
              intro unseen
              exact absurd (seen.symm.trans unseen) nofun
        simp only [perform_recorded_iff (.ok _) noCapture seen', wellFormed, true_and,
          answerFrom, same, if_true, recorded]
        constructor
        · rintro ⟨second, ⟨access, -⟩, -⟩
          exact access
        · exact fun access => ⟨_, ⟨access, rfl⟩, repeats⟩
      · exact repeat_unrecorded_iff h unseen

/-! ### Reusing an identifier -/

/-- A request whose answer tells of a change has left an event under its identifier, which is
that of a capture exactly where the request is one. -/
theorem tellsChange_leaves_event (h : tables.perform externals request = .ok (reply, middle))
    (told : reply.TellsChange tables request) :
    ∃ event, middle.event? request.header.requestId = some event ∧
      event.requestHash = externals.blake3 request.material ∧
      (event.eventType = .memoryCandidateCreated ↔ request.isCapture = true) := by
  obtain ⟨quiet, -⟩ | ⟨-, ⟨capture, _, rfl, captures⟩ | ⟨noCapture, row, change, changes⟩⟩ :=
    perform_ok h
  · exact absurd told quiet
  · obtain ⟨event, -, identifier, same, -, created, logs⟩ := captures.events
    refine ⟨event, event?_concat logs identifier captures.fresh, same, ?_⟩
    simp [created, MemoryRequest.isCapture]
  · obtain ⟨event, -, identifier, same, -, kind, logs⟩ := changes.events
    refine ⟨event, event?_concat logs identifier changes.fresh, same, ?_⟩
    rw [kind, noCapture]
    rcases change with _ | _ | ⟨_ | _ | _⟩ <;> simp [Change.eventType, TransitionKind.eventType]

omit [DecidableEq H] in
/-- The digests of two requests are equal exactly where their bytes are, unless they collide. -/
theorem blake3_material_eq_iff
    (noCollision : Set.InjOn externals.blake3 {first.material, second.material}) :
    externals.blake3 first.material = externals.blake3 second.material ↔
      second.material = first.material := by
  rw [eq_comm]
  exact noCollision.eq_iff (.inr rfl) (.inl rfl)

theorem reuse_capture_iff {again original : CaptureRequest}
    {provenance' : Option (MemoryNudgeProvenance H)}
    (noCollision : Set.InjOn externals.blake3
      {(MemoryRequest.capture original provenance).material,
        (MemoryRequest.capture again provenance').material})
    (h : tables.perform externals (.capture original provenance) = .ok (reply, middle))
    (grown : Extends middle later) (logged : later.Logged)
    (same : again.requestId = original.requestId) :
    later.answerCapture externals again provenance' = .error .idempotencyConflict ↔
      later.capturedHash again.requestId ≠ none ∧
        ((MemoryRequest.capture again provenance').material ≠
            (MemoryRequest.capture original provenance).material ∨
          again.memoryKind ≠ original.memoryKind) := by
  obtain ⟨outcome, row, rfl, seen, -, hash, kind⟩ := capture_leaves_record h
  obtain ⟨row', seen', hash', kind'⟩ := grown.capture? logged seen
  rw [← same] at seen'
  have stored : later.capturedHash again.requestId = row'.contentHash := by
    rw [capturedHash, seen']
    rfl
  have bytes : hashRequest externals original.toRequestHeader original.content =
        hashRequest externals again.toRequestHeader again.content ↔
      (MemoryRequest.capture again provenance').material =
        (MemoryRequest.capture original provenance).material :=
    blake3_material_eq_iff noCollision
  rw [answerCapture_seen seen', stored, hash', hash, kind', kind, ← not_and_or, ← bytes,
    @eq_comm _ again.memoryKind]
  cases row'.contentHash with
  | none => simp
  | some contentHash =>
      dsimp only
      split
      · exact ⟨nofun, fun differs => absurd ‹_› differs.2⟩
      · exact ⟨fun _ => ⟨nofun, ‹_›⟩, fun _ => rfl⟩

/-- A request under a recorded identifier is refused as a conflict exactly where it is
refusable. -/
theorem reuse_iff
    (noCollision : Set.InjOn externals.blake3 {first.material, second.material})
    (h : tables.perform externals first = .ok (reply, middle))
    (told : reply.TellsChange tables first) (grown : Extends middle later)
    (logged : later.Logged) (same : second.header.requestId = first.header.requestId) :
    later.perform externals second = .error .idempotencyConflict ↔
      Refusable externals later first second := by
  obtain ⟨event, seen, hash, kind⟩ := tellsChange_leaves_event h told
  have seen' : later.event? second.header.requestId = some event := by
    rw [same]
    exact grown.event? seen
  have bytes : event.requestHash = externals.blake3 second.material ↔
      second.material = first.material := by
    rw [hash, blake3_material_eq_iff noCollision]
  have recorded : second.isCapture = false →
      (later.perform externals second = .error .idempotencyConflict ↔
        later.MayWrite second ∧ second.WellFormed externals ∧
          second.material ≠ first.material) := by
    intro noCapture
    rw [perform_recorded_iff .conflict noCapture seen']
    refine and_congr_right fun _ => and_congr_right fun _ => ?_
    rw [Ne, ← bytes, answerFrom]
    split <;> simp_all
  cases second with
  | validate _ => exact recorded rfl
  | correct _ => exact recorded rfl
  | transition _ _ => exact recorded rfl
  | capture again provenance =>
      rw [perform_capture_iff .conflict]
      refine and_congr_right fun _ => and_congr_right fun _ => ?_
      have refused : (later.answerCapture externals again provenance >>= fun answer =>
            .ok (.captured answer.1, answer.2)) =
            (.error .idempotencyConflict : Except _ (Reply H × Tables H)) ↔
          later.answerCapture externals again provenance = .error .idempotencyConflict := by
        simp [bind_eq_error_iff]
      rw [refused]
      have elsewhere : first.isCapture = false →
          later.answerCapture externals again provenance ≠ .error .idempotencyConflict := by
        intro noCapture
        have other : event.eventType ≠ .memoryCandidateCreated := by simp [kind, noCapture]
        exact answerCapture_unseen (logged.capture?_eq_none seen' other)
      cases first with
      | capture original provenance' => exact reuse_capture_iff noCollision h grown logged same
      | validate _ => exact iff_of_false (elsewhere rfl) not_false
      | correct _ => exact iff_of_false (elsewhere rfl) not_false
      | transition _ _ => exact iff_of_false (elsewhere rfl) not_false

/-- Repeated and reused requests in every history. A request that was answered can be repeated at
a later point exactly where it is repeatable, and a request under an identifier that it has
recorded is refused as a conflict, and changes nothing, exactly where it is refusable, unless
the bytes of the two collide. -/
theorem repeats_and_conflicts_iff (externals : Externals H) (before : List (MemoryOp H))
    (first : MemoryRequest H) (reply : Reply H) (middle : Tables H)
    (answered : (run (Tables.step externals) Tables.empty before).perform externals first =
      .ok (reply, middle))
    (between : List (MemoryOp H)) :
    let later := run (Tables.step externals) middle between
    ((∃ second, later.perform externals first = .ok (second, later) ∧ second.Repeats reply) ↔
      Repeatable externals middle later first) ∧
    (reply.TellsChange (run (Tables.step externals) Tables.empty before) first →
      ∀ second : MemoryRequest H, second.header.requestId = first.header.requestId →
        Set.InjOn externals.blake3 {first.material, second.material} →
        (later.perform externals second = .error .idempotencyConflict ∧
            later.step externals (.request second) = later ↔
          Refusable externals later first second)) := by
  intro later
  have start := (run_logged externals before logged_empty).2
  have reached : (run (Tables.step externals) Tables.empty before).step externals
      (.request first) = middle := by
    rw [Tables.step, answered]
    rfl
  have logged : middle.Logged := reached ▸ (step_logged externals (.request first) start).2
  obtain ⟨grown, logged⟩ := run_logged externals between logged
  refine ⟨repeat_iff answered grown logged, ?_⟩
  intro told second same noCollision
  rw [← reuse_iff noCollision answered told grown logged same]
  refine and_iff_left_of_imp ?_
  intro refused
  rw [Tables.step, refused]
  rfl

end Requests

/-! A capture repeated after its memory has been accepted, and after it has been purged. -/

def teaCaptured : Tables Hash :=
  run (Tables.step teaExternals) Tables.empty [captureTea]

def teaAccepted : Tables Hash :=
  run (Tables.step teaExternals) teaCaptured [acceptTea]

def teaOutcome : MemoryCaptureOutcome Hash :=
  ⟨hashContent teaExternals 1 "owner-a" "USER_PRIVATE" "prefers tea", true, false⟩

theorem teaRequests_apart : Set.InjOn teaExternals.blake3
    {captureTeaRequest.material, (correctTeaRequest "prefers coffee").material} := by
  have differ : teaExternals.blake3 captureTeaRequest.material ≠
      teaExternals.blake3 (correctTeaRequest "prefers coffee").material := by decide +kernel
  exact Set.injOn_pair.mpr fun same => absurd same differ

/-- The capture of an accepted memory can be repeated, and a correction under its identifier with
another text is refused. -/
theorem accepted_capture_repeats :
    (∃ second, teaAccepted.perform teaExternals captureTeaRequest = .ok (second, teaAccepted) ∧
      second.Repeats (.captured teaOutcome)) ∧
    teaAccepted.perform teaExternals (correctTeaRequest "prefers coffee") =
      .error .idempotencyConflict := by
  obtain ⟨repeats, conflicts⟩ := repeats_and_conflicts_iff teaExternals [] captureTeaRequest
    (.captured teaOutcome) teaCaptured (by decide +kernel) [acceptTea]
  have refused := conflicts rfl (correctTeaRequest "prefers coffee") rfl teaRequests_apart
  constructor
  · refine repeats.mpr ⟨by unfold Tables.MayWrite; decide +kernel, ?_⟩
    show teaAccepted.capturedHash 1 = teaCaptured.capturedHash 1
    decide +kernel
  · refine (refused.mpr ⟨by unfold Tables.MayWrite; decide +kernel, ?_, ?_⟩).1
    · show validateHeader _ _ _ = .ok ()
      decide +kernel
    · show (correctTeaRequest "prefers coffee").material ≠ captureTeaRequest.material
      decide +kernel

theorem purged_capture_fails_and_correction_replays_capture :
    Tables.empty.perform teaExternals captureTeaRequest =
        .ok (.captured teaOutcome, teaCaptured) ∧
      (run (Tables.step teaExternals) teaCaptured [purgeTea]).perform teaExternals
        captureTeaRequest = .error (.sqlite .invalidColumnType) ∧
      teaCaptured.perform teaExternals (correctTeaRequest "prefers tea") =
        .ok (.revised 1, teaCaptured) := by
  decide +kernel

end Aegis.MemoryStore
