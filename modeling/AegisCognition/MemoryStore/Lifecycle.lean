import AegisCognition.MemoryStore.History
import AegisCognition.Replay.Event

/-!
# The lifecycle of memories

A memory has one event for each of its revisions, a text until it is purged, an index row while
it can be found, and file relations only while it is live. Once purged it never changes again;
of its texts only the evidence of the last decision about it is left.
-/

namespace Aegis.MemoryStore

open Foundation MemoryRow Validation Replay List

variable {H : Type} {externals : Externals H}

namespace MemoryHistory

/-- What holds of a memory with its rows in the other tables. -/
structure Kept (externals : Externals H) (history : MemoryHistory H) (row : MemoryRow H) :
    Prop where
  revisions : history.events.map (·.revision) = List.range' 1 row.revision
  content : row.content = none ↔ row.lifecycle = .purged
  hash : row.contentHash =
    row.content.map (hashContent externals row.memoryId row.ownerId row.scopeKind)
  active : row.lifecycle = .active → row.validation = .accepted
  candidate : row.lifecycle = .candidate → row.validation ≠ .accepted
  basis : row.validationBasis.isSome = true ↔ row.validation = .accepted
  reason : row.validationReason.isSome = true ↔
    row.validation = .rejected ∨ row.validation = .quarantined
  purged : row.lifecycle = .purged → history.revisions = []
  inScope : ∀ relation ∈ history.relations,
    relation.ownerId = row.ownerId ∧ relation.scopeKind = row.scopeKind
  unlinked : row.lifecycle.isLive = false → history.relations = []
  indexed : history.indexed = row.indexRows

/-- A memory that has not been captured has no rows anywhere. -/
structure Absent (history : MemoryHistory H) : Prop where
  events : history.events = []
  relations : history.relations = []
  indexed : history.indexed = []

def Sound (externals : Externals H) (history : MemoryHistory H) : Prop :=
  history.record.elim history.Absent (history.Kept externals)

variable {history next : MemoryHistory H} {row : MemoryRow H}

theorem Sound.kept (h : history.Sound externals) (found : history.record = some row) :
    history.Kept externals row := by
  rwa [Sound, found] at h

theorem Sound.absent (h : history.Sound externals) (unknown : history.record = none) :
    history.Absent := by
  rwa [Sound, unknown] at h

/-- A memory that is captured starts as a candidate that nobody has reviewed. -/
theorem Absent.capture (h : history.Absent) (request : CaptureRequest)
    {revisions : List (RevisionRow H)} {event : EventRow H} (first : event.revision = 1) :
    Kept externals
      { record := some (request.record externals), revisions
        events := history.events ++ [event], relations := history.relations
        indexed := (request.record externals).indexRows }
      (request.record externals) where
  revisions := by simp [h.events, first, CaptureRequest.record]
  content := by simp [CaptureRequest.record]
  hash := rfl
  active := nofun
  candidate _ := by simp [CaptureRequest.record]
  basis := by simp [CaptureRequest.record]
  reason := by simp [CaptureRequest.record]
  purged := nofun
  inScope := by simp [h.relations]
  unlinked := nofun
  indexed := rfl

/-- The relations of a memory that a change which erases them leaves: none. -/
theorem Kept.filter_relations (h : history.Kept externals row) :
    (history.relations.filter fun relation =>
      !(relation.ownerId == row.ownerId && relation.scopeKind == row.scopeKind)) = [] := by
  rw [filter_eq_nil_iff]
  intro relation mem
  simp [h.inScope relation mem]

/-- A record that a permitted change has written is consistent in itself. -/
theorem Kept.assigned (h : history.Kept externals row) {change : Change}
    (permitted : change.Permits row) (atMs : Nat) :
    let after := change.next externals row atMs
    (after.content = none ↔ after.lifecycle = .purged) ∧
    after.contentHash =
      after.content.map (hashContent externals after.memoryId after.ownerId after.scopeKind) ∧
    (after.lifecycle = .active → after.validation = .accepted) ∧
    (after.lifecycle = .candidate → after.validation ≠ .accepted) ∧
    (after.validationBasis.isSome = true ↔ after.validation = .accepted) ∧
    (after.validationReason.isSome = true ↔
      after.validation = .rejected ∨ after.validation = .quarantined) := by
  have live_content : row.lifecycle.isLive = true → row.content ≠ none := by
    intro live gone
    rw [h.content.mp gone] at live
    cases live
  cases change with
  | validate decision basis reason =>
      obtain ⟨live, decided, has_basis, has_reason⟩ := permitted
      have content := live_content live
      refine ⟨?_, h.hash, ?_⟩
      · cases decision <;>
          simp [Change.next, Change.assign, nextLifecycle, content]
      · cases decision <;>
          simp_all [Change.next, Change.assign, nextLifecycle]
  | correct content =>
      simp [Change.next, Change.assign]
  | transition kind =>
      cases kind with
      | forget =>
          have content := live_content permitted
          refine ⟨?_, h.hash, ?_, ?_, h.basis, h.reason⟩ <;>
            simp [Change.next, Change.assign, TransitionKind.assign, content]
      | restore =>
          have content : row.content ≠ none := by
            intro gone
            have purged := h.content.mp gone
            rw [show row.lifecycle = .tombstoned from permitted] at purged
            cases purged
          refine ⟨?_, h.hash, ?_, ?_⟩ <;>
            simp [Change.next, Change.assign, TransitionKind.assign, content]
      | purge =>
          refine ⟨?_, rfl, ?_, ?_, h.basis, h.reason⟩ <;>
            simp [Change.next, Change.assign, TransitionKind.assign]

theorem next_revision (change : Change) (externals : Externals H) (row : MemoryRow H)
    (atMs : Nat) : (change.next externals row atMs).revision = row.revision + 1 := by
  simp [Change.next]

theorem purged_next_iff {change : Change} (permitted : change.Permits row) (atMs : Nat) :
    (change.next externals row atMs).lifecycle = .purged ↔ change = .transition .purge := by
  rcases change with ⟨_ | _ | _ | _, _, _⟩ | _ | ⟨_ | _ | _⟩ <;>
    simp [Change.next, Change.assign, TransitionKind.assign, nextLifecycle]

theorem live_next {change : Change} (atMs : Nat)
    (h : (change.next externals row atMs).lifecycle.isLive = false) : change.unlinks = true := by
  rcases change with ⟨_ | _ | _ | _, _, _⟩ | _ | ⟨_ | _ | _⟩ <;>
    simp_all [Change.next, Change.assign, TransitionKind.assign, nextLifecycle,
      Lifecycle.isLive, Change.unlinks]

/-- A permitted change keeps a memory and its rows in order. -/
theorem Kept.change (h : history.Kept externals row) {change : Change}
    (permitted : change.Permits row) {event : EventRow H} {requestId : Id} {atMs : Nat}
    (next : event.revision = row.revision + 1) :
    Kept externals
      { record := some (change.next externals row atMs)
        revisions := change.kept externals row requestId atMs history.revisions
        events := history.events ++ [event]
        relations := if change.unlinks then
            history.relations.filter fun relation =>
              !(relation.ownerId == row.ownerId && relation.scopeKind == row.scopeKind)
          else history.relations
        indexed := (change.next externals row atMs).indexRows }
      (change.next externals row atMs) := by
  obtain ⟨content, hash, active, candidate, basis, reason⟩ := h.assigned permitted atMs
  refine ⟨?_, content, hash, active, candidate, basis, reason, ?_, ?_, ?_, rfl⟩
  · rw [map_append, h.revisions, next_revision, range'_1_concat]
    simp [next, Nat.add_comm]
  · intro purged
    rw [(purged_next_iff permitted atMs).mp purged]
    rfl
  · simp only [h.filter_relations, Change.next, assign_keeps]
    split
    · intro _ mem
      cases mem
    · exact h.inScope
  · intro gone
    rw [live_next atMs gone, if_pos rfl, h.filter_relations]

/-- Every step in the life of a memory keeps it in order. -/
theorem Step.sound (step : Step externals history next) (h : history.Sound externals) :
    next.Sound externals := by
  cases step with
  | stay => exact h
  | reindex =>
      cases found : history.record with
      | none =>
          have absent := h.absent found
          simp only [Sound, Option.elim]
          exact ⟨absent.events, absent.relations, rfl⟩
      | some row =>
          simp only [Sound, Option.elim]
          exact { h.kept found with indexed := rfl }
  | link found accepts =>
      have kept := h.kept found
      simp only [Sound, found, Option.elim]
      refine { kept with inScope := ?_, unlinked := ?_ }
      · intro other mem
        rw [mem_append, mem_singleton] at mem
        obtain old | rfl := mem
        · exact kept.inScope other old
        · exact ⟨accepts.owner, accepts.scope⟩
      · rw [accepts.live]
        nofun
  | unlink fewer =>
      cases found : history.record with
      | none =>
          have absent := h.absent found
          simp only [Sound, Option.elim]
          refine ⟨absent.events, ?_, absent.indexed⟩
          exact sublist_nil.mp (absent.relations ▸ fewer)
      | some row =>
          have kept := h.kept found
          simp only [Sound, Option.elim]
          refine { kept with inScope := ?_, unlinked := ?_ }
          · exact fun relation mem => kept.inScope relation (fewer.subset mem)
          · exact fun gone => sublist_nil.mp (kept.unlinked gone ▸ fewer)
  | capture request unknown first => exact (h.absent unknown).capture request first
  | change change found permitted next => exact (h.kept found).change permitted next

/-- The revision of the memory, zero before it is captured. -/
def revision (history : MemoryHistory H) : Nat :=
  history.record.elim 0 (·.revision)

/-- A step leaves the record and the events of a memory alone, or moves it to its next revision
with one event. -/
theorem Step.revision (step : Step externals history next) :
    next.record = history.record ∧ next.events = history.events ∨
      next.revision = history.revision + 1 ∧
        ∃ event : EventRow H, event.revision = next.revision ∧
          next.events = history.events ++ [event] := by
  cases step with
  | stay => exact .inl ⟨rfl, rfl⟩
  | reindex => exact .inl ⟨rfl, rfl⟩
  | link found accepts => exact .inl ⟨rfl, rfl⟩
  | unlink fewer => exact .inl ⟨rfl, rfl⟩
  | capture request unknown first =>
      refine .inr ⟨?_, _, first, rfl⟩
      simp only [MemoryHistory.revision, unknown]
      rfl
  | change change found permitted next =>
      refine .inr ⟨?_, _, ?_, rfl⟩
      · simp [MemoryHistory.revision, found, next_revision]
      · simp [MemoryHistory.revision, next_revision, next]

/-- Nothing is permitted to a purged memory. -/
theorem Step.purged (step : Step externals history next) (found : history.record = some row)
    (gone : row.lifecycle = .purged) : next.record = some row := by
  cases step with
  | stay => exact found
  | reindex => exact found
  | link _ _ => exact found
  | unlink _ => exact found
  | capture request unknown first => simp [found] at unknown
  | change change here permitted next =>
      obtain rfl := Option.some.inj (found.symm.trans here)
      rcases change with _ | _ | ⟨_ | _ | _⟩ <;>
        simp [Change.Permits, gone, Lifecycle.isLive] at permitted

end MemoryHistory

/-! ### Every reachable database -/

/-- The texts of a memory that the tables hold. -/
def Tables.texts (tables : Tables H) (memoryId : Id) : List String :=
  (tables.record? memoryId).elim [] (fun row =>
      row.content.toList ++ row.validationBasis.toList ++ row.validationReason.toList) ++
    (tables.revisions.filter (·.memoryId == memoryId)).map (·.content) ++
    (tables.indexed.filter (·.memoryId == memoryId)).map (·.content) ++
    (tables.relations.filter (·.memoryId == memoryId)).flatMap fun relation =>
      [relation.projectId, relation.relativePath, relation.sourceRevision]

structure Tables.Sound (externals : Externals H) (tables : Tables H) : Prop where
  keyed : tables.Keyed
  histories : ∀ memoryId, (tables.history memoryId).Sound externals

/-- What the store promises about a memory and its rows in the other tables. -/
structure InOrder (externals : Externals H) (tables : Tables H) (row : MemoryRow H) : Prop where
  events : (tables.events.filter (·.memoryId == row.memoryId)).map (·.revision) =
    List.range' 1 row.revision
  content : row.content = none ↔ row.lifecycle = .purged
  hash : ∀ content, row.content = some content → row.contentHash =
    some (hashContent externals row.memoryId row.ownerId row.scopeKind content)
  active : row.lifecycle = .active → row.validation = .accepted
  candidate : row.lifecycle = .candidate → row.validation ≠ .accepted
  /-- Of a purged memory the evidence of the last decision is the only text left. -/
  purged : row.lifecycle = .purged → row.contentHash = none ∧
    tables.texts row.memoryId = row.validationBasis.toList ++ row.validationReason.toList
  /-- The index has one row, with the current text, for a memory that can be found. -/
  found : row.lifecycle.isLive = true → row.validation.isSearchable = true →
    ∃ content, row.content = some content ∧
      tables.indexed.filter (·.memoryId == row.memoryId) =
        [⟨row.memoryId, row.ownerId, row.scopeKind, content⟩]
  hidden : ¬ (row.lifecycle.isLive = true ∧ row.validation.isSearchable = true) →
    tables.indexed.filter (·.memoryId == row.memoryId) = []
  unlinked : row.lifecycle.isLive = false →
    ∀ relation ∈ tables.relations, relation.memoryId ≠ row.memoryId

variable {tables : Tables H} {row : MemoryRow H}

namespace Tables.Sound

theorem kept (sound : tables.Sound externals) (mem : row ∈ tables.records) :
    (tables.history row.memoryId).Kept externals row :=
  (sound.histories row.memoryId).kept (sound.keyed.record?_of_mem mem)

theorem record_of_ne_nil (sound : tables.Sound externals) {memoryId : Id}
    (rows : (tables.history memoryId).relations ≠ [] ∨ (tables.history memoryId).indexed ≠ []) :
    ∃ row ∈ tables.records, row.memoryId = memoryId := by
  cases found : tables.record? memoryId with
  | none =>
      have absent := (sound.histories memoryId).absent found
      simp [absent.relations, absent.indexed] at rows
  | some row => exact ⟨row, record?_eq_some found⟩

theorem inOrder (sound : tables.Sound externals) (mem : row ∈ tables.records) :
    InOrder externals tables row := by
  have kept := sound.kept mem
  have indexed : tables.indexed.filter (·.memoryId == row.memoryId) = row.indexRows :=
    kept.indexed
  refine ⟨kept.revisions, kept.content, ?_, kept.active, kept.candidate, ?_, ?_, ?_, ?_⟩
  · intro content has
    rw [kept.hash, has, Option.map_some]
  · intro purged
    have erased := kept.content.mpr purged
    have dead : row.lifecycle.isLive = false := by rw [purged]; rfl
    have revisions : tables.revisions.filter (·.memoryId == row.memoryId) = [] :=
      kept.purged purged
    have relations : tables.relations.filter (·.memoryId == row.memoryId) = [] :=
      kept.unlinked dead
    refine ⟨by rw [kept.hash, erased]; rfl, ?_⟩
    simp [texts, sound.keyed.record?_of_mem mem, revisions, relations, indexed, erased, dead,
      indexRows]
  · intro live searchable
    have content : row.content ≠ none := by
      intro gone
      rw [kept.content.mp gone] at live
      cases live
    obtain ⟨content, has⟩ := Option.ne_none_iff_exists'.mp content
    refine ⟨content, has, ?_⟩
    rw [indexed, indexRows, live, searchable, has]
    rfl
  · intro hidden
    rw [indexed, indexRows, if_neg]
    simpa using hidden
  · intro dead relation here same
    have none_left := kept.unlinked dead
    have mem : relation ∈ (tables.history row.memoryId).relations :=
      mem_filter.mpr ⟨here, by simpa using same⟩
    rw [none_left] at mem
    cases mem

variable [DecidableEq H]

theorem step (sound : tables.Sound externals) (op : MemoryOp H) :
    (tables.step externals op).Sound externals where
  keyed := step_keyed op sound.keyed
  histories memoryId := (step_history sound.keyed op memoryId).sound (sound.histories memoryId)

end Tables.Sound

theorem Tables.sound_empty : (Tables.empty : Tables H).Sound externals where
  keyed := ⟨nodup_nil, nodup_nil⟩
  histories _ := ⟨rfl, rfl, rfl⟩

variable [DecidableEq H]

/-- A request whose answer tells of a change has moved its memory to the next revision. -/
theorem revision_of_tellsChange (keyed : tables.Keyed) {request : MemoryRequest H}
    {reply : Reply H} {after : Tables H}
    (done : tables.perform externals request = .ok (reply, after)) :
    (reply.TellsChange tables request → (after.history request.header.memoryId).revision =
      (tables.history request.header.memoryId).revision + 1) ∧
    (¬ reply.TellsChange tables request → after = tables) := by
  obtain ⟨quiet, same⟩ | ⟨told, ⟨capture, _, rfl, captures⟩ | ⟨-, row, _, changes⟩⟩ :=
    perform_ok done
  · exact ⟨fun told => absurd told quiet, fun _ => same⟩
  · refine ⟨fun _ => ?_, fun quiet => absurd told quiet⟩
    have captured := captures.record? capture.memoryId
    simp [MemoryHistory.revision, Tables.history, MemoryRequest.header, captured,
      captures.unknown, CaptureRequest.record]
  · refine ⟨fun _ => ?_, fun quiet => absurd told quiet⟩
    have changed := changes.record? keyed request.header.memoryId
    simp [MemoryHistory.revision, Tables.history, changed, keyed.record?_of_scoped changes.found,
      MemoryHistory.next_revision]

/-- What one call does to the revisions: each memory stays as it is or moves to its next
revision with one event, and the memory of a request moves exactly where the answer tells of a
change. -/
structure Advances (externals : Externals H) (tables : Tables H) (op : MemoryOp H) : Prop where
  memories : ∀ memoryId,
    let before := tables.history memoryId
    let after := (tables.step externals op).history memoryId
    after.record = before.record ∧ after.events = before.events ∨
      after.revision = before.revision + 1 ∧
        ∃ event : EventRow H, event.revision = after.revision ∧
          after.events = before.events ++ [event]
  requests : ∀ request reply after, op = .request request →
    tables.perform externals request = .ok (reply, after) →
    (reply.TellsChange tables request → (after.history request.header.memoryId).revision =
      (tables.history request.header.memoryId).revision + 1) ∧
    (¬ reply.TellsChange tables request → after = tables)

theorem run_sound (externals : Externals H) (ops : List (MemoryOp H)) :
    (run (Tables.step externals) Tables.empty ops).Sound externals :=
  run_invariant (fun _ op sound => sound.step op) ops Tables.sound_empty

theorem run_keeps_purged (sound : tables.Sound externals) (ops : List (MemoryOp H))
    (mem : row ∈ tables.records) (purged : row.lifecycle = .purged) :
    row ∈ (run (Tables.step externals) tables ops).records := by
  induction ops generalizing tables with
  | nil => exact mem
  | cons op ops ih =>
      have found : (tables.history row.memoryId).record = some row :=
        sound.keyed.record?_of_mem mem
      have stays : (tables.step externals op).record? row.memoryId = some row :=
        (step_history sound.keyed op row.memoryId).purged found purged
      exact ih (sound.step op) (record?_eq_some stays).1

/-- The lifecycle of memories over every run from an empty database, failed calls and reopenings
included. -/
theorem run_keeps_memories_in_order (externals : Externals H) (ops : List (MemoryOp H)) :
    let tables := run (Tables.step externals) Tables.empty ops
    ((tables.records.map (·.memoryId)).Nodup ∧
      (∀ row ∈ tables.records, InOrder externals tables row) ∧
      (∀ indexRow ∈ tables.indexed,
        ∃ row ∈ tables.records, row.memoryId = indexRow.memoryId) ∧
      ∀ relation ∈ tables.relations,
        ∃ row ∈ tables.records, row.memoryId = relation.memoryId) ∧
    (∀ before op after, ops = before ++ op :: after →
      Advances externals (run (Tables.step externals) Tables.empty before) op) ∧
    ∀ before after, ops = before ++ after →
      ∀ row ∈ (run (Tables.step externals) Tables.empty before).records,
        row.lifecycle = .purged → row ∈ tables.records := by
  intro tables
  have sound : tables.Sound externals := run_sound externals ops
  refine ⟨⟨sound.keyed.memories, fun row => sound.inOrder, ?_, ?_⟩, ?_, ?_⟩
  · intro indexRow mem
    apply sound.record_of_ne_nil
    exact .inr (ne_nil_of_mem (mem_filter.mpr ⟨mem, beq_self_eq_true _⟩))
  · intro relation mem
    apply sound.record_of_ne_nil
    exact .inl (ne_nil_of_mem (mem_filter.mpr ⟨mem, beq_self_eq_true _⟩))
  · rintro before op after -
    have earlier := run_sound externals before
    refine ⟨fun memoryId => (step_history earlier.keyed op memoryId).revision, ?_⟩
    rintro request reply result - done
    exact revision_of_tellsChange earlier.keyed done
  · rintro before after rfl row mem purged
    have kept := run_keeps_purged (run_sound externals before) after mem purged
    rwa [← run_append] at kept

/-! A memory accepted on the strength of its own text. -/

def teaHeader (requestId : Id) : RequestHeader :=
  { subjectId := "owner-a", ownerId := "owner-a", scopeKind := "USER_PRIVATE", memoryId := 1
    requestId, observedAtMs := 1 }

def captureTeaRequest : MemoryRequest Hash :=
  .capture { teaHeader 1 with memoryKind := defaultMemoryKind, content := "prefers tea" } none

def acceptTeaRequest : MemoryRequest Hash :=
  .validate
    { teaHeader 2 with
      validation := "ACCEPTED", basis := some "prefers tea", reason := none
      expectedRevision := 1 }

def purgeTeaRequest : MemoryRequest Hash :=
  .transition .purge { teaHeader 3 with expectedRevision := none }

/-- A correction under the identifier of the capture. -/
def correctTeaRequest (content : String) : MemoryRequest Hash :=
  .correct { teaHeader 1 with content, expectedRevision := 1 }

/-- BLAKE3 on what these requests are hashed from. -/
def teaExternals : Externals Hash where
  blake3 := Hasher.ofTable
    [(contentMaterial 1 "owner-a" "USER_PRIVATE" "prefers tea",
        .ofNat 0x781e152e6856f7c72f172bcc23712f3e672c74dcd75364aee02ef51cf0a770c3),
      (captureTeaRequest.material,
        .ofNat 0x703a31a06cd59a5e51e32d18156a6b77c4f1d4818534bd005818f693b3b9a0ff),
      (acceptTeaRequest.material,
        .ofNat 0xd7c1b9018c41bf2fcc89aec898590492b5a85ceff285acb65db55e4fe0b35695),
      (purgeTeaRequest.material,
        .ofNat 0x4c8da35da955c69d36d15b87090747666bc3878d62bddcc298bb2fb698fe655c),
      ((correctTeaRequest "prefers coffee").material,
        .ofNat 0xcb9bd215ad07858738ba0f12665cb998c8a1b57a0918ec0a99ba07544fd78955)]
  zeroHash := .zero

def captureTea : MemoryOp Hash := .request captureTeaRequest

def acceptTea : MemoryOp Hash := .request acceptTeaRequest

def purgeTea : MemoryOp Hash := .request purgeTeaRequest

/-- Purging leaves the evidence of the decision, here the very text of the memory. -/
theorem purged_memory_keeps_its_text :
    let captured := run (Tables.step teaExternals) Tables.empty [captureTea]
    let purged := run (Tables.step teaExternals) Tables.empty [captureTea, acceptTea, purgeTea]
    (captured.record? 1).bind (·.content) = some "prefers tea" ∧
      (purged.record? 1).map (·.lifecycle) = some .purged ∧
      "prefers tea" ∈ purged.texts 1 := by
  decide +kernel

end Aegis.MemoryStore
