import AegisCognition.MemoryStore.Transition

/-!
# The life of one memory

The rows of one memory in all the tables make up its history. A memory is captured once and
then changes one revision at a time; everything else only links files to it, removes such links
or writes its rows of the text index again. The tables refine this life: each call is one step
in the life of every memory.
-/

namespace Aegis.MemoryStore

open Foundation MemoryRow Tables List

variable {H : Type} {externals : Externals H}

structure MemoryHistory (H : Type) where
  record : Option (MemoryRow H)
  revisions : List (RevisionRow H)
  events : List (EventRow H)
  relations : List (FileRelationRow H)
  indexed : List IndexRow

/-- The rows of a memory in the tables. -/
def Tables.history (tables : Tables H) (memoryId : Id) : MemoryHistory H where
  record := tables.record? memoryId
  revisions := tables.revisions.filter (·.memoryId == memoryId)
  events := tables.events.filter (·.memoryId == memoryId)
  relations := tables.relations.filter (·.memoryId == memoryId)
  indexed := tables.indexed.filter (·.memoryId == memoryId)

/-- The change erases the file relations of the memory. -/
def Change.unlinks : Change → Bool
  | .transition .forget | .transition .purge => true
  | _ => false

/-- The revisions of a memory once a change has been made. -/
def Change.kept (change : Change) (externals : Externals H) (row : MemoryRow H)
    (requestId : Id) (atMs : Nat) (revisions : List (RevisionRow H)) : List (RevisionRow H) :=
  match change with
  | .correct content => revisions ++
      [{ memoryId := row.memoryId, revision := row.revision + 1
         contentHash := hashContent externals row.memoryId row.ownerId row.scopeKind content
         content, createdAtMs := atMs, requestId }]
  | .transition .purge => []
  | _ => revisions

namespace MemoryHistory

/-- A relation may be added to the memory: it can be found and the relation is within its
scope. -/
structure Accepts (row : MemoryRow H) (relation : FileRelationRow H) : Prop where
  live : row.lifecycle.isLive = true
  owner : relation.ownerId = row.ownerId
  scope : relation.scopeKind = row.scopeKind

/-- One call in the life of a memory. -/
inductive Step (externals : Externals H) : MemoryHistory H → MemoryHistory H → Prop
  | stay {history} : Step externals history history
  | reindex {history} :
      Step externals history
        { history with indexed := history.record.elim [] indexRows }
  | link {history row relation} (found : history.record = some row)
      (accepts : Accepts row relation) :
      Step externals history { history with relations := history.relations ++ [relation] }
  | unlink {history relations} (fewer : relations.Sublist history.relations) :
      Step externals history { history with relations }
  | capture {history} (request : CaptureRequest) (unknown : history.record = none) {revisions}
      {event : EventRow H} (first : event.revision = 1) :
      Step externals history
        { record := some (request.record externals), revisions
          events := history.events ++ [event], relations := history.relations
          indexed := (request.record externals).indexRows }
  | change {history row} (change : Change) (found : history.record = some row)
      (permitted : change.Permits row) {event : EventRow H} {requestId : Id} {atMs : Nat}
      (next : event.revision = row.revision + 1) :
      Step externals history
        { record := some (change.next externals row atMs)
          revisions := change.kept externals row requestId atMs history.revisions
          events := history.events ++ [event]
          relations := if change.unlinks then
              history.relations.filter fun relation =>
                !(relation.ownerId == row.ownerId && relation.scopeKind == row.scopeKind)
            else history.relations
          indexed := (change.next externals row atMs).indexRows }

end MemoryHistory

/-! ### The tables refine it -/

/-- The keys of the tables of records that an insertion checks. -/
structure Tables.Keyed (tables : Tables H) : Prop where
  memories : (tables.records.map (·.memoryId)).Nodup
  captures : (tables.records.map (·.requestId)).Nodup

variable {tables after : Tables H} {header : RequestHeader} {row : MemoryRow H} {memoryId : Id}
variable {change : Change} {requestHash : H}

section Rows

variable (change : Change) (row : MemoryRow H) (externals : Externals H)

/-- The fields of a record that no change writes. -/
@[simp] theorem assign_keeps :
    (change.assign externals row).memoryId = row.memoryId ∧
    (change.assign externals row).requestId = row.requestId ∧
    (change.assign externals row).requestHash = row.requestHash ∧
    (change.assign externals row).memoryKind = row.memoryKind ∧
    (change.assign externals row).ownerId = row.ownerId ∧
    (change.assign externals row).scopeKind = row.scopeKind ∧
    (change.assign externals row).revision = row.revision := by
  rcases change with _ | _ | ⟨_ | _ | _⟩ <;> simp [Change.assign, TransitionKind.assign]

end Rows

theorem record?_eq_some (h : tables.record? memoryId = some row) :
    row ∈ tables.records ∧ row.memoryId = memoryId :=
  ⟨mem_of_find?_eq_some h, by simpa using List.find?_some h⟩

theorem Tables.Keyed.record?_of_mem (keyed : tables.Keyed) (mem : row ∈ tables.records) :
    tables.record? row.memoryId = some row :=
  find?_eq_some_of_unique keyed.memories mem (by simp) fun other _ same => by simpa using same

theorem Tables.Keyed.record?_of_scoped (keyed : tables.Keyed) {access : Access}
    (h : tables.scopedRecord? access memoryId = some row) :
    tables.record? memoryId = some row := by
  rw [← (scopedRecord?_eq_some h).1]
  exact keyed.record?_of_mem (mem_of_find?_eq_some h)

theorem memoryId_of_mem_indexRows {indexRow : IndexRow} (h : indexRow ∈ row.indexRows) :
    indexRow.memoryId = row.memoryId := by
  unfold indexRows at h
  split at h
  · obtain ⟨content, -, rfl⟩ := Option.map_eq_some_iff.mp (Option.mem_toList.mp h)
    rfl
  · cases h

theorem filter_indexRows (row : MemoryRow H) (memoryId : Id) :
    row.indexRows.filter (·.memoryId == memoryId) =
      if row.memoryId = memoryId then row.indexRows else [] := by
  split
  · rename_i same
    rw [filter_eq_self]
    intro indexRow mem
    simp [memoryId_of_mem_indexRows mem, same]
  · rename_i different
    rw [filter_eq_nil_iff]
    intro indexRow mem
    simp [memoryId_of_mem_indexRows mem, different]

/-- The rows that one memory is deleted from, as another memory sees them. -/
theorem filter_filter_ne {α : Type} {key : α → Id} (rows : List α) (memoryId other : Id) :
    (rows.filter fun row => key row != memoryId).filter (key · == other) =
      if other = memoryId then [] else rows.filter (key · == other) := by
  rw [filter_filter]
  split
  · rename_i same
    rw [filter_eq_nil_iff]
    simp [same]
  · rename_i different
    apply filter_congr
    intro row _
    by_cases here : key row = other <;> simp [here, different]

/-- The index rows of the memories once those of one have been written again. -/
theorem filter_reindexed (tables : Tables H) (memoryId other : Id) :
    (tables.indexed.filter (·.memoryId != memoryId) ++
        (tables.record? memoryId).elim [] indexRows).filter (·.memoryId == other) =
      if other = memoryId then (tables.record? memoryId).elim [] indexRows
      else tables.indexed.filter (·.memoryId == other) := by
  rw [filter_append, filter_filter_ne]
  have rows : ((tables.record? memoryId).elim [] indexRows).filter
      (·.memoryId == other) =
      if other = memoryId then (tables.record? memoryId).elim [] indexRows else [] := by
    cases found : tables.record? memoryId with
    | none => simp
    | some row => simp [filter_indexRows, (record?_eq_some found).2, eq_comm]
  rw [rows]
  split <;> simp

namespace Changes

section

variable (h : Changes externals tables header row change requestHash after)
include h

theorem records :
    after.records = updateWhere (header.selects row.revision)
      (fun other => change.assign externals
        { other with revision := row.revision + 1, observedAtMs := header.observedAtMs })
      tables.records := by
  rw [h.result]
  rfl

theorem selected :
    header.selects row.revision row = true := by
  obtain ⟨memory, owner, scope⟩ := scopedRecord?_eq_some h.found
  simp [RequestHeader.selects, memory, owner, scope]

theorem record?
    (keyed : tables.Keyed) (other : Id) :
    after.record? other =
      if other = header.memoryId then some (change.next externals row header.observedAtMs)
      else tables.record? other := by
  have lookup : after.record? other = (tables.record? other).map fun found =>
      if header.selects row.revision found then change.assign externals
        { found with revision := row.revision + 1, observedAtMs := header.observedAtMs }
      else found := by
    rw [Tables.record?, h.records]
    exact find?_updateWhere fun found => by simp
  rw [lookup]
  split
  · rename_i same
    rw [same, keyed.record?_of_scoped h.found, Option.map_some, h.selected]
    rfl
  · rename_i different
    cases found : tables.record? other with
    | none => rfl
    | some found' =>
        have elsewhere : header.selects row.revision found' = false := by
          simp [RequestHeader.selects, (record?_eq_some found).2, different]
        simp [elsewhere]

theorem indexed
    (keyed : tables.Keyed) (other : Id) :
    after.indexed.filter (·.memoryId == other) =
      if other = header.memoryId then
        (change.next externals row header.observedAtMs).indexRows
      else tables.indexed.filter (·.memoryId == other) := by
  have found := h.record? keyed header.memoryId
  rw [h.result] at found ⊢
  refine (filter_reindexed _ header.memoryId other).trans ?_
  rw [if_pos rfl] at found
  simp only [Tables.changed, Tables.record?, synced_records] at found ⊢
  rw [found]
  rfl

theorem revisions
    (other : Id) :
    after.revisions.filter (·.memoryId == other) =
      if other = header.memoryId then
        change.kept externals row header.requestId header.observedAtMs
          (tables.revisions.filter (·.memoryId == other))
      else tables.revisions.filter (·.memoryId == other) := by
  obtain ⟨memory, owner, scope⟩ := scopedRecord?_eq_some h.found
  have after_eq : after.revisions = change.revisions tables externals row header := by
    rw [h.result]
    rfl
  rw [after_eq]
  rcases change with _ | content | ⟨_ | _ | _⟩
  case validate => simp [Change.revisions, Change.kept]
  case correct =>
    simp only [Change.revisions, Change.kept, filter_append, filter_cons,
      filter_nil, memory, owner, scope]
    by_cases same : other = header.memoryId
    · simp [same]
    · simp [same, Ne.symm same]
  case transition.purge => exact filter_filter_ne tables.revisions header.memoryId other
  all_goals simp [Change.revisions, Change.kept, deleteDependents, TransitionKind.nextLifecycle]

theorem relations
    (other : Id) :
    after.relations.filter (·.memoryId == other) =
      if other = header.memoryId ∧ change.unlinks = true then
        (tables.relations.filter (·.memoryId == other)).filter fun relation =>
          !(relation.ownerId == row.ownerId && relation.scopeKind == row.scopeKind)
      else tables.relations.filter (·.memoryId == other) := by
  obtain ⟨memory, owner, scope⟩ := scopedRecord?_eq_some h.found
  have after_eq : after.relations = change.relations tables header := by
    rw [h.result]
    rfl
  have unlinked : (tables.relations.filter fun relation =>
        !(relation.memoryId == header.memoryId && relation.ownerId == header.ownerId &&
          relation.scopeKind == header.scopeKind)).filter (·.memoryId == other) =
      if other = header.memoryId then
        (tables.relations.filter (·.memoryId == other)).filter fun relation =>
          !(relation.ownerId == row.ownerId && relation.scopeKind == row.scopeKind)
      else tables.relations.filter (·.memoryId == other) := by
    rw [filter_filter, owner, scope]
    split
    · rename_i same
      rw [filter_filter, same]
      apply filter_congr
      intro relation _
      cases relation.memoryId == header.memoryId <;> simp
    · rename_i different
      apply filter_congr
      intro relation _
      by_cases here : relation.memoryId = other <;> simp [here, different]
  rw [after_eq]
  rcases change with _ | content | ⟨_ | _ | _⟩ <;>
    simp [Change.relations, Change.unlinks, deleteDependents,
      TransitionKind.nextLifecycle, -filter_filter]
  all_goals simpa using unlinked

theorem events :
    ∃ event : EventRow H, event.memoryId = header.memoryId ∧ event.requestId = header.requestId ∧
      event.requestHash = requestHash ∧ event.revision = row.revision + 1 ∧
      event.eventType = change.eventType ∧ after.events = tables.events ++ [event] := by
  rw [h.result]
  exact ⟨_, rfl, rfl, rfl, rfl, rfl, rfl⟩

theorem step
    (keyed : tables.Keyed) (other : Id) :
    MemoryHistory.Step externals (tables.history other) (after.history other) := by
  obtain ⟨event, memory, -, -, revision, -, told⟩ := h.events
  unfold Tables.history
  rw [h.record? keyed, h.revisions, h.relations, h.indexed keyed, told, filter_append]
  obtain rfl | different := eq_or_ne other header.memoryId
  · have here : [event].filter (·.memoryId == header.memoryId) = [event] := by simp [memory]
    simp only [here, if_true, true_and]
    exact .change change (keyed.record?_of_scoped h.found) h.permitted revision
  · have elsewhere : [event].filter (·.memoryId == other) = [] := by
      simp [memory, different.symm]
    simp only [elsewhere, different, false_and, if_false, append_nil]
    exact .stay

end

end Changes

namespace Captures

variable {request : CaptureRequest} {provenance : Option (MemoryNudgeProvenance H)}

section

variable (h : Captures externals tables request provenance after)
include h

theorem record? (other : Id) :
    after.record? other =
      if other = request.memoryId then some (request.record externals)
      else tables.record? other := by
  have records : after.records = tables.records ++ [request.record externals] := by
    rw [h.result]
    rfl
  rw [Tables.record?, records, List.find?_append]
  split
  · rename_i same
    have unknown := h.unknown
    rw [Tables.record?] at unknown
    rw [same, unknown]
    simp [CaptureRequest.record]
  · rename_i different
    have elsewhere : [request.record externals].find? (·.memoryId == other) = none := by
      simp [CaptureRequest.record, Ne.symm different]
    rw [elsewhere, Option.or_none]
    rfl

theorem indexed (other : Id) :
    after.indexed.filter (·.memoryId == other) =
      if other = request.memoryId then (request.record externals).indexRows
      else tables.indexed.filter (·.memoryId == other) := by
  have found := h.record? request.memoryId
  rw [h.result] at found ⊢
  refine (filter_reindexed _ request.memoryId other).trans ?_
  rw [if_pos rfl] at found
  simp only [Tables.captured, Tables.record?, synced_records] at found ⊢
  rw [found]
  rfl

theorem events :
    ∃ event : EventRow H, event.memoryId = request.memoryId ∧
      event.requestId = request.requestId ∧
      event.requestHash = hashRequest externals request.toRequestHeader request.content ∧
      event.revision = 1 ∧ event.eventType = .memoryCandidateCreated ∧
      after.events = tables.events ++ [event] := by
  rw [h.result]
  exact ⟨_, rfl, rfl, rfl, rfl, rfl, rfl⟩

theorem step (other : Id) :
    MemoryHistory.Step externals (tables.history other) (after.history other) := by
  obtain ⟨event, memory, -, -, revision, -, told⟩ := h.events
  have relations : after.relations = tables.relations := by
    rw [h.result]
    rfl
  unfold Tables.history
  rw [h.record?, h.indexed, relations, told, filter_append]
  obtain rfl | different := eq_or_ne other request.memoryId
  · have here : [event].filter (·.memoryId == request.memoryId) = [event] := by simp [memory]
    simp only [here, if_true]
    exact .capture request h.unknown revision
  · have elsewhere : [event].filter (·.memoryId == other) = [] := by
      simp [memory, different.symm]
    have revisions : after.revisions.filter (·.memoryId == other) =
        tables.revisions.filter (·.memoryId == other) := by
      rw [h.result]
      simp [Tables.captured, filter_append, different.symm]
    simp only [elsewhere, different, if_false, revisions, append_nil]
    exact .stay

end

end Captures

/-! ### Every call is one step in the life of every memory -/

/-- Writing the index of memories again is no more than that for each of them. -/
theorem rebuild_history (pending : List Id) (tables : Tables H) (memoryId : Id) :
    let after := (rebuildPendingIndexes.go tables pending).2
    after.records = tables.records ∧ after.events = tables.events ∧
      (after.history memoryId = tables.history memoryId ∨
        after.history memoryId = { tables.history memoryId with
          indexed := (tables.record? memoryId).elim [] indexRows }) := by
  induction pending generalizing tables with
  | nil => exact ⟨rfl, rfl, .inl rfl⟩
  | cons first pending ih =>
      simp only [rebuildPendingIndexes.go]
      split
      · rename_i rebuilt synced
        simp only [syncIndex, bind_eq_ok_iff, pure_eq_ok_iff] at synced
        obtain ⟨-, -, rfl⟩ := synced
        obtain ⟨records, events, same⟩ := ih _
        refine ⟨records, events, ?_⟩
        have once := filter_reindexed tables first memoryId
        simp only [Tables.history, Tables.record?] at same once ⊢
        rw [once] at same
        by_cases here : memoryId = first
        · simp only [here, if_true] at same ⊢
          exact .inr (same.elim id id)
        · simpa only [if_neg here] using same
      · exact ⟨rfl, rfl, .inl rfl⟩

/-- Whatever holds before a call and after each success of it holds after the call. -/
theorem afterCall_cases {α : Type} {motive : Tables H → Prop}
    {result : Except MemoryRepositoryError (α × Tables H)} (failed : motive tables)
    (done : ∀ answer after, result = .ok (answer, after) → motive after) :
    motive (tables.afterCall result) := by
  cases result with
  | error error => exact failed
  | ok answer => exact done answer.1 answer.2 rfl

theorem unlink_history {request : UnlinkRequest} {deleted : Bool}
    (h : tables.unlinkFileRelationAs request = .ok (deleted, after)) :
    MemoryHistory.Step externals (tables.history memoryId) (after.history memoryId) := by
  obtain ⟨relations, fewer, rfl⟩ := unlinkFileRelationAs_ok h
  exact .unlink (fewer.filter _)

theorem Captures.keyed {request : CaptureRequest}
    {provenance : Option (MemoryNudgeProvenance H)}
    (h : Captures externals tables request provenance after) (keyed : tables.Keyed) :
    after.Keyed := by
  have records : after.records = tables.records ++ [request.record externals] := by
    rw [h.result]
    rfl
  constructor
  · rw [records]
    apply nodup_map_concat keyed.memories
    simpa [CaptureRequest.record] using List.find?_eq_none.mp h.unknown
  · rw [records]
    apply nodup_map_concat keyed.captures
    simpa [CaptureRequest.record] using List.find?_eq_none.mp h.uncaptured

theorem Changes.keyed (h : Changes externals tables header row change requestHash after)
    (keyed : tables.Keyed) : after.Keyed := by
  constructor
  · rw [h.records, map_updateWhere fun _ => by simp]
    exact keyed.memories
  · rw [h.records, map_updateWhere fun _ => by simp]
    exact keyed.captures

variable [DecidableEq H]

theorem link_history (keyed : tables.Keyed) {request : LinkRequest H}
    {view : MemoryFileRelationView H}
    (h : tables.linkFileRelationAs request = .ok (view, after)) :
    MemoryHistory.Step externals (tables.history memoryId) (after.history memoryId) := by
  obtain rfl | ⟨row, relation, found, live, memory, owner, scope, rfl⟩ :=
    linkFileRelationAs_ok h
  · exact .stay
  · obtain ⟨-, row_owner, row_scope⟩ := scopedRecord?_eq_some found
    obtain rfl | different := eq_or_ne memoryId relation.memoryId
    · have record : (tables.history relation.memoryId).record = some row := by
        rw [memory]
        exact keyed.record?_of_scoped found
      have accepts : MemoryHistory.Accepts row relation :=
        ⟨live, owner.trans row_owner.symm, scope.trans row_scope.symm⟩
      have step : MemoryHistory.Step externals _ _ := .link record accepts
      simpa [Tables.history, Tables.record?, filter_append] using step
    · have same : Tables.history { tables with relations := tables.relations ++ [relation] }
          memoryId = tables.history memoryId := by
        simp [Tables.history, Tables.record?, filter_append, different.symm]
      rw [same]
      exact .stay

theorem request_history (keyed : tables.Keyed) {request : MemoryRequest H} {reply : Reply H}
    (h : tables.perform externals request = .ok (reply, after)) :
    MemoryHistory.Step externals (tables.history memoryId) (after.history memoryId) := by
  obtain ⟨-, rfl⟩ | ⟨-, ⟨_, _, -, captures⟩ | ⟨-, _, _, changes⟩⟩ := perform_ok h
  · exact .stay
  · exact captures.step memoryId
  · exact changes.step keyed memoryId

/-- The tables refine the life of each memory. -/
theorem step_history (keyed : tables.Keyed) (op : MemoryOp H) (memoryId : Id) :
    MemoryHistory.Step externals (tables.history memoryId)
      ((tables.step externals op).history memoryId) := by
  let Reaches (after : Tables H) : Prop :=
    MemoryHistory.Step externals (tables.history memoryId) (after.history memoryId)
  have stays : Reaches tables := .stay
  cases op with
  | request request =>
      exact afterCall_cases (motive := Reaches) stays fun _ _ h => request_history keyed h
  | linkFileRelation request =>
      exact afterCall_cases (motive := Reaches) stays fun _ _ h => link_history keyed h
  | unlinkFileRelation request =>
      exact afterCall_cases (motive := Reaches) stays fun _ _ h => unlink_history h
  | grantAccess request =>
      refine afterCall_cases (motive := Reaches) stays fun _ _ h => ?_
      obtain ⟨grants, rfl⟩ := grantAccessAs_ok h
      exact stays
  | revokeAccess request =>
      refine afterCall_cases (motive := Reaches) stays fun _ _ h => ?_
      obtain ⟨grants, rfl⟩ := revokeAccessAs_ok h
      exact stays
  | reopen =>
      obtain ⟨-, -, same | reindexed⟩ := rebuild_history tables.indexDirty tables memoryId
      · simp only [Tables.step, rebuildPendingIndexes, same]
        exact .stay
      · simp only [Tables.step, rebuildPendingIndexes, reindexed]
        exact .reindex

/-! ### What a call does to the records and the events -/

/-- A call leaves the records and the events alone, or it is a request that has captured or
changed a memory. -/
theorem step_cases (externals : Externals H) (tables : Tables H) (op : MemoryOp H) :
    ((tables.step externals op).records = tables.records ∧
      (tables.step externals op).events = tables.events) ∨
    (∃ capture provenance, op = .request (.capture capture provenance) ∧
      Captures externals tables capture provenance (tables.step externals op)) ∨
    ∃ request row change requestHash, op = .request request ∧
      Changes externals tables request.header row change requestHash
        (tables.step externals op) := by
  let Keeps (after : Tables H) : Prop :=
    after.records = tables.records ∧ after.events = tables.events
  have same : Keeps tables := ⟨rfl, rfl⟩
  cases op with
  | request request =>
      cases done : tables.perform externals request with
      | error error => exact .inl (by rw [Tables.step, done]; exact same)
      | ok answer =>
          rw [Tables.step, done]
          obtain ⟨-, kept⟩ | ⟨-, ⟨capture, provenance, rfl, captures⟩ | ⟨-, row, _, changes⟩⟩ :=
            perform_ok done
          · exact .inl (by rw [afterCall, kept]; exact same)
          · exact .inr (.inl ⟨capture, provenance, rfl, captures⟩)
          · exact .inr (.inr ⟨request, row, _, _, rfl, changes⟩)
  | linkFileRelation request =>
      refine .inl (afterCall_cases (motive := Keeps) same fun _ _ h => ?_)
      obtain rfl | ⟨_, _, _, _, _, _, _, rfl⟩ := linkFileRelationAs_ok h
      · exact same
      · exact same
  | unlinkFileRelation request =>
      refine .inl (afterCall_cases (motive := Keeps) same fun _ _ h => ?_)
      obtain ⟨_, _, rfl⟩ := unlinkFileRelationAs_ok h
      exact same
  | grantAccess request =>
      refine .inl (afterCall_cases (motive := Keeps) same fun _ _ h => ?_)
      obtain ⟨_, rfl⟩ := grantAccessAs_ok h
      exact same
  | revokeAccess request =>
      refine .inl (afterCall_cases (motive := Keeps) same fun _ _ h => ?_)
      obtain ⟨_, rfl⟩ := revokeAccessAs_ok h
      exact same
  | reopen =>
      obtain ⟨records, events, -⟩ := rebuild_history tables.indexDirty tables 0
      exact .inl ⟨records, events⟩

theorem step_keyed (op : MemoryOp H) (keyed : tables.Keyed) :
    (tables.step externals op).Keyed := by
  obtain ⟨records, -⟩ | ⟨_, _, -, captures⟩ | ⟨_, _, _, _, -, changes⟩ :=
    step_cases externals tables op
  · exact ⟨records ▸ keyed.memories, records ▸ keyed.captures⟩
  · exact captures.keyed keyed
  · exact changes.keyed keyed

end Aegis.MemoryStore
