import AegisCognition.Coordination.Message

/-!
# The journal of messages

A journal keeps the latest messages for consumers that read after a cursor. What no longer fits
into one of its two bounds is thrown away, from the oldest message on, and a consumer that has not
seen it is told so.
-/

namespace Aegis.Coordination

open Foundation List Option

structure AgentMessageJournalEntry where
  cursor : Nat
  message : AgentMessage

structure AgentMessageJournalRead where
  latestCursor : Nat
  oldestCursor : Nat
  entries : List AgentMessageJournalEntry
  resyncRequired : Bool

/-- What a journal is made with; the constructor checks the bounds. -/
structure AgentMessageJournal where
  maxMessages : Nat
  maxBytes : Nat
  messages_mem : 1 ≤ maxMessages ∧ maxMessages ≤ 4096
  bytes_mem : 1 ≤ maxBytes ∧ maxBytes ≤ 64 * 1024 * 1024

/-- The entries with their wire sizes, the last cursor and the sum of the sizes. -/
structure JournalStore where
  entries : List (AgentMessageJournalEntry × Nat) := []
  nextCursor : Nat := 0
  bytes : Nat := 0

/-- The loop that throws entries away until another one of the size fits. -/
def AgentMessageJournal.makeRoom (journal : AgentMessageJournal) (wireSize : Nat) :
    List (AgentMessageJournalEntry × Nat) → Nat → List (AgentMessageJournalEntry × Nat) × Nat
  | [], bytes => ([], bytes)
  | entry :: entries, bytes =>
    if journal.maxMessages ≤ (entry :: entries).length ∨ journal.maxBytes < bytes + wireSize then
      journal.makeRoom wireSize entries (bytes - entry.2)
    else (entry :: entries, bytes)

namespace JournalStore

def append (sha256 : Sha256) (journal : AgentMessageJournal) (store : JournalStore)
    (message : AgentMessage) : Except CoordinationError (Nat × JournalStore) := do
  message.validate
  let wire ← message.toBytes sha256
  require (decide (wire.length ≤ journal.maxBytes)) "message journal cannot retain this envelope"
  let (entries, bytes) := journal.makeRoom wire.length store.entries store.bytes
  let cursor := store.nextCursor + 1
  .ok (cursor,
    { entries := entries ++ [(⟨cursor, message⟩, wire.length)]
      nextCursor := cursor
      bytes := bytes + wire.length })

def readSince (store : JournalStore) (cursor : Nat) (maxMessages : Option Nat) :
    Except CoordinationError AgentMessageJournalRead := do
  require (maxMessages != some 0) "message journal read limit must be positive"
  let latest := store.nextCursor
  let oldest := (store.entries.head?.map fun entry => entry.1.cursor).getD (latest + 1)
  let limit := maxMessages.elim store.entries.length (min · store.entries.length)
  .ok
    { latestCursor := latest
      oldestCursor := oldest
      entries := ((store.entries.map Prod.fst).filter (cursor < ·.cursor)).take limit
      resyncRequired := !store.entries.isEmpty && decide (cursor < oldest - 1) }

end JournalStore

/-! ### Numbered messages -/

/-- The messages with their cursors, which count from one. -/
def numbered (messages : List AgentMessage) : List AgentMessageJournalEntry :=
  messages.mapIdx fun i message => ⟨i + 1, message⟩

section Numbered

variable {messages : List AgentMessage} {received : List AgentMessageJournalEntry}

@[simp] theorem length_numbered (messages : List AgentMessage) :
    (numbered messages).length = messages.length :=
  length_mapIdx

theorem numbered_concat (messages : List AgentMessage) (message : AgentMessage) :
    numbered (messages ++ [message]) = numbered messages ++ [⟨messages.length + 1, message⟩] :=
  mapIdx_concat

theorem getElem?_numbered_cursor {i : Nat} {entry : AgentMessageJournalEntry}
    (found : (numbered messages)[i]? = some entry) : entry.cursor = i + 1 := by
  rw [numbered, getElem?_mapIdx] at found
  obtain ⟨message, -, rfl⟩ := map_eq_some_iff.mp found
  rfl

/-- The entries after a cursor are those behind as many entries. -/
theorem filter_drop_numbered (messages : List AgentMessage) (cursor evicted : Nat) :
    ((numbered messages).drop evicted).filter (cursor < ·.cursor) =
      (numbered messages).drop (max evicted cursor) := by
  induction messages using reverseRecOn with
  | nil => simp [numbered]
  | append_singleton messages message ih =>
      rw [numbered_concat, drop_append, filter_append, ih, drop_append,
        length_numbered]
      congr 1
      by_cases behind : evicted ≤ messages.length
      · by_cases new : cursor ≤ messages.length
        · have kept : max evicted cursor - messages.length = 0 :=
            Nat.sub_eq_zero_of_le (max_le behind new)
          rw [Nat.sub_eq_zero_of_le behind, kept]
          simpa using Nat.lt_succ_of_le new
        · obtain ⟨k, count⟩ : ∃ k, max evicted cursor - messages.length = k + 1 :=
            ⟨max evicted cursor - messages.length - 1, by omega⟩
          rw [Nat.sub_eq_zero_of_le behind, count]
          simpa using Nat.succ_le_of_lt (Nat.not_le.mp new)
      · obtain ⟨k, count⟩ : ∃ k, evicted - messages.length = k + 1 :=
          ⟨evicted - messages.length - 1, by omega⟩
        obtain ⟨l, count'⟩ : ∃ l, max evicted cursor - messages.length = l + 1 :=
          ⟨max evicted cursor - messages.length - 1, by omega⟩
        rw [count, count']
        simp

theorem mem_drop_numbered {entry : AgentMessageJournalEntry} {evicted : Nat} :
    entry ∈ (numbered messages).drop evicted ↔
      entry ∈ numbered messages ∧ evicted < entry.cursor := by
  have behind := filter_drop_numbered messages evicted 0
  rw [drop_zero, Nat.zero_max] at behind
  rw [← behind, mem_filter, decide_eq_true_eq]

/-- The cursor of the last entry, or the start. -/
def cursorOf (received : List AgentMessageJournalEntry) : Nat :=
  (received.getLast?.map AgentMessageJournalEntry.cursor).getD 0

theorem cursorOf_eq_length (initial : received <+: numbered messages) :
    cursorOf received = received.length := by
  cases received using reverseRecOn with
  | nil => rfl
  | append_singleton received entry =>
      obtain ⟨rest, split⟩ := initial
      have found : (numbered messages)[received.length]? = some entry := by simp [← split]
      rw [cursorOf, getLast?_concat, map_some, getD_some,
        getElem?_numbered_cursor found, length_append, length_singleton]

end Numbered

/-! ### What the buffer holds -/

/-- The buffer holds the latest of the messages, within both bounds. -/
structure JournalStore.Holds (sha256 : Sha256) (journal : AgentMessageJournal)
    (messages : List AgentMessage) (store : JournalStore) : Prop where
  latest : store.nextCursor = messages.length
  buffered : store.entries.map Prod.fst <:+ numbered messages
  started : messages ≠ [] → store.entries ≠ []
  sizes : ∀ entry ∈ store.entries, ∃ wire, entry.1.message.toBytes sha256 = .ok wire ∧
    wire.length = entry.2
  total : store.bytes = (store.entries.map Prod.snd).sum
  count_le : store.entries.length ≤ journal.maxMessages
  bytes_le : store.bytes ≤ journal.maxBytes

section Holds

variable {sha256 : Sha256} {journal : AgentMessageJournal} {messages : List AgentMessage}
variable {store next : JournalStore} {message : AgentMessage} {cursor : Nat}

/-- Throwing away stops early enough to keep the latest entries and late enough to make room. -/
theorem AgentMessageJournal.makeRoom_spec {wireSize bytes : Nat}
    {entries : List (AgentMessageJournalEntry × Nat)} (fits : wireSize ≤ journal.maxBytes)
    (total : bytes = (entries.map Prod.snd).sum) :
    (journal.makeRoom wireSize entries bytes).1 <:+ entries ∧
      (journal.makeRoom wireSize entries bytes).2 =
        ((journal.makeRoom wireSize entries bytes).1.map Prod.snd).sum ∧
      (journal.makeRoom wireSize entries bytes).1.length + 1 ≤ journal.maxMessages ∧
      (journal.makeRoom wireSize entries bytes).2 + wireSize ≤ journal.maxBytes := by
  induction entries generalizing bytes with
  | nil =>
      rw [makeRoom]
      refine ⟨suffix_refl _, total, journal.messages_mem.1, ?_⟩
      rw [total]
      simpa using fits
  | cons entry entries ih =>
      rw [makeRoom]
      split
      · have total' : bytes - entry.2 = (entries.map Prod.snd).sum := by simp [total]
        obtain ⟨kept, rest⟩ := ih total'
        exact ⟨kept.trans (suffix_cons _ _), rest⟩
      · next room =>
          rw [not_or, Nat.not_le, Nat.not_lt] at room
          exact ⟨suffix_refl _, total, room⟩

section

variable (h : store.Holds sha256 journal messages)
include h

/-- One more message. -/
theorem JournalStore.Holds.append
    (done : store.append sha256 journal message = .ok (cursor, next)) :
    next.Holds sha256 journal (messages ++ [message]) ∧ cursor = messages.length + 1 := by
  unfold JournalStore.append at done
  simp only [bind_eq_ok_iff, require_eq_ok_iff, decide_eq_true_eq] at done
  obtain ⟨-, -, wire, encoded, -, fits, ⟨⟩⟩ := done
  have spec := AgentMessageJournal.makeRoom_spec fits h.total
  generalize journal.makeRoom wire.length store.entries store.bytes = room at spec ⊢
  obtain ⟨⟨thrown, kept⟩, total, count, bytes⟩ := spec
  refine ⟨⟨?_, ?_, ?_, ?_, ?_, ?_, ?_⟩, by rw [h.latest]⟩
  · simp [h.latest]
  · obtain ⟨evicted, split⟩ := h.buffered
    refine ⟨evicted ++ thrown.map Prod.fst, ?_⟩
    rw [numbered_concat, ← split, ← kept, h.latest]
    simp
  · simp
  · intro entry mem
    rw [mem_append, mem_singleton] at mem
    obtain old | rfl := mem
    · refine h.sizes entry ?_
      rw [← kept]
      exact mem_append_right _ old
    · exact ⟨wire, encoded, rfl⟩
  · simp [total]
  · simpa using count
  · exact bytes

theorem JournalStore.Holds.exists_evicted :
    ∃ evicted, evicted + store.entries.length = messages.length ∧
      store.entries.map Prod.fst = (numbered messages).drop evicted := by
  have le := h.buffered.length_le
  rw [length_numbered, length_map] at le
  refine ⟨messages.length - store.entries.length, Nat.sub_add_cancel le, ?_⟩
  have suffix := suffix_iff_eq_drop.mp h.buffered
  rwa [length_numbered, length_map] at suffix

theorem JournalStore.Holds.ne_nil_of_evicted
    {evicted : Nat} (count : evicted + store.entries.length = messages.length)
    (some_evicted : 0 < evicted) : store.entries ≠ [] := by
  refine h.started fun empty => ?_
  rw [empty, length_nil] at count
  omega

theorem JournalStore.Holds.oldest_eq {evicted : Nat}
    (count : evicted + store.entries.length = messages.length)
    (buffered : store.entries.map Prod.fst = (numbered messages).drop evicted) :
    (store.entries.head?.map fun entry => entry.1.cursor).getD (store.nextCursor + 1) =
      evicted + 1 := by
  cases entries : store.entries with
  | nil =>
      rw [entries, length_nil] at count
      rw [List.head?_nil, map_none, getD_none, h.latest, ← count, Nat.add_zero]
  | cons entry rest =>
      rw [entries, map_cons] at buffered
      have found : (numbered messages)[evicted]? = some entry.1 := by
        rw [← List.head?_drop, ← buffered, List.head?_cons]
      exact getElem?_numbered_cursor found

/-- The messages after the cursor, if all of them are still there. -/
theorem JournalStore.Holds.readSince
    {maxMessages : Option Nat} {read : AgentMessageJournalRead}
    (done : store.readSince cursor maxMessages = .ok read) :
    (read.resyncRequired = true ↔ ∃ entry ∈ numbered messages, cursor < entry.cursor ∧
      entry ∉ store.entries.map Prod.fst) ∧
    (read.resyncRequired = false → read.entries =
      maxMessages.elim ((numbered messages).drop cursor)
        ((numbered messages).drop cursor).take) := by
  unfold JournalStore.readSince at done
  simp only [bind_eq_ok_iff, require_eq_ok_iff] at done
  obtain ⟨-, -, ⟨⟩⟩ := done
  obtain ⟨evicted, count, buffered⟩ := h.exists_evicted
  have behind : (!store.entries.isEmpty && decide (cursor <
      (store.entries.head?.map fun entry => entry.1.cursor).getD
        (store.nextCursor + 1) - 1)) = true ↔
      cursor < evicted := by
    rw [h.oldest_eq count buffered, Nat.add_sub_cancel]
    simpa [List.isEmpty_iff] using fun less => h.ne_nil_of_evicted count (Nat.zero_lt_of_lt less)
  refine ⟨behind.trans ?_, fun whole => ?_⟩
  · constructor
    · intro less
      have inside : evicted - 1 < (numbered messages).length := by
        rw [length_numbered]
        omega
      refine ⟨(numbered messages)[evicted - 1], List.getElem_mem inside, ?_, ?_⟩
      · rw [getElem?_numbered_cursor (List.getElem?_eq_getElem inside)]
        omega
      · rw [buffered, mem_drop_numbered, getElem?_numbered_cursor (List.getElem?_eq_getElem inside)]
        omega
    · rintro ⟨entry, mem, after, gone⟩
      rw [buffered, mem_drop_numbered, not_and, Nat.not_lt] at gone
      exact after.trans_le (gone mem)
  · rw [← Bool.not_eq_true, behind, Nat.not_lt] at whole
    have short : ((numbered messages).drop cursor).length ≤ store.entries.length := by
      rw [List.length_drop, length_numbered]
      omega
    simp only [buffered, filter_drop_numbered, max_eq_right whole]
    cases maxMessages with
    | none => exact List.take_of_length_le short
    | some limit =>
        rw [elim_some, elim_some, ← List.take_take, List.take_of_length_le short]

end

end Holds

/-! ### A consumer -/

/-- The journal, the messages it took, and what a consumer has read. -/
structure Consumer where
  store : JournalStore := {}
  messages : List AgentMessage := []
  received : List AgentMessageJournalEntry := []
  resynced : Bool := false

inductive JournalCall
  | append (message : AgentMessage)
  | readSince (maxMessages : Option Nat)

namespace Consumer

/-- The consumer reads after the last entry it has seen. A refused call changes nothing. -/
def step (sha256 : Sha256) (journal : AgentMessageJournal) (consumer : Consumer) :
    JournalCall → Consumer
  | .append message =>
    match consumer.store.append sha256 journal message with
    | .ok (_, store) => { consumer with store, messages := consumer.messages ++ [message] }
    | .error _ => consumer
  | .readSince maxMessages =>
    match consumer.store.readSince (cursorOf consumer.received) maxMessages with
    | .ok read =>
      { consumer with
        received := consumer.received ++ read.entries
        resynced := consumer.resynced || read.resyncRequired }
    | .error _ => consumer

/-- Nothing is lost unless a read said so. -/
structure Faithful (sha256 : Sha256) (journal : AgentMessageJournal) (consumer : Consumer) :
    Prop where
  holds : consumer.store.Holds sha256 journal consumer.messages
  received : consumer.resynced = false → consumer.received <+: numbered consumer.messages

variable {sha256 : Sha256} {journal : AgentMessageJournal} {consumer : Consumer}

theorem Faithful.step (h : consumer.Faithful sha256 journal) (call : JournalCall) :
    (consumer.step sha256 journal call).Faithful sha256 journal := by
  cases call with
  | append message =>
      simp only [Consumer.step]
      split
      · next cursor store done =>
          refine ⟨(h.holds.append done).1, fun whole => ?_⟩
          rw [numbered_concat]
          exact (h.received whole).trans (prefix_append _ _)
      · exact h
  | readSince maxMessages =>
      simp only [Consumer.step]
      split
      · next read done =>
          refine ⟨h.holds, fun whole => ?_⟩
          rw [Bool.or_eq_false_iff] at whole
          have initial := h.received whole.1
          have entries := (h.holds.readSince done).2 whole.2
          rw [cursorOf_eq_length initial] at entries
          have next : read.entries <+:
              (numbered consumer.messages).drop consumer.received.length := by
            rw [entries]
            cases maxMessages with
            | none => exact prefix_refl _
            | some limit => exact List.take_prefix limit _
          have whole' := (prefix_append_right_inj consumer.received).mpr next
          rwa [prefix_iff_eq_append.mp initial] at whole'
      · exact h

theorem faithful_run (sha256 : Sha256) (journal : AgentMessageJournal) (calls : List JournalCall) :
    (run (step sha256 journal) {} calls).Faithful sha256 journal := by
  have keep (consumer : Consumer) (call : JournalCall) (h : consumer.Faithful sha256 journal) :
      (consumer.step sha256 journal call).Faithful sha256 journal := h.step call
  have start : JournalStore.Holds sha256 journal [] {} :=
    ⟨rfl, suffix_refl _, fun h => absurd rfl h, nofun, rfl, Nat.zero_le _, Nat.zero_le _⟩
  exact run_invariant keep calls ⟨start, fun _ => prefix_refl _⟩

end Consumer

/-- A consumer has the messages in order, without a gap, unless a read called for a resync; a read
does so exactly if a message after its cursor is gone; the buffer stays within its bounds. -/
theorem journal_loses_nothing (sha256 : Sha256) (journal : AgentMessageJournal)
    (calls : List JournalCall) :
    let consumer := run (Consumer.step sha256 journal) {} calls
    (consumer.resynced = false →
      consumer.received = (numbered consumer.messages).take consumer.received.length) ∧
    (∀ cursor maxMessages, maxMessages ≠ some 0 →
      ∃ read, consumer.store.readSince cursor maxMessages = .ok read ∧
        (read.resyncRequired = true ↔ ∃ entry ∈ numbered consumer.messages,
          cursor < entry.cursor ∧ entry ∉ consumer.store.entries.map Prod.fst) ∧
        (read.resyncRequired = false → read.entries =
          maxMessages.elim ((numbered consumer.messages).drop cursor)
            ((numbered consumer.messages).drop cursor).take)) ∧
    (∀ entry ∈ consumer.store.entries, ∃ wire,
      entry.1.message.toBytes sha256 = .ok wire ∧ wire.length = entry.2) ∧
    consumer.store.entries.length ≤ journal.maxMessages ∧
    consumer.store.bytes = (consumer.store.entries.map Prod.snd).sum ∧
    consumer.store.bytes ≤ journal.maxBytes := by
  intro consumer
  have h : consumer.Faithful sha256 journal := Consumer.faithful_run sha256 journal calls
  refine ⟨fun whole => prefix_iff_eq_take.mp (h.received whole), fun cursor maxMessages some_ => ?_,
    h.holds.sizes, h.holds.count_le, h.holds.total, h.holds.bytes_le⟩
  obtain ⟨read, done⟩ : ∃ read, consumer.store.readSince cursor maxMessages = .ok read := by
    unfold JournalStore.readSince
    simp [require, some_, bind, Except.bind]
  exact ⟨read, done, h.holds.readSince done⟩

end Aegis.Coordination
