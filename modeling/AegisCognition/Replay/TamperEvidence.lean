import AegisCognition.Foundation.Delimiting
import AegisCognition.Foundation.HashChain
import AegisCognition.Replay.Archive
import AegisCognition.Replay.Equivalence

/-!
# What the hashed bytes determine

Every field of an event and of a commit proof has a fixed width but for the optional hash, which
stands behind a tag. So the bytes that are hashed determine the fields.
-/

namespace Aegis.Replay

open Foundation RunEvent List

theorem delimits_u64Bytes : Delimits (fun _ => True) u64Bytes :=
  .of_length length_u64Bytes fun first second _ _ same =>
    BitVec.eq_of_toNat_eq (leBytes_inj first.isLt second.isLt same)

theorem delimits_u128Bytes : Delimits (fun _ => True) u128Bytes :=
  .of_length length_u128Bytes fun first second _ _ same =>
    BitVec.eq_of_toNat_eq (leBytes_inj first.isLt second.isLt same)

theorem delimits_hash : Delimits (fun _ => True) Hash.bytes :=
  .of_length Hash.length_eq fun first second _ _ same => by
    cases first
    cases second
    cases same
    rfl

theorem delimits_optionalHash : Delimits (fun _ => True) optionalHashBytes :=
  (Delimits.option (by decide : (0 : UInt8) ≠ 1) delimits_hash rfl fun _ => rfl).mono
    fun _ _ _ _ => trivial

theorem RunEventKind.toU8_injective : Function.Injective RunEventKind.toU8 := by
  intro first second same
  have kinds := congrArg fromU8 same
  rw [fromU8_toU8, fromU8_toU8] at kinds
  exact Option.some.inj kinds

theorem delimits_kind : Delimits (fun _ => True) fun kind : RunEventKind => [kind.toU8] :=
  .of_length (fun _ => length_singleton) fun _ _ _ _ same =>
    RunEventKind.toU8_injective (head_eq_of_cons_eq same)

/-- The bytes that are hashed for an event determine all seven fields. -/
theorem runEventPreimage_inj {eventId eventId' : EventId} {runId runId' : RunId}
    {kind kind' : RunEventKind} {subjectId subjectId' : SubjectId}
    {primaryHash primaryHash' previousEventHash previousEventHash' : Hash}
    {secondaryHash secondaryHash' : Option Hash}
    (same : runEventPreimage eventId runId kind subjectId primaryHash secondaryHash
        previousEventHash =
      runEventPreimage eventId' runId' kind' subjectId' primaryHash' secondaryHash'
        previousEventHash') :
    eventId = eventId' ∧ runId = runId' ∧ kind = kind' ∧ subjectId = subjectId' ∧
      primaryHash = primaryHash' ∧ secondaryHash = secondaryHash' ∧
      previousEventHash = previousEventHash' := by
  simp only [runEventPreimage, append_assoc] at same
  obtain ⟨event, same⟩ := delimits_u64Bytes trivial trivial same
  obtain ⟨runId, same⟩ := delimits_u128Bytes trivial trivial same
  obtain ⟨kind, same⟩ := delimits_kind trivial trivial same
  obtain ⟨subject, same⟩ := delimits_u128Bytes trivial trivial same
  obtain ⟨primary, same⟩ := delimits_hash trivial trivial same
  obtain ⟨secondary, same⟩ := delimits_optionalHash trivial trivial same
  exact ⟨event, runId, kind, subject, primary, secondary, delimits_hash.inj trivial trivial same⟩

theorem boolByte_injective : Function.Injective boolByte := by
  rintro (_ | _) (_ | _) same
  · rfl
  · cases same
  · cases same
  · rfl

theorem delimits_publishEvidence :
    Delimits (fun _ => True) RunEventSegmentPublishEvidence.bytes := by
  have length (evidence : RunEventSegmentPublishEvidence) : evidence.bytes.length = 4 := rfl
  refine .of_length length ?_
  rintro ⟨staged, synced, published, parent⟩ ⟨staged', synced', published', parent'⟩ - - same
  obtain ⟨first, same⟩ := List.cons.inj same
  obtain ⟨second, same⟩ := List.cons.inj same
  obtain ⟨third, same⟩ := List.cons.inj same
  obtain rfl : staged = staged' := boolByte_injective first
  obtain rfl : synced = synced' := boolByte_injective second
  obtain rfl : published = published' := boolByte_injective third
  obtain rfl : parent = parent' := boolByte_injective (head_eq_of_cons_eq same)
  rfl

/-- The bytes that are hashed for a commit proof determine all fields but the hash itself. -/
theorem RunEventSegmentCommitProof.preimage_inj {first second : RunEventSegmentCommitProof}
    (same : first.preimage = second.preimage) :
    { first with commitHash := second.commitHash } = second := by
  simp only [preimage, append_assoc] at same
  have same := append_cancel_left same
  obtain ⟨runId, same⟩ := delimits_u128Bytes trivial trivial same
  obtain ⟨segment, same⟩ := delimits_u64Bytes trivial trivial same
  obtain ⟨start, same⟩ := delimits_u64Bytes trivial trivial same
  obtain ⟨stop, same⟩ := delimits_u64Bytes trivial trivial same
  obtain ⟨count, same⟩ := delimits_u64Bytes trivial trivial same
  obtain ⟨schema, same⟩ := delimits_hash trivial trivial same
  obtain ⟨size, same⟩ := delimits_u64Bytes trivial trivial same
  obtain ⟨file, same⟩ := delimits_hash trivial trivial same
  obtain ⟨firstEvent, same⟩ := delimits_hash trivial trivial same
  obtain ⟨lastEvent, same⟩ := delimits_hash trivial trivial same
  obtain ⟨segmentHash, same⟩ := delimits_hash trivial trivial same
  obtain ⟨previous, same⟩ := delimits_hash trivial trivial same
  have evidence := delimits_publishEvidence.inj trivial trivial same
  cases first
  cases second
  congr

/-! ## The last hash of a ledger

The events that replay accepts form a hash chain, and each event holds the hash of its own fields.
So the last hash of a ledger determines all events of it, whatever run they are of. -/

section LastHash

variable {blake3 : Hasher} {runId : RunId} {events : List RunEvent} {ledger : RunEventLedger}

/-- The bytes that are hashed for an event. -/
def RunEvent.preimage (event : RunEvent) : List UInt8 :=
  runEventPreimage event.eventId event.runId event.kind event.subjectId event.primaryHash
    event.secondaryHash event.previousEventHash

/-- An event with its own hash is determined by that hash, unless two events collide. -/
theorem RunEvent.eq_of_eventHash {event other : RunEvent} {preimages : Set (List UInt8)}
    (apart : Set.InjOn blake3 preimages) (mem : event.preimage ∈ preimages)
    (mem' : other.preimage ∈ preimages) (own : event.eventHash = event.computeHash blake3)
    (own' : other.eventHash = other.computeHash blake3)
    (same : event.eventHash = other.eventHash) : event = other := by
  have hashes : blake3 event.preimage = blake3 other.preimage :=
    own.symm.trans (same.trans own')
  obtain ⟨id, run, kind, subject, primary, secondary, previous⟩ :=
    runEventPreimage_inj (apart mem mem' hashes)
  cases event
  cases other
  congr

namespace RunEventLedger

theorem chained_of_along {cursor : Cursor}
    (accepted : Along Cursor.advance (Cursor.Replays blake3 runId) cursor events) :
    Chained previousEventHash eventHash cursor.previousEventHash events ∧
      ∀ event ∈ events, event.eventHash = event.computeHash blake3 := by
  induction events generalizing cursor with
  | nil => exact ⟨trivial, nofun⟩
  | cons event events ih =>
      obtain ⟨rule, rest⟩ := accepted
      obtain ⟨chained, own⟩ := ih rest
      exact ⟨⟨rule.chained, chained⟩, forall_mem_cons.mpr ⟨rule.wellFormed.hash, own⟩⟩

theorem chained_of_fromEvents (replayed : fromEvents blake3 runId events = .ok ledger) :
    Chained previousEventHash eventHash Hash.zero events ∧
      (∀ event ∈ events, event.eventHash = event.computeHash blake3) ∧
      ledger.lastHash = Foundation.lastHash eventHash Hash.zero events := by
  obtain ⟨chained, own⟩ := chained_of_along (fromEvents_ok_iff.mp replayed).1
  refine ⟨chained, own, ?_⟩
  rw [lastHash, events_of_fromEvents replayed]
  rfl

/-- The hashed bytes determine the fields of an event, and the last hash of a replayed ledger
determines its events: two lists that replay accepts, of whatever runs, are the same if their
ledgers have the same last hash, unless two of their events collide or one hashes to zero. -/
theorem fromEvents_binds (blake3 : Hasher) (firstRun secondRun : RunId)
    (first second : List RunEvent) (ledger ledger' : RunEventLedger) :
    (∀ event other : RunEvent, event.preimage = other.preimage →
      event.eventId = other.eventId ∧ event.runId = other.runId ∧ event.kind = other.kind ∧
        event.subjectId = other.subjectId ∧ event.primaryHash = other.primaryHash ∧
        event.secondaryHash = other.secondaryHash ∧
        event.previousEventHash = other.previousEventHash) ∧
    (Set.InjOn blake3 { message | ∃ event ∈ first ++ second, event.preimage = message } →
      (∀ event ∈ first ++ second, blake3 event.preimage ≠ Hash.zero) →
      fromEvents blake3 firstRun first = .ok ledger →
      fromEvents blake3 secondRun second = .ok ledger' →
      ledger.lastHash = ledger'.lastHash → first = second) := by
  refine ⟨fun _ _ => runEventPreimage_inj, ?_⟩
  intro apart nonzero replayed replayed' same
  obtain ⟨chained, own, last⟩ := chained_of_fromEvents replayed
  obtain ⟨chained', own', last'⟩ := chained_of_fromEvents replayed'
  apply chained.eq_of_lastHash chained'
  · intro event mem other mem' hashes
    exact eq_of_eventHash apart ⟨event, mem_append_left _ mem, rfl⟩
      ⟨other, mem_append_right _ mem', rfl⟩ (own event mem) (own' other mem') hashes
  · intro event mem zero
    exact nonzero event (mem_append_left _ mem) ((own event mem).symm.trans zero)
  · intro event mem zero
    exact nonzero event (mem_append_right _ mem) ((own' event mem).symm.trans zero)
  · rw [← last, ← last', same]

/-- The hashes of the sample history are its own, differ from each other and are not zero. -/
theorem sampleHistory_hash_binds :
    ∃ ledger, fromEvents sampleHasher 7 sampleHistory = .ok ledger ∧
      (ledger.lastHash = ledger.lastHash → sampleHistory = sampleHistory) := by
  obtain ⟨ledger, replayed⟩ := sampleHistory_replayed
  have own : ∀ event ∈ sampleHistory, sampleHasher event.preimage = event.eventHash := by decide
  have apart : ∀ event ∈ sampleHistory, ∀ other ∈ sampleHistory,
      event.eventHash = other.eventHash → event = other := by decide
  have nonzero : ∀ event ∈ sampleHistory, event.eventHash ≠ Hash.zero := by decide
  refine ⟨ledger, replayed, (fromEvents_binds sampleHasher 7 7 sampleHistory sampleHistory ledger
    ledger).2 ?_ ?_ replayed replayed⟩
  · simp only [mem_append, or_self]
    rintro _ ⟨event, mem, rfl⟩ _ ⟨other, mem', rfl⟩ same
    rw [own event mem, own other mem'] at same
    rw [apart event mem other mem' same]
  · simp only [mem_append, or_self]
    intro event mem
    rw [own event mem]
    exact nonzero event mem

end RunEventLedger

end LastHash

end Aegis.Replay
