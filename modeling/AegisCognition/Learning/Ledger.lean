import AegisCognition.Foundation.Delimiting
import AegisCognition.Replay.Event
import Mathlib.Data.List.Induction

/-!
# The learning ledger

Every learning event has a digest of its type, and the hash of the ledger goes on from one digest
to the next. So the hash of a verified ledger stands for the types of its events, one after the
other. The skill, the session and the time of an event are in neither digest.
-/

namespace Aegis.Learning

open Foundation List
open Replay (Hash Hasher domainMessage nonzeroHash u32Bytes)

/-! ### Events -/

def chainMessage (prev next : Hash) : List UInt8 :=
  domainMessage "aegis-learning-chain-v1" (prev.bytes ++ next.bytes)

def chainHash (blake3 : Hasher) (prev next : Hash) : Hash :=
  blake3 (chainMessage prev next)

inductive LearningEventType
  | skillCreated (taskHash : Hash)
  | skillImproved (usageCount : BitVec 32) (improvementHash : Hash)
  | memoryCandidateCreated (candidateHash : Hash)
  | memoryCommitted (memoryHash : Hash)
  | memoryProjectionCommitted (memoryHash : Hash)
  | memoryPersisted (memoryHash : Hash)
  | userModelUpdated (modelHash : Hash)
  | sessionRecallIndexed (sessionHash : Hash)

namespace LearningEventType

def domain : LearningEventType → String
  | skillCreated _ => "aegis-learning-event-skill-created-v1"
  | skillImproved _ _ => "aegis-learning-event-skill-improved-v1"
  | memoryCandidateCreated _ => "aegis-learning-event-memory-candidate-created-v1"
  | memoryCommitted _ => "aegis-learning-event-memory-committed-v1"
  | memoryProjectionCommitted _ => "aegis-learning-event-memory-projection-committed-v1"
  | memoryPersisted _ => "aegis-learning-event-memory-persisted-v1"
  | userModelUpdated _ => "aegis-learning-event-user-model-updated-v1"
  | sessionRecallIndexed _ => "aegis-learning-event-session-recall-indexed-v1"

def contentHash : LearningEventType → Hash
  | skillCreated hash | skillImproved _ hash | memoryCandidateCreated hash | memoryCommitted hash
  | memoryProjectionCommitted hash | memoryPersisted hash | userModelUpdated hash
  | sessionRecallIndexed hash => hash

def payload : LearningEventType → List UInt8
  | skillImproved usageCount hash => u32Bytes usageCount ++ hash.bytes
  | eventType => eventType.contentHash.bytes

def message (eventType : LearningEventType) : List UInt8 :=
  domainMessage eventType.domain eventType.payload

def domainHash (blake3 : Hasher) (eventType : LearningEventType) : Hash :=
  blake3 eventType.message

end LearningEventType

structure LearningEvent where
  eventType : LearningEventType
  skillId : Option (BitVec 128)
  contentHash : Hash
  timestamp : BitVec 64
  sessionId : BitVec 128
  previousEventHash : Hash
  eventHash : Hash

namespace LearningEvent

def new (blake3 : Hasher) (eventType : LearningEventType) (skillId : Option (BitVec 128))
    (timestamp : BitVec 64) (sessionId : BitVec 128) (previousEventHash : Hash) :
    LearningEvent where
  eventType
  skillId
  contentHash := eventType.contentHash
  timestamp
  sessionId
  previousEventHash
  eventHash := eventType.domainHash blake3

/-- What an event says and how it is linked: all but the skill, the time and the session. -/
def linked (event : LearningEvent) : LearningEventType × Hash × Hash × Hash :=
  (event.eventType, event.contentHash, event.previousEventHash, event.eventHash)

def isValid (blake3 : Hasher) (event : LearningEvent) : Bool :=
  nonzeroHash event.eventHash && event.eventHash == event.eventType.domainHash blake3 &&
    nonzeroHash event.contentHash && 0 < event.timestamp && 0 < event.sessionId

theorem isValid_iff {blake3 : Hasher} {event : LearningEvent} : event.isValid blake3 = true ↔
    nonzeroHash event.eventHash = true ∧ event.eventHash = event.eventType.domainHash blake3 ∧
      nonzeroHash event.contentHash = true ∧ 0 < event.timestamp ∧ 0 < event.sessionId := by
  simp only [isValid, Bool.and_eq_true, beq_iff_eq, decide_eq_true_eq, and_assoc]

end LearningEvent

/-! ### Ledgers -/

structure LearningLedger where
  events : List LearningEvent := []
  ledgerHash : Hash := Hash.zero

/-- What a call of `append` brings. -/
structure AppendCall where
  eventType : LearningEventType
  skillId : Option (BitVec 128)
  timestamp : BitVec 64
  sessionId : BitVec 128

namespace LearningLedger

variable (blake3 : Hasher)

def append (ledger : LearningLedger) (call : AppendCall) : Hash × LearningLedger :=
  let event := LearningEvent.new blake3 call.eventType call.skillId call.timestamp call.sessionId
    ledger.ledgerHash
  (event.eventHash,
    { events := ledger.events ++ [event]
      ledgerHash := chainHash blake3 ledger.ledgerHash event.eventHash })

/-- The hash that the walk arrives at, if every event on the way is valid. -/
def walkFrom (computed : Hash) : List LearningEvent → Option Hash
  | [] => some computed
  | event :: events =>
      if event.isValid blake3 then walkFrom (chainHash blake3 computed event.eventHash) events
      else none

def verifyIntegrity (ledger : LearningLedger) : Bool :=
  walkFrom blake3 Hash.zero ledger.events == some ledger.ledgerHash

/-- The ledger after these calls. -/
def appended (calls : List AppendCall) : LearningLedger :=
  calls.foldl (fun ledger call => (ledger.append blake3 call).2) {}

/-- What is hashed on the walk. -/
def messagesFrom (computed : Hash) : List LearningEvent → List (List UInt8)
  | [] => []
  | event :: events =>
      event.eventType.message :: chainMessage computed event.eventHash ::
        messagesFrom (chainHash blake3 computed event.eventHash) events

def messages (ledger : LearningLedger) : List (List UInt8) :=
  messagesFrom blake3 Hash.zero ledger.events

end LearningLedger

/-! ### What the messages say -/

theorem domainMessage_inj {domain domain' : String} {payload payload' : List UInt8}
    (h : 0 ∉ utf8Bytes domain) (h' : 0 ∉ utf8Bytes domain')
    (same : domainMessage domain payload = domainMessage domain' payload') :
    domain = domain' ∧ payload = payload' := by
  have front (text : String) (noZero : 0 ∉ utf8Bytes text) (rest : List UInt8) :
      (domainMessage text rest).takeWhile (· != 0) = utf8Bytes text := by
    have others : ∀ byte ∈ utf8Bytes text, (byte != 0) = true := by
      simpa using fun byte mem => ne_of_mem_of_not_mem mem noZero
    rw [domainMessage, takeWhile_append_of_pos others]
    simp
  have texts : utf8Bytes domain = utf8Bytes domain' := by
    rw [← front domain h payload, same, front domain' h' payload']
  obtain rfl := utf8Bytes_injective texts
  exact ⟨rfl, (List.cons.inj (append_cancel_left same)).2⟩

theorem eq_of_bytes {hash other : Hash} (same : hash.bytes = other.bytes) : hash = other := by
  cases hash
  cases other
  simpa using same

theorem chainMessage_inj {prev next prev' next' : Hash}
    (same : chainMessage prev next = chainMessage prev' next') : prev = prev' ∧ next = next' := by
  have payloads := (domainMessage_inj (by decide +kernel) (by decide +kernel) same).2
  obtain ⟨front, back⟩ := append_inj payloads (by simp)
  exact ⟨eq_of_bytes front, eq_of_bytes back⟩

theorem noZero_domain (eventType : LearningEventType) : 0 ∉ utf8Bytes eventType.domain := by
  cases eventType <;>
    · simp only [LearningEventType.domain]
      decide +kernel

theorem message_injective : Function.Injective LearningEventType.message := by
  intro first second same
  obtain ⟨domains, payloads⟩ := domainMessage_inj (noZero_domain first) (noZero_domain second) same
  cases first <;> cases second <;> simp [LearningEventType.domain] at domains
  case skillImproved.skillImproved count hash count' hash' =>
    obtain ⟨front, back⟩ := append_inj payloads (by simp [u32Bytes])
    have counts := leBytes_inj count.isLt count'.isLt front
    rw [BitVec.eq_of_toNat_eq counts, eq_of_bytes back]
  all_goals
    exact congrArg _ (eq_of_bytes payloads)

/-! ### What the ledger hash says -/

namespace LearningLedger

open LearningEvent

variable {blake3 : Hasher} {computed : Hash} {events : List LearningEvent}

theorem walkFrom_eq_some_iff {hash : Hash} : walkFrom blake3 computed events = some hash ↔
    (∀ event ∈ events, event.isValid blake3 = true) ∧
      (events.map (·.eventHash)).foldl (chainHash blake3) computed = hash := by
  induction events generalizing computed with
  | nil => simp [walkFrom]
  | cons event events ih =>
      rw [walkFrom]
      split
      · rename_i valid
        simp [ih, valid]
      · rename_i invalid
        simp [invalid]

theorem verifyIntegrity_iff {ledger : LearningLedger} : ledger.verifyIntegrity blake3 = true ↔
    (∀ event ∈ ledger.events, event.isValid blake3 = true) ∧
      (ledger.events.map (·.eventHash)).foldl (chainHash blake3) Hash.zero = ledger.ledgerHash := by
  rw [verifyIntegrity, beq_iff_eq, walkFrom_eq_some_iff]

theorem hashes_of_valid (valid : ∀ event ∈ events, event.isValid blake3 = true) :
    events.map (·.eventHash) = (events.map (·.eventType)).map (·.domainHash blake3) := by
  rw [map_map]
  exact map_congr_left fun event mem => (isValid_iff.mp (valid event mem)).2.1

/-- Two walks that arrive at the same hash in as many steps have met the same types. -/
theorem types_of_walk {members : Set (List UInt8)} (apart : Set.InjOn blake3 members)
    {computed' : Hash} {events' : List LearningEvent}
    (mem : ∀ message ∈ messagesFrom blake3 computed events, message ∈ members)
    (mem' : ∀ message ∈ messagesFrom blake3 computed' events', message ∈ members)
    (valid : ∀ event ∈ events, event.isValid blake3 = true)
    (valid' : ∀ event ∈ events', event.isValid blake3 = true)
    (length : events.length = events'.length)
    (same : (events.map (·.eventHash)).foldl (chainHash blake3) computed =
      (events'.map (·.eventHash)).foldl (chainHash blake3) computed') :
    computed = computed' ∧ events.map (·.eventType) = events'.map (·.eventType) := by
  induction events generalizing computed computed' events' with
  | nil =>
      obtain rfl := length_eq_zero_iff.mp length.symm
      exact ⟨same, rfl⟩
  | cons event events ih =>
      cases events' with
      | nil => cases length
      | cons event' events' =>
          simp only [messagesFrom, forall_mem_cons] at mem mem' valid valid'
          obtain ⟨steps, rest⟩ := ih mem.2.2 mem'.2.2 valid.2 valid'.2 (Nat.succ.inj length) same
          obtain ⟨starts, hashes⟩ := chainMessage_inj (apart mem.2.1 mem'.2.1 steps)
          rw [(isValid_iff.mp valid.1).2.1, (isValid_iff.mp valid'.1).2.1] at hashes
          have types := message_injective (apart mem.1 mem'.1 hashes)
          rw [map_cons, map_cons, types, rest]
          exact ⟨starts, rfl⟩

theorem appended_concat (calls : List AppendCall) (call : AppendCall) :
    appended blake3 (calls ++ [call]) = ((appended blake3 calls).append blake3 call).2 := by
  rw [appended, foldl_append]
  rfl

theorem types_appended (calls : List AppendCall) :
    (appended blake3 calls).events.map (·.eventType) = calls.map (·.eventType) := by
  induction calls using reverseRecOn with
  | nil => rfl
  | append_singleton calls call ih =>
      rw [appended_concat, append, map_append, ih, map_append]
      rfl

/-- Calls with the same types link their events alike. -/
theorem linked_foldl_append {calls calls' : List AppendCall} {ledger ledger' : LearningLedger}
    (types : calls.map (·.eventType) = calls'.map (·.eventType))
    (hash : ledger.ledgerHash = ledger'.ledgerHash)
    (same : ledger.events.map (·.linked) = ledger'.events.map (·.linked)) :
    (calls.foldl (fun ledger call => (ledger.append blake3 call).2) ledger).events.map (·.linked) =
      (calls'.foldl (fun ledger call => (ledger.append blake3 call).2) ledger').events.map
        (·.linked) := by
  induction calls generalizing calls' ledger ledger' with
  | nil =>
      obtain rfl := map_eq_nil_iff.mp types.symm
      exact same
  | cons call calls ih =>
      cases calls' with
      | nil => cases types
      | cons call' calls' =>
          obtain ⟨first, rest⟩ := cons.inj types
          rw [foldl_cons, foldl_cons]
          refine ih rest ?_ ?_
          · simp only [append, LearningEvent.new, hash, first]
          · simp only [append, map_append, same]
            simp only [LearningEvent.new, linked, hash, first, map_cons, map_nil]

end LearningLedger

open LearningEvent LearningLedger

theorem nonzeroHash_of_ne {hash : Hash} (h : hash ≠ Hash.zero) : nonzeroHash hash = true := by
  by_contra zeros
  refine h (eq_of_bytes (eq_replicate_iff.mpr ⟨hash.length_eq, fun byte mem => ?_⟩))
  simp only [nonzeroHash, any_eq_true, not_exists, not_and, bne_iff_ne, not_not] at zeros
  exact zeros byte mem

/-- A call whose payload hash, timestamp and session are not zero. -/
def AppendCall.IsProper (call : AppendCall) : Prop :=
  nonzeroHash call.eventType.contentHash = true ∧ 0 < call.timestamp ∧ 0 < call.sessionId

/-- Ledgers that are built by proper calls are verified, unless a digest is zero. Two verified
ledgers of one length have the same hash exactly if their events have the same types, one after
the other, unless two messages collide; if both have been built by calls, their events are then
linked alike, too. -/
theorem ledger_hash_binds_event_types (blake3 : Hasher) :
    (∀ calls : List AppendCall,
      (∀ call ∈ calls, call.IsProper ∧ call.eventType.domainHash blake3 ≠ Hash.zero) →
      (appended blake3 calls).verifyIntegrity blake3 = true) ∧
    ∀ first second : LearningLedger,
      Set.InjOn blake3 { message | message ∈ first.messages blake3 ++ second.messages blake3 } →
      first.verifyIntegrity blake3 = true → second.verifyIntegrity blake3 = true →
      first.events.length = second.events.length →
      (first.ledgerHash = second.ledgerHash ↔
        first.events.map (·.eventType) = second.events.map (·.eventType)) ∧
      ∀ calls calls', first = appended blake3 calls → second = appended blake3 calls' →
        first.ledgerHash = second.ledgerHash →
        first.events.map (·.linked) = second.events.map (·.linked) := by
  constructor
  · intro calls proper
    induction calls using reverseRecOn with
    | nil => rfl
    | append_singleton calls call ih =>
        obtain ⟨before, last⟩ := forall_mem_append.mp proper
        obtain ⟨valid, hash⟩ := verifyIntegrity_iff.mp (ih before)
        obtain ⟨⟨content, time, session⟩, digest⟩ := last call (mem_singleton_self call)
        rw [appended_concat, verifyIntegrity_iff]
        refine ⟨forall_mem_append.mpr ⟨valid, forall_mem_singleton.mpr ?_⟩, ?_⟩
        · exact isValid_iff.mpr ⟨nonzeroHash_of_ne digest, rfl, content, time, session⟩
        · rw [append, map_append, foldl_append, hash]
          rfl
  · intro first second apart verified verified' length
    obtain ⟨valid, hash⟩ := verifyIntegrity_iff.mp verified
    obtain ⟨valid', hash'⟩ := verifyIntegrity_iff.mp verified'
    have binds (same : first.ledgerHash = second.ledgerHash) :
        first.events.map (·.eventType) = second.events.map (·.eventType) := by
      rw [← hash, ← hash'] at same
      exact (types_of_walk apart (fun _ => mem_append_left _)
        (fun _ => mem_append_right _) valid valid' length same).2
    refine ⟨⟨binds, fun types => ?_⟩, ?_⟩
    · rw [← hash, ← hash', hashes_of_valid valid, hashes_of_valid valid', types]
    · rintro calls calls' rfl rfl same
      have types := binds same
      rw [types_appended, types_appended] at types
      exact linked_foldl_append types rfl rfl

def createdDigest : Hash :=
  .ofNat 0x5c884ec9a2b95c86e2067543576d9f16cad8cecc2a67b06872238a6b8294852e

/-- BLAKE3 on the messages of a ledger whose only event is the creation of one skill. -/
def createdHasher : Hasher :=
  .ofTable [((LearningEventType.skillCreated (Hash.fill 1)).message, createdDigest),
    (chainMessage Hash.zero createdDigest,
      .ofNat 0x2b4897b2b0ef6a4b05afdb63ef75e5fe497a56c676242da0f17444e29a6c21f7)]

/-- A ledger whose only event is of this skill, time and session. -/
def createdBy (skillId : Option (BitVec 128)) (timestamp : BitVec 64) (sessionId : BitVec 128) :
    LearningLedger :=
  appended createdHasher
    [⟨.skillCreated (Hash.fill 1), skillId, timestamp, sessionId⟩]

/-- Two ledgers of different skills, times and sessions. -/
def firstLedger : LearningLedger := createdBy (some 1) 1 1

def secondLedger : LearningLedger := createdBy none 2 2

theorem ledgers_apart : Set.InjOn createdHasher
    { message | message ∈ firstLedger.messages createdHasher ++
      secondLedger.messages createdHasher } := by
  have apart : ∀ message ∈
        firstLedger.messages createdHasher ++ secondLedger.messages createdHasher,
      ∀ other ∈ firstLedger.messages createdHasher ++ secondLedger.messages createdHasher,
        createdHasher message = createdHasher other → message = other := by
    decide +kernel
  exact fun message mem other mem' => apart message mem other mem'

/-- The two ledgers are verified and have the same hash, since their events have the same type; so
their events are linked alike. -/
theorem ledgers_bound : firstLedger.ledgerHash = secondLedger.ledgerHash ∧
    firstLedger.events.map (·.linked) = secondLedger.events.map (·.linked) := by
  obtain ⟨verified, binds⟩ := ledger_hash_binds_event_types createdHasher
  have digest : (LearningEventType.skillCreated (Hash.fill 1)).domainHash createdHasher ≠
      Hash.zero := by decide +kernel
  have first : firstLedger.verifyIntegrity createdHasher = true :=
    verified _ (forall_mem_singleton.mpr ⟨⟨by decide, by decide, by decide⟩, digest⟩)
  have second : secondLedger.verifyIntegrity createdHasher = true :=
    verified _ (forall_mem_singleton.mpr ⟨⟨by decide, by decide, by decide⟩, digest⟩)
  obtain ⟨hashes, links⟩ := binds firstLedger secondLedger ledgers_apart first second rfl
  have same := hashes.mpr rfl
  exact ⟨same, links _ _ rfl rfl same⟩

/-- Verified ledgers of one length with the same hash may differ in the skill, the time and the
session of an event. -/
theorem ledger_hash_leaves_session_open :
    Set.InjOn createdHasher { message | message ∈ firstLedger.messages createdHasher ++
      secondLedger.messages createdHasher } ∧
    firstLedger.verifyIntegrity createdHasher = true ∧
    secondLedger.verifyIntegrity createdHasher = true ∧
    firstLedger.ledgerHash = secondLedger.ledgerHash ∧
    firstLedger.events.length = secondLedger.events.length ∧
    firstLedger.events.map (·.skillId) ≠ secondLedger.events.map (·.skillId) ∧
    firstLedger.events.map (·.timestamp) ≠ secondLedger.events.map (·.timestamp) ∧
    firstLedger.events.map (·.sessionId) ≠ secondLedger.events.map (·.sessionId) :=
  ⟨ledgers_apart, by decide +kernel, by decide +kernel, rfl, rfl, by decide, by decide, by decide⟩

end Aegis.Learning
