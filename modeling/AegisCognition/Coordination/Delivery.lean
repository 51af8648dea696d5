import AegisCognition.Coordination.Lifecycle

/-!
# Delivery by the mailbox

Processes open the mailbox, enqueue, claim, acknowledge, give back and recover in any order
while the clock does not go back. The state keeps beside the table what was answered about
every delivery id; the invariant says that every id is at a stage of its life.
-/

namespace Aegis.Coordination

open Foundation MailboxRow MailboxStore MessageHistory Text List Option

/-! ### What one transaction does to the table -/

namespace MailboxStore

def row (store : MailboxStore) (deliveryId : Nat) : Option MailboxRow :=
  store.rows.find? (·.deliveryId == deliveryId)

/-- The ids were given out by the sequence, and neither an id nor a key has two rows. -/
structure WellFormed (store : MailboxStore) : Prop where
  ids : (store.rows.map deliveryId).Nodup
  keys : (store.rows.map idempotencyKey).Nodup
  given : ∀ row ∈ store.rows, row.deliveryId ≤ store.sequence

variable {store : MailboxStore} {row : MailboxRow} {mailbox : AgentMailbox} {sha256 : Sha256}
variable {decode : List UInt8 → Except CoordinationError AgentMessage}
variable {deliveryId maxAttempts nowMs : Nat}

theorem row_eq_some (wf : store.WellFormed) (mem : row ∈ store.rows) :
    store.row row.deliveryId = some row :=
  find?_eq_some_of_unique wf.ids mem (beq_self_eq_true _) fun _ _ => beq_iff_eq.mp

theorem mem_of_row (present : store.row deliveryId = some row) :
    row ∈ store.rows ∧ row.deliveryId = deliveryId := by
  have same := List.find?_some present
  exact ⟨mem_of_find?_eq_some present, beq_iff_eq.mp same⟩

theorem row_eq_none (wf : store.WellFormed) (fresh : store.sequence < deliveryId) :
    store.row deliveryId = none := by
  rw [row, List.find?_eq_none]
  intro row mem same
  have := wf.given row mem
  have := beq_iff_eq.mp same
  omega

/-- An update that changes neither ids nor keys. -/
theorem WellFormed.update (wf : store.WellFormed) {p : MailboxRow → Bool}
    {f : MailboxRow → MailboxRow} (ids : ∀ row, (f row).deliveryId = row.deliveryId)
    (keys : ∀ row, (f row).idempotencyKey = row.idempotencyKey) :
    WellFormed { store with rows := updateWhere p f store.rows } where
  ids := by
    rw [map_updateWhere ids]
    exact wf.ids
  keys := by
    rw [map_updateWhere keys]
    exact wf.keys
  given := by
    intro row mem
    obtain ⟨old, present, rfl⟩ := mem_updateWhere.mp mem
    have := wf.given old present
    split
    · rwa [ids]
    · exact this

section Update

variable {p : MailboxRow → Bool} {f : MailboxRow → MailboxRow}

theorem row_update (ids : ∀ row, (f row).deliveryId = row.deliveryId) :
    ({ store with rows := updateWhere p f store.rows } : MailboxStore).row deliveryId =
      (store.row deliveryId).map fun row => if p row then f row else row :=
  find?_updateWhere fun row => by rw [ids]

theorem row_update_of_ne (store : MailboxStore) (ids : ∀ row, (f row).deliveryId = row.deliveryId)
    {other : Nat} (only : ∀ row, p row → row.deliveryId = deliveryId)
    (apart : other ≠ deliveryId) :
    ({ store with rows := updateWhere p f store.rows } : MailboxStore).row other =
      store.row other := by
  rw [row_update ids]
  cases present : store.row other with
  | none => rfl
  | some row =>
      rw [map_some, if_neg]
      intro selected
      exact apart ((mem_of_row present).2.symm.trans (only row selected))

theorem row_update_self (ids : ∀ row, (f row).deliveryId = row.deliveryId)
    (present : store.row deliveryId = some row) (selected : p row) :
    ({ store with rows := updateWhere p f store.rows } : MailboxStore).row deliveryId =
      some (f row) := by
  rw [row_update ids, present, map_some, if_pos selected]

end Update

theorem WellFormed.pruneTerminal (wf : store.WellFormed) :
    (store.pruneTerminal nowMs).WellFormed where
  ids := wf.ids.sublist (filter_sublist.map _)
  keys := wf.keys.sublist (filter_sublist.map _)
  given := fun row mem => wf.given row (mem_of_mem_filter mem)

theorem row_pruneTerminal (wf : store.WellFormed) :
    (store.pruneTerminal nowMs).row deliveryId =
      (store.row deliveryId).filter fun row => !row.isStale nowMs := by
  cases present : store.row deliveryId with
  | none =>
      rw [MailboxStore.row, List.find?_eq_none] at present
      exact List.find?_eq_none.mpr fun row mem => present row (mem_of_mem_filter mem)
  | some row =>
      obtain ⟨mem, rfl⟩ := mem_of_row present
      cases stale : row.isStale nowMs with
      | false =>
          rw [filter_some, if_pos (by rw [stale]; rfl)]
          exact row_eq_some wf.pruneTerminal (mem_filter.mpr ⟨mem, by rw [stale]; rfl⟩)
      | true =>
          rw [filter_some, if_neg (by simp [stale]), MailboxStore.row, List.find?_eq_none]
          intro other found same
          obtain ⟨here, fresh⟩ := mem_filter.mp found
          obtain rfl := eq_of_key_eq wf.ids here mem (beq_iff_eq.mp same)
          simp [stale] at fresh

theorem WellFormed.recoverExpired (wf : store.WellFormed) :
    (store.recoverExpired maxAttempts nowMs).WellFormed := by
  have buried := wf.update (f := MailboxRow.bury nowMs)
    (p := fun row => row.isExpired nowMs && decide (maxAttempts ≤ row.attempts)) (fun _ => rfl)
    fun _ => rfl
  exact buried.update (fun _ => rfl) fun _ => rfl

theorem row_recoverExpired : (store.recoverExpired maxAttempts nowMs).row deliveryId =
    (store.row deliveryId).map (MailboxRow.expire maxAttempts nowMs) := by
  have twice : (store.recoverExpired maxAttempts nowMs).row deliveryId = _ :=
    find?_updateWhere fun _ => rfl
  have once {p : MailboxRow → Bool} : (updateWhere p (MailboxRow.bury nowMs) store.rows).find?
      (·.deliveryId == deliveryId) = _ := find?_updateWhere fun _ => rfl
  rw [twice, once, Option.map_map]
  congr 1
  funext row
  by_cases expired : row.isExpired nowMs
  · by_cases last : maxAttempts ≤ row.attempts
    · have buried : (row.bury nowMs).isExpired nowMs = false := rfl
      simp [MailboxRow.expire, expired, last, buried]
    · simp [MailboxRow.expire, expired, last]
  · simp [MailboxRow.expire, expired]

/-- A new row takes the next delivery id. -/
theorem WellFormed.insert (wf : store.WellFormed) (id : row.deliveryId = store.sequence + 1)
    (fresh : ∀ other ∈ store.rows, other.idempotencyKey ≠ row.idempotencyKey) :
    WellFormed { rows := store.rows ++ [row], sequence := store.sequence + 1 } where
  ids := by
    refine nodup_map_concat wf.ids fun other mem => ?_
    have := wf.given other mem
    omega
  keys := nodup_map_concat wf.keys fresh
  given := by
    intro other mem
    obtain old | new := mem_append.mp mem
    · exact (wf.given other old).trans (Nat.le_succ _)
    · rw [mem_singleton.mp new, id]

theorem row_insert_of_ne {sequence : Nat} (apart : deliveryId ≠ row.deliveryId) :
    ({ rows := store.rows ++ [row], sequence } : MailboxStore).row deliveryId =
      store.row deliveryId := by
  rw [MailboxStore.row, List.find?_append, List.find?_singleton, if_neg, or_none]
  · rfl
  · simpa using apart.symm

/-- An answered claim: nothing was ready, or the first ready message was leased. -/
theorem claim_cases {consumerId : Text} {leaseMs : Nat} {answer : Option AgentMailboxDelivery}
    {after : MailboxStore}
    (done : store.claim decode mailbox consumerId leaseMs nowMs = .ok (answer, after)) :
    answer = none ∧ after = store.recoverExpired mailbox.maxAttempts nowMs ∨
    ∃ row message, row ∈ (store.recoverExpired mailbox.maxAttempts nowMs).rows ∧
      row.state = .ready ∧
      answer = some
        { deliveryId := row.deliveryId, consumerId, message, attempts := row.attempts + 1,
          leaseUntilMs := nowMs + leaseMs } ∧
      after =
        { store.recoverExpired mailbox.maxAttempts nowMs with
          rows := updateWhere
            (fun other => other.deliveryId == row.deliveryId && other.state = .ready)
            (MailboxRow.lease (row.attempts + 1) consumerId (nowMs + leaseMs))
            (store.recoverExpired mailbox.maxAttempts nowMs).rows } := by
  simp only [claim, bind_eq_ok_iff] at done
  obtain ⟨-, -, -, -, -, -, done⟩ := done
  split at done
  · obtain ⟨rfl, rfl⟩ := Prod.ext_iff.mp (Except.ok.inj done)
    exact .inl ⟨rfl, rfl⟩
  · rename_i row found
    simp only [bind_eq_ok_iff] at done
    obtain ⟨-, -, -, -, message, -, done⟩ := done
    obtain ⟨rfl, rfl⟩ := Prod.ext_iff.mp (Except.ok.inj done)
    have ready := List.find?_some found
    simp only [isReadyAt, Bool.and_eq_true, decide_eq_true_eq] at ready
    exact .inr ⟨row, message, mem_of_find?_eq_some found, ready.1, rfl, rfl⟩

/-- An answered acknowledgement: the row is held and acknowledged, or nothing changes. -/
theorem ack_cases (wf : store.WellFormed) {consumerId : Text} {attempt : Nat} {answer : Bool}
    {after : MailboxStore}
    (done : store.ack deliveryId consumerId attempt nowMs = .ok (answer, after)) :
    answer = false ∧ after = store ∨
    ∃ row, store.row deliveryId = some row ∧
      row.isHeldBy deliveryId consumerId attempt nowMs ∧ answer = true ∧
      after =
        { store with
          rows := updateWhere (isHeldBy deliveryId consumerId attempt nowMs)
            (MailboxRow.acknowledge nowMs) store.rows } := by
  simp only [ack, bind_eq_ok_iff] at done
  obtain ⟨-, -, -, -, -, -, -, -, -, -, -, -, -, -, done⟩ := done
  obtain ⟨rfl, rfl⟩ := Prod.ext_iff.mp (Except.ok.inj done)
  have named {row : MailboxRow} (holds : row.isHeldBy deliveryId consumerId attempt nowMs) :
      row.deliveryId = deliveryId := by
    simp only [isHeldBy, Bool.and_eq_true, beq_iff_eq] at holds
    exact holds.1.1.1.1
  by_cases found : ∃ row ∈ store.rows, row.isHeldBy deliveryId consumerId attempt nowMs
  · obtain ⟨row, mem, holds⟩ := found
    have present : store.row deliveryId = some row := named holds ▸ row_eq_some wf mem
    refine .inr ⟨row, present, holds, ?_, rfl⟩
    have once := countP_eq_one_of_unique wf.ids mem holds fun other _ same =>
      (named same).trans (named holds).symm
    rw [once]
    rfl
  · have none_held : ∀ row ∈ store.rows,
        row.isHeldBy deliveryId consumerId attempt nowMs = false := by
      intro row mem
      simpa using fun holds => found ⟨row, mem, holds⟩
    refine .inl ⟨?_, ?_⟩
    · rw [countP_eq_zero.mpr fun row mem => by simp [none_held row mem]]
      rfl
    · rw [updateWhere_eq_self none_held]

/-- A refusal that succeeds: the row is held and given back. -/
theorem nack_cases (wf : store.WellFormed) {consumerId : Text} {attempt retryAfterMs : Nat}
    {error : Option Text} {answer : MailboxState} {after : MailboxStore}
    (done : store.nack mailbox deliveryId consumerId attempt retryAfterMs error nowMs =
      .ok (answer, after)) :
    ∃ row, store.row deliveryId = some row ∧
      row.isHeldBy deliveryId consumerId attempt nowMs ∧
      answer = (if mailbox.maxAttempts ≤ row.attempts then .dead else .ready) ∧
      after =
        { store with
          rows := updateWhere (·.deliveryId == deliveryId)
            (MailboxRow.release answer (nowMs + retryAfterMs) error
              (if answer = .dead then some nowMs else none)) store.rows } := by
  simp only [nack, bind_eq_ok_iff] at done
  obtain ⟨-, -, -, -, -, -, -, -, -, -, -, -, -, -, -, -, -, -, done⟩ := done
  split at done
  · cases done
  · rename_i row found
    simp only [bind_eq_ok_iff] at done
    obtain ⟨-, -, -, -, done⟩ := done
    obtain ⟨rfl, rfl⟩ := Prod.ext_iff.mp (Except.ok.inj done)
    have holds := List.find?_some found
    have same : row.deliveryId = deliveryId := by
      simp only [isHeldBy, Bool.and_eq_true, beq_iff_eq] at holds
      exact holds.1.1.1.1
    exact ⟨row, same ▸ row_eq_some wf (mem_of_find?_eq_some found), holds, rfl, rfl⟩

/-- An accepted message: its key has a row with the same hash, or it gets a row of its own. -/
theorem enqueue_cases {message : AgentMessage} {answer : Nat} {after : MailboxStore}
    (done : store.enqueue sha256 mailbox message nowMs = .ok (answer, after)) :
    ∃ messageHash, message.messageHash sha256 = .ok messageHash ∧
      ((∃ row ∈ (store.pruneTerminal nowMs).rows, row.idempotencyKey = message.idempotencyKey ∧
        row.messageHash = messageHash ∧ answer = row.deliveryId ∧
        after = store.pruneTerminal nowMs) ∨
      (∀ row ∈ (store.pruneTerminal nowMs).rows, row.idempotencyKey ≠ message.idempotencyKey) ∧
        answer = store.sequence + 1 ∧ ∃ row, row.deliveryId = store.sequence + 1 ∧
          row.state = .ready ∧ row.attempts = 0 ∧
          row.idempotencyKey = message.idempotencyKey ∧ row.messageHash = messageHash ∧
          after =
            { rows := (store.pruneTerminal nowMs).rows ++ [row], sequence := store.sequence + 1 })
    := by
  simp only [enqueue, bind_eq_ok_iff] at done
  obtain ⟨-, -, payload, -, messageHash, hashed, -, -, done⟩ := done
  refine ⟨messageHash, hashed, ?_⟩
  split at done
  · rename_i row found
    split at done
    · cases done
    · rename_i same
      obtain ⟨rfl, rfl⟩ := Prod.ext_iff.mp (Except.ok.inj done)
      have key := List.find?_some found
      exact .inl ⟨row, mem_of_find?_eq_some found, decide_eq_true_iff.mp key,
        not_not.mp same, rfl, rfl⟩
  · rename_i absent
    split at done
    · cases done
    · simp only [bind_eq_ok_iff] at done
      obtain ⟨-, -, done⟩ := done
      obtain ⟨rfl, rfl⟩ := Prod.ext_iff.mp (Except.ok.inj done)
      refine .inr ⟨?_, rfl, _, rfl, rfl, rfl, rfl, rfl, rfl⟩
      intro row mem same
      exact absurd (decide_eq_true same) (List.find?_eq_none.mp absent row mem)

end MailboxStore

/-! ### Runs of calls -/

inductive MailboxCall
  | reopen
  | enqueue (message : AgentMessage)
  | claim (consumerId : Text) (leaseMs : Nat)
  | ack (deliveryId : Nat) (consumerId : Text) (expectedAttempt : Nat)
  | nack (deliveryId : Nat) (consumerId : Text) (expectedAttempt retryAfterMs : Nat)
      (error : Option Text)
  | recoverExpired

/-- A call of a process with the time at which it is made. -/
structure TimedCall where
  nowMs : Nat
  mailbox : AgentMailbox
  call : MailboxCall

/-- The table, the time of the last call, and what was answered about every delivery id. -/
structure DeliveryState where
  store : MailboxStore := {}
  clock : Nat := 0
  history : Nat → MessageHistory := fun _ => {}

namespace DeliveryState

variable (sha256 : Sha256) (decode : List UInt8 → Except CoordinationError AgentMessage)

section

variable (state : DeliveryState)

/-- The state once a call has changed the table. -/
def settle (after : MailboxStore) (nowMs : Nat) : DeliveryState where
  store := after
  clock := nowMs
  history := fun deliveryId =>
    (state.history deliveryId).noteEnd (state.store.row deliveryId) (after.row deliveryId) nowMs

/-- The state once something about a delivery id was answered. -/
def note (deliveryId : Nat) (f : MessageHistory → MessageHistory) : DeliveryState :=
  { state with history := Function.update state.history deliveryId (f (state.history deliveryId)) }

/-- What a call is answered: the table it leaves, and what is said about which delivery id. -/
def answer (timed : TimedCall) :
    Except CoordinationError (Option (Nat × (MessageHistory → MessageHistory)) × MailboxStore) :=
  match timed.call with
  | .reopen => do
    let after ← state.store.reopen timed.nowMs
    .ok (none, after)
  | .enqueue message => do
    let (deliveryId, after) ← state.store.enqueue sha256 timed.mailbox message timed.nowMs
    .ok (some (deliveryId, .addMessage message), after)
  | .claim consumerId leaseMs => do
    let (delivery?, after) ← state.store.claim decode timed.mailbox consumerId leaseMs timed.nowMs
    .ok (delivery?.map fun delivery => (delivery.deliveryId, .addClaim
      { consumerId := delivery.consumerId, attempt := delivery.attempts
        untilMs := delivery.leaseUntilMs }), after)
  | .ack deliveryId consumerId expectedAttempt => do
    let (acked, after) ← state.store.ack deliveryId consumerId expectedAttempt timed.nowMs
    .ok (if acked then some (deliveryId, .addAck consumerId expectedAttempt) else none, after)
  | .nack deliveryId consumerId expectedAttempt retryAfterMs error => do
    let (_, after) ← state.store.nack timed.mailbox deliveryId consumerId expectedAttempt
      retryAfterMs error timed.nowMs
    .ok (some (deliveryId, .addNack consumerId expectedAttempt), after)
  | .recoverExpired => do
    let (_, after) ← state.store.recover timed.mailbox timed.nowMs
    .ok (none, after)

/-- The state after a call with this answer. A call that fails changes nothing. -/
def afterAnswer (nowMs : Nat) :
    Except CoordinationError (Option (Nat × (MessageHistory → MessageHistory)) × MailboxStore) →
      DeliveryState
  | .ok (some (deliveryId, f), after) => (state.settle after nowMs).note deliveryId f
  | .ok (none, after) => state.settle after nowMs
  | .error _ => { state with clock := nowMs }

def step (timed : TimedCall) : DeliveryState :=
  state.afterAnswer timed.nowMs (state.answer sha256 decode timed)

end

/-- What holds after every call. -/
structure Inv (maxAttempts : Nat) (state : DeliveryState) : Prop where
  wellFormed : state.store.WellFormed
  lives : ∀ deliveryId, Lifecycle sha256 maxAttempts state.clock (state.store.row deliveryId)
    (state.history deliveryId)
  numbered : ∀ deliveryId, Numbered (state.history deliveryId).claims
  unborn : ∀ deliveryId, state.store.sequence < deliveryId → state.history deliveryId = {}

variable {sha256 decode} {state : DeliveryState} {maxAttempts nowMs deliveryId : Nat}
variable {after : MailboxStore} {mailbox : AgentMailbox}

theorem Inv.start : Inv sha256 maxAttempts {} where
  wellFormed := ⟨nodup_nil, nodup_nil, nofun⟩
  lives := fun _ => .unborn
  numbered := fun _ => rfl
  unborn := fun _ _ => rfl

section

variable (inv : Inv sha256 maxAttempts state)
include inv

theorem Inv.tick (forward : state.clock ≤ nowMs) :
    Inv sha256 maxAttempts { state with clock := nowMs } where
  wellFormed := inv.wellFormed
  lives := fun deliveryId => (inv.lives deliveryId).tick forward
  numbered := inv.numbered
  unborn := inv.unborn

/-- A call that changes the table and is answered about one delivery id. -/
theorem Inv.answer {f : MessageHistory → MessageHistory}
    (wellFormed : after.WellFormed) (grows : state.store.sequence ≤ after.sequence)
    (born : deliveryId ≤ after.sequence)
    (others : ∀ other, other ≠ deliveryId → Lifecycle sha256 maxAttempts nowMs (after.row other)
      ((state.history other).noteEnd (state.store.row other) (after.row other) nowMs))
    (this : Lifecycle sha256 maxAttempts nowMs (after.row deliveryId)
      (f ((state.history deliveryId).noteEnd (state.store.row deliveryId) (after.row deliveryId)
        nowMs)))
    (numbered : ∀ history : MessageHistory, history.claims = (state.history deliveryId).claims →
      Numbered (f history).claims) :
    Inv sha256 maxAttempts ((state.settle after nowMs).note deliveryId f) where
  wellFormed := wellFormed
  lives := by
    intro other
    by_cases same : other = deliveryId
    · obtain rfl := same
      simpa [note, settle] using this
    · simpa [note, settle, same] using others other same
  numbered := by
    intro other
    by_cases same : other = deliveryId
    · obtain rfl := same
      simpa [note, settle] using numbered _ noteEnd_claims
    · simpa [note, settle, same, noteEnd_claims] using inv.numbered other
  unborn := by
    intro other (fresh : after.sequence < other)
    have apart : other ≠ deliveryId := by omega
    have old : state.store.sequence < other := by omega
    simp [note, settle, apart, inv.unborn other old, row_eq_none inv.wellFormed old, noteEnd]

/-- A call that changes the table and is answered about none of the delivery ids. -/
theorem Inv.settle
    (wellFormed : after.WellFormed) (grows : state.store.sequence ≤ after.sequence)
    (lives : ∀ deliveryId, Lifecycle sha256 maxAttempts nowMs (after.row deliveryId)
      ((state.history deliveryId).noteEnd (state.store.row deliveryId) (after.row deliveryId)
        nowMs)) :
    Inv sha256 maxAttempts (state.settle after nowMs) := by
  have same : (state.settle after nowMs).note 0 id = state.settle after nowMs := by
    simp [note]
  rw [← same]
  refine inv.answer wellFormed grows (Nat.zero_le _) (fun other _ => lives other) (lives 0) ?_
  intro history claims
  rw [id, claims]
  exact inv.numbered 0

/-- A table that was pruned, or only whose other rows changed since. -/
theorem Inv.prunedLife (deliveryId : Nat)
    (forward : state.clock ≤ nowMs)
    (same : after.row deliveryId = (state.store.pruneTerminal nowMs).row deliveryId) :
    Lifecycle sha256 maxAttempts nowMs (after.row deliveryId)
      ((state.history deliveryId).noteEnd (state.store.row deliveryId) (after.row deliveryId)
        nowMs) := by
  have pruned := (inv.lives deliveryId).prune forward
  rw [same, row_pruneTerminal inv.wellFormed]
  cases before : state.store.row deliveryId with
  | none =>
      rw [before] at pruned
      exact pruned
  | some row =>
      rw [before] at pruned
      rw [noteEnd_of_kept]
      · exact pruned
      · intro kept present
        exact (filter_eq_some_iff.mp present).1

theorem Inv.reopen (forward : state.clock ≤ nowMs) :
    Inv sha256 maxAttempts (state.settle (state.store.pruneTerminal nowMs) nowMs) :=
  inv.settle inv.wellFormed.pruneTerminal le_rfl fun _ => inv.prunedLife _ forward rfl

end

variable {message : AgentMessage}

section

variable (inv : Inv sha256 maxAttempts state)
include inv

theorem Inv.enqueue (forward : state.clock ≤ nowMs)
    (some_attempt : 1 ≤ maxAttempts)
    (done : state.store.enqueue sha256 mailbox message nowMs = .ok (deliveryId, after)) :
    Inv sha256 maxAttempts ((state.settle after nowMs).note deliveryId (.addMessage message)) := by
  obtain ⟨messageHash, hashed, ⟨row, mem, key, hash, rfl, rfl⟩ | ⟨absent, rfl, row, id, ready,
    attempts, key, hash, rfl⟩⟩ := enqueue_cases done
  · have wf : (state.store.pruneTerminal nowMs).WellFormed := inv.wellFormed.pruneTerminal
    refine inv.answer wf le_rfl (wf.given row mem)
      (fun other _ => inv.prunedLife _ forward rfl) ?_ fun history claims => ?_
    · have life := inv.prunedLife row.deliveryId forward rfl
      rw [row_eq_some wf mem] at life ⊢
      exact life.enqueue ⟨key, hashed.trans (congrArg Except.ok hash.symm)⟩
    · show Numbered history.claims
      rw [claims]
      exact inv.numbered _
  · have pruned : (state.store.pruneTerminal nowMs).WellFormed := inv.wellFormed.pruneTerminal
    have wf : MailboxStore.WellFormed
        { rows := (state.store.pruneTerminal nowMs).rows ++ [row]
          sequence := state.store.sequence + 1 } :=
      pruned.insert id fun other mem => key ▸ absent other mem
    have present := row_eq_some wf (mem_append_right _ mem_cons_self)
    rw [id] at present
    have unborn := inv.unborn _ (Nat.lt_succ_self state.store.sequence)
    refine inv.answer wf (Nat.le_succ _) le_rfl (fun other apart => inv.prunedLife _ forward ?_) ?_
      fun history claims => ?_
    · exact row_insert_of_ne (id ▸ apart)
    · have running : ¬ row.state.isTerminal := isTerminal_of_ready ready
      rw [present, unborn, noteEnd_of_running (by rintro _ ⟨rfl⟩; exact running)]
      have born : Lifecycle sha256 maxAttempts nowMs (some row) {} :=
        .ready ready attempts (attempts ▸ some_attempt) nofun rfl rfl nofun
      exact born.enqueue ⟨key, hashed.trans (congrArg Except.ok hash.symm)⟩
    · show Numbered history.claims
      rw [claims]
      exact inv.numbered _

/-- A message that a recovery left as it is, or only whose lease it ended. -/
theorem Inv.expiredLife (deliveryId : Nat)
    (forward : state.clock ≤ nowMs)
    (same : after.row deliveryId = (state.store.recoverExpired maxAttempts nowMs).row deliveryId) :
    Lifecycle sha256 maxAttempts nowMs (after.row deliveryId)
      ((state.history deliveryId).noteEnd (state.store.row deliveryId) (after.row deliveryId)
        nowMs) := by
  rw [same, row_recoverExpired]
  exact (inv.lives deliveryId).expire forward

theorem Inv.unchanged (forward : state.clock ≤ nowMs) :
    Inv sha256 maxAttempts (state.settle state.store nowMs) := by
  refine inv.settle inv.wellFormed le_rfl fun deliveryId => ?_
  rw [noteEnd_of_kept fun _ => id]
  exact (inv.lives deliveryId).tick forward

theorem Inv.recover (forward : state.clock ≤ nowMs) :
    Inv sha256 maxAttempts
      (state.settle (state.store.recoverExpired maxAttempts nowMs) nowMs) :=
  inv.settle inv.wellFormed.recoverExpired le_rfl fun _ => inv.expiredLife _ forward rfl

end

variable {consumerId : Text}

theorem Inv.claim (inv : Inv sha256 mailbox.maxAttempts state) (forward : state.clock ≤ nowMs)
    {leaseMs : Nat} {delivery : AgentMailboxDelivery}
    (done : state.store.claim decode mailbox consumerId leaseMs nowMs =
      .ok (some delivery, after)) :
    Inv sha256 mailbox.maxAttempts ((state.settle after nowMs).note delivery.deliveryId <| .addClaim
      { consumerId := delivery.consumerId, attempt := delivery.attempts,
        untilMs := delivery.leaseUntilMs }) := by
  obtain ⟨⟨⟩, -⟩ | ⟨row, message, mem, ready, answer, rfl⟩ := claim_cases done
  cases answer
  have recovered : (state.store.recoverExpired mailbox.maxAttempts nowMs).WellFormed :=
    inv.wellFormed.recoverExpired
  have before := row_eq_some recovered mem
  let p (other : MailboxRow) := other.deliveryId == row.deliveryId && other.state = .ready
  have selects (other : MailboxRow) (selected : p other) : other.deliveryId = row.deliveryId := by
    simp only [p, Bool.and_eq_true, beq_iff_eq] at selected
    exact selected.1
  let f := MailboxRow.lease (row.attempts + 1) consumerId (nowMs + leaseMs)
  have life := inv.expiredLife row.deliveryId forward rfl
  rw [before, noteEnd_of_running] at life
  · refine inv.answer (recovered.update (f := f) (fun _ => rfl) fun _ => rfl) le_rfl
      (recovered.given row mem) (fun other apart => inv.expiredLife _ forward ?_) ?_
      fun history claims => ?_
    · exact row_update_of_ne _ (f := f) (fun _ => rfl) selects apart
    · have leased := row_update_self (p := p) (f := f) (fun _ => rfl) before
        (by simp [p, ready])
      rw [leased, noteEnd_of_running]
      · exact life.lease ready consumerId (nowMs + leaseMs)
      · rintro _ ⟨rfl⟩
        exact isTerminal_of_leased rfl
    · refine Numbered.concat (claims ▸ inv.numbered row.deliveryId) ?_
      show row.attempts + 1 = history.claims.length + 1
      rw [claims, life.attempts_of_ready ready]
  · rintro _ ⟨rfl⟩
    exact isTerminal_of_ready ready

theorem Inv.ack (inv : Inv sha256 maxAttempts state) (forward : state.clock ≤ nowMs)
    {attempt : Nat}
    (done : state.store.ack deliveryId consumerId attempt nowMs = .ok (true, after)) :
    Inv sha256 maxAttempts
      ((state.settle after nowMs).note deliveryId (.addAck consumerId attempt)) := by
  obtain ⟨⟨⟩, -⟩ | ⟨row, present, holds, -, rfl⟩ := ack_cases inv.wellFormed done
  obtain ⟨mem, same⟩ := mem_of_row present
  have life := inv.lives deliveryId
  rw [present] at life
  let p := isHeldBy deliveryId consumerId attempt nowMs
  let f := MailboxRow.acknowledge nowMs
  refine inv.answer (inv.wellFormed.update (f := f) (fun _ => rfl) fun _ => rfl) le_rfl
    (same ▸ inv.wellFormed.given row mem) (fun other apart => ?_) ?_ fun history claims => ?_
  · have kept := state.store.row_update_of_ne (p := p) (f := f) (fun _ => rfl)
      (fun _ => deliveryId_of_isHeldBy) apart
    rw [kept, noteEnd_of_kept fun _ => id]
    exact (inv.lives other).tick forward
  · have acked := row_update_self (f := f) (fun _ => rfl) present holds
    rw [acked, present]
    exact life.acknowledge holds forward
  · exact (claims ▸ inv.numbered deliveryId : Numbered history.claims).releaseClaim

theorem Inv.nack (inv : Inv sha256 mailbox.maxAttempts state) (forward : state.clock ≤ nowMs)
    {attempt retryAfterMs : Nat} {error : Option Text} {answer : MailboxState}
    (done : state.store.nack mailbox deliveryId consumerId attempt retryAfterMs error nowMs =
      .ok (answer, after)) :
    Inv sha256 mailbox.maxAttempts
      ((state.settle after nowMs).note deliveryId (.addNack consumerId attempt)) := by
  obtain ⟨row, present, holds, next, rfl⟩ := nack_cases inv.wellFormed done
  obtain ⟨mem, same⟩ := mem_of_row present
  have life := inv.lives deliveryId
  rw [present] at life
  let f := MailboxRow.release answer (nowMs + retryAfterMs) error
    (if answer = .dead then some nowMs else none)
  refine inv.answer (inv.wellFormed.update (f := f) (fun _ => rfl) fun _ => rfl) le_rfl
    (same ▸ inv.wellFormed.given row mem) (fun other apart => ?_) ?_ fun history claims => ?_
  · have kept := state.store.row_update_of_ne (f := f) (fun _ => rfl) (fun _ => beq_iff_eq.mp) apart
    rw [kept, noteEnd_of_kept fun _ => id]
    exact (inv.lives other).tick forward
  · have released := row_update_self (f := f) (fun _ => rfl) present
      (p := (·.deliveryId == deliveryId)) (beq_iff_eq.mpr same)
    rw [released, present]
    exact life.giveBack holds forward _ error next
  · exact (claims ▸ inv.numbered deliveryId : Numbered history.claims).releaseClaim

/-- Every call keeps the invariant. -/
theorem Inv.step (inv : Inv sha256 maxAttempts state) (timed : TimedCall)
    (same : timed.mailbox.maxAttempts = maxAttempts) (forward : state.clock ≤ timed.nowMs) :
    Inv sha256 maxAttempts (state.step sha256 decode timed) := by
  obtain ⟨nowMs, mailbox, call⟩ := timed
  obtain rfl := same
  rw [DeliveryState.step]
  cases done : DeliveryState.answer sha256 decode state ⟨nowMs, mailbox, call⟩ with
  | error => exact inv.tick forward
  | ok answer =>
      cases call with
      | reopen =>
          obtain ⟨after, opened, ⟨⟩⟩ := bind_eq_ok_iff.mp done
          obtain ⟨-, -, ⟨⟩⟩ := bind_eq_ok_iff.mp opened
          exact inv.reopen forward
      | enqueue message =>
          obtain ⟨⟨deliveryId, after⟩, enqueued, ⟨⟩⟩ := bind_eq_ok_iff.mp done
          exact inv.enqueue forward mailbox.attempts_mem.1 enqueued
      | claim consumerId leaseMs =>
          obtain ⟨⟨_ | delivery, after⟩, claimed, ⟨⟩⟩ := bind_eq_ok_iff.mp done
          · obtain ⟨-, rfl⟩ | ⟨_, _, _, _, ⟨⟩, _⟩ := claim_cases claimed
            exact inv.recover forward
          · exact inv.claim forward claimed
      | ack deliveryId consumerId expectedAttempt =>
          obtain ⟨⟨_ | _, after⟩, acked, ⟨⟩⟩ := bind_eq_ok_iff.mp done
          · obtain ⟨-, rfl⟩ | ⟨_, _, _, ⟨⟩, _⟩ := ack_cases inv.wellFormed acked
            exact inv.unchanged forward
          · exact inv.ack forward acked
      | nack deliveryId consumerId expectedAttempt retryAfterMs error =>
          obtain ⟨⟨state, after⟩, released, ⟨⟩⟩ := bind_eq_ok_iff.mp done
          exact inv.nack forward released
      | recoverExpired =>
          obtain ⟨⟨count, after⟩, recovered, ⟨⟩⟩ := bind_eq_ok_iff.mp done
          obtain ⟨-, -, ⟨⟩⟩ := bind_eq_ok_iff.mp recovered
          exact inv.recover forward

@[simp] theorem clock_step (state : DeliveryState) (timed : TimedCall) :
    (state.step sha256 decode timed).clock = timed.nowMs := by
  rw [step]
  obtain _ | ⟨_ | _, _⟩ := state.answer sha256 decode timed <;> rfl

/-- Calls at times that do not go back keep the invariant, and the clock shows the last time. -/
theorem Inv.run {calls : List TimedCall} (inv : Inv sha256 maxAttempts state)
    (same : ∀ timed ∈ calls, timed.mailbox.maxAttempts = maxAttempts)
    (forward : calls.Pairwise fun first second => first.nowMs ≤ second.nowMs)
    (later : ∀ timed ∈ calls, state.clock ≤ timed.nowMs) (past : state.clock ≤ nowMs)
    (seen : ∀ timed ∈ calls, timed.nowMs ≤ nowMs) :
    Inv sha256 maxAttempts (Foundation.run (DeliveryState.step sha256 decode) state calls) ∧
      (Foundation.run (DeliveryState.step sha256 decode) state calls).clock ≤ nowMs := by
  induction calls generalizing state with
  | nil => exact ⟨inv, past⟩
  | cons timed calls ih =>
      obtain ⟨first, rest⟩ := pairwise_cons.mp forward
      obtain ⟨this, others⟩ := forall_mem_cons.mp same
      refine ih (inv.step timed this (later timed mem_cons_self)) others rest ?_ ?_ ?_
      · intro next mem
        rw [clock_step]
        exact first next mem
      · rw [clock_step]
        exact seen timed mem_cons_self
      · exact fun next mem => seen next (mem_cons_of_mem _ mem)

/-- What the mailbox promises from a time on. -/
structure Delivers (sha256 : Sha256) (maxAttempts nowMs : Nat) (state : DeliveryState) : Prop where
  /-- At most one claim of a message is open. -/
  exclusive : ∀ deliveryId,
    ((state.history deliveryId).claims.filter (Claim.isOpen nowMs)).length ≤ 1
  /-- The claims of a message are numbered, and there are at most so many of them. -/
  numbered : ∀ deliveryId, Numbered (state.history deliveryId).claims
  bounded : ∀ deliveryId, (state.history deliveryId).claims.length ≤ maxAttempts
  /-- Only the consumer and the attempt of an open claim acknowledge a message or give it back. -/
  acknowledged : ∀ deliveryId consumerId attempt after,
    state.store.ack deliveryId consumerId attempt nowMs = .ok (true, after) →
      ∃ claim ∈ (state.history deliveryId).claims,
        claim.consumerId = consumerId ∧ claim.attempt = attempt ∧ claim.isOpen nowMs
  givenBack : ∀ mailbox deliveryId consumerId attempt retryAfterMs error answer,
    state.store.nack mailbox deliveryId consumerId attempt retryAfterMs error nowMs = .ok answer →
      ∃ claim ∈ (state.history deliveryId).claims,
        claim.consumerId = consumerId ∧ claim.attempt = attempt ∧ claim.isOpen nowMs
  acked_once : ∀ deliveryId, (state.history deliveryId).acks ≤ 1
  /-- A message that was enqueued is ready or leased, unless it was acknowledged or had all its
  claims. -/
  kept : ∀ deliveryId, (state.history deliveryId).enqueued ≠ [] →
    (∃ row, state.store.row deliveryId = some row ∧ ¬ row.state.isTerminal) ∨
      (state.history deliveryId).acks = 1 ∨
      (state.history deliveryId).claims.length = maxAttempts
  /-- Within the retention window a key that was enqueued gets its delivery id again, and no
  other bytes do. -/
  deduplicated : ∀ deliveryId, ∀ message ∈ (state.history deliveryId).enqueued,
    ∀ mailbox again, again.idempotencyKey = message.idempotencyKey →
    (∀ endedAtMs, (state.history deliveryId).endedAtMs = some endedAtMs →
      nowMs < endedAtMs + terminalRetentionMs) →
    ∀ bytes, message.hashedBytes = .ok bytes → ∀ others, again.hashedBytes = .ok others →
    (∀ answer after, state.store.enqueue sha256 mailbox again nowMs = .ok (answer, after) →
      answer = deliveryId ∧ ((sha256 others = sha256 bytes → others = bytes) → others = bytes)) ∧
    (others = bytes → again.validate = .ok () → (∃ payload, again.toBytes sha256 = .ok payload) →
      nowMs ≤ sqliteMax → ∃ after, state.store.enqueue sha256 mailbox again nowMs =
        .ok (deliveryId, after))

section

variable (inv : Inv sha256 maxAttempts state)
include inv

/-- The row of a message that was enqueued outlasts the pruning within the retention window. -/
theorem Inv.retained (forward : state.clock ≤ nowMs)
    (mem : message ∈ (state.history deliveryId).enqueued)
    (within : ∀ endedAtMs, (state.history deliveryId).endedAtMs = some endedAtMs →
      nowMs < endedAtMs + terminalRetentionMs) :
    ∃ row ∈ (state.store.pruneTerminal nowMs).rows, row.deliveryId = deliveryId ∧
      row.Binds sha256 message := by
  obtain ⟨row, present, fresh, binds⟩ :=
    (inv.lives deliveryId).row_of_enqueued mem forward within
  obtain ⟨here, same⟩ := mem_of_row present
  exact ⟨row, mem_filter.mpr ⟨here, by simpa using fresh⟩, same, binds⟩

theorem Inv.holder {row : MailboxRow}
    {attempt : Nat} (present : state.store.row deliveryId = some row)
    (holds : row.isHeldBy deliveryId consumerId attempt nowMs) :
    ∃ claim ∈ (state.history deliveryId).claims,
      claim.consumerId = consumerId ∧ claim.attempt = attempt ∧ claim.isOpen nowMs := by
  have life := inv.lives deliveryId
  rw [present] at life
  obtain ⟨-, -, -, -, -, -, -, earlier, claim, claims, -, found⟩ := life.held holds
  exact ⟨claim, by simp [claims], found⟩

theorem Inv.deduplicated (forward : state.clock ≤ nowMs)
    {again : AgentMessage} (mem : message ∈ (state.history deliveryId).enqueued)
    (key : again.idempotencyKey = message.idempotencyKey)
    (within : ∀ endedAtMs, (state.history deliveryId).endedAtMs = some endedAtMs →
      nowMs < endedAtMs + terminalRetentionMs) {bytes others : List UInt8}
    (hashed : message.hashedBytes = .ok bytes) (rehashed : again.hashedBytes = .ok others) :
    (∀ answer after, state.store.enqueue sha256 mailbox again nowMs = .ok (answer, after) →
      answer = deliveryId ∧ ((sha256 others = sha256 bytes → others = bytes) → others = bytes)) ∧
    (others = bytes → again.validate = .ok () → (∃ payload, again.toBytes sha256 = .ok payload) →
      nowMs ≤ sqliteMax → ∃ after, state.store.enqueue sha256 mailbox again nowMs =
        .ok (deliveryId, after)) := by
  obtain ⟨row, here, rfl, rowKey, rowHash⟩ := inv.retained forward mem within
  have wf : (state.store.pruneTerminal nowMs).WellFormed := inv.wellFormed.pruneTerminal
  rw [message.messageHash_of_hashedBytes hashed] at rowHash
  have rehash : again.messageHash sha256 = _ := again.messageHash_of_hashedBytes rehashed
  constructor
  · intro answer after done
    obtain ⟨messageHash, found, ⟨other, there, otherKey, otherHash, rfl, rfl⟩ | ⟨absent, -⟩⟩ :=
      enqueue_cases done
    · obtain rfl := eq_of_key_eq wf.keys there here (by rw [otherKey, key, rowKey])
      refine ⟨rfl, fun distinct => distinct ?_⟩
      rw [rehash] at found
      exact (Except.ok.inj found).trans (otherHash.symm.trans (Except.ok.inj rowHash).symm)
    · exact absurd (rowKey.trans key.symm) (absent row here)
  · rintro rfl valid ⟨payload, encoded⟩ bounded
    have found : (state.store.pruneTerminal nowMs).rows.find?
        (fun other => decide (other.idempotencyKey = again.idempotencyKey)) = some row :=
      find?_eq_some_of_unique wf.keys here (decide_eq_true (rowKey.trans key.symm))
        fun other _ same => (of_decide_eq_true same).trans (rowKey.trans key.symm).symm
    have window : bindWindow nowMs = .ok () := if_pos (bounded.trans (Nat.le_add_right _ _))
    have same : ¬ row.messageHash ≠ sha256 others := by
      rw [← Except.ok.inj rowHash]
      exact fun differs => differs rfl
    refine ⟨state.store.pruneTerminal nowMs, ?_⟩
    simp only [MailboxStore.enqueue, valid, encoded, rehash, window, bind, Except.bind, found,
      if_neg same]

/-- At any later time. -/
theorem Inv.delivers (forward : state.clock ≤ nowMs) :
    Delivers sha256 maxAttempts nowMs state where
  exclusive := fun deliveryId => (inv.lives deliveryId).open_le_one forward
  numbered := inv.numbered
  bounded := fun deliveryId => (inv.lives deliveryId).claims_le
  acknowledged := by
    intro deliveryId consumerId attempt after done
    obtain ⟨⟨⟩, -⟩ | ⟨row, present, holds, -, -⟩ := ack_cases inv.wellFormed done
    exact inv.holder present holds
  givenBack := by
    intro mailbox deliveryId consumerId attempt retryAfterMs error answer done
    obtain ⟨row, present, holds, -, -⟩ := nack_cases inv.wellFormed done
    exact inv.holder present holds
  acked_once := fun deliveryId => (inv.lives deliveryId).acks_le_one
  kept := fun deliveryId born => (inv.lives deliveryId).not_lost born
  deduplicated := fun _ _ mem _ _ key within _ hashed _ rehashed =>
    inv.deduplicated forward mem key within hashed rehashed

end

end DeliveryState

/-- The state that a run of calls reaches from an empty mailbox. -/
def delivered (sha256 : Sha256) (decode : List UInt8 → Except CoordinationError AgentMessage)
    (calls : List TimedCall) : DeliveryState :=
  run (DeliveryState.step sha256 decode) {} calls

/-- Calls of any processes with the same bound on attempts, made while the clock does not go
back: from the time of the last call on the mailbox keeps its promises. -/
theorem mailbox_delivers (sha256 : Sha256)
    (decode : List UInt8 → Except CoordinationError AgentMessage) (maxAttempts : Nat)
    (calls : List TimedCall) (same : ∀ timed ∈ calls, timed.mailbox.maxAttempts = maxAttempts)
    (forward : calls.Pairwise fun first second => first.nowMs ≤ second.nowMs) (nowMs : Nat)
    (seen : ∀ timed ∈ calls, timed.nowMs ≤ nowMs) :
    (delivered sha256 decode calls).Delivers sha256 maxAttempts nowMs := by
  obtain ⟨inv, past⟩ := DeliveryState.Inv.start.run same forward (fun _ _ => Nat.zero_le _)
    (Nat.zero_le nowMs) seen
  exact inv.delivers past

/-! ### A message that changes hands -/

def listRequest : AgentMessage where
  messageKind := .taskRequest
  runId := ofString "run-1"
  senderId := root
  recipientId := ofString "subagent:7"
  taskId := 7
  parentTaskId := none
  attemptId := 1
  idempotencyKey := ofString "run-1:7:1:request"
  payload := [(ofString "prompt", text "list the files")]
  artifactRefs := []
  tokenBudget := none
  deadlineMs := none

def twoAttempts : AgentMailbox where
  maxMessages := 10
  maxBytes := 100000
  maxAttempts := 2
  messages_mem := by decide
  bytes_mem := by decide
  attempts_mem := by decide

/-- SHA-256 on the bytes of the request. -/
def requestSha256 : Sha256 := fun _ =>
  ofString "921cdabffae2868d4491fb2a00fc3d2816ed02815e5a92ee089a0468e1cfe739"

/-- The first worker lets its lease run out and comes back late; the second one acknowledges. -/
def handoverCalls : List TimedCall :=
  let workerA := ofString "worker-a"
  let workerB := ofString "worker-b"
  [⟨1000, twoAttempts, .enqueue listRequest⟩, ⟨1010, twoAttempts, .claim workerA 100⟩,
    ⟨1200, twoAttempts, .claim workerB 100⟩, ⟨1210, twoAttempts, .ack 1 workerA 1⟩,
    ⟨1220, twoAttempts, .ack 1 workerB 2⟩]

def handover : DeliveryState :=
  delivered requestSha256 (fun _ => .ok listRequest) handoverCalls

theorem handover_delivers :
    (handover.history 1).claims.length = 2 ∧ (handover.history 1).acks = 1 ∧
      handover.Delivers requestSha256 2 1220 :=
  ⟨by decide +kernel, by decide +kernel,
    mailbox_delivers requestSha256 (fun _ => .ok listRequest) 2 handoverCalls (by decide)
      (by decide) 1220 (by decide)⟩

end Aegis.Coordination
