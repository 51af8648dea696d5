import AegisCognition.Coordination.Message
import AegisCognition.Foundation.Table

/-!
# The mailbox

A durable queue of messages in one table. Every call is one transaction: a call that fails
leaves the table as it was. Rows stand in the order of their delivery ids, which are never used
twice. A statement refuses numbers beyond 64 bits and texts that cannot be encoded.
-/

namespace Aegis.Coordination

open Foundation

inductive MailboxState
  | ready | leased | acked | dead
  deriving DecidableEq

/-- The message has left the queue for good. -/
def MailboxState.isTerminal : MailboxState → Bool
  | ready | leased => false
  | acked | dead => true

structure MailboxRow where
  deliveryId : Nat
  idempotencyKey : Text
  messageHash : Text
  payload : List UInt8
  state : MailboxState
  attempts : Nat
  availableAtMs : Nat
  leaseOwner : Option Text
  leaseUntilMs : Option Nat
  createdAtMs : Nat
  ackedAtMs : Option Nat
  terminalAtMs : Option Nat
  lastError : Option Text

/-- The table and the last delivery id that was given out. -/
structure MailboxStore where
  rows : List MailboxRow := []
  sequence : Nat := 0

/-- What a process fixes when it opens the mailbox; the constructor checks the bounds. -/
structure AgentMailbox where
  maxMessages : Nat
  maxBytes : Nat
  maxAttempts : Nat
  messages_mem : 1 ≤ maxMessages ∧ maxMessages ≤ 1000000
  bytes_mem : 1 ≤ maxBytes ∧ maxBytes ≤ 1024 * 1024 * 1024
  attempts_mem : 1 ≤ maxAttempts ∧ maxAttempts ≤ 100

structure AgentMailboxDelivery where
  deliveryId : Nat
  consumerId : Text
  message : AgentMessage
  attempts : Nat
  leaseUntilMs : Nat

/-- `_TERMINAL_RETENTION_MS`: thirty days. -/
def terminalRetentionMs : Nat := 30 * 24 * 60 * 60 * 1000

/-- The greatest number that a statement takes. -/
def sqliteMax : Nat := 2 ^ 63 - 1

/-- A number can be bound to a statement. -/
def bindInt (value : Nat) : Except CoordinationError Unit :=
  if value ≤ sqliteMax then .ok () else .error .overflow

/-- The start of the retention window, which may lie before the epoch, can be bound. -/
def bindWindow (nowMs : Nat) : Except CoordinationError Unit :=
  if nowMs ≤ sqliteMax + terminalRetentionMs then .ok () else .error .overflow

/-- A text can be bound to a statement. -/
def bindText (value : Text) : Except CoordinationError Unit := do
  let _ ← value.encode
  .ok ()

def checkConsumerId (value : Text) : Except CoordinationError Unit :=
  nonEmpty value "mailbox consumer_id" 128

def checkLeaseMs (value : Nat) : Except CoordinationError Unit :=
  require (decide (1 ≤ value) && decide (value ≤ 86400000))
    "mailbox lease_ms must be within [1, 86400000]"

namespace MailboxRow

/-- The retention window of a terminal row is over. -/
def isStale (nowMs : Nat) (row : MailboxRow) : Bool :=
  row.state.isTerminal && row.terminalAtMs.any fun terminal =>
    decide (terminal + terminalRetentionMs ≤ nowMs)

/-- The lease of the row is over. -/
def isExpired (nowMs : Nat) (row : MailboxRow) : Bool :=
  row.state = .leased && row.leaseUntilMs.any (· ≤ nowMs)

/-- The row is leased to this attempt of the consumer, and the lease is not over. -/
def isHeldBy (deliveryId : Nat) (consumerId : Text) (attempt nowMs : Nat) (row : MailboxRow) :
    Bool :=
  row.deliveryId == deliveryId && row.state = .leased && row.leaseOwner == some consumerId &&
    row.attempts == attempt && row.leaseUntilMs.any (nowMs < ·)

def isReadyAt (nowMs : Nat) (row : MailboxRow) : Bool :=
  row.state = .ready && decide (row.availableAtMs ≤ nowMs)

def bury (nowMs : Nat) (row : MailboxRow) : MailboxRow :=
  { row with state := .dead, leaseOwner := none, leaseUntilMs := none, terminalAtMs := some nowMs }

def free (row : MailboxRow) : MailboxRow :=
  { row with state := .ready, leaseOwner := none, leaseUntilMs := none, terminalAtMs := none }

def lease (attempts : Nat) (consumerId : Text) (leaseUntilMs : Nat) (row : MailboxRow) :
    MailboxRow :=
  { row with
    state := .leased, attempts, leaseOwner := some consumerId, leaseUntilMs := some leaseUntilMs }

def acknowledge (nowMs : Nat) (row : MailboxRow) : MailboxRow :=
  { row with
    state := .acked, leaseOwner := none, leaseUntilMs := none, ackedAtMs := some nowMs
    terminalAtMs := some nowMs }

def release (state : MailboxState) (availableAtMs : Nat) (error : Option Text)
    (terminalAtMs : Option Nat) (row : MailboxRow) : MailboxRow :=
  { row with
    state, availableAtMs, leaseOwner := none, leaseUntilMs := none, lastError := error
    terminalAtMs }

end MailboxRow

namespace MailboxStore

variable (sha256 : Sha256) (decode : List UInt8 → Except CoordinationError AgentMessage)
variable (store : MailboxStore) (mailbox : AgentMailbox)

/-- `_prune_terminal`. -/
def pruneTerminal (nowMs : Nat) : MailboxStore :=
  { store with rows := store.rows.filter fun row => !row.isStale nowMs }

/-- `_recover_expired`: the two updates, one after the other. -/
def recoverExpired (maxAttempts nowMs : Nat) : MailboxStore :=
  let buried := updateWhere (fun row => row.isExpired nowMs && decide (maxAttempts ≤ row.attempts))
    (MailboxRow.bury nowMs) store.rows
  { store with
    rows := updateWhere (fun row => row.isExpired nowMs && decide (row.attempts < maxAttempts))
      MailboxRow.free buried }

/-- The rows whose messages are still to be delivered. -/
def pending : List MailboxRow :=
  store.rows.filter fun row => !row.state.isTerminal

/-- What opening the mailbox does to its table. -/
def reopen (nowMs : Nat) : Except CoordinationError MailboxStore := do
  bindWindow nowMs
  .ok (store.pruneTerminal nowMs)

def enqueue (message : AgentMessage) (nowMs : Nat) :
    Except CoordinationError (Nat × MailboxStore) := do
  message.validate
  let payload ← message.toBytes sha256
  let messageHash ← message.messageHash sha256
  bindWindow nowMs
  let store := store.pruneTerminal nowMs
  match store.rows.find? (·.idempotencyKey = message.idempotencyKey) with
  | some existing =>
    if existing.messageHash ≠ messageHash then
      .error (.coordination "mailbox idempotency key is bound to different message bytes")
    else .ok (existing.deliveryId, store)
  | none =>
    let count := store.pending.length
    let retainedBytes := (store.pending.map (·.payload.length)).sum
    if mailbox.maxMessages ≤ count ∨ mailbox.maxBytes < retainedBytes + payload.length then
      .error (.coordination "mailbox capacity is exhausted")
    else do
      bindInt nowMs
      let row : MailboxRow :=
        { deliveryId := store.sequence + 1, idempotencyKey := message.idempotencyKey, messageHash,
          payload, state := .ready, attempts := 0, availableAtMs := nowMs, leaseOwner := none,
          leaseUntilMs := none, createdAtMs := nowMs, ackedAtMs := none, terminalAtMs := none,
          lastError := none }
      .ok (row.deliveryId, { rows := store.rows ++ [row], sequence := row.deliveryId })

def claim (consumerId : Text) (leaseMs nowMs : Nat) :
    Except CoordinationError (Option AgentMailboxDelivery × MailboxStore) := do
  checkConsumerId consumerId
  checkLeaseMs leaseMs
  bindInt nowMs
  let store := store.recoverExpired mailbox.maxAttempts nowMs
  match store.rows.find? (·.isReadyAt nowMs) with
  | none => .ok (none, store)
  | some row =>
    let attempts := row.attempts + 1
    let leaseUntilMs := nowMs + leaseMs
    bindText consumerId
    bindInt leaseUntilMs
    let rows := updateWhere
      (fun other => other.deliveryId == row.deliveryId && other.state = .ready)
      (MailboxRow.lease attempts consumerId leaseUntilMs) store.rows
    let message ← decode row.payload
    .ok (some { deliveryId := row.deliveryId, consumerId, message, attempts, leaseUntilMs },
      { store with rows })

def ack (deliveryId : Nat) (consumerId : Text) (expectedAttempt nowMs : Nat) :
    Except CoordinationError (Bool × MailboxStore) := do
  positiveInt deliveryId "mailbox delivery_id"
  checkConsumerId consumerId
  positiveInt expectedAttempt "mailbox expected_attempt"
  bindInt nowMs
  bindInt deliveryId
  bindText consumerId
  bindInt expectedAttempt
  let held := MailboxRow.isHeldBy deliveryId consumerId expectedAttempt nowMs
  .ok (store.rows.countP held == 1,
    { store with rows := updateWhere held (MailboxRow.acknowledge nowMs) store.rows })

def nack (deliveryId : Nat) (consumerId : Text) (expectedAttempt retryAfterMs : Nat)
    (error : Option Text) (nowMs : Nat) :
    Except CoordinationError (MailboxState × MailboxStore) := do
  positiveInt deliveryId "mailbox delivery_id"
  checkConsumerId consumerId
  positiveInt expectedAttempt "mailbox expected_attempt"
  require (decide (retryAfterMs ≤ 86400000)) "mailbox retry_after_ms must be within [0, 86400000]"
  checkSome (nonEmpty · "mailbox error" 1024) error
  bindInt deliveryId
  bindText consumerId
  bindInt expectedAttempt
  bindInt nowMs
  match store.rows.find? (MailboxRow.isHeldBy deliveryId consumerId expectedAttempt nowMs) with
  | none => .error (.coordination "mailbox delivery is not owned by this consumer")
  | some row =>
    let state : MailboxState := if mailbox.maxAttempts ≤ row.attempts then .dead else .ready
    bindInt (nowMs + retryAfterMs)
    checkSome bindText error
    let rows := updateWhere (·.deliveryId == deliveryId)
      (MailboxRow.release state (nowMs + retryAfterMs) error
        (if state = .dead then some nowMs else none)) store.rows
    .ok (state, { store with rows })

/-- The number of leases that were over, and the table after their recovery. -/
def recover (nowMs : Nat) : Except CoordinationError (Nat × MailboxStore) := do
  bindInt nowMs
  .ok (store.rows.countP (·.isExpired nowMs), store.recoverExpired mailbox.maxAttempts nowMs)

end MailboxStore

end Aegis.Coordination
