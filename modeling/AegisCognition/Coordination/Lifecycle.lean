import AegisCognition.Coordination.Mailbox

/-!
# The life of one message

Everything that the mailbox answers about one delivery id, beside the row of the id. A message
is ready, leased to its latest claim, or over; what its claims may be differs in the three
stages. Each statement of the mailbox moves every message along.
-/

namespace Aegis.Coordination

open Foundation MailboxRow List Option

/-- A claim that was answered with the message. It is released when an acknowledgement or a
refusal of it succeeds. -/
structure Claim where
  consumerId : Text
  attempt : Nat
  untilMs : Nat
  released : Bool := false

/-- What was answered about one delivery id: the messages that were enqueued under it, its
claims, how many acknowledgements succeeded, and when it left the queue for good. -/
structure MessageHistory where
  enqueued : List AgentMessage := []
  claims : List Claim := []
  acks : Nat := 0
  endedAtMs : Option Nat := none

/-- The claim neither was released nor has run out. -/
def Claim.isOpen (nowMs : Nat) (claim : Claim) : Bool :=
  !claim.released && decide (nowMs < claim.untilMs)

/-- No claim of the list is open from this time on. -/
def Closed (clock : Nat) (claims : List Claim) : Prop :=
  ∀ claim ∈ claims, claim.released ∨ claim.untilMs ≤ clock

/-- The row stands for the message. -/
def MailboxRow.Binds (sha256 : Sha256) (row : MailboxRow) (message : AgentMessage) : Prop :=
  row.idempotencyKey = message.idempotencyKey ∧ message.messageHash sha256 = .ok row.messageHash

/-- The stage of a message at a time, by the row of its delivery id and its history. -/
inductive Lifecycle (sha256 : Sha256) (maxAttempts clock : Nat) :
    Option MailboxRow → MessageHistory → Prop
  | unborn : Lifecycle sha256 maxAttempts clock none {}
  | ready {row : MailboxRow} {history : MessageHistory} (state : row.state = .ready)
      (attempts : row.attempts = history.claims.length) (left : row.attempts < maxAttempts)
      (closed : Closed clock history.claims) (acks : history.acks = 0)
      (running : history.endedAtMs = none)
      (binds : ∀ message ∈ history.enqueued, row.Binds sha256 message) :
      Lifecycle sha256 maxAttempts clock (some row) history
  | leased {row : MailboxRow} {history : MessageHistory} {earlier : List Claim} {claim : Claim}
      (state : row.state = .leased) (claims : history.claims = earlier ++ [claim])
      (attempts : row.attempts = history.claims.length) (left : row.attempts ≤ maxAttempts)
      (closed : Closed clock earlier) (held : claim.released = false)
      (number : claim.attempt = row.attempts)
      (owner : row.leaseOwner = some claim.consumerId)
      (until_eq : row.leaseUntilMs = some claim.untilMs) (acks : history.acks = 0)
      (running : history.endedAtMs = none)
      (binds : ∀ message ∈ history.enqueued, row.Binds sha256 message) :
      Lifecycle sha256 maxAttempts clock (some row) history
  | finished {row? : Option MailboxRow} {history : MessageHistory} {endedAtMs : Nat}
      (closed : Closed clock history.claims) (few : history.claims.length ≤ maxAttempts)
      (reason : history.acks = 1 ∨ history.acks = 0 ∧ history.claims.length = maxAttempts)
      (ended : history.endedAtMs = some endedAtMs)
      (row : ∀ row, row? = some row → row.state.isTerminal ∧ row.terminalAtMs = some endedAtMs ∧
        ∀ message ∈ history.enqueued, row.Binds sha256 message)
      (pruned : row? = none → endedAtMs + terminalRetentionMs ≤ clock) :
      Lifecycle sha256 maxAttempts clock row? history

/-- The claims of a message are numbered from one on. -/
def Numbered (claims : List Claim) : Prop :=
  claims.map Claim.attempt = List.range' 1 claims.length

/-- The history once the row has changed: the message may have left the queue. -/
def MessageHistory.noteEnd (history : MessageHistory) (before after : Option MailboxRow)
    (nowMs : Nat) : MessageHistory :=
  if before.any (fun row => !row.state.isTerminal) && after.any (·.state.isTerminal) then
    { history with endedAtMs := some nowMs }
  else history

/-- The history once a claim was answered. -/
def MessageHistory.addClaim (claim : Claim) (history : MessageHistory) : MessageHistory :=
  { history with claims := history.claims ++ [claim] }

section

variable (consumerId : Text) (attempt : Nat)

/-- The claims once the one with this consumer and attempt is released. -/
def releaseClaim (claims : List Claim) : List Claim :=
  updateWhere (fun claim => claim.consumerId == consumerId && claim.attempt == attempt)
    (fun claim => { claim with released := true }) claims

/-- The history once an acknowledgement succeeded. -/
def MessageHistory.addAck (history : MessageHistory) : MessageHistory :=
  { history with
    claims := releaseClaim consumerId attempt history.claims
    acks := history.acks + 1 }

/-- The history once a claim was given back. -/
def MessageHistory.addNack (history : MessageHistory) : MessageHistory :=
  { history with claims := releaseClaim consumerId attempt history.claims }

end

/-- The history once a message was enqueued under the id. -/
def MessageHistory.addMessage (message : AgentMessage) (history : MessageHistory) :
    MessageHistory :=
  { history with enqueued := history.enqueued ++ [message] }

/-- What the two updates of a recovery do to one row. -/
def MailboxRow.expire (maxAttempts nowMs : Nat) (row : MailboxRow) : MailboxRow :=
  if row.isExpired nowMs then
    if maxAttempts ≤ row.attempts then row.bury nowMs else row.free
  else row

section NoteEnd

variable {history : MessageHistory} {before after : Option MailboxRow} {row : MailboxRow}
variable {maxAttempts nowMs : Nat}

theorem MessageHistory.noteEnd_claims :
    (history.noteEnd before after nowMs).claims = history.claims := by
  unfold noteEnd
  split <;> rfl

/-- A message that is still in the queue has not left it. -/
theorem MessageHistory.noteEnd_of_running (h : ∀ row, after = some row → ¬ row.state.isTerminal) :
    history.noteEnd before after nowMs = history := by
  rw [noteEnd, if_neg]
  cases after with
  | none => simp
  | some row => simp [h row rfl]

/-- A message that had left the queue before does not leave it again. -/
theorem MessageHistory.noteEnd_of_over (h : ∀ row, before = some row → row.state.isTerminal) :
    history.noteEnd before after nowMs = history := by
  rw [noteEnd, if_neg]
  cases before with
  | none => simp
  | some row => simp [h row rfl]

/-- A row that changes, if at all, by going away. -/
theorem MessageHistory.noteEnd_of_kept
    (h : ∀ row, after = some row → before = some row) :
    history.noteEnd before after nowMs = history := by
  rw [noteEnd, if_neg]
  cases after with
  | none => simp
  | some row => simp [h row rfl]

theorem MessageHistory.noteEnd_of_end {old new : MailboxRow} (running : ¬ old.state.isTerminal)
    (finished : new.state.isTerminal) :
    history.noteEnd (some old) (some new) nowMs = { history with endedAtMs := some nowMs } := by
  rw [noteEnd, if_pos]
  simp [running, finished]

theorem MailboxRow.expire_of_ne (h : row.state ≠ .leased) :
    row.expire maxAttempts nowMs = row := by
  simp [expire, isExpired, h]

theorem MailboxRow.isStale_iff {endedAtMs : Nat} (h : row.terminalAtMs = some endedAtMs) :
    row.isStale nowMs ↔ row.state.isTerminal ∧ endedAtMs + terminalRetentionMs ≤ nowMs := by
  rw [isStale, h, any_some, Bool.and_eq_true, decide_eq_true_iff]

theorem MailboxRow.deliveryId_of_isHeldBy {deliveryId attempt : Nat} {consumerId : Text}
    (holds : row.isHeldBy deliveryId consumerId attempt nowMs) : row.deliveryId = deliveryId := by
  simp only [isHeldBy, Bool.and_eq_true, beq_iff_eq] at holds
  exact holds.1.1.1.1

theorem MailboxRow.isTerminal_of_leased (h : row.state = .leased) : ¬ row.state.isTerminal := by
  simp [h, MailboxState.isTerminal]

theorem MailboxRow.isTerminal_of_ready (h : row.state = .ready) : ¬ row.state.isTerminal := by
  simp [h, MailboxState.isTerminal]

theorem MailboxRow.ne_leased_of_isTerminal (h : row.state.isTerminal) : row.state ≠ .leased :=
  fun leased => isTerminal_of_leased leased h

end NoteEnd

section Closed

variable {clock later : Nat} {claims earlier : List Claim} {claim : Claim}

theorem Closed.mono (h : Closed clock claims) (forward : clock ≤ later) : Closed later claims :=
  fun claim mem => (h claim mem).imp id fun finished => Nat.le_trans finished forward

theorem Closed.concat (h : Closed clock earlier)
    (finished : claim.released ∨ claim.untilMs ≤ clock) :
    Closed clock (earlier ++ [claim]) := by
  intro other mem
  obtain old | new := mem_append.mp mem
  · exact h other old
  · obtain rfl := mem_singleton.mp new
    exact finished

theorem Closed.filter_isOpen (h : Closed clock claims) (forward : clock ≤ later) :
    claims.filter (Claim.isOpen later) = [] := by
  rw [filter_eq_nil_iff]
  intro claim mem
  obtain released | finished := h claim mem
  · simp [Claim.isOpen, released]
  · simp only [Claim.isOpen, Bool.and_eq_true, decide_eq_true_eq, not_and]
    omega

section

variable {consumerId : Text} {attempt : Nat}

theorem Closed.releaseClaim (h : Closed clock claims) :
    Closed clock (releaseClaim consumerId attempt claims) := by
  intro claim mem
  obtain ⟨old, present, rfl⟩ := mem_updateWhere.mp mem
  split
  · exact .inl rfl
  · exact h old present

@[simp] theorem length_releaseClaim :
    (releaseClaim consumerId attempt claims).length = claims.length :=
  length_map _

/-- Releasing the latest claim leaves no claim open. -/
theorem Closed.releaseLast (h : Closed clock earlier) (consumer : claim.consumerId = consumerId)
    (number : claim.attempt = attempt) :
    Closed clock (Coordination.releaseClaim consumerId attempt (earlier ++ [claim])) := by
  rw [Coordination.releaseClaim, updateWhere, map_append, map_singleton, if_pos]
  · exact h.releaseClaim.concat (.inl rfl)
  · simp [consumer, number]

end

end Closed

section Numbered

variable {claims : List Claim} {claim : Claim}

theorem Numbered.concat (h : Numbered claims) (number : claim.attempt = claims.length + 1) :
    Numbered (claims ++ [claim]) := by
  rw [Numbered, map_append, h, map_singleton, number, length_append,
    length_singleton, range'_concat, Nat.one_mul, Nat.add_comm 1]

theorem Numbered.releaseClaim {consumerId : Text} {attempt : Nat} (h : Numbered claims) :
    Numbered (releaseClaim consumerId attempt claims) := by
  rw [Numbered, length_releaseClaim, Coordination.releaseClaim, map_updateWhere]
  · exact h
  · exact fun _ => rfl

end Numbered

namespace Lifecycle

variable {sha256 : Sha256} {maxAttempts clock nowMs : Nat} {row? : Option MailboxRow}
variable {row : MailboxRow} {history : MessageHistory}

section

variable (life : Lifecycle sha256 maxAttempts clock row? history)
include life

theorem tick (forward : clock ≤ nowMs) :
    Lifecycle sha256 maxAttempts nowMs row? history := by
  cases life with
  | unborn => exact .unborn
  | ready state attempts left closed acks running binds =>
      exact .ready state attempts left (closed.mono forward) acks running binds
  | leased state claims attempts left closed held number owner until_eq acks running binds =>
      exact .leased state claims attempts left (closed.mono forward) held number owner until_eq
        acks running binds
  | finished closed few reason ended row pruned =>
      exact .finished (closed.mono forward) few reason ended row fun none =>
        Nat.le_trans (pruned none) forward

/-- Of the claims of one message at most one is open. -/
theorem open_le_one
    (forward : clock ≤ nowMs) : (history.claims.filter (Claim.isOpen nowMs)).length ≤ 1 := by
  cases life with
  | unborn => exact Nat.zero_le 1
  | ready _ _ _ closed => simp [closed.filter_isOpen forward]
  | leased _ claims _ _ closed =>
      rw [claims, filter_append, closed.filter_isOpen forward, nil_append]
      exact length_filter_le _ _
  | finished closed => simp [closed.filter_isOpen forward]

theorem claims_le :
    history.claims.length ≤ maxAttempts := by
  cases life with
  | unborn => exact Nat.zero_le _
  | ready _ attempts left => omega
  | leased _ _ attempts left => omega
  | finished _ few => exact few

theorem acks_le_one :
    history.acks ≤ 1 := by
  cases life with
  | unborn => exact Nat.zero_le 1
  | ready _ _ _ _ acks => omega
  | leased _ _ _ _ _ _ _ _ _ acks => omega
  | finished _ _ reason => omega

/-- A lease that is over ends: the message is ready again, or over when no attempt is left. -/
theorem expire (forward : clock ≤ nowMs) :
    Lifecycle sha256 maxAttempts nowMs (row?.map (MailboxRow.expire maxAttempts nowMs))
      (history.noteEnd row? (row?.map (MailboxRow.expire maxAttempts nowMs)) nowMs) := by
  have later := life.tick forward
  cases life with
  | unborn => exact later
  | @ready row _ state =>
      have apart : row.state ≠ .leased := by rw [state]; decide
      rw [map_some, expire_of_ne apart, MessageHistory.noteEnd_of_running]
      · exact later
      · rintro _ ⟨rfl⟩
        exact isTerminal_of_ready state
  | @leased row _ _ claim state claims attempts left closed held number owner until_eq acks running
      binds =>
      have running? := isTerminal_of_leased state
      rw [map_some]
      by_cases finished : claim.untilMs ≤ nowMs
      · have expired : row.isExpired nowMs := by
          simp [isExpired, state, until_eq, finished]
        have allClosed : Closed nowMs history.claims :=
          claims ▸ (closed.mono forward).concat (.inr finished)
        by_cases last : maxAttempts ≤ row.attempts
        · have buried : row.expire maxAttempts nowMs = row.bury nowMs := by
            rw [MailboxRow.expire, if_pos expired, if_pos last]
          rw [buried, MessageHistory.noteEnd_of_end running? rfl]
          have count : history.claims.length = maxAttempts := by omega
          refine .finished allClosed count.le (.inr ⟨acks, count⟩) rfl ?_ nofun
          rintro _ ⟨rfl⟩
          exact ⟨rfl, rfl, binds⟩
        · have freed : row.expire maxAttempts nowMs = row.free := by
            rw [MailboxRow.expire, if_pos expired, if_neg last]
          rw [freed, MessageHistory.noteEnd_of_running]
          · exact .ready rfl attempts (Nat.not_le.mp last) allClosed acks running binds
          · rintro _ ⟨rfl⟩
            exact isTerminal_of_ready rfl
      · have same : row.expire maxAttempts nowMs = row := by
          rw [MailboxRow.expire, if_neg]
          simp [isExpired, until_eq, finished]
        rw [same, MessageHistory.noteEnd_of_running]
        · exact later
        · rintro _ ⟨rfl⟩
          exact running?
  | @finished _ _ endedAtMs closed few reason ended terminal pruned =>
      rw [MessageHistory.noteEnd_of_over fun row present => (terminal row present).1]
      cases row? with
      | none => exact later
      | some row =>
          rw [map_some, expire_of_ne (ne_leased_of_isTerminal (terminal row rfl).1)]
          exact later

/-- A terminal row goes once its retention is over. -/
theorem prune (forward : clock ≤ nowMs) :
    Lifecycle sha256 maxAttempts nowMs (row?.filter fun row => !row.isStale nowMs) history := by
  have later := life.tick forward
  cases row? with
  | none => exact later
  | some row =>
      rw [filter_some]
      split
      · exact later
      · rename_i stale
        simp only [Bool.not_eq_true', Bool.not_eq_false] at stale
        have isTerminal : row.state.isTerminal := (Bool.and_eq_true_iff.mp stale).1
        cases life with
        | ready state => exact absurd isTerminal (isTerminal_of_ready state)
        | leased state => exact absurd isTerminal (isTerminal_of_leased state)
        | finished closed few reason ended terminal =>
            have past := ((isStale_iff (terminal row rfl).2.1).mp stale).2
            exact .finished (closed.mono forward) few reason ended nofun fun _ => past

end

section

variable (life : Lifecycle sha256 maxAttempts clock (some row) history)
include life

theorem attempts_of_ready
    (state : row.state = .ready) : row.attempts = history.claims.length := by
  cases life with
  | ready _ attempts => exact attempts
  | leased _ _ attempts => exact attempts
  | finished _ _ _ _ terminal =>
      exact absurd (terminal row rfl).1 (isTerminal_of_ready state)

/-- A ready message is leased to a new claim. -/
theorem lease
    (state : row.state = .ready) (consumerId : Text) (untilMs : Nat) :
    Lifecycle sha256 maxAttempts clock (some (row.lease (row.attempts + 1) consumerId untilMs))
      (history.addClaim { consumerId, attempt := row.attempts + 1, untilMs }) := by
  cases life with
  | ready _ attempts left closed acks running binds =>
      refine .leased rfl rfl ?_ left closed rfl rfl rfl rfl acks running binds
      show row.attempts + 1 = (history.claims ++ [_]).length
      rw [length_append, length_singleton, attempts]
  | leased leased => simp [state] at leased
  | finished _ _ _ _ terminal =>
      exact absurd (terminal row rfl).1 (isTerminal_of_ready state)

section

variable {deliveryId : Nat} {consumerId : Text} {attempt : Nat}

/-- A message that is held was claimed by its holder, with the attempt and the time that the
row shows, and the claim is open. -/
theorem held (holds : row.isHeldBy deliveryId consumerId attempt nowMs) :
    row.state = .leased ∧ row.attempts = attempt ∧ history.acks = 0 ∧
      history.endedAtMs = none ∧ history.claims.length = attempt ∧ attempt ≤ maxAttempts ∧
      (∀ message ∈ history.enqueued, row.Binds sha256 message) ∧
      ∃ earlier claim, history.claims = earlier ++ [claim] ∧ Closed clock earlier ∧
        claim.consumerId = consumerId ∧ claim.attempt = attempt ∧ claim.isOpen nowMs := by
  simp only [isHeldBy, Bool.and_eq_true, beq_iff_eq, decide_eq_true_eq] at holds
  obtain ⟨⟨⟨⟨-, state⟩, owner⟩, number⟩, finished⟩ := holds
  cases life with
  | ready ready => simp [state] at ready
  | @leased _ _ earlier claim _ claims attempts left closed held numbered owned until_eq acks
      running binds =>
      have same : claim.consumerId = consumerId := by
        rw [owner] at owned
        exact (Option.some.inj owned).symm
      have open_ : claim.isOpen nowMs := by
        rw [until_eq] at finished
        simpa [Claim.isOpen, held] using finished
      exact ⟨state, number, acks, running, attempts ▸ number, number ▸ left, binds, earlier,
        claim, claims, closed, same, numbered.trans number, open_⟩
  | finished _ _ _ _ terminal =>
      exact absurd (terminal row rfl).1 (isTerminal_of_leased state)

/-- The holder of a message acknowledges it. -/
theorem acknowledge (holds : row.isHeldBy deliveryId consumerId attempt nowMs)
    (forward : clock ≤ nowMs) :
    Lifecycle sha256 maxAttempts nowMs (some (row.acknowledge nowMs))
      ((history.noteEnd (some row) (some (row.acknowledge nowMs)) nowMs).addAck consumerId
        attempt) := by
  obtain ⟨state, -, acks, -, count, left, binds, earlier, claim, claims, closed, consumer, number,
    -⟩ := life.held holds
  rw [MessageHistory.noteEnd_of_end (isTerminal_of_leased state) rfl]
  refine .finished ?_ ?_ (.inl ?_) rfl ?_ nofun
  · show Closed nowMs (releaseClaim consumerId attempt history.claims)
    rw [claims]
    exact (closed.releaseLast consumer number).mono forward
  · show (releaseClaim consumerId attempt history.claims).length ≤ maxAttempts
    rw [length_releaseClaim, count]
    exact left
  · show history.acks + 1 = 1
    rw [acks]
  · rintro _ ⟨rfl⟩
    exact ⟨rfl, rfl, binds⟩

/-- The holder of a message gives it back: to be delivered again, or for good when no attempt is
left. -/
theorem giveBack (holds : row.isHeldBy deliveryId consumerId attempt nowMs)
    (forward : clock ≤ nowMs)
    (availableAtMs : Nat) (error : Option Text) {state : MailboxState}
    (next : state = if maxAttempts ≤ row.attempts then .dead else .ready) :
    Lifecycle sha256 maxAttempts nowMs
      (some (row.release state availableAtMs error (if state = .dead then some nowMs else none)))
      ((history.noteEnd (some row) (some (row.release state availableAtMs error
        (if state = .dead then some nowMs else none))) nowMs).addNack consumerId attempt) := by
  obtain ⟨leased, numbered, acks, running, count, left, binds, earlier, claim, claims, closed,
    consumer, number, -⟩ := life.held holds
  have allClosed : Closed nowMs (releaseClaim consumerId attempt history.claims) := by
    rw [claims]
    exact (closed.releaseLast consumer number).mono forward
  by_cases last : maxAttempts ≤ row.attempts
  · obtain rfl : state = .dead := by rw [next, if_pos last]
    rw [MessageHistory.noteEnd_of_end (isTerminal_of_leased leased) rfl]
    have all : (releaseClaim consumerId attempt history.claims).length = maxAttempts := by
      rw [length_releaseClaim]
      omega
    refine .finished allClosed all.le (.inr ⟨acks, all⟩) rfl ?_ nofun
    rintro _ ⟨rfl⟩
    exact ⟨rfl, rfl, binds⟩
  · obtain rfl : state = .ready := by rw [next, if_neg last]
    rw [MessageHistory.noteEnd_of_running]
    · refine .ready rfl ?_ (Nat.not_le.mp last) allClosed acks running binds
      show row.attempts = (releaseClaim consumerId attempt history.claims).length
      rw [length_releaseClaim, count, numbered]
    · rintro _ ⟨rfl⟩
      exact isTerminal_of_ready rfl

end

theorem enqueue
    {message : AgentMessage} (bound : row.Binds sha256 message) :
    Lifecycle sha256 maxAttempts clock (some row) (history.addMessage message) := by
  have all (binds : ∀ message ∈ history.enqueued, row.Binds sha256 message) :
      ∀ other ∈ (history.addMessage message).enqueued, row.Binds sha256 other := by
    intro other mem
    obtain old | new := mem_append.mp mem
    · exact binds other old
    · exact mem_singleton.mp new ▸ bound
  cases life with
  | ready state attempts left closed acks running binds =>
      exact .ready state attempts left closed acks running (all binds)
  | leased state claims attempts left closed held number owner until_eq acks running binds =>
      exact .leased state claims attempts left closed held number owner until_eq acks running
        (all binds)
  | finished closed few reason ended terminal pruned =>
      refine .finished closed few reason ended (fun row present => ?_) pruned
      obtain ⟨isTerminal, at_end, binds⟩ := terminal row present
      cases present
      exact ⟨isTerminal, at_end, all binds⟩

end

/-- The row of a message that is bound to it, as long as the message was not pruned. -/
theorem row_of_enqueued (life : Lifecycle sha256 maxAttempts clock row? history)
    {message : AgentMessage} (mem : message ∈ history.enqueued) (forward : clock ≤ nowMs)
    (retained : ∀ endedAtMs, history.endedAtMs = some endedAtMs →
      nowMs < endedAtMs + terminalRetentionMs) :
    ∃ row, row? = some row ∧ ¬ row.isStale nowMs ∧ row.Binds sha256 message := by
  cases life with
  | unborn => simp at mem
  | @ready row _ state _ _ _ _ _ binds =>
      refine ⟨row, rfl, ?_, binds message mem⟩
      simp [isStale, isTerminal_of_ready state]
  | @leased row _ _ _ state _ _ _ _ _ _ _ _ _ _ binds =>
      refine ⟨row, rfl, ?_, binds message mem⟩
      simp [isStale, isTerminal_of_leased state]
  | @finished _ _ endedAtMs _ _ _ ended terminal pruned =>
      have within := retained endedAtMs ended
      cases row? with
      | none => exact absurd ((pruned rfl).trans forward) (Nat.not_le.mpr within)
      | some row =>
          obtain ⟨-, at_end, binds⟩ := terminal row rfl
          refine ⟨row, rfl, fun stale => ?_, binds message mem⟩
          exact absurd ((isStale_iff at_end).mp stale).2 (Nat.not_le.mpr within)

/-- A message that was enqueued is in the queue, was acknowledged or had all its claims. -/
theorem not_lost (life : Lifecycle sha256 maxAttempts clock row? history)
    (born : history.enqueued ≠ []) :
    (∃ row, row? = some row ∧ ¬ row.state.isTerminal) ∨ history.acks = 1 ∨
      history.claims.length = maxAttempts := by
  cases life with
  | unborn => exact absurd rfl born
  | @ready row _ state => exact .inl ⟨row, rfl, isTerminal_of_ready state⟩
  | @leased row _ _ _ state => exact .inl ⟨row, rfl, isTerminal_of_leased state⟩
  | finished _ _ reason => exact .inr (reason.imp id And.right)

end Lifecycle

end Aegis.Coordination
