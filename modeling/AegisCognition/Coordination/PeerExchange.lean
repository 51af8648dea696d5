import AegisCognition.Coordination.PeerChannel

/-!
# Exclusive exchanges

The indexes of a peer channel agree with its pending questions as long as no asker cleans up
late. An asker whose question was already answered or dropped frees both tasks again when its
wait ends in an exception; when one of them has started another exchange meanwhile, the channel
forgets that it is taken. This is the only way in which the indexes come apart.
-/

namespace Aegis.Coordination

open Foundation Text Finset Option
open Function (update update_eq_self_iff update_of_ne update_self)

namespace PeerChannel

/-- The question is pending, and it is asked by the task or of it. -/
def Names (channel : PeerChannel) (messageId : Text) (taskId : Nat) : Prop :=
  ∃ question, channel.pending messageId = some question ∧
    (taskId = question.senderTaskId ∨ taskId = question.recipientTaskId)

/-- The index shows for each task the pending question that the task is a party of. -/
def Indexes (pending : Text → Option AgentPeerQuestion) (party : AgentPeerQuestion → Nat)
    (index : Nat → Option Text) : Prop :=
  ∀ taskId messageId, index taskId = some messageId ↔
    ∃ question, pending messageId = some question ∧ party question = taskId

/-- The indexes show exactly the pending questions, at most one for each task. -/
structure Indexed (channel : PeerChannel) : Prop where
  once : ∀ taskId first second,
    channel.Names first taskId → channel.Names second taskId → first = second
  exchange : ∀ taskId, taskId ∈ channel.inExchange ↔ ∃ messageId, channel.Names messageId taskId
  recipients : Indexes channel.pending AgentPeerQuestion.recipientTaskId channel.pendingByRecipient
  senders : Indexes channel.pending AgentPeerQuestion.senderTaskId channel.outgoingBySender

/-- No pending question names a finished task, and nobody waits for one. -/
structure Exclusive (channel : PeerChannel) : Prop extends Indexed channel where
  silent : ∀ taskId ∈ channel.finished, ∀ messageId, ¬ channel.Names messageId taskId
  settled : ∀ messageId ask, channel.asks messageId = some ask →
    ask.senderId ∈ channel.finished ∨ ask.recipientId ∈ channel.finished →
    ask.response ≠ .waiting

/-- What every call keeps: a finished task is not active, and a question is pending while the
asker waits for it. -/
structure Sound (channel : PeerChannel) : Prop where
  apart : ∀ taskId ∈ channel.active, taskId ∉ channel.finished
  asked : ∀ messageId question, channel.pending messageId = some question →
    question.senderTaskId ≠ question.recipientTaskId ∧
    ∃ ask, channel.asks messageId = some ask ∧ ask.returned = false ∧
      ask.senderId = question.senderTaskId ∧ ask.recipientId = question.recipientTaskId ∧
      (ask.response = .waiting ∨ ask.response = .cancelled)
  waits : ∀ messageId ask, channel.asks messageId = some ask → ask.response = .waiting →
    ∃ question, channel.pending messageId = some question

/-- A question that is no longer pending, and whose asker has a response. -/
structure Settles (messageId : Text) (before after : PeerChannel) : Prop where
  pending : after.pending = update before.pending messageId none
  asks : ∃ response, response ≠ .waiting ∧ after.asks =
    update before.asks messageId ((before.asks messageId).map (.resolve response))
  active : after.active = before.active
  finished : after.finished = before.finished

variable {channel before after : PeerChannel} {messageId : Text} {question : AgentPeerQuestion}
variable {taskId senderId recipientId : Nat}

theorem resolve_response_ne {response : PeerResponse} (h : response ≠ .waiting) (ask : PeerAsk) :
    (ask.resolve response).response ≠ .waiting := by
  rw [PeerAsk.resolve]
  split
  · exact h
  · assumption

/-! ### The background -/

namespace Sound

theorem start (runId : Text) : Sound { runId } where
  apart := nofun
  asked := nofun
  waits := nofun

/-- A call that changes neither questions nor asks. -/
theorem frame (sound : before.Sound) (pending : after.pending = before.pending)
    (asks : after.asks = before.asks) (apart : ∀ taskId ∈ after.active, taskId ∉ after.finished) :
    after.Sound where
  apart := apart
  asked := by
    rw [pending, asks]
    exact sound.asked
  waits := by
    rw [pending, asks]
    exact sound.waits

theorem settle (sound : before.Sound) (settles : Settles messageId before after) :
    after.Sound where
  apart := by
    rw [settles.active, settles.finished]
    exact sound.apart
  asked := by
    intro other question present
    obtain ⟨response, -, asks⟩ := settles.asks
    rw [settles.pending] at present
    have apart : other ≠ messageId := by
      rintro rfl
      simp at present
    rw [update_of_ne apart] at present
    rw [asks, update_of_ne apart]
    exact sound.asked other question present
  waits := by
    intro other ask there waiting
    obtain ⟨response, resolved, asks⟩ := settles.asks
    rw [asks] at there
    have apart : other ≠ messageId := by
      rintro rfl
      rw [update_self, map_eq_some_iff] at there
      obtain ⟨old, -, rfl⟩ := there
      exact resolve_response_ne resolved old waiting
    rw [update_of_ne apart] at there
    rw [settles.pending, update_of_ne apart]
    exact sound.waits other ask there waiting

/-- An ask that changes without waiting anew, and whose question stays as it is. -/
theorem reask (sound : before.Sound) (pending : after.pending = before.pending)
    {f : PeerAsk → PeerAsk}
    (asks : after.asks = update before.asks messageId ((before.asks messageId).map f))
    (active : after.active = before.active) (finished : after.finished = before.finished)
    (kept : ∀ ask, (before.pending messageId).isSome → ask.returned = false →
      ask.response = .waiting ∨ ask.response = .cancelled →
      (f ask).returned = false ∧ (f ask).senderId = ask.senderId ∧
        (f ask).recipientId = ask.recipientId ∧
        ((f ask).response = .waiting ∨ (f ask).response = .cancelled))
    (waits : ∀ ask, (f ask).response = .waiting → ask.response = .waiting) : after.Sound where
  apart := by
    rw [active, finished]
    exact sound.apart
  asked := by
    intro other question present
    rw [pending] at present
    obtain ⟨distinct, ask, there, running, sender, recipient, response⟩ :=
      sound.asked other question present
    refine ⟨distinct, ?_⟩
    rw [asks]
    by_cases same : other = messageId
    · obtain rfl := same
      obtain ⟨running, sender', recipient', response⟩ :=
        kept ask (by rw [present]; rfl) running response
      exact ⟨f ask, by rw [update_self, there]; rfl, running, sender'.trans sender,
        recipient'.trans recipient, response⟩
    · exact ⟨ask, by rw [update_of_ne same, there], running, sender, recipient, response⟩
  waits := by
    intro other ask there waiting
    rw [asks] at there
    rw [pending]
    by_cases same : other = messageId
    · obtain rfl := same
      rw [update_self, map_eq_some_iff] at there
      obtain ⟨old, there, rfl⟩ := there
      exact sound.waits other old there (waits old waiting)
    · rw [update_of_ne same] at there
      exact sound.waits other ask there waiting

end Sound

/-! ### A question that is answered or dropped -/

/-- The question is gone from every index. -/
structure Removes (messageId : Text) (question : AgentPeerQuestion)
    (before after : PeerChannel) : Prop where
  pending : after.pending = update before.pending messageId none
  recipients : after.pendingByRecipient =
    update before.pendingByRecipient question.recipientTaskId none
  senders : after.outgoingBySender =
    update before.outgoingBySender question.senderTaskId none
  exchange : ∀ taskId, taskId ∈ after.inExchange ↔ taskId ∈ before.inExchange ∧
    taskId ≠ question.senderTaskId ∧ taskId ≠ question.recipientTaskId

theorem Names.of_eq (present : channel.pending messageId = some question) :
    channel.Names messageId taskId ↔
      taskId = question.senderTaskId ∨ taskId = question.recipientTaskId := by
  simp [Names, present]

theorem Removes.names (removes : Removes messageId question before after) (other : Text) :
    after.Names other taskId ↔ other ≠ messageId ∧ before.Names other taskId := by
  rw [Names, Names, removes.pending]
  by_cases same : other = messageId
  · simp [same]
  · simp [same]

variable {party : AgentPeerQuestion → Nat} {index : Nat → Option Text}

theorem Indexes.remove {pending : Text → Option AgentPeerQuestion}
    (indexes : Indexes pending party index) (present : pending messageId = some question)
    (only : ∀ other found, pending other = some found → party found = party question →
      other = messageId) :
    Indexes (update pending messageId none) party
      (update index (party question) none) := by
  intro taskId other
  by_cases same : other = messageId
  · obtain rfl := same
    simp only [update_self, reduceCtorEq, false_and, exists_false, iff_false]
    by_cases own : taskId = party question
    · simp [own]
    · rw [update_of_ne own, indexes, present]
      rintro ⟨_, ⟨rfl⟩, party⟩
      exact own party.symm
  · rw [update_of_ne same]
    by_cases own : taskId = party question
    · obtain rfl := own
      simp only [update_self, reduceCtorEq, false_iff]
      rintro ⟨found, there, equal⟩
      exact same (only other found there equal)
    · rw [update_of_ne own, indexes]

theorem Indexed.remove (indexed : before.Indexed)
    (present : before.pending messageId = some question)
    (removes : Removes messageId question before after) : after.Indexed where
  once := fun taskId first second a b => indexed.once taskId first second
    ((removes.names first).mp a).2 ((removes.names second).mp b).2
  exchange := by
    intro taskId
    rw [removes.exchange, indexed.exchange]
    constructor
    · rintro ⟨⟨other, names⟩, notSender, notRecipient⟩
      refine ⟨other, (removes.names other).mpr ⟨?_, names⟩⟩
      rintro rfl
      exact ((Names.of_eq present).mp names).elim notSender notRecipient
    · rintro ⟨other, names⟩
      obtain ⟨apart, names⟩ := (removes.names other).mp names
      have free : ¬ before.Names messageId taskId := fun also =>
        apart (indexed.once taskId other messageId names also)
      rw [Names.of_eq present, not_or] at free
      exact ⟨⟨other, names⟩, free⟩
  recipients := by
    rw [removes.pending, removes.recipients]
    refine indexed.recipients.remove present fun other found there same => ?_
    exact indexed.once _ other messageId ⟨found, there, .inr rfl⟩ ⟨question, present, .inr same⟩
  senders := by
    rw [removes.pending, removes.senders]
    refine indexed.senders.remove present fun other found there same => ?_
    exact indexed.once _ other messageId ⟨found, there, .inl rfl⟩ ⟨question, present, .inl same⟩

/-- A call that leaves the questions and their indexes as they are. -/
theorem Indexed.frame (indexed : before.Indexed) (pending : after.pending = before.pending)
    (recipients : after.pendingByRecipient = before.pendingByRecipient)
    (senders : after.outgoingBySender = before.outgoingBySender)
    (exchange : after.inExchange = before.inExchange) : after.Indexed := by
  obtain ⟨once, inExchange, byRecipient, bySender⟩ := indexed
  constructor
  · simpa only [Names, pending] using once
  · simpa only [Names, pending, exchange] using inExchange
  · simpa only [recipients, pending] using byRecipient
  · simpa only [senders, pending] using bySender

/-! ### A question that is asked -/

theorem Indexes.insert {pending : Text → Option AgentPeerQuestion}
    (indexes : Indexes pending party index) (fresh : pending messageId = none)
    (free : ∀ other found, pending other = some found → party found ≠ party question) :
    Indexes (update pending messageId (some question)) party
      (update index (party question) (some messageId)) := by
  intro taskId other
  by_cases own : taskId = party question
  · obtain rfl := own
    rw [update_self, Option.some.injEq]
    constructor
    · rintro rfl
      exact ⟨question, update_self .., rfl⟩
    · rintro ⟨found, there, equal⟩
      by_contra apart
      rw [update_of_ne (Ne.symm apart)] at there
      exact free other found there equal
  · rw [update_of_ne own, indexes]
    by_cases same : other = messageId
    · obtain rfl := same
      simp only [fresh, update_self, reduceCtorEq, false_and, exists_false, false_iff]
      rintro ⟨_, ⟨rfl⟩, party⟩
      exact own party.symm
    · rw [update_of_ne same]

theorem Indexed.insert (indexed : before.Indexed) (fresh : before.pending messageId = none)
    (sender : question.senderTaskId ∉ before.inExchange)
    (recipient : question.recipientTaskId ∉ before.inExchange)
    (pending : after.pending = update before.pending messageId (some question))
    (recipients : after.pendingByRecipient =
      update before.pendingByRecipient question.recipientTaskId (some messageId))
    (senders : after.outgoingBySender =
      update before.outgoingBySender question.senderTaskId (some messageId))
    (exchange : after.inExchange =
      before.inExchange ∪ {question.senderTaskId, question.recipientTaskId}) : after.Indexed := by
  have free {taskId : Nat} (idle : taskId ∉ before.inExchange) (other : Text) :
      ¬ before.Names other taskId := fun names =>
    idle ((indexed.exchange taskId).mpr ⟨other, names⟩)
  have own {taskId : Nat} : after.Names messageId taskId ↔
      taskId = question.senderTaskId ∨ taskId = question.recipientTaskId := by
    simp [Names, pending]
  have others {other : Text} (apart : other ≠ messageId) {taskId : Nat} :
      after.Names other taskId ↔ before.Names other taskId := by
    simp [Names, pending, apart]
  have excluded {other : Text} {taskId : Nat} (names : before.Names other taskId) :
      ¬ (taskId = question.senderTaskId ∨ taskId = question.recipientTaskId) := by
    rintro (rfl | rfl)
    · exact free sender other names
    · exact free recipient other names
  constructor
  · intro taskId first second a b
    by_cases one : first = messageId <;> by_cases two : second = messageId
    · rw [one, two]
    · rw [one, own] at a
      exact absurd a (excluded ((others two).mp b))
    · rw [two, own] at b
      exact absurd b (excluded ((others one).mp a))
    · exact indexed.once taskId first second ((others one).mp a) ((others two).mp b)
  · intro taskId
    rw [exchange, mem_union, indexed.exchange, mem_insert, mem_singleton]
    constructor
    · rintro (⟨other, names⟩ | party)
      · refine ⟨other, (others ?_).mpr names⟩
        rintro rfl
        obtain ⟨_, present, -⟩ := names
        simp [fresh] at present
      · exact ⟨messageId, own.mpr party⟩
    · rintro ⟨other, names⟩
      by_cases same : other = messageId
      · exact .inr (own.mp (same ▸ names))
      · exact .inl ⟨other, (others same).mp names⟩
  · rw [pending, recipients]
    refine indexed.recipients.insert fresh fun other found there same => ?_
    exact free recipient other ⟨found, there, .inr same.symm⟩
  · rw [pending, senders]
    refine indexed.senders.insert fresh fun other found there same => ?_
    exact free sender other ⟨found, there, .inl same.symm⟩

/-! ### What each call does -/

theorem popleft_frame (channel : PeerChannel) (recipientId : Nat) {found : AgentPeerQuestion}
    {after : PeerChannel} (done : channel.popleft recipientId = some (found, after)) :
    ∃ inboxes, after = { channel with inboxes } := by
  unfold popleft at done
  split at done
  · obtain ⟨-, rfl⟩ := Prod.ext_iff.mp (Option.some.inj done)
    exact ⟨_, rfl⟩
  · cases done

theorem removeQuestion_frame (channel : PeerChannel) (recipientId : Nat) (messageId : Text) :
    ∃ inboxes, channel.removeQuestion recipientId messageId = { channel with inboxes } := by
  unfold removeQuestion
  split
  · exact ⟨channel.inboxes, rfl⟩
  · exact ⟨_, rfl⟩

theorem ask_cases {questionText : Text}
    (done : channel.ask messageId senderId recipientId questionText = .ok after) :
    senderId ≠ recipientId ∧ senderId ∈ channel.active ∧ recipientId ∈ channel.active ∧
      senderId ∉ channel.inExchange ∧ recipientId ∉ channel.inExchange ∧
      ∃ question exchangeCounts inboxes, question.senderTaskId = senderId ∧
        question.recipientTaskId = recipientId ∧
        after =
          { channel with
            exchangeCounts
            inExchange := channel.inExchange ∪ {senderId, recipientId}
            pending := update channel.pending messageId (some question)
            pendingByRecipient :=
              update channel.pendingByRecipient recipientId (some messageId)
            outgoingBySender := update channel.outgoingBySender senderId (some messageId)
            inboxes
            asks := update channel.asks messageId (some
              { senderId, recipientId, response := .waiting, mustCancel := false
                returned := false }) } := by
  simp only [ask, refuse, bind_eq_ok_iff, ite_error_eq_ok_iff, not_or, not_not] at done
  obtain ⟨-, -, -, -, distinct, -, -, ⟨sender, -⟩, -, ⟨recipient, -⟩, -, ⟨idle, free⟩, -, -,
    done⟩ :=
    done
  cases done
  exact ⟨distinct, sender, recipient, idle, free, _, _, _, rfl, rfl, rfl⟩

/-- The channel without a question of these tasks, whose asker has this response. -/
def without (channel : PeerChannel) (messageId : Text) (senderId recipientId : Nat)
    (response : PeerResponse) (inboxes : Nat → Option (List AgentPeerQuestion)) : PeerChannel :=
  { channel with
    pendingByRecipient := update channel.pendingByRecipient recipientId none
    outgoingBySender := update channel.outgoingBySender senderId none
    pending := update channel.pending messageId none
    inExchange := channel.inExchange \ {senderId, recipientId}
    inboxes
    asks := update channel.asks messageId
      ((channel.asks messageId).map (.resolve response)) }

/-- A question whose asker waits, answered by the task that it was asked. -/
theorem reply_cases {answer : Text} (done : channel.reply recipientId question answer = .ok after) :
    channel.pending question.messageId = some question ∧ question.recipientTaskId = recipientId ∧
      after = channel.without question.messageId question.senderTaskId recipientId
        (.answered answer) channel.inboxes := by
  simp only [reply, refuse, bind_eq_ok_iff, ite_error_eq_ok_iff, not_or, not_not] at done
  obtain ⟨-, -, -, -, ⟨present, recipient, -⟩, -, done⟩ := done
  exact ⟨present, recipient, (Except.ok.inj done).symm⟩

/-- What is left of the channel when an index no longer shows the question of a task: the task had
none, or it was not pending, or it is dropped. -/
inductive Closes (channel : PeerChannel) (shown : Option Text)
    (parties : AgentPeerQuestion → Nat × Nat) : PeerChannel → Prop
  | idle (none : shown = none) : Closes channel shown parties channel
  | stale {messageId : Text} {recipients senders : Nat → Option Text}
      (index : shown = some messageId) (absent : channel.pending messageId = none)
      (fewer : ∀ task other, recipients task = some other →
        channel.pendingByRecipient task = some other)
      (fewer' : ∀ task other, senders task = some other →
        channel.outgoingBySender task = some other) :
      Closes channel shown parties
        { channel with pendingByRecipient := recipients, outgoingBySender := senders }
  | dropped {messageId : Text} {question : AgentPeerQuestion} {response : PeerResponse}
      {inboxes : Nat → Option (List AgentPeerQuestion)} (index : shown = some messageId)
      (present : channel.pending messageId = some question) (resolved : response ≠ .waiting) :
      Closes channel shown parties (channel.without messageId (parties question).1
        (parties question).2 response inboxes)

theorem update_none_eq_some_iff {first : Nat} :
    update index first none taskId = some messageId ↔
      taskId ≠ first ∧ index taskId = some messageId := by
  by_cases same : taskId = first
  · simp [same]
  · simp [same]

section

variable (channel : PeerChannel)

theorem closeIncoming_closes (taskId : Nat) : Closes channel (channel.pendingByRecipient taskId)
      (fun question => (question.senderTaskId, taskId)) (channel.closeIncoming taskId) := by
  rw [closeIncoming]
  split
  · next idle => exact .idle idle
  · next messageId index =>
      dsimp only
      split
      · next absent =>
          exact .stale index absent (fun _ _ found => (update_none_eq_some_iff.mp found).2)
            fun _ _ found => found
      · next question present =>
          obtain ⟨inboxes, removed⟩ := removeQuestion_frame
            { channel with
              pendingByRecipient := update channel.pendingByRecipient taskId none
              pending := update channel.pending messageId none } taskId messageId
          rw [removed]
          exact .dropped index present PeerResponse.noConfusion

theorem closeOutgoing_closes (taskId : Nat) : Closes channel (channel.outgoingBySender taskId)
      (fun question => (taskId, question.recipientTaskId)) (channel.closeOutgoing taskId) := by
  rw [closeOutgoing]
  split
  · next idle => exact .idle idle
  · next messageId index =>
      dsimp only
      split
      · next absent =>
          exact .stale index absent (fun _ _ found => found)
            fun _ _ found => (update_none_eq_some_iff.mp found).2
      · next question present =>
          obtain ⟨inboxes, removed⟩ := removeQuestion_frame
            { channel with
              outgoingBySender := update channel.outgoingBySender taskId none
              pending := update channel.pending messageId none }
            question.recipientTaskId messageId
          rw [removed]
          exact .dropped index present PeerResponse.noConfusion

theorem cleanUp_eq (messageId : Text) (senderId recipientId : Nat) :
    ∃ inboxes, channel.cleanUp messageId senderId recipientId =
      { channel with
        pending := update channel.pending messageId none
        pendingByRecipient :=
          if channel.pendingByRecipient recipientId = some messageId then
            update channel.pendingByRecipient recipientId none
          else channel.pendingByRecipient
        outgoingBySender :=
          if channel.outgoingBySender senderId = some messageId then
            update channel.outgoingBySender senderId none
          else channel.outgoingBySender
        inExchange := channel.inExchange \ {senderId, recipientId}
        inboxes
        asks :=
          if (channel.pending messageId).isSome then
            update channel.asks messageId
              ((channel.asks messageId).map (.resolve .cancelled))
          else channel.asks } := by
  rw [cleanUp]
  cases channel.pending messageId with
  | none =>
      refine ⟨channel.inboxes, ?_⟩
      simp only [isSome_none, Bool.false_eq_true, if_false]
      split <;> split <;> rfl
  | some question =>
      obtain ⟨inboxes, removed⟩ := removeQuestion_frame
        { channel with pending := update channel.pending messageId none }
        recipientId messageId
      refine ⟨inboxes, ?_⟩
      simp only [removed, resolve, isSome_some, if_true]
      split <;> split <;> rfl

/-- An asker that goes on has a response; it cleans up when its wait ends in an exception. -/
theorem resume_cases (messageId : Text) :
    (∀ ask, channel.asks messageId = some ask → ask.returned = true ∨ ask.response = .waiting) ∧
      channel.resume messageId = channel ∨
    ∃ ask, channel.asks messageId = some ask ∧ ask.returned = false ∧ ask.response ≠ .waiting ∧
      ∃ cleaned, cleaned = (if ask.raises then
          channel.cleanUp messageId ask.senderId ask.recipientId else channel) ∧
        channel.resume messageId =
          { cleaned with
            asks := update cleaned.asks messageId
              ((cleaned.asks messageId).map fun ask => { ask with returned := true }) } := by
  rw [resume]
  cases there : channel.asks messageId with
  | none => exact .inl ⟨nofun, rfl⟩
  | some ask =>
      dsimp only
      split
      · rename_i rests
        exact .inl ⟨by rintro _ ⟨rfl⟩; exact rests, rfl⟩
      · rename_i goesOn
        obtain ⟨running, response⟩ := not_or.mp goesOn
        exact .inr ⟨ask, rfl, Bool.eq_false_iff.mpr running, response, _, rfl, rfl⟩

end

/-! ### The background of every call -/

/-- An ask draws a message id that no earlier ask drew. -/
def Fresh (channel : PeerChannel) : PeerCall → Prop
  | .ask messageId _ _ _ => channel.asks messageId = none
  | _ => True

instance (channel : PeerChannel) : (call : PeerCall) → Decidable (channel.Fresh call)
  | .ask messageId _ _ _ => inferInstanceAs (Decidable (channel.asks messageId = none))
  | .register _ _ | .activate _ | .receive _ | .takePending _ | .finishOrReceive _
  | .reply _ _ _ | .finish _ | .cancel _ | .resume _ => inferInstanceAs (Decidable True)

/-- What a call that resumes no asker does to the channel. -/
inductive Changes (channel : PeerChannel) : PeerChannel → Prop
  | idle : Changes channel channel
  | registered {known peerEnabled : Finset Nat} :
      Changes channel { channel with known, peerEnabled }
  | activated {taskId : Nat} (running : taskId ∉ channel.finished) :
      Changes channel { channel with active := insert taskId channel.active }
  | asked {messageId questionText : Text} {senderId recipientId : Nat} {after : PeerChannel}
      (fresh : channel.asks messageId = none)
      (done : channel.ask messageId senderId recipientId questionText = .ok after) :
      Changes channel after
  | taken {taskId : Nat} {question : AgentPeerQuestion} {after : PeerChannel}
      (done : channel.popleft taskId = some (question, after)) : Changes channel after
  | replied {recipientId : Nat} {question : AgentPeerQuestion} {answer : Text}
      {after : PeerChannel} (done : channel.reply recipientId question answer = .ok after) :
      Changes channel after
  | closed (taskId : Nat) : Changes channel (channel.closeLocked taskId)
  | cancelled (messageId : Text) : Changes channel (channel.cancel messageId)

theorem step_cases (call : PeerCall) (fresh : channel.Fresh call) :
    (∃ messageId, call = .resume messageId) ∨
      (∀ messageId, call ≠ .resume messageId) ∧ Changes channel (channel.step call) := by
  cases call with
  | register taskId peerEnabled =>
      refine .inr ⟨nofun, ?_⟩
      rw [step]
      cases done : channel.register taskId peerEnabled with
      | error => exact .idle
      | ok after =>
          simp only [register, refuse, bind_eq_ok_iff, ite_error_eq_ok_iff] at done
          obtain ⟨-, -, -, done⟩ := done
          cases done
          exact .registered
  | activate taskId =>
      refine .inr ⟨nofun, ?_⟩
      rw [step]
      cases done : channel.activate taskId with
      | error => exact .idle
      | ok after =>
          simp only [activate, refuse, ite_error_eq_ok_iff, not_or] at done
          obtain ⟨⟨-, running⟩, done⟩ := done
          cases done
          exact .activated running
  | ask messageId senderId recipientId questionText =>
      refine .inr ⟨nofun, ?_⟩
      rw [step]
      cases done : channel.ask messageId senderId recipientId questionText with
      | error => exact .idle
      | ok after => exact .asked fresh done
  | receive recipientId =>
      refine .inr ⟨nofun, ?_⟩
      rw [step, receive]
      cases done : channel.popleft recipientId with
      | none => dsimp only; split <;> exact .idle
      | some answer => exact .taken done
  | takePending recipientId =>
      refine .inr ⟨nofun, ?_⟩
      rw [step, takePending]
      cases done : channel.popleft recipientId with
      | none => exact .idle
      | some answer => exact .taken done
  | finishOrReceive taskId =>
      refine .inr ⟨nofun, ?_⟩
      rw [step, finishOrReceive]
      cases done : channel.popleft taskId with
      | none => exact .closed taskId
      | some answer => exact .taken done
  | reply recipientId question answer =>
      refine .inr ⟨nofun, ?_⟩
      rw [step]
      cases done : channel.reply recipientId question answer with
      | error => exact .idle
      | ok after => exact .replied done
  | finish taskId => exact .inr ⟨nofun, .closed taskId⟩
  | cancel messageId => exact .inr ⟨nofun, .cancelled messageId⟩
  | resume messageId => exact .inl ⟨messageId, rfl⟩

namespace Sound

section

variable (sound : channel.Sound)
include sound

theorem pending_eq_none (fresh : channel.asks messageId = none) :
    channel.pending messageId = none := by
  by_contra present
  obtain ⟨question, present⟩ := ne_none_iff_exists'.mp present
  obtain ⟨-, ask, there, -⟩ := sound.asked messageId question present
  simp [fresh] at there

theorem ask {questionText : Text} (fresh : channel.asks messageId = none)
    (done : channel.ask messageId senderId recipientId questionText = .ok after) :
    after.Sound := by
  obtain ⟨distinct, -, -, -, -, question, _, _, rfl, rfl, rfl⟩ := ask_cases done
  refine ⟨sound.apart, ?_, ?_⟩
  · intro other found there
    by_cases same : other = messageId
    · obtain rfl := same
      simp only [update_self, Option.some.injEq] at there
      obtain rfl := there
      exact ⟨distinct, _, update_self .., rfl, rfl, rfl, .inl rfl⟩
    · simp only [update_of_ne same] at there ⊢
      exact sound.asked other found there
  · intro other ask there waiting
    by_cases same : other = messageId
    · obtain rfl := same
      exact ⟨question, update_self ..⟩
    · simp only [update_of_ne same] at there ⊢
      exact sound.waits other ask there waiting

theorem closes {shown : Option Text}
    {parties : AgentPeerQuestion → Nat × Nat} (closes : Closes channel shown parties after) :
    after.Sound := by
  cases closes with
  | idle none => exact sound
  | stale index absent fewer fewer' => exact sound.frame rfl rfl sound.apart
  | dropped index present resolved => exact sound.settle ⟨rfl, ⟨_, resolved, rfl⟩, rfl, rfl⟩

theorem closeLocked (taskId : Nat) :
    (channel.closeLocked taskId).Sound := by
  have closed : Sound
      { channel with
        active := channel.active.erase taskId
        finished := insert taskId channel.finished } := by
    refine sound.frame rfl rfl fun other active finished => ?_
    obtain ⟨apart, active⟩ := mem_erase.mp active
    obtain same | finished := mem_insert.mp finished
    · exact apart same
    · exact sound.apart other active finished
  have dropped :=
    (closed.closes (closeIncoming_closes _ taskId)).closes (closeOutgoing_closes _ taskId)
  exact dropped.frame rfl rfl dropped.apart

theorem popleft (done : channel.popleft taskId = some (question, after)) :
    after.Sound := by
  obtain ⟨inboxes, rfl⟩ := popleft_frame channel taskId done
  exact sound.frame rfl rfl sound.apart

theorem reply {answer : Text}
    (done : channel.reply recipientId question answer = .ok after) : after.Sound := by
  obtain ⟨-, -, rfl⟩ := reply_cases done
  exact sound.settle ⟨rfl, ⟨_, PeerResponse.noConfusion, rfl⟩, rfl, rfl⟩

theorem cancel (messageId : Text) : (channel.cancel messageId).Sound := by
  refine sound.reask rfl rfl rfl rfl ?_ ?_
  · intro ask _ running response
    simp only [running, Bool.false_eq_true, if_false]
    split
    · exact ⟨rfl, rfl, rfl, .inr rfl⟩
    · exact ⟨rfl, rfl, rfl, response⟩
  · intro ask
    split
    · exact id
    · split
      · exact PeerResponse.noConfusion
      · exact id

theorem cleanUp (messageId : Text) (senderId recipientId : Nat) :
    (channel.cleanUp messageId senderId recipientId).Sound := by
  obtain ⟨inboxes, same⟩ := cleanUp_eq channel messageId senderId recipientId
  rw [same]
  cases present : channel.pending messageId with
  | none => exact sound.frame (by simp [present]) (by simp) sound.apart
  | some question =>
      exact sound.settle ⟨rfl, ⟨.cancelled, PeerResponse.noConfusion, by simp⟩, rfl, rfl⟩

theorem resume (messageId : Text) : (channel.resume messageId).Sound := by
  obtain ⟨-, same⟩ | ⟨ask, there, running, response, cleaned, which, same⟩ :=
    resume_cases channel messageId
  · rwa [same]
  · have gone : cleaned.Sound ∧ cleaned.pending messageId = none := by
      by_cases raises : ask.raises
      · rw [if_pos raises] at which
        obtain rfl := which
        obtain ⟨inboxes, shape⟩ := cleanUp_eq channel messageId ask.senderId ask.recipientId
        refine ⟨sound.cleanUp .., ?_⟩
        rw [shape]
        exact update_self ..
      · rw [if_neg raises] at which
        obtain rfl := which
        refine ⟨sound, ?_⟩
        by_contra present
        obtain ⟨question, present⟩ := ne_none_iff_exists'.mp present
        obtain ⟨-, other, also, -, -, -, waiting | cancelled⟩ :=
          sound.asked messageId question present
        · obtain rfl := Option.some.inj (there.symm.trans also)
          exact response waiting
        · obtain rfl := Option.some.inj (there.symm.trans also)
          simp [PeerAsk.raises, cancelled] at raises
    rw [same]
    refine gone.1.reask rfl rfl rfl rfl ?_ fun _ => id
    intro _ present
    simp [gone.2] at present

theorem changes (changes : Changes channel after) : after.Sound := by
  cases changes with
  | idle => exact sound
  | registered => exact sound.frame rfl rfl sound.apart
  | activated running =>
      refine sound.frame rfl rfl fun other active => ?_
      obtain rfl | active := mem_insert.mp active
      · exact running
      · exact sound.apart other active
  | asked fresh done => exact sound.ask fresh done
  | taken done => exact sound.popleft done
  | replied done => exact sound.reply done
  | closed taskId => exact sound.closeLocked taskId
  | cancelled messageId => exact sound.cancel messageId

/-- Every call keeps the background. -/
theorem step (call : PeerCall) (fresh : channel.Fresh call) : (channel.step call).Sound := by
  obtain ⟨messageId, rfl⟩ | ⟨-, changes⟩ := step_cases call fresh
  · exact sound.resume messageId
  · exact sound.changes changes

end

end Sound

/-! ### Exclusive exchanges -/

theorem Exclusive.intro (sound : channel.Sound) (indexed : channel.Indexed)
    (silent : ∀ taskId ∈ channel.finished, ∀ messageId, ¬ channel.Names messageId taskId) :
    channel.Exclusive where
  toIndexed := indexed
  silent := silent
  settled := by
    intro messageId ask there finished waiting
    obtain ⟨question, present⟩ := sound.waits messageId ask there waiting
    obtain ⟨-, other, also, -, sender, recipient, -⟩ := sound.asked messageId question present
    obtain rfl := Option.some.inj (there.symm.trans also)
    obtain finished | finished := finished
    · exact silent _ finished messageId ⟨question, present, .inl sender⟩
    · exact silent _ finished messageId ⟨question, present, .inr recipient⟩

theorem Exclusive.start (runId : Text) : Exclusive { runId } where
  once := by simp [Names]
  exchange := by simp [Names]
  recipients := by simp [Indexes]
  senders := by simp [Indexes]
  silent := nofun
  settled := nofun

/-- A call that leaves the questions, their indexes and the finished tasks as they are. -/
theorem Exclusive.frame (exclusive : before.Exclusive) (sound : after.Sound)
    (pending : after.pending = before.pending)
    (recipients : after.pendingByRecipient = before.pendingByRecipient)
    (senders : after.outgoingBySender = before.outgoingBySender)
    (exchange : after.inExchange = before.inExchange)
    (finished : after.finished = before.finished) : after.Exclusive := by
  refine .intro sound (exclusive.toIndexed.frame pending recipients senders exchange) ?_
  rw [finished]
  simpa only [Names, pending] using exclusive.silent

theorem Exclusive.remove (exclusive : before.Exclusive) (sound : after.Sound)
    (present : before.pending messageId = some question)
    (removes : Removes messageId question before after)
    (finished : after.finished = before.finished) : after.Exclusive := by
  refine .intro sound (exclusive.toIndexed.remove present removes) ?_
  rw [finished]
  exact fun taskId silent other names =>
    exclusive.silent taskId silent other ((removes.names other).mp names).2

theorem mem_sdiff_pair {tasks : Finset Nat} :
    taskId ∈ tasks \ {senderId, recipientId} ↔
      taskId ∈ tasks ∧ taskId ≠ senderId ∧ taskId ≠ recipientId := by
  rw [mem_sdiff, mem_insert, mem_singleton, not_or]

theorem Indexed.closes (indexed : channel.Indexed)
    (indexes : Indexes channel.pending party index)
    {parties : AgentPeerQuestion → Nat × Nat} (closes : Closes channel (index taskId) parties after)
    (own : ∀ question, party question = taskId →
      parties question = (question.senderTaskId, question.recipientTaskId)) :
    after.Indexed ∧ after.finished = channel.finished ∧
      ∀ messageId question, after.pending messageId = some question →
        channel.pending messageId = some question ∧ party question ≠ taskId := by
  cases closes with
  | idle idle =>
      refine ⟨indexed, rfl, fun other found there => ⟨there, fun same => ?_⟩⟩
      have shown := (indexes taskId other).mpr ⟨found, there, same⟩
      simp [idle] at shown
  | stale shown absent fewer fewer' =>
      obtain ⟨question, present, -⟩ := (indexes taskId _).mp shown
      simp [absent] at present
  | @dropped messageId question response inboxes shown present resolved =>
      obtain ⟨found, there, same⟩ := (indexes taskId messageId).mp shown
      obtain rfl := Option.some.inj (there.symm.trans present)
      have removes : Removes messageId found channel (channel.without messageId
          (parties found).1 (parties found).2 response inboxes) := by
        rw [own found same]
        exact ⟨rfl, rfl, rfl, fun _ => mem_sdiff_pair⟩
      refine ⟨indexed.remove present removes, rfl, fun other later left => ?_⟩
      rw [removes.pending] at left
      have apart : other ≠ messageId := by
        rintro rfl
        simp at left
      rw [update_of_ne apart] at left
      refine ⟨left, fun same => apart ?_⟩
      exact Option.some.inj (((indexes taskId other).mpr ⟨later, left, same⟩).symm.trans shown)

theorem Exclusive.closeLocked (exclusive : channel.Exclusive) (sound : channel.Sound)
    (taskId : Nat) : (channel.closeLocked taskId).Exclusive := by
  have closed : Indexed
      { channel with
        active := channel.active.erase taskId
        finished := insert taskId channel.finished } :=
    exclusive.toIndexed.frame rfl rfl rfl rfl
  obtain ⟨indexed, finished, asked⟩ :=
    closed.closes closed.recipients (closeIncoming_closes _ taskId)
    fun question same => by rw [same]
  obtain ⟨dropped, finished', asks⟩ :=
    indexed.closes indexed.senders (closeOutgoing_closes _ taskId)
    fun question same => by rw [same]
  refine .intro (sound.closeLocked taskId) (dropped.frame rfl rfl rfl rfl) ?_
  rintro other silent messageId ⟨question, present, party⟩
  obtain ⟨present, notSender⟩ := asks messageId question present
  obtain ⟨present, notRecipient⟩ := asked messageId question present
  rw [PeerChannel.closeLocked] at silent
  dsimp only at silent
  rw [finished', finished, mem_insert] at silent
  obtain rfl | silent := silent
  · exact party.elim (fun same => notSender same.symm) fun same => notRecipient same.symm
  · exact exclusive.silent other silent messageId ⟨question, present, party⟩

/-- An asker that cleans up after its question is no longer pending finds both tasks free. -/
def CleansUpFree (channel : PeerChannel) : PeerCall → Prop
  | .resume messageId => ∀ ask, channel.asks messageId = some ask → ask.returned = false →
      ask.response ≠ .waiting → ask.raises → channel.pending messageId = none →
      ask.senderId ∉ channel.inExchange ∧ ask.recipientId ∉ channel.inExchange
  | _ => True

section

variable (exclusive : channel.Exclusive)
include exclusive

section

variable (sound : channel.Sound)
include sound

theorem Exclusive.cleanUp
    (present : channel.pending messageId = some question) :
    (channel.cleanUp messageId question.senderTaskId question.recipientTaskId).Exclusive := by
  obtain ⟨inboxes, same⟩ :=
    cleanUp_eq channel messageId question.senderTaskId question.recipientTaskId
  have recipient : channel.pendingByRecipient question.recipientTaskId = some messageId :=
    (exclusive.recipients ..).mpr ⟨question, present, rfl⟩
  have sender : channel.outgoingBySender question.senderTaskId = some messageId :=
    (exclusive.senders ..).mpr ⟨question, present, rfl⟩
  refine exclusive.remove (sound.cleanUp ..) present ?_ ?_
  · rw [same]
    exact ⟨rfl, if_pos recipient, if_pos sender, fun _ => mem_sdiff_pair⟩
  · rw [same]

/-- A late clean-up keeps the indexes exactly when both tasks are free. -/
theorem Exclusive.cleanUp_late
    (absent : channel.pending messageId = none) (senderId recipientId : Nat) :
    (channel.cleanUp messageId senderId recipientId).Exclusive ↔
      senderId ∉ channel.inExchange ∧ recipientId ∉ channel.inExchange := by
  obtain ⟨inboxes, same⟩ := cleanUp_eq channel messageId senderId recipientId
  have notRecipient : ¬ channel.pendingByRecipient recipientId = some messageId := by
    rw [exclusive.recipients]
    simp [absent]
  have notSender : ¬ channel.outgoingBySender senderId = some messageId := by
    rw [exclusive.senders]
    simp [absent]
  have pending : (channel.cleanUp messageId senderId recipientId).pending = channel.pending := by
    rw [same]
    exact update_eq_self_iff.mpr absent.symm
  have exchange (taskId : Nat) :
      taskId ∈ (channel.cleanUp messageId senderId recipientId).inExchange ↔
        taskId ∈ channel.inExchange ∧ taskId ≠ senderId ∧ taskId ≠ recipientId := by
    rw [same]
    exact mem_sdiff_pair
  constructor
  · intro kept
    have taken (taskId : Nat) : taskId ∈ (channel.cleanUp messageId senderId recipientId).inExchange
        ↔ taskId ∈ channel.inExchange := by
      rw [kept.exchange, exclusive.exchange]
      simp only [Names, pending]
    refine ⟨fun mem => ?_, fun mem => ?_⟩
    · exact ((exchange senderId).mp ((taken senderId).mpr mem)).2.1 rfl
    · exact ((exchange recipientId).mp ((taken recipientId).mpr mem)).2.2 rfl
  · rintro ⟨sender, recipient⟩
    refine exclusive.frame (sound.cleanUp ..) pending ?_ ?_ ?_ ?_
    · rw [same]
      exact if_neg notRecipient
    · rw [same]
      exact if_neg notSender
    · ext taskId
      rw [exchange]
      refine ⟨And.left, fun mem => ⟨mem, ?_, ?_⟩⟩
      · rintro rfl
        exact sender mem
      · rintro rfl
        exact recipient mem
    · rw [same]

theorem Exclusive.resume_iff
    (messageId : Text) :
    (channel.resume messageId).Exclusive ↔ channel.CleansUpFree (.resume messageId) := by
  have sound' := sound.resume messageId
  obtain ⟨rests, same⟩ | ⟨ask, there, running, response, cleaned, which, same⟩ :=
    resume_cases channel messageId
  · rw [same]
    refine iff_of_true exclusive fun ask there running response => ?_
    exact ((rests ask there).elim (by simp [running]) response).elim
  · have condition : channel.CleansUpFree (.resume messageId) ↔
        (ask.raises → channel.pending messageId = none →
          ask.senderId ∉ channel.inExchange ∧ ask.recipientId ∉ channel.inExchange) := by
      constructor
      · exact fun free => free ask there running response
      · intro free other also _ _
        obtain rfl := Option.some.inj (there.symm.trans also)
        exact free
    -- The ask that has returned is in no index.
    have afterwards (sound : cleaned.Sound) :
        (channel.resume messageId).Exclusive ↔ cleaned.Exclusive := by
      constructor <;> intro exclusive
      · exact exclusive.frame sound (by rw [same]) (by rw [same]) (by rw [same]) (by rw [same])
          (by rw [same])
      · exact exclusive.frame sound' (by rw [same]) (by rw [same]) (by rw [same]) (by rw [same])
          (by rw [same])
    rw [condition]
    by_cases raises : ask.raises
    · rw [if_pos raises] at which
      obtain rfl := which
      rw [afterwards (sound.cleanUp ..)]
      cases present : channel.pending messageId with
      | none => simpa [raises] using exclusive.cleanUp_late sound present _ _
      | some question =>
          obtain ⟨-, other, also, -, sender, recipient, -⟩ := sound.asked messageId question present
          obtain rfl := Option.some.inj (there.symm.trans also)
          rw [sender, recipient]
          exact iff_of_true (exclusive.cleanUp sound present) nofun
    · rw [if_neg raises] at which
      obtain rfl := which
      rw [afterwards sound]
      exact iff_of_true exclusive fun raised => absurd raised raises

theorem Exclusive.ask
    (fresh : channel.asks messageId = none) {questionText : Text}
    (done : channel.ask messageId senderId recipientId questionText = .ok after) :
    after.Exclusive := by
  have sound' := sound.ask fresh done
  obtain ⟨-, sender, recipient, idle, free, question, counts, inboxes, rfl, rfl, same⟩ :=
    ask_cases done
  have absent := sound.pending_eq_none fresh
  refine .intro sound' (exclusive.toIndexed.insert absent idle free (by rw [same]) (by rw [same])
    (by rw [same]) (by rw [same])) ?_
  rw [same]
  rintro taskId silent other ⟨found, there, party⟩
  by_cases new : other = messageId
  · obtain rfl := new
    simp only [update_self, Option.some.injEq] at there
    obtain rfl := there
    obtain rfl | rfl := party
    · exact sound.apart _ sender silent
    · exact sound.apart _ recipient silent
  · simp only [update_of_ne new] at there
    exact exclusive.silent taskId silent other ⟨found, there, party⟩

theorem Exclusive.reply {answer : Text}
    (done : channel.reply recipientId question answer = .ok after) : after.Exclusive := by
  have sound' := sound.reply done
  obtain ⟨present, rfl, rfl⟩ := reply_cases done
  exact exclusive.remove sound' present ⟨rfl, rfl, rfl, fun _ => mem_sdiff_pair⟩ rfl

theorem Exclusive.popleft
    (done : channel.popleft taskId = some (question, after)) : after.Exclusive := by
  have sound' := sound.popleft done
  obtain ⟨inboxes, rfl⟩ := popleft_frame channel taskId done
  exact exclusive.frame sound' rfl rfl rfl rfl rfl

theorem Exclusive.changes (changes : Changes channel after) : after.Exclusive := by
  have sound' := sound.changes changes
  cases changes with
  | idle => exact exclusive
  | asked fresh done => exact exclusive.ask sound fresh done
  | taken done => exact exclusive.popleft sound done
  | replied done => exact exclusive.reply sound done
  | closed taskId => exact exclusive.closeLocked sound taskId
  | _ => exact exclusive.frame sound' rfl rfl rfl rfl rfl

/-- A call keeps the indexes exactly when it is no late clean-up of a task that is taken. -/
theorem Exclusive.step_iff
    (call : PeerCall) (fresh : channel.Fresh call) :
    (channel.step call).Exclusive ↔ channel.CleansUpFree call := by
  obtain ⟨messageId, rfl⟩ | ⟨other, changes⟩ := step_cases call fresh
  · exact exclusive.resume_iff sound messageId
  · refine iff_of_true (exclusive.changes sound changes) ?_
    cases call with
    | resume messageId => exact absurd rfl (other messageId)
    | _ => trivial

end

end

end PeerChannel

/-- The channel that a run of calls reaches. -/
def exchanged (runId : Text) (calls : List PeerCall) : PeerChannel :=
  run PeerChannel.step { runId } calls

/-- In a run whose asks draw fresh message ids, the exchanges are exclusive after every call if
and only if no asker cleans up late while one of its two tasks is in another exchange. -/
theorem exchanges_exclusive_iff (runId : Text) (calls : List PeerCall)
    (fresh : Along PeerChannel.step PeerChannel.Fresh { runId } calls) :
    (∀ before after, calls = before ++ after → (exchanged runId before).Exclusive) ↔
      Along PeerChannel.step PeerChannel.CleansUpFree { runId } calls :=
  run_prefixes_iff_along_of_legal
    (fun _ call sound fresh => PeerChannel.Sound.step sound call fresh)
    (fun _ call sound exclusive fresh => PeerChannel.Exclusive.step_iff exclusive sound call fresh)
    fresh (PeerChannel.Sound.start runId) (PeerChannel.Exclusive.start runId)

/-! ### An asker that is stranded -/

/-- The second task finishes and the third asks the first one before the first one's own ask has
cleaned up; then a fourth can ask the first one, too, and only its question is dropped when the
first one finishes. -/
def strandingCalls : List PeerCall :=
  let text := ofString
  [.register 1 true, .register 2 true, .register 3 true, .register 4 true,
    .activate 1, .activate 2, .activate 3, .activate 4,
    .ask (text "a1") 1 2 (text "Which port?"), .finish 2,
    .ask (text "b2") 3 1 (text "Which host?"), .resume (text "a1"),
    .ask (text "c3") 4 1 (text "Which path?"), .finish 1]

theorem exchanges_not_exclusive :
    ¬ ∀ (runId : Text) (calls : List PeerCall),
      Along PeerChannel.step PeerChannel.Fresh { runId } calls →
      (exchanged runId calls).Exclusive := by
  intro exclusive
  have settled := (exclusive (ofString "run-1") strandingCalls (by decide +kernel)).settled
  refine settled (ofString "b2") ⟨3, 1, .waiting, false, false⟩ (by decide +kernel) ?_ rfl
  exact .inr (by decide +kernel)

/-- One exchange, from the question to its answer. -/
def answeredCalls : List PeerCall :=
  let text := ofString
  [.register 1 true, .register 2 true, .activate 1, .activate 2,
    .ask (text "a1") 1 2 (text "Which port?"), .receive 2,
    .reply 2 ⟨text "a1", text "run-1", 1, 2, text "Which port?"⟩ (text "443"), .resume (text "a1")]

theorem answeredCalls_exclusive :
    (exchanged (ofString "run-1") answeredCalls).Exclusive := by
  refine (exchanges_exclusive_iff (ofString "run-1") answeredCalls (by decide +kernel)).mpr ?_
    answeredCalls [] (List.append_nil _).symm
  -- The asker goes on with its answer, so it does not clean up.
  refine ⟨trivial, trivial, trivial, trivial, trivial, trivial, trivial, ?_, trivial⟩
  intro ask there _ _ raises
  obtain rfl := Option.some.inj (there.symm.trans
    (show _ = some ⟨1, 2, .answered (ofString "443"), false, false⟩ by decide +kernel))
  exact absurd raises (by decide)

end Aegis.Coordination
