import AegisCognition.Coordination.PeerExchange

/-!
# Replies of peers

A reply resolves the future of the asker and takes the exchange out of every index. It does not
look whether the future is still open: an asker that was cancelled has a future that is done until
its clean-up. Nor does it look whose entries it takes out of the indexes. What an index shows of a
task is always a pending question of that task, in whatever order the calls come.
-/

namespace Aegis.Coordination

open Foundation Text
open Function (update update_of_ne update_self)

namespace PeerChannel

variable {channel before after : PeerChannel} {messageId : Text} {question : AgentPeerQuestion}
variable {taskId recipientId : Nat} {answer : Text}

/-! ### What an index shows -/

/-- What the index shows of a task is a pending question that the task is a party of. -/
def Shows (pending : Text → Option AgentPeerQuestion) (party : AgentPeerQuestion → Nat)
    (index : Nat → Option Text) : Prop :=
  ∀ taskId messageId, index taskId = some messageId →
    ∃ question, pending messageId = some question ∧ party question = taskId

section Shows

variable {pending : Text → Option AgentPeerQuestion} {party : AgentPeerQuestion → Nat}
variable {index less : Nat → Option Text}

section

variable (shows : Shows pending party index)
include shows

theorem Shows.of_le
    (le : ∀ taskId messageId, less taskId = some messageId → index taskId = some messageId) :
    Shows pending party less :=
  fun taskId messageId found => shows taskId messageId (le taskId messageId found)

/-- The question is gone, and so is every entry that shows it. -/
theorem Shows.drop
    (le : ∀ taskId other, less taskId = some other →
      index taskId = some other ∧ other ≠ messageId) :
    Shows (update pending messageId none) party less := by
  intro taskId other found
  obtain ⟨found, apart⟩ := le taskId other found
  rw [update_of_ne apart]
  exact shows taskId other found

theorem Shows.remove
    (present : pending messageId = some question) :
    Shows (update pending messageId none) party
      (update index (party question) none) := by
  refine shows.drop fun taskId other found => ?_
  obtain ⟨apart, found⟩ := update_none_eq_some_iff.mp found
  refine ⟨found, ?_⟩
  rintro rfl
  obtain ⟨same, present', party⟩ := shows taskId other found
  obtain rfl := Option.some.inj (present.symm.trans present')
  exact apart party.symm

theorem Shows.insert (fresh : pending messageId = none) :
    Shows (update pending messageId (some question)) party
      (update index (party question) (some messageId)) := by
  intro taskId other found
  by_cases same : taskId = party question
  · obtain rfl := same
    rw [update_self] at found
    cases found
    exact ⟨question, update_self .., rfl⟩
  · rw [update_of_ne same] at found
    obtain ⟨old, present, party⟩ := shows taskId other found
    have apart : other ≠ messageId := by
      rintro rfl
      rw [fresh] at present
      cases present
    exact ⟨old, by rw [update_of_ne apart, present], party⟩

end

end Shows

/-- Both indexes show pending questions only. -/
structure Pointed (channel : PeerChannel) : Prop where
  recipients : Shows channel.pending AgentPeerQuestion.recipientTaskId channel.pendingByRecipient
  senders : Shows channel.pending AgentPeerQuestion.senderTaskId channel.outgoingBySender

namespace Pointed

theorem start (runId : Text) : Pointed { runId } where
  recipients := nofun
  senders := nofun

theorem frame (pointed : before.Pointed) (pending : after.pending = before.pending)
    (recipients : after.pendingByRecipient = before.pendingByRecipient)
    (senders : after.outgoingBySender = before.outgoingBySender) : after.Pointed := by
  refine ⟨?_, ?_⟩
  · rw [pending, recipients]
    exact pointed.recipients
  · rw [pending, senders]
    exact pointed.senders

theorem closes (pointed : channel.Pointed) {party : AgentPeerQuestion → Nat}
    {index : Nat → Option Text} (shows : Shows channel.pending party index)
    {parties : AgentPeerQuestion → Nat × Nat} (closes : Closes channel (index taskId) parties after)
    (own : ∀ question, party question = taskId →
      parties question = (question.senderTaskId, question.recipientTaskId)) : after.Pointed := by
  cases closes with
  | idle none => exact pointed
  | stale shown absent fewer fewer' =>
      exact ⟨pointed.recipients.of_le fewer, pointed.senders.of_le fewer'⟩
  | dropped shown present resolved =>
      obtain ⟨found, present', same⟩ := shows taskId _ shown
      obtain rfl := Option.some.inj (present.symm.trans present')
      rw [own _ same]
      exact ⟨pointed.recipients.remove present, pointed.senders.remove present⟩

theorem closeLocked (pointed : channel.Pointed) (taskId : Nat) :
    (channel.closeLocked taskId).Pointed := by
  have closed : Pointed
      { channel with
        active := channel.active.erase taskId
        finished := insert taskId channel.finished } := pointed.frame rfl rfl rfl
  have incoming := closed.closes closed.recipients (closeIncoming_closes _ taskId)
    fun question same => by rw [same]
  have outgoing := incoming.closes incoming.senders (closeOutgoing_closes _ taskId)
    fun question same => by rw [same]
  exact outgoing.frame rfl rfl rfl

theorem popleft (pointed : channel.Pointed)
    (done : channel.popleft taskId = some (question, after)) : after.Pointed := by
  obtain ⟨inboxes, rfl⟩ := popleft_frame channel taskId done
  exact pointed.frame rfl rfl rfl

theorem reply (pointed : channel.Pointed)
    (done : channel.reply recipientId question answer = .ok after) : after.Pointed := by
  obtain ⟨present, rfl, rfl⟩ := reply_cases done
  exact ⟨pointed.recipients.remove present, pointed.senders.remove present⟩

/-- An entry that is taken out where it shows the question. -/
theorem of_shown {pending : Text → Option AgentPeerQuestion} {party : AgentPeerQuestion → Nat}
    {index : Nat → Option Text} (shows : Shows pending party index)
    (own : ∀ question, pending messageId = some question → party question = taskId) :
    Shows (update pending messageId none) party
      (if index taskId = some messageId then update index taskId none else index) := by
  refine shows.drop fun other shown found => ?_
  split at found
  · next held =>
      obtain ⟨apart, found⟩ := update_none_eq_some_iff.mp found
      refine ⟨found, ?_⟩
      rintro rfl
      obtain ⟨question, present, party⟩ := shows other shown found
      exact apart (party.symm.trans (own question present))
  · next free =>
      refine ⟨found, ?_⟩
      rintro rfl
      obtain ⟨question, present, rfl⟩ := shows other shown found
      rw [own question present] at found
      exact free found

theorem resume (pointed : channel.Pointed) (sound : channel.Sound) (messageId : Text) :
    (channel.resume messageId).Pointed := by
  obtain ⟨-, same⟩ | ⟨ask, there, -, -, cleaned, which, same⟩ := resume_cases channel messageId
  · rwa [same]
  · rw [same]
    have cleaned_pointed : cleaned.Pointed := by
      rw [which]
      split
      · obtain ⟨inboxes, shape⟩ := cleanUp_eq channel messageId ask.senderId ask.recipientId
        have parties (question : AgentPeerQuestion)
            (present : channel.pending messageId = some question) :
            ask.senderId = question.senderTaskId ∧ ask.recipientId = question.recipientTaskId := by
          obtain ⟨-, other, also, -, sender, recipient, -⟩ :=
            sound.asked messageId question present
          obtain rfl := Option.some.inj (there.symm.trans also)
          exact ⟨sender, recipient⟩
        rw [shape]
        exact
          ⟨of_shown pointed.recipients fun question present => (parties question present).2.symm,
          of_shown pointed.senders fun question present => (parties question present).1.symm⟩
      · exact pointed
    exact cleaned_pointed.frame rfl rfl rfl

theorem changes (pointed : channel.Pointed) (sound : channel.Sound)
    (changes : Changes channel after) : after.Pointed := by
  cases changes with
  | idle => exact pointed
  | asked fresh done =>
      obtain ⟨-, -, -, -, -, question, _, _, rfl, rfl, rfl⟩ := ask_cases done
      have unused := sound.pending_eq_none fresh
      exact ⟨pointed.recipients.insert unused, pointed.senders.insert unused⟩
  | taken done => exact pointed.popleft done
  | replied done => exact pointed.reply done
  | closed taskId => exact pointed.closeLocked taskId
  | _ => exact pointed.frame rfl rfl rfl

theorem step (pointed : channel.Pointed) (sound : channel.Sound) (call : PeerCall)
    (fresh : channel.Fresh call) : (channel.step call).Pointed := by
  obtain ⟨messageId, rfl⟩ | ⟨-, changes⟩ := step_cases call fresh
  · exact pointed.resume sound messageId
  · exact pointed.changes sound changes

end Pointed

/-! ### The outcomes of a reply -/

/-- The asker's future has the answer, and the exchange is in no index any more. Whatever an index
shows of another exchange is as before. -/
structure Answers (question : AgentPeerQuestion) (answer : Text) (before after : PeerChannel) :
    Prop where
  asked : before.pending question.messageId = some question
  resolved : ∃ ask, before.asks question.messageId = some ask ∧ ask.response = .waiting ∧
    after.asks = update before.asks question.messageId
      (some { ask with response := .answered answer })
  pending : after.pending = update before.pending question.messageId none
  recipients : ∀ taskId, after.pendingByRecipient taskId =
    if before.pendingByRecipient taskId = some question.messageId then none
    else before.pendingByRecipient taskId
  senders : ∀ taskId, after.outgoingBySender taskId =
    if before.outgoingBySender taskId = some question.messageId then none
    else before.outgoingBySender taskId
  exchange : ∀ taskId, taskId ∈ after.inExchange ↔ taskId ∈ before.inExchange ∧
    (¬ before.Names question.messageId taskId ∨
      ∃ other, other ≠ question.messageId ∧ before.Names other taskId)

/-- The reply answers the question, or it is refused and changes nothing. -/
def ReplyDecides (channel : PeerChannel) (recipientId : Nat) (question : AgentPeerQuestion)
    (answer : Text) : Prop :=
  (∃ after, channel.reply recipientId question answer = .ok after ∧
    Answers question answer channel after) ∨
  ∃ message, channel.reply recipientId question answer = .error (.peerMessage message) ∧
    channel.step (.reply recipientId question answer) = channel

/-- If the question is pending for the active recipient, then its asker still waits, and what the
indexes show of the two tasks is this exchange. -/
def ReplyMeetsAsker (channel : PeerChannel) (recipientId : Nat) (question : AgentPeerQuestion) :
    Prop :=
  channel.pending question.messageId = some question →
  question.recipientTaskId = recipientId → recipientId ∈ channel.active →
  (∀ ask, channel.asks question.messageId = some ask → ask.response = .waiting) ∧
  (∀ other, channel.pendingByRecipient recipientId = some other → other = question.messageId) ∧
  (∀ other, channel.outgoingBySender question.senderTaskId = some other →
    other = question.messageId) ∧
  ∀ taskId ∈ channel.inExchange, channel.Names question.messageId taskId →
    ∀ other, channel.Names other taskId → other = question.messageId

/-- As long as the exchanges are exclusive, only a cancelled asker can be in the way. -/
theorem Exclusive.replyMeetsAsker (exclusive : channel.Exclusive)
    (waits : ∀ ask, channel.asks question.messageId = some ask → ask.response = .waiting) :
    channel.ReplyMeetsAsker recipientId question := by
  rintro present rfl -
  have recipient : channel.Names question.messageId question.recipientTaskId :=
    ⟨question, present, .inr rfl⟩
  have sender : channel.Names question.messageId question.senderTaskId :=
    ⟨question, present, .inl rfl⟩
  refine ⟨waits, fun other shown => ?_, fun other shown => ?_, fun taskId _ own other also => ?_⟩
  · obtain ⟨found, there, same⟩ := (exclusive.recipients _ other).mp shown
    exact exclusive.once _ other _ ⟨found, there, .inr same.symm⟩ recipient
  · obtain ⟨found, there, same⟩ := (exclusive.senders _ other).mp shown
    exact exclusive.once _ other _ ⟨found, there, .inl same.symm⟩ sender
  · exact exclusive.once taskId other _ also own

/-- Taking out the entry of a task takes out the question only, if the entry shows no other one. -/
theorem update_none_eq_iff {party : AgentPeerQuestion → Nat} {index : Nat → Option Text}
    (shows : Shows channel.pending party index)
    (present : channel.pending question.messageId = some question) :
    (∀ taskId, update index (party question) none taskId =
      if index taskId = some question.messageId then none else index taskId) ↔
    ∀ other, index (party question) = some other → other = question.messageId := by
  constructor
  · intro same other shown
    by_contra apart
    have lost := same (party question)
    rw [update_self, shown, if_neg fun equal => apart (Option.some.inj equal)] at lost
    cases lost
  · intro own taskId
    by_cases same : taskId = party question
    · obtain rfl := same
      rw [update_self]
      cases shown : index (party question) with
      | none => rfl
      | some other => rw [own other shown, if_pos rfl]
    · rw [update_of_ne same, if_neg]
      intro shown
      obtain ⟨found, present', party⟩ := shows taskId _ shown
      obtain rfl := Option.some.inj (present.symm.trans present')
      exact same party.symm

/-- Freeing both tasks frees those that are in no other exchange, if neither is in one. -/
theorem freed_iff (present : channel.pending question.messageId = some question) :
    (∀ taskId, taskId ∈ channel.inExchange \ {question.senderTaskId, question.recipientTaskId} ↔
      taskId ∈ channel.inExchange ∧ (¬ channel.Names question.messageId taskId ∨
        ∃ other, other ≠ question.messageId ∧ channel.Names other taskId)) ↔
    ∀ taskId ∈ channel.inExchange, channel.Names question.messageId taskId →
      ∀ other, channel.Names other taskId → other = question.messageId := by
  have party (taskId : Nat) :
      taskId ∈ ({question.senderTaskId, question.recipientTaskId} : Finset Nat)
      ↔ channel.Names question.messageId taskId := by
    rw [Names.of_eq present, Finset.mem_insert, Finset.mem_singleton]
  refine forall_congr' fun taskId => ?_
  rw [Finset.mem_sdiff, party, and_congr_right_iff]
  refine forall_congr' fun _ => ?_
  constructor
  · intro same own other also
    by_contra apart
    exact same.mpr (.inr ⟨other, apart, also⟩) own
  · intro alone
    refine ⟨.inl, ?_⟩
    rintro (free | ⟨other, apart, also⟩) own
    · exact free own
    · exact apart (alone own other also)

section Reply

variable (valid : question.validate = .ok ())
variable (bounded : boundedPeerText answer "peer answer" = .ok ())

include valid bounded

theorem reply_eq : channel.reply recipientId question answer =
    if channel.pending question.messageId ≠ some question ∨
        question.recipientTaskId ≠ recipientId ∨ recipientId ∉ channel.active then
      refuse "peer question is stale or addressed to another task"
    else if (channel.asks question.messageId).any (·.response ≠ .waiting) then
      .error .invalidState
    else .ok (channel.without question.messageId question.senderTaskId recipientId
      (.answered answer) channel.inboxes) := by
  unfold reply
  rw [valid, bounded]
  rfl

theorem replyDecides_iff (sound : channel.Sound) (pointed : channel.Pointed) :
    channel.ReplyDecides recipientId question answer ↔
      channel.ReplyMeetsAsker recipientId question := by
  have result : channel.reply recipientId question answer = _ := reply_eq valid bounded
  by_cases stale : channel.pending question.messageId ≠ some question ∨
      question.recipientTaskId ≠ recipientId ∨ recipientId ∉ channel.active
  · rw [if_pos stale] at result
    refine iff_of_true (.inr ⟨_, result, ?_⟩) fun present same active => ?_
    · rw [PeerChannel.step, result]
      rfl
    · exact absurd stale (not_or.mpr ⟨not_not.mpr present, not_or.mpr ⟨not_not.mpr same,
        not_not.mpr active⟩⟩)
  · rw [if_neg stale] at result
    rw [not_or, not_or, not_not, not_not, not_not] at stale
    obtain ⟨present, rfl, active⟩ := stale
    obtain ⟨-, ask, there, -⟩ := sound.asked _ question present
    rw [there, Option.any_some] at result
    by_cases waiting : ask.response = .waiting
    · rw [if_neg (by simpa using waiting)] at result
      have waits : ∀ ask, channel.asks question.messageId = some ask → ask.response = .waiting := by
        intro other there'
        rwa [← Option.some.inj (there.symm.trans there')]
      constructor
      · rintro (⟨after, done, answers⟩ | ⟨message, refused, -⟩) - - -
        · obtain rfl := Except.ok.inj (result.symm.trans done)
          exact ⟨waits, (update_none_eq_iff pointed.recipients present).mp answers.recipients,
            (update_none_eq_iff pointed.senders present).mp answers.senders,
            (freed_iff present).mp answers.exchange⟩
        · cases result.symm.trans refused
      · intro meets
        obtain ⟨-, recipients, senders, exchange⟩ := meets present rfl active
        refine .inl ⟨_, result, present, ⟨ask, there, waiting, ?_⟩, rfl,
          (update_none_eq_iff pointed.recipients present).mpr recipients,
          (update_none_eq_iff pointed.senders present).mpr senders,
          (freed_iff present).mpr exchange⟩
        rw [without, there, Option.map_some, PeerAsk.resolve, if_pos waiting]
    · rw [if_pos (by simpa using waiting)] at result
      constructor
      · rintro (⟨after, done, -⟩ | ⟨message, refused, -⟩)
        · cases result.symm.trans done
        · cases result.symm.trans refused
      · intro meets
        exact absurd ((meets present rfl active).1 ask there) waiting

end Reply

end PeerChannel

/-- A reply after any run is answered or refused exactly if its asker still waits and the indexes
show no other exchange of the two tasks. -/
theorem peer_reply_decides_iff (runId : Text) (calls : List PeerCall)
    (fresh : Along PeerChannel.step PeerChannel.Fresh { runId } calls) (recipientId : Nat)
    (question : AgentPeerQuestion) (answer : Text) (valid : question.validate = .ok ())
    (bounded : boundedPeerText answer "peer answer" = .ok ()) :
    (exchanged runId calls).ReplyDecides recipientId question answer ↔
      (exchanged runId calls).ReplyMeetsAsker recipientId question := by
  have background : (exchanged runId calls).Sound ∧ (exchanged runId calls).Pointed := by
    have keep (channel : PeerChannel) (call : PeerCall) (h : channel.Sound ∧ channel.Pointed)
        (fresh : channel.Fresh call) : (channel.step call).Sound ∧ (channel.step call).Pointed :=
      ⟨h.1.step call fresh, h.2.step h.1 call fresh⟩
    exact run_invariant_along keep fresh
      ⟨PeerChannel.Sound.start runId, PeerChannel.Pointed.start runId⟩
  exact PeerChannel.replyDecides_iff valid bounded background.1 background.2

/-- The second task has the question when the asker is cancelled. -/
def cancelledCalls : List PeerCall :=
  let text := ofString
  [.register 1 true, .register 2 true, .activate 1, .activate 2,
    .ask (text "a1") 1 2 (text "Which port?"), .receive 2, .cancel (text "a1")]

theorem cancelled_asker_breaks_reply :
    ¬ ∀ (runId : Text) (calls : List PeerCall),
      Along PeerChannel.step PeerChannel.Fresh { runId } calls →
      ∀ recipientId question answer, question.validate = .ok () →
      boundedPeerText answer "peer answer" = .ok () →
      (exchanged runId calls).ReplyDecides recipientId question answer := by
  intro decides
  have result : (exchanged (ofString "run-1") cancelledCalls).reply 2
      ⟨ofString "a1", ofString "run-1", 1, 2, ofString "Which port?"⟩
      (ofString "443") = .error .invalidState := by
    rw [PeerChannel.reply_eq (by decide +kernel) (by decide +kernel), if_neg (by decide +kernel),
      if_pos (by decide +kernel)]
  obtain ⟨after, done, -⟩ | ⟨message, refused, -⟩ := decides (ofString "run-1") cancelledCalls
    (by decide +kernel) 2
    ⟨ofString "a1", ofString "run-1", 1, 2, ofString "Which port?"⟩
    (ofString "443") (by decide +kernel) (by decide +kernel)
  · cases result.symm.trans done
  · cases result.symm.trans refused

/-- The same run, before the asker is cancelled. -/
theorem waiting_asker_is_answered :
    (exchanged (ofString "run-1") cancelledCalls.dropLast).ReplyDecides 2
      ⟨ofString "a1", ofString "run-1", 1, 2, ofString "Which port?"⟩
      (ofString "443") := by
  refine (peer_reply_decides_iff (ofString "run-1") cancelledCalls.dropLast
    (by decide +kernel) 2
    ⟨ofString "a1", ofString "run-1", 1, 2, ofString "Which port?"⟩
    (ofString "443") (by decide +kernel) (by decide +kernel)).mpr ?_
  have keep (channel : PeerChannel) (call : PeerCall) (h : channel.Sound ∧ channel.Exclusive)
      (legal : channel.Fresh call ∧ channel.CleansUpFree call) :
      (channel.step call).Sound ∧ (channel.step call).Exclusive :=
    ⟨h.1.step call legal.1, (h.2.step_iff h.1 call legal.1).mpr legal.2⟩
  have legal : Along PeerChannel.step
      (fun channel call => channel.Fresh call ∧ channel.CleansUpFree call)
      { runId := ofString "run-1" } cancelledCalls.dropLast := by
    -- Only an ask has to be fresh, and no asker goes on in this run.
    have fresh : Along PeerChannel.step PeerChannel.Fresh { runId := ofString "run-1" }
        cancelledCalls.dropLast := by decide +kernel
    obtain ⟨-, -, -, -, asks, -⟩ := fresh
    exact ⟨⟨trivial, trivial⟩, ⟨trivial, trivial⟩, ⟨trivial, trivial⟩, ⟨trivial, trivial⟩,
      ⟨asks, trivial⟩, ⟨trivial, trivial⟩, trivial⟩
  have exclusive := run_invariant_along keep legal
    ⟨PeerChannel.Sound.start _, PeerChannel.Exclusive.start _⟩
  refine exclusive.2.replyMeetsAsker fun ask there => ?_
  obtain rfl := Option.some.inj (there.symm.trans
    (show _ = some ⟨1, 2, .waiting, false, false⟩ by decide +kernel))
  rfl

end Aegis.Coordination
