import AegisCognition.Coordination.Text
import Mathlib.Data.Finset.Basic
import Mathlib.Logic.Function.Basic

/-!
# The peer channel

Tasks of one run ask each other questions. The channel is used by coroutines of one event loop;
what a call does between two suspensions is one step here. A question is pending from the step
that asks it to the one that answers or drops it, and the asker waits for its response in
between. The asker's own clean-up is a step of its own: other calls may come before it.
-/

namespace Aegis.Coordination

open Foundation
open Function (update)

def maxPeerQuestionBytes : Nat := 2 * 1024

def maxPeerExchangesPerTask : Nat := 3

/-- `_bounded_peer_text`. -/
def boundedPeerText (value : Text) (name : String) : Except CoordinationError Unit := do
  nonEmpty value name maxPeerQuestionBytes
  match value.encode with
  | .error _ => .error (.peerMessage (name ++ " must be valid UTF-8 text"))
  | .ok bytes =>
    if maxPeerQuestionBytes < bytes.length then
      .error (.peerMessage (name ++ " exceeds its UTF-8 byte bound"))
    else .ok ()

structure AgentPeerQuestion where
  messageId : Text
  runId : Text
  senderTaskId : Nat
  recipientTaskId : Nat
  question : Text
  deriving DecidableEq

def AgentPeerQuestion.validate (question : AgentPeerQuestion) : Except CoordinationError Unit := do
  nonEmpty question.messageId "peer message_id" 64
  nonEmpty question.runId "peer run_id" 128
  positiveId question.senderTaskId "peer sender_task_id"
  positiveId question.recipientTaskId "peer recipient_task_id"
  if question.senderTaskId = question.recipientTaskId then
    .error (.peerMessage "a peer question cannot be sent to the same task")
  else boundedPeerText question.question "peer question"

/-- The future that the asker of a question waits for. -/
inductive PeerResponse
  | waiting
  | answered (answer : Text)
  | failed (error : CoordinationError)
  | cancelled
  deriving DecidableEq

/-- A call of `ask` that has asked its question. -/
structure PeerAsk where
  senderId : Nat
  recipientId : Nat
  response : PeerResponse
  /-- The task was cancelled after the response was there. -/
  mustCancel : Bool
  /-- The call has returned or raised. -/
  returned : Bool
  deriving DecidableEq

/-- A future is resolved at most once. -/
def PeerAsk.resolve (response : PeerResponse) (ask : PeerAsk) : PeerAsk :=
  if ask.response = .waiting then { ask with response } else ask

/-- The wait of the asker ends in an exception. -/
def PeerAsk.raises (ask : PeerAsk) : Bool :=
  match ask.response with
  | .answered _ => ask.mustCancel
  | _ => true

structure PeerChannel where
  runId : Text
  known : Finset Nat := ∅
  peerEnabled : Finset Nat := ∅
  active : Finset Nat := ∅
  finished : Finset Nat := ∅
  exchangeCounts : Nat → Nat := fun _ => 0
  inExchange : Finset Nat := ∅
  inboxes : Nat → Option (List AgentPeerQuestion) := fun _ => none
  pending : Text → Option AgentPeerQuestion := fun _ => none
  pendingByRecipient : Nat → Option Text := fun _ => none
  outgoingBySender : Nat → Option Text := fun _ => none
  /-- The calls of `ask` by the ids of their questions, with the futures they wait for. -/
  asks : Text → Option PeerAsk := fun _ => none

namespace PeerChannel

variable (channel : PeerChannel)

def refuse {α : Type} (message : String) : Except CoordinationError α :=
  .error (.peerMessage message)

section

variable (taskId : Nat)

def register (peerEnabled : Bool) : Except CoordinationError PeerChannel := do
  positiveId taskId "peer task_id"
  if taskId ∈ channel.known then
    refuse "peer task id is already registered"
  else
    .ok
      { channel with
        known := insert taskId channel.known
        peerEnabled :=
          if peerEnabled then insert taskId channel.peerEnabled else channel.peerEnabled }

def activate : Except CoordinationError PeerChannel :=
  if taskId ∉ channel.known ∨ taskId ∈ channel.finished then
    refuse "peer task is not available for activation"
  else .ok { channel with active := insert taskId channel.active }

/-- The first part of `ask`: the question becomes pending. -/
def ask (messageId : Text) (senderId recipientId : Nat) (questionText : Text) :
    Except CoordinationError PeerChannel := do
  positiveId senderId "peer sender_task_id"
  positiveId recipientId "peer recipient_task_id"
  if senderId = recipientId then refuse "a task cannot message itself"
  else do
  boundedPeerText questionText "peer question"
  if senderId ∉ channel.active ∨ senderId ∉ channel.peerEnabled then
    refuse "sending peer task is no longer active"
  else if maxPeerExchangesPerTask ≤ channel.exchangeCounts senderId then
    refuse "peer task reached its per-run exchange limit"
  else if recipientId ∉ channel.active ∨ recipientId ∉ channel.peerEnabled then
    refuse "receiving peer task is no longer active"
  else if maxPeerExchangesPerTask ≤ channel.exchangeCounts recipientId then
    refuse "receiving peer task reached its per-run exchange limit"
  else if senderId ∈ channel.inExchange ∨ recipientId ∈ channel.inExchange then
    refuse "a peer task is already handling another exchange"
  else do
  let question : AgentPeerQuestion :=
    { messageId, runId := channel.runId, senderTaskId := senderId, recipientTaskId := recipientId,
      question := questionText }
  question.validate
  let counts := update channel.exchangeCounts senderId
    (channel.exchangeCounts senderId + 1)
  .ok
    { channel with
      exchangeCounts := update counts recipientId (counts recipientId + 1)
      inExchange := channel.inExchange ∪ {senderId, recipientId}
      pending := update channel.pending messageId (some question)
      pendingByRecipient := update channel.pendingByRecipient recipientId (some messageId)
      outgoingBySender := update channel.outgoingBySender senderId (some messageId)
      inboxes := update channel.inboxes recipientId
        (some ((channel.inboxes recipientId).getD [] ++ [question]))
      asks := update channel.asks messageId (some
        { senderId, recipientId, response := .waiting, mustCancel := false, returned := false }) }

/-- `_remove_question`. -/
def removeQuestion (recipientId : Nat) (messageId : Text) : PeerChannel :=
  match channel.inboxes recipientId with
  | none => channel
  | some inbox =>
    { channel with
      inboxes := update channel.inboxes recipientId
        (some (inbox.eraseP (·.messageId == messageId))) }

/-- The response future of a question, resolved. -/
def resolve (messageId : Text) (response : PeerResponse) : PeerChannel :=
  { channel with
    asks := update channel.asks messageId
      ((channel.asks messageId).map (.resolve response)) }

/-- The first question of an inbox that is not empty. -/
def popleft (recipientId : Nat) : Option (AgentPeerQuestion × PeerChannel) :=
  match channel.inboxes recipientId with
  | some (question :: inbox) =>
    some (question,
      { channel with inboxes := update channel.inboxes recipientId (some inbox) })
  | _ => none

/-- One round of `receive`; without an answer the call waits for the next one. -/
def receive (recipientId : Nat) :
    Except CoordinationError (Option AgentPeerQuestion × PeerChannel) :=
  match channel.popleft recipientId with
  | some (question, after) => .ok (some question, after)
  | none =>
    if recipientId ∉ channel.active then refuse "peer task has no pending question"
    else .ok (none, channel)

def takePending (recipientId : Nat) : Option AgentPeerQuestion × PeerChannel :=
  match channel.popleft recipientId with
  | some (question, after) => (some question, after)
  | none => (none, channel)

/-- The question that the task was asked is dropped: its asker is told. -/
def closeIncoming : PeerChannel :=
  match channel.pendingByRecipient taskId with
  | none => channel
  | some messageId =>
    let channel := { channel with
      pendingByRecipient := update channel.pendingByRecipient taskId none }
    match channel.pending messageId with
    | none => channel
    | some question =>
      let channel := { channel with pending := update channel.pending messageId none }
      let channel := (channel.removeQuestion taskId messageId).resolve messageId
        (.failed (.peerMessage "peer task finished before replying"))
      { channel with
        outgoingBySender := update channel.outgoingBySender question.senderTaskId none
        inExchange := channel.inExchange \ {question.senderTaskId, taskId} }

/-- The question that the task asked is dropped. -/
def closeOutgoing : PeerChannel :=
  match channel.outgoingBySender taskId with
  | none => channel
  | some messageId =>
    let channel := { channel with
      outgoingBySender := update channel.outgoingBySender taskId none }
    match channel.pending messageId with
    | none => channel
    | some question =>
      let channel := { channel with pending := update channel.pending messageId none }
      let channel := channel.removeQuestion question.recipientTaskId messageId
      let channel := { channel with
        pendingByRecipient :=
          update channel.pendingByRecipient question.recipientTaskId none
        inExchange := channel.inExchange \ {taskId, question.recipientTaskId} }
      channel.resolve messageId
        (.failed (.peerMessage "peer requester finished before receiving a reply"))

/-- `_close_locked`. -/
def closeLocked : PeerChannel :=
  let channel := { channel with
    active := channel.active.erase taskId
    finished := insert taskId channel.finished }
  let channel := (channel.closeIncoming taskId).closeOutgoing taskId
  { channel with inboxes := update channel.inboxes taskId none }

def finishOrReceive : Option AgentPeerQuestion × PeerChannel :=
  match channel.popleft taskId with
  | some (question, after) => (some question, after)
  | none => (none, channel.closeLocked taskId)

def reply (recipientId : Nat) (question : AgentPeerQuestion) (answer : Text) :
    Except CoordinationError PeerChannel := do
  question.validate
  boundedPeerText answer "peer answer"
  if channel.pending question.messageId ≠ some question ∨
      question.recipientTaskId ≠ recipientId ∨ recipientId ∉ channel.active then
    refuse "peer question is stale or addressed to another task"
  else if (channel.asks question.messageId).any (·.response ≠ .waiting) then
    -- The asker was cancelled and has not cleaned up yet.
    .error .invalidState
  else
    let channel := channel.resolve question.messageId (.answered answer)
    .ok
      { channel with
        pending := update channel.pending question.messageId none
        pendingByRecipient := update channel.pendingByRecipient recipientId none
        outgoingBySender := update channel.outgoingBySender question.senderTaskId none
        inExchange := channel.inExchange \ {question.senderTaskId, recipientId} }

def finish : PeerChannel := channel.closeLocked taskId

end

/-- The task of an asker is cancelled: the future is, or the task once it goes on. -/
def cancel (messageId : Text) : PeerChannel :=
  { channel with
    asks := update channel.asks messageId ((channel.asks messageId).map fun ask =>
      if ask.returned then ask
      else if ask.response = .waiting then { ask with response := .cancelled }
      else { ask with mustCancel := true }) }

/-- What an asker does when its wait ends in an exception. -/
def cleanUp (messageId : Text) (senderId recipientId : Nat) : PeerChannel :=
  let pending := channel.pending messageId
  let channel := { channel with pending := update channel.pending messageId none }
  let channel :=
    match pending with
    | none => channel
    | some _ => (channel.removeQuestion recipientId messageId).resolve messageId .cancelled
  let channel :=
    if channel.pendingByRecipient recipientId = some messageId then
      { channel with
        pendingByRecipient := update channel.pendingByRecipient recipientId none }
    else channel
  let channel :=
    if channel.outgoingBySender senderId = some messageId then
      { channel with outgoingBySender := update channel.outgoingBySender senderId none }
    else channel
  { channel with inExchange := channel.inExchange \ {senderId, recipientId} }

/-- An asker goes on: with the answer, or with an exception, after its clean-up. -/
def resume (messageId : Text) : PeerChannel :=
  match channel.asks messageId with
  | none => channel
  | some ask =>
    if ask.returned ∨ ask.response = .waiting then channel
    else
      let channel :=
        if ask.raises then channel.cleanUp messageId ask.senderId ask.recipientId else channel
      { channel with
        asks := update channel.asks messageId
          ((channel.asks messageId).map fun ask => { ask with returned := true }) }

end PeerChannel

/-- The calls on a channel, and the steps of the askers that wait. -/
inductive PeerCall
  | register (taskId : Nat) (peerEnabled : Bool)
  | activate (taskId : Nat)
  | ask (messageId : Text) (senderId recipientId : Nat) (questionText : Text)
  | receive (recipientId : Nat)
  | takePending (recipientId : Nat)
  | finishOrReceive (taskId : Nat)
  | reply (recipientId : Nat) (question : AgentPeerQuestion) (answer : Text)
  | finish (taskId : Nat)
  | cancel (messageId : Text)
  | resume (messageId : Text)

/-- The channel after a call; a call that raises leaves it as it was. -/
def PeerChannel.step (channel : PeerChannel) : PeerCall → PeerChannel
  | .register taskId peerEnabled => (channel.register taskId peerEnabled).toOption.getD channel
  | .activate taskId => (channel.activate taskId).toOption.getD channel
  | .ask messageId senderId recipientId questionText =>
    (channel.ask messageId senderId recipientId questionText).toOption.getD channel
  | .receive recipientId => ((channel.receive recipientId).toOption.map Prod.snd).getD channel
  | .takePending recipientId => (channel.takePending recipientId).2
  | .finishOrReceive taskId => (channel.finishOrReceive taskId).2
  | .reply recipientId question answer =>
    (channel.reply recipientId question answer).toOption.getD channel
  | .finish taskId => channel.finish taskId
  | .cancel messageId => channel.cancel messageId
  | .resume messageId => channel.resume messageId

end Aegis.Coordination
