import AegisCognition.Conversation.Transition

/-!
# Optimistic concurrency on a conversation

The revision of a conversation only grows, and each committed client call moves it by one
from the value the client has seen. So of all the calls that saw one revision of a
conversation at most one commits, in whatever order the store serialises them.
-/

namespace Aegis.Conversation

open Foundation

variable {coupled : Prop} {externals : Externals} {tables after : Tables} {scope : Scope}
variable {id : String} {revision : Nat}

/-- The revision that the conversation is stored at. -/
def Tables.revisionOf (tables : Tables) (conversationId : String) : Option Nat :=
  (tables.conversations.find? (·.conversationId == conversationId)).map (·.revision)

theorem revisionOf_of_mem (h : Consistent tables) {row : ConversationRecord}
    (mem : row ∈ tables.conversations) :
    tables.revisionOf row.conversationId = some row.revision := by
  have found : tables.conversations.find? (·.conversationId == row.conversationId) = some row :=
    find?_eq_some_of_unique h.conversationKeys mem (beq_self_eq_true _)
      fun _ _ same => beq_iff_eq.mp same
  rw [Tables.revisionOf, found, Option.map_some]

theorem Tables.Covers.revisionOf (h : Consistent tables) (covers : tables.Covers id revision) :
    ∃ stored, tables.revisionOf id = some stored ∧ revision ≤ stored := by
  obtain ⟨row, mem, rfl, bound⟩ := covers
  exact ⟨row.revision, revisionOf_of_mem h mem, bound⟩

theorem Tables.AtRevision.revisionOf (h : Consistent tables) (current : tables.AtRevision scope) :
    tables.revisionOf scope.conversationId = some scope.expectedRevision := by
  obtain ⟨row, mem, same, -, rev⟩ := current
  rw [← same, ← rev]
  exact revisionOf_of_mem h mem

/-- No edit moves a conversation back. -/
theorem Edit.covers (edit : Edit coupled tables after) (covers : tables.Covers id revision) :
    after.Covers id revision := by
  cases edit with
  | addConversation row fresh usable => exact covers.addConversation row
  | reviseConversations p f kept advances => exact covers.reviseConversations kept advances
  | _ => exact covers

theorem Edits.covers (edits : Edits coupled tables after) (covers : tables.Covers id revision) :
    after.Covers id revision := by
  induction edits with
  | refl => exact covers
  | tail _ last ih => exact last.covers ih

theorem run_covers (calls : List Call) (h : Consistent tables)
    (covers : tables.Covers id revision) :
    (run (step externals) tables calls).Covers id revision := by
  have keep : ∀ tables call, Consistent tables ∧ tables.Covers id revision →
      Consistent (step externals tables call) ∧ (step externals tables call).Covers id revision :=
    fun tables call both =>
      ⟨both.1.step, Edits.covers (step_edits both.1 nofun : Edits False tables _) both.2⟩
  exact (run_invariant keep calls ⟨h, covers⟩).2

/-- A client call that is answered has met the revision it expected and has moved the
conversation to the next one. -/
theorem answered_call {call : Call} {reply : Reply} (h : Consistent tables)
    (revisioned : call.scope? = some scope)
    (answered : (perform externals tables call).reply = .ok reply) :
    tables.AtRevision scope ∧
      (perform externals tables call).tables.AtRevision
        { scope with expectedRevision := scope.expectedRevision + 1 } := by
  obtain ⟨error, failed⟩ | ⟨after, _, ran, done⟩ := perform_cases externals call h
  · simp [failed] at answered
  · have commits : Commits False tables after scope call :=
      transaction_commits h nofun revisioned ran
    refine ⟨commits.current, ?_⟩
    obtain ⟨row, mem, same, owner, rev⟩ := commits.current
    obtain ⟨assign, keeps, conversations⟩ := commits.conversations
    rw [done, Tables.AtRevision, conversations]
    refine ⟨_, mem_updateWhere_of_mem mem, ?_⟩
    simp only [same, owner, rev, beq_self_eq_true, Bool.and_self, if_true]
    exact keeps _

/-- The revision of a row is not ahead of its conversation. -/
def Tables.NotAhead (tables : Tables) (conversationId : String) (revision : Nat) : Prop :=
  ∃ stored, tables.revisionOf conversationId = some stored ∧ revision ≤ stored

theorem revisions_admit_one_call (externals : Externals) (earlier : List Call) :
    (∀ call scope reply, call.scope? = some scope →
      (perform externals (reached externals earlier) call).reply = .ok reply →
      (reached externals earlier).revisionOf scope.conversationId = some scope.expectedRevision ∧
      (perform externals (reached externals earlier) call).tables.revisionOf
        scope.conversationId = some (scope.expectedRevision + 1)) ∧
    (∀ call scope reply between call' scope' reply', call.scope? = some scope →
      call'.scope? = some scope' → scope'.conversationId = scope.conversationId →
      (perform externals (reached externals earlier) call).reply = .ok reply →
      (perform externals (reached externals (earlier ++ call :: between)) call').reply =
        .ok reply' →
      scope.expectedRevision < scope'.expectedRevision) ∧
    (∀ call error, (perform externals (reached externals earlier) call).reply = .error error →
      (perform externals (reached externals earlier) call).tables = reached externals earlier) ∧
    (∀ turn ∈ (reached externals earlier).turns,
      (reached externals earlier).NotAhead turn.conversationId turn.revision) ∧
    (∀ execution ∈ (reached externals earlier).executions,
      (reached externals earlier).NotAhead execution.conversationId execution.revision) ∧
    (∀ call ∈ (reached externals earlier).toolCalls,
      (reached externals earlier).NotAhead call.conversationId call.revision) := by
  have h : Consistent (reached externals earlier) := reached_consistent earlier
  refine ⟨?_, ?_, ?_, ?_, ?_, ?_⟩
  · intro call scope reply revisioned answered
    obtain ⟨before, moved⟩ := answered_call h revisioned answered
    exact ⟨before.revisionOf h, moved.revisionOf (h.step : Consistent (step externals _ call))⟩
  · intro call scope reply between call' scope' reply' revisioned revisioned' shared answered
      answered'
    obtain ⟨-, row, mem, same, -, rev⟩ := answered_call h revisioned answered
    have middle : Consistent (step externals (reached externals earlier) call) := h.step
    have covers : (reached externals (earlier ++ call :: between)).Covers scope.conversationId
        (scope.expectedRevision + 1) := by
      rw [reached, run_append]
      exact run_covers between middle ⟨row, mem, same, rev.ge⟩
    have later : Consistent (reached externals (earlier ++ call :: between)) :=
      reached_consistent _
    obtain ⟨before, -⟩ := answered_call later revisioned' answered'
    obtain ⟨stored, found, bound⟩ := covers.revisionOf later
    rw [← shared, before.revisionOf later] at found
    have := Option.some.inj found
    omega
  · intro call error failed
    obtain ⟨_, stays⟩ | ⟨after, reply, -, done⟩ := perform_cases externals call h
    · rw [stays]
    · rw [done] at failed
      cases failed
  · exact fun turn mem => (h.turnCovered turn mem).revisionOf h
  · exact fun execution mem => (h.executionCovered execution mem).revisionOf h
  · exact fun call mem => (h.callCovered call mem).revisionOf h

end Aegis.Conversation
