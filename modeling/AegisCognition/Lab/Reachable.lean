import AegisCognition.Lab.Restore

/-!
# Every reachable controller

A controller is new or read back from a snapshot, and then takes any calls. Whatever they
are, its log is a chain with growing epochs that ends at its own epoch, its payloads belong
to the log, and it stays within the two bounds of its mission.
-/

namespace Aegis.Lab

open Foundation LabController List Option
open Replay (Hash)

/-! ### Chains -/

section Chain

variable {externals : Externals}

theorem ChainEnd.follow_ok {last next : ChainEnd} {event : LabEvent}
    (h : last.follow externals event = some next) :
    event.sequence = last.sequence + 1 ∧ last.stateEpoch ≤ event.stateEpoch ∧
      next = ⟨event.sequence, event.eventHash, event.stateEpoch⟩ := by
  unfold ChainEnd.follow at h
  split at h
  · rename_i follows
    exact ⟨follows.1, follows.2.2.1, (Option.some.inj h).symm⟩
  · cases h

section

variable {events : List LabEvent} {last finish : ChainEnd}
variable (h : events.foldlM (ChainEnd.follow externals) last = some finish)
include last finish h

/-- The events of a chain are numbered on from its start. -/
theorem foldlM_follow_sequence :
    (∀ (i : Nat) (bound : i < events.length), events[i].sequence = last.sequence + i + 1) ∧
      finish.sequence = last.sequence + events.length := by
  induction events generalizing last with
  | nil =>
      cases h
      exact ⟨nofun, rfl⟩
  | cons event events ih =>
      rw [foldlM_cons] at h
      obtain ⟨next, first, rest⟩ := bind_eq_some_iff.mp h
      obtain ⟨sequence, -, rfl⟩ := ChainEnd.follow_ok first
      obtain ⟨numbered, length⟩ := ih rest
      constructor
      · intro i bound
        cases i with
        | zero => simpa using sequence
        | succ i =>
            have place := numbered i (by simpa using bound)
            simp only [getElem_cons_succ, place]
            omega
      · simp only [length, length_cons]
        omega

/-- The epochs of a chain grow, and the last one is that of its end. -/
theorem foldlM_follow_epochs : (∀ event ∈ events, last.stateEpoch ≤ event.stateEpoch) ∧
      events.Pairwise (·.stateEpoch ≤ ·.stateEpoch) := by
  induction events generalizing last with
  | nil => exact ⟨nofun, .nil⟩
  | cons event events ih =>
      rw [foldlM_cons] at h
      obtain ⟨next, first, rest⟩ := bind_eq_some_iff.mp h
      obtain ⟨-, later, rfl⟩ := ChainEnd.follow_ok first
      obtain ⟨above, grows⟩ := ih rest
      refine ⟨?_, pairwise_cons.mpr ⟨above, grows⟩⟩
      intro other mem
      obtain rfl | mem := mem_cons.mp mem
      · exact later
      · exact UInt64.le_trans later (above other mem)

/-- A chain ends at its last event. -/
theorem foldlM_follow_finish : events.getLast?.all fun event =>
      finish.eventHash == event.eventHash && finish.stateEpoch == event.stateEpoch := by
  induction events generalizing last with
  | nil => rfl
  | cons event events ih =>
      rw [foldlM_cons] at h
      obtain ⟨next, first, rest⟩ := bind_eq_some_iff.mp h
      obtain ⟨-, -, rfl⟩ := ChainEnd.follow_ok first
      cases events with
      | nil =>
          cases rest
          simp
      | cons other events => simpa using ih rest

end

end Chain

/-! ### Epochs -/

/-- The epochs of the log grow up to the epoch of the reducer. -/
structure EpochsGrow (c : LabController) : Prop where
  grows : c.runtime.events.Pairwise (·.stateEpoch ≤ ·.stateEpoch)
  bounded : ∀ event ∈ c.runtime.events, event.stateEpoch ≤ c.runtime.stateEpoch
  last : c.runtime.events.getLast?.map (·.stateEpoch) = some c.runtime.stateEpoch

/-- What every call keeps. -/
structure Kept (externals : Externals) (c : LabController) : Prop where
  logged : WellLogged c
  epochs : EpochsGrow c
  chain : (∀ event, externals.canonicalHash (.event event) ≠ Hash.zero) → ChainValid externals c
  payloads : c.payloads.toList.any (c.payloadIsInvalid externals) = false
  steps : c.steps ≤ c.mission.maxSteps
  attempts : c.externalAttemptBudgetValid = true

section Moves

variable {externals : Externals} {c d : LabController} {event : LabEvent} {call : Call}

theorem Appends.epochsGrow (appends : Appends externals c d event) (h : EpochsGrow c) :
    EpochsGrow d where
  grows := by
    rw [appends.events, pairwise_append]
    refine ⟨h.grows, pairwise_singleton _ _, ?_⟩
    intro old mem next last
    obtain rfl := mem_singleton.mp last
    exact UInt64.le_trans (h.bounded old mem) appends.later
  bounded := by
    intro old mem
    rw [appends.epoch]
    rw [appends.events, mem_append, mem_singleton] at mem
    obtain mem | rfl := mem
    · exact UInt64.le_trans (h.bounded old mem) appends.later
    · exact UInt64.le_refl _
  last := by simp [appends.events, appends.epoch]

theorem Move.payloadsFit (move : Move externals call c d)
    (h : c.payloads.toList.any (c.payloadIsInvalid externals) = false) :
    d.payloads.toList.any (d.payloadIsInvalid externals) = false := by
  obtain ⟨event, appends, bare | ⟨payload, projectionState, ⟨admitted⟩⟩⟩ := move.bare_or_admitted
  · exact bare.payloadsFit appends h
  · exact admitted.result ▸ admitted.admission.payloadsFit h

theorem Move.kept (move : Move externals call c d) (h : Kept externals c) :
    Kept externals d := by
  obtain ⟨event, appends⟩ := move.appends
  exact {
    logged := h.logged.of_appends appends
    epochs := appends.epochsGrow h.epochs
    chain := fun nonzero => appends.chainValid nonzero (h.chain nonzero)
    payloads := move.payloadsFit h.payloads
    steps := move.steps h.steps
    attempts := move.attempts h.attempts }

end Moves

/-! ### Runs -/

/-- A controller as a run finds it: new, or read back from some snapshot. -/
inductive Opened (externals : Externals) : LabController → Prop
  | new {mission : LabMissionSpec} {start : LabController}
      (created : LabController.new externals mission = .ok start) : Opened externals start
  | restored {codec : Codec} {snapshot : String} {start : LabController}
      (read : fromSnapshotJson externals codec snapshot = some (.ok start)) :
      Opened externals start

section Runs

variable {externals : Externals} {c start : LabController}

theorem kept_new {mission : LabMissionSpec}
    (created : LabController.new externals mission = .ok start) : Kept externals start where
  logged := .of_new created
  epochs := by
    obtain ⟨-, budget, -, rfl⟩ := new_ok created
    refine ⟨pairwise_singleton _ _, ?_, rfl⟩
    intro event mem
    obtain rfl := mem_singleton.mp mem
    exact UInt64.le_refl _
  chain := chainValid_new created
  payloads := (payloadsValid_new created).payloads
  steps := (funded_new created).steps
  attempts := (funded_new created).attempts

/-- The chain of a restored reducer. -/
theorem validateSnapshotContents_ok (h : c.runtime.validateSnapshotContents externals = .ok ()) :
    verifyEventChain externals c.runtime.events = true ∧
      (∃ event rest, c.runtime.events = event :: rest ∧ event.kind = .missionCreated ∧
        event.payloadHash = externals.canonicalHash (.mission c.mission)) ∧
      c.runtime.stateEpoch = (c.runtime.events.getLast?.map (·.stateEpoch)).getD 0 := by
  simp only [LabRuntime.validateSnapshotContents, bind_eq_ok_iff, refuseWhen_eq_ok_iff,
    okOr_eq_ok_iff, not_or, ne_eq, not_not, Bool.not_eq_true', Bool.not_eq_false] at h
  obtain ⟨_, -, _, chain, first, head, _, ⟨kind, hash, epoch⟩, -⟩ := h
  obtain ⟨rest, events⟩ := List.head?_eq_some_iff.mp head
  exact ⟨chain, ⟨first, rest, events, kind, hash⟩, epoch⟩

theorem chainValid_of_snapshot (h : c.runtime.validateSnapshotContents externals = .ok ()) :
    ChainValid externals c ∧ WellLogged { c with payloads := ∅ } ∧ EpochsGrow c := by
  obtain ⟨chain, ⟨first, rest, events, kind, hash⟩, epoch⟩ := validateSnapshotContents_ok h
  obtain ⟨finish, follows⟩ := isSome_iff_exists.mp (Bool.and_eq_true_iff.mp chain).1
  obtain ⟨numbered, length⟩ := foldlM_follow_sequence follows
  obtain ⟨-, grows⟩ := foldlM_follow_epochs follows
  have ends := foldlM_follow_finish follows
  obtain ⟨last, found⟩ : ∃ last, c.runtime.events.getLast? = some last :=
    isSome_iff_exists.mp (by simp [events])
  simp only [found, map_some, getD_some] at epoch
  simp only [found, all_some, Bool.and_eq_true, beq_iff_eq] at ends
  refine ⟨⟨?_, ⟨first, rest, events, kind, hash⟩, by simp [found, epoch]⟩, ⟨?_, ?_, ?_⟩,
    grows, ?_, by simp [found, epoch]⟩
  · rw [follows]
    obtain ⟨sequence, eventHash, stateEpoch⟩ := finish
    simp only [ChainEnd.start, Nat.zero_add] at length
    simp only [length, lastEventHash, found, epoch, map_some, getD_some]
    simp only at ends
    rw [ends.1, ends.2]
  · intro i bound
    simpa [ChainEnd.start] using numbered i bound
  · simp [events, kind]
  · intro place held
    exact absurd held Std.ExtTreeMap.not_mem_empty
  · intro event mem
    rw [epoch]
    obtain ⟨before, split⟩ := getLast?_eq_some_iff.mp found
    rw [split, mem_append, mem_singleton] at mem
    obtain mem | rfl := mem
    · rw [split, pairwise_append] at grows
      exact grows.2.2 event mem last mem_cons_self
    · exact UInt64.le_refl _

theorem kept_of_restore {d : LabController} (h : c.restore externals = some (.ok d)) :
    Kept externals c := by
  unfold LabController.restore at h
  split at h
  · cases h
  rename_i contents
  split at h
  · cases h
  rename_i bounds
  obtain ⟨valid, -, checked⟩ := map_eq_some_iff.mp h
  simp only [validateProjectionSnapshot, bind_eq_ok_iff, refuseWhen_eq_ok_iff,
    Bool.or_eq_true, not_or, Bool.not_eq_true] at checked bounds
  obtain ⟨_, -, _, ⟨_, -, _, -, found, -, _, -, _, ⟨-, fit⟩, -⟩, -⟩ := checked
  obtain ⟨chain, numbered, epochs⟩ := chainValid_of_snapshot contents
  refine ⟨⟨numbered.numbered, numbered.created, ?_⟩, epochs, fun _ => chain, fit,
    by simpa using bounds.1, by simpa using bounds.2⟩
  intro place held
  obtain ⟨payload, held⟩ := isSome_iff_exists.mp
    (Std.ExtTreeMap.mem_iff_isSome_getElem?.mp held)
  have fits := any_eq_false.mp fit (place, payload)
    (Std.ExtTreeMap.mem_toList_iff_getElem?_eq_some.mpr held)
  by_contra outside
  apply fits
  have beyond : c.runtime.events[place - 1]? = none := getElem?_eq_none (by omega)
  simp [payloadIsInvalid, beyond]

theorem Opened.kept (h : Opened externals start) : Kept externals start := by
  cases h with
  | new created => exact kept_new created
  | restored read =>
      unfold fromSnapshotJson at read
      split at read
      · cases read
      · obtain ⟨rfl, -⟩ := retains_of_restore read
        exact kept_of_restore read

theorem reached_kept (opened : Opened externals start) {calls : List Call} :
    Kept externals (reached externals start calls) :=
  reached_keeps (fun _ _ _ move => move.kept) opened.kept

/-- Calls on the controller are atomic, its log is a chain with growing epochs that ends at its
epoch, its payloads belong to the events of the log, and the two bounds of its mission hold.
The chain asks that no event digest is the zero digest, with which a chain starts. -/
structure AtomicAndChained (externals : Externals) (c : LabController) : Prop where
  atomic : ∀ call e d, method externals call c = .error e d → d = c
  chain : (∀ event, externals.canonicalHash (.event event) ≠ Hash.zero) →
    verifyEventChain externals c.runtime.events = true
  epochs : c.runtime.events.Pairwise (·.stateEpoch ≤ ·.stateEpoch)
  last : c.runtime.events.getLast?.map (·.stateEpoch) = some c.runtime.stateEpoch
  payloads : ∀ (place : Nat) (payload : Json), c.payloads[place]? = some payload →
    ∃ event ∈ c.runtime.events, event.sequence = place ∧
      event.payloadHash = projectionPayloadHash externals payload
  steps : c.steps ≤ c.mission.maxSteps
  attempts : ∀ bound, c.mission.maxExternalAttempts = some bound →
    (c.runtime.events.filter fun event => isExternalAdmissionKind event.kind).length ≤ bound

/-- So it is after any calls on a controller that is new or restored. -/
theorem operations_atomic_and_chained (opened : Opened externals start) (calls : List Call) :
    AtomicAndChained externals (reached externals start calls) := by
  have kept : Kept externals (reached externals start calls) := reached_kept opened
  generalize reached externals start calls = c at kept
  refine ⟨fun call e d failed => atomic_method c e d failed, fun nonzero => ?_,
    kept.epochs.grows, kept.epochs.last, fun place payload held => ?_, kept.steps,
    fun bound limited => ?_⟩
  · have chain := kept.chain nonzero
    obtain ⟨first, rest, events, -⟩ := chain.first
    rw [verifyEventChain, chain.chain, events]
    rfl
  · have fits := List.any_eq_false.mp kept.payloads (place, payload)
      (Std.ExtTreeMap.mem_toList_iff_getElem?_eq_some.mpr held)
    cases found : c.runtime.events[place - 1]? with
    | none => simp [payloadIsInvalid, found] at fits
    | some event =>
        simp only [payloadIsInvalid, found, Bool.or_eq_true, beq_iff_eq, bne_iff_ne,
          ne_eq, not_or, not_not] at fits
        obtain ⟨positive, -, hash⟩ := fits
        obtain ⟨bound, rfl⟩ := List.getElem?_eq_some_iff.mp found
        refine ⟨_, List.getElem_mem bound, ?_, hash⟩
        rw [kept.logged.numbered _ bound]
        omega
  · have attempts := kept.attempts
    simpa [externalAttemptBudgetValid, limited, externalAttempts,
      List.countP_eq_length_filter] using attempts

theorem legacyMission_atomic_and_chained :
    ∃ start, Opened snapshotExternals start ∧
      AtomicAndChained snapshotExternals
        (reached snapshotExternals start [.transition .researching]) ∧
      verifyEventChain snapshotExternals
        (reached snapshotExternals start [.transition .researching]).runtime.events = true := by
  obtain ⟨start, created⟩ : ∃ start,
      LabController.new snapshotExternals legacyMission = .ok start := ⟨_, rfl⟩
  have sound := operations_atomic_and_chained (.new created) [.transition .researching]
  exact ⟨start, .new created, sound, sound.chain snapshotExternals_nonzero⟩

end Runs

end Aegis.Lab
