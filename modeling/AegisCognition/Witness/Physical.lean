import AegisCognition.Foundation.Grouping
import AegisCognition.Foundation.Selection
import AegisCognition.Replay.Event
import AegisCognition.Witness.Round

/-!
# Physical witnesses

The votes that count are put into groups by what they vouch for. The proof is made from the first of
the largest groups in the order of their keys, if it has one vote more than there may be faulty
witnesses. So an honest witness is behind it, and the order of the votes does not matter.
-/

namespace Aegis.Witness

open Foundation Foundation.OrderedMap List BitVec Option
open Replay (Hash)
open Std (ExtTreeMap TransCmp LawfulEqCmp)

structure PhysicalWitnessVote where
  artifactHash : Hash
  astFingerprint : Nat
  fuelConsumed : Nat
  suspicious : Bool
  fits : astFingerprint ≤ u64Max ∧ fuelConsumed ≤ u64Max := by decide

structure WitnessProof where
  anchor : SacAnchor
  blake3Hash : Hash
  astFingerprint : Nat
  witnessCount : Nat
  fuelConsumed : Nat

/-- The artifact that a vote vouches for, and its fingerprint. -/
abbrev WitnessGroupKey := Hash × Nat

abbrev compareKey (a b : WitnessGroupKey) : Ordering :=
  compareLex (compareOn fun key : WitnessGroupKey => key.1.bytes) (compareOn Prod.snd) a b

instance : TransCmp compareKey :=
  inferInstanceAs
    (TransCmp
      (compareLex (compareOn fun key : WitnessGroupKey => key.1.bytes) (compareOn Prod.snd)))

instance : LawfulEqCmp compareKey where
  eq_of_compare := by
    rintro ⟨⟨a, length⟩, m⟩ ⟨⟨b, length'⟩, n⟩ same
    simp only [compareKey, compareLex, compareOn, Ordering.then_eq_eq] at same
    obtain rfl := LawfulEqCmp.eq_of_compare same.1
    obtain rfl := LawfulEqCmp.eq_of_compare same.2
    rfl

abbrev WitnessGroup := WitnessGroupKey × List PhysicalWitnessVote

namespace PhysicalWitnessVote

def isValid (vote : PhysicalWitnessVote) : Bool :=
  0 < vote.fuelConsumed && vote.artifactHash.bytes.any (· != 0)

def isEligible (vote : PhysicalWitnessVote) : Bool :=
  vote.isValid && !vote.suspicious

def key (vote : PhysicalWitnessVote) : WitnessGroupKey :=
  (vote.artifactHash, vote.astFingerprint)

end PhysicalWitnessVote

def physicalWitnessThreshold (totalWitnesses : Nat) : Nat :=
  (totalWitnesses - 1) / 3 + 1

def physicalAnchor (artifactHash : Hash) (astFingerprint fuelConsumed quorumSize : Nat)
    (lastWitnessHash : BitVec 64) : SacAnchor :=
  let head := BitVec.ofNat 64 (ofLeBytes (artifactHash.bytes.take 8))
  let tail := BitVec.ofNat 64 (ofLeBytes (slice artifactHash.bytes 8 16))
  { anchorId := quorumSize
    lastWitnessHash :=
      head.rotateLeft 17 ^^^ tail.rotateLeft 7 ^^^
        (BitVec.ofNat 64 astFingerprint).rotateLeft 31 ^^^
        (BitVec.ofNat 64 fuelConsumed).rotateLeft 13 ^^^
        (BitVec.ofNat 64 quorumSize).rotateLeft 3 ^^^ lastWitnessHash.rotateLeft 5 }

def largestFuel (group : List PhysicalWitnessVote) : Nat :=
  (group.map (·.fuelConsumed)).max?.getD 0

def addToGroup (groups : ExtTreeMap WitnessGroupKey (List PhysicalWitnessVote) compareKey)
    (vote : PhysicalWitnessVote) :
    ExtTreeMap WitnessGroupKey (List PhysicalWitnessVote) compareKey :=
  if vote.isEligible then groups.insert vote.key (groups[vote.key]?.getD [] ++ [vote]) else groups

def groupVotes (votes : List PhysicalWitnessVote) :
    ExtTreeMap WitnessGroupKey (List PhysicalWitnessVote) compareKey :=
  votes.foldl addToGroup ∅

/-- Take the group if it is large enough and larger than the one there is. -/
def considerGroup (requiredMatches : Nat) (winner : Option WitnessGroup) (group : WitnessGroup) :
    Option WitnessGroup :=
  if group.2.length < requiredMatches then winner
  else if winner.any fun best => group.2.length ≤ best.2.length then winner
  else some group

def witnessProof (key : WitnessGroupKey) (witnessCount fuelConsumed : Nat)
    (lastWitnessHash : BitVec 64) : WitnessProof where
  anchor := physicalAnchor key.1 key.2 fuelConsumed witnessCount lastWitnessHash
  blake3Hash := key.1
  astFingerprint := key.2
  witnessCount
  fuelConsumed

def verifyPhysicalWitness (votes : List PhysicalWitnessVote) (totalWitnesses : Nat)
    (lastWitnessHash : BitVec 64) : Except String WitnessProof :=
  if votes.isEmpty || totalWitnesses == 0 then .error "no physical votes"
  else
    match totalWitnesses, votes with
    | 1, [vote] =>
        if vote.isEligible then .ok (witnessProof vote.key 1 vote.fuelConsumed lastWitnessHash)
        else .error "physical witness rejected"
    | _, _ =>
        let requiredMatches := physicalWitnessThreshold totalWitnesses
        let winner := (groupVotes votes).toList.foldl (considerGroup requiredMatches) none
        match winner with
        | some (key, group) =>
            .ok (witnessProof key group.length (largestFuel group) lastWitnessHash)
        | none => .error "physical witness rejected"

/-! ### Groups -/

section Groups

variable {votes other : List PhysicalWitnessVote} {key : WitnessGroupKey}

/-- The votes that count and vouch for this. -/
def votesFor (key : WitnessGroupKey) (votes : List PhysicalWitnessVote) :
    List PhysicalWitnessVote :=
  votes.filter fun vote => vote.isEligible && vote.key == key

theorem groupVotes_getElem? (votes : List PhysicalWitnessVote) (key : WitnessGroupKey) :
    (groupVotes votes)[key]? =
      if votesFor key votes = [] then none else some (votesFor key votes) :=
  groupItems_getElem? votes key

theorem mem_groupVotes {group : WitnessGroup} : group ∈ (groupVotes votes).toList ↔
    group.2 = votesFor group.1 votes ∧ group.2 ≠ [] :=
  mem_groupItems

theorem largestFuel_perm {group group' : List PhysicalWitnessVote} (perm : group.Perm group') :
    largestFuel group = largestFuel group' := by
  have fuels := perm.map (·.fuelConsumed)
  have same : (group.map (·.fuelConsumed)).max? = (group'.map (·.fuelConsumed)).max? := by
    apply Option.ext
    intro fuel
    simp only [List.max?_eq_some_iff, fuels.mem_iff]
  rw [largestFuel, largestFuel, same]

theorem largestFuel_spec {group : List PhysicalWitnessVote} (some_vote : group ≠ []) :
    (∃ vote ∈ group, vote.fuelConsumed = largestFuel group) ∧
      ∀ vote ∈ group, vote.fuelConsumed ≤ largestFuel group := by
  have given : group.map (·.fuelConsumed) ≠ [] := by
    rwa [ne_eq, map_eq_nil_iff]
  obtain ⟨fuel, largest⟩ := isSome_iff_exists.mp (isSome_max?_of_ne_nil given)
  obtain ⟨mem, beyond⟩ := List.max?_eq_some_iff.mp largest
  rw [largestFuel, largest, getD_some]
  exact ⟨mem_map.mp mem, fun vote mem => beyond _ (mem_map_of_mem mem)⟩

/-- What the proof is made from. -/
def groupSummary (group : WitnessGroup) : WitnessGroupKey × Nat × Nat :=
  (group.1, group.2.length, largestFuel group.2)

theorem summaries_of_perm (perm : other.Perm votes) :
    (groupVotes other).toList.map groupSummary = (groupVotes votes).toList.map groupSummary := by
  apply toList_eq_of_reads
    (f := fun group : List PhysicalWitnessVote => (group.length, largestFuel group))
  intro key
  have same : (votesFor key other).Perm (votesFor key votes) := itemsFor_perm perm key
  have empty : votesFor key other = [] ↔ votesFor key votes = [] := by
    rw [← length_eq_zero_iff, same.length_eq, length_eq_zero_iff]
  rw [groupVotes_getElem?, groupVotes_getElem?]
  simp only [empty]
  split
  · rfl
  · rw [map_some, map_some, same.length_eq, largestFuel_perm same]

end Groups

/-! ### The winner -/

section Winner

variable {votes other : List PhysicalWitnessVote} {requiredMatches : Nat} {group : WitnessGroup}

def winnerOf (requiredMatches : Nat) (votes : List PhysicalWitnessVote) : Option WitnessGroup :=
  (groupVotes votes).toList.foldl (considerGroup requiredMatches) none

theorem considerGroup_eq (requiredMatches : Nat) :
    considerGroup requiredMatches = takeLarger (fun group => group.2.length) requiredMatches := rfl

theorem of_winnerOf (h : winnerOf requiredMatches votes = some group) :
    group.2 = votesFor group.1 votes ∧ group.2 ≠ [] ∧ requiredMatches ≤ group.2.length ∧
      ∀ key, (votesFor key votes).length ≤ group.2.length := by
  rw [winnerOf, considerGroup_eq] at h
  obtain ⟨from_, enough, -, largest⟩ := (foldl_takeLarger (by simp)).2 group h
  obtain ⟨⟨⟩⟩ | mem := from_
  obtain ⟨members, some_vote⟩ := mem_groupVotes.mp mem
  refine ⟨members, some_vote, enough, fun key => ?_⟩
  by_cases empty : votesFor key votes = []
  · rw [empty]
    exact Nat.zero_le _
  · exact largest (key, votesFor key votes) (mem_groupVotes.mpr ⟨rfl, empty⟩)

theorem winnerOf_isSome_iff (positive : 0 < requiredMatches) :
    (winnerOf requiredMatches votes).isSome = true ↔
      ∃ key, requiredMatches ≤ (votesFor key votes).length := by
  constructor
  · intro h
    obtain ⟨group, found⟩ := isSome_iff_exists.mp h
    obtain ⟨members, -, enough, -⟩ := of_winnerOf found
    exact ⟨group.1, members ▸ enough⟩
  · rintro ⟨key, enough⟩
    rw [isSome_iff_ne_none]
    intro absent
    rw [winnerOf, considerGroup_eq, (foldl_takeLarger (by simp)).1] at absent
    have some_vote : votesFor key votes ≠ [] := length_pos_iff.mp (by omega)
    have small := absent.2 (key, votesFor key votes) (mem_groupVotes.mpr ⟨rfl, some_vote⟩)
    simp only at small
    omega

def summarySize (summary : WitnessGroupKey × Nat × Nat) : Nat :=
  summary.2.1

theorem winnerOf_perm (perm : other.Perm votes) :
    (winnerOf requiredMatches other).map groupSummary =
      (winnerOf requiredMatches votes).map groupSummary := by
  have sizes (group : WitnessGroup) : summarySize (groupSummary group) = group.2.length :=
    rfl
  rw [winnerOf, winnerOf, considerGroup_eq, map_foldl_takeLarger sizes, map_foldl_takeLarger sizes,
    summaries_of_perm perm]

theorem winnerOf_single (vote : PhysicalWitnessVote) : winnerOf 1 [vote] =
    if vote.isEligible then some (vote.key, [vote]) else none := by
  have sole (key : WitnessGroupKey) (some_vote : votesFor key [vote] ≠ []) :
      vote.isEligible = true ∧ vote.key = key := by
    obtain ⟨vote', mem⟩ := exists_mem_of_ne_nil _ some_vote
    obtain ⟨mem, counts, same⟩ := mem_itemsFor.mp mem
    obtain rfl := mem_singleton.mp mem
    exact ⟨counts, same⟩
  cases found : winnerOf 1 [vote] with
  | none =>
      rw [if_neg]
      intro counts
      have absent := mt (winnerOf_isSome_iff Nat.one_pos).mpr (by rw [found]; decide)
      have own : votesFor vote.key [vote] = [vote] := by simp [votesFor, counts]
      exact absent ⟨vote.key, by rw [own]; exact Nat.le_refl 1⟩
  | some group =>
      obtain ⟨key, members⟩ := group
      obtain ⟨own, some_vote, -⟩ := of_winnerOf found
      simp only at own some_vote
      rw [own] at some_vote ⊢
      obtain ⟨counts, rfl⟩ := sole key some_vote
      rw [if_pos counts]
      simp [votesFor, counts]

end Winner

/-! ### What the proof says -/

section Proofs

variable {votes other : List PhysicalWitnessVote} {totalWitnesses : Nat}
variable {lastWitnessHash : BitVec 64} {proof : WitnessProof}

/-- A single vote for a single witness is not treated apart from the others. -/
theorem verify_eq (votes : List PhysicalWitnessVote) (totalWitnesses : Nat)
    (lastWitnessHash : BitVec 64) : verifyPhysicalWitness votes totalWitnesses lastWitnessHash =
      if votes = [] ∨ totalWitnesses = 0 then .error "no physical votes"
      else
        match (winnerOf (physicalWitnessThreshold totalWitnesses) votes).map groupSummary with
        | some (key, count, fuel) => .ok (witnessProof key count fuel lastWitnessHash)
        | none => .error "physical witness rejected" := by
  unfold verifyPhysicalWitness
  by_cases empty : votes = [] ∨ totalWitnesses = 0
  · rw [if_pos empty, if_pos (by simpa using empty)]
  · rw [if_neg empty, if_neg (by simpa using empty)]
    split
    · next vote =>
        have one : physicalWitnessThreshold 1 = 1 := rfl
        rw [one, winnerOf_single]
        split <;> rfl
    · simp only [← winnerOf.eq_1]
      cases winnerOf (physicalWitnessThreshold totalWitnesses) votes <;> rfl

theorem verify_ok_iff : verifyPhysicalWitness votes totalWitnesses lastWitnessHash = .ok proof ↔
    votes ≠ [] ∧ totalWitnesses ≠ 0 ∧
      ∃ group, winnerOf (physicalWitnessThreshold totalWitnesses) votes = some group ∧
        witnessProof group.1 group.2.length (largestFuel group.2) lastWitnessHash = proof := by
  rw [verify_eq]
  by_cases empty : votes = [] ∨ totalWitnesses = 0
  · rw [if_pos empty]
    constructor
    · nofun
    · exact fun ⟨given, positive, _⟩ => absurd empty (not_or.mpr ⟨given, positive⟩)
  · rw [if_neg empty]
    obtain ⟨given, positive⟩ := not_or.mp empty
    cases winnerOf (physicalWitnessThreshold totalWitnesses) votes with
    | none => simp
    | some group => simp [groupSummary, given, positive]

theorem verify_perm (perm : other.Perm votes) :
    verifyPhysicalWitness other totalWitnesses lastWitnessHash =
      verifyPhysicalWitness votes totalWitnesses lastWitnessHash := by
  have empty : other = [] ↔ votes = [] := by
    rw [← length_eq_zero_iff, perm.length_eq, length_eq_zero_iff]
  rw [verify_eq, verify_eq, winnerOf_perm perm]
  simp only [empty]

end Proofs

/-! ### Faulty witnesses -/

/-- A vote and whether the witness that it comes from is faulty. -/
structure Ballot where
  vote : PhysicalWitnessVote
  faulty : Bool

/-- What a verification says of ballots with few faulty ones. -/
structure VerifiesSoundly (ballots : List Ballot) (totalWitnesses : Nat)
    (lastWitnessHash : BitVec 64) : Prop where
  honest : ∀ proof,
    verifyPhysicalWitness (ballots.map (·.vote)) totalWitnesses lastWitnessHash = .ok proof →
      ∃ ballot ∈ ballots, ballot.faulty = false ∧ ballot.vote.isValid = true ∧
        ballot.vote.suspicious = false ∧ ballot.vote.artifactHash = proof.blake3Hash ∧
        ballot.vote.astFingerprint = proof.astFingerprint
  accepts :
    (∃ proof, verifyPhysicalWitness (ballots.map (·.vote)) totalWitnesses lastWitnessHash =
        .ok proof) ↔
      ∃ key, (totalWitnesses - 1) / 3 + 1 ≤ (votesFor key (ballots.map (·.vote))).length
  /-- The proof is about a group of maximal size. -/
  reports : ∀ proof,
    verifyPhysicalWitness (ballots.map (·.vote)) totalWitnesses lastWitnessHash = .ok proof →
      ∃ group, group = votesFor (proof.blake3Hash, proof.astFingerprint) (ballots.map (·.vote)) ∧
        (∀ key, (votesFor key (ballots.map (·.vote))).length ≤ group.length) ∧
        proof.witnessCount = group.length ∧
        (∃ vote ∈ group, vote.fuelConsumed = proof.fuelConsumed) ∧
        ∀ vote ∈ group, vote.fuelConsumed ≤ proof.fuelConsumed
  permuted : ∀ votes : List PhysicalWitnessVote, votes.Perm (ballots.map (·.vote)) →
    verifyPhysicalWitness votes totalWitnesses lastWitnessHash =
      verifyPhysicalWitness (ballots.map (·.vote)) totalWitnesses lastWitnessHash

theorem verify_physical_witness_sound (ballots : List Ballot) (totalWitnesses : Nat)
    (lastWitnessHash : BitVec 64) (atMost : ballots.length ≤ totalWitnesses)
    (few : ballots.countP (·.faulty) ≤ (totalWitnesses - 1) / 3) :
    VerifiesSoundly ballots totalWitnesses lastWitnessHash where
  honest proof verified := by
    obtain ⟨-, -, group, found, rfl⟩ := verify_ok_iff.mp verified
    obtain ⟨members, -, enough, -⟩ := of_winnerOf found
    rw [physicalWitnessThreshold, members] at enough
    obtain ⟨ballot, mem, honest, eligible, same⟩ := exists_unmarked few enough
    rw [PhysicalWitnessVote.isEligible, Bool.and_eq_true, Bool.not_eq_true'] at eligible
    exact ⟨ballot, mem, honest, eligible.1, eligible.2, congrArg Prod.fst same,
      congrArg Prod.snd same⟩
  accepts := by
    have positive : 0 < physicalWitnessThreshold totalWitnesses := Nat.succ_pos _
    rw [← physicalWitnessThreshold, ← winnerOf_isSome_iff positive]
    constructor
    · rintro ⟨proof, verified⟩
      obtain ⟨-, -, group, found, -⟩ := verify_ok_iff.mp verified
      rw [found]
      rfl
    · intro won
      obtain ⟨group, found⟩ := isSome_iff_exists.mp won
      obtain ⟨members, some_vote, -⟩ := of_winnerOf found
      have given : ballots.map (·.vote) ≠ [] := by
        intro empty
        rw [members, empty] at some_vote
        exact some_vote rfl
      have positive : totalWitnesses ≠ 0 := by
        rintro rfl
        exact given (map_eq_nil_iff.mpr (length_eq_zero_iff.mp (Nat.le_zero.mp atMost)))
      exact ⟨_, verify_ok_iff.mpr ⟨given, positive, group, found, rfl⟩⟩
  reports proof verified := by
    obtain ⟨-, -, group, found, rfl⟩ := verify_ok_iff.mp verified
    obtain ⟨members, some_vote, -, largest⟩ := of_winnerOf found
    exact ⟨group.2, members, largest, rfl, largestFuel_spec some_vote⟩
  permuted votes perm := verify_perm perm

/-- A vote for the artifact whose hash is this number. -/
def voteFor (artifact fuel : Nat) (fits : fuel ≤ u64Max := by decide) : PhysicalWitnessVote where
  artifactHash := .ofNat artifact
  astFingerprint := 1
  fuelConsumed := fuel
  suspicious := false
  fits := ⟨by decide, fits⟩

/-- Two of four witnesses agree, one is faulty and one was not heard. -/
def fourWitnesses : List Ballot :=
  [⟨voteFor 1 7, false⟩, ⟨voteFor 2 9, true⟩, ⟨voteFor 1 5, false⟩]

theorem four_witnesses_sound : fourWitnesses.length ≤ 4 ∧ VerifiesSoundly fourWitnesses 4 999 :=
  ⟨by decide, verify_physical_witness_sound fourWitnesses 4 999 (by decide) (by decide)⟩

end Aegis.Witness
