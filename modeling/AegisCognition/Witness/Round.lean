import Mathlib.Algebra.Order.BigOperators.Group.List
import Mathlib.Data.Rat.Floor
import AegisCognition.Foundation.Machine

/-!
# Rounds of scored votes

A round adds up the scores and the thresholds of the votes that count and compares the sum of the
scores with the mean threshold. Nothing that is added is negative. So every order of the votes gives
the same result, as long as the sums stay in the 32 bits that hold them.
-/

namespace Aegis.Witness

open Foundation List

structure SacAnchor where
  anchorId : Nat
  lastWitnessHash : BitVec 64

structure SacVote where
  score : Int
  suspicious : Bool
  quorumThreshold : Int
  fits : IsI32 score ∧ IsI32 quorumThreshold

namespace SacVote

def isValid (vote : SacVote) : Bool :=
  0 ≤ vote.quorumThreshold && 0 ≤ vote.score

/-- The votes that a round adds up. -/
def isEligible (vote : SacVote) : Bool :=
  vote.isValid && !vote.suspicious

end SacVote

def acceptVote (score quorumThreshold : Int) : Bool :=
  0 ≤ score && 0 ≤ quorumThreshold && quorumThreshold ≤ score

def anchoredWitness (score quorumThreshold : Int) (lastWitnessHash : BitVec 64) :
    Except String SacAnchor :=
  if acceptVote score quorumThreshold then .ok { anchorId := 1, lastWitnessHash }
  else .error "witness rejected"

structure RoundTotals where
  accepted : Int
  thresholdSum : Int
  eligible : Int

/-- There is no result where a sum leaves its 32 bits: a build with overflow checks stops there, and
one without goes on with another number. -/
def RoundTotals.add (totals : RoundTotals) (vote : SacVote) : Option RoundTotals :=
  if vote.isEligible then do
    let accepted ← boundedAdd IsI32 totals.accepted vote.score
    let thresholdSum ← boundedAdd IsI32 totals.thresholdSum vote.quorumThreshold
    let eligible ← boundedAdd IsI32 totals.eligible 1
    some { accepted, thresholdSum, eligible }
  else some totals

def witnessVerificationRound (votes : List SacVote) (lastWitnessHash : BitVec 64) :
    Option (Except String SacAnchor) :=
  if votes.isEmpty then some (.error "no votes")
  else do
    let totals ← votes.foldlM RoundTotals.add { accepted := 0, thresholdSum := 0, eligible := 0 }
    if totals.eligible = 0 then some (.error "no eligible votes")
    else
      let quorumThreshold := totals.thresholdSum.tdiv totals.eligible
      some (anchoredWitness totals.accepted quorumThreshold lastWitnessHash)

/-! ### The sums of a round -/

section Sums

variable {votes other : List SacVote} {totals : RoundTotals} {lastWitnessHash : BitVec 64}

def eligibleVotes (votes : List SacVote) : List SacVote :=
  votes.filter SacVote.isEligible

def totalScore (votes : List SacVote) : Int :=
  ((eligibleVotes votes).map SacVote.score).sum

def totalThreshold (votes : List SacVote) : Int :=
  ((eligibleVotes votes).map SacVote.quorumThreshold).sum

/-- The exact sums, added to what there is. -/
def RoundTotals.plus (totals : RoundTotals) (votes : List SacVote) : RoundTotals where
  accepted := totals.accepted + totalScore votes
  thresholdSum := totals.thresholdSum + totalThreshold votes
  eligible := totals.eligible + (eligibleVotes votes).length

/-- Totals that 32 bits hold. -/
structure RoundTotals.Fits (totals : RoundTotals) : Prop where
  accepted : totals.accepted < 2 ^ 31
  thresholdSum : totals.thresholdSum < 2 ^ 31
  eligible : totals.eligible < 2 ^ 31

theorem RoundTotals.fits_iff : totals.Fits ↔
    totals.accepted < 2 ^ 31 ∧ totals.thresholdSum < 2 ^ 31 ∧ totals.eligible < 2 ^ 31 :=
  ⟨fun h => ⟨h.accepted, h.thresholdSum, h.eligible⟩, fun h => ⟨h.1, h.2.1, h.2.2⟩⟩

instance (totals : RoundTotals) : Decidable totals.Fits :=
  decidable_of_iff _ RoundTotals.fits_iff.symm

/-- Totals of a round, none of which is negative. -/
structure RoundTotals.Nonneg (totals : RoundTotals) : Prop where
  accepted : 0 ≤ totals.accepted
  thresholdSum : 0 ≤ totals.thresholdSum
  eligible : 0 ≤ totals.eligible

theorem SacVote.isEligible_nonneg {vote : SacVote} (h : vote.isEligible = true) :
    0 ≤ vote.score ∧ 0 ≤ vote.quorumThreshold := by
  simp only [isEligible, isValid, Bool.and_eq_true, decide_eq_true_eq] at h
  exact ⟨h.1.2, h.1.1⟩

theorem sums_nonneg (votes : List SacVote) : 0 ≤ totalScore votes ∧ 0 ≤ totalThreshold votes := by
  have counts (vote : SacVote) (mem : vote ∈ eligibleVotes votes) :=
    SacVote.isEligible_nonneg (mem_filter.mp mem).2
  refine ⟨sum_nonneg fun score mem => ?_, sum_nonneg fun threshold mem => ?_⟩
  · obtain ⟨vote, eligible, rfl⟩ := mem_map.mp mem
    exact (counts vote eligible).1
  · obtain ⟨vote, eligible, rfl⟩ := mem_map.mp mem
    exact (counts vote eligible).2

namespace RoundTotals

variable {vote : SacVote}

theorem plus_nil (totals : RoundTotals) : totals.plus [] = totals := by
  simp [plus, totalScore, totalThreshold, eligibleVotes]

/-- The totals behind a vote that counts. -/
def counting (totals : RoundTotals) (vote : SacVote) : RoundTotals where
  accepted := totals.accepted + vote.score
  thresholdSum := totals.thresholdSum + vote.quorumThreshold
  eligible := totals.eligible + 1

theorem plus_of_eligible (counts : vote.isEligible = true) :
    totals.plus (vote :: votes) = (totals.counting vote).plus votes := by
  simp only [plus, counting, totalScore, totalThreshold, eligibleVotes, filter_cons_of_pos counts,
    map_cons, sum_cons, length_cons, mk.injEq]
  omega

theorem plus_of_not_eligible (ignored : vote.isEligible = false) :
    totals.plus (vote :: votes) = totals.plus votes := by
  simp [plus, totalScore, totalThreshold, eligibleVotes, ignored]

/-- Sums do not come back below a bound that they have left. -/
theorem Fits.of_plus (h : (totals.plus votes).Fits) : totals.Fits := by
  obtain ⟨scores, thresholds⟩ := sums_nonneg votes
  obtain ⟨accepted, thresholdSum, eligible⟩ := h
  simp only [plus] at accepted thresholdSum eligible
  exact ⟨by omega, by omega, by omega⟩

theorem boundedAdd_isI32 {total term : Int} (h : 0 ≤ total) (h' : 0 ≤ term) :
    boundedAdd IsI32 total term = if total + term < 2 ^ 31 then some (total + term) else none := by
  have fits : IsI32 (total + term) ↔ total + term < 2 ^ 31 := by
    unfold IsI32
    omega
  simp only [boundedAdd, fits]

theorem add_of_eligible (start : totals.Nonneg) (counts : vote.isEligible = true) :
    totals.add vote =
      if (totals.counting vote).Fits then some (totals.counting vote) else none := by
  obtain ⟨score, threshold⟩ := SacVote.isEligible_nonneg counts
  rw [add, if_pos counts, boundedAdd_isI32 start.accepted score,
    boundedAdd_isI32 start.thresholdSum threshold, boundedAdd_isI32 start.eligible Int.one_nonneg]
  by_cases accepted : totals.accepted + vote.score < 2 ^ 31
  · by_cases thresholdSum : totals.thresholdSum + vote.quorumThreshold < 2 ^ 31
    · by_cases eligible : totals.eligible + 1 < 2 ^ 31
      · rw [if_pos accepted, if_pos thresholdSum, if_pos eligible,
          if_pos (fits_iff.mpr ⟨accepted, thresholdSum, eligible⟩)]
        rfl
      · rw [if_pos accepted, if_pos thresholdSum, if_neg eligible,
          if_neg fun h => eligible (fits_iff.mp h).2.2]
        rfl
    · rw [if_pos accepted, if_neg thresholdSum, if_neg fun h => thresholdSum (fits_iff.mp h).2.1]
      rfl
  · rw [if_neg accepted, if_neg fun h => accepted (fits_iff.mp h).1]
    rfl

/-- The loop has the exact sums if they fit, and no result else. -/
theorem foldlM_add (start : totals.Nonneg) (fits : totals.Fits) :
    votes.foldlM add totals =
      if (totals.plus votes).Fits then some (totals.plus votes) else none := by
  induction votes generalizing totals with
  | nil => rw [plus_nil, if_pos fits, foldlM_nil]; rfl
  | cons vote votes ih =>
      rw [foldlM_cons]
      cases counts : vote.isEligible with
      | false =>
          rw [plus_of_not_eligible counts, add, if_neg (by rw [counts]; decide)]
          exact ih start fits
      | true =>
          rw [plus_of_eligible counts, add_of_eligible start counts]
          obtain ⟨score, threshold⟩ := SacVote.isEligible_nonneg counts
          have next : (totals.counting vote).Nonneg :=
            { accepted := Int.add_nonneg start.accepted score
              thresholdSum := Int.add_nonneg start.thresholdSum threshold
              eligible := Int.add_nonneg start.eligible Int.one_nonneg }
          by_cases inside : (totals.counting vote).Fits
          · rw [if_pos inside]
            exact ih next inside
          · rw [if_neg inside, if_neg fun h => inside (Fits.of_plus h)]
            rfl

end RoundTotals

/-- The sums of a round fit in 32 bits. -/
structure RoundFits (votes : List SacVote) : Prop where
  scores : totalScore votes < 2 ^ 31
  thresholds : totalThreshold votes < 2 ^ 31
  count : (eligibleVotes votes).length < 2 ^ 31

/-- What a round says if its sums fit. -/
def roundResult (votes : List SacVote) (lastWitnessHash : BitVec 64) : Except String SacAnchor :=
  if votes.isEmpty then .error "no votes"
  else if (eligibleVotes votes).isEmpty then .error "no eligible votes"
  else
    anchoredWitness (totalScore votes)
      ((totalThreshold votes).tdiv (eligibleVotes votes).length) lastWitnessHash

theorem fits_plus_iff : (RoundTotals.plus ⟨0, 0, 0⟩ votes).Fits ↔ RoundFits votes := by
  rw [RoundTotals.fits_iff]
  simp only [RoundTotals.plus, Int.zero_add]
  constructor
  · exact fun ⟨scores, thresholds, count⟩ => ⟨scores, thresholds, by omega⟩
  · exact fun ⟨scores, thresholds, count⟩ => ⟨scores, thresholds, by omega⟩

theorem round_eq_some_iff {result : Except String SacAnchor} :
    witnessVerificationRound votes lastWitnessHash = some result ↔
      RoundFits votes ∧ roundResult votes lastWitnessHash = result := by
  cases votes with
  | nil =>
      have fits : RoundFits [] := ⟨by decide, by decide, by decide⟩
      simp [witnessVerificationRound, roundResult, fits]
  | cons vote votes =>
      have loop : (vote :: votes).foldlM RoundTotals.add ⟨0, 0, 0⟩ = _ := RoundTotals.foldlM_add
        ⟨Int.le_refl 0, Int.le_refl 0, Int.le_refl 0⟩ ⟨by decide, by decide, by decide⟩
      have none_eligible : (RoundTotals.plus ⟨0, 0, 0⟩ (vote :: votes)).eligible = 0 ↔
          (eligibleVotes (vote :: votes)).isEmpty = true := by
        simp [RoundTotals.plus]
      rw [witnessVerificationRound, loop, ← fits_plus_iff]
      by_cases fits : (RoundTotals.plus ⟨0, 0, 0⟩ (vote :: votes)).Fits
      · simp only [isEmpty_cons, Bool.false_eq_true, if_false, if_pos fits,
          Option.bind_eq_bind, Option.bind_some, roundResult]
        by_cases empty : (eligibleVotes (vote :: votes)).isEmpty = true
        · simp only [none_eligible.mpr empty, empty, if_true, fits, true_and, Option.some.injEq]
        · have counted := mt none_eligible.mp empty
          simp only [if_neg counted, if_neg empty, fits, true_and, Option.some.injEq]
          simp only [RoundTotals.plus, Int.zero_add]
      · simp [fits]

theorem roundFits_of_perm (perm : other.Perm votes) (fits : RoundFits votes) : RoundFits other := by
  have eligible := perm.filter SacVote.isEligible
  refine ⟨?_, ?_, ?_⟩
  · rw [totalScore, eligibleVotes, (eligible.map _).sum_eq]
    exact fits.scores
  · rw [totalThreshold, eligibleVotes, (eligible.map _).sum_eq]
    exact fits.thresholds
  · rw [eligibleVotes, eligible.length_eq]
    exact fits.count

theorem roundResult_of_perm (perm : other.Perm votes) :
    roundResult other lastWitnessHash = roundResult votes lastWitnessHash := by
  have eligible := perm.filter SacVote.isEligible
  have scores : totalScore other = totalScore votes := (eligible.map _).sum_eq
  have thresholds : totalThreshold other = totalThreshold votes := (eligible.map _).sum_eq
  have count : (eligibleVotes other).length = (eligibleVotes votes).length := eligible.length_eq
  have empty : other.isEmpty = votes.isEmpty := perm.isEmpty_eq
  have none_eligible : (eligibleVotes other).isEmpty = (eligibleVotes votes).isEmpty :=
    eligible.isEmpty_eq
  rw [roundResult, roundResult, scores, thresholds, count, empty, none_eligible]

/-- There is a vote that counts, and the scores of those reach the floor of the mean threshold. -/
def RoundAccepts (votes : List SacVote) : Prop :=
  eligibleVotes votes ≠ [] ∧
    ⌊(totalThreshold votes : ℚ) / ((eligibleVotes votes).length : ℚ)⌋ ≤ totalScore votes

theorem roundResult_isOk_iff :
    (roundResult votes lastWitnessHash).toOption.isSome = true ↔ RoundAccepts votes := by
  obtain ⟨scores, thresholds⟩ := sums_nonneg votes
  have quotient : (totalThreshold votes).tdiv (eligibleVotes votes).length =
      ⌊(totalThreshold votes : ℚ) / ((eligibleVotes votes).length : ℚ)⌋ := by
    rw [Rat.floor_intCast_div_natCast, Int.tdiv_eq_ediv_of_nonneg thresholds]
  have mean : 0 ≤ (totalThreshold votes).tdiv (eligibleVotes votes).length :=
    Int.tdiv_nonneg thresholds (Int.natCast_nonneg _)
  unfold roundResult RoundAccepts
  rw [← quotient]
  by_cases empty : votes = []
  · subst empty
    simp [eligibleVotes, Except.toOption]
  · by_cases ignored : eligibleVotes votes = []
    · simp [empty, ignored, Except.toOption]
    · simp only [List.isEmpty_iff, empty, ignored, if_false, anchoredWitness, acceptVote, scores,
        mean, decide_true, Bool.true_and, decide_eq_true_eq, ne_eq, not_false_eq_true, true_and]
      split <;> simp_all [Except.toOption]

end Sums

/-! ### Exact rounds -/

/-- A round has a result, which follows the exact sums and is that of every order of the votes. -/
def RoundIsExact (votes : List SacVote) (lastWitnessHash : BitVec 64) : Prop :=
  ∃ result, witnessVerificationRound votes lastWitnessHash = some result ∧
    (result.toOption.isSome = true ↔ RoundAccepts votes) ∧
    ∀ other : List SacVote, other.Perm votes →
      witnessVerificationRound other lastWitnessHash = some result

/-- A round is exact if and only if its sums fit in 32 bits. -/
theorem round_isExact_iff (votes : List SacVote) (lastWitnessHash : BitVec 64) :
    RoundIsExact votes lastWitnessHash ↔ RoundFits votes := by
  constructor
  · rintro ⟨result, done, -⟩
    exact (round_eq_some_iff.mp done).1
  · intro fits
    refine ⟨_, round_eq_some_iff.mpr ⟨fits, rfl⟩, roundResult_isOk_iff, fun other perm => ?_⟩
    exact round_eq_some_iff.mpr ⟨roundFits_of_perm perm fits, roundResult_of_perm perm⟩

/-- A vote with the highest score. -/
def topVote : SacVote where
  score := 2 ^ 31 - 1
  suspicious := false
  quorumThreshold := 0
  fits := by decide

/-- Two such votes have no sum. -/
theorem top_votes_overflow : ¬ ∀ (votes : List SacVote) (lastWitnessHash : BitVec 64), votes ≠ [] →
    RoundIsExact votes lastWitnessHash := by
  intro law
  obtain ⟨result, done, -⟩ := law [topVote, topVote] 0 (cons_ne_nil _ _)
  exact absurd (round_eq_some_iff.mp done).1.scores (by decide)

end Aegis.Witness
