import AegisCognition.Foundation.Grouping
import AegisCognition.Gateway.Execution
import AegisCognition.Witness.Physical

/-!
# Consensus on artifacts

Artifacts are put into groups by their hashes alone, and the first group that is large enough wins.
The fuel of the result is that of the member that came first. So the order of the artifacts matters
unless all of the winning group report the same fuel.
-/

namespace Aegis.Gateway

def PhysicalArtifact.isPhysicalChange (artifact : PhysicalArtifact) : Bool :=
  0 < artifact.bytesChanged && 0 < artifact.fuelConsumed

end Aegis.Gateway

namespace Aegis.Witness

open Foundation Foundation.OrderedMap List
open Gateway (PhysicalArtifact TrapReason)
open Replay (Hash)
open Std (ExtTreeMap TransCmp LawfulEqCmp)

structure ConsensusResult where
  artifactHash : Hash
  quorumSize : Nat
  fuelConsumed : BitVec 64

/-- Hashes in the order of their bytes. -/
abbrev compareHash (a b : Hash) : Ordering :=
  compareOn Hash.bytes a b

instance : TransCmp compareHash :=
  inferInstanceAs (TransCmp (compareOn Hash.bytes))

instance : LawfulEqCmp compareHash where
  eq_of_compare := by
    rintro ⟨a, length⟩ ⟨b, length'⟩ same
    have bytes : compare a b = .eq := same
    obtain rfl := LawfulEqCmp.eq_of_compare bytes
    rfl

def requiredMatches (totalWitnesses : Nat) : Nat :=
  (totalWitnesses - 1) / 3 + 1

def groupArtifacts (artifacts : List PhysicalArtifact) :
    ExtTreeMap Hash (List PhysicalArtifact) compareHash :=
  groupItems compareHash (·.isPhysicalChange) (·.artifactHash) artifacts

def verifyPhysicalWitnesses (totalWitnesses : Nat) (artifacts : List PhysicalArtifact) :
    Except TrapReason ConsensusResult :=
  if artifacts.isEmpty || totalWitnesses == 0 then .error .noConsensus
  else
    let result := (groupArtifacts artifacts).toList.find? fun group =>
      requiredMatches totalWitnesses ≤ group.2.length
    match result with
    | some (artifactHash, artifact :: others) =>
        .ok {
          artifactHash
          quorumSize := (artifact :: others).length
          fuelConsumed := artifact.fuelConsumed }
    -- No group is empty.
    | _ => .error .noConsensus

/-! ### The winning group -/

section Winner

variable {totalWitnesses : Nat} {artifacts other : List PhysicalArtifact} {hash : Hash}
variable {result : ConsensusResult}

/-- The artifacts that count and have this hash. -/
def artifactsFor (hash : Hash) (artifacts : List PhysicalArtifact) : List PhysicalArtifact :=
  itemsFor (·.isPhysicalChange) (·.artifactHash) hash artifacts

def Reaches (totalWitnesses : Nat) (artifacts : List PhysicalArtifact) (hash : Hash) : Prop :=
  requiredMatches totalWitnesses ≤ (artifactsFor hash artifacts).length

instance : Decidable (Reaches totalWitnesses artifacts hash) :=
  inferInstanceAs (Decidable (_ ≤ _))

/-- The least of the hashes that have enough artifacts. -/
structure IsFirst (totalWitnesses : Nat) (artifacts : List PhysicalArtifact) (hash : Hash) :
    Prop where
  positive : 0 < totalWitnesses
  reaches : Reaches totalWitnesses artifacts hash
  least : ∀ other, Reaches totalWitnesses artifacts other → compareHash other hash ≠ .lt

theorem reaches_perm (perm : other.Perm artifacts) :
    Reaches totalWitnesses other hash ↔ Reaches totalWitnesses artifacts hash := by
  have same : (artifactsFor hash other).Perm (artifactsFor hash artifacts) :=
    itemsFor_perm perm hash
  rw [Reaches, Reaches, same.length_eq]

theorem IsFirst.perm (first : IsFirst totalWitnesses artifacts hash) (perm : other.Perm artifacts) :
    IsFirst totalWitnesses other hash where
  positive := first.positive
  reaches := (reaches_perm perm).mpr first.reaches
  least hash' reaches := first.least hash' ((reaches_perm perm).mp reaches)

theorem Reaches.ne_nil (reaches : Reaches totalWitnesses artifacts hash) :
    artifactsFor hash artifacts ≠ [] := by
  intro empty
  rw [Reaches, empty, requiredMatches] at reaches
  exact absurd reaches (by simp)

/-- The group that is found is the first that is large enough. -/
theorem find_eq_some_iff {group : Hash × List PhysicalArtifact} (positive : 0 < totalWitnesses) :
    ((groupArtifacts artifacts).toList.find? fun group =>
        requiredMatches totalWitnesses ≤ group.2.length) = some group ↔
      IsFirst totalWitnesses artifacts group.1 ∧ group.2 = artifactsFor group.1 artifacts := by
  obtain ⟨hash, members⟩ := group
  have group_iff {hash : Hash} {members : List PhysicalArtifact} :
      (hash, members) ∈ (groupArtifacts artifacts).toList ↔
        members = artifactsFor hash artifacts ∧ members ≠ [] :=
    mem_groupItems
  rw [find?_toList_eq_some_iff, group_iff, decide_eq_true_eq]
  constructor
  · rintro ⟨⟨rfl, -⟩, enough, least⟩
    refine ⟨⟨positive, enough, fun other reaches => ?_⟩, rfl⟩
    exact least (other, _) (group_iff.mpr ⟨rfl, reaches.ne_nil⟩) (decide_eq_true reaches)
  · rintro ⟨first, same⟩
    obtain rfl : members = artifactsFor hash artifacts := same
    refine ⟨⟨rfl, first.reaches.ne_nil⟩, first.reaches, ?_⟩
    rintro ⟨other, members⟩ mem enough
    obtain ⟨rfl, -⟩ := group_iff.mp mem
    exact first.least other (of_decide_eq_true enough)

theorem verify_of_first {artifact : PhysicalArtifact} {others : List PhysicalArtifact}
    (first : IsFirst totalWitnesses artifacts hash)
    (members : artifactsFor hash artifacts = artifact :: others) :
    verifyPhysicalWitnesses totalWitnesses artifacts =
      .ok ⟨hash, (artifactsFor hash artifacts).length, artifact.fuelConsumed⟩ := by
  have given : artifacts ≠ [] := by
    rintro rfl
    exact first.reaches.ne_nil rfl
  let group := (hash, artifact :: others)
  have found := (@find_eq_some_iff _ _ group first.positive).mpr ⟨first, members.symm⟩
  rw [verifyPhysicalWitnesses, if_neg, members]
  · simp only [found, group]
  · simpa using ⟨given, first.positive.ne'⟩

theorem verify_of_none (none_first : ∀ hash, ¬ IsFirst totalWitnesses artifacts hash) :
    verifyPhysicalWitnesses totalWitnesses artifacts = .error .noConsensus := by
  rw [verifyPhysicalWitnesses]
  split
  · rfl
  · next given =>
      have positive : 0 < totalWitnesses := by
        rw [Bool.or_eq_true, not_or, beq_iff_eq] at given
        exact Nat.pos_of_ne_zero given.2
      dsimp only
      split
      · next found => exact absurd ((find_eq_some_iff positive).mp found).1 (none_first _)
      · rfl

theorem exists_first_of_ok (h : verifyPhysicalWitnesses totalWitnesses artifacts = .ok result) :
    ∃ hash, IsFirst totalWitnesses artifacts hash := by
  by_contra! none_first
  rw [verify_of_none none_first] at h
  cases h

end Winner

/-! ### Order and fault -/

section Order

variable {totalWitnesses : Nat} {artifacts other : List PhysicalArtifact}

/-- The members of the winning group report the same fuel. -/
def OneFuel (totalWitnesses : Nat) (artifacts : List PhysicalArtifact) : Prop :=
  ∀ hash, IsFirst totalWitnesses artifacts hash →
    ∀ artifact ∈ artifactsFor hash artifacts, ∀ artifact' ∈ artifactsFor hash artifacts,
      artifact.fuelConsumed = artifact'.fuelConsumed

/-- An artifact, and whether the witness that it comes from is faulty. -/
structure Report where
  artifact : PhysicalArtifact
  faulty : Bool

/-- The result is the same in every order, and an honest witness reported it. -/
structure Settles (totalWitnesses : Nat) (artifacts : List PhysicalArtifact) : Prop where
  permuted : ∀ other : List PhysicalArtifact, other.Perm artifacts →
    verifyPhysicalWitnesses totalWitnesses other = verifyPhysicalWitnesses totalWitnesses artifacts
  honest : ∀ reports : List Report, reports.map (·.artifact) = artifacts →
    reports.length ≤ totalWitnesses → reports.countP (·.faulty) ≤ (totalWitnesses - 1) / 3 →
    ∀ result, verifyPhysicalWitnesses totalWitnesses artifacts = .ok result →
      ∃ report ∈ reports, report.faulty = false ∧
        report.artifact.artifactHash = result.artifactHash ∧
        report.artifact.fuelConsumed = result.fuelConsumed

theorem OneFuel.permuted (same : OneFuel totalWitnesses artifacts) (perm : other.Perm artifacts) :
    verifyPhysicalWitnesses totalWitnesses other =
      verifyPhysicalWitnesses totalWitnesses artifacts := by
  by_cases some_first : ∃ hash, IsFirst totalWitnesses artifacts hash
  · obtain ⟨hash, first⟩ := some_first
    have members : (artifactsFor hash other).Perm (artifactsFor hash artifacts) :=
      itemsFor_perm perm hash
    obtain ⟨artifact, others, own⟩ := exists_cons_of_ne_nil first.reaches.ne_nil
    obtain ⟨artifact', others', own'⟩ :=
      exists_cons_of_ne_nil (first.perm perm).reaches.ne_nil
    rw [verify_of_first first own, verify_of_first (first.perm perm) own', members.length_eq,
      same hash first artifact (by simp [own]) artifact' (members.mem_iff.mp (by simp [own']))]
  · rw [not_exists] at some_first
    rw [verify_of_none some_first, verify_of_none fun hash first =>
      some_first hash (first.perm perm.symm)]

/-- Any member of the winning group may come first. -/
theorem oneFuel_of_permuted
    (permuted : ∀ other : List PhysicalArtifact, other.Perm artifacts →
      verifyPhysicalWitnesses totalWitnesses other =
        verifyPhysicalWitnesses totalWitnesses artifacts) :
    OneFuel totalWitnesses artifacts := by
  intro hash first
  obtain ⟨head, others, own⟩ := exists_cons_of_ne_nil first.reaches.ne_nil
  have same {artifact : PhysicalArtifact} (mem : artifact ∈ artifactsFor hash artifacts) :
      artifact.fuelConsumed = head.fuelConsumed := by
    obtain ⟨given, counts, key⟩ := mem_itemsFor.mp mem
    have perm : (artifact :: artifacts.erase artifact).Perm artifacts :=
      (perm_cons_erase given).symm
    have front : artifactsFor hash (artifact :: artifacts.erase artifact) =
        artifact :: artifactsFor hash (artifacts.erase artifact) := by
      rw [artifactsFor, itemsFor, filter_cons_of_pos (by simp [counts, key])]
      rfl
    have results := permuted _ perm
    rw [verify_of_first (first.perm perm) front, verify_of_first first own] at results
    injection results with results
    exact congrArg ConsensusResult.fuelConsumed results
  intro artifact mem artifact' mem'
  rw [same mem, same mem']

theorem OneFuel.honest (same : OneFuel totalWitnesses artifacts) {reports : List Report}
    (given : reports.map (·.artifact) = artifacts)
    (few : reports.countP (·.faulty) ≤ (totalWitnesses - 1) / 3) {result : ConsensusResult}
    (verified : verifyPhysicalWitnesses totalWitnesses artifacts = .ok result) :
    ∃ report ∈ reports, report.faulty = false ∧
      report.artifact.artifactHash = result.artifactHash ∧
      report.artifact.fuelConsumed = result.fuelConsumed := by
  obtain ⟨hash, first⟩ := exists_first_of_ok verified
  obtain ⟨head, others, own⟩ := exists_cons_of_ne_nil first.reaches.ne_nil
  rw [verify_of_first first own] at verified
  injection verified with verified
  subst verified given
  obtain ⟨report, mem, honest, counts, key⟩ := exists_unmarked few first.reaches
  refine ⟨report, mem, honest, key, same hash first _ ?_ head (by simp [own])⟩
  exact mem_itemsFor.mpr ⟨mem_map_of_mem mem, counts, key⟩

theorem settles_iff_one_fuel (totalWitnesses : Nat) (artifacts : List PhysicalArtifact) :
    Settles totalWitnesses artifacts ↔ OneFuel totalWitnesses artifacts := by
  constructor
  · exact fun settles => oneFuel_of_permuted settles.permuted
  · intro same
    exact ⟨fun other perm => same.permuted perm,
      fun reports given _ few result => same.honest given few⟩

end Order

/-- A changed artifact with this fuel. -/
def artifactWith (fuel : BitVec 64) : PhysicalArtifact where
  artifactHash := .fill 1
  astFingerprint := 1
  fuelConsumed := fuel
  bytesChanged := 1

/-- A faulty witness and an honest one agree on the hash and not on the fuel. -/
def disagreeing : List Report :=
  [⟨artifactWith 9, true⟩, ⟨artifactWith 7, false⟩]

theorem order_decides_fuel : ¬ Settles 4 (disagreeing.map (·.artifact)) := by
  intro settles
  have members : artifactsFor (.fill 1) (disagreeing.map (·.artifact)) =
      [artifactWith 9, artifactWith 7] := by decide
  have sole {other : Hash} (reaches : Reaches 4 (disagreeing.map (·.artifact)) other) :
      other = .fill 1 := by
    obtain ⟨artifact, mem⟩ := exists_mem_of_ne_nil _ reaches.ne_nil
    obtain ⟨given, -, key⟩ := mem_itemsFor.mp mem
    obtain ⟨report, among, rfl⟩ := mem_map.mp given
    simp only [disagreeing, mem_cons, not_mem_nil, or_false] at among
    obtain rfl | rfl := among <;> exact key.symm
  have first : IsFirst 4 (disagreeing.map (·.artifact)) (.fill 1) := by
    refine ⟨by decide, by rw [Reaches, members]; decide, fun other reaches => ?_⟩
    rw [sole reaches]
    decide
  have same := oneFuel_of_permuted settles.permuted _ first (artifactWith 9) (by simp [members])
    (artifactWith 7) (by simp [members])
  exact absurd same (by decide)

end Aegis.Witness
