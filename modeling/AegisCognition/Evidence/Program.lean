import AegisCognition.Foundation.Scan
import AegisCognition.Foundation.Text
import AegisCognition.Replay.TamperEvidence
import AegisCognition.Witness.Threshold

/-!
# Programs of evidence queries

The hash of a program should stand for its normalised steps. It does for terms and signatures,
which are numbers of a fixed width behind their count. The text of a pattern comes before its
length, so a pattern can hold what ends it and starts the next step.
-/

namespace Aegis.Evidence

open Foundation List
open Replay (Hash Hasher nonzeroHash u64Bytes delimits_hash delimits_u64Bytes)
open Std (ExtTreeSet TransCmp)
open Witness (compareHash)

/-- A vector, whose length is a `usize`. -/
abbrev Vec (α : Type) := { items : List α // items.length < 256 ^ 8 }

inductive AgenticEvidenceProgramStep
  | lexicalTopK (queryTerms : Vec String) (limit : BitVec 64)
  | exactArtifactRerank (exactPatterns : Vec String) (limit : BitVec 64)
  | astSignatureLookup (astSignatureHashes : Vec Hash) (limit : BitVec 64)
  | bitmapFilter (limit : BitVec 64)
  deriving DecidableEq

inductive AgenticEvidencePrimitiveKind
  | lexicalTopK
  | exactArtifactRerank
  | bitmapFilter
  | astSignatureLookup

/-- The discriminant of the source's `repr(u8)` enumeration. -/
def AgenticEvidencePrimitiveKind.toU8 : AgenticEvidencePrimitiveKind → UInt8
  | lexicalTopK => 1
  | exactArtifactRerank => 2
  | bitmapFilter => 3
  | astSignatureLookup => 4

/-! ### Normalised steps -/

/-- `sort_unstable` and then `dedup`. -/
def sortDedup {α : Type} (cmp : α → α → Ordering) [TransCmp cmp] (items : List α) : List α :=
  (ExtTreeSet.ofList items cmp).toList

theorem length_sortDedup_le {α : Type} {cmp : α → α → Ordering} [TransCmp cmp] {items : List α} :
    (sortDedup cmp items).length ≤ items.length :=
  ExtTreeSet.length_toList.trans_le ExtTreeSet.size_ofList_le

/-- The bytes of a term that count are those of ASCII letters, digits and underscores. -/
def lexicalTokenHash (blake3 : Hasher) (term : String) : Option (BitVec 64) :=
  let token := term.toList.filter fun c => c.isAlphanum || c == '_'
  if token.isEmpty then none
  else
    let digest := blake3 (utf8Bytes "aegis-lexical-token-v1" ++
      utf8Bytes (String.ofList (token.map Char.toLower)))
    some (.ofNat 64 (ofLeBytes (digest.bytes.take 8)))

def normalizedOwnedTerms (blake3 : Hasher) (terms : List String) : List (BitVec 64) :=
  sortDedup compare (terms.filterMap (lexicalTokenHash blake3))

def normalizedOwnedExactPatterns (patterns : List String) : List String :=
  sortDedup compare ((patterns.map fun pattern => (trim pattern).map Char.toLower).filter (· ≠ ""))

def normalizedAstSignatureHashes (hashes : List Hash) : List Hash :=
  sortDedup compareHash (hashes.filter nonzeroHash)

/-- The text of a pattern comes before its length. -/
def patternMessage (text : String) : List UInt8 :=
  utf8Bytes text ++ leBytes 8 text.utf8ByteSize

/-- Items behind their number. -/
def countedMessage {α : Type} (encode : α → List UInt8) (items : List α) : List UInt8 :=
  leBytes 8 items.length ++ items.flatMap encode

namespace AgenticEvidenceProgramStep

def primitiveKind : AgenticEvidenceProgramStep → AgenticEvidencePrimitiveKind
  | lexicalTopK .. => .lexicalTopK
  | exactArtifactRerank .. => .exactArtifactRerank
  | astSignatureLookup .. => .astSignatureLookup
  | bitmapFilter _ => .bitmapFilter

def limit : AgenticEvidenceProgramStep → BitVec 64
  | lexicalTopK _ limit | exactArtifactRerank _ limit | astSignatureLookup _ limit
  | bitmapFilter limit => limit

def fuelCost (step : AgenticEvidenceProgramStep) : Nat :=
  let items := match step with
    | lexicalTopK terms _ => saturatingAdd u32Max 1 (min terms.1.length u32Max)
    | exactArtifactRerank patterns _ => saturatingAdd u32Max 4 (min patterns.1.length u32Max)
    | astSignatureLookup hashes _ => saturatingAdd u32Max 2 (min hashes.1.length u32Max)
    | bitmapFilter _ => 1
  saturatingAdd u32Max items (min step.limit.toNat u32Max)

/-- The terms, the patterns and the signatures of a step in their normal forms. -/
def normalized (blake3 : Hasher) :
    AgenticEvidenceProgramStep → List (BitVec 64) × List String × List Hash
  | lexicalTopK terms _ => (normalizedOwnedTerms blake3 terms.1, [], [])
  | exactArtifactRerank patterns _ => ([], normalizedOwnedExactPatterns patterns.1, [])
  | astSignatureLookup hashes _ => ([], [], normalizedAstSignatureHashes hashes.1)
  | bitmapFilter _ => ([], [], [])

def isValid (blake3 : Hasher) (step : AgenticEvidenceProgramStep) : Bool :=
  step.limit != 0 && match step with
    | lexicalTopK terms _ => !(normalizedOwnedTerms blake3 terms.1).isEmpty
    | exactArtifactRerank patterns _ => !(normalizedOwnedExactPatterns patterns.1).isEmpty
    | astSignatureLookup hashes _ => hashes.1.any nonzeroHash
    | bitmapFilter _ => true

/-- The bytes that `update_agentic_evidence_step_hash` feeds to the hasher. -/
def message (blake3 : Hasher) (step : AgenticEvidenceProgramStep) : List UInt8 :=
  [step.primitiveKind.toU8] ++ (leBytes 4 step.fuelCost ++ (u64Bytes step.limit ++
    match step with
    | lexicalTopK terms _ => countedMessage u64Bytes (normalizedOwnedTerms blake3 terms.1)
    | exactArtifactRerank patterns _ =>
        countedMessage patternMessage (normalizedOwnedExactPatterns patterns.1)
    | astSignatureLookup hashes _ =>
        countedMessage Hash.bytes (normalizedAstSignatureHashes hashes.1)
    | bitmapFilter _ => []))

/-- What the hash of a program should bind of a step. -/
def bound (blake3 : Hasher) (step : AgenticEvidenceProgramStep) :=
  (step.primitiveKind, step.fuelCost, step.limit, step.normalized blake3)

def patternLengths (blake3 : Hasher) (step : AgenticEvidenceProgramStep) : List Nat :=
  (step.normalized blake3).2.1.map String.utf8ByteSize

end AgenticEvidenceProgramStep

/-! ### Programs -/

inductive AgenticEvidenceProgramError
  | invalidIndexEpoch
  | emptyProgram
  | invalidStep
  | fuelExceeded
  deriving DecidableEq

structure AgenticEvidenceProgram where
  indexEpochHash : Hash
  maxFuel : BitVec 32
  steps : List AgenticEvidenceProgramStep
  programHash : Hash
  deriving DecidableEq

def agenticEvidenceProgramMessage (blake3 : Hasher) (indexEpochHash : Hash) (maxFuel : BitVec 32)
    (steps : List AgenticEvidenceProgramStep) : List UInt8 :=
  utf8Bytes "aegis-agentic-evidence-program-v1" ++ (indexEpochHash.bytes ++
    (leBytes 4 maxFuel.toNat ++ (leBytes 8 steps.length ++ steps.flatMap (·.message blake3))))

namespace AgenticEvidenceProgram

def message (blake3 : Hasher) (program : AgenticEvidenceProgram) : List UInt8 :=
  agenticEvidenceProgramMessage blake3 program.indexEpochHash program.maxFuel program.steps

/-- One step of a program is checked and its fuel counted. -/
def checkStep (blake3 : Hasher) (maxFuel : BitVec 32) (fuelRequired : Nat)
    (step : AgenticEvidenceProgramStep) : Except AgenticEvidenceProgramError Nat := do
  refuseWhen (!step.isValid blake3) .invalidStep
  let fuelRequired := saturatingAdd u32Max fuelRequired step.fuelCost
  refuseWhen (maxFuel.toNat < fuelRequired) .fuelExceeded
  return fuelRequired

def new (blake3 : Hasher) (indexEpochHash : Hash) (maxFuel : BitVec 32)
    (steps : List AgenticEvidenceProgramStep) :
    Except AgenticEvidenceProgramError AgenticEvidenceProgram := do
  refuseWhen (!nonzeroHash indexEpochHash) .invalidIndexEpoch
  refuseWhen (steps.isEmpty || maxFuel == 0) .emptyProgram
  let _ ← steps.foldlM (checkStep blake3 maxFuel) 0
  let programHash :=
    blake3 (agenticEvidenceProgramMessage blake3 indexEpochHash maxFuel steps)
  return { indexEpochHash, maxFuel, steps, programHash }

/-- Two programs ask for the same, step by step. -/
def Agree (blake3 : Hasher) (first second : AgenticEvidenceProgram) : Prop :=
  first.indexEpochHash = second.indexEpochHash ∧ first.maxFuel = second.maxFuel ∧
    first.steps.map (·.bound blake3) = second.steps.map (·.bound blake3)

/-- The lengths of the normalised patterns of every step. -/
def patternLengths (blake3 : Hasher) (program : AgenticEvidenceProgram) : List (List Nat) :=
  program.steps.map (·.patternLengths blake3)

end AgenticEvidenceProgram

/-! ### What the bytes determine -/

theorem AgenticEvidencePrimitiveKind.toU8_injective :
    Function.Injective AgenticEvidencePrimitiveKind.toU8 := by
  intro first second same
  cases first <;> cases second <;> first | rfl | cases same

variable {blake3 : Hasher} {rest rest' : List UInt8}

/-- Texts of known lengths are told apart even if every length comes after its text. -/
theorem patterns_inj {first second : List String}
    (lengths : first.map String.utf8ByteSize = second.map String.utf8ByteSize)
    (same : countedMessage patternMessage first ++ rest =
      countedMessage patternMessage second ++ rest') : first = second ∧ rest = rest' := by
  rw [countedMessage, countedMessage, append_assoc, append_assoc] at same
  replace same := (append_inj same (by simp only [length_leBytes])).2
  induction first generalizing second with
  | nil =>
      obtain rfl := map_eq_nil_iff.mp lengths.symm
      exact ⟨rfl, same⟩
  | cons text first ih =>
      cases second with
      | nil => cases lengths
      | cons other second =>
          obtain ⟨size, sizes⟩ := cons.inj lengths
          simp only [flatMap_cons, patternMessage, append_assoc] at same
          obtain ⟨bytes, same⟩ := append_inj same (by simpa only [length_utf8Bytes] using size)
          obtain rfl := utf8Bytes_injective bytes
          obtain ⟨rfl, tails⟩ := ih sizes (append_cancel_left same)
          exact ⟨rfl, tails⟩

theorem delimits_counted {α : Type} {encode : α → List UInt8}
    (h : Delimits (fun _ => True) encode) :
    Delimits (fun items : List α => items.length < 256 ^ 8) (countedMessage encode) :=
  ((delimits_leBytes 8).counted h).mono fun _ fits => ⟨fits, fun _ _ => trivial⟩

namespace AgenticEvidenceProgramStep

theorem message_inj {first second : AgenticEvidenceProgramStep}
    (lengths : first.patternLengths blake3 = second.patternLengths blake3)
    (same : first.message blake3 ++ rest = second.message blake3 ++ rest') :
    first.bound blake3 = second.bound blake3 ∧ rest = rest' := by
  have fuel : ∀ step : AgenticEvidenceProgramStep, step.fuelCost < 256 ^ 4 := fun step =>
    Nat.lt_of_le_of_lt saturatingAdd_le (by decide)
  simp only [message, append_assoc] at same
  obtain ⟨kind, same⟩ := delimits_byte trivial trivial same
  have kinds := AgenticEvidencePrimitiveKind.toU8_injective kind
  obtain ⟨cost, same⟩ := delimits_leBytes 4 (fuel first) (fuel second) same
  obtain ⟨limit, same⟩ := delimits_u64Bytes trivial trivial same
  suffices contents : first.normalized blake3 = second.normalized blake3 ∧ rest = rest' by
    rw [bound, bound, kinds, cost, limit, contents.1]
    exact ⟨rfl, contents.2⟩
  cases first with
  | lexicalTopK terms _ =>
      cases second with
      | lexicalTopK others _ =>
          have fits (terms : Vec String) : (normalizedOwnedTerms blake3 terms.1).length < 256 ^ 8 :=
            (length_sortDedup_le.trans (length_filterMap_le ..)).trans_lt terms.2
          obtain ⟨items, tails⟩ :=
            delimits_counted delimits_u64Bytes (fits terms) (fits others) same
          exact ⟨congrArg ((·, [], [])) items, tails⟩
      | _ => cases kinds
  | exactArtifactRerank patterns _ =>
      cases second with
      | exactArtifactRerank others _ =>
          obtain ⟨items, tails⟩ := patterns_inj lengths same
          exact ⟨congrArg (([], ·, [])) items, tails⟩
      | _ => cases kinds
  | astSignatureLookup hashes _ =>
      cases second with
      | astSignatureLookup others _ =>
          have fits (hashes : Vec Hash) :
              (normalizedAstSignatureHashes hashes.1).length < 256 ^ 8 :=
            (length_sortDedup_le.trans (length_filter_le ..)).trans_lt hashes.2
          obtain ⟨items, tails⟩ := delimits_counted delimits_hash (fits hashes) (fits others) same
          exact ⟨congrArg (([], [], ·)) items, tails⟩
      | _ => cases kinds
  | bitmapFilter _ =>
      cases second with
      | bitmapFilter _ => exact ⟨rfl, same⟩
      | _ => cases kinds

/-- The bytes of steps whose patterns have known lengths determine what every step asks for. -/
theorem messages_inj {first second : List AgenticEvidenceProgramStep}
    (lengths : first.map (·.patternLengths blake3) = second.map (·.patternLengths blake3))
    (same : first.flatMap (·.message blake3) = second.flatMap (·.message blake3)) :
    first.map (·.bound blake3) = second.map (·.bound blake3) := by
  induction first generalizing second with
  | nil =>
      obtain rfl := map_eq_nil_iff.mp lengths.symm
      rfl
  | cons step first ih =>
      cases second with
      | nil => cases lengths
      | cons other second =>
          obtain ⟨sizes, lengths⟩ := cons.inj lengths
          obtain ⟨front, same⟩ := message_inj sizes same
          rw [map_cons, map_cons, front, ih lengths same]

end AgenticEvidenceProgramStep

namespace AgenticEvidenceProgram

theorem programHash_of_new {indexEpochHash : Hash} {maxFuel : BitVec 32}
    {steps : List AgenticEvidenceProgramStep} {program : AgenticEvidenceProgram}
    (built : new blake3 indexEpochHash maxFuel steps = .ok program) :
    program.programHash = blake3 (program.message blake3) := by
  simp only [new, bind_eq_ok_iff] at built
  obtain ⟨_, -, _, -, _, -, done⟩ := built
  cases done
  rfl

theorem exists_fuel_iff {maxFuel : BitVec 32} {steps : List AgenticEvidenceProgramStep}
    {used : Nat} (within : used ≤ maxFuel.toNat) :
    (∃ total, steps.foldlM (checkStep blake3 maxFuel) used = .ok total) ↔
      (∀ step ∈ steps, step.isValid blake3 = true) ∧
        (maxFuel.toNat = u32Max ∨ used + (steps.map (·.fuelCost)).sum ≤ maxFuel.toNat) := by
  induction steps generalizing used with
  | nil => simp [pure_eq_ok_iff, within]
  | cons step steps ih =>
      have le := maxFuel.isLt
      simp only [foldlM_cons, map_cons, sum_cons, forall_mem_cons, checkStep, bind_eq_ok_iff,
        refuseWhen_eq_ok_iff, pure_eq_ok_iff]
      simp only [saturatingAdd, u32Max] at ih ⊢
      constructor
      · rintro ⟨total, _, ⟨_, valid, _, fits, rfl⟩, rest⟩
        obtain ⟨valids, enough⟩ := (ih (Nat.not_lt.mp fits)).mp ⟨total, rest⟩
        exact ⟨⟨by simpa using valid, valids⟩, by omega⟩
      · rintro ⟨⟨valid, valids⟩, enough⟩
        have fits : min (used + step.fuelCost) (2 ^ 32 - 1) ≤ maxFuel.toNat := by omega
        obtain ⟨total, rest⟩ := (ih fits).mpr ⟨valids, by omega⟩
        exact ⟨total, _, ⟨(), by simpa using valid, (), Nat.not_lt.mpr fits, rfl⟩, rest⟩

/-- A program is built exactly if it has steps, all of them are valid, and their fuel is granted.
The largest grant covers any amount, for there the total saturates. -/
theorem exists_new_iff (blake3 : Hasher) (indexEpochHash : Hash) (maxFuel : BitVec 32)
    (steps : List AgenticEvidenceProgramStep) :
    (∃ program, new blake3 indexEpochHash maxFuel steps = .ok program) ↔
      nonzeroHash indexEpochHash = true ∧ (steps ≠ [] ∧ maxFuel ≠ 0) ∧
        (∀ step ∈ steps, step.isValid blake3 = true) ∧
        (maxFuel.toNat = u32Max ∨ (steps.map (·.fuelCost)).sum ≤ maxFuel.toNat) := by
  have fuel := @exists_fuel_iff blake3 maxFuel steps 0 (Nat.zero_le _)
  rw [Nat.zero_add] at fuel
  simp [new, bind_eq_ok_iff, refuseWhen_eq_ok_iff, map_eq_ok_iff, ← fuel]

/-- Programs of one hash agree exactly if their patterns have the same lengths. -/
theorem hash_binds_iff {indexEpochHash indexEpochHash' : Hash} {maxFuel maxFuel' : BitVec 32}
    {steps steps' : List AgenticEvidenceProgramStep} {first second : AgenticEvidenceProgram}
    (built : new blake3 indexEpochHash maxFuel steps = .ok first)
    (built' : new blake3 indexEpochHash' maxFuel' steps' = .ok second)
    (noCollision : blake3 (first.message blake3) = blake3 (second.message blake3) →
      first.message blake3 = second.message blake3)
    (sameHash : first.programHash = second.programHash) :
    Agree blake3 first second ↔ first.patternLengths blake3 = second.patternLengths blake3 := by
  constructor
  · rintro ⟨-, -, steps⟩
    have lengths := congrArg (map fun bound => bound.2.2.2.2.1.map String.utf8ByteSize) steps
    rwa [map_map, map_map] at lengths
  · intro lengths
    rw [programHash_of_new built, programHash_of_new built'] at sameHash
    have same := append_cancel_left (noCollision sameHash)
    obtain ⟨epoch, same⟩ := delimits_hash trivial trivial same
    obtain ⟨fuel, same⟩ := delimits_leBytes 4 first.maxFuel.isLt second.maxFuel.isLt same
    have counts : first.steps.length = second.steps.length := by
      simpa only [patternLengths, length_map] using congrArg List.length lengths
    rw [counts] at same
    exact ⟨epoch, BitVec.eq_of_toNat_eq fuel,
      AgenticEvidenceProgramStep.messages_inj lengths (append_cancel_left same)⟩

/-- Ends as a pattern that a filter follows. -/
def filterSignature : Hash :=
  ⟨replicate 11 120 ++ leBytes 8 41 ++ [3] ++ leBytes 4 4 ++ leBytes 8 3, by decide⟩

/-- Holds the length of its first letter, the start of a lookup and part of a signature. -/
def lookupPattern : String :=
  String.ofList ('a' :: (leBytes 8 1 ++ [4] ++ leBytes 4 4 ++ leBytes 8 1 ++ leBytes 8 1 ++
    replicate 11 120).map fun byte : UInt8 => Char.ofNat byte.toNat)

def rerank (pattern : String) : AgenticEvidenceProgramStep :=
  .exactArtifactRerank ⟨[pattern], show 1 < 256 ^ 8 by decide⟩ 1

def lookupSteps : List AgenticEvidenceProgramStep :=
  [rerank "a", .astSignatureLookup ⟨[filterSignature], by decide⟩ 1]

def filterSteps : List AgenticEvidenceProgramStep :=
  [rerank lookupPattern, .bitmapFilter 3]

def lookupHasher : Hasher :=
  .ofTable [(agenticEvidenceProgramMessage (fun _ => .zero) (.fill 1) 10 lookupSteps, .fill 2)]

def rerankProgram (pattern : String) : AgenticEvidenceProgram :=
  ⟨.fill 1, 10, [rerank pattern], .zero⟩

theorem normal_patterns_bound :
    Agree lookupHasher (rerankProgram " A") (rerankProgram "a") ↔
      (rerankProgram " A").patternLengths lookupHasher =
        (rerankProgram "a").patternLengths lookupHasher := by
  have built : new lookupHasher (.fill 1) 10 [rerank " A"] = .ok (rerankProgram " A") := by
    decide +kernel
  have built' : new lookupHasher (.fill 1) 10 [rerank "a"] = .ok (rerankProgram "a") := by
    decide +kernel
  exact hash_binds_iff built built' (fun _ => by decide +kernel) rfl

theorem lookup_read_as_filter :
    new lookupHasher (.fill 1) 10 lookupSteps = .ok ⟨.fill 1, 10, lookupSteps, .fill 2⟩ ∧
    new lookupHasher (.fill 1) 10 filterSteps = .ok ⟨.fill 1, 10, filterSteps, .fill 2⟩ ∧
    ¬ Agree lookupHasher ⟨.fill 1, 10, lookupSteps, .fill 2⟩
      ⟨.fill 1, 10, filterSteps, .fill 2⟩ := by
  refine ⟨by decide +kernel, by decide +kernel, ?_⟩
  rintro ⟨-, -, steps⟩
  cases congrArg (map Prod.fst) steps

end AgenticEvidenceProgram

end Aegis.Evidence
