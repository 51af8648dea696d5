import AegisCognition.Foundation.Tally
import AegisCognition.Foundation.Scan

/-!
# Collecting entries

Claims are entered into a family of tallies, one for each kind of claim. Which amounts are zero in
the end depends on the claims alone, and not on their order or on where a sum has stopped.

Entries are collected into a map that refuses a second value for a key. This succeeds if and only
if the entries are those of a function.
-/

namespace Aegis.Foundation

open Std List

universe u v w

/-- An amount is claimed of one kind for one key. -/
structure Claim (ι : Type u) (K : Type v) where
  kind : ι
  key : K
  amount : Nat

section Claims

variable {ι : Type u} {K : Type v} {cmp : K → K → Ordering} [TransCmp cmp] [DecidableEq ι]

/-- The family with one more claim, each of its tallies with a bound of its own. -/
def enter (bound : ι → Nat) (account : ι → ExtTreeMap K Nat cmp) (claim : Claim ι K) :
    ι → ExtTreeMap K Nat cmp :=
  Function.update account claim.kind
    (Tally.addSaturatingEntry (bound claim.kind) (account claim.kind) (claim.key, claim.amount))

variable [LawfulEqCmp cmp] {bound : ι → Nat} {account : ι → ExtTreeMap K Nat cmp}
variable {claim : Claim ι K} {claims : List (Claim ι K)} {kind : ι} {key : K}

section

variable (positive : ∀ kind, bound kind ≠ 0)
include positive

theorem amount_enter_eq_zero_iff : Tally.amount (enter bound account claim kind) key = 0 ↔
      Tally.amount (account kind) key = 0 ∧
        (claim.kind = kind → claim.key = key → claim.amount = 0) := by
  by_cases other : claim.kind = kind
  · subst other
    rw [enter, Function.update_self, Tally.addSaturatingEntry]
    split
    · rename_i zero
      exact (and_iff_left fun _ _ => zero).symm
    · rename_i claimed
      rw [Tally.amount_insert]
      by_cases same : claim.key = key
      · subst same
        have stays : saturatingAdd (bound claim.kind)
            (Tally.amount (account claim.kind) claim.key) claim.amount ≠ 0 := by
          have := positive claim.kind
          unfold saturatingAdd
          omega
        simp [ReflCmp.compare_self, stays, claimed]
      · have apart : ¬ cmp claim.key key = .eq := fun h => same (LawfulEqCmp.eq_of_compare h)
        simp [apart, same]
  · simp [enter, Function.update_of_ne (Ne.symm other), other]

theorem amount_foldl_enter_eq_zero_iff :
    Tally.amount (claims.foldl (enter bound) account kind) key = 0 ↔
      Tally.amount (account kind) key = 0 ∧
        ∀ claim ∈ claims, claim.kind = kind → claim.key = key → claim.amount = 0 := by
  induction claims generalizing account with
  | nil => simp
  | cons claim claims ih =>
      rw [foldl_cons, ih, amount_enter_eq_zero_iff positive, forall_mem_cons, and_assoc]

theorem noZero_enter (h : ∀ kind, Tally.NoZero (account kind)) (kind : ι) :
    Tally.NoZero (enter bound account claim kind) := by
  by_cases other : claim.kind = kind
  · subst other
    rw [enter, Function.update_self]
    exact (h claim.kind).addSaturatingEntry (positive claim.kind) _
  · rw [enter, Function.update_of_ne (Ne.symm other)]
    exact h kind

theorem noZero_foldl_enter (h : ∀ kind, Tally.NoZero (account kind)) :
    ∀ kind, Tally.NoZero (claims.foldl (enter bound) account kind) :=
  Tally.foldl_keeps (P := fun account : ι → ExtTreeMap K Nat cmp =>
    ∀ kind, Tally.NoZero (account kind)) (fun _ _ kept => noZero_enter positive kept) h

end

end Claims

section Entries

variable {K : Type u} {V : Type u} {ε : Type u} {cmp : K → K → Ordering} [TransCmp cmp]
variable [DecidableEq V]

/-- The map with one more entry, unless its key has another value. -/
def collectEntry (refusal : ε) (map : ExtTreeMap K V cmp) (entry : K × V) :
    Except ε (ExtTreeMap K V cmp) := do
  refuseWhen (map[entry.1]?.any (· ≠ entry.2)) refusal
  return map.insert entry.1 entry.2

/-- No key has two values. -/
def Functional (entries : List (K × V)) : Prop :=
  ∀ left ∈ entries, ∀ right ∈ entries, left.1 = right.1 → left.2 = right.2

variable {refusal : ε} {map result : ExtTreeMap K V cmp} {entry : K × V}
variable {entries : List (K × V)}

theorem collectEntry_eq_ok_iff : collectEntry refusal map entry = .ok result ↔
    (∀ value, map[entry.1]? = some value → value = entry.2) ∧
      result = map.insert entry.1 entry.2 := by
  rw [collectEntry, bind_eq_ok_iff]
  simp only [refuseWhen_eq_ok_iff, pure_eq_ok_iff, exists_and_right, exists_const]
  refine and_congr ?_ eq_comm
  cases map[entry.1]? <;> simp

variable [LawfulEqCmp cmp]

/-- The collection succeeds if no two entries, and no entry and the map, contradict each other. -/
theorem collect_isOk_iff : (∃ result, entries.foldlM (collectEntry refusal) map = .ok result) ↔
    (∀ entry ∈ entries, ∀ value, map[entry.1]? = some value → value = entry.2) ∧
      Functional entries := by
  induction entries generalizing map with
  | nil => exact iff_of_true ⟨map, rfl⟩ ⟨nofun, nofun⟩
  | cons entry entries ih =>
      have first : (∃ result, (entry :: entries).foldlM (collectEntry refusal) map = .ok result) ↔
          (∀ value, map[entry.1]? = some value → value = entry.2) ∧
          ∃ result, entries.foldlM (collectEntry refusal) (map.insert entry.1 entry.2) =
            .ok result := by
        simp only [foldlM_cons, bind_eq_ok_iff, collectEntry_eq_ok_iff]
        constructor
        · rintro ⟨result, _, ⟨agrees, rfl⟩, rest⟩
          exact ⟨agrees, result, rest⟩
        · rintro ⟨agrees, result, rest⟩
          exact ⟨result, _, ⟨agrees, rfl⟩, rest⟩
      rw [first, ih, forall_mem_cons, and_assoc]
      refine and_congr_right fun here => ?_
      simp only [OrderedMap.getElem?_insert_eq_some_iff]
      constructor
      · rintro ⟨later, functional⟩
        have meets : ∀ other ∈ entries, entry.1 = other.1 → entry.2 = other.2 :=
          fun other mem same => later other mem entry.2 (.inl ⟨same, rfl⟩)
        refine ⟨fun other mem value held => ?_, ?_⟩
        · by_cases same : entry.1 = other.1
          · exact (here value (same ▸ held)).trans (meets other mem same)
          · exact later other mem value (.inr ⟨same, held⟩)
        · rintro left (_ | ⟨_, left_mem⟩) right (_ | ⟨_, right_mem⟩) same
          · rfl
          · exact meets right right_mem same
          · exact (meets left left_mem same.symm).symm
          · exact functional left left_mem right right_mem same
      · rintro ⟨later, functional⟩
        refine ⟨fun other mem value held => ?_, fun left left_mem right right_mem =>
          functional left (mem_cons_of_mem _ left_mem) right
            (mem_cons_of_mem _ right_mem)⟩
        obtain ⟨same, rfl⟩ | ⟨-, held⟩ := held
        · exact functional entry mem_cons_self other (mem_cons_of_mem _ mem) same
        · exact later other mem value held

theorem mem_of_collect (h : entries.foldlM (collectEntry refusal) map = .ok result) {key : K}
    {value : V} (held : result[key]? = some value) :
    map[key]? = some value ∨ (key, value) ∈ entries := by
  refine foldlM_invariant (motive := fun seen (reached : ExtTreeMap K V cmp) =>
    reached[key]? = some value → map[key]? = some value ∨ (key, value) ∈ seen)
    (fun seen entry rest before after _ known step held => ?_) (fun held => .inl held) h held
  obtain ⟨-, rfl⟩ := collectEntry_eq_ok_iff.mp step
  rw [mem_append, mem_singleton]
  obtain ⟨rfl, rfl⟩ | ⟨-, held⟩ := OrderedMap.getElem?_insert_eq_some_iff.mp held
  · exact .inr (.inr rfl)
  · exact (known held).imp_right .inl

end Entries

end Aegis.Foundation
