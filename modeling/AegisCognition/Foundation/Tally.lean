import AegisCognition.Foundation.Machine
import AegisCognition.Foundation.OrderedMap

/-!
# Tallies

A tally holds an amount for each of finitely many keys, and nothing for all others. One tally is
added to another entry by entry, unless a sum exceeds a bound, and subtracted from another entry
by entry, unless a difference would be negative. An entry that a subtraction brings down to zero
is removed, so a tally without zero entries stays one.
-/

namespace Aegis.Foundation

universe u

open Std LawfulEqCmp OrderedMap List ExtTreeMap Option

namespace Tally

variable {K : Type u} {cmp : K → K → Ordering}

/-- The sum of the entries of a list at a key. -/
def entryTotal (entries : List (K × Nat)) (cmp : K → K → Ordering) (k : K) : Nat :=
  (entries.map fun entry => if cmp entry.1 k = .eq then entry.2 else 0).sum

theorem entryTotal_cons {entries : List (K × Nat)} {k : K} (entry : K × Nat) :
    entryTotal (entry :: entries) cmp k =
      (if cmp entry.1 k = .eq then entry.2 else 0) + entryTotal entries cmp k := by
  simp [entryTotal]

variable [TransCmp cmp]

/-- What the tally holds for a key. -/
def amount (tally : ExtTreeMap K Nat cmp) (k : K) : Nat :=
  tally[k]?.getD 0

/-- No entry holds nothing. -/
def NoZero (tally : ExtTreeMap K Nat cmp) : Prop :=
  ∀ k : K, tally[k]? ≠ some 0

def addEntry (bound : Nat) (target : ExtTreeMap K Nat cmp) (entry : K × Nat) :
    Option (ExtTreeMap K Nat cmp) :=
  (checkedAdd bound (amount target entry.1) entry.2).map (target.insert entry.1)

def add (bound : Nat) (target source : ExtTreeMap K Nat cmp) : Option (ExtTreeMap K Nat cmp) :=
  source.toList.foldlM (addEntry bound) target

def subtractEntry (target : ExtTreeMap K Nat cmp) (entry : K × Nat) :
    Option (ExtTreeMap K Nat cmp) :=
  match target[entry.1]? with
  | none => none
  | some current =>
      if current < entry.2 then none
      else if current - entry.2 = 0 then some (target.erase entry.1)
      else some (target.insert entry.1 (current - entry.2))

def subtract (target source : ExtTreeMap K Nat cmp) : Option (ExtTreeMap K Nat cmp) :=
  source.toList.foldlM subtractEntry target

variable {target source result : ExtTreeMap K Nat cmp} {k : K} {bound value : Nat}
variable {entries : List (K × Nat)}

@[simp] theorem amount_empty : amount (∅ : ExtTreeMap K Nat cmp) k = 0 := by
  simp [amount]

theorem noZero_empty : NoZero (∅ : ExtTreeMap K Nat cmp) := by
  simp [NoZero]

theorem amount_of_getElem? (h : target[k]? = some value) : amount target k = value := by
  rw [amount, h, getD_some]

theorem amount_insert (k k' : K) (value : Nat) :
    amount (target.insert k value) k' = if cmp k k' = .eq then value else amount target k' := by
  rw [amount, ExtTreeMap.getElem?_insert]
  split <;> rfl

theorem amount_erase (k k' : K) :
    amount (target.erase k) k' = if cmp k k' = .eq then 0 else amount target k' := by
  rw [amount, getElem?_erase]
  split <;> rfl

theorem addEntry_eq_some {entry : K × Nat} :
    addEntry bound target entry = some result ↔ amount target entry.1 + entry.2 ≤ bound ∧
      result = target.insert entry.1 (amount target entry.1 + entry.2) := by
  rw [addEntry, map_eq_some_iff]
  constructor
  · rintro ⟨total, sum, rfl⟩
    obtain ⟨le, rfl⟩ := checkedAdd_eq_some_iff.mp sum
    exact ⟨le, rfl⟩
  · rintro ⟨le, rfl⟩
    exact ⟨_, checkedAdd_eq_some_iff.mpr ⟨le, rfl⟩, rfl⟩

theorem subtractEntry_eq_some {entry : K × Nat} :
    subtractEntry target entry = some result ↔
      ∃ current, target[entry.1]? = some current ∧ entry.2 ≤ current ∧
        result = if current - entry.2 = 0 then target.erase entry.1
          else target.insert entry.1 (current - entry.2) := by
  unfold subtractEntry
  cases target[entry.1]? with
  | none => simp
  | some current =>
      by_cases less : current < entry.2
      · simp [less]
      · by_cases zero : current - entry.2 = 0 <;> simp [less, zero, Nat.le_of_not_lt less, eq_comm]

/-- What every entry keeps, a loop over entries that succeeds keeps. -/
theorem foldlM_keeps {σ ι : Type*} {P : σ → Prop} {f : σ → ι → Option σ} {xs : List ι} {s t : σ}
    (keep : ∀ s x t, x ∈ xs → P s → f s x = some t → P t) (start : P s)
    (h : xs.foldlM f s = some t) : P t := by
  induction xs generalizing s with
  | nil => exact Option.some.inj h ▸ start
  | cons x xs ih =>
      rw [foldlM_cons, bind_eq_bind, bind_eq_some_iff] at h
      obtain ⟨next, first, rest⟩ := h
      exact ih (fun s y t mem => keep s y t (mem_cons_of_mem _ mem))
        (keep s x next mem_cons_self start first) rest

variable [LawfulEqCmp cmp]

/-- The entries of a tally add up to what it holds. -/
theorem entryTotal_toList (tally : ExtTreeMap K Nat cmp) (k : K) :
    entryTotal tally.toList cmp k = amount tally k := by
  have absent (tally : ExtTreeMap K Nat cmp) (none_held : tally[k]? = none) :
      entryTotal tally.toList cmp k = 0 := by
    refine sum_eq_zero fun n mem => ?_
    obtain ⟨⟨k', value⟩, found, rfl⟩ := mem_map.mp mem
    rw [mem_toList_iff_getElem?_eq_some] at found
    refine if_neg fun same => ?_
    obtain rfl : k' = k := eq_of_compare same
    rw [none_held] at found
    cases found
  cases held : tally[k]? with
  | none => rw [absent tally held, amount, held, getD_none]
  | some value =>
      have erased : entryTotal (tally.erase k).toList cmp k = 0 := absent _ (by simp)
      have moved := (toList_erase_perm held).map
        fun entry => if cmp entry.1 k = .eq then entry.2 else 0
      rw [entryTotal, moved.sum_eq, map_cons, sum_cons, if_pos ReflCmp.compare_self,
        amount_of_getElem? held, ← entryTotal, erased, Nat.add_zero]

theorem NoZero.entry_ne_zero (h : NoZero source) {entry : K × Nat}
    (mem : entry ∈ source.toList) : entry.2 ≠ 0 := by
  intro zero
  refine h entry.1 ?_
  rw [← zero]
  exact mem_toList_iff_getElem?_eq_some.mp mem

/-! ### Addition -/

theorem amount_addEntry {entry : K × Nat} (h : addEntry bound target entry = some result)
    (k : K) :
    amount result k = amount target k + if cmp entry.1 k = .eq then entry.2 else 0 := by
  obtain ⟨-, rfl⟩ := addEntry_eq_some.mp h
  rw [amount_insert]
  split
  · rename_i same
    rw [eq_of_compare same]
  · rfl

theorem amount_add (h : add bound target source = some result) (k : K) :
    amount result k = amount target k + amount source k := by
  have loop : ∀ (entries : List (K × Nat)) (target : ExtTreeMap K Nat cmp),
      entries.foldlM (addEntry bound) target = some result →
      amount result k = amount target k + entryTotal entries cmp k := by
    intro entries
    induction entries with
    | nil =>
        intro target h
        cases h
        rfl
    | cons entry entries ih =>
        intro target h
        rw [foldlM_cons, bind_eq_bind, bind_eq_some_iff] at h
        obtain ⟨next, first, rest⟩ := h
        rw [ih next rest, amount_addEntry first, entryTotal_cons, Nat.add_assoc]
  rw [loop _ target h, entryTotal_toList]

/-- Addition succeeds where no sum exceeds the bound. -/
theorem add_isSome (fits : ∀ k, amount target k + amount source k ≤ bound) :
    ∃ result, add bound target source = some result := by
  have loop : ∀ (entries : List (K × Nat)) (target : ExtTreeMap K Nat cmp),
      (∀ k, amount target k + entryTotal entries cmp k ≤ bound) →
      ∃ result, entries.foldlM (addEntry bound) target = some result := by
    intro entries
    induction entries with
    | nil => exact fun target _ => ⟨target, rfl⟩
    | cons entry entries ih =>
        intro target fits
        have here := fits entry.1
        rw [entryTotal_cons, if_pos ReflCmp.compare_self] at here
        have first : addEntry bound target entry =
            some (target.insert entry.1 (amount target entry.1 + entry.2)) :=
          addEntry_eq_some.mpr ⟨by omega, rfl⟩
        rw [foldlM_cons, first]
        refine ih _ fun k => ?_
        rw [amount_addEntry first, Nat.add_assoc, ← entryTotal_cons]
        exact fits k
  exact loop source.toList target fun k => entryTotal_toList source k ▸ fits k

theorem NoZero.add (h : NoZero target) (positive : NoZero source)
    (added : add bound target source = some result) : NoZero result := by
  refine foldlM_keeps (P := NoZero) ?_ h added
  intro tally entry next mem noZero first k zero
  obtain ⟨-, rfl⟩ := addEntry_eq_some.mp first
  obtain ⟨-, same⟩ | ⟨-, old⟩ := getElem?_insert_eq_some_iff.mp zero
  · have := positive.entry_ne_zero mem
    omega
  · exact noZero k old

/-! ### Subtraction -/

theorem amount_subtractEntry {entry : K × Nat} (h : subtractEntry target entry = some result)
    (k : K) :
    amount target k = amount result k + if cmp entry.1 k = .eq then entry.2 else 0 := by
  obtain ⟨current, held, le, rfl⟩ := subtractEntry_eq_some.mp h
  by_cases same : cmp entry.1 k = .eq
  · obtain rfl : entry.1 = k := eq_of_compare same
    rw [amount_of_getElem? held, if_pos same]
    split
    · rw [amount_erase, if_pos same]
      omega
    · rw [amount_insert, if_pos same]
      omega
  · rw [if_neg same]
    split
    · rw [amount_erase, if_neg same, Nat.add_zero]
    · rw [amount_insert, if_neg same, Nat.add_zero]

/-- Subtraction undoes addition. -/
theorem amount_subtract (h : subtract target source = some result) (k : K) :
    amount target k = amount result k + amount source k := by
  have loop : ∀ (entries : List (K × Nat)) (target : ExtTreeMap K Nat cmp),
      entries.foldlM subtractEntry target = some result →
      amount target k = amount result k + entryTotal entries cmp k := by
    intro entries
    induction entries with
    | nil =>
        intro target h
        cases h
        rfl
    | cons entry entries ih =>
        intro target h
        rw [foldlM_cons, bind_eq_bind, bind_eq_some_iff] at h
        obtain ⟨next, first, rest⟩ := h
        rw [amount_subtractEntry first, ih next rest, entryTotal_cons, Nat.add_assoc,
          Nat.add_comm (entryTotal entries cmp k)]
  rw [loop _ target h, entryTotal_toList]

/-- Subtraction succeeds where enough is held for every entry. -/
theorem subtract_isSome (positive : NoZero source)
    (enough : ∀ k, amount source k ≤ amount target k) :
    ∃ result, subtract target source = some result := by
  have loop : ∀ (entries : List (K × Nat)) (target : ExtTreeMap K Nat cmp),
      (∀ entry ∈ entries, entry.2 ≠ 0) → (∀ k, entryTotal entries cmp k ≤ amount target k) →
      ∃ result, entries.foldlM subtractEntry target = some result := by
    intro entries
    induction entries with
    | nil => exact fun target _ _ => ⟨target, rfl⟩
    | cons entry entries ih =>
        intro target positive enough
        have here := enough entry.1
        have nonzero := positive entry mem_cons_self
        rw [entryTotal_cons, if_pos ReflCmp.compare_self, amount] at here
        have first : ∃ next, subtractEntry target entry = some next := by
          cases held : target[entry.1]? with
          | none =>
              rw [held, getD_none] at here
              omega
          | some current =>
              rw [held, getD_some] at here
              exact ⟨_, subtractEntry_eq_some.mpr ⟨current, held, by omega, rfl⟩⟩
        obtain ⟨next, first⟩ := first
        rw [foldlM_cons, first]
        refine ih next (fun later mem => positive later (mem_cons_of_mem _ mem)) fun k => ?_
        have := enough k
        rw [entryTotal_cons, amount_subtractEntry first] at this
        omega
  exact loop source.toList target (fun _ => positive.entry_ne_zero)
    fun k => entryTotal_toList source k ▸ enough k

theorem NoZero.subtract (h : NoZero target) (removed : subtract target source = some result) :
    NoZero result := by
  refine foldlM_keeps (P := NoZero) ?_ h removed
  intro tally entry next _ noZero first k zero
  obtain ⟨current, -, -, rfl⟩ := subtractEntry_eq_some.mp first
  split at zero
  · exact noZero k (getElem?_erase_eq_some_iff.mp zero).2
  · rename_i rest
    obtain ⟨-, same⟩ | ⟨-, old⟩ := getElem?_insert_eq_some_iff.mp zero
    · exact rest same
    · exact noZero k old

end Tally

/-! ## Saturating arithmetic of tallies

One tally may also be added to another so that each sum stops at a bound, and subtracted from
another so that each difference stops at zero. An amount of zero is not entered, and an entry that
comes down to zero is removed. Where no sum exceeds the bound, both are exact and undo each
other. -/

namespace Tally

variable {K : Type u} {cmp : K → K → Ordering} [TransCmp cmp]

def addSaturatingEntry (bound : Nat) (target : ExtTreeMap K Nat cmp) (entry : K × Nat) :
    ExtTreeMap K Nat cmp :=
  if entry.2 = 0 then target
  else target.insert entry.1 (saturatingAdd bound (amount target entry.1) entry.2)

def addSaturating (bound : Nat) (target source : ExtTreeMap K Nat cmp) : ExtTreeMap K Nat cmp :=
  source.toList.foldl (addSaturatingEntry bound) target

def subtractSaturatingEntry (target : ExtTreeMap K Nat cmp) (entry : K × Nat) :
    ExtTreeMap K Nat cmp :=
  match target[entry.1]? with
  | none => target
  | some current =>
      if current - entry.2 = 0 then target.erase entry.1
      else target.insert entry.1 (current - entry.2)

def subtractSaturating (target source : ExtTreeMap K Nat cmp) : ExtTreeMap K Nat cmp :=
  source.toList.foldl subtractSaturatingEntry target

variable {target source left right : ExtTreeMap K Nat cmp} {bound : Nat} {entry : K × Nat}

/-- What every entry keeps, a loop over entries keeps. -/
theorem foldl_keeps {σ ι : Type*} {P : σ → Prop} {f : σ → ι → σ} {xs : List ι} {s : σ}
    (keep : ∀ s x, P s → P (f s x)) (start : P s) : P (xs.foldl f s) := by
  induction xs generalizing s with
  | nil => exact start
  | cons x xs ih => exact ih (keep s x start)

section NoZero

variable [LawfulEqCmp cmp]

theorem NoZero.insert (h : NoZero target) {k : K} {value : Nat} (positive : value ≠ 0) :
    NoZero (target.insert k value) := by
  intro k' zero
  obtain ⟨-, same⟩ | ⟨-, old⟩ := getElem?_insert_eq_some_iff.mp zero
  · exact positive same
  · exact h k' old

theorem NoZero.erase (h : NoZero target) (k : K) : NoZero (target.erase k) := fun k' zero =>
  h k' (getElem?_erase_eq_some_iff.mp zero).2

/-- A tally without zero entries is known by its amounts. -/
theorem NoZero.ext (h : NoZero left) (h' : NoZero right)
    (same : ∀ k, amount left k = amount right k) : left = right := by
  refine ext_getElem? fun k => ?_
  have amounts := same k
  cases first : left[k]? with
  | none =>
      cases second : right[k]? with
      | none => rfl
      | some value =>
          rw [amount, amount, first, second] at amounts
          exact absurd (second.trans (congrArg some amounts.symm)) (h' k)
  | some value =>
      cases second : right[k]? with
      | none =>
          rw [amount, amount, first, second] at amounts
          exact absurd (first.trans (congrArg some amounts)) (h k)
      | some value' =>
          rw [amount, amount, first, second] at amounts
          exact congrArg some amounts

theorem NoZero.addSaturatingEntry (h : NoZero target) (positive : bound ≠ 0) (entry : K × Nat) :
    NoZero (addSaturatingEntry bound target entry) := by
  unfold Tally.addSaturatingEntry
  split
  · exact h
  · refine h.insert ?_
    unfold saturatingAdd
    omega

theorem NoZero.addSaturating (h : NoZero target) (positive : bound ≠ 0)
    (source : ExtTreeMap K Nat cmp) : NoZero (addSaturating bound target source) :=
  foldl_keeps (fun _ entry kept => kept.addSaturatingEntry positive entry) h

theorem NoZero.subtractSaturating (h : NoZero target) (source : ExtTreeMap K Nat cmp) :
    NoZero (subtractSaturating target source) := by
  refine foldl_keeps (fun tally entry kept => ?_) h
  unfold subtractSaturatingEntry
  split
  · exact kept
  · split
    · exact kept.erase entry.1
    · rename_i rest
      exact kept.insert rest

end NoZero

section Amounts

variable [LawfulEqCmp cmp]

theorem amount_addSaturatingEntry (bounded : ∀ k, amount target k ≤ bound) (entry : K × Nat)
    (k : K) :
    amount (addSaturatingEntry bound target entry) k =
      min (amount target k + if cmp entry.1 k = .eq then entry.2 else 0) bound := by
  have old := bounded k
  unfold addSaturatingEntry
  split
  · rename_i zero
    rw [zero, ite_self, Nat.add_zero, Nat.min_eq_left old]
  · rw [amount_insert]
    split
    · rename_i same
      rw [eq_of_compare same]
      rfl
    · rw [Nat.add_zero, Nat.min_eq_left old]

theorem amount_addSaturating (bounded : ∀ k, amount target k ≤ bound) (k : K) :
    amount (addSaturating bound target source) k =
      min (amount target k + amount source k) bound := by
  have loop : ∀ (entries : List (K × Nat)) (target : ExtTreeMap K Nat cmp),
      (∀ k, amount target k ≤ bound) →
      amount (entries.foldl (addSaturatingEntry bound) target) k =
        min (amount target k + entryTotal entries cmp k) bound := by
    intro entries
    induction entries with
    | nil => exact fun target bounded => (Nat.min_eq_left (bounded k)).symm
    | cons entry entries ih =>
        intro target bounded
        have next : ∀ k, amount (addSaturatingEntry bound target entry) k ≤ bound := fun k => by
          rw [amount_addSaturatingEntry bounded]
          exact Nat.min_le_right _ _
        rw [foldl_cons, ih _ next, amount_addSaturatingEntry bounded, entryTotal_cons]
        omega
  rw [addSaturating, loop _ target bounded, entryTotal_toList]

theorem amount_subtractSaturatingEntry (entry : K × Nat) (k : K) :
    amount (subtractSaturatingEntry target entry) k =
      amount target k - if cmp entry.1 k = .eq then entry.2 else 0 := by
  by_cases same : cmp entry.1 k = .eq
  · obtain rfl : entry.1 = k := eq_of_compare same
    rw [if_pos same]
    unfold subtractSaturatingEntry
    cases held : target[entry.1]? with
    | none => simp [amount, held]
    | some current =>
        rw [amount_of_getElem? held]
        simp only
        split
        · rename_i zero
          rw [amount_erase, if_pos same, zero]
        · rw [amount_insert, if_pos same]
  · rw [if_neg same, Nat.sub_zero]
    unfold subtractSaturatingEntry
    split
    · rfl
    · split
      · rw [amount_erase, if_neg same]
      · rw [amount_insert, if_neg same]

theorem amount_subtractSaturating (target source : ExtTreeMap K Nat cmp) (k : K) :
    amount (subtractSaturating target source) k = amount target k - amount source k := by
  have loop : ∀ (entries : List (K × Nat)) (target : ExtTreeMap K Nat cmp),
      amount (entries.foldl subtractSaturatingEntry target) k =
        amount target k - entryTotal entries cmp k := by
    intro entries
    induction entries with
    | nil => exact fun target => rfl
    | cons entry entries ih =>
        intro target
        rw [foldl_cons, ih, amount_subtractSaturatingEntry, entryTotal_cons, Nat.sub_sub]
  rw [subtractSaturating, loop, entryTotal_toList]

end Amounts

end Tally

end Aegis.Foundation
