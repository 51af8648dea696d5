import Mathlib.Algebra.BigOperators.Group.List.Basic
import Mathlib.Data.Finset.Card
import Mathlib.Data.List.Nodup

/-!
# Ordered maps and the lists of their values

Ordered maps are the extensional tree maps of the standard library: two maps with
the same lookups are equal, and iteration is in key order. What is added here is how
the list of values, and so every sum or count over it, moves under an insertion at a
fresh key and under a removal. All facts hold for an arbitrary lawful comparison.
-/

namespace Aegis.Foundation

universe u v

open Std ExtTreeMap List ExtTreeMap

/-- Pairs compared by their first components, and then by their second ones. -/
abbrev pairCompare (a b : Nat × Nat) : Ordering :=
  compareLex (compareOn Prod.fst) (compareOn Prod.snd) a b

instance : TransCmp pairCompare :=
  inferInstanceAs (TransCmp (compareLex (compareOn Prod.fst) (compareOn Prod.snd)))

instance : LawfulEqCmp pairCompare where
  eq_of_compare := by
    rintro ⟨a, b⟩ ⟨c, d⟩ h
    simp only [pairCompare, compareLex, compareOn, Ordering.then_eq_eq, Nat.compare_eq_eq] at h
    exact Prod.ext h.1 h.2

namespace OrderedMap

variable {K : Type u} {V : Type v} {cmp : K → K → Ordering} [TransCmp cmp]
variable {m : ExtTreeMap K V cmp} {k k' : K} {v v' : V}

/-- The values in key order. -/
def valueList (m : ExtTreeMap K V cmp) : List V :=
  m.toList.map Prod.snd

@[simp] theorem valueList_empty : valueList (∅ : ExtTreeMap K V cmp) = [] := by
  simp [valueList]

variable [LawfulEqCmp cmp]

theorem getElem?_insert_of_ne (h : k ≠ k') : (m.insert k v)[k']? = m[k']? := by
  rw [ExtTreeMap.getElem?_insert, if_neg]
  exact fun he => h (LawfulEqCmp.eq_of_compare he)

theorem getElem?_insert_eq_some_iff :
    (m.insert k v)[k']? = some v' ↔ k = k' ∧ v = v' ∨ k ≠ k' ∧ m[k']? = some v' := by
  by_cases h : k = k'
  · subst h
    simp
  · simp [getElem?_insert_of_ne h, h]

theorem getElem?_erase_of_ne (h : k ≠ k') : (m.erase k)[k']? = m[k']? := by
  rw [getElem?_erase, if_neg]
  exact fun he => h (LawfulEqCmp.eq_of_compare he)

theorem getElem?_erase_eq_some_iff :
    (m.erase k)[k']? = some v' ↔ k ≠ k' ∧ m[k']? = some v' := by
  by_cases h : k = k'
  · subst h
    simp
  · simp [getElem?_erase_of_ne h, h]

@[simp] theorem insert_insert : (m.insert k v).insert k v' = m.insert k v' := by
  refine ext_getElem? fun a => ?_
  by_cases h : k = a
  · subst h
    simp
  · simp [getElem?_insert_of_ne h]

theorem insert_self (h : m[k]? = some v) : m.insert k v = m := by
  refine ext_getElem? fun a => ?_
  by_cases ha : k = a
  · subst ha
    simp [h]
  · exact getElem?_insert_of_ne ha

theorem erase_insert : (m.insert k v).erase k = m.erase k := by
  refine ext_getElem? fun a => ?_
  by_cases ha : k = a
  · subst ha
    simp
  · rw [getElem?_erase_of_ne ha, getElem?_erase_of_ne ha, getElem?_insert_of_ne ha]

theorem erase_of_absent (h : m[k]? = none) : m.erase k = m := by
  refine ext_getElem? fun a => ?_
  by_cases ha : k = a
  · subst ha
    simp [h]
  · rw [getElem?_erase_of_ne ha]

theorem erase_insert_of_absent (h : m[k]? = none) : (m.insert k v).erase k = m :=
  erase_insert.trans (erase_of_absent h)

theorem toList_nodup : m.toList.Nodup := by
  refine m.distinct_keys_toList.imp ?_
  rintro a b distinct rfl
  exact distinct ReflCmp.compare_self

theorem mem_valueList_iff : v ∈ valueList m ↔ ∃ k : K, m[k]? = some v := by
  simp [valueList, mem_toList_iff_getElem?_eq_some]

/-- An entry without a fault joins entries without one. -/
theorem any_toList_insert {p : K × V → Bool} (h : m.toList.any p = false) (new : p (k, v) = false) :
    (m.insert k v).toList.any p = false := by
  rw [any_eq_false] at h ⊢
  rintro ⟨a, w⟩ mem
  rw [mem_toList_iff_getElem?_eq_some, getElem?_insert_eq_some_iff] at mem
  obtain ⟨rfl, rfl⟩ | ⟨-, old⟩ := mem
  · simp [new]
  · exact h _ (mem_toList_iff_getElem?_eq_some.mpr old)

/-- A member without a fault joins members without one. -/
theorem any_toList_insert_set {s : ExtTreeSet K cmp} {p : K → Bool} (h : s.toList.any p = false)
    (new : p k = false) : (s.insert k).toList.any p = false := by
  rw [any_eq_false] at h ⊢
  intro a mem
  rw [ExtTreeSet.mem_toList, ExtTreeSet.mem_insert] at mem
  obtain same | old := mem
  · obtain rfl := LawfulEqCmp.eq_of_compare same
    simp [new]
  · exact h _ (ExtTreeSet.mem_toList.mpr old)

theorem valueList_insert_perm (fresh : m[k]? = none) :
    (valueList (m.insert k v)).Perm (v :: valueList m) := by
  have entries : (m.insert k v).toList.Perm ((k, v) :: m.toList) := by
    rw [perm_ext_iff_of_nodup toList_nodup]
    · rintro ⟨a, b⟩
      rw [mem_cons, mem_toList_iff_getElem?_eq_some,
        mem_toList_iff_getElem?_eq_some, getElem?_insert_eq_some_iff]
      by_cases h : k = a
      · subst h
        simp [fresh, eq_comm]
      · simp [h, Ne.symm h]
    · refine nodup_cons.mpr ⟨?_, toList_nodup⟩
      rw [mem_toList_iff_getElem?_eq_some, fresh]
      simp
  exact entries.map Prod.snd

theorem toList_erase_perm (present : m[k]? = some v) :
    m.toList.Perm ((k, v) :: (m.erase k).toList) := by
  rw [perm_ext_iff_of_nodup toList_nodup]
  · rintro ⟨a, b⟩
    rw [mem_cons, mem_toList_iff_getElem?_eq_some,
      mem_toList_iff_getElem?_eq_some, getElem?_erase_eq_some_iff]
    by_cases h : k = a
    · subst h
      simp [present, eq_comm]
    · simp [h, Ne.symm h]
  · refine nodup_cons.mpr ⟨?_, toList_nodup⟩
    rw [mem_toList_iff_getElem?_eq_some]
    simp

theorem valueList_erase_perm (present : m[k]? = some v) :
    (valueList m).Perm (v :: valueList (m.erase k)) :=
  (toList_erase_perm present).map Prod.snd

theorem size_eq_of_mem_iff {W : Type*} {n : ExtTreeMap K W cmp} (same : ∀ k : K, k ∈ m ↔ k ∈ n) :
    m.size = n.size := by
  have keys : m.keys.Perm n.keys := by
    apply (perm_ext_iff_of_nodup nodup_keys nodup_keys).mpr
    intro k
    rw [ExtTreeMap.mem_keys, ExtTreeMap.mem_keys, same]
  rw [← length_keys, ← length_keys]
  exact keys.length_eq

/-! ### Maps from lists of entries -/

section OfList

variable {entries : List (K × V)}

/-- A key that comes more than once has the last of its values. -/
theorem mem_of_getElem?_ofList (h : (ofList entries cmp)[k]? = some v) :
    (k, v) ∈ entries := by
  rw [ofList_eq_foldl] at h
  induction entries using reverseRecOn with
  | nil => simp at h
  | append_singleton entries entry ih =>
      rw [foldl_append, foldl_cons, foldl_nil, getElem?_insert_eq_some_iff] at h
      rw [mem_append, mem_singleton]
      obtain ⟨rfl, rfl⟩ | ⟨-, earlier⟩ := h
      · exact .inr rfl
      · exact .inl (ih earlier)

variable [DecidableEq K]

/-- A map with as many entries as the list it is made from, which has no key twice. -/
theorem nodup_of_size_ofList (h : (ofList entries cmp).size = entries.length) :
    (entries.map Prod.fst).Nodup := by
  have keys : (ofList entries cmp).keys.toFinset = (entries.map Prod.fst).toFinset := by
    apply Finset.ext
    intro k
    rw [List.mem_toFinset, List.mem_toFinset, ExtTreeMap.mem_keys, mem_ofList,
      List.contains_iff_mem]
  have count := congrArg Finset.card keys
  rw [List.toFinset_card_of_nodup nodup_keys, length_keys, h, ← List.length_map Prod.fst] at count
  exact Multiset.toFinset_card_eq_card_iff_nodup.mp count.symm

theorem getElem?_ofList_eq_some_iff (nodup : (entries.map Prod.fst).Nodup) :
    (ofList entries cmp)[k]? = some v ↔ (k, v) ∈ entries := by
  have distinct : entries.Pairwise fun a b => ¬ cmp a.1 b.1 = .eq := by
    apply (List.pairwise_map.mp nodup).imp
    intro a b apart same
    exact apart (LawfulEqCmp.eq_of_compare same)
  have held {k : K} {v : V} (mem : (k, v) ∈ entries) :
      (ofList entries cmp)[k]? = some v :=
    getElem?_ofList_of_mem ReflCmp.compare_self distinct mem
  constructor
  · intro found
    have inside : k ∈ ofList entries cmp :=
      mem_iff_isSome_getElem?.mpr (found ▸ rfl)
    rw [mem_ofList, List.contains_iff_mem] at inside
    obtain ⟨⟨k, v'⟩, mem, rfl⟩ := List.mem_map.mp inside
    rwa [← Option.some.inj ((held mem).symm.trans found)]
  · exact held

end OfList

/-! ### Maps that agree on what a function reads of their values -/

section Reads

universe w

variable {W : Type w} {n : ExtTreeMap K V cmp} {f : V → W}

section

variable (same : ∀ k : K, (m[k]?).map f = (n[k]?).map f)
include same

theorem map_eq_of_reads :
    m.map (fun _ => f) = n.map (fun _ => f) := by
  refine ext_getElem? fun k => ?_
  rw [ExtTreeMap.getElem?_map, ExtTreeMap.getElem?_map]
  exact same k

theorem toList_eq_of_reads :
    (m.toList.map fun entry => (entry.1, f entry.2)) =
      n.toList.map fun entry => (entry.1, f entry.2) := by
  have := congrArg toList (map_eq_of_reads same)
  rwa [toList_map, toList_map] at this

theorem keys_eq_of_reads : m.keys = n.keys := by
  have := congrArg ExtTreeMap.keys (map_eq_of_reads same)
  rwa [keys_map, keys_map] at this

theorem valueList_eq_of_reads :
    (valueList m).map f = (valueList n).map f := by
  have := congrArg (List.map Prod.snd) (toList_eq_of_reads same)
  simpa only [valueList, List.map_map, Function.comp_def] using this

end

end Reads

end OrderedMap

end Aegis.Foundation
