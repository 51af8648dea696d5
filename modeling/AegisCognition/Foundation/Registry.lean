import Mathlib.Algebra.BigOperators.Group.List.Basic
import Mathlib.Algebra.GroupWithZero.Nat
import AegisCognition.Foundation.Table

/-!
# Registries of handles

A registry remembers every handle that was ever handed out and what the handles that are still
live stand for. It is what a store with stable handles is for: a handle is handed out once, a
live handle finds the last value stored under it, and a dropped handle finds nothing.
-/

namespace Aegis.Foundation

open List

universe u v

variable {K : Type u} {V : Type v}

structure Registry (K : Type u) (V : Type v) where
  issued : List K := []
  live : List (K × V) := []

namespace Registry

/-- A value joins under a handle. -/
def add (r : Registry K V) (k : K) (v : V) : Registry K V where
  issued := r.issued ++ [k]
  live := (k, v) :: r.live

/-- The sum of a weight over the live values. -/
def total (weight : V → Nat) (r : Registry K V) : Nat :=
  (r.live.map fun entry => weight entry.2).sum

/-- No handle was handed out twice, and the live handles were handed out. -/
structure Sound (r : Registry K V) : Prop where
  distinct : r.issued.Nodup
  keys : (r.live.map Prod.fst).Nodup
  known : ∀ entry ∈ r.live, entry.1 ∈ r.issued

namespace Sound

theorem empty : ({} : Registry K V).Sound :=
  ⟨nodup_nil, nodup_nil, nofun⟩

theorem add {r : Registry K V} {k : K} {v : V} (h : r.Sound) (fresh : k ∉ r.issued) :
    (r.add k v).Sound where
  distinct := by
    refine nodup_append.mpr ⟨h.distinct, nodup_singleton _, ?_⟩
    rintro old mem _ new rfl
    exact fresh (mem_singleton.mp new ▸ mem)
  keys := by
    refine nodup_cons.mpr ⟨?_, h.keys⟩
    intro mem
    obtain ⟨entry, live, rfl⟩ := mem_map.mp mem
    exact fresh (h.known entry live)
  known := by
    intro entry mem
    obtain rfl | old := mem_cons.mp mem
    · exact mem_append_right _ (mem_singleton_self _)
    · exact mem_append_left _ (h.known entry old)

end Sound

variable [DecidableEq K]

def lookup (r : Registry K V) (k : K) : Option V :=
  (r.live.find? (·.1 = k)).map Prod.snd

def drop (r : Registry K V) (k : K) : Registry K V where
  issued := r.issued
  live := r.live.filter (·.1 ≠ k)

/-- The value of a live handle changes. -/
def modify (r : Registry K V) (k : K) (f : V → V) : Registry K V where
  issued := r.issued
  live := updateWhere (·.1 = k) (fun entry => (entry.1, f entry.2)) r.live

section Lookup

variable {r : Registry K V} {k other : K} {v : V} {f : V → V}

theorem lookup_add : (r.add k v).lookup other = if other = k then some v else r.lookup other := by
  by_cases same : k = other
  · simp [lookup, add, same]
  · simp [lookup, add, same, Ne.symm same]

theorem lookup_drop : (r.drop k).lookup other = if other = k then none else r.lookup other := by
  by_cases same : other = k
  · subst same
    simp [lookup, drop, List.find?_filter]
  · simp only [lookup, drop, List.find?_filter, if_neg same]
    congr 2
    funext entry
    by_cases here : entry.1 = other
    · simp [here, same]
    · simp [here]

theorem lookup_modify :
    (r.modify k f).lookup other =
      if other = k then (r.lookup other).map f else r.lookup other := by
  simp only [lookup, modify]
  rw [find?_updateWhere (f := fun entry => (entry.1, f entry.2)) fun _ => rfl]
  cases found : r.live.find? (·.1 = other) with
  | none => simp
  | some entry =>
      have key : entry.1 = other := by simpa using List.find?_some found
      by_cases same : other = k
      · simp [key, same]
      · simp [key, same]

theorem mem_of_lookup (h : r.lookup k = some v) : (k, v) ∈ r.live := by
  obtain ⟨entry, found, rfl⟩ := Option.map_eq_some_iff.mp h
  have key : entry.1 = k := by simpa using List.find?_some found
  exact key ▸ mem_of_find?_eq_some found

end Lookup

namespace Sound

variable {r : Registry K V} {k : K} {v : V} {f : V → V}

theorem drop (h : r.Sound) : (r.drop k).Sound where
  distinct := h.distinct
  keys := h.keys.sublist (filter_sublist.map _)
  known := fun entry mem => h.known entry (mem_of_mem_filter mem)

theorem modify (h : r.Sound) : (r.modify k f).Sound where
  distinct := h.distinct
  keys := by
    show ((updateWhere _ _ r.live).map Prod.fst).Nodup
    rw [map_updateWhere (f := fun entry => (entry.1, f entry.2)) fun _ => rfl]
    exact h.keys
  known := by
    intro entry mem
    obtain ⟨old, live, rfl⟩ := mem_updateWhere.mp mem
    have key := h.known old live
    split
    · exact key
    · exact key

/-- The entry of a live handle is the only one that dropping it takes away. -/
theorem live_perm_drop (h : r.Sound) (found : r.lookup k = some v) :
    r.live.Perm ((k, v) :: (r.drop k).live) := by
  have mem := mem_of_lookup found
  simp only [Registry.drop]
  obtain ⟨before, after, split⟩ := append_of_mem mem
  have keys := h.keys
  rw [split] at keys ⊢
  simp only [map_append, map_cons, nodup_append, nodup_cons] at keys
  obtain ⟨-, ⟨later, -⟩, apart⟩ := keys
  have before_ne : ∀ entry ∈ before, entry.1 ≠ k := fun entry mem same =>
    apart entry.1 (mem_map_of_mem mem) k mem_cons_self same
  have after_ne : ∀ entry ∈ after, entry.1 ≠ k := fun entry mem same =>
    later (same ▸ mem_map_of_mem mem)
  rw [filter_append, filter_cons_of_neg (by simp),
    filter_eq_self.mpr (by simpa using before_ne),
    filter_eq_self.mpr (by simpa using after_ne)]
  exact perm_middle

theorem length_drop (h : r.Sound) (found : r.lookup k = some v) :
    (r.drop k).live.length + 1 = r.live.length :=
  (h.live_perm_drop found).length_eq.symm

theorem total_drop (h : r.Sound) (weight : V → Nat) (found : r.lookup k = some v) :
    (r.drop k).total weight + weight v = r.total weight := by
  have perm := ((h.live_perm_drop found).map fun entry => weight entry.2).sum_eq
  simp only [map_cons, sum_cons] at perm
  simp only [total, perm]
  omega

theorem total_modify (h : r.Sound) (weight : V → Nat) (found : r.lookup k = some v) :
    (r.modify k f).total weight + weight v = r.total weight + weight (f v) := by
  have apart : ∀ entry ∈ (r.drop k).live, decide (entry.1 = k) = false := by
    intro entry mem
    simpa using of_mem_filter mem
  have perm : (r.modify k f).live.Perm ((k, f v) :: (r.drop k).live) := by
    have moved := (h.live_perm_drop found).map fun entry =>
      if decide (entry.1 = k) then (entry.1, f entry.2) else entry
    rw [map_cons] at moved
    have rest := updateWhere_eq_self (f := fun entry : K × V => (entry.1, f entry.2)) apart
    rw [updateWhere] at rest
    rw [rest] at moved
    simpa [Registry.modify, updateWhere] using moved
  have sum := (perm.map fun entry => weight entry.2).sum_eq
  have dropped := h.total_drop weight found
  simp only [map_cons, sum_cons] at sum
  simp only [total] at dropped ⊢
  omega

end Sound

omit [DecidableEq K] in
theorem total_add {r : Registry K V} {k : K} {v : V} {weight : V → Nat} :
    (r.add k v).total weight = weight v + r.total weight := by
  simp [total, add]

end Registry

end Aegis.Foundation
