import Mathlib.Data.List.Induction
import AegisCognition.Foundation.Table

/-!
# Sorting and selecting by a comparison

The comparison is a function into `Ordering`, so that keys can be compared one after the other.
Both operations keep the first of two items that compare as equal in front. Where no two items of
a list compare as equal, neither depends on the order of the list.
-/

namespace Aegis.Foundation

open List

universe u

variable {α : Type u}

/-- A stable sort. -/
def sortBy (cmp : α → α → Ordering) (xs : List α) : List α :=
  xs.insertionSort fun x y => (cmp x y).isLE

/-- The first of the least items. -/
def minBy (cmp : α → α → Ordering) : List α → Option α
  | [] => none
  | x :: xs => some (xs.foldl (fun best y => if (cmp best y).isGT then y else best) x)

/-- The value of a computation whose early returns are carried as errors. -/
def early : Except α α → α
  | .ok value => value
  | .error value => value

open Std

variable {cmp : α → α → Ordering} {xs ys : List α} {x y : α}

/-! ### Sorting -/

theorem sortBy_perm (cmp : α → α → Ordering) (xs : List α) : (sortBy cmp xs).Perm xs :=
  perm_insertionSort _ xs

@[simp] theorem mem_sortBy : x ∈ sortBy cmp xs ↔ x ∈ xs :=
  (sortBy_perm cmp xs).mem_iff

theorem pairwise_sortBy [TransCmp cmp] (xs : List α) :
    (sortBy cmp xs).Pairwise fun x y => (cmp x y).isLE = true := by
  have total : Std.Total fun x y => (cmp x y).isLE = true := ⟨fun x y => by
    have swap : cmp y x = (cmp x y).swap := OrientedCmp.eq_swap
    rw [swap]
    cases cmp x y <;> simp⟩
  have trans : IsTrans α fun x y => (cmp x y).isLE = true := ⟨fun _ _ _ => TransCmp.isLE_trans⟩
  exact pairwise_insertionSort _ xs

/-- No two items of the list compare as equal. -/
def Separates (cmp : α → α → Ordering) (xs : List α) : Prop :=
  ∀ x ∈ xs, ∀ y ∈ xs, cmp x y = .eq → x = y

/-- Comparing by a key. -/
instance transCmp_key {κ : Type*} [Ord κ] [TransOrd κ] (key : α → κ) :
    TransCmp fun x y => compare (key x) (key y) :=
  inferInstanceAs (TransCmp (compareOn key))

/-- Items with different keys are told apart by comparing the keys. -/
theorem separates_of_nodup {κ : Type*} [Ord κ] [LawfulEqOrd κ] {key : α → κ}
    (distinct : (xs.map key).Nodup) : Separates (fun x y => compare (key x) (key y)) xs :=
  fun _ hx _ hy same =>
    inj_on_of_nodup_map distinct hx hy (LawfulEqOrd.eq_of_compare same)

theorem Separates.eq_of_isLE [TransCmp cmp] (h : Separates cmp xs) (hx : x ∈ xs) (hy : y ∈ xs)
    (le : (cmp x y).isLE = true) (ge : (cmp y x).isLE = true) : x = y := by
  apply h x hx y hy
  have swap : cmp y x = (cmp x y).swap := OrientedCmp.eq_swap
  rw [swap] at ge
  cases same : cmp x y with
  | lt =>
      rw [same] at ge
      cases ge
  | eq => rfl
  | gt =>
      rw [same] at le
      cases le

theorem sortBy_eq_of_perm [TransCmp cmp] (h : Separates cmp xs) (perm : xs.Perm ys) :
    sortBy cmp xs = sortBy cmp ys := by
  apply List.Perm.eq_of_pairwise _ (pairwise_sortBy xs) (pairwise_sortBy ys)
    ((sortBy_perm cmp xs).trans (perm.trans (sortBy_perm cmp ys).symm))
  intro x y hx hy le ge
  exact h.eq_of_isLE (mem_sortBy.mp hx) (perm.mem_iff.mpr (mem_sortBy.mp hy)) le ge

/-! ### Selecting -/

/-- What the loop over the rest of the items ends with. -/
theorem foldl_minBy [TransCmp cmp] (xs : List α) (x : α) :
    xs.foldl (fun best y => if (cmp best y).isGT then y else best) x ∈ x :: xs ∧
      ∀ y ∈ x :: xs,
        (cmp (xs.foldl (fun best y => if (cmp best y).isGT then y else best) x) y).isLE = true := by
  induction xs generalizing x with
  | nil =>
      refine ⟨mem_singleton.mpr rfl, fun y mem => ?_⟩
      rw [mem_singleton.mp mem]
      exact Ordering.isLE_of_eq_eq ReflCmp.compare_self
  | cons y xs ih =>
      rw [foldl_cons]
      obtain ⟨mem, least⟩ := ih (if (cmp x y).isGT then y else x)
      obtain ⟨here, later⟩ := forall_mem_cons.mp least
      split at mem <;> rename_i greater
      · rw [if_pos greater] at here later ⊢
        have below : (cmp y x).isLE = true := by
          have swap : cmp y x = (cmp x y).swap := OrientedCmp.eq_swap
          rw [swap]
          cases h : cmp x y <;> simp_all
        refine ⟨mem_cons_of_mem _ mem, ?_⟩
        exact forall_mem_cons.mpr ⟨TransCmp.isLE_trans here below,
          forall_mem_cons.mpr ⟨here, later⟩⟩
      · rw [if_neg greater] at here later ⊢
        have above : (cmp x y).isLE = true := by
          cases h : cmp x y <;> simp_all
        refine ⟨?_, ?_⟩
        · obtain same | mem := mem_cons.mp mem
          · rw [same]
            exact mem_cons_self
          · exact mem_cons_of_mem _ (mem_cons_of_mem _ mem)
        · exact forall_mem_cons.mpr ⟨here,
            forall_mem_cons.mpr ⟨TransCmp.isLE_trans here above, later⟩⟩

theorem minBy_eq_none_iff : minBy cmp xs = none ↔ xs = [] := by
  cases xs <;> simp [minBy]

section Trans

variable [TransCmp cmp]

theorem mem_of_minBy (h : minBy cmp xs = some x) : x ∈ xs := by
  cases xs with
  | nil => cases h
  | cons first rest =>
      cases h
      exact (foldl_minBy rest first).1

theorem isLE_of_minBy (h : minBy cmp xs = some x) (mem : y ∈ xs) : (cmp x y).isLE = true := by
  cases xs with
  | nil => cases h
  | cons first rest =>
      cases h
      exact (foldl_minBy rest first).2 y mem

/-- The selected item is the one that no item is less than. -/
theorem minBy_eq_some_iff (distinct : Separates cmp xs) :
    minBy cmp xs = some x ↔ x ∈ xs ∧ ∀ y ∈ xs, (cmp x y).isLE = true := by
  constructor
  · intro h
    exact ⟨mem_of_minBy h, fun y mem => isLE_of_minBy h mem⟩
  · rintro ⟨mem, least⟩
    cases found : minBy cmp xs with
    | none =>
        rw [minBy_eq_none_iff.mp found] at mem
        cases mem
    | some y =>
        have hy := mem_of_minBy found
        exact congrArg some (distinct.eq_of_isLE hy mem (isLE_of_minBy found mem) (least y hy))

end Trans

/-- A lookup by a key that no two items share does not depend on the order of the list. -/
theorem find?_eq_of_perm {κ : Type*} [DecidableEq κ] {key : α → κ} {xs ys : List α}
    (unique : (xs.map key).Nodup) (perm : xs.Perm ys) (k : κ) :
    xs.find? (key · = k) = ys.find? (key · = k) := by
  cases found : xs.find? (key · = k) with
  | none =>
      symm
      apply List.find?_eq_none.mpr
      intro x mem
      exact List.find?_eq_none.mp found x (perm.mem_iff.mpr mem)
  | some x =>
      have keyed : key x = k := by simpa using List.find?_some found
      symm
      apply find?_eq_some_of_unique ((perm.map key).nodup_iff.mp unique)
        (perm.mem_iff.mp (mem_of_find?_eq_some found)) (by simp [keyed])
      intro y _ keyed'
      simp only [decide_eq_true_eq] at keyed'
      rw [keyed', keyed]

/-! ### The first of the largest items -/

section Largest

variable {β : Type*} {size : α → Nat} {size' : β → Nat} {least : Nat} {best : Option α}

/-- Take the item if it is large enough and larger than the one there is. -/
def takeLarger (size : α → Nat) (least : Nat) (best : Option α) (x : α) : Option α :=
  if size x < least then best else if best.any (size x ≤ size ·) then best else some x

theorem takeLarger_cases (size : α → Nat) (least : Nat) (best : Option α) (x : α) :
    takeLarger size least best x = best ∧ (size x < least ∨ ∃ y ∈ best, size x ≤ size y) ∨
      takeLarger size least best x = some x ∧ least ≤ size x ∧ ∀ y ∈ best, size y < size x := by
  unfold takeLarger
  split
  · next small => exact .inl ⟨rfl, .inl small⟩
  · next large =>
      cases best with
      | none => exact .inr ⟨rfl, Nat.not_lt.mp large, nofun⟩
      | some y =>
          by_cases le : size x ≤ size y
          · rw [if_pos (by simpa using le)]
            exact .inl ⟨rfl, .inr ⟨y, rfl, le⟩⟩
          · rw [if_neg (by simpa using le)]
            refine .inr ⟨rfl, Nat.not_lt.mp large, ?_⟩
            rintro _ ⟨⟩
            exact Nat.not_le.mp le

/-- What the selection keeps: an item that is large enough, and as large as those before. -/
theorem foldl_takeLarger (start : ∀ y ∈ best, least ≤ size y) :
    (xs.foldl (takeLarger size least) best = none ↔ best = none ∧ ∀ x ∈ xs, size x < least) ∧
    ∀ y ∈ xs.foldl (takeLarger size least) best,
      (y ∈ best ∨ y ∈ xs) ∧ least ≤ size y ∧ (∀ x ∈ best, size x ≤ size y) ∧
        ∀ x ∈ xs, size x ≤ size y := by
  induction xs generalizing best with
  | nil =>
      refine ⟨by simp, fun y mem => ⟨.inl mem, start y mem, fun x mem' => ?_, by simp⟩⟩
      rw [Option.mem_unique mem mem']
  | cons x xs ih =>
      rw [foldl_cons, forall_mem_cons]
      obtain ⟨kept, small⟩ | ⟨taken, large, larger⟩ := takeLarger_cases size least best x
      · rw [kept]
        obtain ⟨none_, some_⟩ := ih start
        refine ⟨none_.trans (and_congr_right fun empty => ?_), fun y mem => ?_⟩
        · have below : size x < least := by
            obtain below | ⟨y, mem, -⟩ := small
            · exact below
            · rw [empty] at mem
              cases mem
          exact ⟨fun rest => ⟨below, rest⟩, And.right⟩
        · obtain ⟨from_, enough, beyond, rest⟩ := some_ y mem
          refine ⟨from_.imp_right (mem_cons_of_mem x), enough, beyond, ?_⟩
          rw [forall_mem_cons]
          refine ⟨?_, rest⟩
          obtain below | ⟨z, held, le⟩ := small
          · exact Nat.le_of_lt (Nat.lt_of_lt_of_le below enough)
          · exact Nat.le_trans le (beyond z held)
      · have start' : ∀ y ∈ some x, least ≤ size y := by
          rintro _ ⟨⟩
          exact large
        rw [taken]
        obtain ⟨none_, some_⟩ := ih start'
        refine ⟨?_, fun y mem => ?_⟩
        · rw [none_]
          exact ⟨fun h => absurd h.1 (Option.some_ne_none x),
            fun h => absurd large (Nat.not_le.mpr h.2.1)⟩
        · obtain ⟨from_, enough, beyond, rest⟩ := some_ y mem
          have first := beyond x rfl
          refine ⟨.inr ?_, enough, fun z held => ?_, forall_mem_cons.mpr ⟨first, rest⟩⟩
          · obtain ⟨⟨⟩⟩ | later := from_
            · exact mem_cons_self
            · exact mem_cons_of_mem x later
          · exact Nat.le_of_lt (Nat.lt_of_lt_of_le (larger z held) first)

/-- The selection looks at the sizes only. -/
theorem map_foldl_takeLarger {f : α → β} (same : ∀ x, size' (f x) = size x) :
    (xs.foldl (takeLarger size least) best).map f =
      (xs.map f).foldl (takeLarger size' least) (best.map f) := by
  induction xs generalizing best with
  | nil => rfl
  | cons x xs ih =>
      have step : (takeLarger size least best x).map f =
          takeLarger size' least (best.map f) (f x) := by
        unfold takeLarger
        rw [same, Option.any_map]
        simp only [same]
        split
        · rfl
        · split <;> rfl
      rw [foldl_cons, ih, step, map_cons, foldl_cons]

end Largest

/-! ### Merging neighbours -/

section Merging

variable {κ ω : Type*} [LinearOrder ω] {key : α → κ} {weight : α → ω}
variable {merge : α → α → α} {seen merged : List α}

/-- One item for each key that was seen, of the largest weight among those with the key. -/
structure Merged (key : α → κ) (weight : α → ω) (seen merged : List α) : Prop where
  keys : ∀ k, k ∈ merged.map key ↔ k ∈ seen.map key
  nodup : (merged.map key).Nodup
  last : merged.getLast?.map key = seen.getLast?.map key
  attained : ∀ x ∈ merged, ∃ y ∈ seen, key y = key x ∧ weight y = weight x
  largest : ∀ x ∈ merged, ∀ y ∈ seen, key y = key x → weight y ≤ weight x

theorem merged_nil : Merged key weight [] [] :=
  ⟨fun _ => Iff.rfl, nodup_nil, rfl, by simp, by simp⟩

/-- An item with a new key. -/
theorem Merged.append (h : Merged key weight seen merged) (fresh : key x ∉ seen.map key) :
    Merged key weight (seen ++ [x]) (merged ++ [x]) where
  keys k := by
    simp only [map_append, mem_append, h.keys]
  nodup := by
    rw [map_append, map_singleton]
    refine nodup_append.mpr ⟨h.nodup, nodup_singleton _, ?_⟩
    rintro k mem _ new rfl
    rw [mem_singleton] at new
    exact fresh ((h.keys _).mp (new ▸ mem))
  last := by simp
  attained y mem := by
    rw [mem_append, mem_singleton] at mem
    obtain mem | rfl := mem
    · obtain ⟨z, mem, same⟩ := h.attained y mem
      exact ⟨z, mem_append_left _ mem, same⟩
    · exact ⟨y, mem_append_right _ (mem_singleton_self y), rfl, rfl⟩
  largest y mem z mem' same := by
    rw [mem_append, mem_singleton] at mem mem'
    obtain mem | rfl := mem
    · obtain mem' | rfl := mem'
      · exact h.largest y mem z mem' same
      · exact absurd ((h.keys _).mp (same ▸ mem_map_of_mem mem)) fresh
    · obtain mem' | rfl := mem'
      · exact absurd (same ▸ mem_map_of_mem mem') fresh
      · exact le_rfl

/-- An item with the key of the last one. -/
theorem Merged.replace (h : Merged key weight seen (merged ++ [y])) (same : key y = key x)
    (key_merge : key (merge y x) = key y)
    (weight_merge : weight (merge y x) = max (weight y) (weight x)) :
    Merged key weight (seen ++ [x]) (merged ++ [merge y x]) := by
  have mapped : (merged ++ [merge y x]).map key = (merged ++ [y]).map key := by
    simp [key_merge]
  have apart (z : α) (mem : z ∈ merged) : key z ≠ key y := by
    have nodup := h.nodup
    rw [map_append, map_singleton] at nodup
    exact (nodup_append.mp nodup).2.2 _ (mem_map_of_mem mem) _ (mem_singleton_self _)
  have inside : key x ∈ seen.map key := (h.keys _).mp (by simp [same])
  refine ⟨fun k => ?_, by rw [mapped]; exact h.nodup, by simp [key_merge, same], ?_, ?_⟩
  · rw [mapped, h.keys, map_append, mem_append, map_singleton, mem_singleton]
    refine ⟨.inl, ?_⟩
    rintro (mem | rfl)
    · exact mem
    · exact inside
  · intro z mem
    rw [mem_append, mem_singleton] at mem
    obtain mem | rfl := mem
    · obtain ⟨w, mem, equal⟩ := h.attained z (mem_append_left _ mem)
      exact ⟨w, mem_append_left _ mem, equal⟩
    · rw [weight_merge, key_merge]
      obtain le | le := le_total (weight y) (weight x)
      · exact ⟨x, mem_append_right _ (mem_singleton_self x), same.symm,
          (max_eq_right le).symm⟩
      · obtain ⟨w, mem, equal, weights⟩ :=
          h.attained y (mem_append_right _ (mem_singleton_self y))
        exact ⟨w, mem_append_left _ mem, equal, weights.trans (max_eq_left le).symm⟩
  · intro z mem w mem' equal
    rw [mem_append, mem_singleton] at mem mem'
    obtain mem | rfl := mem
    · obtain mem' | rfl := mem'
      · exact h.largest z (mem_append_left _ mem) w mem' equal
      · exact absurd (equal.symm.trans same.symm) (apart z mem)
    · rw [weight_merge]
      rw [key_merge] at equal
      obtain mem' | rfl := mem'
      · have le := h.largest y (mem_append_right _ (mem_singleton_self y)) w mem' equal
        exact le.trans (le_max_left _ _)
      · exact le_max_right _ _

variable [DecidableEq κ]

/-- Merge the item into the last one if they have the same key, else append it. -/
def mergeLast (key : α → κ) (merge : α → α → α) (merged : List α) (x : α) : List α :=
  match merged.getLast? with
  | some last =>
      if key last = key x then merged.dropLast ++ [merge last x] else merged ++ [x]
  | none => merged ++ [x]

theorem mergeLast_concat (merged : List α) (y x : α) : mergeLast key merge (merged ++ [y]) x =
    if key y = key x then merged ++ [merge y x] else merged ++ [y] ++ [x] := by
  simp only [mergeLast, getLast?_concat, dropLast_concat]

/-- Where equal keys are neighbours, one item is left for each key. -/
theorem merged_foldl [PartialOrder κ]
    (key_merge : ∀ y x, key y = key x → key (merge y x) = key y)
    (weight_merge : ∀ y x, weight (merge y x) = max (weight y) (weight x))
    (sorted : (xs.map key).Pairwise (· ≤ ·)) :
    Merged key weight xs (xs.foldl (mergeLast key merge) []) := by
  induction xs using reverseRecOn with
  | nil => exact merged_nil
  | append_singleton xs x ih =>
      rw [map_append, map_singleton, pairwise_append] at sorted
      have h := ih sorted.1
      rw [foldl_append, foldl_cons, foldl_nil]
      generalize xs.foldl (mergeLast key merge) [] = merged at h
      have before (k : κ) (mem : k ∈ xs.map key) : k ≤ key x :=
        sorted.2.2 k mem _ (mem_singleton_self _)
      cases merged using reverseRecOn with
      | nil =>
          refine h.append fun mem => ?_
          exact not_mem_nil ((h.keys _).mpr mem)
      | append_singleton merged y =>
          rw [mergeLast_concat]
          by_cases same : key y = key x
          · rw [if_pos same]
            exact h.replace same (key_merge y x same) (weight_merge y x)
          · rw [if_neg same]
            refine h.append fun mem => same ?_
            -- The last key that was seen lies between the same key further back and this one.
            have last := h.last
            rw [getLast?_concat, Option.map_some] at last
            obtain ⟨z, ends, equal⟩ := Option.map_eq_some_iff.mp last.symm
            obtain ⟨front, rfl⟩ := getLast?_eq_some_iff.mp ends
            have le : key x ≤ key z := by
              rw [map_append, map_singleton, pairwise_append] at sorted
              rw [map_append, map_singleton, mem_append] at mem
              obtain mem | mem := mem
              · exact sorted.1.2.2 _ mem _ (mem_singleton_self _)
              · rw [mem_singleton.mp mem]
            have ge : key z ≤ key x := before _ (by simp)
            rw [← equal]
            exact ge.antisymm le

end Merging

end Aegis.Foundation
