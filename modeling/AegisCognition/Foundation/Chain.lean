import Mathlib.Data.List.Chain
import Mathlib.Data.Set.Card
import Mathlib.Data.Set.Finite.Lattice
import Mathlib.Logic.Relation
import Mathlib.Order.CompletePartialOrder
import AegisCognition.Foundation.Machine

/-!
# Chains and what lies behind an item

Each item has a list of items that may come after it, and a weight. Where no chain goes on for
ever, the heaviest chain that starts at an item weighs as much as the item and the heaviest chain
behind it. A computation that follows this equation and stops at a bound yields the smaller of the
weight and the bound.

The items behind an item are those that some chain from it reaches. Where no item comes after two
others, nothing lies behind two items that come after the same one, and so they can be counted
item by item.
-/

namespace Aegis.Foundation

open List

universe u

variable {α : Type u}

/-! ### The greatest number of a list -/

theorem foldl_max_le_iff {numbers : List Nat} {first limit : Nat} :
    numbers.foldl max first ≤ limit ↔ first ≤ limit ∧ ∀ number ∈ numbers, number ≤ limit := by
  induction numbers generalizing first with
  | nil => simp
  | cons number numbers ih =>
      rw [foldl_cons, ih, forall_mem_cons, Nat.max_le, and_assoc]

theorem foldl_max_mem (numbers : List Nat) (first : Nat) :
    numbers.foldl max first = first ∨ numbers.foldl max first ∈ numbers := by
  induction numbers generalizing first with
  | nil => exact .inl rfl
  | cons number numbers ih =>
      rw [foldl_cons, mem_cons]
      obtain same | mem := ih (max first number)
      · rw [same]
        obtain le | le := Nat.le_total first number
        · exact .inr (.inl (Nat.max_eq_right le))
        · exact .inl (Nat.max_eq_left le)
      · exact .inr (.inr mem)

/-- Stopping each number at the bound stops the greatest one there. -/
theorem foldl_max_min (bound : Nat) (weight : α → Nat) (items : List α) (first : Nat) :
    (items.map fun item => min (weight item) bound).foldl max (min first bound) =
      min ((items.map weight).foldl max first) bound := by
  induction items generalizing first with
  | nil => rfl
  | cons item items ih =>
      rw [map_cons, map_cons, foldl_cons, foldl_cons, ← ih]
      have step : max (min first bound) (min (weight item) bound) =
          min (max first (weight item)) bound := by omega
      rw [step]

theorem foldl_saturatingAdd (bound : Nat) (weight : α → Nat) (items : List α) (first : Nat) :
    items.foldl (fun total item => saturatingAdd bound total (weight item)) (min first bound) =
      min (first + (items.map weight).sum) bound := by
  induction items generalizing first with
  | nil => simp
  | cons item items ih =>
      have step : saturatingAdd bound (min first bound) (weight item) =
          min (first + weight item) bound := by
        rw [saturatingAdd]
        omega
      rw [foldl_cons, step, ih, map_cons, sum_cons, Nat.add_assoc]

/-- In a sum that stops at a bound, the parts may stop at it as well. -/
theorem min_sum_min (bound : Nat) (weight extra : α → Nat) (items : List α) :
    min (items.map fun item => min (weight item) bound + extra item).sum bound =
      min (items.map fun item => weight item + extra item).sum bound := by
  induction items with
  | nil => rfl
  | cons item items ih =>
      rw [map_cons, sum_cons, map_cons, sum_cons]
      omega

/-! ### Chains -/

variable {after : α → List α} {weight : α → Nat} {bound : Nat}

/-- The weights of the chains that start at an item. -/
def ChainWeights (after : α → List α) (weight : α → Nat) (a : α) : Set Nat :=
  { total | ∃ rest, List.IsChain (fun a b => b ∈ after a) (a :: rest) ∧
    total = ((a :: rest).map weight).sum }

section Heaviest

variable (wf : WellFounded fun b a => b ∈ after a)

/-- The weight of an item, with the greatest one of those that come after it. -/
noncomputable def heaviest (weight : α → Nat) : α → Nat :=
  wf.fix fun a rest =>
    weight a + ((after a).attach.map fun b => rest b.1 b.2).foldl max 0

theorem heaviest_eq (a : α) : heaviest wf weight a =
    weight a + ((after a).map (heaviest wf weight)).foldl max 0 := by
  rw [heaviest, WellFounded.fix_eq]
  show weight a + ((after a).attach.map fun b => heaviest wf weight b.1).foldl max 0 = _
  rw [attach_map_val]
  rfl

theorem isGreatest_heaviest (a : α) :
    IsGreatest (ChainWeights after weight a) (heaviest wf weight a) := by
  induction a using wf.induction with
  | _ a ih =>
      rw [heaviest_eq]
      constructor
      · obtain none_after | mem := foldl_max_mem ((after a).map (heaviest wf weight)) 0
        · rw [none_after]
          exact ⟨[], .singleton a, by simp⟩
        · obtain ⟨b, comes, same⟩ := mem_map.mp mem
          obtain ⟨rest, chain, total⟩ := (ih b comes).1
          refine ⟨b :: rest, .cons_cons comes chain, ?_⟩
          rw [← same, total, ← sum_cons, ← map_cons]
      · rintro total ⟨rest, chain, rfl⟩
        rw [map_cons, sum_cons]
        apply Nat.add_le_add_left
        cases rest with
        | nil => exact Nat.zero_le _
        | cons b rest =>
            obtain ⟨comes, chain⟩ := isChain_cons_cons.mp chain
            have below : ((b :: rest).map weight).sum ≤ heaviest wf weight b :=
              (ih b comes).2 ⟨rest, chain, rfl⟩
            apply below.trans
            have all := foldl_max_le_iff.mp (Nat.le_refl
              (((after a).map (heaviest wf weight)).foldl max 0))
            exact all.2 _ (mem_map_of_mem comes)

/-- The equation of the heaviest chains, where sums stop at a bound. -/
theorem min_heaviest_eq (a : α) : min (heaviest wf weight a) bound =
    saturatingAdd bound
      (((after a).map fun b => min (heaviest wf weight b) bound).foldl max 0) (weight a) := by
  have stopped := foldl_max_min bound (heaviest wf weight) (after a) 0
  rw [Nat.zero_min] at stopped
  rw [stopped, heaviest_eq, saturatingAdd]
  omega

/-- What follows the equation of the heaviest chains, but stops at a bound. -/
theorem eq_min_heaviest (inside : α → Prop) (value : α → Nat)
    (closed : ∀ a, inside a → ∀ b ∈ after a, inside b)
    (step : ∀ a, inside a →
      value a = saturatingAdd bound (((after a).map value).foldl max 0) (weight a))
    {a : α} (start : inside a) : value a = min (heaviest wf weight a) bound := by
  induction a using wf.induction with
  | _ a ih =>
      have later : (after a).map value =
          (after a).map fun b => min (heaviest wf weight b) bound :=
        map_congr_left fun b comes => ih b comes (closed a start b comes)
      rw [step a start, later, ← min_heaviest_eq]

end Heaviest

/-! ### Chains of related items -/

section Related

variable {β : Type*} {r : α → β → Prop} {s : α → α → Prop} {t : β → β → Prop}
variable {xs chain : List α} {ys other : List β}

theorem exists_forall₂_of_subset (related : ∀ x ∈ xs, ∃ y ∈ ys, r x y) (inside : chain ⊆ xs) :
    ∃ other, other ⊆ ys ∧ List.Forall₂ r chain other := by
  induction chain with
  | nil => exact ⟨[], nil_subset _, .nil⟩
  | cons x chain ih =>
      obtain ⟨mem, inside⟩ := cons_subset.mp inside
      obtain ⟨y, listed, first⟩ := related x mem
      obtain ⟨other, rest, all⟩ := ih inside
      exact ⟨y :: other, cons_subset.mpr ⟨listed, rest⟩, .cons first all⟩

/-- A chain of items is one of the items they are related to. -/
theorem isChain_of_forall₂ (keeps : ∀ x y x' y', r x y → r x' y' → s x x' → t y y')
    (h : List.Forall₂ r chain other) (linked : chain.IsChain s) : other.IsChain t := by
  induction h with
  | nil => exact .nil
  | cons first rest ih =>
      cases rest with
      | nil => exact .singleton _
      | cons second rest =>
          rw [isChain_cons_cons] at linked ⊢
          exact ⟨keeps _ _ _ _ first second linked.1, ih linked.2⟩

end Related

/-! ### What lies behind an item -/

section Behind

open Relation

variable {r : α → α → Prop} {p : α → Prop} {a b c : α}

/-- The items with a property that some chain from an item reaches. -/
def Behind (r : α → α → Prop) (p : α → Prop) (a : α) : Set α :=
  { b | TransGen r a b ∧ p b }

/-- A chain goes on from one of the items that come after its first. -/
theorem transGen_iff_head : TransGen r a c ↔ ∃ b, r a b ∧ (c = b ∨ TransGen r b c) := by
  rw [TransGen.head'_iff]
  simp only [reflTransGen_iff_eq_or_transGen]

theorem behind_eq (comes : ∀ b, r a b ↔ b ∈ after a) :
    Behind r p a = ⋃ b ∈ after a, (Behind r p b ∪ { c | c = b ∧ p c }) := by
  apply Set.ext
  intro c
  rw [Set.mem_iUnion₂]
  constructor
  · rintro ⟨path, holds⟩
    obtain ⟨b, first, same | path⟩ := transGen_iff_head.mp path
    · exact ⟨b, (comes b).mp first, .inr ⟨same, holds⟩⟩
    · exact ⟨b, (comes b).mp first, .inl ⟨path, holds⟩⟩
  · rintro ⟨b, mem, ⟨path, holds⟩ | ⟨same, holds⟩⟩
    · exact ⟨transGen_iff_head.mpr ⟨b, (comes b).mpr mem, .inr path⟩, holds⟩
    · exact ⟨transGen_iff_head.mpr ⟨b, (comes b).mpr mem, .inl same⟩, holds⟩

/-- Where no item comes after two others and no chain returns, two items that come after the same
one lead to different items. -/
theorem no_common_descendant (unique : ∀ a b c, r a c → r b c → a = b)
    (acyclic : ∀ a, ¬ TransGen r a a) (hb : r a b) (hc : r a c) (apart : b ≠ c) {x : α}
    (fromB : ReflTransGen r b x) (fromC : ReflTransGen r c x) : False := by
  -- The one of the two that lies behind the other also lies behind itself.
  have absurd_path {b c : α} (hb : r a b) (hc : r a c) (apart : b ≠ c)
      (path : ReflTransGen r b c) : False := by
    obtain same | path := reflTransGen_iff_eq_or_transGen.mp path
    · exact apart same.symm
    · obtain ⟨d, path, last⟩ := TransGen.tail'_iff.mp path
      rw [unique d a c last hc] at path
      exact acyclic a (TransGen.head' hb path)
  have rightUnique : Relator.RightUnique (Function.swap r) := fun c a b ha hb =>
    unique a b c ha hb
  obtain path | path := ReflTransGen.total_of_right_unique rightUnique fromB.swap fromC.swap
  · exact absurd_path hc hb apart.symm (reflTransGen_swap.mp path)
  · exact absurd_path hb hc apart (reflTransGen_swap.mp path)

theorem ncard_iUnion_list {sets : α → Set α} {items : List α} (nodup : items.Nodup)
    (finite : ∀ b, (sets b).Finite)
    (disjoint : ∀ b ∈ items, ∀ c ∈ items, b ≠ c → Disjoint (sets b) (sets c)) :
    (⋃ b ∈ items, sets b).ncard = (items.map fun b => (sets b).ncard).sum := by
  induction items with
  | nil => simp
  | cons b items ih =>
      obtain ⟨fresh, nodup⟩ := nodup_cons.mp nodup
      have first : ⋃ c ∈ b :: items, sets c = sets b ∪ ⋃ c ∈ items, sets c := by
        simp only [mem_cons, Set.iUnion_iUnion_eq_or_left]
      have rest_finite : (⋃ c ∈ items, sets c).Finite :=
        Set.Finite.biUnion (finite_toSet items) fun c _ => finite c
      have apart : Disjoint (sets b) (⋃ c ∈ items, sets c) := by
        apply Set.disjoint_iUnion₂_right.mpr
        intro c mem
        apply disjoint b mem_cons_self c (mem_cons_of_mem _ mem)
        rintro rfl
        exact fresh mem
      rw [first, Set.ncard_union_eq apart (finite b) rest_finite, map_cons, sum_cons,
        ih nodup fun c hc d hd => disjoint c (mem_cons_of_mem _ hc) d
          (mem_cons_of_mem _ hd)]

/-- Counting what lies behind an item by the items that come after it. -/
theorem ncard_behind [DecidablePred p] (comes : ∀ b, r a b ↔ b ∈ after a)
    (nodup : (after a).Nodup) (finite : ∀ b, (Behind r p b).Finite)
    (unique : ∀ a b c, r a c → r b c → a = b) (acyclic : ∀ a, ¬ TransGen r a a) :
    (Behind r p a).ncard =
      ((after a).map fun b => (Behind r p b).ncard + if p b then 1 else 0).sum := by
  have single (b : α) : { c | c = b ∧ p c } = if p b then {b} else ∅ := by
    apply Set.ext
    intro c
    split <;> rename_i holds
    · simp only [Set.mem_ofPred_eq, Set.mem_singleton_iff, and_iff_left_iff_imp]
      rintro rfl
      exact holds
    · simp only [Set.mem_ofPred_eq, Set.mem_empty_iff_false, iff_false, not_and]
      rintro rfl
      exact holds
  have single_finite (b : α) : { c | c = b ∧ p c }.Finite :=
    (Set.finite_singleton b).subset fun _ h => h.1
  have reaches {b c : α} (mem : c ∈ Behind r p b ∪ { c | c = b ∧ p c }) :
      ReflTransGen r b c := by
    obtain ⟨path, -⟩ | ⟨rfl, -⟩ := mem
    · exact path.to_reflTransGen
    · exact .refl
  rw [behind_eq comes, ncard_iUnion_list nodup fun b => (finite b).union (single_finite b)]
  · apply congrArg List.sum
    apply map_congr_left
    intro b _
    have apart : Disjoint (Behind r p b) { c | c = b ∧ p c } := by
      apply Set.disjoint_left.mpr
      rintro c ⟨path, -⟩ ⟨rfl, -⟩
      exact acyclic c path
    rw [Set.ncard_union_eq apart (finite b) (single_finite b), single]
    split <;> simp
  · intro b hb c hc apart
    apply Set.disjoint_left.mpr
    intro x fromB fromC
    exact no_common_descendant unique acyclic ((comes b).mpr hb) ((comes c).mpr hc) apart
      (reaches fromB) (reaches fromC)

end Behind

end Aegis.Foundation
