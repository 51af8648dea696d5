import AegisCognition.Foundation.OrderedMap
import Mathlib.Data.List.Induction

/-!
# Groups

The items of a list that count are put into groups by their keys, in the order of the list. A group
holds the items with its key, so the order of the list only decides on the order within the groups.
-/

namespace Aegis.Foundation

open Std OrderedMap List ExtTreeMap

universe u v w

section Groups

variable {κ : Type u} {α : Type v} {cmp : κ → κ → Ordering} [TransCmp cmp]
variable (cmp) (counts : α → Bool) (key : α → κ)

def addToGroups (groups : ExtTreeMap κ (List α) cmp) (item : α) : ExtTreeMap κ (List α) cmp :=
  if counts item then groups.insert (key item) (groups[key item]?.getD [] ++ [item]) else groups

def groupItems (items : List α) : ExtTreeMap κ (List α) cmp :=
  items.foldl (addToGroups cmp counts key) ∅

/-- The items that count and have this key. -/
def itemsFor [BEq κ] (own : κ) (items : List α) : List α :=
  items.filter fun item => counts item && key item == own

theorem itemsFor_perm {counts : α → Bool} {key : α → κ} [BEq κ] {other items : List α}
    (perm : other.Perm items) (own : κ) :
    (itemsFor counts key own other).Perm (itemsFor counts key own items) :=
  perm.filter _

variable {cmp counts key} [LawfulEqCmp cmp] [BEq κ] [LawfulBEq κ] {items : List α} {own : κ}

theorem mem_itemsFor {item : α} :
    item ∈ itemsFor counts key own items ↔ item ∈ items ∧ counts item = true ∧ key item = own := by
  rw [itemsFor, mem_filter, Bool.and_eq_true, beq_iff_eq]

theorem groupItems_getElem? (items : List α) (own : κ) :
    (groupItems cmp counts key items)[own]? =
      if itemsFor counts key own items = [] then none
      else some (itemsFor counts key own items) := by
  induction items using reverseRecOn with
  | nil => simp [groupItems, itemsFor]
  | append_singleton items item ih =>
      rw [groupItems, foldl_append, foldl_cons, foldl_nil, ← groupItems, addToGroups]
      by_cases counted : counts item = true
      · rw [if_pos counted]
        by_cases same : key item = own
        · subst same
          have grown : itemsFor counts key (key item) (items ++ [item]) =
              itemsFor counts key (key item) items ++ [item] := by
            simp [itemsFor, counted]
          rw [grown, getElem?_insert_self, ih]
          split
          · next empty => simp [empty]
          · simp
        · have kept :
              itemsFor counts key own (items ++ [item]) = itemsFor counts key own items := by
            simp [itemsFor, same]
          rw [kept, getElem?_insert_of_ne same, ih]
      · have kept : itemsFor counts key own (items ++ [item]) = itemsFor counts key own items := by
          simp [itemsFor, counted]
        rw [if_neg counted, kept, ih]

/-- The groups are those of the items that count, and none is empty. -/
theorem mem_groupItems {group : κ × List α} : group ∈ (groupItems cmp counts key items).toList ↔
    group.2 = itemsFor counts key group.1 items ∧ group.2 ≠ [] := by
  obtain ⟨own, members⟩ := group
  rw [mem_toList_iff_getElem?_eq_some, groupItems_getElem?]
  split
  · next empty => simp [empty]
  · next some_item =>
      rw [Option.some.injEq]
      constructor
      · rintro rfl
        exact ⟨rfl, some_item⟩
      · exact fun h => h.1.symm

/-- A group that is larger than the number of marked entries has one that is not marked. -/
theorem exists_unmarked {β : Type w} {entries : List β} {item : β → α} {marked : β → Bool}
    {limit : Nat} (few : entries.countP marked ≤ limit)
    (enough : limit < (itemsFor counts key own (entries.map item)).length) :
    ∃ entry ∈ entries, marked entry = false ∧ counts (item entry) = true ∧
      key (item entry) = own := by
  by_contra! all_marked
  have counted : (itemsFor counts key own (entries.map item)).length =
      entries.countP fun entry => counts (item entry) && key (item entry) == own := by
    rw [itemsFor, ← countP_eq_length_filter, countP_map]
    rfl
  have fewer := countP_mono_left (l := entries)
    (p := fun entry => counts (item entry) && key (item entry) == own) (q := marked)
    fun entry mem inside => by
      rw [Bool.and_eq_true, beq_iff_eq] at inside
      by_contra unmarked
      exact all_marked entry mem (Bool.not_eq_true _ ▸ unmarked) inside.1 inside.2
  omega

end Groups

/-! ### The first entry of a kind -/

section First

variable {κ : Type u} {β : Type v} {cmp : κ → κ → Ordering} [TransCmp cmp] [LawfulEqCmp cmp]
variable {entries : ExtTreeMap κ β cmp} {p : κ × β → Bool} {entry : κ × β}

/-- The first entry of a kind has the least key of them. -/
theorem find?_toList_eq_some_iff : entries.toList.find? p = some entry ↔
    entry ∈ entries.toList ∧ p entry = true ∧
      ∀ other ∈ entries.toList, p other = true → cmp other.1 entry.1 ≠ .lt := by
  have least {found : κ × β} (h : entries.toList.find? p = some found) :
      ∀ other ∈ entries.toList, p other = true → cmp other.1 found.1 ≠ .lt := by
    obtain ⟨-, before, after, split, others⟩ := List.find?_eq_some_iff_append.mp h
    have ordered := entries.ordered_keys_toList
    rw [split, pairwise_append, pairwise_cons] at ordered
    intro other mem kind
    rw [split] at mem
    rcases mem_append.mp mem with mem | mem
    · exact absurd kind (by simpa using others other mem)
    rcases mem_cons.mp mem with rfl | mem
    · have self : cmp other.1 other.1 = .eq := ReflCmp.compare_self
      rw [self]
      exact nofun
    · have less : cmp found.1 other.1 = .lt := ordered.2.1.1 other mem
      have swapped : cmp other.1 found.1 = .gt := OrientedCmp.gt_iff_lt.mpr less
      rw [swapped]
      exact nofun
  constructor
  · intro h
    exact ⟨mem_of_find?_eq_some h, List.find?_some h, least h⟩
  · rintro ⟨mem, kind, smallest⟩
    obtain ⟨found, h⟩ := Option.isSome_iff_exists.mp
      (List.find?_isSome.mpr ⟨entry, mem, kind⟩)
    have found_mem := mem_of_find?_eq_some h
    have notLess := least h entry mem kind
    have notLess' := smallest found found_mem (List.find?_some h)
    have same : found.1 = entry.1 := by
      cases order : cmp found.1 entry.1 with
      | lt => exact absurd order notLess'
      | eq => exact LawfulEqCmp.eq_of_compare order
      | gt => exact absurd (OrientedCmp.gt_iff_lt.mp order) notLess
    rw [mem_toList_iff_getElem?_eq_some] at mem found_mem
    rw [same, mem, Option.some.injEq] at found_mem
    rw [h, Option.some.injEq]
    exact Prod.ext same found_mem.symm

end First

end Aegis.Foundation
