import Mathlib.Data.List.Nodup
import Mathlib.Data.List.Sort

/-!
# Tables as lists of rows

A table of a relational store is the list of its rows in insertion order. An update
rewrites the rows that meet a condition and keeps the others; an insertion appends a row
whose key is not in use. The lemmas say what an update leaves alone: whatever the
rewriting of one row keeps, the update of the table keeps.
-/

namespace Aegis.Foundation

open List

section Rows

universe u v w

variable {α : Type u} {κ : Type v} {β : Type w}
variable {p q : α → Bool} {f : α → α} {key : α → κ} {rows : List α} {row other : α}

/-- `UPDATE ... SET f WHERE p`. -/
def updateWhere (p : α → Bool) (f : α → α) (rows : List α) : List α :=
  rows.map fun row => if p row then f row else row

theorem mem_updateWhere :
    other ∈ updateWhere p f rows ↔ ∃ row ∈ rows, other = if p row then f row else row := by
  rw [updateWhere, mem_map]
  exact exists_congr fun row => and_congr_right fun _ => eq_comm

theorem mem_updateWhere_of_mem (h : row ∈ rows) :
    (if p row then f row else row) ∈ updateWhere p f rows :=
  mem_updateWhere.mpr ⟨row, h, rfl⟩

theorem forall_mem_updateWhere {P : α → Prop} (all : ∀ row ∈ rows, P row)
    (kept : ∀ row ∈ rows, p row → P row → P (f row)) : ∀ row ∈ updateWhere p f rows, P row := by
  intro other mem
  obtain ⟨row, here, rfl⟩ := mem_updateWhere.mp mem
  split
  · exact kept row here ‹_› (all row here)
  · exact all row here

theorem updateWhere_congr {g : α → α} (same : ∀ row, p row = true → f row = g row) :
    updateWhere p f rows = updateWhere p g rows := by
  apply map_congr_left
  intro row _
  split
  · exact same row ‹_›
  · rfl

/-- A column that the rewriting of a row keeps is kept by the update of the table. -/
theorem map_updateWhere (keeps : ∀ row, key (f row) = key row) :
    (updateWhere p f rows).map key = rows.map key := by
  rw [updateWhere, map_map]
  apply map_congr_left
  intro row _
  simp only [Function.comp]
  split
  · exact keeps row
  · rfl

theorem map_updateWhere_view {view : α → β} {p' : β → Bool} {f' : β → β}
    (selects : ∀ row, p row = p' (view row)) (writes : ∀ row, view (f row) = f' (view row)) :
    (updateWhere p f rows).map view = updateWhere p' f' (rows.map view) := by
  rw [updateWhere, updateWhere, map_map, map_map]
  apply map_congr_left
  intro row _
  simp only [Function.comp, ← selects, ← writes]
  split <;> rfl

theorem filter_updateWhere (keeps : ∀ row, q (f row) = q row) :
    (updateWhere p f rows).filter q = updateWhere p f (rows.filter q) := by
  induction rows with
  | nil => rfl
  | cons row rows ih =>
      have same : q (if p row then f row else row) = q row := by
        split
        · exact keeps row
        · rfl
      simp only [updateWhere, map_cons, filter_cons, same] at ih ⊢
      split <;> simp [ih]

theorem find?_updateWhere (keeps : ∀ row, q (f row) = q row) :
    (updateWhere p f rows).find? q =
      (rows.find? q).map fun row => if p row then f row else row := by
  induction rows with
  | nil => rfl
  | cons row rows ih =>
      have same : q (if p row then f row else row) = q row := by
        split
        · exact keeps row
        · rfl
      simp only [updateWhere, map_cons, List.find?_cons, same] at ih ⊢
      split
      · rfl
      · exact ih

/-- Two updates in a row, the first of some of the rows that the second rewrites. -/
theorem updateWhere_updateWhere {g : α → α} (keeps : ∀ row, p (f row) = p row) :
    updateWhere p g (updateWhere (fun row => p row && q row) f rows) =
      updateWhere p (fun row => g (if q row then f row else row)) rows := by
  rw [updateWhere, updateWhere, updateWhere, map_map]
  apply map_congr_left
  intro row _
  cases selected : p row <;> cases inner : q row <;> simp [selected, inner, keeps]

theorem updateWhere_eq_self (h : ∀ row ∈ rows, p row = false) : updateWhere p f rows = rows := by
  rw [updateWhere, map_congr_left (g := id), map_id]
  intro row mem
  simp [h row mem]

theorem eq_of_key_eq (unique : (rows.map key).Nodup) (first : row ∈ rows) (second : other ∈ rows)
    (same : key row = key other) : row = other :=
  inj_on_of_nodup_map unique first second same

theorem nodup_map_concat (unique : (rows.map key).Nodup)
    (fresh : ∀ other ∈ rows, key other ≠ key row) : ((rows ++ [row]).map key).Nodup := by
  rw [map_append, map_singleton, nodup_append]
  refine ⟨unique, nodup_singleton _, ?_⟩
  intro used mem k single
  obtain ⟨other, found, rfl⟩ := mem_map.mp mem
  rw [mem_singleton.mp single]
  exact fresh other found

theorem find?_eq_some_of_unique (unique : (rows.map key).Nodup) (mem : row ∈ rows)
    (meets : q row = true) (only : ∀ other ∈ rows, q other = true → key other = key row) :
    rows.find? q = some row := by
  cases found : rows.find? q with
  | none => simp [List.find?_eq_none.mp found row mem] at meets
  | some other =>
      have here := mem_of_find?_eq_some found
      rw [eq_of_key_eq unique here mem (only other here (List.find?_some found))]

theorem countP_eq_one_of_unique [DecidableEq κ] (unique : (rows.map key).Nodup)
    (mem : row ∈ rows) (meets : q row = true)
    (only : ∀ other ∈ rows, q other = true → key other = key row) : rows.countP q = 1 := by
  have some_row : 0 < rows.countP q := countP_pos_iff.mpr ⟨row, mem, meets⟩
  have by_key : rows.countP q ≤ (rows.map key).count (key row) := by
    rw [List.count, countP_map]
    exact countP_mono_left fun other here holds => beq_iff_eq.mpr (only other here holds)
  have := nodup_iff_count_le_one.mp unique (key row)
  omega

end Rows

/-! ## Association lists

Lists of keys and values, read by the first entry with a key. If the keys are distinct, such a
list is determined by what it holds up to the order of its entries, and sorting it by its keys
takes that order away. -/

end Aegis.Foundation
