import Mathlib.Data.List.Basic
import Mathlib.Data.List.GetD

/-!
# Passes over a table from its end

A pass writes the places of a table one after the other, from the last one to the first, and what
it writes at a place may depend on the places behind it. At the end every place holds what the
rule of the pass gives for the whole table. Two tables that are written side by side are written
each on its own.
-/

namespace Aegis.Foundation

open List

universe u v

variable {α : Type u} {β : Type v}

/-- Writing the first places of a table, from the last of them to the first. -/
def backwardPass (entry : List α → Nat → α) (places : Nat) (table : List α) : List α :=
  (List.range places).reverse.foldl (fun table place => table.set place (entry table place)) table

/-- What the rule gives at a place is decided by the places behind it. -/
def LooksAhead (default : α) (entry : List α → Nat → α) : Prop :=
  ∀ first second place,
    (∀ later, place < later → first.getD later default = second.getD later default) →
      entry first place = entry second place

variable {default : α} {entry : List α → Nat → α} {table : List α} {places place : Nat}

theorem backwardPass_succ : backwardPass entry (places + 1) table =
    backwardPass entry places (table.set places (entry table places)) := by
  rw [backwardPass, range_succ, reverse_append, reverse_singleton,
    singleton_append, foldl_cons]
  rfl

@[simp] theorem length_backwardPass : (backwardPass entry places table).length = table.length := by
  induction places generalizing table with
  | zero => rfl
  | succ places ih => rw [backwardPass_succ, ih, length_set]

theorem getD_set_of_ne {value : α} {other : Nat} (apart : place ≠ other) :
    (table.set place value).getD other default = table.getD other default := by
  rw [getD_eq_getElem?_getD, getD_eq_getElem?_getD, getElem?_set_ne apart]

theorem getD_set_self {value : α} (inside : place < table.length) :
    (table.set place value).getD place default = value := by
  rw [getD_eq_getElem?_getD, getElem?_set_self inside]
  rfl

/-- The places that a pass has already written stay as they are. -/
theorem getD_backwardPass_of_le (written : places ≤ place) :
    (backwardPass entry places table).getD place default = table.getD place default := by
  induction places generalizing table with
  | zero => rfl
  | succ places ih =>
      rw [backwardPass_succ, ih (by omega), getD_set_of_ne (by omega)]

/-- After the pass every place holds what the rule gives for the whole table. -/
theorem getD_backwardPass (ahead : LooksAhead default entry) (inside : places ≤ table.length)
    (place_lt : place < places) :
    (backwardPass entry places table).getD place default =
      entry (backwardPass entry places table) place := by
  induction places generalizing table with
  | zero => cases place_lt
  | succ places ih =>
      rw [backwardPass_succ]
      obtain here | before := Nat.lt_succ_iff_lt_or_eq.mp place_lt
      · apply ih _ here
        rw [length_set]
        omega
      · subst before
        rw [getD_backwardPass_of_le (Nat.le_refl _), getD_set_self (by omega)]
        apply ahead
        intro later behind
        rw [getD_backwardPass_of_le (by omega), getD_set_of_ne (by omega)]

theorem length_foldl_set {ι : Type*} {placeOf : ι → Nat} {value : ι → α} {items : List ι} :
    (items.foldl (fun table item => table.set (placeOf item) (value item)) table).length =
      table.length := by
  induction items generalizing table with
  | nil => rfl
  | cons first items ih => rw [foldl_cons, ih, length_set]

/-- A table that is written at the places of items that have different ones. -/
theorem getD_foldl_set {ι : Type*} {placeOf : ι → Nat} {value : ι → α} {items : List ι} {item : ι}
    (apart : (items.map placeOf).Nodup) (mem : item ∈ items)
    (inside : placeOf item < table.length) :
    (items.foldl (fun table item => table.set (placeOf item) (value item)) table).getD
      (placeOf item)
      default = value item := by
  have kept {items : List ι} {place : Nat} (unwritten : place ∉ items.map placeOf)
      (table : List α) :
      (items.foldl (fun table item => table.set (placeOf item) (value item)) table).getD place
        default = table.getD place default := by
    induction items generalizing table with
    | nil => rfl
    | cons first items ih =>
        rw [map_cons, mem_cons, not_or] at unwritten
        rw [foldl_cons, ih unwritten.2, getD_set_of_ne (Ne.symm unwritten.1)]
  induction items generalizing table with
  | nil => cases mem
  | cons first items ih =>
      rw [map_cons, nodup_cons] at apart
      rw [foldl_cons]
      obtain rfl | later := mem_cons.mp mem
      · rw [kept apart.1, getD_set_self inside]
      · exact ih apart.2 later (by rwa [length_set])

/-- Two tables side by side. -/
theorem foldl_set_pair (first : List α → Nat → α) (second : List β → Nat → β)
    (order : List Nat) (tables : List α × List β) :
    order.foldl (fun tables place =>
        (tables.1.set place (first tables.1 place), tables.2.set place (second tables.2 place)))
        tables =
      (order.foldl (fun table place => table.set place (first table place)) tables.1,
        order.foldl (fun table place => table.set place (second table place)) tables.2) := by
  induction order generalizing tables with
  | nil => rfl
  | cons place order ih => exact ih _

end Aegis.Foundation
