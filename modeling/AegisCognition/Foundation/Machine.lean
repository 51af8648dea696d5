import Mathlib.Algebra.BigOperators.Group.List.Basic
import Mathlib.Algebra.GroupWithZero.Nat
import Mathlib.Order.Lattice
import Mathlib.Order.MinMax

/-!
# Bounded machine arithmetic over natural numbers

An unsigned machine integer is carried as the natural number it denotes, and each
operation names the largest representable value explicitly. Checked operations
return `none` past the bound; saturating operations stop at it. Saturating
subtraction of unsigned values is ordinary truncated subtraction and needs no
definition of its own.
-/

namespace Aegis.Foundation

section Integers

/-- The largest `u8`. -/
abbrev u8Max : Nat := 2 ^ 8 - 1

/-- The largest `u32`. -/
abbrev u32Max : Nat := 2 ^ 32 - 1

/-- The largest `u64`, also the largest `usize` of the 64-bit targets. -/
abbrev u64Max : Nat := 2 ^ 64 - 1

/-- The largest `u128`. -/
abbrev u128Max : Nat := 2 ^ 128 - 1

/-- The numbers of 32 bits with a sign. -/
def IsI32 (value : Int) : Prop :=
  -2 ^ 31 ≤ value ∧ value < 2 ^ 31

instance : DecidablePred IsI32 := fun _ => inferInstanceAs (Decidable (_ ∧ _))

def checkedAdd (bound a b : Nat) : Option Nat :=
  if a + b ≤ bound then some (a + b) else none

def saturatingAdd (bound a b : Nat) : Nat :=
  min (a + b) bound

def saturatingMul (bound a b : Nat) : Nat :=
  min (a * b) bound

variable {bound a b c : Nat}

theorem checkedAdd_eq_some_iff : checkedAdd bound a b = some c ↔ a + b ≤ bound ∧ c = a + b := by
  unfold checkedAdd
  split <;> simp_all [eq_comm]

theorem checkedAdd_isSome_le : (checkedAdd bound a b).any (· ≤ c) ↔ a + b ≤ bound ∧ a + b ≤ c := by
  unfold checkedAdd
  split <;> simp_all

theorem not_checkedAdd_all_lt :
    ¬ (checkedAdd bound a b).all (c < ·) = true ↔ a + b ≤ bound ∧ a + b ≤ c := by
  unfold checkedAdd
  split <;> simp_all

theorem checkedAdd_getD (h : a + b ≤ bound) : (checkedAdd bound a b).getD bound = a + b := by
  simp [checkedAdd, h]

theorem saturatingAdd_of_le (h : a + b ≤ bound) : saturatingAdd bound a b = a + b :=
  Nat.min_eq_left h

theorem saturatingAdd_le : saturatingAdd bound a b ≤ bound :=
  Nat.min_le_right _ _

end Integers

/-! ## Sums whose running totals are bounded

A sum that is given up as soon as a running total leaves a range is the exact sum if it is not
given up. Its value does not depend on the order of the terms, but whether there is one does. -/

section BoundedSum

universe u

variable {G : Type u} [AddCommGroup G] {fits : G → Prop}
variable {start total term : G} {terms other : List G}

/-- Add a term, if the total stays in the range. -/
def boundedAdd (fits : G → Prop) [DecidablePred fits] (total term : G) : Option G :=
  if fits (total + term) then some (total + term) else none

/-- Add the terms one after the other. -/
def boundedSum (fits : G → Prop) [DecidablePred fits] (start : G) (terms : List G) : Option G :=
  terms.foldlM (boundedAdd fits) start

/-- All running totals are in the range. -/
def RunningTotalsFit (fits : G → Prop) (start : G) (terms : List G) : Prop :=
  ∀ count ≤ terms.length, fits (start + (terms.take count).sum)

theorem runningTotalsFit_nil : RunningTotalsFit fits start [] ↔ fits start := by
  simp [RunningTotalsFit]

theorem runningTotalsFit_cons : RunningTotalsFit fits start (term :: terms) ↔
    fits start ∧ RunningTotalsFit fits (start + term) terms := by
  constructor
  · intro h
    refine ⟨by simpa using h 0 (Nat.zero_le _), fun count le => ?_⟩
    have next := h (count + 1) (by simpa using le)
    rwa [List.take_succ_cons, List.sum_cons, ← add_assoc] at next
  · rintro ⟨first, rest⟩ count le
    cases count with
    | zero => simpa using first
    | succ count =>
        rw [List.take_succ_cons, List.sum_cons, ← add_assoc]
        exact rest count (by simpa using le)

theorem RunningTotalsFit.start_fits (h : RunningTotalsFit fits start terms) : fits start := by
  simpa using h 0 (Nat.zero_le _)

variable [DecidablePred fits]

instance : Decidable (RunningTotalsFit fits start terms) :=
  inferInstanceAs (Decidable (∀ count ≤ terms.length, fits _))

theorem boundedAdd_zero (h : fits total) : boundedAdd fits total 0 = some total := by
  rw [boundedAdd, add_zero, if_pos h]

theorem boundedAdd_eq_some_iff :
    boundedAdd fits total term = some start ↔ fits (total + term) ∧ total + term = start := by
  rw [boundedAdd]
  split <;> simp_all

@[simp] theorem boundedSum_nil : boundedSum fits start [] = some start := rfl

theorem boundedSum_cons : boundedSum fits start (term :: terms) =
    boundedAdd fits start term >>= fun next => boundedSum fits next terms := rfl

theorem boundedSum_eq (h : fits start) : boundedSum fits start terms =
    if RunningTotalsFit fits start terms then some (start + terms.sum) else none := by
  induction terms generalizing start with
  | nil => simp [runningTotalsFit_nil, h]
  | cons term terms ih =>
      rw [boundedSum_cons, boundedAdd]
      by_cases next : fits (start + term)
      · rw [if_pos next, Option.bind_eq_bind, Option.bind_some, ih next, List.sum_cons, ← add_assoc]
        simp only [runningTotalsFit_cons, h, true_and]
      · have out : ¬ RunningTotalsFit fits start (term :: terms) := fun rest =>
          next (runningTotalsFit_cons.mp rest).2.start_fits
        rw [if_neg next, if_neg out]
        rfl

/-- A term and its inverse cancel out, if the total between them is in the range. -/
theorem boundedSum_cancel (h : fits total) : boundedSum fits total [term, -term] =
    if fits (total + term) then some total else none := by
  have back : total + (term + (-term + 0)) = total := by rw [add_zero, add_neg_cancel, add_zero]
  rw [boundedSum_eq h, List.sum_cons, List.sum_cons, List.sum_nil, back]
  simp only [runningTotalsFit_cons, runningTotalsFit_nil, add_neg_cancel_right, h, true_and,
    and_true]

end BoundedSum

end Aegis.Foundation
