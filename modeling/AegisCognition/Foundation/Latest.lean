import Mathlib.Data.List.Basic
import Mathlib.Data.List.Induction

/-!
# The end of a history

A state machine that keeps the last value it has seen of some kind knows a place in its
history: the latest element of that kind, with everything before it and after it. Reading
one more element moves that place or leaves it where it was.
-/

namespace Aegis.Foundation

open List

section Latest

universe u

variable {ι : Type u} {p q : ι → Prop} {xs earlier later : List ι} {x y : ι}

/-- The list has `x` as its latest element with the property, after `earlier` and before
`later`. -/
structure Latest (p : ι → Prop) (xs earlier : List ι) (x : ι) (later : List ι) : Prop where
  split : xs = earlier ++ x :: later
  holds : p x
  none_later : ∀ y ∈ later, ¬ p y

theorem Latest.here (h : p x) : Latest p (xs ++ [x]) xs x [] :=
  ⟨rfl, h, nofun⟩

theorem Latest.past (h : Latest p xs earlier x later) (hy : ¬ p y) :
    Latest p (xs ++ [y]) earlier x (later ++ [y]) := by
  refine ⟨by rw [h.split, append_assoc, cons_append], h.holds, ?_⟩
  intro z hz
  obtain hz | hz := mem_append.mp hz
  · exact h.none_later z hz
  · obtain rfl := mem_singleton.mp hz
    exact hy

/-- A place in a list with one more element lies in the list or is the new element. -/
theorem snoc_split (h : xs ++ [y] = earlier ++ x :: later) :
    (∃ rest, later = rest ++ [y] ∧ xs = earlier ++ x :: rest) ∨
      later = [] ∧ x = y ∧ xs = earlier := by
  cases later using reverseRecOn with
  | nil =>
      obtain ⟨rfl, last⟩ := append_inj' h rfl
      exact .inr ⟨rfl, (List.cons.inj last).1.symm, rfl⟩
  | append_singleton rest z =>
      rw [← cons_append, ← append_assoc] at h
      obtain ⟨rfl, last⟩ := append_inj' h rfl
      exact .inl ⟨rest, by rw [(List.cons.inj last).1], rfl⟩

/-- Of two places in one list, the one with the longer part before it lies in the part
after the other. -/
theorem Latest.after {earlier' later' : List ι} (h : Latest p xs earlier x later)
    (h' : Latest q xs earlier' y later') (order : earlier.length < earlier'.length) :
    ∃ between, later = between ++ y :: later' := by
  have both : earlier ++ x :: later = earlier' ++ y :: later' := h.split.symm.trans h'.split
  obtain ⟨gap, rfl, rest⟩ | ⟨gap, rfl, -⟩ := append_eq_append_iff.mp both
  · cases gap with
    | nil => simp at order
    | cons z gap =>
        obtain ⟨-, rest⟩ := List.cons.inj rest
        exact ⟨gap, rest⟩
  · rw [length_append] at order
    omega

end Latest

/-! ## Streaks

A counter that goes up with every input of some kind and starts again with every other one counts
a streak: the inputs at the end of the history that are all of this kind. -/

section Streak

variable {α : Type} {p q : α → Prop} {n : Nat} {xs : List α} {x : α}

/-- The last `n` elements of the list have the property. -/
def EndsWith (p : α → Prop) (n : Nat) (xs : List α) : Prop :=
  ∃ earlier recent, xs = earlier ++ recent ∧ recent.length = n ∧ ∀ x ∈ recent, p x

theorem endsWith_zero (p : α → Prop) (xs : List α) : EndsWith p 0 xs :=
  ⟨xs, [], by simp, rfl, nofun⟩

theorem EndsWith.snoc (h : EndsWith p n xs) (holds : p x) : EndsWith p (n + 1) (xs ++ [x]) := by
  obtain ⟨earlier, recent, rfl, rfl, all⟩ := h
  refine ⟨earlier, recent ++ [x], append_assoc .., length_append, fun y mem => ?_⟩
  obtain mem | mem := mem_append.mp mem
  · exact all y mem
  · exact mem_singleton.mp mem ▸ holds

end Streak

end Aegis.Foundation
