import Mathlib.Data.List.DropRight

/-!
# Lexical paths

A path is read from left to right without asking a file system. A name goes down, two dots go
up, and above the root there is nothing. A path that never goes up more often than it went
down stays below the place where it starts.
-/

namespace Aegis.Foundation

open List

universe u

inductive PathStep (α : Type u)
  | up
  | into (name : α)
  deriving DecidableEq

section Paths

variable {α : Type u}

/-- Where the steps lead from a place. -/
def walk (place : List α) : List (PathStep α) → List α
  | [] => place
  | .up :: rest => walk place.dropLast rest
  | .into name :: rest => walk (place ++ [name]) rest

/-- The steps leave the place that is so many names above the one where they start. -/
def climbs : Nat → List (PathStep α) → Bool
  | _, [] => false
  | 0, .up :: _ => true
  | depth + 1, .up :: rest => climbs depth rest
  | depth, .into _ :: rest => climbs (depth + 1) rest

theorem walk_append (place : List α) (first second : List (PathStep α)) :
    walk place (first ++ second) = walk (walk place first) second := by
  induction first generalizing place with
  | nil => rfl
  | cons step first ih =>
      cases step with
      | up => exact ih place.dropLast
      | into name => exact ih (place ++ [name])

theorem prefix_walk {place below : List α} {steps : List (PathStep α)}
    (h : climbs below.length steps = false) : place <+: walk (place ++ below) steps := by
  induction steps generalizing below with
  | nil => exact prefix_append place below
  | cons step steps ih =>
      cases step with
      | up =>
          obtain rfl | ⟨names, last, rfl⟩ := eq_nil_or_concat below
          · cases h
          · rw [concat_eq_append] at h ⊢
            rw [length_append, length_singleton] at h
            have up : (place ++ (names ++ [last])).dropLast = place ++ names := by
              rw [← append_assoc, dropLast_concat]
            show place <+: walk (place ++ (names ++ [last])).dropLast steps
            rw [up]
            exact ih h
      | into name =>
          show place <+: walk (place ++ below ++ [name]) steps
          rw [append_assoc]
          apply ih
          rw [length_append, length_singleton]
          exact h

theorem climbs_of_no_up {steps : List (PathStep α)} (h : PathStep.up ∉ steps) (depth : Nat) :
    climbs depth steps = false := by
  induction steps generalizing depth with
  | nil => rfl
  | cons step steps ih =>
      rw [mem_cons, not_or] at h
      cases step with
      | up => exact absurd rfl h.1
      | into name => exact ih h.2 (depth + 1)

end Paths

/-! ### Paths as texts -/

section Texts

variable {α : Type u}

theorem rdropWhile_append (p : α → Bool) (first second : List α) :
    (first ++ second).rdropWhile p =
      if second.rdropWhile p = [] then first.rdropWhile p else first ++ second.rdropWhile p := by
  simp only [List.rdropWhile, List.reverse_append, List.dropWhile_append, List.isEmpty_iff,
    List.reverse_eq_nil_iff]
  split <;> simp

variable [DecidableEq α] {separator : α} {path middle start : List α}

/-- A path is the other one, or it goes on from there after a separator. Separators at the end
of the other path do not count. -/
def GoesOn (separator : α) (path start : List α) : Prop :=
  path = start ∨ ∃ rest, path = start.rdropWhile (· == separator) ++ separator :: rest

namespace GoesOn

theorem refl (path : List α) : GoesOn separator path path := .inl rfl

theorem trans (h : GoesOn separator path middle) (h' : GoesOn separator middle start) :
    GoesOn separator path start := by
  obtain rfl | ⟨rest, rfl⟩ := h
  · exact h'
  obtain rfl | ⟨between, rfl⟩ := h'
  · exact .inr ⟨rest, rfl⟩
  right
  rw [rdropWhile_append]
  split
  case isTrue separators =>
    -- Nothing but separators was added, and they are dropped again.
    rw [rdropWhile_idempotent]
    exact ⟨rest, rfl⟩
  case isFalse named =>
    -- What was added is kept up to its last name, and begins with the separator.
    obtain ⟨first, more, kept⟩ := exists_cons_of_ne_nil named
    have front : first :: more <+: separator :: between := kept ▸ rdropWhile_prefix _ _
    obtain ⟨rfl, -⟩ := cons_prefix_cons.mp front
    rw [kept, append_assoc]
    exact ⟨more ++ first :: rest, rfl⟩

end GoesOn

end Texts

end Aegis.Foundation
