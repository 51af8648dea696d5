import Mathlib.Data.List.Chain
import Mathlib.Data.List.Induction

/-!
# Hash chains

Each element of a chain names the hash of the one before it, and the first one names a fixed hash
that no element has. If an element is determined by its hash, the last hash determines the chain:
the last elements of two chains are the same, they name the same hash, and so on to the front.
Chains that are read from the last element on agree as far as both go.
-/

namespace Aegis.Foundation

open List

universe u v

variable {α : Type u} {δ : Type v} {previous hash : α → δ} {start : δ}
variable {first second before : List α} {element : α}

/-- Each element names the hash of the one before it, and the first one a given hash. -/
def Chained (previous hash : α → δ) (start : δ) : List α → Prop
  | [] => True
  | element :: rest => previous element = start ∧ Chained previous hash (hash element) rest

/-- The hash that the next element of a chain names. -/
def lastHash (hash : α → δ) (start : δ) (elements : List α) : δ :=
  elements.getLast?.elim start hash

@[simp] theorem lastHash_nil : lastHash hash start [] = start := rfl

@[simp] theorem lastHash_concat : lastHash hash start (before ++ [element]) = hash element := by
  rw [lastHash, getLast?_concat, Option.elim_some]

theorem lastHash_cons : lastHash hash start (element :: before) =
    lastHash hash (hash element) before := by
  cases before with
  | nil => rfl
  | cons next before =>
      rw [lastHash, getLast?_cons_cons, lastHash]
      cases found : (next :: before).getLast? with
      | none => exact absurd (getLast?_eq_none_iff.mp found) (cons_ne_nil _ _)
      | some last => rfl

theorem chained_concat : Chained previous hash start (before ++ [element]) ↔
    Chained previous hash start before ∧ previous element = lastHash hash start before := by
  induction before generalizing start with
  | nil => exact and_comm
  | cons next before ih =>
      rw [cons_append, Chained, Chained, ih, lastHash_cons, and_assoc]

theorem Chained.eq_of_lastHash (chained : Chained previous hash start first)
    (chained' : Chained previous hash start second)
    (binds : ∀ element ∈ first, ∀ other ∈ second, hash element = hash other → element = other)
    (fresh : ∀ element ∈ first, hash element ≠ start)
    (fresh' : ∀ element ∈ second, hash element ≠ start)
    (same : lastHash hash start first = lastHash hash start second) : first = second := by
  induction first using reverseRecOn generalizing second with
  | nil =>
      cases second using reverseRecOn with
      | nil => rfl
      | append_singleton before last =>
          rw [lastHash_nil, lastHash_concat] at same
          exact absurd same.symm (fresh' last (by simp))
  | append_singleton before last ih =>
      cases second using reverseRecOn with
      | nil =>
          rw [lastHash_nil, lastHash_concat] at same
          exact absurd same (fresh last (by simp))
      | append_singleton before' last' =>
          rw [lastHash_concat, lastHash_concat] at same
          obtain rfl := binds last (by simp) last' (by simp) same
          obtain ⟨chained, named⟩ := chained_concat.mp chained
          obtain ⟨chained', named'⟩ := chained_concat.mp chained'
          have rest := ih chained chained'
            (fun element mem other mem' => binds element (mem_append_left _ mem) other
              (mem_append_left _ mem'))
            (fun element mem => fresh element (mem_append_left _ mem))
            (fun element mem => fresh' element (mem_append_left _ mem))
            (named.symm.trans named')
          rw [rest]

/-! ## Chains that are read backwards -/

section Backwards

variable {Parent : α → α → Prop} {members : Set α}

/-- Two chains that start with the same element and go to a parent that is unique agree as far as
both go. -/
theorem isChain_comparable
    (unique : ∀ element, ∀ parent ∈ members, ∀ other ∈ members,
      Parent element parent → Parent element other → parent = other)
    (hf : ∀ element ∈ first, element ∈ members) (hs : ∀ element ∈ second, element ∈ members)
    (chain : (element :: first).IsChain Parent) (chain' : (element :: second).IsChain Parent) :
    first <+: second ∨ second <+: first := by
  induction first generalizing element second with
  | nil => exact .inl nil_prefix
  | cons parent first ih =>
      cases second with
      | nil => exact .inr nil_prefix
      | cons other second =>
          rw [forall_mem_cons] at hf hs
          rw [isChain_cons_cons] at chain chain'
          obtain rfl := unique element parent hf.1 other hs.1 chain.1 chain'.1
          have rest := ih hf.2 hs.2 chain.2 chain'.2
          rwa [prefix_cons_inj, prefix_cons_inj]

/-- A chain does not go on behind an element without a parent. -/
theorem eq_of_ends (chain : (element :: second).IsChain Parent) (part : first <+: second)
    (ends : ∀ parent, ¬ Parent ((element :: first).getLast (cons_ne_nil _ _)) parent) :
    first = second := by
  obtain ⟨rest, rfl⟩ := part
  cases rest with
  | nil => exact (append_nil first).symm
  | cons parent rest =>
      rw [← cons_append, isChain_append] at chain
      have goes := chain.2.2 _ (getLast?_eq_some_getLast (cons_ne_nil _ _)) parent rfl
      exact absurd goes (ends parent)

end Backwards

end Aegis.Foundation
