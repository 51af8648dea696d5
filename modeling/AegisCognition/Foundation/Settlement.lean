import Mathlib.Data.Set.Insert
import Mathlib.Logic.Function.Basic

/-!
# Settlement

A log of demands. A demand is admitted on terms, under a key that is new, and settled later by
an entry that repeats its terms. Accounts keep what is admitted and what is settled, and refuse
a key or an id that is taken, terms that differ from the admitted ones, and a second
settlement. The log then has one admission for every settlement, and no demand is settled
twice.
-/

namespace Aegis.Foundation

open Function (update update_of_ne update_self)

universe u v w

/-- An entry of the log that touches the accounts. -/
inductive Posting (K : Type u) (T : Type v)
  | grant (key : K) (terms : T)
  | settle (key : K) (terms : T)

/-- The demands that are admitted and the keys that are settled. -/
structure Accounts (K : Type u) (T : Type v) where
  admitted : K → Option T
  settled : Set K

section Settlement

variable {K : Type u} {T : Type v} {I : Type w} {idOf : T → I}

/-- One entry, accepted by the accounts before it, and the accounts after it. -/
inductive Posts [DecidableEq K] (idOf : T → I) (a : Accounts K T) :
    Option (Posting K T) → Accounts K T → Prop
  | idle : Posts idOf a none a
  | grant {key : K} {terms : T} (fresh : a.admitted key = none)
      (unused : ∀ other held, a.admitted other = some held → idOf held ≠ idOf terms) :
      Posts idOf a (some (Posting.grant key terms))
        { a with admitted := update a.admitted key (some terms) }
  | settle {key : K} {terms : T} (held : a.admitted key = some terms) (once : key ∉ a.settled) :
      Posts idOf a (some (Posting.settle key terms)) { a with settled := insert key a.settled }

/-- The accounts say what the log says. -/
structure Balanced (idOf : T → I) (log : List (Option (Posting K T))) (a : Accounts K T) :
    Prop where
  admitted : ∀ key terms, a.admitted key = some terms ↔
    ∃ i : Nat, log[i]? = some (some (Posting.grant key terms))
  settled : ∀ key, key ∈ a.settled ↔ ∃ (i : Nat) (terms : T),
    log[i]? = some (some (Posting.settle key terms))
  once : ∀ (i j : Nat) (key : K) (terms other : T),
    log[i]? = some (some (Posting.grant key terms)) →
    log[j]? = some (some (Posting.grant key other)) → i = j
  ids : ∀ key key' terms terms', a.admitted key = some terms → a.admitted key' = some terms' →
    idOf terms = idOf terms' → key = key'
  preceded : ∀ (i : Nat) (key : K) (terms : T), log[i]? = some (some (Posting.settle key terms)) →
    ∃ j < i, log[j]? = some (some (Posting.grant key terms))
  settledOnce : ∀ (i j : Nat) (key : K) (terms other : T),
    log[i]? = some (some (Posting.settle key terms)) →
      log[j]? = some (some (Posting.settle key other)) → i = j

/-- The place of an entry in a log that has grown by one. -/
theorem getElem?_concat_eq_some_iff {α : Type u} {log : List α} {last a : α} {i : Nat} :
    (log ++ [last])[i]? = some a ↔ log[i]? = some a ∨ i = log.length ∧ last = a := by
  rcases Nat.lt_trichotomy i log.length with before | rfl | beyond
  · rw [List.getElem?_append_left before]
    constructor
    · exact .inl
    · rintro (old | ⟨rfl, -⟩)
      · exact old
      · omega
  · simp
  · have past : log[i]? = none := List.getElem?_eq_none beyond.le
    have outside : (log ++ [last])[i]? = none := List.getElem?_eq_none (by simp; omega)
    simp only [past, outside, reduceCtorEq, false_or, false_iff, not_and]
    omega

theorem getElem?_lt {α : Type u} {log : List α} {a : α} {i : Nat} (h : log[i]? = some a) :
    i < log.length :=
  (List.getElem?_eq_some_iff.mp h).1

namespace Balanced

variable {log : List (Option (Posting K T))} {a b : Accounts K T}

theorem nil : Balanced idOf [] (⟨fun _ => none, ∅⟩ : Accounts K T) := by
  refine ⟨?_, ?_, ?_, ?_, ?_, ?_⟩ <;> simp

theorem idle (h : Balanced idOf log a) : Balanced idOf (log ++ [none]) a := by
  obtain ⟨admitted, settled, once, ids, preceded, settledOnce⟩ := h
  refine ⟨?_, ?_, ?_, ids, ?_, ?_⟩ <;>
    simp only [getElem?_concat_eq_some_iff, reduceCtorEq, and_false, or_false] <;> assumption

theorem grant [DecidableEq K] (h : Balanced idOf log a) {key : K} {terms : T}
    (fresh : a.admitted key = none)
    (unused : ∀ other held, a.admitted other = some held → idOf held ≠ idOf terms) :
    Balanced idOf (log ++ [some (Posting.grant key terms)])
      { a with admitted := update a.admitted key (some terms) } := by
  have new (i : Nat) (held : T) : log[i]? ≠ some (some (Posting.grant key held)) := by
    intro found
    have taken := (h.admitted key held).mpr ⟨i, found⟩
    rw [fresh] at taken
    cases taken
  refine ⟨?_, ?_, ?_, ?_, ?_, ?_⟩
  · intro other held
    simp only [getElem?_concat_eq_some_iff, Option.some.injEq, Posting.grant.injEq]
    by_cases same : other = key
    · subst same
      simp only [update_self, Option.some.injEq, true_and]
      constructor
      · rintro rfl
        exact ⟨log.length, .inr ⟨rfl, rfl⟩⟩
      · rintro ⟨i, found | ⟨-, rfl⟩⟩
        · exact absurd found (new i held)
        · rfl
    · rw [update_of_ne same, h.admitted]
      refine exists_congr fun i => ⟨.inl, ?_⟩
      rintro (found | ⟨-, rfl, -⟩)
      · exact found
      · exact absurd rfl same
  · intro other
    simp only [getElem?_concat_eq_some_iff, Option.some.injEq, reduceCtorEq, and_false, or_false]
    exact h.settled other
  · intro i j other held held' first second
    simp only [getElem?_concat_eq_some_iff, Option.some.injEq, Posting.grant.injEq] at first second
    obtain first | ⟨rfl, rfl, rfl⟩ := first <;> obtain second | ⟨rfl, same, rfl⟩ := second
    · exact h.once i j other held held' first second
    · exact absurd (same ▸ first) (new i held)
    · exact absurd second (new j held')
    · rfl
  · intro other other' held held' first second same
    simp only at first second
    by_cases here : other = key <;> by_cases there : other' = key
    · rw [here, there]
    · subst here
      simp only [update_self, Option.some.injEq] at first
      rw [update_of_ne there] at second
      exact absurd (first ▸ same).symm (unused other' held' second)
    · subst there
      simp only [update_self, Option.some.injEq] at second
      rw [update_of_ne here] at first
      exact absurd (second ▸ same) (unused other held first)
    · rw [update_of_ne here] at first
      rw [update_of_ne there] at second
      exact h.ids other other' held held' first second same
  · intro i other held found
    simp only [getElem?_concat_eq_some_iff, Option.some.injEq, reduceCtorEq, and_false,
      or_false] at found
    obtain ⟨j, before, admitted⟩ := h.preceded i other held found
    exact ⟨j, before, getElem?_concat_eq_some_iff.mpr (.inl admitted)⟩
  · intro i j other held held' first second
    simp only [getElem?_concat_eq_some_iff, Option.some.injEq, reduceCtorEq, and_false,
      or_false] at first second
    exact h.settledOnce i j other held held' first second

theorem settle (h : Balanced idOf log a) {key : K} {terms : T}
    (held : a.admitted key = some terms) (unsettled : key ∉ a.settled) :
    Balanced idOf (log ++ [some (Posting.settle key terms)])
      { a with settled := insert key a.settled } := by
  have new (i : Nat) (terms : T) : log[i]? ≠ some (some (Posting.settle key terms)) :=
    fun found => unsettled ((h.settled key).mpr ⟨i, terms, found⟩)
  refine ⟨?_, ?_, ?_, h.ids, ?_, ?_⟩
  · intro other terms
    simp only [getElem?_concat_eq_some_iff, Option.some.injEq, reduceCtorEq, and_false, or_false]
    exact h.admitted other terms
  · intro other
    simp only [getElem?_concat_eq_some_iff, Option.some.injEq, Posting.settle.injEq,
      Set.mem_insert_iff]
    rw [h.settled]
    constructor
    · rintro (rfl | ⟨i, terms, found⟩)
      · exact ⟨log.length, terms, .inr ⟨rfl, rfl, rfl⟩⟩
      · exact ⟨i, terms, .inl found⟩
    · rintro ⟨i, terms, found | ⟨-, rfl, -⟩⟩
      · exact .inr ⟨i, terms, found⟩
      · exact .inl rfl
  · intro i j other terms terms' first second
    simp only [getElem?_concat_eq_some_iff, Option.some.injEq, reduceCtorEq, and_false,
      or_false] at first second
    exact h.once i j other terms terms' first second
  · intro i other terms' found
    simp only [getElem?_concat_eq_some_iff, Option.some.injEq, Posting.settle.injEq] at found ⊢
    obtain found | ⟨rfl, rfl, rfl⟩ := found
    · obtain ⟨j, before, admitted⟩ := h.preceded i other terms' found
      exact ⟨j, before, .inl admitted⟩
    · obtain ⟨j, admitted⟩ := (h.admitted key terms).mp held
      exact ⟨j, getElem?_lt admitted, .inl admitted⟩
  · intro i j other terms terms' first second
    simp only [getElem?_concat_eq_some_iff, Option.some.injEq, Posting.settle.injEq] at first second
    obtain first | ⟨rfl, rfl, rfl⟩ := first <;> obtain second | ⟨rfl, same, rfl⟩ := second
    · exact h.settledOnce i j other terms terms' first second
    · exact absurd (same ▸ first) (new i terms)
    · exact absurd second (new j terms')
    · rfl

/-- Every accepted entry keeps the accounts balanced. -/
theorem post [DecidableEq K] (h : Balanced idOf log a) {posting : Option (Posting K T)}
    (posts : Posts idOf a posting b) : Balanced idOf (log ++ [posting]) b := by
  cases posts with
  | idle => exact h.idle
  | grant fresh unused => exact h.grant fresh unused
  | settle held once => exact h.settle held once

theorem settle_unique (h : Balanced idOf log a) {i j : Nat} {key key' : K} {terms terms' : T}
    (first : log[i]? = some (some (Posting.settle key terms)))
    (second : log[j]? = some (some (Posting.settle key' terms')))
    (same : idOf terms = idOf terms') :
    i = j := by
  obtain ⟨k, -, admitted⟩ := h.preceded i key terms first
  obtain ⟨l, -, admitted'⟩ := h.preceded j key' terms' second
  have keys : key = key' :=
    h.ids key key' terms terms' ((h.admitted key terms).mpr ⟨k, admitted⟩)
      ((h.admitted key' terms').mpr ⟨l, admitted'⟩) same
  subst keys
  exact h.settledOnce i j key terms terms' first second

end Balanced

end Settlement

end Aegis.Foundation
