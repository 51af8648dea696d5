import Mathlib.Order.Basic

/-!
# Finite runs of a deterministic transition function

A run folds a step function over a list of operations. Three notions are shared
by every state machine of the development: the state a run ends in, a condition
that every step of the run meets at the state before it, and a natural cost that
the steps add up to.

The invariant rules below turn a statement about one step into a statement about
every run. The metered rule only asks for preservation while the accumulated cost
stays under a bound, which is how exhaustible counters are handled.
-/

namespace Aegis.Foundation

universe u v

variable {σ : Type u} {ι : Type v} (step : σ → ι → σ)

/-- The state reached by applying the operations from left to right. -/
def run (s : σ) (ops : List ι) : σ :=
  ops.foldl step s

@[simp] theorem run_nil (s : σ) : run step s [] = s := rfl

@[simp] theorem run_cons (s : σ) (op : ι) (ops : List ι) :
    run step s (op :: ops) = run step (step s op) ops := rfl

@[simp] theorem run_append (s : σ) (first second : List ι) :
    run step s (first ++ second) = run step (run step s first) second :=
  List.foldl_append

/-- Every step of the run meets `ok` at the state it starts from. -/
def Along (ok : σ → ι → Prop) : σ → List ι → Prop
  | _, [] => True
  | s, op :: ops => ok s op ∧ Along ok (step s op) ops

/-- The total cost of a run, each step being charged at the state it starts from. -/
def totalCost (cost : σ → ι → Nat) : σ → List ι → Nat
  | _, [] => 0
  | s, op :: ops => cost s op + totalCost cost (step s op) ops

/-- What the steps of a run show, in order. -/
def trace {ε : Type*} (shows : σ → ι → List ε) : σ → List ι → List ε
  | _, [] => []
  | s, op :: ops => shows s op ++ trace shows (step s op) ops

variable {step}

instance Along.decidable {ok : σ → ι → Prop} [∀ s op, Decidable (ok s op)] :
    (s : σ) → (ops : List ι) → Decidable (Along step ok s ops)
  | _, [] => inferInstanceAs (Decidable True)
  | s, op :: ops =>
    have : Decidable (Along step ok (step s op) ops) := Along.decidable (step s op) ops
    inferInstanceAs (Decidable (ok s op ∧ Along step ok (step s op) ops))

variable {cost : σ → ι → Nat} {s : σ}

theorem totalCost_append (first second : List ι) :
    totalCost step cost s (first ++ second) =
      totalCost step cost s first + totalCost step cost (run step s first) second := by
  induction first generalizing s with
  | nil => exact (Nat.zero_add _).symm
  | cons op first ih => rw [List.cons_append, totalCost, totalCost, ih, run_cons, Nat.add_assoc]

theorem along_append {ok : σ → ι → Prop} {first second : List ι} :
    Along step ok s (first ++ second) ↔
      Along step ok s first ∧ Along step ok (run step s first) second := by
  induction first generalizing s with
  | nil => exact ⟨fun h => ⟨trivial, h⟩, And.right⟩
  | cons op first ih => exact (and_congr_right fun _ => ih).trans and_assoc.symm

theorem Along.append_left {ok : σ → ι → Prop} {first second : List ι}
    (h : Along step ok s (first ++ second)) : Along step ok s first :=
  (along_append.mp h).1

theorem Along.at_step {ok : σ → ι → Prop} {before after : List ι} {op : ι}
    (h : Along step ok s (before ++ op :: after)) : ok (run step s before) op := by
  induction before generalizing s with
  | nil => exact h.1
  | cons first before ih => exact ih h.2

variable {ops : List ι}

theorem along_iff_at_step {ok : σ → ι → Prop} :
    Along step ok s ops ↔
      ∀ before op after, ops = before ++ op :: after → ok (run step s before) op := by
  constructor
  · rintro h before op after rfl
    exact h.at_step
  · intro h
    induction ops generalizing s with
    | nil => trivial
    | cons op ops ih =>
        refine ⟨h [] op ops rfl, ih ?_⟩
        rintro before next after rfl
        exact h (op :: before) next after rfl

/-- An invariant kept by every step that meets `ok` holds at the end of every run
whose steps all meet `ok`. -/
theorem run_invariant_along {ok : σ → ι → Prop} {Inv : σ → Prop}
    (keep : ∀ s op, Inv s → ok s op → Inv (step s op))
    (legal : Along step ok s ops) (start : Inv s) : Inv (run step s ops) := by
  induction ops generalizing s with
  | nil => exact start
  | cons op ops ih => exact ih legal.2 (keep s op start legal.1)

theorem run_invariant {Inv : σ → Prop} (keep : ∀ s op, Inv s → Inv (step s op))
    (ops : List ι) (start : Inv s) : Inv (run step s ops) := by
  induction ops generalizing s with
  | nil => exact start
  | cons op ops ih => exact ih (keep s op start)

/-- A run that ends outside a set of states it starts in has a step that leaves the set. -/
theorem exists_leaving {P : σ → Prop} (start : P s)
    (left : ¬ P (run step s ops)) : ∃ early op late, ops = early ++ op :: late ∧
      P (run step s early) ∧ ¬ P (step (run step s early) op) := by
  induction ops generalizing s with
  | nil => exact absurd start left
  | cons op ops ih =>
      by_cases stays : P (step s op)
      · obtain ⟨early, next, late, rfl, inside, leaves⟩ := ih stays left
        exact ⟨op :: early, next, late, rfl, inside, leaves⟩
      · exact ⟨[], op, ops, rfl, start, stays⟩

/-- The invariant may mention what the run has shown so far. -/
theorem run_invariant_trace {ε : Type*} {shows : σ → ι → List ε} {Inv : List ε → σ → Prop}
    (keep : ∀ shown s op, Inv shown s → Inv (shown ++ shows s op) (step s op))
    {shown : List ε} (ops : List ι) (start : Inv shown s) :
    Inv (shown ++ trace step shows s ops) (run step s ops) := by
  induction ops generalizing s shown with
  | nil => rwa [trace, List.append_nil]
  | cons op ops ih =>
      rw [trace, ← List.append_assoc]
      exact ih (keep shown s op start)

theorem along_of_forall {ok : σ → ι → Prop} (h : ∀ s op, ok s op) (s : σ) (ops : List ι) :
    Along step ok s ops := by
  induction ops generalizing s with
  | nil => trivial
  | cons op ops ih => exact ⟨h s op, ih _⟩

/-- A step condition that is exactly what a legal step needs to keep the invariant holds along a
legal run if and only if the invariant holds after each of its prefixes. Background facts that
every legal step keeps may be used to show it. -/
theorem run_prefixes_iff_along_of_legal {ok legal : σ → ι → Prop} {Inv Background : σ → Prop}
    (keep : ∀ s op, Background s → legal s op → Background (step s op))
    (exact : ∀ s op, Background s → Inv s → legal s op → (Inv (step s op) ↔ ok s op))
    (lawful : Along step legal s ops) (background : Background s) (start : Inv s) :
    (∀ before after, ops = before ++ after → Inv (run step s before)) ↔
      Along step ok s ops := by
  induction ops generalizing s with
  | nil =>
      refine ⟨fun _ => trivial, fun _ before after split => ?_⟩
      obtain ⟨rfl, -⟩ := List.append_eq_nil_iff.mp split.symm
      exact start
  | cons op ops ih =>
      obtain ⟨lawful_op, lawful⟩ := lawful
      constructor
      · intro h
        have next : Inv (step s op) := h [op] ops rfl
        refine ⟨(exact s op background start lawful_op).mp next, ?_⟩
        refine (ih lawful (keep s op background lawful_op) next).mp ?_
        rintro before after rfl
        exact h (op :: before) after rfl
      · rintro ⟨first, rest⟩ before after split
        have next : Inv (step s op) := (exact s op background start lawful_op).mpr first
        cases before with
        | nil => exact start
        | cons head before =>
            obtain ⟨rfl, rest_split⟩ := List.cons.inj split
            exact (ih lawful (keep s op background lawful_op) next).mpr rest before after rest_split

/-- The same where every step is legal. -/
theorem run_prefixes_iff_along {ok : σ → ι → Prop} {Inv Background : σ → Prop}
    (keep : ∀ s op, Background s → Background (step s op))
    (exact : ∀ s op, Background s → Inv s → (Inv (step s op) ↔ ok s op))
    (background : Background s) (start : Inv s) :
    (∀ before after, ops = before ++ after → Inv (run step s before)) ↔
      Along step ok s ops :=
  run_prefixes_iff_along_of_legal (fun s op b (_ : True) => keep s op b)
    (fun s op b i _ => exact s op b i) (along_of_forall (fun _ _ => trivial) s ops) background start

/-- The metered invariant rule. The invariant may mention what has been spent so
far, and only steps that stay under the limit have to preserve it. -/
theorem run_invariant_metered {limit : Nat} {Inv : Nat → σ → Prop}
    (keep : ∀ spent s op, Inv spent s → spent + cost s op < limit →
      Inv (spent + cost s op) (step s op))
    {spent : Nat} (ops : List ι) (start : Inv spent s)
    (bounded : spent + totalCost step cost s ops < limit) :
    Inv (spent + totalCost step cost s ops) (run step s ops) := by
  induction ops generalizing s spent with
  | nil => exact start
  | cons op ops ih =>
      simp only [totalCost, ← Nat.add_assoc] at bounded ⊢
      exact ih (keep spent s op start (by omega)) bounded

/-- What a metered invariant implies at every step under the limit holds along the run. -/
theorem along_of_metered {limit : Nat} {Inv : Nat → σ → Prop}
    {ok : σ → ι → Prop}
    (keep : ∀ spent s op, Inv spent s → spent + cost s op < limit →
      ok s op ∧ Inv (spent + cost s op) (step s op))
    {spent : Nat} (ops : List ι) (start : Inv spent s)
    (bounded : spent + totalCost step cost s ops < limit) : Along step ok s ops := by
  induction ops generalizing s spent with
  | nil => trivial
  | cons op ops ih =>
      simp only [totalCost, ← Nat.add_assoc] at bounded
      obtain ⟨here, next⟩ := keep spent s op start (by omega)
      exact ⟨here, ih next bounded⟩

end Aegis.Foundation
