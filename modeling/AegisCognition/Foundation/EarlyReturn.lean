import AegisCognition.Foundation.Scan
import AegisCognition.Foundation.Selection

/-!
# Early returns

A function with early returns is a computation whose errors are the values returned early. What
all of these have in common is shown return by return. A value without this property then comes
from the end of the function, where all the checks on the way there have passed.
-/

namespace Aegis.Foundation

universe u

variable {α β ε : Type u} {p : ε → Prop} {x : Except ε α} {f : α → Except ε β} {e : ε}

@[simp] theorem ok_bind (a : α) : (.ok a >>= f : Except ε β) = f a := rfl

/-- Whatever a computation stops with has the property. -/
def Stops (p : ε → Prop) (x : Except ε α) : Prop :=
  ∀ e, x = .error e → p e

namespace Stops

theorem ok (a : α) : Stops p (.ok a : Except ε α) := nofun

theorem ne_error (stops : Stops p x) (other : ¬ p e) : x ≠ .error e :=
  fun failed => other (stops e failed)

theorem bind (first : Stops p x) (rest : ∀ a, x = .ok a → Stops p (f a)) :
    Stops p (x >>= f) := by
  intro e failed
  obtain failed | ⟨a, passed, failed⟩ := bind_eq_error_iff.mp failed
  · exact first e failed
  · exact rest a passed e failed

theorem refuseWhen {c : Prop} [Decidable c] (h : c → p e) :
    Stops p (Foundation.refuseWhen c e : Except ε PUnit.{u + 1}) := by
  intro e' failed
  obtain ⟨holds, rfl⟩ := refuseWhen_eq_error_iff.mp failed
  exact h holds

theorem okOr {o : Option α} (h : o = none → p e) : Stops p (Foundation.okOr e o) := by
  intro e' failed
  obtain ⟨absent, rfl⟩ := okOr_eq_error_iff.mp failed
  exact h absent

/-- One check and what follows it. -/
theorem check {c : Prop} [Decidable c] {f : PUnit.{u + 1} → Except ε β} (h : p e)
    (rest : Stops p (f ⟨⟩)) : Stops p (Foundation.refuseWhen c e >>= f) :=
  bind (refuseWhen fun _ => h) fun _ _ => rest

end Stops

/-- An error that a check does not give comes from what follows it. -/
theorem check_bind_eq_error_iff {c : Prop} [Decidable c] {f : PUnit.{u + 1} → Except ε β} {e' : ε}
    (other : e ≠ e') :
    (refuseWhen c e >>= f) = .error e' ↔ ¬ c ∧ f ⟨⟩ = .error e' := by
  rw [refuseWhen]
  split
  case isTrue holds => simp [bind, Except.bind, holds, other]
  case isFalse fails => simp [bind, Except.bind, fails]

/-- An error that nothing later gives comes from the first computation. -/
theorem bind_eq_error_iff_left (rest : ∀ a, f a ≠ .error e) :
    (x >>= f) = .error e ↔ x = .error e := by
  rw [bind_eq_error_iff]
  constructor
  · rintro (failed | ⟨a, -, failed⟩)
    · exact failed
    · exact absurd failed (rest a)
  · exact .inl

variable {q : α → Prop} {y : Except α α}

theorem early_property (stops : Stops q y) (last : ∀ a, y = .ok a → q a) : q (early y) := by
  cases h : y with
  | ok a => exact last a h
  | error e => exact stops e h

/-- A value that no early return has comes from the end. -/
theorem eq_ok_of_early (stops : Stops q y) (other : ¬ q (early y)) : y = .ok (early y) := by
  cases h : y with
  | ok a => rfl
  | error e =>
      rw [h] at other
      exact absurd (stops e h) other

/-- What a computation yields has a property that can be decided. -/
theorem exists_ok_of_any {x : Except ε α} {p : α → Bool} (h : x.toOption.any p = true) :
    ∃ a, x = .ok a ∧ p a = true := by
  cases x with
  | error e => cases h
  | ok a => exact ⟨a, rfl, h⟩

end Aegis.Foundation
