import Mathlib.Order.Basic

/-!
# Fallible updates of a state

A method that changes its receiver and may fail is an `EStateM` computation: on a failure
the receiver is left as it was at that point, not as it was at the start. The rules below
take such a computation apart step by step, for a success and for a failure; an update is
atomic when its failures change nothing. What an update appends to a log in the state is said for
its successes and its failures, and adds up from step to step.
-/

namespace Aegis.Foundation

universe u

variable {ε σ τ α β : Type u}

/-- Stop with an error when the condition holds. -/
def refuse (c : Prop) [Decidable c] (e : ε) : EStateM ε σ PUnit.{u + 1} :=
  if c then throw e else pure ⟨⟩

/-- The outcome of a check that changes nothing. -/
def checked : Except ε α → EStateM ε σ α
  | .ok a => pure a
  | .error e => throw e

/-- An update of a part of the state. -/
def zoom (part : σ → τ) (replace : τ → σ → σ) (x : EStateM ε τ α) : EStateM ε σ α := fun s =>
  match x (part s) with
  | .ok a t => .ok a (replace t s)
  | .error e t => .error e (replace t s)

section

variable (x : EStateM ε σ α)

/-- The state that an update leaves, whether it succeeds or fails. -/
def after (s : σ) : σ :=
  match x s with
  | .ok _ t => t
  | .error _ t => t

def succeeds (s : σ) : Bool :=
  match x s with
  | .ok _ _ => true
  | .error _ _ => false

/-- A failure of the update changes nothing. -/
def Atomic : Prop :=
  ∀ s e t, x s = .error e t → t = s

/-- The update changes nothing at all: it is a check or a read. -/
def Reads : Prop :=
  Atomic x ∧ ∀ s a t, x s = .ok a t → s = t

end

section Rules

variable {x : EStateM ε σ α} {f : α → EStateM ε σ β} {s t u : σ} {a a' : α} {b : β} {e e' : ε}
variable {c : Prop} [Decidable c]

theorem bind_ok_iff : (x >>= f) s = .ok b u ↔ ∃ a t, x s = .ok a t ∧ f a t = .ok b u := by
  change EStateM.bind x f s = .ok b u ↔ _
  unfold EStateM.bind
  cases x s with
  | ok a t => exact ⟨fun h => ⟨a, t, rfl, h⟩, by rintro ⟨_, _, ⟨⟩, h⟩; exact h⟩
  | error e t => simp

theorem bind_error_iff :
    (x >>= f) s = .error e u ↔ x s = .error e u ∨ ∃ a t, x s = .ok a t ∧ f a t = .error e u := by
  change EStateM.bind x f s = .error e u ↔ _
  unfold EStateM.bind
  cases x s with
  | ok a t =>
      constructor
      · exact fun h => .inr ⟨a, t, rfl, h⟩
      · rintro (⟨⟨⟩⟩ | ⟨_, _, ⟨⟩, h⟩)
        exact h
  | error e t => simp

@[simp] theorem pure_ok_iff : (pure a : EStateM ε σ α) s = .ok a' t ↔ a = a' ∧ s = t := by
  change EStateM.Result.ok a s = _ ↔ _
  simp

@[simp] theorem pure_ne_error : (pure a : EStateM ε σ α) s ≠ .error e t := nofun

@[simp] theorem get_ok_iff {r : σ} :
    (get : EStateM ε σ σ) s = .ok r t ↔ s = r ∧ s = t := by
  change EStateM.Result.ok s s = _ ↔ _
  simp

@[simp] theorem get_ne_error : (get : EStateM ε σ σ) s ≠ .error e t := nofun

@[simp] theorem set_ok_iff {r : PUnit.{u + 1}} :
    (set u : EStateM ε σ PUnit) s = .ok r t ↔ t = u := by
  change EStateM.Result.ok PUnit.unit u = _ ↔ _
  simp [eq_comm]

@[simp] theorem set_ne_error : (set u : EStateM ε σ PUnit) s ≠ .error e t := nofun

@[simp] theorem modify_ok_iff {g : σ → σ} {r : PUnit.{u + 1}} :
    (modify g : EStateM ε σ PUnit) s = .ok r t ↔ t = g s := by
  change EStateM.Result.ok PUnit.unit (g s) = _ ↔ _
  simp [eq_comm]

@[simp] theorem modify_ne_error {g : σ → σ} :
    (modify g : EStateM ε σ PUnit) s ≠ .error e t := nofun

@[simp] theorem refuse_ok_iff {r : PUnit.{u + 1}} :
    (refuse c e : EStateM ε σ PUnit) s = .ok r t ↔ ¬ c ∧ s = t := by
  unfold refuse
  split
  · exact ⟨nofun, fun h => absurd ‹c› h.1⟩
  · simp_all

@[simp] theorem refuse_error_iff :
    (refuse c e : EStateM ε σ PUnit) s = .error e' t ↔ c ∧ e = e' ∧ s = t := by
  unfold refuse
  split
  · change EStateM.Result.error e s = _ ↔ _
    simp_all
  · simp_all

@[simp] theorem checked_ok_iff {y : Except ε α} :
    (checked y : EStateM ε σ α) s = .ok a t ↔ y = .ok a ∧ s = t := by
  cases y with
  | ok a => simp [checked]
  | error e => exact ⟨nofun, nofun⟩

@[simp] theorem checked_error_iff {y : Except ε α} :
    (checked y : EStateM ε σ α) s = .error e t ↔ y = .error e ∧ s = t := by
  cases y with
  | ok a => simp [checked]
  | error e =>
      change EStateM.Result.error e s = _ ↔ _
      simp

section

variable {part : σ → τ} {replace : τ → σ → σ}

theorem zoom_ok_iff {y : EStateM ε τ α} :
    zoom part replace y s = .ok a t ↔ ∃ p, y (part s) = .ok a p ∧ t = replace p s := by
  unfold zoom
  cases y (part s) with
  | ok a p => exact ⟨by rintro ⟨⟩; exact ⟨p, rfl, rfl⟩, by rintro ⟨_, ⟨⟩, rfl⟩; rfl⟩
  | error e p => exact ⟨nofun, nofun⟩

theorem zoom_error_iff {y : EStateM ε τ α} :
    zoom part replace y s = .error e t ↔ ∃ p, y (part s) = .error e p ∧ t = replace p s := by
  unfold zoom
  cases y (part s) with
  | ok a p => exact ⟨nofun, nofun⟩
  | error e p => exact ⟨by rintro ⟨⟩; exact ⟨p, rfl, rfl⟩, by rintro ⟨_, ⟨⟩, rfl⟩; rfl⟩

/-- An atomic update either succeeds or leaves the state alone. -/
theorem Atomic.after_eq (h : Atomic x) (s : σ) :
    (∃ a, x s = .ok a (after x s)) ∨ after x s = s := by
  unfold after
  cases result : x s with
  | ok a t => exact .inl ⟨a, rfl⟩
  | error e t => exact .inr (h s e t result)

theorem Reads.get : Reads (get : EStateM ε σ σ) :=
  ⟨nofun, fun _ _ _ h => (get_ok_iff.mp h).2⟩

theorem Reads.refuse : Reads (Foundation.refuse c e : EStateM ε σ PUnit) :=
  ⟨fun _ _ _ h => (refuse_error_iff.mp h).2.2.symm, fun _ _ _ h => (refuse_ok_iff.mp h).2⟩

theorem Reads.checked {y : Except ε α} : Reads (Foundation.checked y : EStateM ε σ α) :=
  ⟨fun _ _ _ h => (checked_error_iff.mp h).2.symm, fun _ _ _ h => (checked_ok_iff.mp h).2⟩

theorem Atomic.set : Atomic (set u : EStateM ε σ PUnit) := nofun

/-- Checks may come before an atomic update. -/
theorem Reads.bind (reads : Reads x) (second : ∀ a, Atomic (f a)) : Atomic (x >>= f) := by
  intro s e u h
  obtain h | ⟨a, t, read, h⟩ := bind_error_iff.mp h
  · exact reads.1 s e u h
  · obtain rfl := reads.2 s a t read
    exact second a s e u h

theorem Atomic.zoom {y : EStateM ε τ α} (h : Atomic y) (same : ∀ s, replace (part s) s = s) :
    Atomic (Foundation.zoom part replace y) := by
  intro s e t failed
  obtain ⟨p, inner, rfl⟩ := zoom_error_iff.mp failed
  rw [h _ e p inner, same]

end

end Rules

/-! ### What an update logs -/

section Logs

variable {ι : Type*} {log : σ → List ι} {x : EStateM ε σ α} {f : α → EStateM ε σ β} {a : α}
variable {done done' failed failed' : List ι → Prop}

/-- The update appends to the log, and what it appends is known when it succeeds and when it
fails. -/
def Logs (log : σ → List ι) (x : EStateM ε σ α) (done failed : List ι → Prop) : Prop :=
  (∀ s a t, x s = .ok a t → ∃ new, log t = log s ++ new ∧ done new) ∧
    ∀ s e t, x s = .error e t → ∃ new, log t = log s ++ new ∧ failed new

namespace Logs

theorem mono (h : Logs log x done failed) (weaker : ∀ new, done new → done' new)
    (weaker' : ∀ new, failed new → failed' new) : Logs log x done' failed' := by
  refine ⟨fun s a t ok => ?_, fun s e t error => ?_⟩
  · obtain ⟨new, same, holds⟩ := h.1 s a t ok
    exact ⟨new, same, weaker new holds⟩
  · obtain ⟨new, same, holds⟩ := h.2 s e t error
    exact ⟨new, same, weaker' new holds⟩

theorem pure (empty : done []) : Logs log (Pure.pure a : EStateM ε σ α) done failed := by
  refine ⟨fun s b t ok => ⟨[], ?_, empty⟩, fun s e t error => absurd error pure_ne_error⟩
  rw [(pure_ok_iff.mp ok).2, List.append_nil]

/-- The second update goes on from what the first one has logged. -/
theorem bind {first second stopped : List ι → Prop} (h : Logs log x first stopped)
    (next : ∀ a, Logs log (f a) second failed)
    (both : ∀ old new, first old → second new → done (old ++ new))
    (late : ∀ old new, first old → failed new → failed' (old ++ new))
    (early : ∀ old, stopped old → failed' old) : Logs log (x >>= f) done failed' := by
  refine ⟨fun s b u ok => ?_, fun s e u error => ?_⟩
  · obtain ⟨a, t, ran, went⟩ := bind_ok_iff.mp ok
    obtain ⟨old, same, holds⟩ := h.1 s a t ran
    obtain ⟨new, same', holds'⟩ := (next a).1 t b u went
    exact ⟨old ++ new, by rw [same', same, List.append_assoc], both old new holds holds'⟩
  · obtain stop | ⟨a, t, ran, went⟩ := bind_error_iff.mp error
    · obtain ⟨old, same, holds⟩ := h.2 s e u stop
      exact ⟨old, same, early old holds⟩
    · obtain ⟨old, same, holds⟩ := h.1 s a t ran
      obtain ⟨new, same', holds'⟩ := (next a).2 t e u went
      exact ⟨old ++ new, by rw [same', same, List.append_assoc], late old new holds holds'⟩

/-- A first update that succeeds and logs nothing. -/
theorem pass (h : Logs log x (· = []) fun _ => False) (next : ∀ a, Logs log (f a) done failed) :
    Logs log (x >>= f) done failed := by
  refine h.bind next ?_ ?_ fun _ stopped => stopped.elim
  · rintro _ new rfl holds
    exact holds
  · rintro _ new rfl holds
    exact holds

theorem refuse_of_not {c : Prop} [Decidable c] {e : ε} (h : ¬ c) :
    Logs log (refuse c e : EStateM ε σ PUnit) (· = []) fun _ => False :=
  ⟨fun s _ t ok => ⟨[], by rw [(refuse_ok_iff.mp ok).2, List.append_nil], rfl⟩,
    fun _ _ _ error => absurd (refuse_error_iff.mp error).1 h⟩

theorem modify {g : σ → σ} {new : List ι} (same : ∀ s, log (g s) = log s ++ new) :
    Logs log (modify g : EStateM ε σ PUnit) (· = new) fun _ => False :=
  ⟨fun s _ t ok => ⟨new, by rw [modify_ok_iff.mp ok, same], rfl⟩,
    fun _ _ _ error => absurd error modify_ne_error⟩

/-- An update that leaves the log alone. -/
theorem silent (ok : ∀ s a t, x s = .ok a t → log t = log s)
    (error : ∀ s e t, x s = .error e t → log t = log s) (empty : done []) (empty' : failed []) :
    Logs log x done failed :=
  ⟨fun s a t h => ⟨[], by rw [ok s a t h, List.append_nil], empty⟩,
    fun s e t h => ⟨[], by rw [error s e t h, List.append_nil], empty'⟩⟩

theorem after_eq (h : Logs log x done done) (s : σ) :
    ∃ new, log (after x s) = log s ++ new ∧ done new := by
  unfold after
  cases result : x s with
  | ok a t => exact h.1 s a t result
  | error e t => exact h.2 s e t result

end Logs

end Logs

end Aegis.Foundation
