import Mathlib.Data.List.Forall2
import Mathlib.Data.List.Induction
import Mathlib.Data.List.TakeWhile
import AegisCognition.Foundation.Run

/-!
# Checked scans

A checked scan folds a fallible step over a list and stops at the first refusal. When
the step is a guarded transition, the scan succeeds exactly along the runs whose steps
all meet the guard, so two validators written separately can be compared guard by guard.

The accepted prefix is what a scan has read when it stops: it is the longest prefix of
the list that the same scan accepts.
-/

namespace Aegis.Foundation

open List

universe u v w

section Check

variable {α β ε : Type u} {c : Prop} [Decidable c] {e : ε} {x : Except ε α} {t : α}

/-- A check that is only made when the condition holds. -/
def checkWhen {ε : Type u} (c : Bool) (check : Except ε PUnit.{u + 1}) : Except ε PUnit :=
  if c then check else .ok ⟨⟩

theorem checkWhen_eq_ok_iff {c : Bool} {check : Except ε PUnit.{u + 1}} :
    checkWhen c check = .ok ⟨⟩ ↔ (c = true → check = .ok ⟨⟩) := by
  cases c <;> simp [checkWhen]

theorem checkWhen_bind_eq_ok_iff {c : Bool} {check : Except ε PUnit.{u + 1}}
    {f : PUnit.{u + 1} → Except ε β} {t : β} :
    (checkWhen c check >>= f) = .ok t ↔ (c = true → check = .ok ⟨⟩) ∧ f ⟨⟩ = .ok t := by
  rw [← checkWhen_eq_ok_iff]
  cases checkWhen c check <;> simp [bind, Except.bind]

/-- Stop with an error when the condition holds. -/
def refuseWhen {ε : Type u} (c : Prop) [Decidable c] (e : ε) : Except ε PUnit.{u + 1} :=
  if c then .error e else .ok ⟨⟩

theorem refuseWhen_eq_ok_iff {u : PUnit.{u + 1}} : refuseWhen c e = .ok u ↔ ¬ c := by
  unfold refuseWhen
  split <;> simp_all

theorem refuseWhen_eq_error_iff {e' : ε} :
    (refuseWhen c e : Except ε PUnit.{u + 1}) = .error e' ↔ c ∧ e = e' := by
  unfold refuseWhen
  split <;> simp_all

/-- The value, or the error where there is none. -/
def okOr (e : ε) : Option α → Except ε α
  | some a => .ok a
  | none => .error e

@[simp] theorem okOr_eq_ok_iff {o : Option α} : okOr e o = .ok t ↔ o = some t := by
  cases o <;> simp [okOr]

@[simp] theorem okOr_eq_error_iff {o : Option α} {e' : ε} :
    okOr e o = .error e' ↔ o = none ∧ e = e' := by
  cases o <;> simp [okOr]

theorem ite_error_eq_ok_iff : (if c then .error e else x) = .ok t ↔ ¬ c ∧ x = .ok t := by
  split <;> simp_all

theorem bind_eq_ok_iff {f : α → Except ε β} {t : β} :
    (x >>= f) = .ok t ↔ ∃ a, x = .ok a ∧ f a = .ok t := by
  cases x <;> simp [bind, Except.bind]

theorem bind_eq_error_iff {f : α → Except ε β} {e : ε} :
    (x >>= f) = .error e ↔ x = .error e ∨ ∃ a, x = .ok a ∧ f a = .error e := by
  cases x <;> simp [bind, Except.bind]

/-- A computation that does not fail as the whole does has succeeded. -/
theorem bind_eq_iff {f : α → Except ε β} {r : Except ε β} (h : ∀ e, r = .error e → x ≠ .error e) :
    (x >>= f) = r ↔ ∃ a, x = .ok a ∧ f a = r := by
  cases x with
  | ok a => simp [bind, Except.bind]
  | error e =>
      have other : Except.error e ≠ r := fun same => h e same.symm rfl
      simpa [bind, Except.bind] using other

theorem pure_eq_ok_iff {a : α} : (pure a : Except ε α) = .ok t ↔ a = t :=
  Except.ok.injEq a t ▸ Iff.rfl

theorem map_eq_ok_iff {f : α → β} {t : β} : f <$> x = .ok t ↔ ∃ a, x = .ok a ∧ f a = t := by
  cases x <;> simp [Functor.map, Except.map]

theorem mapM_eq_ok_iff {ι : Type v} {f : ι → Except ε β} {p : ι → Prop} {g : ι → β}
    (h : ∀ x y, f x = .ok y ↔ p x ∧ y = g x) {xs : List ι} {ys : List β} :
    xs.mapM f = .ok ys ↔ (∀ x ∈ xs, p x) ∧ ys = xs.map g := by
  induction xs generalizing ys with
  | nil => simp [pure, Except.pure, eq_comm]
  | cons x xs ih =>
      simp only [mapM_cons, bind_eq_ok_iff, h, ih, forall_mem_cons, map_cons]
      constructor
      · rintro ⟨y, ⟨first, rfl⟩, zs, ⟨rest, rfl⟩, done⟩
        exact ⟨⟨first, rest⟩, (Except.ok.inj done).symm⟩
      · rintro ⟨⟨first, rest⟩, rfl⟩
        exact ⟨_, ⟨first, rfl⟩, _, ⟨rest, rfl⟩, rfl⟩

theorem exists_left_of_forall₂ {ι : Type u} {κ : Type v} {r : ι → κ → Prop} {xs : List ι}
    {ys : List κ} {y : κ} (h : List.Forall₂ r xs ys) (mem : y ∈ ys) : ∃ x ∈ xs, r x y := by
  induction h with
  | nil => cases mem
  | cons related _ ih =>
      obtain rfl | later := mem_cons.mp mem
      · exact ⟨_, mem_cons_self, related⟩
      · obtain ⟨x, inside, related⟩ := ih later
        exact ⟨x, mem_cons_of_mem _ inside, related⟩

theorem exists_right_of_forall₂ {ι : Type u} {κ : Type v} {r : ι → κ → Prop} {xs : List ι}
    {ys : List κ} {x : ι} (h : List.Forall₂ r xs ys) (mem : x ∈ xs) : ∃ y ∈ ys, r x y :=
  exists_left_of_forall₂ h.flip mem

end Check

variable {σ : Type u} {τ : Type w} {ι : Type v} {ε : Type u}
variable {step : σ → ι → σ} {ok other : σ → ι → Prop} {f : σ → ι → Except ε σ}
variable {s t : σ} {xs ys : List ι}

/-- The fallible step `f` takes the transition `step` exactly when `ok` holds. -/
def Guards (f : σ → ι → Except ε σ) (ok : σ → ι → Prop) (step : σ → ι → σ) : Prop :=
  ∀ s x t, f s x = .ok t ↔ ok s x ∧ t = step s x

theorem Guards.scan_ok_iff (h : Guards f ok step) :
    xs.foldlM f s = .ok t ↔ Along step ok s xs ∧ t = run step s xs := by
  induction xs generalizing s with
  | nil => simp [Along, pure, Except.pure, eq_comm]
  | cons x xs ih =>
      rw [foldlM_cons]
      cases hx : f s x with
      | error e =>
          have refused : ¬ ok s x := by
            intro hok
            have := (h s x (step s x)).mpr ⟨hok, rfl⟩
            simp [hx] at this
          simp [bind, Except.bind, Along, refused]
      | ok next =>
          obtain ⟨hok, rfl⟩ := (h s x next).mp hx
          simpa [bind, Except.bind, Along, hok] using ih

/-- A guarded scan fails at the first element that its guard refuses, with the error of that
element. -/
theorem Guards.scan_error_iff (h : Guards f ok step) {e : ε} :
    xs.foldlM f s = .error e ↔ ∃ before x after, xs = before ++ x :: after ∧
      Along step ok s before ∧ f (run step s before) x = .error e := by
  induction xs generalizing s with
  | nil =>
      refine iff_of_false nofun ?_
      rintro ⟨before, x, after, split, -⟩
      exact cons_ne_nil _ _ (append_eq_nil_iff.mp split.symm).2
  | cons x xs ih =>
      rw [foldlM_cons, bind_eq_error_iff]
      constructor
      · rintro (first | ⟨next, taken, later⟩)
        · exact ⟨[], x, xs, rfl, trivial, first⟩
        · obtain ⟨accepted, rfl⟩ := (h s x next).mp taken
          obtain ⟨before, y, after, rfl, along, failed⟩ := ih.mp later
          exact ⟨x :: before, y, after, rfl, ⟨accepted, along⟩, failed⟩
      · rintro ⟨before, y, after, split, along, failed⟩
        cases before with
        | nil =>
            obtain ⟨rfl, rfl⟩ := List.cons.inj split
            exact .inl failed
        | cons z before =>
            obtain ⟨rfl, rfl⟩ := List.cons.inj split
            obtain ⟨accepted, along⟩ := along
            exact .inr ⟨step s x, (h s x _).mpr ⟨accepted, rfl⟩,
              ih.mpr ⟨before, y, after, rfl, along, failed⟩⟩

/-- Induction over a scan that has succeeded: the statement may speak of everything read so
far, and a step may use its place in the list. -/
theorem foldlM_invariant {motive : List ι → σ → Prop}
    (keep : ∀ seen x rest s t, xs = seen ++ x :: rest → motive seen s → f s x = .ok t →
      motive (seen ++ [x]) t)
    (start : motive [] s) (h : xs.foldlM f s = .ok t) : motive xs t := by
  have general : ∀ seen rest s, xs = seen ++ rest → motive seen s → rest.foldlM f s = .ok t →
      motive xs t := by
    intro seen rest
    induction rest generalizing seen with
    | nil =>
        intro s whole inv done
        obtain rfl : s = t := Except.ok.inj done
        rw [whole, append_nil]
        exact inv
    | cons x rest ih =>
        intro s whole inv done
        rw [foldlM_cons, bind_eq_ok_iff] at done
        obtain ⟨next, step, done⟩ := done
        exact ih (seen ++ [x]) next (by simp [whole]) (keep seen x rest s next whole inv step) done
  exact general [] xs s rfl start h

theorem along_and :
    Along step (fun s x => ok s x ∧ other s x) s xs ↔
      Along step ok s xs ∧ Along step other s xs := by
  induction xs generalizing s with
  | nil => simp [Along]
  | cons x xs ih =>
      simp only [Along, ih]
      exact and_and_and_comm

theorem Along.imp (weaken : ∀ s x, ok s x → other s x) (h : Along step ok s xs) :
    Along step other s xs := by
  induction xs generalizing s with
  | nil => trivial
  | cons x xs ih => exact ⟨weaken s x h.1, ih h.2⟩

/-- A list that one guard accepts is accepted by another, or there is a first element that
only the one guard accepts. -/
theorem Along.or_first_failure (h : Along step ok s xs) :
    Along step other s xs ∨ ∃ before x after, xs = before ++ x :: after ∧
      Along step other s before ∧ ok (run step s before) x ∧ ¬ other (run step s before) x := by
  induction xs using reverseRecOn with
  | nil => exact .inl trivial
  | append_singleton xs x ih =>
      obtain ⟨first, next, -⟩ := along_append.mp h
      obtain accepted | ⟨before, y, after, rfl, rest⟩ := ih first
      · by_cases hx : other (run step s xs) x
        · exact .inl (along_append.mpr ⟨accepted, hx, trivial⟩)
        · exact .inr ⟨xs, x, [], rfl, accepted, next, hx⟩
      · exact .inr ⟨before, y, after ++ [x], by simp, rest⟩

/-- Induction over an accepted list from its end: the statement may speak of everything
read so far and of the state reached. -/
theorem Along.history_invariant {Inv : List ι → σ → Prop} (start : Inv [] s)
    (keep : ∀ xs x, Inv xs (run step s xs) → ok (run step s xs) x →
      Inv (xs ++ [x]) (step (run step s xs) x))
    (h : Along step ok s xs) : Inv xs (run step s xs) := by
  induction xs using reverseRecOn with
  | nil => exact start
  | append_singleton xs x ih =>
      obtain ⟨first, next, -⟩ := along_append.mp h
      rw [run_append]
      exact keep xs x (ih first) next

/-- A run whose state is projected by `g` is a run of the projected transition. -/
theorem run_project {g : σ → τ} {image : τ → ι → τ}
    (commutes : ∀ s x, g (step s x) = image (g s) x) : g (run step s xs) = run image (g s) xs := by
  induction xs generalizing s with
  | nil => rfl
  | cons x xs ih => rw [run_cons, run_cons, ih, commutes]

theorem along_project {g : σ → τ} {image : τ → ι → τ} {rule : τ → ι → Prop}
    (commutes : ∀ s x, g (step s x) = image (g s) x) :
    Along step (fun s x => rule (g s) x) s xs ↔ Along image rule (g s) xs := by
  induction xs generalizing s with
  | nil => simp [Along]
  | cons x xs ih => simp only [Along, ih, commutes]

/-- A scan of a list is a scan of what its elements stand for. -/
theorem along_map {κ : Type w} {g : κ → ι} {zs : List κ} :
    Along (fun s z => step s (g z)) (fun s z => ok s (g z)) s zs ↔ Along step ok s (zs.map g) := by
  induction zs generalizing s with
  | nil => simp [Along]
  | cons z zs ih => simp only [Along, map_cons, ih]

theorem along_const {p : ι → Prop} : Along step (fun _ x => p x) s xs ↔ ∀ x ∈ xs, p x := by
  induction xs generalizing s with
  | nil => simp [Along]
  | cons x xs ih => simp [Along, ih]

/-- What the scan reads before the first element it refuses. -/
def acceptedPrefix (f : σ → ι → Except ε σ) : σ → List ι → List ι
  | _, [] => []
  | s, x :: xs =>
    match f s x with
    | .ok t => x :: acceptedPrefix f t xs
    | .error _ => []

theorem acceptedPrefix_isPrefix : acceptedPrefix f s xs <+: xs := by
  induction xs generalizing s with
  | nil => exact prefix_rfl
  | cons x xs ih =>
      simp only [acceptedPrefix]
      split
      · exact cons_prefix_cons.mpr ⟨rfl, ih⟩
      · exact nil_prefix

theorem Guards.along_acceptedPrefix (h : Guards f ok step) :
    Along step ok s (acceptedPrefix f s xs) := by
  induction xs generalizing s with
  | nil => trivial
  | cons x xs ih =>
      simp only [acceptedPrefix]
      split
      · rename_i t ht
        obtain ⟨hok, rfl⟩ := (h s x t).mp ht
        exact ⟨hok, ih⟩
      · trivial

theorem Guards.prefix_acceptedPrefix (h : Guards f ok step) {pre : List ι}
    (isPrefix : pre <+: xs) (accepted : Along step ok s pre) :
    pre <+: acceptedPrefix f s xs := by
  induction xs generalizing s pre with
  | nil => simpa [acceptedPrefix] using isPrefix
  | cons x xs ih =>
      cases pre with
      | nil => exact nil_prefix
      | cons y pre =>
          obtain ⟨rfl, tailPrefix⟩ := cons_prefix_cons.mp isPrefix
          have taken : f s y = .ok (step s y) := (h s y _).mpr ⟨accepted.1, rfl⟩
          simp only [acceptedPrefix, taken]
          exact cons_prefix_cons.mpr ⟨rfl, ih tailPrefix accepted.2⟩

section

variable {f : ι → Except ε PUnit} {xs : List ι}

theorem forM_eq_ok (h : ∀ x ∈ xs, f x = .ok ⟨⟩) : xs.forM f = .ok ⟨⟩ := by
  induction xs with
  | nil => rfl
  | cons x xs ih =>
      change (f x >>= fun _ => xs.forM f) = .ok ⟨⟩
      rw [h x mem_cons_self]
      exact ih fun y mem => h y (mem_cons_of_mem _ mem)

theorem forM_eq_ok_iff : xs.forM f = .ok ⟨⟩ ↔ ∀ x ∈ xs, f x = .ok ⟨⟩ := by
  refine ⟨fun h => ?_, forM_eq_ok⟩
  induction xs with
  | nil => exact nofun
  | cons x xs ih =>
      change (f x >>= fun _ => xs.forM f) = .ok ⟨⟩ at h
      cases first : f x with
      | error =>
          rw [first] at h
          cases h
      | ok =>
          rw [first] at h
          exact forall_mem_cons.mpr ⟨first, ih h⟩

/-- A loop that fails does so at one of its items. -/
theorem exists_of_forM_eq_error {e : ε} (h : xs.forM f = .error e) : ∃ x ∈ xs, f x = .error e := by
  induction xs with
  | nil => cases h
  | cons x xs ih =>
      change (f x >>= fun _ => xs.forM f) = .error e at h
      cases first : f x with
      | error e' =>
          rw [first] at h
          exact ⟨x, mem_cons_self, first.trans h⟩
      | ok =>
          rw [first] at h
          obtain ⟨y, mem, failed⟩ := ih h
          exact ⟨y, mem_cons_of_mem _ mem, failed⟩

end

/-! ### Searches that may fail -/

section

variable {f : ι → Except ε Bool} {xs : List ι}

theorem exists_of_anyM_eq_ok (h : xs.anyM f = .ok true) : ∃ x ∈ xs, f x = .ok true := by
  induction xs with
  | nil => cases h
  | cons x xs ih =>
      cases first : f x with
      | error e => simp [anyM, first, bind, Except.bind] at h
      | ok found =>
          cases found with
          | true => exact ⟨x, mem_cons_self, first⟩
          | false =>
              have rest : xs.anyM f = .ok true := by
                simpa [anyM, first, bind, Except.bind] using h
              obtain ⟨y, mem, found⟩ := ih rest
              exact ⟨y, mem_cons_of_mem x mem, found⟩

/-- A search that cannot fail finds what there is. -/
theorem anyM_eq_ok_of_exists (total : ∀ x ∈ xs, ∃ found, f x = .ok found)
    (h : ∃ x ∈ xs, f x = .ok true) :
    xs.anyM f = .ok true := by
  induction xs with
  | nil =>
      obtain ⟨x, mem, -⟩ := h
      cases mem
  | cons x xs ih =>
      obtain ⟨found, first⟩ := total x mem_cons_self
      cases found with
      | true => simp [anyM, first, bind, Except.bind, pure, Except.pure]
      | false =>
          obtain ⟨y, mem, found⟩ := h
          have rest := ih (fun z mem => total z (mem_cons_of_mem x mem)) <| by
            rcases mem_cons.mp mem with rfl | mem
            · rw [first] at found
              cases found
            · exact ⟨y, mem, found⟩
          simpa [anyM, first, bind, Except.bind] using rest

theorem forall_of_allM_eq_ok (h : xs.allM f = .ok true) : ∀ x ∈ xs, f x = .ok true := by
  induction xs with
  | nil => exact forall_mem_nil _
  | cons x xs ih =>
      cases first : f x with
      | error e => simp [allM, first, bind, Except.bind] at h
      | ok found =>
          cases found with
          | false => simp [allM, first, bind, Except.bind, pure, Except.pure] at h
          | true =>
              refine forall_mem_cons.mpr ⟨first, ih ?_⟩
              simpa [allM, first, bind, Except.bind] using h

end

theorem foldlM_congr_mem {m : Type u → Type v} [Monad m] {σ : Type u} {f g : σ → ι → m σ}
    (h : ∀ x ∈ xs, ∀ s, f s x = g s x) (s : σ) : xs.foldlM f s = xs.foldlM g s := by
  induction xs generalizing s with
  | nil => rfl
  | cons x xs ih =>
      rw [foldlM_cons, foldlM_cons, h x mem_cons_self]
      congr 1
      funext t
      exact ih (fun y mem => h y (mem_cons_of_mem _ mem)) t

/-- A scan that succeeds has succeeded on every item. -/
theorem foldlM_ok_mem {x : ι} (h : xs.foldlM f s = .ok t) (mem : x ∈ xs) :
    ∃ before after, f before x = .ok after := by
  induction xs generalizing s with
  | nil => cases mem
  | cons y ys ih =>
      rw [foldlM_cons] at h
      obtain ⟨next, first, rest⟩ := bind_eq_ok_iff.mp h
      obtain rfl | later := mem_cons.mp mem
      · exact ⟨s, next, first⟩
      · exact ih rest later

theorem findSome?_congr_mem {σ : Type u} {f g : ι → Option σ} (h : ∀ x ∈ xs, f x = g x) :
    xs.findSome? f = xs.findSome? g := by
  induction xs with
  | nil => rfl
  | cons x xs ih =>
      rw [findSome?_cons, findSome?_cons, h x mem_cons_self,
        ih fun y mem => h y (mem_cons_of_mem _ mem)]

/-- A scan that stops inside a list does not see what is appended to it. -/
theorem takeWhile_append_of_stop {p : ι → Bool} {x : ι} (mem : x ∈ xs) (stop : p x = false) :
    (xs ++ ys).takeWhile p = xs.takeWhile p := by
  rw [takeWhile_append, if_neg]
  intro all
  have whole : xs.takeWhile p = xs := (List.takeWhile_prefix p).eq_of_length all
  have here := takeWhile_eq_self_iff.mp whole x mem
  rw [stop] at here
  cases here

end Aegis.Foundation
