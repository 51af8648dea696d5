import Mathlib.Data.List.AList

/-!
# Bounded caches

A cache that is emptied when a new key no longer fits. What is known of every value that is put
in is known of every value that is found later, whatever has been thrown away in between.
-/

namespace Aegis.Foundation

universe u v

variable {α : Type u} {β : Type v} [DecidableEq α]

/-- Put a value in, after emptying the cache if the key is new and there is no room. -/
def boundedPut (limit : Nat) (cache : AList fun _ : α => β) (key : α) (value : β) :
    AList fun _ : α => β :=
  if limit ≤ cache.entries.length ∧ key ∉ cache then
    (∅ : AList fun _ : α => β).insert key value
  else cache.insert key value

/-- Something is known of every value that the cache holds. -/
def Remembers (known : α → β → Prop) (cache : AList fun _ : α => β) : Prop :=
  ∀ key value, cache.lookup key = some value → known key value

namespace Remembers

variable {known : α → β → Prop} {cache : AList fun _ : α => β} {key : α} {value : β} {limit : Nat}

theorem empty : Remembers known ∅ := by
  intro key value found
  rw [AList.lookup_empty] at found
  cases found

theorem insert (remembers : Remembers known cache) (new : known key value) :
    Remembers known (cache.insert key value) := by
  intro other old found
  by_cases same : other = key
  · subst same
    rw [AList.lookup_insert] at found
    cases found
    exact new
  · rw [AList.lookup_insert_ne same] at found
    exact remembers other old found

theorem put (remembers : Remembers known cache) (new : known key value) :
    Remembers known (boundedPut limit cache key value) := by
  rw [boundedPut]
  split
  · exact empty.insert new
  · exact remembers.insert new

end Remembers

end Aegis.Foundation
