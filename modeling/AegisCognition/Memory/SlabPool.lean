import AegisCognition.Memory.SlotId
import Mathlib.Algebra.BigOperators.Group.List.Basic
import Mathlib.Data.List.Nodup

/-!
# Slab pools

A pool holds its values in numbered slots. A removed value leaves its slot to the free list with
the generation it had; the next insertion takes the slot that was freed last and moves its
generation on. Every index of the free list is the number of a slot, so taking one cannot fail.
-/

namespace Aegis.Memory

universe u

variable {T : Type u}

structure SlabHeader where
  freeListHead : BitVec 32
  capacity : BitVec 32

structure SlabEntry (T : Type u) where
  value : Option T
  generation : Generation

/-- The free list is a stack and is written with its top first. -/
@[ext]
structure SlabPool (T : Type u) where
  header : SlabHeader
  entries : List (SlabEntry T)
  freeList : List (BitVec 32)
  liveLen : Nat
  free_lt : ∀ index ∈ freeList, index.toNat < entries.length

/-- `u32::MAX`. -/
def noSlot : BitVec 32 := BitVec.allOnes 32

namespace SlabPool

open List

def withCapacity (capacity : Nat) : SlabPool T where
  header := ⟨noSlot, BitVec.ofNat 32 capacity⟩
  entries := []
  freeList := []
  liveLen := 0
  free_lt := nofun

def new : SlabPool T := withCapacity 0

section

variable (pool : SlabPool T)

/-- The slot on the top of the free list takes the value. -/
def reuse (index : BitVec 32) (rest : List (BitVec 32)) (free : pool.freeList = index :: rest)
    (val : T) : (BitVec 32 × Generation) × SlabPool T :=
  have bound : index.toNat < pool.entries.length :=
    pool.free_lt index (free ▸ mem_cons_self)
  let generation := pool.entries[index.toNat].generation.next
  ((index, generation),
    { header := { pool.header with freeListHead := rest.headD noSlot }
      entries := pool.entries.set index.toNat ⟨some val, generation⟩
      freeList := rest
      liveLen := pool.liveLen + 1
      free_lt := fun other mem => by
        rw [length_set]
        exact pool.free_lt other (free ▸ mem_cons_of_mem _ mem) })

/-- A new slot takes the value. -/
def grow (val : T) : (BitVec 32 × Generation) × SlabPool T :=
  let entries := pool.entries ++ [⟨some val, .first⟩]
  ((BitVec.ofNat 32 pool.entries.length, .first),
    { header := { pool.header with capacity := BitVec.ofNat 32 entries.length }
      entries
      freeList := pool.freeList
      liveLen := pool.liveLen + 1
      free_lt := fun other mem => by
        rw [length_append]
        exact Nat.lt_add_right 1 (pool.free_lt other mem) })

/-- The number and the generation of the slot that took the value, and the pool. -/
def insert (val : T) : (BitVec 32 × Generation) × SlabPool T :=
  match free : pool.freeList with
  | index :: rest => pool.reuse index rest free val
  | [] => pool.grow val

def get (index : BitVec 32) (generation : Generation) : Option T :=
  match pool.entries[index.toNat]? with
  | some entry => if entry.generation = generation then entry.value else none
  | none => none

/-- The entry of a slot is overwritten in place. -/
def setEntry (index : BitVec 32) (entry : SlabEntry T) : SlabPool T :=
  { pool with
    entries := pool.entries.set index.toNat entry
    free_lt := fun other mem => by
      rw [length_set]
      exact pool.free_lt other mem }

/-- What `get_mut` lets its caller do: the value that the slot holds changes, if it has one. -/
def getMut (index : BitVec 32) (generation : Generation) (update : T → T) : SlabPool T :=
  match pool.entries[index.toNat]? with
  | some entry =>
    if entry.generation = generation then
      pool.setEntry index { entry with value := entry.value.map update }
    else pool
  | none => pool

def remove (index : BitVec 32) (generation : Generation) : Option T × SlabPool T :=
  match found : pool.entries[index.toNat]? with
  | some entry =>
    if entry.generation = generation ∧ entry.value.isSome then
      (entry.value,
        { header := { pool.header with freeListHead := index }
          entries := pool.entries.set index.toNat { entry with value := none }
          freeList := index :: pool.freeList
          liveLen := pool.liveLen - 1
          free_lt := fun other mem => by
            rw [List.length_set]
            obtain rfl | old := List.mem_cons.mp mem
            · exact (List.getElem?_eq_some_iff.mp found).1
            · exact pool.free_lt other old })
    else (none, pool)
  | none => (none, pool)

/-- The values in the order of their slots. -/
def values : List T :=
  pool.entries.filterMap SlabEntry.value

end

/-- The free list names each slot without a value once, and every slot number fits into an
identifier. -/
structure Valid (pool : SlabPool T) : Prop where
  nodup : pool.freeList.Nodup
  free_iff : ∀ slot entry, pool.entries[slot]? = some entry →
    (BitVec.ofNat 32 slot ∈ pool.freeList ↔ entry.value = none)
  small : pool.entries.length ≤ 2 ^ 29

variable {pool : SlabPool T} {val : T} {index : BitVec 32} {generation : Generation}

theorem Valid.withCapacity (capacity : Nat) : (withCapacity capacity : SlabPool T).Valid where
  nodup := nodup_nil
  free_iff := nofun
  small := Nat.zero_le _

theorem toNat_ofNat_of_small {slot : Nat} (h : slot ≤ 2 ^ 29) :
    (BitVec.ofNat 32 slot).toNat = slot := by
  rw [BitVec.toNat_ofNat]
  omega

theorem get_eq_some_iff :
    pool.get index generation = some val ↔
      pool.entries[index.toNat]? = some ⟨some val, generation⟩ := by
  simp only [get]
  cases found : pool.entries[index.toNat]? with
  | none => simp
  | some entry =>
      obtain ⟨value, current⟩ := entry
      by_cases same : current = generation <;> simp [same]

/-- The weight of the values that a pool holds. -/
def total (weight : T → Nat) (pool : SlabPool T) : Nat :=
  (pool.values.map weight).sum

/-! ### What an operation does to the slots -/

/-- A value comes to the slot of the given number: the slot was empty or it is a new one. -/
structure Inserts (pool : SlabPool T) (val : T) (slot : Nat) (generation : Generation)
    (after : SlabPool T) : Prop where
  valid : after.Valid
  entries : ∀ other, after.entries[other]? =
    if other = slot then some ⟨some val, generation⟩ else pool.entries[other]?
  origin : (∃ entry, pool.entries[slot]? = some entry ∧ entry.value = none ∧
      generation = entry.generation.next) ∨
    pool.entries[slot]? = none ∧ generation = .first
  slot_lt : slot < 2 ^ 29
  total : ∀ weight, after.total weight = weight val + pool.total weight

theorem sum_filterMap_set (weight : T → Nat) {entries : List (SlabEntry T)} {slot : Nat}
    {old : SlabEntry T} (new : SlabEntry T) (found : entries[slot]? = some old) :
    (((entries.set slot new).filterMap SlabEntry.value).map weight).sum +
        old.value.elim 0 weight =
      ((entries.filterMap SlabEntry.value).map weight).sum + new.value.elim 0 weight := by
  have split (entry : SlabEntry T) (rest : List (SlabEntry T)) :
      (((entry :: rest).filterMap SlabEntry.value).map weight).sum =
        entry.value.elim 0 weight + ((rest.filterMap SlabEntry.value).map weight).sum := by
    cases value : entry.value <;> simp [value]
  induction entries generalizing slot with
  | nil => simp at found
  | cons entry entries ih =>
      cases slot with
      | zero =>
          obtain rfl : entry = old := by simpa using found
          rw [set_cons_zero, split, split]
          omega
      | succ slot =>
          have rest := @ih slot (by simpa using found)
          rw [set_cons_succ, split, split]
          omega

theorem reuse_inserts {rest : List (BitVec 32)} (valid : pool.Valid)
    (free : pool.freeList = index :: rest) :
    pool.Inserts val index.toNat (pool.reuse index rest free val).1.2
      (pool.reuse index rest free val).2 := by
  have bound : index.toNat < pool.entries.length :=
    pool.free_lt index (free ▸ List.mem_cons_self)
  have found : pool.entries[index.toNat]? = some pool.entries[index.toNat] :=
    List.getElem?_eq_getElem bound
  have small := valid.small
  have nodup := valid.nodup
  rw [free, List.nodup_cons] at nodup
  have vacant : pool.entries[index.toNat].value = none := by
    refine (valid.free_iff _ _ found).mp ?_
    rw [BitVec.ofNat_toNat, BitVec.setWidth_eq, free]
    exact List.mem_cons_self
  refine ⟨⟨nodup.2, ?_, ?_⟩, ?_, .inl ⟨_, found, vacant, rfl⟩, by omega, ?_⟩
  · intro slot entry present
    simp only [reuse] at present ⊢
    by_cases here : slot = index.toNat
    · subst here
      rw [List.getElem?_set_self bound] at present
      cases present
      rw [BitVec.ofNat_toNat, BitVec.setWidth_eq]
      exact ⟨fun mem => absurd mem nodup.1, fun none => nomatch none⟩
    · rw [List.getElem?_set_ne (Ne.symm here)] at present
      have before := valid.free_iff slot entry present
      have slot_lt := (List.getElem?_eq_some_iff.mp present).1
      have apart : BitVec.ofNat 32 slot ≠ index := by
        rintro rfl
        exact here (toNat_ofNat_of_small (by omega)).symm
      rw [free, List.mem_cons, or_iff_right apart] at before
      exact before
  · simpa only [reuse, List.length_set] using small
  · intro other
    rw [reuse, List.getElem?_set, if_pos bound]
    exact if_congr eq_comm rfl rfl
  · intro weight
    have sum := sum_filterMap_set weight
      ⟨some val, pool.entries[index.toNat].generation.next⟩ found
    rw [vacant] at sum
    simp only [Option.elim_none, Option.elim_some, Nat.add_zero] at sum
    simp only [total, values, reuse, sum]
    omega

theorem grow_inserts (valid : pool.Valid) (room : pool.entries.length < 2 ^ 29) :
    pool.Inserts val pool.entries.length (pool.grow val).1.2 (pool.grow val).2 := by
  have entries : ∀ other, (pool.grow val).2.entries[other]? =
      if other = pool.entries.length then some ⟨some val, .first⟩ else pool.entries[other]? := by
    intro other
    simp only [grow, getElem?_append]
    split
    · rw [if_neg (by omega)]
    · by_cases here : other = pool.entries.length
      · simp [here]
      · have past : 1 ≤ other - pool.entries.length := by omega
        rw [if_neg here, getElem?_eq_none past, getElem?_eq_none (by omega)]
  have absent : pool.entries[pool.entries.length]? = none :=
    getElem?_eq_none (Nat.le_refl _)
  refine ⟨⟨valid.nodup, ?_, ?_⟩, entries, .inr ⟨absent, rfl⟩, room, ?_⟩
  · intro slot entry present
    rw [entries] at present
    split at present
    · rename_i here
      subst here
      cases present
      refine ⟨fun mem => ?_, fun none => nomatch none⟩
      have bound := pool.free_lt _ mem
      rw [toNat_ofNat_of_small (by omega)] at bound
      omega
    · exact valid.free_iff slot entry present
  · simp only [grow, length_append, length_singleton]
    omega
  · intro weight
    simp [total, values, grow]
    omega

theorem insert_inserts (valid : pool.Valid) (room : (pool.insert val).2.entries.length ≤ 2 ^ 29) :
    ∃ slot, (pool.insert val).1.1 = BitVec.ofNat 32 slot ∧
      pool.Inserts val slot (pool.insert val).1.2 (pool.insert val).2 := by
  unfold insert at room ⊢
  split at room
  · rename_i index rest free
    exact ⟨index.toNat, by simp [reuse], reuse_inserts valid free⟩
  · simp only [grow, length_append, length_singleton] at room
    exact ⟨_, rfl, grow_inserts valid (by omega)⟩

/-- A value in a slot changes to another one, or the slot loses it. -/
structure Replaces (pool : SlabPool T) (old : T) (slot : Nat) (generation : Generation)
    (new : Option T) (after : SlabPool T) : Prop where
  valid : after.Valid
  found : pool.entries[slot]? = some ⟨some old, generation⟩
  entries : ∀ other, after.entries[other]? =
    if other = slot then some ⟨new, generation⟩ else pool.entries[other]?
  total : ∀ weight, after.total weight + weight old = pool.total weight + new.elim 0 weight

/-- What a change of one slot does, once the free list is known to stay right. -/
theorem Replaces.of_set {old : T} {new : Option T} {after : SlabPool T}
    (found : pool.entries[index.toNat]? = some ⟨some old, generation⟩)
    (entries : after.entries = pool.entries.set index.toNat ⟨new, generation⟩)
    (valid : after.Valid) : pool.Replaces old index.toNat generation new after := by
  have bound := (List.getElem?_eq_some_iff.mp found).1
  refine ⟨valid, found, ?_, ?_⟩
  · intro other
    rw [entries, List.getElem?_set, if_pos bound]
    exact if_congr eq_comm rfl rfl
  · intro weight
    have sum := sum_filterMap_set weight ⟨new, generation⟩ found
    simp only [SlabPool.total, values, entries]
    exact sum

theorem getMut_eq_setEntry {update : T → T} (found : pool.get index generation = some val) :
    pool.getMut index generation update =
      pool.setEntry index ⟨some (update val), generation⟩ := by
  simp [getMut, get_eq_some_iff.mp found]

theorem getMut_replaces {update : T → T} (valid : pool.Valid)
    (found : pool.get index generation = some val) :
    pool.Replaces val index.toNat generation (some (update val))
      (pool.getMut index generation update) := by
  have entry := get_eq_some_iff.mp found
  have bound := (List.getElem?_eq_some_iff.mp entry).1
  rw [getMut_eq_setEntry found]
  refine .of_set entry rfl ⟨valid.nodup, ?_, ?_⟩
  · intro slot other present
    simp only [setEntry] at present ⊢
    by_cases here : slot = index.toNat
    · subst here
      rw [List.getElem?_set_self bound] at present
      cases present
      have before := valid.free_iff _ _ entry
      exact iff_of_false (fun mem => absurd (before.mp mem) (by simp)) (by simp)
    · rw [List.getElem?_set_ne (Ne.symm here)] at present
      exact valid.free_iff slot other present
  · simpa only [setEntry, List.length_set] using valid.small

theorem get_getMut {update : T → T} (found : pool.get index generation = some val) :
    (pool.getMut index generation update).get index generation = some (update val) := by
  have bound := (List.getElem?_eq_some_iff.mp (get_eq_some_iff.mp found)).1
  rw [getMut_eq_setEntry found, get_eq_some_iff]
  exact List.getElem?_set_self bound

/-- Writing the old value back undoes a change. -/
theorem getMut_getMut_const {update : T → T} (found : pool.get index generation = some val) :
    (pool.getMut index generation update).getMut index generation (fun _ => val) = pool := by
  have entry := get_eq_some_iff.mp found
  rw [getMut_eq_setEntry (get_getMut found), getMut_eq_setEntry found]
  obtain ⟨bound, here⟩ := List.getElem?_eq_some_iff.mp entry
  have same : pool.entries.set index.toNat ⟨some val, generation⟩ = pool.entries := by
    rw [← here, List.set_getElem_self]
  ext1
  · rfl
  · simp only [setEntry, List.set_set, same]
  · rfl
  · rfl

/-- A removal finds a value and empties its slot, or it finds none and changes nothing. -/
theorem remove_cases (valid : pool.Valid) (index : BitVec 32) (generation : Generation) :
    pool.get index generation = none ∧ pool.remove index generation = (none, pool) ∨
      ∃ val, pool.get index generation = some val ∧ (pool.remove index generation).1 = some val ∧
        pool.Replaces val index.toNat generation none (pool.remove index generation).2 := by
  unfold remove
  split
  · rename_i entry found
    split
    · rename_i matched
      obtain ⟨rfl, present⟩ := matched
      obtain ⟨val, value⟩ := Option.isSome_iff_exists.mp present
      have entryIs : pool.entries[index.toNat]? = some ⟨some val, entry.generation⟩ := by
        rw [found, ← value]
      have bound := (List.getElem?_eq_some_iff.mp found).1
      have small := valid.small
      refine .inr ⟨val, get_eq_some_iff.mpr entryIs, value, .of_set entryIs rfl ⟨?_, ?_, ?_⟩⟩
      · refine List.nodup_cons.mpr ⟨fun mem => ?_, valid.nodup⟩
        have occupied := (valid.free_iff _ _ found).mp (by simpa using mem)
        rw [value] at occupied
        exact nomatch occupied
      · intro slot other present
        by_cases here : slot = index.toNat
        · subst here
          rw [List.getElem?_set_self bound] at present
          cases present
          simp
        · rw [List.getElem?_set_ne (Ne.symm here)] at present
          have slot_lt := (List.getElem?_eq_some_iff.mp present).1
          have apart : BitVec.ofNat 32 slot ≠ index := by
            rintro rfl
            exact here (toNat_ofNat_of_small (by omega)).symm
          rw [List.mem_cons, or_iff_right apart]
          exact valid.free_iff slot other present
      · rw [List.length_set]
        exact valid.small
    · rename_i unmatched
      refine .inl ⟨?_, rfl⟩
      simp only [get, found]
      split
      · rename_i same
        cases value : entry.value with
        | none => rfl
        | some val => exact absurd ⟨same, by simp [value]⟩ unmatched
      · rfl
  · rename_i missing
    exact .inl ⟨by simp [get, missing], rfl⟩

end SlabPool

end Aegis.Memory
