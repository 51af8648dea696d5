import Mathlib.Data.Nat.Bitwise

/-!
# Slot identifiers

An identifier packs the class of a pool into the top three bits of its index and carries the
generation of its slot. Five of the eight class codes are in use; unpacking reads the other
three as the overflow pool, too.
-/

namespace Aegis.Memory

open BitVec

/-- The five pools, by the longest payload they hold. -/
inductive PoolClass
  | upTo32 | upTo64 | upTo128 | upTo256 | overflow
  deriving DecidableEq

namespace PoolClass

def classBits : PoolClass → BitVec 32
  | upTo32 => 0
  | upTo64 => 1
  | upTo128 => 2
  | upTo256 => 3
  | overflow => 4

def ofClassBits (bits : BitVec 32) : PoolClass :=
  if bits = 0 then upTo32
  else if bits = 1 then upTo64
  else if bits = 2 then upTo128
  else if bits = 3 then upTo256
  else overflow

@[simp] theorem ofClassBits_classBits (poolClass : PoolClass) :
    ofClassBits poolClass.classBits = poolClass := by
  cases poolClass <;> rfl

theorem classBits_le (poolClass : PoolClass) : poolClass.classBits.toNat ≤ 4 := by
  cases poolClass <;> decide

theorem classBits_ofClassBits {bits : BitVec 32} (h : bits.toNat ≤ 4) :
    (ofClassBits bits).classBits = bits := by
  have cases : bits = 0 ∨ bits = 1 ∨ bits = 2 ∨ bits = 3 ∨ bits = 4 := by
    bv_omega
  obtain rfl | rfl | rfl | rfl | rfl := cases <;> rfl

end PoolClass

def poolClassForPayloadLen (len : Nat) : PoolClass :=
  if len ≤ 32 then .upTo32
  else if len ≤ 64 then .upTo64
  else if len ≤ 128 then .upTo128
  else if len ≤ 256 then .upTo256
  else .overflow

/-- A word that is not zero. -/
structure Generation where
  get : BitVec 32
  nonzero : get ≠ 0
  deriving DecidableEq

namespace Generation

def first : Generation := ⟨1, by decide⟩

/-- The next generation of a slot; the first one follows the last. -/
def next (generation : Generation) : Generation :=
  if h : generation.get + 1 = 0 then first else ⟨generation.get + 1, h⟩

theorem toNat_next {generation : Generation} (h : generation.get.toNat + 1 < 2 ^ 32) :
    generation.next.get.toNat = generation.get.toNat + 1 := by
  have value : (generation.get + 1).toNat = generation.get.toNat + 1 := by
    rw [toNat_add]
    exact Nat.mod_eq_of_lt h
  have nonzero : generation.get + 1 ≠ 0 := by
    intro zero
    rw [zero] at value
    exact absurd value (by simp)
  simp only [next, dif_neg nonzero, value]

end Generation

structure SlotId where
  index : BitVec 32
  generation : Generation
  deriving DecidableEq

/-- The bits of an index below the class bits. -/
def indexMask : BitVec 32 := 0x1FFFFFFF

namespace SlotId

def packIndex (index : BitVec 32) (poolClass : PoolClass) : BitVec 32 :=
  (index &&& indexMask) ||| (poolClass.classBits <<< 29)

def new (index : BitVec 32) (generation : Generation) (poolClass : PoolClass) : SlotId where
  index := packIndex index poolClass
  generation := generation

def unpack (slotId : SlotId) : BitVec 32 × PoolClass :=
  (slotId.index &&& indexMask, .ofClassBits ((slotId.index >>> 29) &&& 7))

/-- The class code is one that a pool has. -/
def Canonical (slotId : SlotId) : Prop :=
  ((slotId.index >>> 29) &&& 7).toNat ≤ 4

instance (slotId : SlotId) : Decidable slotId.Canonical :=
  inferInstanceAs (Decidable (_ ≤ _))

section

variable (index : BitVec 32)

theorem toNat_mask : (index &&& indexMask).toNat = index.toNat % 2 ^ 29 := by
  rw [toNat_and]
  exact Nat.and_two_pow_sub_one_eq_mod index.toNat 29

theorem toNat_classBits_shift (poolClass : PoolClass) :
    (poolClass.classBits <<< 29).toNat = 2 ^ 29 * poolClass.classBits.toNat := by
  cases poolClass <;> rfl

theorem toNat_packIndex (poolClass : PoolClass) : (packIndex index poolClass).toNat =
      2 ^ 29 * poolClass.classBits.toNat + index.toNat % 2 ^ 29 := by
  rw [packIndex, toNat_or, toNat_mask, toNat_classBits_shift, Nat.lor_comm]
  exact (Nat.two_pow_add_eq_or_of_lt (Nat.mod_lt _ (Nat.two_pow_pos 29)) _).symm

theorem toNat_class : ((index >>> 29) &&& 7).toNat = index.toNat / 2 ^ 29 := by
  rw [toNat_and, toNat_ushiftRight, Nat.shiftRight_eq_div_pow]
  have small : index.toNat / 2 ^ 29 < 2 ^ 3 := Nat.div_lt_of_lt_mul index.isLt
  exact (Nat.and_two_pow_sub_one_eq_mod _ 3).trans (Nat.mod_eq_of_lt small)

theorem canonical_new (generation : Generation) (poolClass : PoolClass) :
    (new index generation poolClass).Canonical := by
  have bound := poolClass.classBits_le
  show ((packIndex index poolClass >>> 29) &&& 7).toNat ≤ 4
  rw [toNat_class, toNat_packIndex]
  omega

/-- An identifier that was packed from a small index unpacks to what it was packed from. -/
theorem unpack_new (generation : Generation) (poolClass : PoolClass) (h : index.toNat < 2 ^ 29) :
    (new index generation poolClass).unpack = (index, poolClass) := by
  have low : packIndex index poolClass &&& indexMask = index := by
    apply eq_of_toNat_eq
    rw [toNat_mask, toNat_packIndex]
    omega
  have high : (packIndex index poolClass >>> 29) &&& 7 = poolClass.classBits := by
    apply eq_of_toNat_eq
    have bound := poolClass.classBits_le
    rw [toNat_class, toNat_packIndex]
    omega
  simp only [unpack, new, low, high, PoolClass.ofClassBits_classBits]

end

/-- Small indices of two pools are packed apart. -/
theorem packIndex_inj {first second : BitVec 32} {firstClass secondClass : PoolClass}
    (first_lt : first.toNat < 2 ^ 29) (second_lt : second.toNat < 2 ^ 29)
    (same : packIndex first firstClass = packIndex second secondClass) :
    first = second ∧ firstClass = secondClass := by
  have unpacked := unpack_new _ .first firstClass first_lt
  rw [new, same, ← new, unpack_new _ .first secondClass second_lt] at unpacked
  cases unpacked
  exact ⟨rfl, rfl⟩

/-- A canonical identifier is packed from what it unpacks to. -/
theorem new_unpack {slotId : SlotId} (h : slotId.Canonical) :
    new slotId.unpack.1 slotId.generation slotId.unpack.2 = slotId := by
  obtain ⟨index, generation⟩ := slotId
  have code : ((index >>> 29) &&& 7).toNat ≤ 4 := h
  have same : packIndex (index &&& indexMask) (.ofClassBits ((index >>> 29) &&& 7)) = index := by
    apply eq_of_toNat_eq
    rw [toNat_packIndex, PoolClass.classBits_ofClassBits code, toNat_class, toNat_mask]
    omega
  simp only [new, unpack, same]

theorem unpack_lt (slotId : SlotId) : slotId.unpack.1.toNat < 2 ^ 29 := by
  simp only [unpack, toNat_mask]
  exact Nat.mod_lt _ (Nat.two_pow_pos 29)

end SlotId

end Aegis.Memory
