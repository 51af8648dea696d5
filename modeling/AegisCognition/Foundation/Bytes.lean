import Mathlib.Data.List.Basic
import Mathlib.Algebra.Order.Ring.Nat
import Mathlib.Tactic.Ring

/-!
# Byte strings

Little-endian numbers of a fixed width, slices, and the bytes of a text. A field
written at its place in a record is read back by slicing the record at that place.
-/

namespace Aegis.Foundation

open List

/-- The `width` low bytes of a number, the lowest one first. -/
def leBytes : Nat → Nat → List UInt8
  | 0, _ => []
  | width + 1, value => UInt8.ofNat value :: leBytes width (value / 256)

/-- The number that a little-endian byte string denotes. -/
def ofLeBytes : List UInt8 → Nat
  | [] => 0
  | byte :: bytes => byte.toNat + 256 * ofLeBytes bytes

@[simp] theorem length_leBytes (width value : Nat) : (leBytes width value).length = width := by
  induction width generalizing value with
  | zero => rfl
  | succ width ih => simp [leBytes, ih]

theorem ofLeBytes_lt (bytes : List UInt8) : ofLeBytes bytes < 256 ^ bytes.length := by
  induction bytes with
  | nil => simp [ofLeBytes]
  | cons byte bytes ih =>
      have hbyte := byte.toNat_lt
      rw [ofLeBytes, length_cons, Nat.pow_succ]
      omega

theorem ofLeBytes_leBytes {width value : Nat} (h : value < 256 ^ width) :
    ofLeBytes (leBytes width value) = value := by
  induction width generalizing value with
  | zero =>
      have : value = 0 := by simpa using h
      simp [leBytes, ofLeBytes, this]
  | succ width ih =>
      have hdiv : value / 256 < 256 ^ width := by
        rw [Nat.pow_succ] at h
        exact Nat.div_lt_of_lt_mul (by rwa [Nat.mul_comm])
      rw [leBytes, ofLeBytes, ih hdiv, UInt8.toNat_ofNat']
      omega

/-- Numbers that fit have different bytes. -/
theorem leBytes_inj {width a b : Nat} (ha : a < 256 ^ width) (hb : b < 256 ^ width)
    (same : leBytes width a = leBytes width b) : a = b := by
  rw [← ofLeBytes_leBytes ha, same, ofLeBytes_leBytes hb]

theorem leBytes_ofLeBytes (bytes : List UInt8) :
    leBytes bytes.length (ofLeBytes bytes) = bytes := by
  induction bytes with
  | nil => rfl
  | cons byte bytes ih =>
      have low : UInt8.ofNat (byte.toNat + 256 * ofLeBytes bytes) = byte := by
        apply UInt8.toNat_inj.mp
        rw [UInt8.toNat_ofNat']
        have := byte.toNat_lt
        omega
      have high : (byte.toNat + 256 * ofLeBytes bytes) / 256 = ofLeBytes bytes := by
        have := byte.toNat_lt
        omega
      rw [length_cons, leBytes, ofLeBytes, low, high, ih]

/-- The bytes at positions `start` up to, but not including, `stop`. -/
def slice (bytes : List UInt8) (start stop : Nat) : List UInt8 :=
  (bytes.drop start).take (stop - start)

theorem length_slice {bytes : List UInt8} {start stop : Nat} (h : stop ≤ bytes.length) :
    (slice bytes start stop).length = stop - start := by
  rw [slice, length_take, length_drop]
  omega

/-- A slice that starts past a leading part of known length skips that part. -/
theorem slice_skip {first rest : List UInt8} {start stop : Nat} (h : first.length ≤ start) :
    slice (first ++ rest) start stop = slice rest (start - first.length) (stop - first.length) := by
  rw [slice, slice, drop_append, drop_eq_nil_of_le h, nil_append]
  congr 1
  omega

theorem slice_head {first rest : List UInt8} {stop : Nat} (h : first.length = stop) :
    slice (first ++ rest) 0 stop = first := by
  rw [slice, drop_zero, Nat.sub_zero, ← h, take_left']
  rfl

theorem slice_all {bytes : List UInt8} {stop : Nat} (h : bytes.length = stop) :
    slice bytes 0 stop = bytes := by
  rw [slice, drop_zero, Nat.sub_zero, ← h, take_length]

theorem slice_append_slice {bytes : List UInt8} {start middle stop : Nat} (h : start ≤ middle)
    (h' : middle ≤ stop) :
    slice bytes start middle ++ slice bytes middle stop = slice bytes start stop := by
  have skipped : bytes.drop middle = (bytes.drop start).drop (middle - start) := by
    rw [drop_drop, Nat.add_sub_cancel' h]
  have width : stop - start = (middle - start) + (stop - middle) := by omega
  rw [slice, slice, slice, skipped, width, take_add]

def utf8Bytes (text : String) : List UInt8 :=
  text.toByteArray.data.toList

end Aegis.Foundation
