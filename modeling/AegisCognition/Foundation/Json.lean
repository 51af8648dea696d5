import Mathlib.Algebra.Group.Int.Defs
import Mathlib.Algebra.Group.Nat.Defs
import Mathlib.Data.List.Sort
import Mathlib.Data.Rat.Defs

/-!
# JSON values

A JSON value as a parser hands it out. Numbers keep the form they were read in: an
unsigned or a negative 64-bit integer, or a binary64 number. An object is the list of its
members. Nothing here assumes that the members are sorted or that their keys differ; a
lookup takes the first member with the key.
-/

namespace Aegis.Foundation

/-- A binary64 number by its bits. -/
structure F64 where
  bits : BitVec 64
  deriving DecidableEq

namespace F64

def isFinite (x : F64) : Bool :=
  x.bits.extractLsb' 52 11 != BitVec.allOnes 11

/-- The number is below zero. Neither zero is, and no NaN is. -/
def isNegative (x : F64) : Bool :=
  x.bits.msb && x.bits.toNat != 2 ^ 63 &&
    (x.isFinite || x.bits.extractLsb' 0 52 == 0)

/-- The nearest binary64 number, ties going to the even significand. -/
def ofNat (n : Nat) : F64 :=
  if n = 0 then ⟨0⟩ else
    let exponent := Nat.log2 n
    let significand :=
      if exponent ≤ 52 then n * 2 ^ (52 - exponent) else
        let scale := 2 ^ (exponent - 52)
        let q := n / scale
        if scale < 2 * (n % scale) ∨ scale = 2 * (n % scale) ∧ q % 2 = 1 then q + 1 else q
    -- A significand rounded up to the next power of two carries into the exponent.
    ⟨BitVec.ofNat 64 ((exponent + 1023) * 2 ^ 52 + (significand - 2 ^ 52))⟩

def neg (x : F64) : F64 := ⟨x.bits ^^^ BitVec.twoPow 64 63⟩

/-- The number that the bits of a finite value stand for. -/
def toRat (x : F64) : Rat :=
  let exponent := (x.bits.extractLsb' 52 11).toNat
  let fraction := (x.bits.extractLsb' 0 52).toNat
  -- The smallest exponent is the one of the next, without the leading bit.
  let significand : Int := if exponent = 0 then fraction else 2 ^ 52 + fraction
  let magnitude : Rat := significand * 2 ^ (max exponent 1) / 2 ^ 1075
  if x.bits.msb then -magnitude else magnitude

end F64

inductive JsonNumber
  | posInt (value : UInt64)
  | negInt (value : Int64)
  | float (value : F64)

namespace JsonNumber

def asU64 : JsonNumber → Option Nat
  | .posInt value => some value.toNat
  | _ => none

def asF64 : JsonNumber → F64
  | .posInt value => F64.ofNat value.toNat
  | .negInt value => (F64.ofNat value.toInt.natAbs).neg
  | .float value => value

end JsonNumber

inductive Json
  | null
  | bool (value : Bool)
  | number (value : JsonNumber)
  | string (value : String)
  | array (items : List Json)
  | object (members : List (String × Json))

/-- The members of an object. -/
abbrev JsonObject := List (String × Json)

namespace JsonObject

/-- The value of the member with this key. -/
def get? (object : JsonObject) (key : String) : Option Json :=
  object.lookup key

def containsKey (object : JsonObject) (key : String) : Bool :=
  (object.get? key).isSome

def keys (object : JsonObject) : List String :=
  object.map Prod.fst

def erase (object : JsonObject) (key : String) : JsonObject :=
  object.filter fun member => member.1 != key

end JsonObject

namespace Json

/-- A natural number below `2 ^ 64` as a JSON number. -/
def nat (n : Nat) : Json := .number (.posInt (UInt64.ofNat n))

def asStr : Json → Option String
  | .string value => some value
  | _ => none

def asBool : Json → Option Bool
  | .bool value => some value
  | _ => none

def asU64 : Json → Option Nat
  | .number value => value.asU64
  | _ => none

def asF64 : Json → Option F64
  | .number value => some value.asF64
  | _ => none

def asArray : Json → Option (List Json)
  | .array items => some items
  | _ => none

def asObject : Json → Option JsonObject
  | .object members => some members
  | _ => none

def isNull : Json → Bool
  | .null => true
  | _ => false

/-- Neither an array nor an object. -/
def isScalar : Json → Bool
  | .array _ | .object _ => false
  | _ => true

/-- A member of an object; any other value has none. -/
def get? (value : Json) (key : String) : Option Json :=
  value.asObject.bind (JsonObject.get? · key)

mutual

/-- The same value with the members of every object in key order. -/
def canonical : Json → Json
  | .array items => .array (canonicalItems items)
  | .object members =>
    .object ((canonicalMembers members).insertionSort fun a b => a.1 ≤ b.1)
  | value => value

def canonicalItems : List Json → List Json
  | [] => []
  | item :: items => item.canonical :: canonicalItems items

def canonicalMembers : List (String × Json) → List (String × Json)
  | [] => []
  | (key, value) :: members => (key, value.canonical) :: canonicalMembers members

end

variable {value : Json}

theorem eq_string_of_asStr {text : String} (h : value.asStr = some text) :
    value = .string text := by
  cases value <;> simp_all [asStr]

theorem eq_bool_of_asBool {b : Bool} (h : value.asBool = some b) : value = .bool b := by
  cases value <;> simp_all [asBool]

theorem eq_array_of_asArray {items : List Json} (h : value.asArray = some items) :
    value = .array items := by
  cases value <;> simp_all [asArray]

end Json

section

variable (object : JsonObject) (key : String)

/-- Membership of a key and a typed reading of it, in one step. -/
def JsonObject.str? : Option String :=
  (object.get? key).bind Json.asStr

def JsonObject.bool? : Option Bool :=
  (object.get? key).bind Json.asBool

def JsonObject.u64? : Option Nat :=
  (object.get? key).bind Json.asU64

def JsonObject.f64? : Option F64 :=
  (object.get? key).bind Json.asF64

def JsonObject.array? : Option (List Json) :=
  (object.get? key).bind Json.asArray

def JsonObject.object? : Option JsonObject :=
  (object.get? key).bind Json.asObject

end

end Aegis.Foundation
