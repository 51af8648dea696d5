import AegisCognition.Foundation.Bytes
import AegisCognition.Foundation.Scan
import Mathlib.Data.List.Lex

/-!
# Texts and their checks

A text is a list of code points. Surrogates are code points, too: a text that holds one passes
every check that counts characters and cannot be encoded. The checks are the ones that the
specifications, packets and messages share.
-/

namespace Aegis.Coordination

open Foundation

instance codePoints : NeZero 0x110000 := ⟨by decide⟩

abbrev CodePoint := Fin 0x110000

abbrev Text := List CodePoint

/-- The failures that the coordination code meets, by the type of the exception. -/
inductive CoordinationError
  | coordination (message : String)
  | peerMessage (message : String)
  | unicodeEncode
  | value
  | overflow
  | invalidState
  deriving DecidableEq

namespace Text

def ofString (text : String) : Text :=
  text.toList.map fun c => Fin.ofNat _ c.toNat

/-- What `str.isspace` accepts, and `str.strip` takes away. -/
def isSpace (c : CodePoint) : Bool :=
  let n := c.val
  (9 ≤ n && n ≤ 13) || (0x1C ≤ n && n ≤ 0x20) || n == 0x85 || n == 0xA0 || n == 0x1680 ||
    (0x2000 ≤ n && n ≤ 0x200A) || n == 0x2028 || n == 0x2029 || n == 0x202F || n == 0x205F ||
    n == 0x3000

def isBlank (text : Text) : Bool :=
  text.all isSpace

def isSurrogate (c : CodePoint) : Bool :=
  0xD800 ≤ c.val && c.val ≤ 0xDFFF

/-- The UTF-8 bytes of a code point. -/
def encodePoint (c : CodePoint) : List UInt8 :=
  let n := c.val
  if n < 0x80 then [UInt8.ofNat n]
  else if n < 0x800 then [UInt8.ofNat (0xC0 + n / 64), UInt8.ofNat (0x80 + n % 64)]
  else if n < 0x10000 then
    [UInt8.ofNat (0xE0 + n / 4096), UInt8.ofNat (0x80 + n / 64 % 64), UInt8.ofNat (0x80 + n % 64)]
  else
    [UInt8.ofNat (0xF0 + n / 262144), UInt8.ofNat (0x80 + n / 4096 % 64),
      UInt8.ofNat (0x80 + n / 64 % 64), UInt8.ofNat (0x80 + n % 64)]

theorem length_encodePoint_le (c : CodePoint) : (encodePoint c).length ≤ 4 := by
  unfold encodePoint
  dsimp only
  split_ifs <;> simp

/-- A code point has at most four bytes. -/
theorem length_flatMap_encodePoint_le (text : Text) :
    (text.flatMap encodePoint).length ≤ 4 * text.length := by
  induction text with
  | nil => simp
  | cons c text ih =>
      have := length_encodePoint_le c
      rw [List.flatMap_cons, List.length_append, List.length_cons]
      omega

/-- `str.encode()`. -/
def encode (text : Text) : Except CoordinationError (List UInt8) :=
  if text.any isSurrogate then .error .unicodeEncode else .ok (text.flatMap encodePoint)

/-- The order of texts: by code point at the first difference. -/
def le (first second : Text) : Bool :=
  first.map Fin.val ≤ second.map Fin.val

/-- `str()` of a number; numbers of more than 4300 digits are refused. -/
def ofInt (value : Nat) : Except CoordinationError Text :=
  let digits := ofString (toString value)
  if 4300 < digits.length then .error .value else .ok digits

end Text

def maxStringChars : Nat := 4096

/-- A check and what it says when it fails. -/
def require (holds : Bool) (message : String) : Except CoordinationError Unit :=
  if holds then .ok () else .error (.coordination message)

@[simp] theorem require_eq_ok_iff {holds : Bool} {message : String} {done : Unit} :
    require holds message = .ok done ↔ holds = true := by
  cases holds <;> simp [require]

/-- The value is not blank, holds no NUL and is short. -/
def isNonEmpty (value : Text) (limit : Nat) : Bool :=
  !value.isBlank && value.all (· != 0) && decide (value.length ≤ limit)

/-- `_non_empty`. -/
def nonEmpty (value : Text) (name : String) (limit : Nat) : Except CoordinationError Unit :=
  require (isNonEmpty value limit) (name ++ " must be bounded non-empty text")

def agentIdMax : Nat := 2 ^ 128 - 1

def positiveId (value : Nat) (name : String) : Except CoordinationError Unit :=
  require (decide (1 ≤ value) && decide (value ≤ agentIdMax))
    (name ++ " must be a positive u128-compatible integer")

def positiveInt (value : Nat) (name : String) : Except CoordinationError Unit :=
  require (value != 0) (name ++ " must be positive")

/-- A check of each value in turn. -/
def checkEach {α : Type} (check : α → Except CoordinationError Unit) :
    List α → Except CoordinationError Unit
  | [] => .ok ()
  | value :: values => do
    check value
    checkEach check values

/-- A check of the value that is there, if there is one. -/
def checkSome {α : Type} (check : α → Except CoordinationError Unit) :
    Option α → Except CoordinationError Unit
  | none => .ok ()
  | some value => check value

/-- `_string_tuple`: few items, each of them a short text, no two the same. -/
def stringTuple (values : List Text) (name : String) (limit : Nat) :
    Except CoordinationError Unit := do
  require (decide (values.length ≤ limit)) (name ++ " exceeds its bounded item count")
  checkEach (nonEmpty · (name ++ " item") maxStringChars) values
  require (decide values.Nodup) (name ++ " must not contain duplicates")

section Checks

variable {value : Text} {name : String} {limit : Nat} {done : Unit}

theorem nonEmpty_eq_ok_iff : nonEmpty value name limit = .ok done ↔ isNonEmpty value limit :=
  require_eq_ok_iff

theorem positiveId_eq_ok_iff {id : Nat} :
    positiveId id name = .ok done ↔ 1 ≤ id ∧ id ≤ agentIdMax := by
  simp [positiveId]

theorem checkEach_eq_ok_iff {α : Type} {check : α → Except CoordinationError Unit}
    {values : List α} :
    checkEach check values = .ok done ↔ ∀ value ∈ values, check value = .ok () := by
  induction values with
  | nil => simp [checkEach]
  | cons value values ih =>
      rw [checkEach, bind_eq_ok_iff, List.forall_mem_cons, ih]
      exact ⟨fun ⟨_, first, rest⟩ => ⟨first, rest⟩, fun ⟨first, rest⟩ => ⟨_, first, rest⟩⟩

theorem stringTuple_eq_ok_iff {values : List Text} :
    stringTuple values name limit = .ok done ↔
      values.length ≤ limit ∧ (∀ value ∈ values, isNonEmpty value maxStringChars) ∧
        values.Nodup := by
  simp [stringTuple, bind_eq_ok_iff, checkEach_eq_ok_iff, nonEmpty_eq_ok_iff]

end Checks

def isHexDigit (c : CodePoint) : Bool :=
  (0x30 ≤ c.val && c.val ≤ 0x39) || (0x61 ≤ c.val && c.val ≤ 0x66)

/-- `_digest`. -/
def checkDigest (value : Text) (name : String) : Except CoordinationError Unit := do
  nonEmpty value name 64
  require (value.length == 64 && value.all isHexDigit)
    (name ++ " must be a lowercase 64-character hexadecimal digest")

end Aegis.Coordination
