import AegisCognition.Foundation.Json
import AegisCognition.Foundation.Scan
import AegisCognition.Foundation.Text
import Mathlib.Data.String.Basic

/-!
# Values of goal contracts

The Python side of a goal contract works on decoded JSON: integers are of any size, numbers of
different types are compared by what they stand for, and a text is trimmed by `str.strip`. The
size of a value is bounded before it is hashed: a walk counts its nodes and items and measures
its texts, and the canonical JSON text of the whole may not be too long.
-/

namespace Aegis.LabGoal

open Foundation

/-- The exceptions, by their class. A stale generation is a contract error, too. -/
inductive GoalError
  | value (message : String)
  | type (message : String)
  | contract (message : String)
  | stale (message : String)
  deriving DecidableEq

inductive Value
  | null
  | bool (value : Bool)
  | int (value : Int)
  | float (value : F64)
  | text (value : String)
  | list (items : List Value)
  | dict (members : List (String × Value))

/-! ### Checks that are kept -/

/-- The proof of a condition, or the error where it fails. -/
def demand (e : GoalError) (p : Prop) [Decidable p] : Except GoalError (PLift p) :=
  if h : p then .ok ⟨h⟩ else .error e

/-- The proof that a check succeeds, or its error. -/
def pass : (check : Except GoalError Unit) → Except GoalError (PLift (check = .ok ()))
  | .ok () => .ok ⟨rfl⟩
  | .error e => .error e

/-! ### Texts -/

/-- What `str.strip` takes away: the separators U+001C to U+001F besides white space. -/
def isSpace (c : Char) : Bool :=
  isWhiteSpace c || (0x1C ≤ c.toNat && c.toNat ≤ 0x1F)

def strip (text : String) : String :=
  String.ofList ((text.toList.dropWhile isSpace).rdropWhile isSpace)

/-- The text is not empty and `strip` changes nothing. -/
def isRequired (text : String) : Bool :=
  text != "" && strip text == text

abbrev RequiredText := { text : String // isRequired text = true }

def requiredText (label value : String) : Except GoalError RequiredText :=
  if h : isRequired value = true then .ok ⟨value, h⟩
  else .error (.value (label ++ " must be a non-empty trimmed string"))

/-- Texts in the order of their code points, each of them trimmed and none twice. -/
abbrev StringSequence :=
  { values : List String // (∀ value ∈ values, isRequired value = true) ∧ values.Pairwise (· < ·) }

def sortTexts (values : List String) : List String :=
  values.insertionSort (· ≤ ·)

theorem sortTexts_isSequence {values : List String}
    (required : ∀ value ∈ values, isRequired value = true) (nodup : values.Nodup) :
    (∀ value ∈ sortTexts values, isRequired value = true) ∧
      (sortTexts values).Pairwise (· < ·) := by
  have perm : (sortTexts values).Perm values := List.perm_insertionSort _ _
  refine ⟨fun value mem => required value (perm.mem_iff.mp mem), ?_⟩
  have sorted : (sortTexts values).Pairwise (· ≤ ·) := List.pairwise_insertionSort _ _
  have distinct : (sortTexts values).Pairwise (· ≠ ·) := perm.nodup_iff.mpr nodup
  exact (sorted.and distinct).imp fun ⟨le, ne⟩ => lt_of_le_of_ne le ne

def stringSequence (label : String) (values : List String) : Except GoalError StringSequence :=
  if required : ∀ value ∈ values, isRequired value = true then
    if nodup : values.Nodup then .ok ⟨sortTexts values, sortTexts_isSequence required nodup⟩
    else .error (.value (label ++ " must not contain duplicates"))
  else .error (.value (label ++ " entries must be non-empty trimmed strings"))

def isDigest (text : String) : Bool :=
  text.length == 64 && text.toList.all fun c => c.isDigit || ('a' ≤ c && c ≤ 'f')

/-! ### Scalars -/

/-- The values that a predicate may expect. -/
inductive Scalar
  | null
  | bool (value : Bool)
  | int (value : Int)
  | float (value : F64) (finite : value.isFinite = true)
  | text (value : String)
  deriving DecidableEq

namespace Scalar

/-- The number that a scalar stands for in a comparison. -/
def number? : Scalar → Option Rat
  | .bool value => some (if value then 1 else 0)
  | .int value => some value
  | .float value _ => some value.toRat
  | .null | .text _ => none

/-- Equality of scalars as `==` has it: numbers, truth values among them, by what they stand for.
JSON tells these types apart. -/
def pyEq : Scalar → Scalar → Bool
  | .null, .null => true
  | .text first, .text second => first == second
  | first, second =>
      match first.number?, second.number? with
      | some m, some n => m == n
      | _, _ => false

def toValue : Scalar → Value
  | .null => .null
  | .bool value => .bool value
  | .int value => .int value
  | .float value _ => .float value
  | .text value => .text value

end Scalar

/-! ### JSON texts -/

def hexDigits (n : Nat) : List Char :=
  [(n / 16).digitChar, (n % 16).digitChar]

/-- A character as the encoder writes it without `ensure_ascii`. -/
def escapeChar (c : Char) : List Char :=
  match c with
  | '"' => ['\\', '"']
  | '\\' => ['\\', '\\']
  | '\n' => ['\\', 'n']
  | '\r' => ['\\', 'r']
  | '\t' => ['\\', 't']
  | '\x0c' => ['\\', 'f']
  | '\x08' => ['\\', 'b']
  | c => if c.toNat < 0x20 then ['\\', 'u', '0', '0'] ++ hexDigits c.toNat else [c]

def quote (text : String) : List Char :=
  '"' :: text.toList.flatMap escapeChar ++ ['"']

/-- The parts with a comma between two of them. -/
def joinComma (parts : List (List Char)) : List Char :=
  List.intercalate [','] parts

/-- The number of bytes of a text in UTF-8. -/
def encodedSize (text : List Char) : Nat :=
  (text.map Char.utf8Size).sum

/-- The longest integer that `str` writes, in digits. -/
def maxStrDigits : Nat := 4300

def writeInt (n : Int) : Option (List Char) :=
  if maxStrDigits < (toString n.natAbs).length then none else some (toString n).toList

namespace Value

mutual

/-- The same value with the members of every object in the order of their keys. -/
def sorted : Value → Value
  | .list items => .list (sortedItems items)
  | .dict members => .dict ((sortedMembers members).insertionSort fun a b => a.1 ≤ b.1)
  | value => value

def sortedItems : List Value → List Value
  | [] => []
  | item :: items => item.sorted :: sortedItems items

def sortedMembers : List (String × Value) → List (String × Value)
  | [] => []
  | (key, value) :: members => (key, value.sorted) :: sortedMembers members

end

mutual

/-- The text of a value whose members stand in order. An integer that is too long has none. -/
def write (floatRepr : F64 → String) : Value → Option (List Char)
  | .null => some "null".toList
  | .bool value => some (if value then "true" else "false").toList
  | .int value => writeInt value
  | .float value => some (floatRepr value).toList
  | .text value => some (quote value)
  | .list items => do
    let parts ← writeItems floatRepr items
    some ('[' :: joinComma parts ++ [']'])
  | .dict members => do
    let parts ← writeMembers floatRepr members
    some ('\x7b' :: joinComma parts ++ ['\x7d'])

def writeItems (floatRepr : F64 → String) : List Value → Option (List (List Char))
  | [] => some []
  | item :: items => do
    let first ← item.write floatRepr
    let rest ← writeItems floatRepr items
    some (first :: rest)

def writeMembers (floatRepr : F64 → String) : List (String × Value) → Option (List (List Char))
  | [] => some []
  | (key, value) :: members => do
    let first ← value.write floatRepr
    let rest ← writeMembers floatRepr members
    some ((quote key ++ ':' :: first) :: rest)

end

/-- `json.dumps` with sorted keys, no blanks and no escapes beyond the necessary ones. -/
def dumps (floatRepr : F64 → String) (value : Value) : Option (List Char) :=
  value.sorted.write floatRepr

end Value

/-! ### Limits -/

structure GoalContractLimits where
  wireBytes : Nat
  textBytes : Nat
  identifierBytes : Nat
  scopeEntryBytes : Nat
  maxSequenceItems : Nat
  maxTotalSequenceItems : Nat
  maxDepth : Nat
  maxNodes : Nat

namespace GoalContractLimits

def default : GoalContractLimits where
  wireBytes := 1024 * 1024
  textBytes := 64 * 1024
  identifierBytes := 128
  scopeEntryBytes := 4096
  maxSequenceItems := 256
  maxTotalSequenceItems := 2048
  maxDepth := 8
  maxNodes := 4096

def scopeFields : List String :=
  ["read_roots", "write_roots", "network_allowlist", "scope", "non_goals"]

def identifierFields : List String :=
  ["schema", "goal_id", "kind", "stable_id", "revision_or_digest", "owner", "policy_digest",
    "predicate_id", "evaluator", "severity", "inputs", "evidence_refs",
    "reproducibility_requirements", "required_record_types", "trusted_verifier_ids",
    "parent_goal_id", "parent_contract_hash", "author_id", "external_side_effects", "mission_id",
    "owner_id", "principal_id", "execution_cell_id", "execution_action_kind", "backend_kind",
    "verifier_id"]

variable (limits : GoalContractLimits)

def stringLimit (parentKey : Option String) : Nat :=
  if parentKey.any scopeFields.contains then limits.scopeEntryBytes
  else if parentKey.any identifierFields.contains then limits.identifierBytes
  else limits.textBytes

/-- The walk over a value with a stack of what is left to visit. The first argument is how many
nodes may still be visited, `items` how many list items were seen. -/
def walk : Nat → Nat → List (Value × Nat × Option String) → Except GoalError Unit
  | _, _, [] => .ok ()
  | 0, _, _ :: _ => .error (.contract "goal contract exceeds the node limit")
  | nodes + 1, items, (current, depth, parentKey) :: stack => do
      refuseWhen (limits.maxDepth < depth) (.contract "goal contract exceeds the nesting limit")
      match current with
      | .dict members =>
          refuseWhen (members.any fun member => limits.identifierBytes < member.1.utf8ByteSize)
            (.contract "goal contract object key exceeds the byte limit")
          walk nodes items
            ((members.map fun member => (member.2, depth + 1, some member.1)).reverse ++ stack)
      | .list values =>
          refuseWhen (limits.maxSequenceItems < values.length)
            (.contract "goal contract sequence exceeds the item limit")
          refuseWhen (limits.maxTotalSequenceItems < items + values.length)
            (.contract "goal contract exceeds the total sequence limit")
          walk nodes (items + values.length)
            ((values.map fun value => (value, depth + 1, parentKey)).reverse ++ stack)
      | .text text =>
          refuseWhen (limits.stringLimit parentKey < text.utf8ByteSize)
            (.contract "goal contract string exceeds the byte limit")
          walk nodes items stack
      | .float value =>
          refuseWhen (!value.isFinite) (.contract "goal contract contains a non-finite number")
          walk nodes items stack
      | .null | .bool _ | .int _ => walk nodes items stack

def validateWire (floatRepr : F64 → String) (value : Value) : Except GoalError Unit :=
  match value with
  | .dict _ => do
      limits.walk limits.maxNodes 0 [(value, 0, none)]
      let text ← okOr (.contract "goal contract cannot be encoded as canonical JSON")
        (value.dumps floatRepr)
      refuseWhen (limits.wireBytes < encodedSize text)
        (.contract "goal contract exceeds the wire byte limit")
  | _ => .error (.contract "goal contract must be an object")

end GoalContractLimits

end Aegis.LabGoal
