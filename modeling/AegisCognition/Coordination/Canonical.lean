import AegisCognition.Coordination.Text
import Mathlib.Data.List.Sort

/-!
# Canonical JSON

The values that the coordination code turns into JSON, and `json.dumps` with sorted keys, no
blanks and no escapes beyond the necessary ones.
-/

namespace Aegis.Coordination

open Foundation Text List

inductive JsonValue
  | null
  | bool (value : Bool)
  | int (value : Nat)
  | text (value : Text)
  | list (items : List JsonValue)
  | dict (members : List (Text × JsonValue))

namespace JsonValue

/-- A text in quotes, as the encoder escapes it without `ensure_ascii`. -/
def escapePoint (c : CodePoint) : Text :=
  if c = 0x22 then ofString "\\\""
  else if c = 0x5C then ofString "\\\\"
  else if c = 0x0A then ofString "\\n"
  else if c = 0x0D then ofString "\\r"
  else if c = 0x09 then ofString "\\t"
  else if c = 0x0C then ofString "\\f"
  else if c = 0x08 then ofString "\\b"
  else if c.val < 0x20 then
    ofString "\\u00" ++ ofString (String.ofList [(c.val / 16).digitChar,
      (c.val % 16).digitChar])
  else [c]

def quote (text : Text) : Text :=
  [0x22] ++ text.flatMap escapePoint ++ [0x22]

/-- The parts with a comma between two of them. -/
def joinComma (parts : List Text) : Text :=
  List.intercalate (ofString ",") parts

mutual

/-- The members of every object in the order of their keys. -/
def sorted : JsonValue → JsonValue
  | .list items => .list (sortedItems items)
  | .dict members => .dict ((sortedMembers members).insertionSort fun a b => a.1.le b.1)
  | value => value

def sortedItems : List JsonValue → List JsonValue
  | [] => []
  | item :: items => item.sorted :: sortedItems items

def sortedMembers : List (Text × JsonValue) → List (Text × JsonValue)
  | [] => []
  | (key, value) :: members => (key, value.sorted) :: sortedMembers members

end

mutual

/-- The text of a value; a number with too many digits has none. -/
def dump : JsonValue → Except CoordinationError Text
  | .null => .ok (ofString "null")
  | .bool value => .ok (ofString (if value then "true" else "false"))
  | .int value => ofInt value
  | .text value => .ok (quote value)
  | .list items => do
    let parts ← dumpItems items
    .ok (ofString "[" ++ joinComma parts ++ ofString "]")
  | .dict members => do
    let parts ← dumpMembers members
    .ok (ofString "\x7b" ++ joinComma parts ++ ofString "\x7d")

def dumpItems : List JsonValue → Except CoordinationError (List Text)
  | [] => .ok []
  | item :: items => do
    let first ← item.dump
    let rest ← dumpItems items
    .ok (first :: rest)

def dumpMembers : List (Text × JsonValue) → Except CoordinationError (List Text)
  | [] => .ok []
  | (key, value) :: members => do
    let first ← value.dump
    let rest ← dumpMembers members
    .ok ((quote key ++ ofString ":" ++ first) :: rest)

end

mutual

/-- A text of the value, or a key in it, holds a surrogate. -/
def hasSurrogate : JsonValue → Bool
  | .text value => value.any isSurrogate
  | .list items => itemsHaveSurrogate items
  | .dict members => membersHaveSurrogate members
  | .null | .bool _ | .int _ => false

def itemsHaveSurrogate : List JsonValue → Bool
  | [] => false
  | item :: items => item.hasSurrogate || itemsHaveSurrogate items

def membersHaveSurrogate : List (Text × JsonValue) → Bool
  | [] => false
  | (key, value) :: members =>
    (key.any isSurrogate || value.hasSurrogate) || membersHaveSurrogate members

end

mutual

/-- A number of the value has too many digits to be written. -/
def hasLongInt : JsonValue → Bool
  | .int value => 4300 < (ofString (toString value)).length
  | .list items => itemsHaveLongInt items
  | .dict members => membersHaveLongInt members
  | .null | .bool _ | .text _ => false

def itemsHaveLongInt : List JsonValue → Bool
  | [] => false
  | item :: items => item.hasLongInt || itemsHaveLongInt items

def membersHaveLongInt : List (Text × JsonValue) → Bool
  | [] => false
  | (_, value) :: members => value.hasLongInt || membersHaveLongInt members

end

theorem itemsHaveSurrogate_eq (items : List JsonValue) :
    itemsHaveSurrogate items = items.any hasSurrogate := by
  induction items with
  | nil => rfl
  | cons item items ih => rw [itemsHaveSurrogate, ih, any_cons]

theorem membersHaveSurrogate_eq (members : List (Text × JsonValue)) :
    membersHaveSurrogate members =
      members.any fun member => member.1.any isSurrogate || member.2.hasSurrogate := by
  induction members with
  | nil => rfl
  | cons member members ih => rw [membersHaveSurrogate, ih, any_cons]

theorem itemsHaveLongInt_eq (items : List JsonValue) :
    itemsHaveLongInt items = items.any hasLongInt := by
  induction items with
  | nil => rfl
  | cons item items ih => rw [itemsHaveLongInt, ih, any_cons]

theorem membersHaveLongInt_eq (members : List (Text × JsonValue)) :
    membersHaveLongInt members = members.any fun member => member.2.hasLongInt := by
  induction members with
  | nil => rfl
  | cons member members ih => rw [membersHaveLongInt, ih, any_cons]

theorem length_ofString_toString_le_iff {value k : Nat} (some_digit : 0 < k) :
    (ofString (toString value)).length ≤ k ↔ value < 10 ^ k := by
  rw [ofString, length_map, String.length_toList, Nat.toString_eq_repr]
  exact Nat.length_repr_le_iff some_digit

/-- A number of few digits can be written. -/
theorem hasLongInt_int {value k : Nat} (small : value < 10 ^ k) (some_digit : 0 < k)
    (few : k ≤ 4300) : hasLongInt (.int value) = false :=
  decide_eq_false (Nat.not_lt.mpr
    (((length_ofString_toString_le_iff some_digit).mpr small).trans few))

/-! ### The text of a value -/

theorem any_ofString (text : String) (plain : text.toList.all fun c => c.toNat < 0x80) :
    (ofString text).any isSurrogate = false := by
  rw [ofString, any_map, any_eq_false]
  intro c mem
  have := all_eq_true.mp plain c mem
  simp only [decide_eq_true_eq] at this
  simp only [Function.comp, isSurrogate, Fin.ofNat, Bool.and_eq_true, decide_eq_true_eq]
  omega

theorem any_escapePoint (c : CodePoint) :
    (escapePoint c).any isSurrogate = isSurrogate c := by
  have digit : ∀ n < 16, (Nat.digitChar n).toNat < 0x80 := by decide
  by_cases control : c.val < 0x20
  · have plain : isSurrogate c = false := by
      simp only [isSurrogate, Bool.and_eq_false_imp, decide_eq_true_eq, decide_eq_false_iff_not]
      omega
    have first := digit (c.val / 16) (by omega)
    have second := digit (c.val % 16) (by omega)
    have digits : (ofString (String.ofList [(c.val / 16).digitChar,
        (c.val % 16).digitChar])).any isSurrogate = false := by
      refine any_ofString _ ?_
      rw [String.toList_ofList]
      simp [first, second]
    rw [plain, escapePoint]
    repeat' split
    all_goals first
      | exact absurd control ‹_›
      | rw [any_append, digits, Bool.or_false]; exact any_ofString _ (by decide)
      | exact any_ofString _ (by decide)
  · have apart (other : CodePoint) (small : other.val < 0x20) : c ≠ other := by
      rintro rfl
      exact control small
    rw [escapePoint]
    by_cases mark : c = 0x22
    · rw [mark]
      rfl
    · by_cases slash : c = 0x5C
      · rw [slash]
        rfl
      · rw [if_neg mark, if_neg slash, if_neg (apart 0x0A (by decide)),
          if_neg (apart 0x0D (by decide)), if_neg (apart 0x09 (by decide)),
          if_neg (apart 0x0C (by decide)), if_neg (apart 0x08 (by decide)), if_neg control]
        rw [any_cons, any_nil, Bool.or_false]

theorem any_quote (text : Text) : (quote text).any isSurrogate = text.any isSurrogate := by
  have mark : List.any [(0x22 : CodePoint)] isSurrogate = false := rfl
  rw [quote, any_append, any_append, mark, Bool.false_or, Bool.or_false, any_flatMap]
  exact congrArg (List.any text) (funext any_escapePoint)

theorem any_joinComma (parts : List Text) : (joinComma parts).any isSurrogate =
    parts.any fun part => part.any isSurrogate := by
  induction parts with
  | nil => rfl
  | cons part parts ih =>
      cases parts with
      | nil => simp [joinComma]
      | cons next parts =>
          have step : joinComma (part :: next :: parts) =
              part ++ (ofString "," ++ joinComma (next :: parts)) := by
            simp [joinComma, intercalate_cons_cons]
          rw [step, any_append, any_append, ih, any_ofString "," (by decide),
            Bool.false_or, any_cons (l := next :: parts)]

mutual

/-- A value is written unless a number in it is too long; the text holds a surrogate if the value
does. -/
theorem dump_cases : (value : JsonValue) →
    value.hasLongInt = true ∧ value.dump = .error .value ∨
    value.hasLongInt = false ∧ ∃ text, value.dump = .ok text ∧
      text.any isSurrogate = value.hasSurrogate
  | .null => .inr ⟨rfl, _, rfl, rfl⟩
  | .bool true => .inr ⟨rfl, _, rfl, rfl⟩
  | .bool false => .inr ⟨rfl, _, rfl, rfl⟩
  | .int value => by
      rw [hasLongInt, dump, ofInt]
      by_cases long : 4300 < (ofString (toString value)).length
      · exact .inl ⟨by simpa using long, if_pos long⟩
      · refine .inr ⟨by simpa using long, _, if_neg long, ?_⟩
        refine any_ofString _ (all_eq_true.mpr fun c mem => ?_)
        have digit := Nat.isDigit_of_mem_toDigits (by decide) (by decide)
          (show c ∈ Nat.toDigits 10 value by simpa using mem)
        simp only [Char.isDigit, Bool.and_eq_true, decide_eq_true_eq] at digit ⊢
        exact Nat.lt_of_le_of_lt (UInt32.le_iff_toNat_le.mp digit.2) (by decide)
  | .text value => .inr ⟨rfl, _, rfl, any_quote value⟩
  | .list items => by
      rw [hasLongInt, dump, hasSurrogate]
      obtain ⟨long, failed⟩ | ⟨short, parts, done, same⟩ := dumpItems_cases items
      · exact .inl ⟨long, by rw [failed]; rfl⟩
      · refine .inr ⟨short, _, by rw [done]; rfl, ?_⟩
        rw [any_append, any_append, any_ofString "[" (by decide),
          any_ofString "]" (by decide), any_joinComma, same, Bool.false_or, Bool.or_false]
  | .dict members => by
      rw [hasLongInt, dump, hasSurrogate]
      obtain ⟨long, failed⟩ | ⟨short, parts, done, same⟩ := dumpMembers_cases members
      · exact .inl ⟨long, by rw [failed]; rfl⟩
      · refine .inr ⟨short, _, by rw [done]; rfl, ?_⟩
        rw [any_append, any_append, any_ofString _ (by decide),
          any_ofString _ (by decide), any_joinComma, same, Bool.false_or, Bool.or_false]

theorem dumpItems_cases : (items : List JsonValue) →
    itemsHaveLongInt items = true ∧ dumpItems items = .error .value ∨
    itemsHaveLongInt items = false ∧ ∃ parts, dumpItems items = .ok parts ∧
      (parts.any fun part => part.any isSurrogate) = itemsHaveSurrogate items
  | [] => .inr ⟨rfl, _, rfl, rfl⟩
  | item :: items => by
      rw [itemsHaveLongInt, itemsHaveSurrogate, dumpItems]
      obtain ⟨long, failed⟩ | ⟨short, text, done, same⟩ := dump_cases item
      · exact .inl ⟨by rw [long, Bool.true_or], by rw [failed]; rfl⟩
      · obtain ⟨long, failed⟩ | ⟨short', parts, done', same'⟩ := dumpItems_cases items
        · exact .inl ⟨by rw [long, Bool.or_true], by rw [done, failed]; rfl⟩
        · refine .inr ⟨by rw [short, short', Bool.false_or], text :: parts,
            by rw [done, done']; rfl, ?_⟩
          rw [any_cons, same, same']

theorem dumpMembers_cases : (members : List (Text × JsonValue)) →
    membersHaveLongInt members = true ∧ dumpMembers members = .error .value ∨
    membersHaveLongInt members = false ∧ ∃ parts, dumpMembers members = .ok parts ∧
      (parts.any fun part => part.any isSurrogate) = membersHaveSurrogate members
  | [] => .inr ⟨rfl, _, rfl, rfl⟩
  | (key, value) :: members => by
      rw [membersHaveLongInt, membersHaveSurrogate, dumpMembers]
      obtain ⟨long, failed⟩ | ⟨short, text, done, same⟩ := dump_cases value
      · exact .inl ⟨by rw [long, Bool.true_or], by rw [failed]; rfl⟩
      · obtain ⟨long, failed⟩ | ⟨short', parts, done', same'⟩ := dumpMembers_cases members
        · exact .inl ⟨by rw [long, Bool.or_true], by rw [done, failed]; rfl⟩
        · refine .inr ⟨by rw [short, short', Bool.false_or],
            (quote key ++ ofString ":" ++ text) :: parts, by rw [done, done']; rfl, ?_⟩
          rw [any_cons, any_append, any_append, any_quote,
            any_ofString ":" (by decide), Bool.or_false, same, same']

end

mutual

@[simp] theorem hasSurrogate_sorted : (value : JsonValue) →
    value.sorted.hasSurrogate = value.hasSurrogate
  | .null => rfl
  | .bool _ => rfl
  | .int _ => rfl
  | .text _ => rfl
  | .list items => hasSurrogate_sortedItems items
  | .dict members => by
      rw [sorted, hasSurrogate, membersHaveSurrogate_eq,
        (perm_insertionSort ..).any_eq, ← membersHaveSurrogate_eq]
      exact hasSurrogate_sortedMembers members

theorem hasSurrogate_sortedItems : (items : List JsonValue) →
    itemsHaveSurrogate (sortedItems items) = itemsHaveSurrogate items
  | [] => rfl
  | item :: items => by
      rw [sortedItems, itemsHaveSurrogate, itemsHaveSurrogate, hasSurrogate_sorted item,
        hasSurrogate_sortedItems items]

theorem hasSurrogate_sortedMembers : (members : List (Text × JsonValue)) →
    membersHaveSurrogate (sortedMembers members) = membersHaveSurrogate members
  | [] => rfl
  | (key, value) :: members => by
      rw [sortedMembers, membersHaveSurrogate, membersHaveSurrogate, hasSurrogate_sorted value,
        hasSurrogate_sortedMembers members]

end

mutual

@[simp] theorem hasLongInt_sorted : (value : JsonValue) →
    value.sorted.hasLongInt = value.hasLongInt
  | .null => rfl
  | .bool _ => rfl
  | .int _ => rfl
  | .text _ => rfl
  | .list items => hasLongInt_sortedItems items
  | .dict members => by
      rw [sorted, hasLongInt, membersHaveLongInt_eq, (perm_insertionSort ..).any_eq,
        ← membersHaveLongInt_eq]
      exact hasLongInt_sortedMembers members

theorem hasLongInt_sortedItems : (items : List JsonValue) →
    itemsHaveLongInt (sortedItems items) = itemsHaveLongInt items
  | [] => rfl
  | item :: items => by
      rw [sortedItems, itemsHaveLongInt, itemsHaveLongInt, hasLongInt_sorted item,
        hasLongInt_sortedItems items]

theorem hasLongInt_sortedMembers : (members : List (Text × JsonValue)) →
    membersHaveLongInt (sortedMembers members) = membersHaveLongInt members
  | [] => rfl
  | (key, value) :: members => by
      rw [sortedMembers, membersHaveLongInt, membersHaveLongInt, hasLongInt_sorted value,
        hasLongInt_sortedMembers members]

end

end JsonValue

/-- `_canonical_bytes`. -/
def canonicalBytes (value : JsonValue) : Except CoordinationError (List UInt8) :=
  match value.sorted.dump with
  | .error _ => .error (.coordination "protocol payload is not canonical JSON")
  | .ok text => text.encode

/-- A value has canonical bytes if its numbers can be written and its texts encoded. -/
theorem canonicalBytes_isOk_iff {value : JsonValue} :
    (∃ bytes, canonicalBytes value = .ok bytes) ↔
      value.hasLongInt = false ∧ value.hasSurrogate = false := by
  rw [canonicalBytes, ← JsonValue.hasLongInt_sorted, ← JsonValue.hasSurrogate_sorted]
  obtain ⟨long, failed⟩ | ⟨short, text, done, same⟩ := value.sorted.dump_cases
  · simp [long, failed]
  · rw [done, short, ← same]
    cases surrogate : text.any isSurrogate with
    | true => simp [Text.encode, surrogate]
    | false => simp [Text.encode, surrogate]

/-- A function from bytes to the hexadecimal text of their SHA-256 digest. -/
abbrev Sha256 := List UInt8 → Text

/-- `_sha256`. -/
def digestOf (sha256 : Sha256) (value : JsonValue) : Except CoordinationError Text := do
  .ok (sha256 (← canonicalBytes value))

theorem digestOf_isOk_iff {sha256 : Sha256} {value : JsonValue} :
    (∃ digest, digestOf sha256 value = .ok digest) ↔
      value.hasLongInt = false ∧ value.hasSurrogate = false := by
  rw [← canonicalBytes_isOk_iff, digestOf]
  cases canonicalBytes value <;> simp [bind, Except.bind]

end Aegis.Coordination
