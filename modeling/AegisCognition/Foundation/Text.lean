import Mathlib.Algebra.GroupWithZero.Nat
import Mathlib.Data.List.DropRight

/-!
# Texts

The standard library trims ASCII white space only. The programs modelled here trim by
the Unicode `White_Space` property, so that property is spelled out once, with the text
operations built on it. Searches and splits work on the list of characters.
-/

namespace Aegis.Foundation

open List

/-- The Unicode `White_Space` property. -/
def isWhiteSpace (c : Char) : Bool :=
  let n := c.toNat
  (9 ≤ n && n ≤ 13) || n == 32 || n == 0x85 || n == 0xA0 || n == 0x1680 ||
    (0x2000 ≤ n && n ≤ 0x200A) || n == 0x2028 || n == 0x2029 || n == 0x202F ||
    n == 0x205F || n == 0x3000

/-- The Unicode general category `Cc`. -/
def isControl (c : Char) : Bool :=
  c.toNat < 0x20 || (0x7F ≤ c.toNat && c.toNat ≤ 0x9F)

/-- Trimming the text leaves nothing. -/
def isBlank (text : String) : Bool :=
  text.toList.all isWhiteSpace

/-- The text without the white space at its two ends. -/
def trim (text : String) : String :=
  String.ofList ((text.toList.dropWhile isWhiteSpace).rdropWhile isWhiteSpace)

/-- The text has white space at neither end. -/
def isTrimmed (text : String) : Bool :=
  trim text == text

/-- What stands before and after the first occurrence of the separator. -/
def splitOnce (separator : List Char) : List Char → Option (List Char × List Char)
  | [] => if separator.isEmpty then some ([], []) else none
  | c :: rest =>
    if separator.isPrefixOf (c :: rest) then
      some ([], (c :: rest).drop separator.length)
    else
      (splitOnce separator rest).map fun parts => (c :: parts.1, parts.2)

def containsText (part text : List Char) : Bool :=
  (splitOnce part text).isSome

theorem splitOnce_singleton {separator : Char} {before : List Char} (absent : separator ∉ before)
    (after : List Char) :
    splitOnce [separator] (before ++ separator :: after) = some (before, after) := by
  induction before with
  | nil => simp [splitOnce]
  | cons c before ih =>
      rw [mem_cons, not_or] at absent
      have other : ¬ [separator].isPrefixOf (c :: (before ++ separator :: after)) = true := by
        simpa using absent.1
      rw [cons_append, splitOnce, if_neg other, ih absent.2]
      rfl

theorem splitOnce_singleton_eq_none {separator : Char} {text : List Char}
    (absent : separator ∉ text) : splitOnce [separator] text = none := by
  induction text with
  | nil => rfl
  | cons c text ih =>
      rw [mem_cons, not_or] at absent
      have other : ¬ [separator].isPrefixOf (c :: text) = true := by
        simpa using absent.1
      rw [splitOnce, if_neg other, ih absent.2]
      rfl

theorem all_dropWhile {α : Type} (p : α → Bool) (l : List α) : (l.dropWhile p).all p = l.all p := by
  have other : (l.dropWhile p).any (fun x => !p x) = !l.all p := any_dropWhile
  rw [← Bool.not_inj_iff, ← other, not_all_eq_any_not]

@[simp] theorem isBlank_trim (text : String) : isBlank (trim text) = isBlank text := by
  rw [isBlank, trim, String.toList_ofList, rdropWhile, all_reverse, all_dropWhile,
    all_reverse, all_dropWhile, isBlank]

theorem trim_ofList (text : List Char) : trim (String.ofList text) =
    String.ofList ((text.dropWhile isWhiteSpace).rdropWhile isWhiteSpace) := by
  rw [trim, String.toList_ofList]

theorem trim_append_blank {text blank : List Char} (h : blank.all isWhiteSpace) :
    trim (String.ofList (text ++ blank)) = trim (String.ofList text) := by
  have dropped (front : List Char) :
      (front ++ blank).rdropWhile isWhiteSpace = front.rdropWhile isWhiteSpace := by
    rw [rdropWhile, rdropWhile, reverse_append, dropWhile_append_of_pos]
    exact fun c mem => all_eq_true.mp h c (mem_reverse.mp mem)
  rw [trim_ofList, trim_ofList, dropWhile_append]
  split
  · rename_i empty
    rw [isEmpty_iff.mp empty, dropWhile_eq_nil_iff.mpr (all_eq_true.mp h)]
  · rw [dropped]

/-- A text that starts and ends without white space is its own trim. -/
theorem trim_eq_self {text : List Char} (first : ∀ c ∈ text.head?, isWhiteSpace c = false)
    (last : ∀ c ∈ text.getLast?, isWhiteSpace c = false) :
    trim (String.ofList text) = String.ofList text := by
  have front : text.dropWhile isWhiteSpace = text := by
    cases text with
    | nil => rfl
    | cons c text => exact dropWhile_cons_of_neg (by simp [first c rfl])
  rw [trim_ofList, front, rdropWhile_eq_self_iff.mpr]
  intro nonempty
  simp [last _ (getLast?_eq_some_getLast nonempty)]

/-- What is trimmed before a text that is not is the front of the trim of both. -/
theorem trim_append_of_ends {text ending : List Char}
    (first : ∃ c ∈ ending.head?, isWhiteSpace c = false)
    (last : ∀ c ∈ ending.getLast?, isWhiteSpace c = false) :
    ∃ blank, blank.all isWhiteSpace ∧ trim (String.ofList (text ++ ending)) =
      String.ofList ((trim (String.ofList text)).toList ++ (blank ++ ending)) := by
  obtain ⟨c, head, visible⟩ := first
  obtain ⟨tail, rfl⟩ : ∃ tail, ending = c :: tail := by
    cases ending with
    | nil => cases head
    | cons c' tail => exact ⟨tail, by rw [Option.some.inj head]⟩
  have kept : (c :: tail).dropWhile isWhiteSpace = c :: tail :=
    dropWhile_cons_of_neg (by simp [visible])
  have front : (text ++ c :: tail).dropWhile isWhiteSpace =
      text.dropWhile isWhiteSpace ++ c :: tail := by
    rw [dropWhile_append, kept]
    split
    · rename_i empty
      rw [isEmpty_iff.mp empty, nil_append]
    · rfl
  refine ⟨(text.dropWhile isWhiteSpace).rtakeWhile isWhiteSpace, ?_, ?_⟩
  · exact all_eq_true.mpr fun c mem => mem_rtakeWhile_imp mem
  · rw [trim_ofList, trim_ofList, String.toList_ofList, front, rdropWhile_eq_self_iff.mpr,
      ← append_assoc, rdropWhile_append_rtakeWhile]
    intro _
    simp [last _ (getLast?_eq_some_getLast (cons_ne_nil c tail))]

theorem isBlank_eq_false_of_trim_ne {text : String} (h : trim text ≠ "") :
    isBlank text = false := by
  cases blank : isBlank text with
  | false => rfl
  | true =>
      have dropped : text.toList.dropWhile isWhiteSpace = [] :=
        dropWhile_eq_nil_iff.mpr (all_eq_true.mp blank)
      exact absurd (by rw [trim, dropped]; rfl) h

theorem utf8ByteSize_ofList (l : List Char) :
    (String.ofList l).utf8ByteSize = (l.map Char.utf8Size).sum := by
  induction l with
  | nil => rfl
  | cons c l ih =>
      rw [String.ofList_cons, String.utf8ByteSize_append, ih]
      simp

/-! ### Cuts at a byte offset

A text in UTF-8 can only be cut between two characters. Where a program cuts it at an offset
that it found by its own search, the offset is the size of what the search went over, and the
cut is the one into characters. -/

/-- The number of bytes that the characters take in UTF-8. -/
def utf8Length (text : List Char) : Nat := (text.map Char.utf8Size).sum

/-- The parts of a text before and after a byte offset, where it falls between two characters. -/
def splitAtByte : Nat → List Char → Option (List Char × List Char)
  | 0, text => some ([], text)
  | _ + 1, [] => none
  | bytes + 1, c :: rest =>
      if c.utf8Size ≤ bytes + 1 then
        (splitAtByte (bytes + 1 - c.utf8Size) rest).map fun parts => (c :: parts.1, parts.2)
      else none

@[simp] theorem utf8Length_cons (c : Char) (text : List Char) :
    utf8Length (c :: text) = c.utf8Size + utf8Length text := by
  rw [utf8Length, map_cons, sum_cons, utf8Length]

theorem splitAtByte_cons (c : Char) (bytes : Nat) (rest : List Char) :
    splitAtByte (c.utf8Size + bytes) (c :: rest) =
      (splitAtByte bytes rest).map fun parts => (c :: parts.1, parts.2) := by
  obtain ⟨before, size⟩ : ∃ before, c.utf8Size + bytes = before + 1 :=
    ⟨c.utf8Size + bytes - 1, by have := c.utf8Size_pos; omega⟩
  have fits : c.utf8Size ≤ before + 1 := by omega
  have left : before + 1 - c.utf8Size = bytes := by omega
  rw [size, splitAtByte, if_pos fits, left]

theorem splitAtByte_append (before after : List Char) :
    splitAtByte (utf8Length before) (before ++ after) = some (before, after) := by
  induction before with
  | nil => cases after <;> rfl
  | cons c before ih =>
      rw [utf8Length_cons, cons_append, splitAtByte_cons, ih]
      rfl

/-- A search for the first character that is no `p` stops between two characters. -/
theorem splitAtByte_takeWhile (p : Char → Bool) (text : List Char) :
    splitAtByte (utf8Length (text.takeWhile p)) text =
      some (text.takeWhile p, text.dropWhile p) := by
  have cut := splitAtByte_append (text.takeWhile p) (text.dropWhile p)
  rwa [takeWhile_append_dropWhile] at cut

/-- Lower case is only another case of a letter of the same size. -/
theorem utf8Size_toLower (c : Char) : c.toLower.utf8Size = c.utf8Size := by
  delta Char.toLower
  split
  case isTrue upper =>
    have small : c.val ≤ 127 := UInt32.le_trans upper.2 (show 'Z'.val ≤ 127 by decide)
    have lower : c.val + ('a'.val - 'A'.val) ≤ 127 := by
      have last : c.val.toNat ≤ 90 := upper.2
      have gap : ('a'.val - 'A'.val).toNat = 32 := rfl
      have sum : (c.val + ('a'.val - 'A'.val)).toNat = c.val.toNat + 32 := by
        rw [UInt32.toNat_add, gap, Nat.mod_eq_of_lt (by omega)]
      have limit : (127 : UInt32).toNat = 127 := rfl
      rw [UInt32.le_iff_toNat_le, sum, limit]
      omega
    rw [Char.utf8Size_eq_one_iff.mpr small]
    exact Char.utf8Size_eq_one_iff.mpr lower
  case isFalse => rfl

theorem utf8Length_map_toLower (text : List Char) :
    utf8Length (text.map Char.toLower) = utf8Length text := by
  induction text with
  | nil => rfl
  | cons c text ih => rw [map_cons, utf8Length_cons, utf8Length_cons, utf8Size_toLower, ih]

/-- What follows a prefix that was found in the lower case of a text. -/
theorem splitAtByte_of_lower_prefix {scheme text : List Char}
    (h : scheme <+: text.map Char.toLower) :
    splitAtByte (utf8Length scheme) text =
      some (text.take scheme.length, text.drop scheme.length) := by
  have front : (text.take scheme.length).map Char.toLower = scheme := by
    rw [map_take]
    exact (prefix_iff_eq_take.mp h).symm
  have size : utf8Length scheme = utf8Length (text.take scheme.length) := by
    conv_lhs => rw [← front, utf8Length_map_toLower]
  have cut := splitAtByte_append (text.take scheme.length) (text.drop scheme.length)
  rwa [take_append_drop, ← size] at cut

end Aegis.Foundation
