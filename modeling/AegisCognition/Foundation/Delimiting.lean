import Mathlib.Data.Set.Function
import AegisCognition.Foundation.Bytes

/-!
# Encodings that delimit themselves

An encoding delimits itself if a stream that starts with an encoded value determines the value and
what follows it. Encodings of a fixed width do, and so do encodings put one after the other and
values behind a tag that says whether there is one. A list of such encodings that runs to the end
of the stream needs no count.
-/

namespace Aegis.Foundation

section Delimiting

universe u v w

variable {α : Type u} {β : Type v} {σ : Type w} {domain : α → Prop} {encode : α → List σ}

/-- Streams that agree and start with encoded values of the domain start with the same value and
go on in the same way. -/
def Delimits (domain : α → Prop) (encode : α → List σ) : Prop :=
  ∀ ⦃first second : α⦄ ⦃rest rest' : List σ⦄, domain first → domain second →
    encode first ++ rest = encode second ++ rest' → first = second ∧ rest = rest'

namespace Delimits

open List

theorem inj (h : Delimits domain encode) {first second : α} (hf : domain first)
    (hs : domain second) (same : encode first = encode second) : first = second := by
  have ends : encode first ++ [] = encode second ++ [] := congrArg (· ++ []) same
  exact (h hf hs ends).1

theorem of_length {width : Nat} (length : ∀ value, (encode value).length = width)
    (injective : ∀ first second, domain first → domain second →
      encode first = encode second → first = second) : Delimits domain encode := by
  intro first second rest rest' hf hs same
  obtain ⟨front, back⟩ := append_inj same ((length first).trans (length second).symm)
  exact ⟨injective first second hf hs front, back⟩

theorem mono {smaller : α → Prop} (h : Delimits domain encode)
    (inside : ∀ value, smaller value → domain value) : Delimits smaller encode := by
  intro first second rest rest' hf hs same
  exact h (inside first hf) (inside second hs) same

/-- The values that are read from others are told apart if they are read one to one. -/
theorem comap {read : β → α} (h : Delimits domain encode) (injective : Function.Injective read) :
    Delimits (fun value => domain (read value)) fun value => encode (read value) := by
  intro first second rest rest' hf hs same
  obtain ⟨front, back⟩ := h hf hs same
  exact ⟨injective front, back⟩

/-- One value after the other. -/
theorem pair {domain' : β → Prop} {encode' : β → List σ} (h : Delimits domain encode)
    (h' : Delimits domain' encode') :
    Delimits (fun both : α × β => domain both.1 ∧ domain' both.2)
      fun both => encode both.1 ++ encode' both.2 := by
  intro first second rest rest' hf hs same
  rw [append_assoc, append_assoc] at same
  obtain ⟨front, same⟩ := h hf.1 hs.1 same
  obtain ⟨back, same⟩ := h' hf.2 hs.2 same
  exact ⟨Prod.ext front back, same⟩

/-- A value behind the same symbols. -/
theorem behind (h : Delimits domain encode) (label : List σ) :
    Delimits domain fun value => label ++ encode value := by
  intro first second rest rest' hf hs same
  rw [append_assoc, append_assoc] at same
  exact h hf hs (append_cancel_left same)

/-- A value that may be missing, behind a tag. -/
theorem option {absent present : σ} (apart : absent ≠ present) {encode' : Option α → List σ}
    (h : Delimits domain encode) (none_ : encode' none = [absent])
    (some_ : ∀ value, encode' (some value) = present :: encode value) :
    Delimits (fun value => ∀ inner ∈ value, domain inner) encode' := by
  intro first second rest rest' hf hs same
  cases first with
  | none =>
      cases second with
      | none =>
          rw [none_] at same
          exact ⟨rfl, tail_eq_of_cons_eq same⟩
      | some value =>
          rw [none_, some_] at same
          exact absurd (head_eq_of_cons_eq same) apart
  | some value =>
      cases second with
      | none =>
          rw [none_, some_] at same
          exact absurd (head_eq_of_cons_eq same).symm apart
      | some other =>
          rw [some_, some_] at same
          obtain ⟨inner, back⟩ := h (hf value rfl) (hs other rfl) (tail_eq_of_cons_eq same)
          exact ⟨congrArg some inner, back⟩

/-- As many values one after the other. -/
theorem flatMap (h : Delimits domain encode) {first second : List α} {rest rest' : List σ}
    (lengths : first.length = second.length) (hf : ∀ value ∈ first, domain value)
    (hs : ∀ value ∈ second, domain value)
    (same : first.flatMap encode ++ rest = second.flatMap encode ++ rest') :
    first = second ∧ rest = rest' := by
  induction first generalizing second with
  | nil =>
      obtain rfl := length_eq_zero_iff.mp lengths.symm
      exact ⟨rfl, same⟩
  | cons value first ih =>
      cases second with
      | nil => cases lengths
      | cons other second =>
          rw [forall_mem_cons] at hf hs
          rw [flatMap_cons, flatMap_cons, append_assoc, append_assoc] at same
          obtain ⟨front, tails⟩ := h hf.1 hs.1 same
          obtain ⟨back, after⟩ := ih (Nat.succ.inj lengths) hf.2 hs.2 tails
          exact ⟨congrArg₂ List.cons front back, after⟩

/-- A list behind the number of its values. -/
theorem counted {count : Nat → List σ} {countable : Nat → Prop} (hc : Delimits countable count)
    (h : Delimits domain encode) :
    Delimits (fun values : List α => countable values.length ∧ ∀ value ∈ values, domain value)
      fun values => count values.length ++ values.flatMap encode := by
  intro first second rest rest' hf hs same
  rw [append_assoc, append_assoc] at same
  obtain ⟨lengths, same⟩ := hc hf.1 hs.1 same
  exact h.flatMap lengths hf.2 hs.2 same

/-- Values up to the end of the stream. -/
theorem flatMap_inj (h : Delimits domain encode) (nonempty : ∀ value, encode value ≠ [])
    {first second : List α} (hf : ∀ value ∈ first, domain value)
    (hs : ∀ value ∈ second, domain value) (same : first.flatMap encode = second.flatMap encode) :
    first = second := by
  induction first generalizing second with
  | nil =>
      cases second with
      | nil => rfl
      | cons value second =>
          have empty := append_eq_nil_iff.mp (same.symm.trans flatMap_nil)
          exact absurd empty.1 (nonempty value)
  | cons value first ih =>
      cases second with
      | nil =>
          have empty := append_eq_nil_iff.mp (same.trans flatMap_nil)
          exact absurd empty.1 (nonempty value)
      | cons other second =>
          obtain ⟨front, back⟩ := h (hf value mem_cons_self) (hs other mem_cons_self) same
          have rest := ih (fun value mem => hf value (mem_cons_of_mem _ mem))
            (fun value mem => hs value (mem_cons_of_mem _ mem)) back
          rw [front, rest]

end Delimits

theorem delimits_leBytes (width : Nat) : Delimits (· < 256 ^ width) (leBytes width) :=
  .of_length (length_leBytes width) fun _ _ => leBytes_inj

theorem utf8Bytes_injective : Function.Injective utf8Bytes := fun _ _ same =>
  String.toByteArray_inj.mp (ByteArray.ext (Array.toList_inj.mp same))

theorem length_utf8Bytes (text : String) : (utf8Bytes text).length = text.utf8ByteSize :=
  text.size_toByteArray

theorem delimits_byte : Delimits (fun _ => True) fun byte : UInt8 => [byte] :=
  .of_length (fun _ => List.length_singleton) fun _ _ _ _ same => List.head_eq_of_cons_eq same

/-- A text behind the number of its bytes. -/
theorem delimits_text {count : Nat → List UInt8} {countable : Nat → Prop}
    (h : Delimits countable count) :
    Delimits (fun text : String => countable text.utf8ByteSize)
      fun text => count text.utf8ByteSize ++ utf8Bytes text := by
  have texts := (h.counted delimits_byte).comap utf8Bytes_injective
  simp only [List.flatMap_singleton', length_utf8Bytes] at texts
  exact texts.mono fun _ inside => ⟨inside, fun _ _ => trivial⟩

end Delimiting

/-! ## Fields at fixed places

A record of parts that stand one after the other, read part by part at the places where they
must stand. It has them all there and nothing behind exactly when it is their concatenation. -/

section Layout

variable {bytes part : List UInt8} {parts : List (List UInt8)} {start : Nat}

/-- The parts stand one after the other from a place on, and the last one ends the record. -/
def Laid (bytes : List UInt8) (start : Nat) : List (List UInt8) → Prop
  | [] => bytes.length = start
  | part :: parts => slice bytes start (start + part.length) = part ∧
      Laid bytes (start + part.length) parts

theorem slice_eq_iff_prefix : slice bytes start (start + part.length) = part ↔
    part <+: bytes.drop start := by
  rw [slice, Nat.add_sub_cancel_left, List.prefix_iff_eq_take]
  exact eq_comm

theorem laid_iff_drop (inside : start ≤ bytes.length) :
    Laid bytes start parts ↔ bytes.drop start = parts.flatten := by
  induction parts generalizing start with
  | nil =>
      rw [Laid, List.flatten_nil, List.drop_eq_nil_iff]
      omega
  | cons part parts ih =>
      rw [Laid, List.flatten_cons, slice_eq_iff_prefix]
      constructor
      · rintro ⟨⟨rest, split⟩, laid⟩
        have length := congrArg List.length split
        rw [List.length_append, List.length_drop] at length
        rw [ih (by omega), ← List.drop_drop, ← split, List.drop_left] at laid
        rw [← split, laid]
      · intro split
        have length := congrArg List.length split
        rw [List.length_append, List.length_drop] at length
        refine ⟨⟨_, split.symm⟩, (ih (by omega)).mpr ?_⟩
        rw [← List.drop_drop, split, List.drop_left]

/-- The record is the concatenation of its parts. -/
theorem laid_iff : Laid bytes 0 parts ↔ bytes = parts.flatten :=
  laid_iff_drop (Nat.zero_le _)

end Layout

end Aegis.Foundation
