import Mathlib.Algebra.BigOperators.Pi
import Mathlib.Algebra.Module.Pi
import Mathlib.Data.Fintype.Pi
import AegisCognition.Lab.Record

/-!
# Dimensions of units

A unit is read from left to right, and its dimension is the sum of the dimensions of its factors.
The sum is given up where one of its components leaves the range of an `i8` on the way. A dimension
that is read is therefore exact, but whether one is read depends on the order of the factors.
-/

namespace Aegis.Lab

open Foundation List

/-- The exponents of the base quantities. -/
abbrev Dimension : Type := Fin 6 → Int

/-- Every exponent is an `i8`. -/
def Dimension.Fits (dimension : Dimension) : Prop :=
  ∀ i, -128 ≤ dimension i ∧ dimension i ≤ 127

instance : DecidablePred Dimension.Fits := fun dimension =>
  inferInstanceAs (Decidable (∀ i, -128 ≤ dimension i ∧ dimension i ≤ 127))

theorem Dimension.fits_zero : Dimension.Fits 0 := by
  decide

variable {symbol : String} {token : List Char} {dimension : Dimension} {operator exponent : Int}

/-! ### Factors -/

def unitSymbols : List String :=
  ["ratio", "score", "m", "cm", "mm", "s", "ms", "kg", "g", "A", "mA", "uA", "V", "mV", "W", "mW",
    "uW", "J", "mJ", "K", "Hz", "N", "Pa", "C", "Ohm"]

theorem mem_unitSymbols (known : (unitBase symbol).isSome) : symbol ∈ unitSymbols := by
  unfold unitBase at known
  split at known <;> simp_all [unitSymbols]

/-- What a symbol stands for. -/
def baseDimension (symbol : String) : Dimension :=
  fun i => ((unitBase symbol).getD []).getD i 0

theorem unitBase_of_known (known : (unitBase symbol).isSome) :
    unitBase symbol = some (ofFn (baseDimension symbol)) := by
  have all : ∀ symbol ∈ unitSymbols,
      unitBase symbol = some (ofFn (baseDimension symbol)) := by decide +kernel
  exact all symbol (mem_unitSymbols known)

/-- A character that neither ends a factor nor is trimmed. -/
def isPlain (character : Char) : Bool :=
  character != '*' && character != '/' && !isWhiteSpace character

theorem plain_symbol (known : (unitBase symbol).isSome) :
    symbol ≠ "" ∧ symbol ≠ "1" ∧ symbol.toList.all isPlain ∧ '^' ∉ symbol.toList := by
  have all : ∀ symbol ∈ unitSymbols,
      symbol ≠ "" ∧ symbol ≠ "1" ∧ symbol.toList.all isPlain ∧ '^' ∉ symbol.toList := by
    decide +kernel
  exact all symbol (mem_unitSymbols known)

theorem isPlain_of_isDigit {character : Char} (digit : character.isDigit = true) :
    isPlain character = true := by
  have bounds : 48 ≤ character.toNat ∧ character.toNat ≤ 57 := by
    simp only [Char.isDigit, ge_iff_le, Bool.and_eq_true, decide_eq_true_eq,
      UInt32.le_iff_toNat_le] at digit
    exact digit
  have apart (other : Char) (out : other.toNat < 48) : character ≠ other := by
    rintro rfl
    omega
  simp only [isPlain, Bool.and_eq_true, bne_iff_ne, Bool.not_eq_true', isWhiteSpace,
    Bool.or_eq_false_iff, Bool.and_eq_false_iff, beq_eq_false_iff_ne, decide_eq_false_iff_not]
  refine ⟨⟨apart _ (by decide), apart _ (by decide)⟩, ?_⟩
  omega

/-- An exponent is made of digits and a sign. -/
theorem plain_exponent {text : List Char} (parsed : (parseI8 text).isSome) :
    text.all isPlain := by
  have digits (rest : List Char) (all : rest.all Char.isDigit) : rest.all isPlain := by
    rw [all_eq_true] at all ⊢
    exact fun character mem => isPlain_of_isDigit (all character mem)
  unfold parseI8 at parsed
  split at parsed
  · rename_i sign rest signed
    split at parsed
    · cases parsed
    · rename_i valid
      simp only [Bool.or_eq_true, not_or, Bool.not_eq_true', Bool.not_eq_false] at valid
      have plain := digits _ valid.2
      split at signed <;> obtain ⟨-, rfl⟩ := Prod.mk.inj signed
      · simpa [isPlain, isWhiteSpace] using plain
      · simpa [isPlain, isWhiteSpace] using plain
      · exact plain

/-! ### Reading a factor -/

/-- The symbol of a factor and its exponent. -/
def readFactor (trimmed : String) : Option (String × Int) :=
  match splitOnce ['^'] trimmed.toList with
  | some (symbol, exponent) => do pure (String.ofList symbol, ← parseI8 exponent)
  | none => pure (trimmed, 1)

/-- What the text of a factor stands for. An empty one and the number one stand for nothing. -/
def tokenTerm (token : List Char) : Option Dimension :=
  let trimmed := trim (String.ofList token)
  if trimmed = "" ∨ trimmed = "1" then some 0
  else do
    let (symbol, exponent) ← readFactor trimmed
    let _ ← unitBase symbol
    pure (exponent • baseDimension symbol)

theorem mapM_guard {α β : Type} {p : α → Prop} [DecidablePred p] (f : α → β) (items : List α) :
    (items.mapM fun item => if p item then some (f item) else none) =
      if ∀ item ∈ items, p item then some (items.map f) else none := by
  induction items with
  | nil => simp
  | cons item items ih =>
      rw [mapM_cons, ih]
      by_cases first : p item
      · by_cases rest : ∀ other ∈ items, p other
        · have all : ∀ other ∈ item :: items, p other := forall_mem_cons.mpr ⟨first, rest⟩
          rw [if_pos first, if_pos rest, if_pos all]
          rfl
        · have out : ¬ ∀ other ∈ item :: items, p other := fun all =>
            rest (forall_mem_cons.mp all).2
          rw [if_pos first, if_neg rest, if_neg out]
          rfl
      · have out : ¬ ∀ other ∈ item :: items, p other := fun all => first (all item mem_cons_self)
        rw [if_neg first, if_neg out]
        rfl

theorem zip_ofFn {α β : Type} {n : Nat} (f : Fin n → α) (g : Fin n → β) :
    (ofFn f).zip (ofFn g) = ofFn fun i => (f i, g i) := by
  apply ext_getElem <;> simp

/-- The components are added one by one, and all have to stay in the range. -/
theorem addComponents_eq (base : Dimension) :
    (((ofFn dimension).zip (ofFn base)).mapM fun (dimension, component) =>
      let value := dimension + component * exponent * operator
      if -128 ≤ value ∧ value ≤ 127 then some value else none) =
    (boundedAdd Dimension.Fits dimension (operator • exponent • base)).map ofFn := by
  have component (i : Fin 6) : dimension i + base i * exponent * operator =
      (dimension + operator • exponent • base) i := by
    simp only [Pi.add_apply, Pi.smul_apply, smul_eq_mul]
    ring
  have guarded := mapM_guard
    (p := fun pair : Int × Int => -128 ≤ pair.1 + pair.2 * exponent * operator ∧
      pair.1 + pair.2 * exponent * operator ≤ 127)
    (fun pair : Int × Int => pair.1 + pair.2 * exponent * operator)
    ((ofFn dimension).zip (ofFn base))
  rw [zip_ofFn] at guarded ⊢
  refine guarded.trans ?_
  simp only [forall_mem_ofFn_iff, map_ofFn, Function.comp_def, component]
  rw [boundedAdd]
  by_cases fits : Dimension.Fits (dimension + operator • exponent • base)
  · rw [if_pos fits]
    exact if_pos fits
  · rw [if_neg fits]
    exact if_neg fits

theorem applyUnit_eq_readFactor (dimensions : List Int) :
    applyUnit dimensions token operator =
      if trim (String.ofList token) = "" ∨ trim (String.ofList token) = "1" then some dimensions
      else readFactor (trim (String.ofList token)) >>= fun (symbol, exponent) =>
        unitBase symbol >>= fun base => (dimensions.zip base).mapM fun (dimension, component) =>
          let value := dimension + component * exponent * operator
          if -128 ≤ value ∧ value ≤ 127 then some value else none := by
  simp only [applyUnit, readFactor]
  split
  · rfl
  · cases splitOnce ['^'] (trim (String.ofList token)).toList with
    | none => simp only [Option.bind_eq_bind, Option.pure_def, Option.bind_some]
    | some parts => simp only [Option.bind_eq_bind, Option.pure_def, Option.bind_some,
        Option.bind_assoc]

theorem applyUnit_eq (fits : dimension.Fits) :
    applyUnit (ofFn dimension) token operator =
      (tokenTerm token >>= fun term =>
        boundedAdd Dimension.Fits dimension (operator • term)).map ofFn := by
  rw [applyUnit_eq_readFactor, tokenTerm]
  by_cases skips : trim (String.ofList token) = "" ∨ trim (String.ofList token) = "1"
  · rw [if_pos skips, if_pos skips, Option.bind_eq_bind, Option.bind_some, smul_zero,
      boundedAdd_zero fits, Option.map_some]
  · rw [if_neg skips, if_neg skips]
    cases readFactor (trim (String.ofList token)) with
    | none => rfl
    | some factor =>
        obtain ⟨symbol, exponent⟩ := factor
        cases known : unitBase symbol with
        | none =>
            simp only [Option.bind_eq_bind, Option.bind_some, known]
            rfl
        | some base =>
            obtain rfl := Option.some.inj
              (known.symm.trans (unitBase_of_known (Option.isSome_of_eq_some known)))
            simp only [Option.bind_eq_bind, Option.bind_some, known]
            exact addComponents_eq _

/-! ### Reading a text -/

/-- The dimensions read so far fit. -/
structure UnitScan.Sound (scan : UnitScan) (dimension : Dimension) : Prop where
  dimensions : scan.dimensions = ofFn dimension
  fits : dimension.Fits

theorem UnitScan.Sound.read {scan next : UnitScan} {character : Char}
    (sound : scan.Sound dimension) (read : scan.read character = some next) :
    ∃ dimension, next.Sound dimension := by
  rw [UnitScan.read] at read
  split at read
  · obtain ⟨dimensions, applied, same⟩ := Option.bind_eq_some_iff.mp read
    rw [sound.dimensions, applyUnit_eq sound.fits] at applied
    obtain ⟨moved, added, rfl⟩ := Option.map_eq_some_iff.mp applied
    obtain ⟨term, -, added⟩ := Option.bind_eq_some_iff.mp added
    obtain ⟨fits, rfl⟩ := boundedAdd_eq_some_iff.mp added
    cases same
    exact ⟨_, rfl, fits⟩
  · cases read
    exact ⟨dimension, sound.dimensions, sound.fits⟩

theorem scan_sound {scan last : UnitScan} {text : List Char} (sound : scan.Sound dimension)
    (read : text.foldlM UnitScan.read scan = some last) : ∃ dimension, last.Sound dimension := by
  induction text generalizing scan dimension with
  | nil =>
      cases read
      exact ⟨dimension, sound⟩
  | cons character text ih =>
      obtain ⟨next, first, rest⟩ := Option.bind_eq_some_iff.mp read
      obtain ⟨_, sound⟩ := sound.read first
      exact ih sound rest

/-- Whether the character ends a factor. -/
def isOperator (character : Char) : Prop :=
  character = '*' ∨ character = '/'

theorem scan_token {scan : UnitScan} {text rest : List Char}
    (inside : ∀ character ∈ text, ¬ isOperator character) :
    (text ++ rest).foldlM UnitScan.read scan =
      rest.foldlM UnitScan.read { scan with token := scan.token ++ text } := by
  induction text generalizing scan with
  | nil => rw [append_nil, nil_append]
  | cons character text ih =>
      obtain ⟨first, others⟩ := forall_mem_cons.mp inside
      have kept : scan.read character = some { scan with token := scan.token ++ [character] } :=
        if_neg first
      rw [cons_append, foldlM_cons, kept, Option.bind_eq_bind, Option.bind_some,
        ih others, append_assoc, singleton_append]

/-- What is left to read of a text does not depend on white space behind the token. -/
theorem scan_blank {scan : UnitScan} {blank rest : List Char} (h : blank.all isWhiteSpace)
    {sign : Char} (ends : isOperator sign) :
    (blank ++ sign :: rest).foldlM UnitScan.read scan =
      (sign :: rest).foldlM UnitScan.read scan := by
  have listed : sign = '*' ∨ sign = '/' := ends
  have inside : ∀ character ∈ blank, ¬ isOperator character := by
    intro character mem other
    have white := all_eq_true.mp h character mem
    obtain rfl | rfl := other <;> simp [isWhiteSpace] at white
  have same : applyUnit scan.dimensions (scan.token ++ blank) scan.operator =
      applyUnit scan.dimensions scan.token scan.operator := by
    simp only [applyUnit, trim_append_blank h]
  rw [scan_token inside, foldlM_cons, foldlM_cons, UnitScan.read, UnitScan.read,
    if_pos listed, if_pos listed, same]

/-! ### Texts of factors -/

/-- A known symbol with an exponent, if it has one. -/
structure UnitPower where
  symbol : String
  exponent : Option String
  known : (unitBase symbol).isSome
  parses : ∀ text ∈ exponent, (parseI8 text.toList).isSome

namespace UnitPower

def characters (power : UnitPower) : List Char :=
  power.symbol.toList ++ power.exponent.elim [] fun text => '^' :: text.toList

def exponentValue (power : UnitPower) : Int :=
  power.exponent.elim 1 fun text => (parseI8 text.toList).getD 0

def term (power : UnitPower) : Dimension :=
  power.exponentValue • baseDimension power.symbol

variable (power : UnitPower)

theorem all_isPlain : power.characters.all isPlain := by
  obtain ⟨-, -, plain, -⟩ := plain_symbol power.known
  rw [characters, all_append, plain, Bool.true_and]
  cases raised : power.exponent with
  | none => rfl
  | some text => simpa [isPlain, isWhiteSpace] using plain_exponent (power.parses text raised)

theorem not_isOperator : ∀ character ∈ power.characters, ¬ isOperator character := by
  intro character mem ends
  have plain := all_eq_true.mp power.all_isPlain character mem
  obtain rfl | rfl := ends <;> simp [isPlain] at plain

theorem not_isWhiteSpace : ∀ character ∈ power.characters, isWhiteSpace character = false := by
  intro character mem
  have plain := all_eq_true.mp power.all_isPlain character mem
  simp only [isPlain, Bool.and_eq_true, Bool.not_eq_true'] at plain
  exact plain.2

theorem not_skipped :
    ¬ (String.ofList power.characters = "" ∨ String.ofList power.characters = "1") := by
  obtain ⟨named, numbered, -⟩ := plain_symbol power.known
  rintro (empty | one)
  · have none : power.characters = [] := by
      rw [← String.toList_ofList (l := power.characters), empty]
      rfl
    exact named (String.toList_eq_nil_iff.mp (append_eq_nil_iff.mp none).1)
  · have single : power.characters = ['1'] := by
      rw [← String.toList_ofList (l := power.characters), one]
      rfl
    obtain ⟨none, -⟩ | ⟨whole, -⟩ := append_eq_singleton_iff.mp single
    · exact named (String.toList_eq_nil_iff.mp none)
    · exact numbered (String.toList_inj.mp whole)

theorem trim_characters :
    trim (String.ofList power.characters) = String.ofList power.characters := by
  apply trim_eq_self
  · exact fun character mem => power.not_isWhiteSpace character (mem_of_mem_head? mem)
  · exact fun character mem => power.not_isWhiteSpace character (mem_of_mem_getLast? mem)

theorem readFactor_characters :
    readFactor (String.ofList power.characters) = some (power.symbol, power.exponentValue) := by
  obtain ⟨-, -, -, uncaret⟩ := plain_symbol power.known
  rw [readFactor, String.toList_ofList, characters, exponentValue]
  cases raised : power.exponent with
  | none =>
      rw [Option.elim_none, Option.elim_none, append_nil, splitOnce_singleton_eq_none uncaret,
        String.ofList_toList]
      rfl
  | some text =>
      obtain ⟨value, parsed⟩ := Option.isSome_iff_exists.mp (power.parses text raised)
      rw [Option.elim_some, Option.elim_some, splitOnce_singleton uncaret]
      simp [parsed]

/-- The text of a factor stands for its dimension. -/
theorem tokenTerm_characters : tokenTerm power.characters = some power.term := by
  rw [tokenTerm, trim_characters]
  simp only [if_neg power.not_skipped, readFactor_characters, Option.bind_eq_bind, Option.bind_some,
    unitBase_of_known power.known]
  rfl

end UnitPower

/-- A factor of a unit, which multiplies or divides. -/
structure UnitFactor extends UnitPower where
  divides : Bool

namespace UnitFactor

def sign (factor : UnitFactor) : Int :=
  if factor.divides then -1 else 1

/-- What a factor adds to the dimension of a unit. -/
def signedTerm (factor : UnitFactor) : Dimension :=
  factor.sign • factor.term

/-- A factor behind its operator. -/
def written (factor : UnitFactor) : List Char :=
  (if factor.divides then '/' else '*') :: factor.characters

end UnitFactor

/-- Factors joined by operators. Only a first factor that divides has its operator written. -/
def unitCharacters : List UnitFactor → List Char
  | [] => []
  | first :: rest =>
    (if first.divides then ['/'] else []) ++ first.characters ++ rest.flatMap (·.written)

def unitText (factors : List UnitFactor) : String :=
  String.ofList (unitCharacters factors)

theorem unitCharacters_cons (first : UnitFactor) (rest : List UnitFactor) :
    unitCharacters (first :: rest) =
      (if first.divides then ['/'] else []) ++ first.characters ++ rest.flatMap (·.written) := rfl

/-- The sum once the token that an operator ends is added. -/
def endToken (total : Dimension) (operator : Int) (token : List Char) : Option Dimension :=
  tokenTerm token >>= fun term => boundedAdd Dimension.Fits total (operator • term)

theorem fits_of_endToken {next : Dimension}
    (added : endToken dimension operator token = some next) :
    next.Fits := by
  obtain ⟨term, -, added⟩ := Option.bind_eq_some_iff.mp added
  obtain ⟨fits, rfl⟩ := boundedAdd_eq_some_iff.mp added
  exact fits

theorem endToken_characters (power : UnitPower) : endToken dimension operator power.characters =
    boundedAdd Dimension.Fits dimension (operator • power.term) := by
  rw [endToken, power.tokenTerm_characters, Option.bind_eq_bind, Option.bind_some]

theorem endToken_nil (fits : dimension.Fits) : endToken dimension operator [] = some dimension := by
  have blank : tokenTerm [] = some 0 := rfl
  rw [endToken, blank, Option.bind_eq_bind, Option.bind_some, smul_zero, boundedAdd_zero fits]

theorem read_operator {sign : Char} (fits : dimension.Fits) (ends : isOperator sign) :
    UnitScan.read ⟨ofFn dimension, operator, token⟩ sign =
      (endToken dimension operator token).map fun next =>
        ⟨ofFn next, if sign = '*' then 1 else -1, []⟩ := by
  have listed : sign = '*' ∨ sign = '/' := ends
  rw [UnitScan.read, if_pos listed, applyUnit_eq fits, endToken]
  cases tokenTerm token >>= fun term =>
    boundedAdd Dimension.Fits dimension (operator • term) <;> rfl

theorem scan_factors {factors : List UnitFactor} (fits : dimension.Fits) :
    ((factors.flatMap (·.written) ++ ['*']).foldlM UnitScan.read
      ⟨ofFn dimension, operator, token⟩).map (·.dimensions) =
    (endToken dimension operator token >>= fun next =>
      boundedSum Dimension.Fits next (factors.map (·.signedTerm))).map ofFn := by
  induction factors generalizing dimension operator token with
  | nil =>
      rw [flatMap_nil, nil_append, foldlM_cons, read_operator fits (.inl rfl)]
      cases endToken dimension operator token <;> rfl
  | cons factor factors ih =>
      have ends : isOperator (if factor.divides then '/' else '*') := by
        cases factor.divides
        · exact .inl rfl
        · exact .inr rfl
      have sign :
          (if (if factor.divides then '/' else '*') = '*' then 1 else -1) = factor.sign := by
        rw [UnitFactor.sign]
        cases factor.divides <;> rfl
      rw [flatMap_cons, UnitFactor.written, cons_append, cons_append,
        foldlM_cons, read_operator fits ends, sign]
      cases added : endToken dimension operator token with
      | none => rfl
      | some next =>
          have read : ((factors.flatMap (·.written) ++ ['*']).foldlM UnitScan.read
              ⟨ofFn next, factor.sign, factor.characters⟩).map (·.dimensions) =
            (endToken next factor.sign factor.characters >>= fun last =>
              boundedSum Dimension.Fits last (factors.map (·.signedTerm))).map ofFn :=
            ih (fits_of_endToken added)
          rw [endToken_characters] at read
          show ((factor.characters ++ factors.flatMap (·.written) ++ ['*']).foldlM UnitScan.read
              ⟨ofFn next, factor.sign, []⟩).map (·.dimensions) =
            (boundedSum Dimension.Fits next ((factor :: factors).map (·.signedTerm))).map ofFn
          rw [map_cons, boundedSum_cons, UnitFactor.signedTerm, ← read, append_assoc,
            scan_token factor.not_isOperator, nil_append]

/-! ### Whole units -/

theorem start_eq : ([0, 0, 0, 0, 0, 0] : List Int) = ofFn (0 : Dimension) := rfl

section

variable (factors : List UnitFactor)

theorem visible_written :
    ∀ character ∈ factors.flatMap (·.written), isWhiteSpace character = false := by
  intro character mem
  obtain ⟨factor, -, mem⟩ := mem_flatMap.mp mem
  obtain rfl | mem := mem_cons.mp mem
  · cases factor.divides <;> decide
  · exact factor.not_isWhiteSpace character mem

theorem visible_unitCharacters :
    ∀ character ∈ unitCharacters factors, isWhiteSpace character = false := by
  cases factors with
  | nil => simp [unitCharacters]
  | cons first rest =>
      intro character mem
      rw [unitCharacters_cons, mem_append, mem_append] at mem
      obtain (sign | mem) | mem := mem
      · cases divides : first.divides <;> rw [divides] at sign
        · cases sign
        · obtain rfl := mem_singleton.mp sign
          decide
      · exact first.not_isWhiteSpace character mem
      · exact visible_written rest character mem

theorem unitDimension_unitText : unitDimension (unitText factors) =
    (boundedSum Dimension.Fits 0 (factors.map (·.signedTerm))).map ofFn := by
  have visible := visible_unitCharacters factors
  have trimmed : trim (String.ofList (unitCharacters factors)) =
      String.ofList (unitCharacters factors) := by
    apply trim_eq_self
    · exact fun character mem => visible character (mem_of_mem_head? mem)
    · exact fun character mem => visible character (mem_of_mem_getLast? mem)
  rw [unitText, unitDimension, trimmed, String.toList_ofList, start_eq]
  cases factors with
  | nil => rfl
  | cons first rest =>
      cases divides : first.divides with
      | false =>
          have signed : first.signedTerm = (1 : Int) • first.term := by
            rw [UnitFactor.signedTerm, UnitFactor.sign, divides, if_neg Bool.false_ne_true]
          rw [unitCharacters_cons, divides, if_neg Bool.false_ne_true, nil_append,
            append_assoc, scan_token first.not_isOperator, scan_factors Dimension.fits_zero,
            nil_append, endToken_characters, map_cons, boundedSum_cons, signed]
      | true =>
          have whole : unitCharacters (first :: rest) = (first :: rest).flatMap (·.written) := by
            rw [unitCharacters_cons, flatMap_cons, UnitFactor.written, divides, if_pos rfl,
              if_pos rfl, singleton_append]
          rw [whole, scan_factors Dimension.fits_zero, endToken_nil Dimension.fits_zero,
            Option.bind_eq_bind, Option.bind_some]

/-- The dimension of a unit is the exact sum over its factors if all running sums are in range, and
there is none otherwise. -/
theorem unitDimension_eq : unitDimension (unitText factors) =
    if RunningTotalsFit Dimension.Fits 0 (factors.map (·.signedTerm)) then
      some (ofFn (factors.map (·.signedTerm)).sum)
    else none := by
  rw [unitDimension_unitText, boundedSum_eq Dimension.fits_zero, zero_add]
  split <;> rfl

end

/-- A factor and its inverse, each behind its operator. -/
def UnitPower.cancelled (power : UnitPower) : List Char :=
  '*' :: power.characters ++ '/' :: power.characters

theorem UnitPower.cancelled_eq (power : UnitPower) : power.cancelled =
    ([⟨power, false⟩, ⟨power, true⟩] : List UnitFactor).flatMap (·.written) := by
  rw [flatMap_cons, flatMap_singleton]
  rfl

theorem UnitPower.cancelled_signedTerms (power : UnitPower) :
    ([⟨power, false⟩, ⟨power, true⟩] : List UnitFactor).map (·.signedTerm) =
      [power.term, -power.term] := by
  have first : (⟨power, false⟩ : UnitFactor).signedTerm = power.term := one_smul _ _
  have second : (⟨power, true⟩ : UnitFactor).signedTerm = -power.term := neg_one_smul _ _
  rw [map_cons, map_singleton, first, second]

theorem UnitPower.visible_cancelled (power : UnitPower) :
    ∀ character ∈ power.cancelled, isWhiteSpace character = false := by
  rw [power.cancelled_eq]
  exact visible_written _

/-- A factor and its inverse behind a unit that is read change nothing, if the dimension between
them is in range. -/
theorem unitDimension_append_cancelled {unit : String} (power : UnitPower)
    (read : unitDimension unit = some (ofFn dimension)) :
    unitDimension (unit ++ String.ofList power.cancelled) =
      if Dimension.Fits (dimension + power.term) then some (ofFn dimension) else none := by
  obtain ⟨last, scanned, ended⟩ := Option.map_eq_some_iff.mp read
  rw [foldlM_append, start_eq] at scanned
  obtain ⟨⟨_, operator, token⟩, before, stopped⟩ := Option.bind_eq_some_iff.mp scanned
  obtain ⟨total, rfl, fits⟩ := scan_sound ⟨rfl, Dimension.fits_zero⟩ before
  rw [foldlM_cons, read_operator fits (.inl rfl)] at stopped
  obtain ⟨_, moved, same⟩ := Option.bind_eq_some_iff.mp stopped
  obtain ⟨next, added, rfl⟩ := Option.map_eq_some_iff.mp moved
  cases same
  obtain rfl : next = dimension := ofFn_injective ended
  -- the text is trimmed behind the unit, and white space left there is part of its last token
  obtain ⟨blank, white, front⟩ : ∃ blank, blank.all isWhiteSpace ∧
      trim (String.ofList (unit.toList ++ power.cancelled)) =
        String.ofList ((trim (String.ofList unit.toList)).toList ++ (blank ++ power.cancelled)) :=
    trim_append_of_ends ⟨'*', rfl, by decide⟩
      fun character mem => power.visible_cancelled character (mem_of_mem_getLast? mem)
  rw [String.ofList_append, String.ofList_toList] at front
  have rest : (blank ++ power.cancelled ++ ['*']).foldlM UnitScan.read
      ⟨ofFn total, operator, token⟩ =
      (power.cancelled ++ ['*']).foldlM UnitScan.read ⟨ofFn total, operator, token⟩ := by
    rw [append_assoc]
    exact scan_blank white (.inl rfl)
  rw [unitDimension, front, String.toList_ofList, append_assoc, foldlM_append, start_eq,
    before, Option.bind_eq_bind, Option.bind_some, rest, power.cancelled_eq, scan_factors fits,
    added, Option.bind_eq_bind, Option.bind_some, power.cancelled_signedTerms,
    boundedSum_cancel (fits_of_endToken added)]
  split <;> rfl

theorem exists_dimension {unit : String} {dimensions : List Int}
    (read : unitDimension unit = some dimensions) :
    ∃ dimension : Dimension, dimensions = ofFn dimension := by
  obtain ⟨last, scanned, rfl⟩ := Option.map_eq_some_iff.mp read
  rw [start_eq] at scanned
  obtain ⟨dimension, sound⟩ := scan_sound ⟨rfl, Dimension.fits_zero⟩ scanned
  exact ⟨dimension, sound.dimensions⟩

/-- A dimension that is read is the exact sum over the factors in any order, and one is read if the
running sums of the order are in range. A factor and its inverse at the end change no dimension, and
lose it only if it is out of range between them. -/
theorem unit_dimension_sums {factors reordered : List UnitFactor} {unit : String}
    {dimensions : List Int} (power : UnitPower) (perm : reordered.Perm factors)
    (read : unitDimension unit = some dimensions) :
    unitDimension (unitText factors) =
      (if RunningTotalsFit Dimension.Fits 0 (factors.map (·.signedTerm)) then
        some (ofFn (factors.map (·.signedTerm)).sum) else none) ∧
    unitDimension (unitText reordered) =
      (if RunningTotalsFit Dimension.Fits 0 (reordered.map (·.signedTerm)) then
        some (ofFn (factors.map (·.signedTerm)).sum) else none) ∧
    ∃ dimension : Dimension, dimensions = ofFn dimension ∧
      unitDimension (unit ++ String.ofList power.cancelled) =
        if Dimension.Fits (dimension + power.term) then some dimensions else none := by
  have same : (reordered.map (·.signedTerm)).sum = (factors.map (·.signedTerm)).sum :=
    (perm.map _).sum_eq
  obtain ⟨dimension, rfl⟩ := exists_dimension read
  refine ⟨unitDimension_eq factors, ?_, dimension, rfl, unitDimension_append_cancelled power read⟩
  rw [unitDimension_eq, same]

def ampere : UnitPower where
  symbol := "A"
  exponent := none
  known := by decide
  parses := nofun

def volt : UnitPower where
  symbol := "V"
  exponent := none
  known := by decide
  parses := nofun

/-- The power of a current, in both orders, and with a current that cancels out. -/
theorem watt_in_both_orders : unitDimension (unitText [⟨ampere, false⟩, ⟨volt, false⟩]) =
      unitDimension (unitText [⟨volt, false⟩, ⟨ampere, false⟩]) ∧
    unitDimension ("V*A" ++ "*A/A") = unitDimension "V*A" := by
  have perm : List.Perm [(⟨volt, false⟩ : UnitFactor), ⟨ampere, false⟩]
      [⟨ampere, false⟩, ⟨volt, false⟩] := .swap _ _ _
  have read : unitDimension "V*A" = some [1, 2, -3, 0, 0, 0] := by decide +kernel
  obtain ⟨first, second, dimension, same, appended⟩ := unit_dimension_sums ampere perm read
  rw [if_pos (by decide +kernel)] at first second
  have fits : Dimension.Fits (dimension + ampere.term) := by
    have found : dimension = volt.term + ampere.term :=
      ofFn_injective (same.symm.trans (by decide +kernel))
    rw [found]
    decide +kernel
  rw [if_pos fits] at appended
  exact ⟨first.trans second.symm, appended.trans read.symm⟩

def metre : UnitPower where
  symbol := "m"
  exponent := none
  known := by decide
  parses := nofun

def metreTo127 : UnitPower where
  symbol := "m"
  exponent := some "127"
  known := by decide
  parses := by decide +kernel

/-- A length that has no room for another factor: it is read with the inverse first, and lost with
the factor first, although the two cancel out. -/
theorem full_length_lost :
    List.Perm [(⟨metreTo127, false⟩ : UnitFactor), ⟨metre, false⟩, ⟨metre, true⟩]
      [⟨metreTo127, false⟩, ⟨metre, true⟩, ⟨metre, false⟩] ∧
    unitDimension (unitText [⟨metreTo127, false⟩, ⟨metre, true⟩, ⟨metre, false⟩]) =
      some [0, 127, 0, 0, 0, 0] ∧
    unitDimension (unitText [⟨metreTo127, false⟩, ⟨metre, false⟩, ⟨metre, true⟩]) = none ∧
    unitDimension "m^127" = some [0, 127, 0, 0, 0, 0] ∧
    unitDimension ("m^127" ++ String.ofList metre.cancelled) = none :=
  ⟨.cons _ (.swap _ _ _), by decide +kernel, by decide +kernel, by decide +kernel,
    by decide +kernel⟩

end Aegis.Lab
