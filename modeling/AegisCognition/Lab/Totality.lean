import AegisCognition.Lab.Restore

/-!
# Restores that stop the process

The checks of a restored controller cut texts at byte offsets, decode digests into arrays of a
fixed length and add budgets up. The cuts and the digests are guarded by what is checked just
before. The sum of the three budget pools is not: it was written for a ledger whose pools are
bounded by its total, and the restore takes it of the pools that the snapshot names.
-/

namespace Aegis.Lab

open Foundation LabController List Option
open Replay (Hash)

/-! ### Guarded cuts -/

/-- The check of a source with the cut that it makes. `none` is a process that stopped. -/
def SourceRecord.validateByCut (source : SourceRecord) : Option (Except LabError Unit) :=
  let uri := (trim source.uri).toList
  if isBlank source.sourceId || !"https://".toList.isPrefixOf uri then
    some (.error .invalidRecord)
  else
    (splitAtByte 8 uri).map fun parts =>
      refuseWhen
        (parts.2.isEmpty || uri.contains '@' || source.retrievedAtMs == 0 ||
          source.contentHash == Hash.zero || source.snapshotHash == Hash.zero ||
          isBlank source.extractor || source.trustTier == 0)
        .invalidRecord

theorem SourceRecord.validateByCut_eq (source : SourceRecord) :
    source.validateByCut = some source.validate := by
  simp only [validateByCut, validate]
  split
  case isTrue refused =>
    obtain blank | scheme := Bool.or_eq_true_iff.mp refused
    · simp only [blank, Bool.true_or, refuseWhen, if_true]
    · simp only [scheme, Bool.or_true, Bool.true_or, refuseWhen, if_true]
  case isFalse accepted =>
    simp only [Bool.or_eq_true, not_or, Bool.not_eq_true, Bool.not_eq_false'] at accepted
    obtain ⟨named, scheme⟩ := accepted
    -- The scheme is eight characters of one byte each, so that the cut is the one after them.
    obtain ⟨rest, uri⟩ := List.isPrefixOf_iff_prefix.mp scheme
    have cut := splitAtByte_append "https://".toList rest
    have size : utf8Length "https://".toList = 8 := by decide
    rw [size, uri] at cut
    have tail : (trim source.uri).toList.drop 8 = rest := by
      rw [← uri]
      exact drop_left' rfl
    simp only [cut, map_some, named, scheme, tail, Bool.not_true, Bool.false_or]

/-- The scheme of a network entry, cut off. -/
def networkAuthorityByCut (value : List Char) : Option (Option (List Char)) :=
  let lower := value.map Char.toLower
  if "https://".toList.isPrefixOf lower then (splitAtByte 8 value).map (some ·.2)
  else if "http://".toList.isPrefixOf lower then (splitAtByte 7 value).map (some ·.2)
  else if containsText "://".toList value then some none
  else some (some value)

theorem networkAuthorityByCut_eq (value : List Char) :
    networkAuthorityByCut value = some (networkAuthority value) := by
  have secure : utf8Length "https://".toList = 8 := by decide
  have plain : utf8Length "http://".toList = 7 := by decide
  simp only [networkAuthorityByCut, networkAuthority]
  split
  case isTrue scheme =>
    have cut := splitAtByte_of_lower_prefix (List.isPrefixOf_iff_prefix.mp scheme)
    rw [secure] at cut
    rw [cut]
    rfl
  split
  case isTrue scheme =>
    have cut := splitAtByte_of_lower_prefix (List.isPrefixOf_iff_prefix.mp scheme)
    rw [plain] at cut
    rw [cut]
    rfl
  split <;> rfl

/-- The check of a network entry with the cuts that it makes. -/
def isValidTargetNetworkEntryByCut (value : String) : Option Bool :=
  let chars := value.toList
  if chars.isEmpty || !isTrimmed value || chars.any (fun c => isWhiteSpace c || isControl c) ||
      "//".toList.isPrefixOf chars then some false
  else
    (networkAuthorityByCut chars).bind fun authority =>
      match authority with
      | none => some false
      | some authority =>
          let isBoundary := fun c : Char => c == '/' || c == '?' || c == '#'
          let boundary := utf8Length (authority.takeWhile (!isBoundary ·))
          (splitAtByte boundary authority).map fun (host, suffix) =>
            !host.isEmpty && !host.any ([':', '@', '[', ']', '*'].contains ·) &&
              (suffix.isEmpty || suffix == ['/'])

theorem isValidTargetNetworkEntryByCut_eq (value : String) :
    isValidTargetNetworkEntryByCut value = some (isValidTargetNetworkEntry value) := by
  simp only [isValidTargetNetworkEntryByCut, isValidTargetNetworkEntry, networkAuthorityByCut_eq,
    bind_some]
  split
  · rfl
  cases networkAuthority value.toList with
  | none => rfl
  | some authority =>
      simp only [splitAtByte_takeWhile, map_some]

/-! ### Digests -/

abbrev isHexChar (c : Char) : Bool := c.isDigit || ('a' ≤ c && c ≤ 'f')

/-- The two digits that a byte is written as. -/
def hexDigits (byte : UInt8) : List Char :=
  [Nat.digitChar (byte.toNat / 16), Nat.digitChar (byte.toNat % 16)]

theorem exists_digitChar {c : Char} (hex : isHexChar c = true) : ∃ n < 16, c = Nat.digitChar n := by
  have all : ∀ code ≤ 102, isHexChar (Char.ofNat code) = true →
      ∃ n < 16, Char.ofNat code = Nat.digitChar n := by decide
  have small : c.toNat ≤ 102 := by
    obtain digit | letter := Bool.or_eq_true_iff.mp hex
    · have last : c.val ≤ 57 := (Bool.and_eq_true_iff.mp digit).2 |> of_decide_eq_true
      exact Nat.le_trans (UInt32.le_iff_toNat_le.mp last) (by decide)
    · have last : c ≤ 'f' := of_decide_eq_true (Bool.and_eq_true_iff.mp letter).2
      exact UInt32.le_iff_toNat_le.mp last
  have found := all c.toNat small
  rw [Char.ofNat_toNat] at found
  exact found hex

theorem utf8Length_of_hex {digits : List Char} (hex : ∀ c ∈ digits, isHexChar c = true) :
    utf8Length digits = digits.length := by
  induction digits with
  | nil => rfl
  | cons c digits ih =>
      have all : ∀ n < 16, (Nat.digitChar n).utf8Size = 1 := by decide
      obtain ⟨n, small, rfl⟩ := exists_digitChar (hex c (mem_cons_self ..))
      rw [utf8Length_cons, all n small, ih fun d mem => hex d (mem_cons_of_mem _ mem),
        length_cons, Nat.add_comm]

theorem of_isHexDigest {text : String} (digest : isHexDigest text = true) :
    (∀ c ∈ text.toList, isHexChar c = true) ∧ text.toList.length = 64 := by
  obtain ⟨size, hex⟩ := Bool.and_eq_true_iff.mp digest
  have hex := List.all_eq_true.mp hex
  refine ⟨hex, ?_⟩
  rw [← utf8Length_of_hex hex, utf8Length, ← utf8ByteSize_ofList, String.ofList_toList]
  exact beq_iff_eq.mp size

theorem hexBytes_flatMap : ∀ bytes : List UInt8, hexBytes (bytes.flatMap hexDigits) = bytes
  | [] => rfl
  | byte :: bytes => by
      have all : ∀ code < 256, hexBytes (hexDigits (UInt8.ofNat code)) = [UInt8.ofNat code] := by
        decide +kernel
      have one := all byte.toNat byte.toNat_lt
      rw [UInt8.ofNat_toNat] at one
      have whole : hexBytes ((byte :: bytes).flatMap hexDigits) =
          hexBytes (hexDigits byte) ++ hexBytes (bytes.flatMap hexDigits) := rfl
      rw [whole, one, hexBytes_flatMap bytes, singleton_append]

theorem flatMap_hexBytes : ∀ {digits : List Char} (count : Nat),
    (∀ c ∈ digits, isHexChar c = true) → digits.length = 2 * count →
    (hexBytes digits).flatMap hexDigits = digits ∧ (hexBytes digits).length = count
  | [], _, _, even => by simp_all [hexBytes]
  | [_], _, _, odd => by
      rw [length_singleton] at odd
      omega
  | high :: low :: rest, count, hex, even => by
      have all : ∀ m < 16, ∀ n < 16, hexDigits (hexNibble (Nat.digitChar m) <<< 4 |||
        hexNibble (Nat.digitChar n)) = [Nat.digitChar m, Nat.digitChar n] := by decide +kernel
      obtain ⟨m, mSmall, rfl⟩ := exists_digitChar (hex high (by simp))
      obtain ⟨n, nSmall, rfl⟩ := exists_digitChar (hex low (by simp))
      rw [length_cons, length_cons] at even
      obtain ⟨written, size⟩ := @flatMap_hexBytes rest (count - 1)
        (fun c mem => hex c (by simp [mem])) (by omega)
      rw [hexBytes, flatMap_cons, all m mSmall n nSmall, written, length_cons, size]
      exact ⟨rfl, by omega⟩

theorem isHexDigest_digestHex (digest : Hash) : isHexDigest (digestHex digest) = true := by
  have hex : ∀ c ∈ digest.bytes.flatMap hexDigits, isHexChar c = true := by
    have all : ∀ n < 16, isHexChar (Nat.digitChar n) = true := by decide
    intro c mem
    obtain ⟨byte, -, digit⟩ := mem_flatMap.mp mem
    have small := byte.toNat_lt
    simp only [hexDigits, mem_cons, not_mem_nil, or_false] at digit
    obtain rfl | rfl := digit
    · exact all _ (by omega)
    · exact all _ (by omega)
  have size := utf8Length_of_hex hex
  have pairs : (fun byte => (hexDigits byte).length) = fun _ => 2 := rfl
  rw [length_flatMap, pairs, map_const', sum_replicate, digest.length_eq, utf8Length,
    ← utf8ByteSize_ofList] at size
  have text : digestHex digest = String.ofList (digest.bytes.flatMap hexDigits) := rfl
  rw [isHexDigest, text, size, String.toList_ofList, List.all_eq_true.mpr hex]
  rfl

theorem decodeHexDigest_eq_some_iff (text : String) (digest : Hash) :
    decodeHexDigest text = some digest ↔ text = digestHex digest := by
  constructor
  · intro decoded
    rw [decodeHexDigest] at decoded
    split at decoded
    case isFalse => cases decoded
    case isTrue isDigest =>
      obtain ⟨hex, length⟩ := of_isHexDigest isDigest
      obtain ⟨written, full⟩ := flatMap_hexBytes 32 hex length
      rw [dif_pos full] at decoded
      cases decoded
      have same : String.ofList ((hexBytes text.toList).flatMap hexDigits) = text := by
        rw [written, String.ofList_toList]
      exact same.symm
  · rintro rfl
    have bytes : hexBytes (digestHex digest).toList = digest.bytes := by
      rw [digestHex, String.toList_ofList]
      exact hexBytes_flatMap digest.bytes
    simp [decodeHexDigest, isHexDigest_digestHex, bytes]

/-! ### The pools -/

/-- The three pools have a sum in every dimension. -/
def BudgetLedger.PoolsFit (ledger : BudgetLedger) : Prop :=
  ∀ d, ledger.explorationRemaining.amount d + ledger.finalizationRemaining.amount d +
    ledger.recoveryRemaining.amount d ≤ u64Max

namespace LabController

/-- The checks that are made before the budget is looked at accept the controller. -/
def PassesFirstChecks (externals : Externals) (c : LabController) : Prop :=
  c.runtime.validateSnapshotContents externals = .ok () ∧ c.steps ≤ c.mission.maxSteps ∧
    c.externalAttemptBudgetValid = true

variable {externals : Externals} {c : LabController}

theorem exists_budgetIsValid_iff :
    (∃ valid, c.budgetIsValid = some valid) ↔ c.budget.PoolsFit := by
  rw [BudgetLedger.PoolsFit, ← BudgetLedger.exists_remaining_iff]
  simp only [budgetIsValid, BudgetLedger.snapshotValid, Option.map_map, Option.map_eq_some_iff]
  constructor
  · rintro ⟨valid, all, summed, -⟩
    exact ⟨all, summed⟩
  · rintro ⟨all, summed⟩
    exact ⟨_, all, summed, rfl⟩

/-- The restore of a controller that was read returns unless it comes to the sum of pools that
have none. -/
theorem restore_returns_iff :
    (∃ result, c.restore externals = some result) ↔
      (c.PassesFirstChecks externals → c.budget.PoolsFit) := by
  rw [← exists_budgetIsValid_iff]
  unfold restore
  split
  case h_1 error refused =>
    constructor
    · intro _ passed
      rw [passed.1] at refused
      cases refused
    · intro _
      exact ⟨_, rfl⟩
  case h_2 accepted =>
    split
    case isTrue excess =>
      constructor
      · rintro - ⟨-, steps, attempts⟩
        simp [attempts] at excess
        omega
      · intro _
        exact ⟨_, rfl⟩
    case isFalse within =>
      have passed : c.PassesFirstChecks externals := by
        simp only [Bool.or_eq_true, decide_eq_true_eq, not_or, Nat.not_lt, Bool.not_eq_true,
          Bool.not_eq_false'] at within
        exact ⟨accepted, within⟩
      simp only [map_eq_some_iff]
      constructor
      · rintro ⟨result, valid, summed, -⟩ -
        exact ⟨valid, summed⟩
      · intro fits
        obtain ⟨valid, summed⟩ := fits passed
        exact ⟨_, valid, summed, rfl⟩

/-- A restore returns, with a controller or with an error, exactly if no snapshot that passes
the checks before it names pools without a sum. -/
theorem fromSnapshotJson_returns_iff (externals : Externals) (codec : Codec) (snapshot : String) :
    (∃ result, fromSnapshotJson externals codec snapshot = some result) ↔
      ∀ c, codec.fromStr snapshot = some c → c.PassesFirstChecks externals → c.budget.PoolsFit := by
  unfold fromSnapshotJson
  split
  case h_1 unread =>
    constructor
    · intro _ c read
      rw [unread] at read
      cases read
    · intro _
      exact ⟨_, rfl⟩
  case h_2 c read =>
    rw [restore_returns_iff]
    simp only [read, Option.some.injEq, forall_eq']

end LabController

/-- The snapshot of a planned mission with another amount in its exploration pool. -/
def forgedSnapshot : String :=
  plannedSnapshot.replace "\"tokens\":70" "\"tokens\":18446744073709551615"

/-- The budget that the forged snapshot names. -/
def forgedBudget (budget : BudgetLedger) : BudgetLedger :=
  { budget with
    explorationRemaining :=
      { tokens := u64Max, moneyMinorUnits := 0, timeMs := 0, toolCalls := 0, apiCalls := 0
        cpuMs := 0, riskUnits := 0 } }

def forgedCodec : Codec :=
  { snapshotCodec with
    fromStr := fun snapshot =>
      if snapshot = forgedSnapshot then
        (LabController.new snapshotExternals legacyMission).toOption.map fun c =>
          { c with budget := forgedBudget c.budget }
      else snapshotCodec.fromStr snapshot }

/-- The forged snapshot is read, and its restore does not return. -/
theorem forgedSnapshot_stops :
    (forgedCodec.fromStr forgedSnapshot).isSome = true ∧
      ¬ ∃ result, fromSnapshotJson snapshotExternals forgedCodec forgedSnapshot =
        some result := by
  obtain ⟨start, created⟩ : ∃ start,
      LabController.new snapshotExternals legacyMission = .ok start := ⟨_, rfl⟩
  have read : forgedCodec.fromStr forgedSnapshot =
      some { start with budget := forgedBudget start.budget } := by
    simp only [forgedCodec, if_true, created, Except.toOption, map_some]
  have restorable := restorable_new created snapshotExternals_nonzero
  have reserved : start.budget.finalizationRemaining.tokens = 20 := by
    cases created
    rfl
  refine ⟨by rw [read]; rfl, ?_⟩
  rw [fromSnapshotJson, read]
  rintro ⟨result, returned⟩
  have fits := restore_returns_iff.mp ⟨result, returned⟩
    ⟨restorable.validateSnapshotContents, restorable.funded.steps, restorable.funded.attempts⟩
    .tokens
  simp only [forgedBudget, BudgetVector.amount, reserved, u64Max] at fits
  omega

end Aegis.Lab
