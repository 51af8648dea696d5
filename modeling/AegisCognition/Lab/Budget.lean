import AegisCognition.Foundation.Machine
import AegisCognition.Foundation.Scan

/-!
# Budgets and the finalization boundary

A budget is spent in seven dimensions. A ledger splits the total into what exploration may
spend and two reserves, and moves exploration spending from the one to the spent side. The
finalization boundary says whether a mission still explores or is being closed.
-/

namespace Aegis.Lab

open Foundation

inductive ContractError
  | emptyField | duplicateCriterion | missingCriterion | invalidTargetEvolution | invalidVersion
  | invalidEvidence | evidenceRequired | invalidBudget | budgetExceeded | invalidTransition
  | unknownInstance | orphanInstance
  deriving DecidableEq

inductive BudgetDimension
  | tokens | moneyMinorUnits | timeMs | toolCalls | apiCalls | cpuMs | riskUnits

/-- Seven `u64` amounts. -/
structure BudgetVector where
  tokens : Nat
  moneyMinorUnits : Nat
  timeMs : Nat
  toolCalls : Nat
  apiCalls : Nat
  cpuMs : Nat
  riskUnits : Nat
  fits : tokens ≤ u64Max ∧ moneyMinorUnits ≤ u64Max ∧ timeMs ≤ u64Max ∧ toolCalls ≤ u64Max ∧
    apiCalls ≤ u64Max ∧ cpuMs ≤ u64Max ∧ riskUnits ≤ u64Max := by decide

namespace BudgetVector

def amount (v : BudgetVector) : BudgetDimension → Nat
  | .tokens => v.tokens
  | .moneyMinorUnits => v.moneyMinorUnits
  | .timeMs => v.timeMs
  | .toolCalls => v.toolCalls
  | .apiCalls => v.apiCalls
  | .cpuMs => v.cpuMs
  | .riskUnits => v.riskUnits

def zero : BudgetVector where
  tokens := 0
  moneyMinorUnits := 0
  timeMs := 0
  toolCalls := 0
  apiCalls := 0
  cpuMs := 0
  riskUnits := 0

/-- A budget of nothing but tokens. -/
def ofTokens (tokens : UInt8) : BudgetVector :=
  { zero with
    tokens := tokens.toNat
    fits := ⟨(Nat.le_of_lt tokens.toNat_lt).trans (by decide), by decide⟩ }

def fitsWithin (v limit : BudgetVector) : Bool :=
  v.tokens ≤ limit.tokens && v.moneyMinorUnits ≤ limit.moneyMinorUnits &&
    v.timeMs ≤ limit.timeMs && v.toolCalls ≤ limit.toolCalls && v.apiCalls ≤ limit.apiCalls &&
    v.cpuMs ≤ limit.cpuMs && v.riskUnits ≤ limit.riskUnits

def checkedSub (v value : BudgetVector) : Except ContractError BudgetVector :=
  if value.fitsWithin v then
    .ok
      { tokens := v.tokens - value.tokens
        moneyMinorUnits := v.moneyMinorUnits - value.moneyMinorUnits
        timeMs := v.timeMs - value.timeMs
        toolCalls := v.toolCalls - value.toolCalls
        apiCalls := v.apiCalls - value.apiCalls
        cpuMs := v.cpuMs - value.cpuMs
        riskUnits := v.riskUnits - value.riskUnits
        fits := by have := v.fits; omega }
  else .error .budgetExceeded

def checkedAdd (v value : BudgetVector) : Except ContractError BudgetVector :=
  if h : v.tokens + value.tokens ≤ u64Max ∧
      v.moneyMinorUnits + value.moneyMinorUnits ≤ u64Max ∧ v.timeMs + value.timeMs ≤ u64Max ∧
      v.toolCalls + value.toolCalls ≤ u64Max ∧ v.apiCalls + value.apiCalls ≤ u64Max ∧
      v.cpuMs + value.cpuMs ≤ u64Max ∧ v.riskUnits + value.riskUnits ≤ u64Max then
    .ok
      { tokens := v.tokens + value.tokens
        moneyMinorUnits := v.moneyMinorUnits + value.moneyMinorUnits
        timeMs := v.timeMs + value.timeMs
        toolCalls := v.toolCalls + value.toolCalls
        apiCalls := v.apiCalls + value.apiCalls
        cpuMs := v.cpuMs + value.cpuMs
        riskUnits := v.riskUnits + value.riskUnits
        fits := h }
  else .error .invalidBudget

variable {v w limit sum : BudgetVector}

theorem amount_le (v : BudgetVector) (d : BudgetDimension) : v.amount d ≤ u64Max := by
  obtain ⟨h₁, h₂, h₃, h₄, h₅, h₆, h₇⟩ := v.fits
  cases d <;> assumption

theorem fitsWithin_iff : v.fitsWithin limit = true ↔ ∀ d, v.amount d ≤ limit.amount d := by
  simp only [fitsWithin, Bool.and_eq_true, decide_eq_true_eq]
  constructor
  · rintro ⟨⟨⟨⟨⟨⟨h₁, h₂⟩, h₃⟩, h₄⟩, h₅⟩, h₆⟩, h₇⟩ d
    cases d <;> assumption
  · intro h
    exact ⟨⟨⟨⟨⟨⟨h .tokens, h .moneyMinorUnits⟩, h .timeMs⟩, h .toolCalls⟩, h .apiCalls⟩,
      h .cpuMs⟩, h .riskUnits⟩

theorem checkedSub_amount (h : v.checkedSub w = .ok sum) (d : BudgetDimension) :
    w.amount d ≤ v.amount d ∧ sum.amount d = v.amount d - w.amount d := by
  unfold checkedSub at h
  split at h
  · cases h
    exact ⟨fitsWithin_iff.mp ‹_› d, by cases d <;> rfl⟩
  · cases h

theorem checkedAdd_amount (h : v.checkedAdd w = .ok sum) (d : BudgetDimension) :
    sum.amount d = v.amount d + w.amount d := by
  unfold checkedAdd at h
  split at h
  · cases h
    cases d <;> rfl
  · cases h

theorem checkedSub_isOk (h : w.fitsWithin v = true) : ∃ rest, v.checkedSub w = .ok rest := by
  rw [checkedSub, if_pos h]
  exact ⟨_, rfl⟩

theorem checkedAdd_isOk (h : ∀ d, v.amount d + w.amount d ≤ u64Max) :
    ∃ sum, v.checkedAdd w = .ok sum := by
  unfold checkedAdd
  rw [dif_pos]
  · exact ⟨_, rfl⟩
  · exact ⟨h .tokens, h .moneyMinorUnits, h .timeMs, h .toolCalls, h .apiCalls, h .cpuMs,
      h .riskUnits⟩

end BudgetVector

open BudgetVector

structure BudgetPolicy where
  total : BudgetVector
  finalizationReserve : BudgetVector
  recoveryReserve : BudgetVector

def BudgetPolicy.validate (policy : BudgetPolicy) : Except ContractError Unit := do
  let reserved ← policy.finalizationReserve.checkedAdd policy.recoveryReserve
  refuseWhen (!reserved.fitsWithin policy.total) .invalidBudget

structure BudgetLedger where
  total : BudgetVector
  explorationRemaining : BudgetVector
  finalizationRemaining : BudgetVector
  recoveryRemaining : BudgetVector
  explorationSpent : BudgetVector
  stateEpoch : Nat

namespace BudgetLedger

def new (policy : BudgetPolicy) : Except ContractError BudgetLedger := do
  policy.validate
  let reserved ← policy.finalizationReserve.checkedAdd policy.recoveryReserve
  let explorationRemaining ← policy.total.checkedSub reserved
  pure
    { total := policy.total
      explorationRemaining
      finalizationRemaining := policy.finalizationReserve
      recoveryRemaining := policy.recoveryReserve
      explorationSpent := .zero
      stateEpoch := 0 }

section

variable (ledger : BudgetLedger)

/-- The sum of the three pools. The source stops the process where the sum overflows, which
is `none` here. -/
def remaining : Option BudgetVector :=
  (do
    let pools ← ledger.explorationRemaining.checkedAdd ledger.finalizationRemaining
    pools.checkedAdd ledger.recoveryRemaining).toOption

def snapshotValid : Option Bool :=
  ledger.remaining.map fun remaining =>
    match remaining.checkedAdd ledger.explorationSpent with
    | .ok committed => committed.fitsWithin ledger.total
    | .error _ => false

def consumeExploration (spend : BudgetVector) : Except ContractError BudgetLedger := do
  let explorationRemaining ← ledger.explorationRemaining.checkedSub spend
  let explorationSpent ← ledger.explorationSpent.checkedAdd spend
  pure { ledger with
    explorationRemaining, explorationSpent
    stateEpoch := saturatingAdd u64Max ledger.stateEpoch 1 }

/-- Nothing is lost and nothing is spent twice: the pools and what was spent add up to the
total. -/
def Conserves : Prop :=
  ∀ d, ledger.explorationRemaining.amount d + ledger.finalizationRemaining.amount d +
    ledger.recoveryRemaining.amount d + ledger.explorationSpent.amount d = ledger.total.amount d

end

variable {policy : BudgetPolicy} {ledger next : BudgetLedger} {spend : BudgetVector}

theorem new_conserves (h : new policy = .ok ledger) :
    ledger.Conserves ∧ ledger.total = policy.total := by
  simp only [new, bind_eq_ok_iff] at h
  obtain ⟨_, -, reserved, added, rest, taken, done⟩ := h
  cases done
  refine ⟨fun d => ?_, rfl⟩
  have sum := checkedAdd_amount added d
  obtain ⟨le, split⟩ := checkedSub_amount taken d
  have none : BudgetVector.zero.amount d = 0 := by cases d <;> rfl
  simp only [none]
  omega

theorem consumeExploration_conserves (h : ledger.consumeExploration spend = .ok next)
    (inv : ledger.Conserves) : next.Conserves ∧ next.total = ledger.total := by
  simp only [consumeExploration, bind_eq_ok_iff] at h
  obtain ⟨rest, taken, spent, added, done⟩ := h
  cases done
  refine ⟨fun d => ?_, rfl⟩
  have whole := inv d
  have sum := checkedAdd_amount added d
  obtain ⟨le, split⟩ := checkedSub_amount taken d
  simp only
  omega

theorem remaining_eq_some_iff {all : BudgetVector} : ledger.remaining = some all ↔ ∃ pools,
    ledger.explorationRemaining.checkedAdd ledger.finalizationRemaining = .ok pools ∧
      pools.checkedAdd ledger.recoveryRemaining = .ok all := by
  rw [remaining, ← bind_eq_ok_iff]
  cases ledger.explorationRemaining.checkedAdd ledger.finalizationRemaining >>= fun pools =>
    pools.checkedAdd ledger.recoveryRemaining <;> simp [Except.toOption]

theorem remaining_amount {all : BudgetVector} (h : ledger.remaining = some all)
    (d : BudgetDimension) : all.amount d = ledger.explorationRemaining.amount d +
      ledger.finalizationRemaining.amount d + ledger.recoveryRemaining.amount d := by
  obtain ⟨pools, first, second⟩ := remaining_eq_some_iff.mp h
  rw [checkedAdd_amount second, checkedAdd_amount first]

/-- The three pools have a sum exactly if it fits in every dimension. -/
theorem exists_remaining_iff : (∃ all, ledger.remaining = some all) ↔
    ∀ d, ledger.explorationRemaining.amount d + ledger.finalizationRemaining.amount d +
      ledger.recoveryRemaining.amount d ≤ u64Max := by
  constructor
  · rintro ⟨all, summed⟩ d
    rw [← remaining_amount summed]
    exact all.amount_le d
  · intro fits
    obtain ⟨pools, first⟩ := checkedAdd_isOk (v := ledger.explorationRemaining)
      (w := ledger.finalizationRemaining) fun d => by
        have := fits d
        omega
    obtain ⟨all, second⟩ := checkedAdd_isOk (v := pools)
      (w := ledger.recoveryRemaining) fun d => by
        rw [checkedAdd_amount first]
        exact fits d
    exact ⟨all, remaining_eq_some_iff.mpr ⟨pools, first, second⟩⟩

/-- A conserving ledger passes the check made on restored ledgers. -/
theorem Conserves.snapshotValid (inv : ledger.Conserves) : ledger.snapshotValid = some true := by
  obtain ⟨all, summed⟩ : ∃ all, ledger.remaining = some all := by
    apply exists_remaining_iff.mpr
    intro d
    have := inv d
    have := ledger.total.amount_le d
    omega
  have pools := remaining_amount summed
  obtain ⟨committed, added⟩ : ∃ committed,
      all.checkedAdd ledger.explorationSpent = .ok committed := by
    apply checkedAdd_isOk
    intro d
    rw [pools, inv d]
    exact ledger.total.amount_le d
  have fits : committed.fitsWithin ledger.total = true := by
    apply fitsWithin_iff.mpr
    intro d
    rw [checkedAdd_amount added, pools, inv d]
  rw [BudgetLedger.snapshotValid, summed, Option.map_some, added]
  exact congrArg some fits

theorem Conserves.pools_fit (inv : ledger.Conserves) :
    ledger.explorationRemaining.fitsWithin ledger.total = true ∧
      ledger.finalizationRemaining.fitsWithin ledger.total = true ∧
      ledger.recoveryRemaining.fitsWithin ledger.total = true := by
  simp only [fitsWithin_iff]
  refine ⟨fun d => ?_, fun d => ?_, fun d => ?_⟩ <;>
    · have := inv d
      omega

end BudgetLedger

inductive FinalizationState
  | exploring | finalizing | reopened
  deriving DecidableEq

structure FinalizationBoundary where
  state : FinalizationState
  generation : Nat

namespace FinalizationBoundary

def initial : FinalizationBoundary := ⟨.exploring, 0⟩

section

variable (boundary : FinalizationBoundary)

def begin : Except ContractError FinalizationBoundary := do
  refuseWhen (boundary.state = .finalizing) .invalidTransition
  pure ⟨.finalizing, saturatingAdd u64Max boundary.generation 1⟩

def reopenForCriticalGap : Except ContractError FinalizationBoundary := do
  refuseWhen (boundary.state ≠ .finalizing) .invalidTransition
  pure ⟨.reopened, saturatingAdd u64Max boundary.generation 1⟩

def explorationAllowed : Bool :=
  boundary.state != .finalizing

def finalizerAllowed : Bool :=
  boundary.state == .finalizing || boundary.state == .reopened

end

end FinalizationBoundary

end Aegis.Lab
