import AegisCognition.Lab.Budget

/-!
# Runs of a budget ledger

The operations of a ledger assign its pools in place, and what is assigned before an error stays
assigned. An operation that fails has assigned nothing. One that succeeds takes an amount out of one
pool, and a refund puts an amount back that exploration had spent. Over a run, what is left in the
pools, what exploration has spent and what was taken out of the two reserves is the total.
-/

namespace Aegis.Lab

open Foundation BudgetVector MonadExcept

/-- An operation on a ledger, which keeps what was assigned before an error. -/
abbrev Spending : Type → Type := EStateM ContractError BudgetLedger

namespace Spending

def advanceEpoch : Spending Unit :=
  modify fun ledger => { ledger with stateEpoch := saturatingAdd u64Max ledger.stateEpoch 1 }

def consumeExploration (spend : BudgetVector) : Spending Unit := do
  let ledger ← get
  let nextRemaining ← ofExcept (ledger.explorationRemaining.checkedSub spend)
  let nextSpent ← ofExcept (ledger.explorationSpent.checkedAdd spend)
  modify fun ledger => { ledger with explorationRemaining := nextRemaining }
  modify fun ledger => { ledger with explorationSpent := nextSpent }
  advanceEpoch

def consumeFinalizer (spend : BudgetVector) : Spending Unit := do
  let ledger ← get
  let next ← ofExcept (ledger.finalizationRemaining.checkedSub spend)
  modify fun ledger => { ledger with finalizationRemaining := next }
  advanceEpoch

def consumeRecovery (spend : BudgetVector) : Spending Unit := do
  let ledger ← get
  let next ← ofExcept (ledger.recoveryRemaining.checkedSub spend)
  modify fun ledger => { ledger with recoveryRemaining := next }
  advanceEpoch

def allocateChild (allocation : BudgetVector) : Spending Unit :=
  consumeExploration allocation

/-- A refund has no lane, so it only returns what exploration has spent. -/
def refund (value : BudgetVector) : Spending Unit := do
  let ledger ← get
  let nextSpent ← ofExcept (ledger.explorationSpent.checkedSub value)
  let nextRemaining ← ofExcept (ledger.explorationRemaining.checkedAdd value)
  let pools ← ofExcept (nextRemaining.checkedAdd ledger.finalizationRemaining)
  let totalRemaining ← ofExcept (pools.checkedAdd ledger.recoveryRemaining)
  if !totalRemaining.fitsWithin ledger.total then throw .invalidBudget
  modify fun ledger => { ledger with explorationSpent := nextSpent }
  modify fun ledger => { ledger with explorationRemaining := nextRemaining }
  advanceEpoch

end Spending

inductive BudgetCall
  | consumeExploration (spend : BudgetVector)
  | allocateChild (allocation : BudgetVector)
  | consumeFinalizer (spend : BudgetVector)
  | consumeRecovery (spend : BudgetVector)
  | refund (value : BudgetVector)

/-- What a call takes an amount from, or gives it back to. -/
inductive BudgetLane
  | exploration | finalization | recovery | refunded
  deriving DecidableEq

namespace BudgetCall

def perform : BudgetCall → Spending Unit
  | .consumeExploration spend => Spending.consumeExploration spend
  | .allocateChild allocation => Spending.allocateChild allocation
  | .consumeFinalizer spend => Spending.consumeFinalizer spend
  | .consumeRecovery spend => Spending.consumeRecovery spend
  | .refund value => Spending.refund value

def lane : BudgetCall → BudgetLane
  | .consumeExploration _ | .allocateChild _ => .exploration
  | .consumeFinalizer _ => .finalization
  | .consumeRecovery _ => .recovery
  | .refund _ => .refunded

def amount : BudgetCall → BudgetDimension → Nat
  | .consumeExploration v | .allocateChild v | .consumeFinalizer v | .consumeRecovery v
  | .refund v => v.amount

/-- What the call moves in a lane if it succeeds. -/
def moves (call : BudgetCall) (lane : BudgetLane) (d : BudgetDimension) : Nat :=
  if call.lane = lane then call.amount d else 0

/-- The ledger after the call, whether it succeeds or fails. -/
def step (ledger : BudgetLedger) (call : BudgetCall) : BudgetLedger :=
  match call.perform.run ledger with
  | .ok _ next => next
  | .error _ next => next

/-- What the call does move in a lane, which is nothing if it fails. -/
def moved (lane : BudgetLane) (d : BudgetDimension) (ledger : BudgetLedger) (call : BudgetCall) :
    Nat :=
  match call.perform.run ledger with
  | .ok _ _ => call.moves lane d
  | .error _ _ => 0

end BudgetCall

variable {policy : BudgetPolicy} {ledger next : BudgetLedger} {call : BudgetCall}
variable {d : BudgetDimension}

/-- What happens to the pools where amounts are moved in the four lanes. -/
structure Moves (ledger next : BudgetLedger) (moved : BudgetLane → BudgetDimension → Nat) :
    Prop where
  total : next.total = ledger.total
  exploration : ∀ d, next.explorationRemaining.amount d + moved .exploration d =
    ledger.explorationRemaining.amount d + moved .refunded d
  spent : ∀ d, next.explorationSpent.amount d + moved .refunded d =
    ledger.explorationSpent.amount d + moved .exploration d
  finalization : ∀ d, next.finalizationRemaining.amount d + moved .finalization d =
    ledger.finalizationRemaining.amount d
  recovery : ∀ d, next.recoveryRemaining.amount d + moved .recovery d =
    ledger.recoveryRemaining.amount d

theorem Moves.refl : Moves ledger ledger fun _ _ => 0 :=
  ⟨rfl, fun _ => rfl, fun _ => rfl, fun _ => rfl, fun _ => rfl⟩

theorem Moves.trans {last : BudgetLedger} {first second : BudgetLane → BudgetDimension → Nat}
    (h : Moves ledger next first) (h' : Moves next last second) :
    Moves ledger last fun lane d => first lane d + second lane d where
  total := h'.total.trans h.total
  exploration d := by
    have := h.exploration d
    have := h'.exploration d
    omega
  spent d := by
    have := h.spent d
    have := h'.spent d
    omega
  finalization d := by
    have := h.finalization d
    have := h'.finalization d
    omega
  recovery d := by
    have := h.recovery d
    have := h'.recovery d
    omega

/-! ### One call -/

/-- An operation that succeeds ends as `P` says, and one that fails leaves the ledger as it was. -/
def EndsAs (ledger : BudgetLedger) (P : BudgetLedger → Prop) (action : Spending Unit) : Prop :=
  match action.run ledger with
  | .ok _ next => P next
  | .error _ next => next = ledger

theorem Spending.run_check {α : Type} (checked : Except ContractError α)
    (rest : α → Spending Unit) (ledger : BudgetLedger) :
    (ofExcept checked >>= rest).run ledger =
      match checked with
      | .ok value => (rest value).run ledger
      | .error error => .error error ledger := by
  cases checked <;> rfl

theorem EndsAs.check {α : Type} {P : BudgetLedger → Prop} {checked : Except ContractError α}
    {rest : α → Spending Unit} (h : ∀ value, checked = .ok value → EndsAs ledger P (rest value)) :
    EndsAs ledger P (ofExcept checked >>= rest) := by
  rw [EndsAs, Spending.run_check]
  cases checked with
  | ok value => exact h value rfl
  | error _ => exact rfl

/-- Assigning the pools in place comes to the ledger that the controller's step builds. -/
theorem Spending.run_consumeExploration (ledger : BudgetLedger) (spend : BudgetVector) :
    (consumeExploration spend).run ledger =
      match ledger.consumeExploration spend with
      | .ok next => .ok () next
      | .error error => .error error ledger := by
  refine (run_check _ _ ledger).trans ?_
  rw [BudgetLedger.consumeExploration]
  cases ledger.explorationRemaining.checkedSub spend with
  | error error => rfl
  | ok rest =>
      refine (run_check _ _ ledger).trans ?_
      cases ledger.explorationSpent.checkedAdd spend with
      | error error => rfl
      | ok spent => rfl

theorem Spending.consumeExploration_atomic (spend : BudgetVector) :
    EndsAs ledger (fun next => Moves ledger next (BudgetCall.consumeExploration spend).moves)
      (consumeExploration spend) := by
  rw [EndsAs, run_consumeExploration]
  cases consumed : ledger.consumeExploration spend with
  | error error => rfl
  | ok next =>
      simp only [BudgetLedger.consumeExploration, bind_eq_ok_iff] at consumed
      obtain ⟨rest, taken, spent, added, done⟩ := consumed
      cases done
      exact {
        total := rfl
        exploration := fun d => by
          obtain ⟨le, left⟩ := checkedSub_amount taken d
          show rest.amount d + spend.amount d = ledger.explorationRemaining.amount d + 0
          omega
        spent := fun d => checkedAdd_amount added d
        finalization := fun _ => rfl
        recovery := fun _ => rfl }

theorem Spending.consumeFinalizer_atomic (spend : BudgetVector) :
    EndsAs ledger (fun next => Moves ledger next (BudgetCall.consumeFinalizer spend).moves)
      (consumeFinalizer spend) := by
  apply EndsAs.check
  intro rest taken
  exact {
    total := rfl
    exploration := fun _ => rfl
    spent := fun _ => rfl
    finalization := fun d => by
      obtain ⟨le, left⟩ := checkedSub_amount taken d
      show rest.amount d + spend.amount d = ledger.finalizationRemaining.amount d
      omega
    recovery := fun _ => rfl }

theorem Spending.consumeRecovery_atomic (spend : BudgetVector) :
    EndsAs ledger (fun next => Moves ledger next (BudgetCall.consumeRecovery spend).moves)
      (consumeRecovery spend) := by
  apply EndsAs.check
  intro rest taken
  exact {
    total := rfl
    exploration := fun _ => rfl
    spent := fun _ => rfl
    finalization := fun _ => rfl
    recovery := fun d => by
      obtain ⟨le, left⟩ := checkedSub_amount taken d
      show rest.amount d + spend.amount d = ledger.recoveryRemaining.amount d
      omega }

theorem Spending.refund_atomic (value : BudgetVector) :
    EndsAs ledger (fun next => Moves ledger next (BudgetCall.refund value).moves)
      (refund value) := by
  apply EndsAs.check
  intro spent taken
  apply EndsAs.check
  intro remaining added
  apply EndsAs.check
  intro pools _
  apply EndsAs.check
  intro totalRemaining _
  have moves : Moves ledger { ledger with
      explorationSpent := spent
      explorationRemaining := remaining
      stateEpoch := saturatingAdd u64Max ledger.stateEpoch 1 } (BudgetCall.refund value).moves := {
    total := rfl
    exploration := fun d => checkedAdd_amount added d
    spent := fun d => by
      obtain ⟨le, left⟩ := checkedSub_amount taken d
      show spent.amount d + value.amount d = ledger.explorationSpent.amount d + 0
      omega
    finalization := fun _ => rfl
    recovery := fun _ => rfl }
  cases fits : totalRemaining.fitsWithin ledger.total with
  | false => exact rfl
  | true => exact moves

/-- Every call moves amounts in its own lane, or fails and moves nothing. -/
theorem BudgetCall.perform_atomic (call : BudgetCall) (ledger : BudgetLedger) :
    EndsAs ledger (fun next => Moves ledger next call.moves) call.perform := by
  cases call with
  | consumeExploration spend => exact Spending.consumeExploration_atomic spend
  | allocateChild allocation => exact Spending.consumeExploration_atomic allocation
  | consumeFinalizer spend => exact Spending.consumeFinalizer_atomic spend
  | consumeRecovery spend => exact Spending.consumeRecovery_atomic spend
  | refund value => exact Spending.refund_atomic value

theorem step_moves (ledger : BudgetLedger) (call : BudgetCall) :
    Moves ledger (call.step ledger) fun lane d => call.moved lane d ledger := by
  have atomic := call.perform_atomic ledger
  cases ran : call.perform.run ledger with
  | ok _ next =>
      simp only [BudgetCall.step, BudgetCall.moved, ran]
      rwa [EndsAs, ran] at atomic
  | error _ next =>
      simp only [BudgetCall.step, BudgetCall.moved, ran]
      rw [EndsAs, ran] at atomic
      obtain rfl : next = ledger := atomic
      exact .refl

/-! ### Runs -/

def movedInRun (ledger : BudgetLedger) (calls : List BudgetCall) (lane : BudgetLane)
    (d : BudgetDimension) : Nat :=
  totalCost BudgetCall.step (fun ledger call => call.moved lane d ledger) ledger calls

theorem run_moves (ledger : BudgetLedger) (calls : List BudgetCall) :
    Moves ledger (run BudgetCall.step ledger calls) (movedInRun ledger calls) := by
  induction calls generalizing ledger with
  | nil => exact .refl
  | cons call calls ih => exact (step_moves ledger call).trans (ih _)

theorem new_of_valid (valid : policy.validate = .ok ()) :
    ∃ ledger, BudgetLedger.new policy = .ok ledger := by
  have checked := valid
  simp only [BudgetPolicy.validate, bind_eq_ok_iff, refuseWhen_eq_ok_iff] at checked
  obtain ⟨reserved, added, within⟩ := checked
  obtain ⟨rest, taken⟩ := checkedSub_isOk (by simpa using within)
  exact ⟨_, bind_eq_ok_iff.mpr ⟨(), valid, bind_eq_ok_iff.mpr ⟨reserved, added,
    bind_eq_ok_iff.mpr ⟨rest, taken, rfl⟩⟩⟩⟩

theorem new_pools (created : BudgetLedger.new policy = .ok ledger) :
    ledger.finalizationRemaining = policy.finalizationReserve ∧
      ledger.recoveryRemaining = policy.recoveryReserve ∧
      ledger.explorationSpent = .zero := by
  simp only [BudgetLedger.new, bind_eq_ok_iff] at created
  obtain ⟨_, -, reserved, -, rest, -, same⟩ := created
  cases same
  exact ⟨rfl, rfl, rfl⟩

/-- Over any run from a new ledger nothing of the total is lost or spent twice, the pools have a
sum, no more is refunded than exploration has taken, each reserve falls by what is taken from it and
by nothing else, and a call that fails changes nothing. -/
theorem budget_conserved (valid : policy.validate = .ok ()) :
    ∃ ledger, BudgetLedger.new policy = .ok ledger ∧ ∀ calls : List BudgetCall,
      let last := run BudgetCall.step ledger calls
      let moved := movedInRun ledger calls
      (∀ d, last.explorationRemaining.amount d + last.finalizationRemaining.amount d +
        last.recoveryRemaining.amount d + last.explorationSpent.amount d +
        (moved .finalization d + moved .recovery d) = policy.total.amount d) ∧
      (∃ all, last.remaining = some all) ∧
      (∀ d, moved .refunded d ≤ moved .exploration d) ∧
      (∀ d, last.finalizationRemaining.amount d + moved .finalization d =
          policy.finalizationReserve.amount d ∧
        last.recoveryRemaining.amount d + moved .recovery d = policy.recoveryReserve.amount d) ∧
      (∀ call : BudgetCall, Moves last (call.step last) fun lane d => call.moved lane d last) ∧
      ∀ (call : BudgetCall) error next,
        call.perform.run last = .error error next → next = last := by
  obtain ⟨ledger, created⟩ := new_of_valid valid
  obtain ⟨conserves, total⟩ := BudgetLedger.new_conserves created
  obtain ⟨finalization, recovery, spent⟩ := new_pools created
  refine ⟨ledger, created, fun calls => ?_⟩
  have moves := run_moves ledger calls
  have unspent (d : BudgetDimension) : ledger.explorationSpent.amount d = 0 := by
    rw [spent]
    cases d <;> rfl
  have whole (d : BudgetDimension) :
      (run BudgetCall.step ledger calls).explorationRemaining.amount d +
        (run BudgetCall.step ledger calls).finalizationRemaining.amount d +
        (run BudgetCall.step ledger calls).recoveryRemaining.amount d +
        (run BudgetCall.step ledger calls).explorationSpent.amount d +
        (movedInRun ledger calls .finalization d + movedInRun ledger calls .recovery d) =
          policy.total.amount d := by
    have := conserves d
    have := moves.exploration d
    have := moves.spent d
    have := moves.finalization d
    have := moves.recovery d
    rw [← total]
    omega
  refine ⟨whole, ?_, ?_, ?_, fun call => step_moves _ call, ?_⟩
  · apply BudgetLedger.exists_remaining_iff.mpr
    intro d
    have := whole d
    have := policy.total.amount_le d
    omega
  · intro d
    have := moves.spent d
    have := unspent d
    omega
  · intro d
    rw [moves.finalization, moves.recovery, finalization, recovery]
    exact ⟨rfl, rfl⟩
  · intro call error next failed
    have atomic := call.perform_atomic (run BudgetCall.step ledger calls)
    rwa [EndsAs, failed] at atomic

def sampleVector (tokens : Nat) (fits : tokens ≤ u64Max := by decide) : BudgetVector :=
  { BudgetVector.zero with
    tokens
    fits := ⟨fits, by decide⟩ }

def samplePolicy : BudgetPolicy where
  total := sampleVector 100
  finalizationReserve := sampleVector 20
  recoveryReserve := sampleVector 10

/-- The pools still have a sum where a refund asks for more than exploration has spent. -/
theorem sample_policy_conserved : ∃ ledger, BudgetLedger.new samplePolicy = .ok ledger ∧
    ∃ all, (run BudgetCall.step ledger [.consumeExploration (sampleVector 30),
      .consumeFinalizer (sampleVector 5), .refund (sampleVector 40)]).remaining = some all := by
  have valid : samplePolicy.validate = .ok () := by decide
  obtain ⟨ledger, created, conserved⟩ := budget_conserved valid
  exact ⟨ledger, created, (conserved _).2.1⟩

end Aegis.Lab
