import AegisCognition.Gateway.Policy

/-!
# What the policy rules derive

The rules of the kernel read the absence of atoms that none of them derives, so what follows from
the given atoms has a meaning of its own. The passes over the word compute just that.
-/

namespace Aegis.Gateway

open PolicyAtom

/-- What the rules derive from the given atoms. -/
inductive Derives (given : PolicyAtom → Prop) : PolicyAtom → Prop where
  | of_given {atom : PolicyAtom} (h : given atom) : Derives given atom
  | missing (staging : ¬ given stagingPresent) (hitl : ¬ given hitlPresent) :
      Derives given missingStagingAndHitl
  | r4 (risk : Derives given r4) (missing : Derives given missingStagingAndHitl) :
      Derives given r4WithoutStagingOrHitl
  | staging (contract : Derives given contractRequiresStaging)
      (missing : Derives given missingStagingAndHitl) : Derives given stagingRequired
  | approval (contract : Derives given contractRequiresApproval)
      (absent : ¬ given approvalPresent) : Derives given approvalRequired

theorem PolicyAtom.bit_inj {atom other : PolicyAtom} (same : atom.bit = other.bit) :
    atom = other := by
  cases atom <;> cases other <;> first | rfl | cases same

namespace PolicyAtoms

variable {given : PolicyAtom → Prop} {atoms : PolicyAtoms} {atom : PolicyAtom} {present : Bool}

theorem insertAtom_eq (other : PolicyAtom) :
    insertAtom atoms other = atoms ||| BitVec.twoPow 64 other.bit := by
  cases other <;> rfl

theorem hasAtom_eq_getLsbD : hasAtom atoms atom = atoms.getLsbD atom.bit := by
  have word : hasAtom atoms atom = (atoms &&& BitVec.twoPow 64 atom.bit != 0) := by
    cases atom <;> rfl
  rw [word, BitVec.and_twoPow]
  cases atoms.getLsbD atom.bit with
  | true => cases atom <;> rfl
  | false => rfl

@[simp] theorem hasAtom_insertAtom (other : PolicyAtom) :
    hasAtom (insertAtom atoms other) atom =
      (hasAtom atoms atom || decide (atom.bit = other.bit)) := by
  rw [hasAtom_eq_getLsbD, hasAtom_eq_getLsbD, insertAtom_eq, BitVec.getLsbD_or]
  cases atom <;> cases other <;> rfl

@[simp] theorem hasAtom_insertWhen (other : PolicyAtom) :
    hasAtom (insertWhen atoms present other) atom =
      (hasAtom atoms atom || present && decide (atom.bit = other.bit)) := by
  cases present <;> simp [insertWhen]

/-- All atoms of the word follow from the given ones. -/
def Sound (given : PolicyAtom → Prop) (atoms : PolicyAtoms) : Prop :=
  ∀ atom, hasAtom atoms atom = true → Derives given atom

theorem Sound.insertWhen (h : Sound given atoms) (derived : present = true → Derives given atom) :
    Sound given (insertWhen atoms present atom) := by
  intro other has
  rw [hasAtom_insertWhen, Bool.or_eq_true, Bool.and_eq_true, decide_eq_true_eq] at has
  obtain has | ⟨fired, same⟩ := has
  · exact h other has
  · rw [bit_inj same]
    exact derived fired

theorem sound_fireRules : Sound (hasAtom atoms · = true) (fireRules atoms) := by
  have start : Sound (hasAtom atoms · = true) atoms := fun _ has => .of_given has
  have missing := @Sound.insertWhen _ _ missingStagingAndHitl
    (!hasAtom atoms stagingPresent && !hasAtom atoms hitlPresent) start
    fun fired => .missing (by simp_all) (by simp_all)
  have r4 := missing.insertWhen fun fired =>
    have both := Bool.and_eq_true_iff.mp fired
    .r4 (missing _ both.1) (missing _ both.2)
  have staging := r4.insertWhen fun fired =>
    have both := Bool.and_eq_true_iff.mp fired
    .staging (r4 _ both.1) (r4 _ both.2)
  refine staging.insertWhen fun fired => ?_
  obtain ⟨contract, absent⟩ := Bool.and_eq_true_iff.mp fired
  exact .approval (staging _ contract) (by simpa [bit] using absent)

/-- One pass derives all that follows: each rule reads what the ones before it have added. -/
theorem hasAtom_fireRules_iff :
    hasAtom (fireRules atoms) atom = true ↔ Derives (hasAtom atoms · = true) atom := by
  constructor
  · exact sound_fireRules atom
  · intro derived
    induction derived with
    | of_given h => simp [fireRules, h]
    | missing staging hitl =>
        simp [fireRules, bit, Bool.eq_false_of_not_eq_true staging,
          Bool.eq_false_of_not_eq_true hitl]
    | r4 _ _ risk missing =>
        simp [fireRules, bit] at risk missing ⊢
        simp [risk, missing]
    | staging _ _ contract missing =>
        simp [fireRules, bit] at contract missing ⊢
        simp [contract, missing]
    | approval _ absent contract =>
        simp [fireRules, bit] at contract ⊢
        simp [contract, Bool.eq_false_of_not_eq_true absent]

theorem insertWhen_eq_self (h : present = true → hasAtom atoms atom = true) :
    insertWhen atoms present atom = atoms := by
  cases present with
  | false => rfl
  | true =>
      have set : atoms.getLsbD atom.bit = true := by rw [← hasAtom_eq_getLsbD, h rfl]
      rw [insertWhen, if_pos rfl, insertAtom_eq]
      ext i
      simp only [BitVec.getElem_or, BitVec.getElem_twoPow, Bool.or_eq_left_iff_imp,
        decide_eq_true_eq]
      intro same
      rwa [← BitVec.getLsbD_eq_getElem, same]

theorem fireRules_fireRules : fireRules (fireRules atoms) = fireRules atoms := by
  rw [fireRules, insertWhen_eq_self, insertWhen_eq_self, insertWhen_eq_self, insertWhen_eq_self]
  all_goals simp [fireRules, bit]
  all_goals grind

theorem close_succ (passes : Nat) : close (passes + 1) atoms = fireRules atoms := by
  rw [close]
  split
  · rfl
  · cases passes with
    | zero => rfl
    | succ passes => simp [close, fireRules_fireRules]

theorem hasAtom_close_iff (passes : Nat) (atoms : PolicyAtoms) (atom : PolicyAtom) :
    hasAtom (close (passes + 1) atoms) atom = true ↔ Derives (hasAtom atoms · = true) atom := by
  rw [close_succ, hasAtom_fireRules_iff]

end PolicyAtoms

theorem evaluate_decision (blake3 : Replay.Hasher) (ir : TypedToolIR) (facts : PolicyFacts) :
    (evaluate blake3 ir facts).decision =
      let unstaged := !facts.hasStagingEnvironment && !facts.hasHitlSignature
      if !facts.isValid blake3 || !ir.isValid blake3 then .hardBlock
      else if unstaged && ir.riskClass == .r4 then .hardBlock
      else if unstaged && ir.evidenceContract.requiresStaging then .requireStagingSandbox
      else if ir.evidenceContract.requiresApproval && !facts.hasValidApproval then .requireApproval
      else .allow := by
  have empty (atom : PolicyAtom) : PolicyAtoms.hasAtom 0#64 atom = false := by
    simp [PolicyAtoms.hasAtom]
  rw [evaluate, PolicyAtoms.close_succ, policyDecisionFromDatalogAtoms]
  cases factsValid : facts.isValid blake3 with
  | false => simp [PolicyAtoms.fireRules, initialAtoms, bit, empty, factsValid]
  | true =>
      cases irValid : ir.isValid blake3 with
      | false => simp [PolicyAtoms.fireRules, initialAtoms, bit, empty, factsValid, irValid]
      | true =>
          simp [PolicyAtoms.fireRules, initialAtoms, bit, empty, factsValid, irValid]
          grind

end Aegis.Gateway
