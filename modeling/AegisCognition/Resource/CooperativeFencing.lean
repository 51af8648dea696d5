import AegisCognition.Resource.CooperativeConservation

/-!
# Fencing of cooperative attempts

The index of live attempts is the inverse of the map of active leases, so an attempt has at most
one lease. The digest of an attempt is recorded with its first lease and never changes, and an
attempt that has a digest but no lease stays without one.
-/

namespace Aegis.Resource

open Std Foundation OrderedMap ExtTreeMap

namespace CooperativeAdmissionLedger

variable {ledger : CooperativeAdmissionLedger} {initial : CooperativeReservation}
variable {request : CooperativeAdmissionRequest} {lease : CooperativeAdmissionLease}
variable {nowMs : Nat} {key : Nat × Nat} {digest : String}

structure Fenced (ledger : CooperativeAdmissionLedger) : Prop where
  attempts : ∀ (key : Nat × Nat) (leaseId : Nat),
    ledger.activeByAttempt[key]? = some leaseId ↔
      ∃ lease, ledger.active[leaseId]? = some lease ∧ lease.key = key
  digests : ∀ (leaseId : Nat) (lease : CooperativeAdmissionLease),
    ledger.active[leaseId]? = some lease →
      ledger.attemptDigests[lease.key]? = some lease.planDigest

theorem Initial.fenced (h : Initial ledger) : Fenced ledger := by
  obtain ⟨active, attempts, -⟩ := h.start
  constructor <;> simp [active, attempts]

theorem Fenced.single (h : Fenced ledger) {leaseId otherId : Nat}
    {lease other : CooperativeAdmissionLease} (active : ledger.active[leaseId]? = some lease)
    (active' : ledger.active[otherId]? = some other) (same : lease.key = other.key) :
    leaseId = otherId := by
  have first := (h.attempts lease.key leaseId).mpr ⟨lease, active, rfl⟩
  have second := (h.attempts lease.key otherId).mpr ⟨other, active', same.symm⟩
  exact Option.some.inj (first.symm.trans second)

theorem Fenced.granted (h : Fenced ledger) (conserved : Conserved initial ledger)
    (admissible : Admissible ledger request) (used : CooperativeReservation) :
    Fenced (ledger.granted request nowMs used) := by
  have unbound : ∀ (leaseId : Nat) (lease : CooperativeAdmissionLease),
      ledger.active[leaseId]? = some lease → request.key ≠ lease.key := by
    intro leaseId lease active same
    have bound := h.digests leaseId lease active
    rw [← same, admissible.fresh] at bound
    cases bound
  constructor
  · intro key leaseId
    rw [CooperativeAdmissionLedger.granted, getElem?_insert_eq_some_iff, h.attempts]
    constructor
    · rintro (⟨rfl, rfl⟩ | ⟨-, lease, active, rfl⟩)
      · exact ⟨_, getElem?_insert_self, rfl⟩
      · refine ⟨lease, getElem?_insert_eq_some_iff.mpr (.inr ⟨?_, active⟩), rfl⟩
        exact (conserved.leaseIdLt leaseId lease active).1.ne'
    · rintro ⟨lease, active, rfl⟩
      obtain ⟨rfl, rfl⟩ | ⟨-, active⟩ := getElem?_insert_eq_some_iff.mp active
      · exact .inl ⟨rfl, rfl⟩
      · exact .inr ⟨unbound leaseId lease active, lease, active, rfl⟩
  · intro leaseId lease active
    obtain ⟨rfl, rfl⟩ | ⟨-, active⟩ := getElem?_insert_eq_some_iff.mp active
    · exact getElem?_insert_self
    · refine getElem?_insert_eq_some_iff.mpr (.inr ⟨unbound leaseId lease active, ?_⟩)
      exact h.digests leaseId lease active

theorem Fenced.released (h : Fenced ledger) (active : ledger.active[lease.leaseId]? = some lease)
    (used : CooperativeReservation) : Fenced (ledger.released lease used) := by
  constructor
  · intro key leaseId
    rw [CooperativeAdmissionLedger.released, getElem?_erase_eq_some_iff, h.attempts]
    constructor
    · rintro ⟨distinct, other, hother, rfl⟩
      refine ⟨other, getElem?_erase_eq_some_iff.mpr ⟨?_, hother⟩, rfl⟩
      rintro rfl
      obtain rfl := Option.some.inj (active.symm.trans hother)
      exact distinct rfl
    · rintro ⟨other, hother, rfl⟩
      obtain ⟨distinct, hother⟩ := getElem?_erase_eq_some_iff.mp hother
      exact ⟨fun same => distinct (h.single active hother same), other, hother, rfl⟩
  · intro leaseId other hother
    exact h.digests leaseId other (getElem?_erase_eq_some_iff.mp hother).2

theorem Fenced.release (h : Fenced ledger) (conserved : Conserved initial ledger)
    (lease : CooperativeAdmissionLease) : Fenced (ledger.release lease).2 := by
  obtain ⟨error, he⟩ | ⟨used, active, -, he⟩ := conserved.release_cases lease
  · rwa [he]
  · rw [he]
    exact h.released active used

theorem Fenced.step (h : Fenced ledger) (conserved : Conserved initial ledger)
    (op : CooperativeOp) : Fenced (ledger.step op) := by
  cases op with
  | admitRequest request nowMs =>
      simp only [CooperativeAdmissionLedger.step]
      obtain ⟨error, he, -⟩ | ⟨leaseId, lease, he, -⟩ | ⟨error, he, -⟩ |
        ⟨used, he, admissible, -⟩ := admit_cases ledger request nowMs
      · rwa [he]
      · rwa [he]
      · rw [he]
        exact ⟨h.attempts, h.digests⟩
      · rw [he]
        exact h.granted conserved admissible used
  | release lease => exact h.release conserved lease
  | cancel lease => exact h.release conserved lease

/-! ### What stays -/

/-- A recorded digest stays, and an attempt with a digest and no lease stays without one. -/
theorem digest_stays (op : CooperativeOp) (conserved : Conserved initial ledger)
    (bound : ledger.attemptDigests[key]? = some digest) :
    (ledger.step op).attemptDigests[key]? = some digest ∧
      (ledger.activeByAttempt[key]? = none → (ledger.step op).activeByAttempt[key]? = none) := by
  have released (lease : CooperativeAdmissionLease) :
      (ledger.release lease).2.attemptDigests[key]? = some digest ∧
        (ledger.activeByAttempt[key]? = none →
          (ledger.release lease).2.activeByAttempt[key]? = none) := by
    obtain ⟨error, he⟩ | ⟨used, -, -, he⟩ := conserved.release_cases lease
    · rw [he]
      exact ⟨bound, id⟩
    · rw [he]
      refine ⟨bound, fun gone => ?_⟩
      rw [Option.eq_none_iff_forall_ne_some] at gone ⊢
      exact fun leaseId found => gone leaseId (getElem?_erase_eq_some_iff.mp found).2
  cases op with
  | admitRequest request nowMs =>
      simp only [step]
      obtain ⟨error, he, -⟩ | ⟨leaseId, lease, he, -⟩ | ⟨error, he, -⟩ |
        ⟨used, he, admissible, -⟩ := admit_cases ledger request nowMs
      · rw [he]
        exact ⟨bound, id⟩
      · rw [he]
        exact ⟨bound, id⟩
      · rw [he]
        exact ⟨bound, id⟩
      · rw [he]
        have distinct : request.key ≠ key := by
          rintro rfl
          rw [admissible.fresh] at bound
          cases bound
        refine ⟨(getElem?_insert_of_ne distinct).trans bound, fun gone => ?_⟩
        exact (getElem?_insert_of_ne distinct).trans gone
  | release lease => exact released lease
  | cancel lease => exact released lease

theorem run_digest_stays (ops : List CooperativeOp) (conserved : Conserved initial ledger)
    (bound : ledger.attemptDigests[key]? = some digest) :
    (run step ledger ops).attemptDigests[key]? = some digest ∧
      (ledger.activeByAttempt[key]? = none →
        (run step ledger ops).activeByAttempt[key]? = none) := by
  induction ops generalizing ledger with
  | nil => exact ⟨bound, id⟩
  | cons op ops ih =>
      obtain ⟨kept, gone⟩ := digest_stays op conserved bound
      obtain ⟨last, left⟩ := ih (conserved.step op) kept
      exact ⟨last, fun absent => left (gone absent)⟩

/-- An attempt is refused for another digest than its own, and once its lease is gone. -/
theorem admit_refused (bound : ledger.attemptDigests[request.key]? = some digest)
    (barred : digest ≠ request.planDigest ∨ ledger.activeByAttempt[request.key]? = none) :
    ∃ error, ledger.admitRequest request nowMs = (.error error, ledger) := by
  unfold admitRequest
  cases request.validate with
  | error error => exact ⟨error, rfl⟩
  | ok _ =>
      simp only [bound]
      by_cases same : digest = request.planDigest
      · have gone := barred.resolve_left (not_not.mpr same)
        exact ⟨_, by rw [if_neg (not_not.mpr same), gone]⟩
      · exact ⟨_, if_pos same⟩

theorem admit_active (h : Fenced ledger) {leaseId : Nat}
    (active : ledger.active[leaseId]? = some lease) (valid : request.validate = .ok ())
    (same : request.key = lease.key) (digest : request.planDigest = lease.planDigest) :
    ledger.admitRequest request nowMs = (.ok (.alreadyAdmitted lease), ledger) := by
  have bound := h.digests leaseId lease active
  have attempt := (h.attempts lease.key leaseId).mpr ⟨lease, active, rfl⟩
  simp only [admitRequest, valid, same, bound, digest, attempt, active, ne_eq, not_true_eq_false,
    if_false]

theorem digest_of_admitted
    (admitted : (ledger.admitRequest request nowMs).1 = .ok (.admitted lease)) :
    (ledger.step (.admitRequest request nowMs)).attemptDigests[request.key]? =
      some request.planDigest := by
  simp only [step]
  obtain ⟨error, he, -⟩ | ⟨leaseId, other, he, -⟩ | ⟨error, he, -⟩ | ⟨used, he, -⟩ :=
    admit_cases ledger request nowMs
  · rw [he] at admitted
    cases admitted
  · rw [he] at admitted
    cases admitted
  · rw [he] at admitted
    cases admitted
  · rw [he]
    exact getElem?_insert_self

theorem gone_of_released (h : Fenced ledger) (conserved : Conserved initial ledger)
    {current : CooperativeAdmissionLease} (released : (ledger.release lease).1 = .ok current) :
    ledger.active[lease.leaseId]? = some lease ∧ current = lease ∧
      (ledger.release lease).2.attemptDigests[lease.key]? = some lease.planDigest ∧
      (ledger.release lease).2.activeByAttempt[lease.key]? = none := by
  obtain ⟨error, he⟩ | ⟨used, active, -, he⟩ := conserved.release_cases lease
  · rw [he] at released
    cases released
  · rw [he] at released ⊢
    refine ⟨active, (Except.ok.inj released).symm, h.digests _ lease active, ?_⟩
    exact getElem?_erase_self

theorem run_fenced {start : CooperativeAdmissionLedger} (h : Initial start)
    (ops : List CooperativeOp) : Fenced (run step start ops) := by
  have keep : ∀ ledger op, Conserved start.used ledger ∧ Fenced ledger →
      Conserved start.used (ledger.step op) ∧ Fenced (ledger.step op) :=
    fun ledger op kept => ⟨kept.1.step op, kept.2.step kept.1 op⟩
  exact (run_invariant keep ops ⟨h.conserved, h.fenced⟩).2

/-- After every run, the two indexes of the active leases are inverse to each other. An attempt
that was ever admitted is refused for any other digest, an active attempt is answered with its
lease, an attempt that was released is refused, and a release takes an exact copy of the lease. -/
theorem run_fences_attempts {start : CooperativeAdmissionLedger} (initial : Initial start)
    (ops : List CooperativeOp) :
    (∀ (key : Nat × Nat) (leaseId : Nat),
      (run step start ops).activeByAttempt[key]? = some leaseId ↔
        ∃ lease, (run step start ops).active[leaseId]? = some lease ∧ lease.key = key) ∧
    (∀ (leaseId otherId : Nat) (lease other : CooperativeAdmissionLease),
      (run step start ops).active[leaseId]? = some lease →
      (run step start ops).active[otherId]? = some other → lease.key = other.key →
      leaseId = otherId) ∧
    (∀ before request nowMs lease after, ops = before ++ .admitRequest request nowMs :: after →
      ((run step start before).admitRequest request nowMs).1 = .ok (.admitted lease) →
      ∀ other otherMs, other.key = request.key → other.planDigest ≠ request.planDigest →
      ∃ error, (run step start ops).admitRequest other otherMs =
        (.error error, run step start ops)) ∧
    (∀ (leaseId : Nat) (lease : CooperativeAdmissionLease),
      (run step start ops).active[leaseId]? = some lease →
      ∀ request nowMs, request.validate = .ok () → request.key = lease.key →
      request.planDigest = lease.planDigest →
      (run step start ops).admitRequest request nowMs =
        (.ok (.alreadyAdmitted lease), run step start ops)) ∧
    (∀ before op lease released after, ops = before ++ op :: after →
      op = .release lease ∨ op = .cancel lease →
      ((run step start before).release lease).1 = .ok released →
      ∀ request nowMs, request.key = lease.key →
      ∃ error, (run step start ops).admitRequest request nowMs =
        (.error error, run step start ops)) ∧
    ∀ lease released, ((run step start ops).release lease).1 = .ok released →
      (run step start ops).active[lease.leaseId]? = some lease ∧ released = lease := by
  have fenced (ops : List CooperativeOp) := run_fenced initial ops
  have conserved (ops : List CooperativeOp) := run_conserved initial ops
  refine ⟨(fenced ops).attempts, fun leaseId otherId lease other active active' same =>
    (fenced ops).single active active' same, ?_, fun leaseId lease active request nowMs valid same
    digest => admit_active (fenced ops) active valid same digest, ?_, fun lease released ok => ?_⟩
  · rintro before request nowMs lease after rfl admitted other otherMs same distinct
    have bound := digest_of_admitted admitted
    have last := (run_digest_stays after ((conserved before).step _) bound).1
    rw [run_append, run_cons]
    rw [← same] at last
    exact admit_refused last (.inl (Ne.symm distinct))
  · rintro before op lease released after rfl call ok request nowMs same
    obtain ⟨-, -, bound, gone⟩ := gone_of_released (fenced before) (conserved before) ok
    have stepped : (run step start before).step op =
        ((run step start before).release lease).2 := by
      obtain rfl | rfl := call <;> rfl
    rw [← stepped] at bound gone
    obtain ⟨last, left⟩ := run_digest_stays after ((conserved before).step op) bound
    rw [run_append, run_cons]
    rw [← same] at last left
    exact admit_refused last (.inr (left (same ▸ gone)))
  · have found := gone_of_released (fenced ops) (conserved ops) ok
    exact ⟨found.1, found.2.1⟩

theorem cpuLedger_released_refused :
    ∃ error,
      (run step cpuLedger [.admitRequest (cpuRequest 1) 0, .release (cpuLease 1)]).admitRequest
        (cpuRequest 1) 5 =
      (.error error, run step cpuLedger [.admitRequest (cpuRequest 1) 0, .release (cpuLease 1)]) :=
  (run_fences_attempts cpuLedger_initial _).2.2.2.2.1 [.admitRequest (cpuRequest 1) 0] _
    (cpuLease 1) (cpuLease 1) [] rfl (.inl rfl) (by decide) (cpuRequest 1) 5 rfl

end CooperativeAdmissionLedger

end Aegis.Resource
