import AegisCognition.Resource.CooperativeTransition

/-!
# Conservation of cooperative reservations

In each of the eight resources and for every identity, what is in use is what was in use at the
start and the exact sum over the active leases. It fits the capacity, in which data and buffers
share one budget. A lease holds a positive amount of all that it names, so the subtraction of its
release never fails.

A call that fails leaves the ledger as it was, with one exception: an admission that finds the
counter of generations exhausted has moved the counter of lease ids already.
-/

namespace Aegis.Resource

open Std Foundation OrderedMap Tally

namespace CooperativeAdmissionLedger

variable {ledger next : CooperativeAdmissionLedger} {initial : CooperativeReservation}
variable {request : CooperativeAdmissionRequest} {lease : CooperativeAdmissionLease}
variable {nowMs : Nat}

/-- What the active leases hold of a resource for an identity. -/
def reserved (ledger : CooperativeAdmissionLedger) (resource : CooperativeResource)
    (id : String) : Nat :=
  ((valueList ledger.active).map fun lease =>
    Tally.amount (lease.reservation.tally resource) id).sum

structure Conserved (initial : CooperativeReservation) (ledger : CooperativeAdmissionLedger) :
    Prop where
  leaseIdLt : ∀ (leaseId : Nat) (lease : CooperativeAdmissionLease),
    ledger.active[leaseId]? = some lease →
      leaseId < ledger.nextLeaseId ∧ lease.leaseId = leaseId
  leases_positive : ∀ (leaseId : Nat) (lease : CooperativeAdmissionLease),
    ledger.active[leaseId]? = some lease → lease.reservation.Positive
  used_eq : ∀ resource id, Tally.amount (ledger.used.tally resource) id =
    Tally.amount (initial.tally resource) id + ledger.reserved resource id
  used_positive : ledger.used.Positive
  within : Within ledger.capacity ledger.used

theorem tally_empty (resource : CooperativeResource) :
    CooperativeReservation.empty.tally resource = ∅ := by
  cases resource <;> rfl

theorem within_empty (capacity : CooperativeReservation) : Within capacity .empty where
  bounded := by simp [tally_empty]
  separate := by simp [tally_empty]
  combined := by simp [CooperativeReservation.tierBytes, CooperativeReservation.empty]

theorem new_eq {capacity : CooperativeReservation} (h : new capacity = .ok ledger) :
    ledger.capacity = capacity ∧ ledger.used = .empty ∧ ledger.active = ∅ ∧
      ledger.activeByAttempt = ∅ ∧ ledger.attemptDigests = ∅ := by
  obtain ⟨_, -, built⟩ := bind_eq_ok_iff.mp h
  obtain rfl := pure_eq_ok_iff.mp built
  exact ⟨rfl, rfl, rfl, rfl, rfl⟩

theorem eq_empty_of_isEmpty {reservation : CooperativeReservation}
    (h : cooperativeReservationIsEmpty reservation = true) : reservation = .empty := by
  simp only [cooperativeReservationIsEmpty, Bool.and_eq_true, ExtTreeMap.isEmpty_iff] at h
  obtain ⟨⟨⟨⟨⟨⟨⟨h1, h2⟩, h3⟩, h4⟩, h5⟩, h6⟩, h7⟩, h8⟩ := h
  cases reservation
  simp_all [CooperativeReservation.empty]

/-- What is in use at the start is positive where it is named, and fits the capacity. -/
theorem Initial.start (h : Initial ledger) :
    ledger.active = ∅ ∧ ledger.activeByAttempt = ∅ ∧ ledger.attemptDigests = ∅ ∧
      ledger.used.Positive ∧ Within ledger.capacity ledger.used := by
  cases h with
  | new capacity _ built =>
      obtain ⟨-, used, active, attempts, digests⟩ := new_eq built
      rw [used]
      exact ⟨active, attempts, digests, fun resource => tally_empty resource ▸ noZero_empty,
        within_empty _⟩
  | fromInventory capabilities paths _ built =>
      simp only [CooperativeAdmissionLedger.fromInventory, bind_eq_ok_iff] at built
      obtain ⟨inventory, -, fresh, built, _, usage, _, fits, same⟩ := built
      obtain rfl := pure_eq_ok_iff.mp same
      obtain ⟨-, used, active, attempts, digests⟩ := new_eq built
      refine ⟨active, attempts, digests, validateCooperativeUsageReservation_positive usage, ?_⟩
      cases empty : cooperativeReservationIsEmpty inventory.used with
      | true =>
          change Within fresh.capacity inventory.used
          rw [eq_empty_of_isEmpty empty]
          exact within_empty _
      | false =>
          have start : Within fresh.capacity fresh.used := used ▸ within_empty _
          have fits' := checkWhen_eq_ok_iff.mp fits (by simp [empty])
          refine (start.add fits').2 inventory.used fun resource id => ?_
          rw [used, tally_empty, amount_empty, Nat.zero_add]

theorem Initial.conserved (h : Initial ledger) : Conserved ledger.used ledger := by
  obtain ⟨active, -, -, positive, within⟩ := h.start
  refine ⟨?_, ?_, ?_, positive, within⟩ <;> simp [reserved, active]

theorem Conserved.fresh (h : Conserved initial ledger) :
    ledger.active[ledger.nextLeaseId]? = none := by
  cases found : ledger.active[ledger.nextLeaseId]? with
  | none => rfl
  | some lease => exact absurd (h.leaseIdLt _ _ found).1 (Nat.lt_irrefl _)

theorem Conserved.reserved_granted (h : Conserved initial ledger)
    (request : CooperativeAdmissionRequest) (nowMs : Nat) (used : CooperativeReservation)
    (resource : CooperativeResource) (id : String) :
    (ledger.granted request nowMs used).reserved resource id =
      Tally.amount (request.reservation.tally resource) id + ledger.reserved resource id := by
  have moved := (valueList_insert_perm (v := ledger.issueLease request nowMs)
    h.fresh).map fun lease => Tally.amount (lease.reservation.tally resource) id
  simpa [reserved, granted, issueLease] using moved.sum_eq

theorem reserved_released (active : ledger.active[lease.leaseId]? = some lease)
    (used : CooperativeReservation) (resource : CooperativeResource) (id : String) :
    ledger.reserved resource id = Tally.amount (lease.reservation.tally resource) id +
      (ledger.released lease used).reserved resource id := by
  have moved := (valueList_erase_perm active).map
    fun lease => Tally.amount (lease.reservation.tally resource) id
  simpa [reserved, released] using moved.sum_eq

section

variable (h : Conserved initial ledger)
include h

theorem Conserved.add_isOk (admissible : Admissible ledger request) :
    ∃ used, addCooperativeAdmissionReservation ledger.used request.reservation = .ok used := by
  have bounded := (h.within.add (ensureFits_ok admissible.fits)).1
  have sums (resource : CooperativeResource) := add_isSome (bounded resource)
  choose sum hsum using sums
  refine ⟨⟨sum .executorQueueSlots, sum .executorMemoryBytes, sum .dataTierBytes,
    sum .bufferBytes, sum .storageBytes, sum .storageInFlight, sum .transferTokens,
    sum .sharedMemoryBytes⟩, addCooperativeAdmissionReservation_ok_iff.mpr fun resource => ?_⟩
  rw [hsum]
  cases resource <;> rfl

/-- What an active lease holds can be subtracted from what is in use. -/
theorem Conserved.subtract_isOk
    (active : ledger.active[lease.leaseId]? = some lease) :
    ∃ used, subtractCooperativeAdmissionReservation ledger.used lease.reservation = .ok used := by
  have differences (resource : CooperativeResource) :
      ∃ difference, Tally.subtract (ledger.used.tally resource)
        (lease.reservation.tally resource) = some difference := by
    refine subtract_isSome (h.leases_positive _ _ active resource) fun id => ?_
    have held := reserved_released active ledger.used resource id
    rw [h.used_eq]
    omega
  choose difference hdifference using differences
  refine ⟨⟨difference .executorQueueSlots, difference .executorMemoryBytes,
    difference .dataTierBytes, difference .bufferBytes, difference .storageBytes,
    difference .storageInFlight, difference .transferTokens, difference .sharedMemoryBytes⟩,
    subtractCooperativeAdmissionReservation_ok_iff.mpr fun resource => ?_⟩
  rw [hdifference]
  cases resource <;> rfl

theorem Conserved.granted (admissible : Admissible ledger request)
    {used : CooperativeReservation}
    (sum : addCooperativeAdmissionReservation ledger.used request.reservation = .ok used) :
    Conserved initial (ledger.granted request nowMs used) := by
  have sums := addCooperativeAdmissionReservation_ok_iff.mp sum
  have amounts (resource : CooperativeResource) (id : String) :=
    amount_add (sums resource) id
  have positive := CooperativeAdmissionRequest.validate_positive admissible.valid
  refine ⟨?_, ?_, ?_, fun resource => (h.used_positive resource).add (positive resource)
    (sums resource), (h.within.add (ensureFits_ok admissible.fits)).2 used amounts⟩
  · intro leaseId lease active
    obtain ⟨rfl, rfl⟩ | ⟨-, active⟩ := getElem?_insert_eq_some_iff.mp active
    · exact ⟨Nat.lt_succ_self _, rfl⟩
    · exact ⟨Nat.lt_succ_of_lt (h.leaseIdLt leaseId lease active).1,
        (h.leaseIdLt leaseId lease active).2⟩
  · intro leaseId lease active
    obtain ⟨-, rfl⟩ | ⟨-, active⟩ := getElem?_insert_eq_some_iff.mp active
    · exact positive
    · exact h.leases_positive leaseId lease active
  · intro resource id
    have total := h.reserved_granted request nowMs used resource id
    have sum := amounts resource id
    have old := h.used_eq resource id
    change Tally.amount (used.tally resource) id = _
    omega

theorem Conserved.released
    (active : ledger.active[lease.leaseId]? = some lease) {used : CooperativeReservation}
    (difference : subtractCooperativeAdmissionReservation ledger.used lease.reservation =
      .ok used) : Conserved initial (ledger.released lease used) := by
  have differences := subtractCooperativeAdmissionReservation_ok_iff.mp difference
  have amounts (resource : CooperativeResource) (id : String) :=
    amount_subtract (differences resource) id
  have smaller (resource : CooperativeResource) (id : String) :
      Tally.amount (used.tally resource) id ≤ Tally.amount (ledger.used.tally resource) id := by
    have := amounts resource id
    omega
  refine ⟨?_, ?_, ?_, fun resource => (h.used_positive resource).subtract (differences resource),
    ?_⟩
  · intro leaseId other hother
    exact h.leaseIdLt leaseId other (getElem?_erase_eq_some_iff.mp hother).2
  · intro leaseId other hother
    exact h.leases_positive leaseId other (getElem?_erase_eq_some_iff.mp hother).2
  · intro resource id
    have total := reserved_released active used resource id
    have difference := amounts resource id
    have old := h.used_eq resource id
    change Tally.amount (used.tally resource) id = _
    omega
  · refine ⟨fun resource id => (smaller resource id).trans (h.within.bounded resource id),
      fun resource id data buffer => (smaller resource id).trans
        (h.within.separate resource id data buffer), fun id => ?_⟩
    refine Nat.le_trans ?_ (h.within.combined id)
    exact Nat.add_le_add (smaller .dataTierBytes id) (smaller .bufferBytes id)

theorem Conserved.release_active
    (active : ledger.active[lease.leaseId]? = some lease) :
    ∃ used, subtractCooperativeAdmissionReservation ledger.used lease.reservation = .ok used ∧
      ledger.release lease = (.ok lease, ledger.released lease used) := by
  obtain ⟨used, difference⟩ := h.subtract_isOk active
  obtain ⟨error, -, inactive⟩ | ⟨-, release⟩ := ledger.release_cases lease
  · exact absurd active inactive
  · exact ⟨used, difference, release used difference⟩

/-- A release fails without effect, or is that of an active lease and succeeds. -/
theorem Conserved.release_cases
    (lease : CooperativeAdmissionLease) :
    (∃ error, ledger.release lease = (.error error, ledger)) ∨
    (∃ used, ledger.active[lease.leaseId]? = some lease ∧
      subtractCooperativeAdmissionReservation ledger.used lease.reservation = .ok used ∧
      ledger.release lease = (.ok lease, ledger.released lease used)) := by
  obtain ⟨error, he, -⟩ | ⟨active, -⟩ := ledger.release_cases lease
  · exact .inl ⟨error, he⟩
  · obtain ⟨used, difference, he⟩ := h.release_active active
    exact .inr ⟨used, active, difference, he⟩

theorem Conserved.admitRequest (request : CooperativeAdmissionRequest)
    (nowMs : Nat) : Conserved initial (ledger.admitRequest request nowMs).2 := by
  obtain ⟨error, he, -⟩ | ⟨leaseId, lease, he, -⟩ | ⟨error, he, -⟩ |
    ⟨used, he, admissible, -, sum⟩ := admit_cases ledger request nowMs
  · rwa [he]
  · rwa [he]
  · rw [he]
    refine ⟨fun leaseId lease active => ?_, h.leases_positive, h.used_eq, h.used_positive,
      h.within⟩
    exact (h.leaseIdLt leaseId lease active).imp_left Nat.lt_succ_of_lt
  · rw [he]
    exact h.granted admissible sum

theorem Conserved.release (lease : CooperativeAdmissionLease) :
    Conserved initial (ledger.release lease).2 := by
  obtain ⟨error, he⟩ | ⟨used, active, difference, he⟩ := h.release_cases lease
  · rwa [he]
  · rw [he]
    exact h.released active difference

theorem Conserved.step (op : CooperativeOp) :
    Conserved initial (ledger.step op) := by
  cases op with
  | admitRequest request nowMs => exact h.admitRequest request nowMs
  | release lease => exact h.release lease
  | cancel lease => exact h.release lease

end

theorem run_conserved {start : CooperativeAdmissionLedger} (h : Initial start)
    (ops : List CooperativeOp) : Conserved start.used (run step start ops) :=
  run_invariant (fun _ op kept => kept.step op) ops h.conserved

/-! ### Failures -/

section

variable (ledger : CooperativeAdmissionLedger)

/-- A call issues a lease exactly when it admits a fresh attempt. -/
def leasesIssued : CooperativeOp → Nat
  | .admitRequest request nowMs =>
      match (ledger.admitRequest request nowMs).1 with
      | .ok (.admitted _) => 1
      | _ => 0
  | _ => 0

/-- The call answers with an error. -/
def Fails : CooperativeOp → Prop
  | .admitRequest request nowMs => ∃ error, (ledger.admitRequest request nowMs).1 = .error error
  | .release lease => ∃ error, (ledger.release lease).1 = .error error
  | .cancel lease => ∃ error, (ledger.cancel lease).1 = .error error

/-- An admission that nothing else stands against finds a generation to use. -/
def HasGeneration : CooperativeOp → Prop
  | .admitRequest request _ => Admissible ledger request → ledger.nextGeneration < u64Max
  | _ => True

end

theorem Conserved.release_failed (h : Conserved initial ledger)
    (failed : ∃ error, (ledger.release lease).1 = .error error) :
    (ledger.release lease).2 = ledger := by
  obtain ⟨error, failed⟩ := failed
  obtain ⟨_, he⟩ | ⟨used, -, -, he⟩ := h.release_cases lease
  · rw [he]
  · rw [he] at failed
    cases failed

/-- A failing call is without effect exactly if it does not run out of generations. -/
theorem Conserved.unchanged_iff (h : Conserved initial ledger) (op : CooperativeOp) :
    (ledger.Fails op → ledger.step op = ledger) ↔ ledger.HasGeneration op := by
  cases op with
  | release lease => exact iff_of_true h.release_failed trivial
  | cancel lease => exact iff_of_true h.release_failed trivial
  | admitRequest request nowMs =>
      simp only [Fails, CooperativeAdmissionLedger.step, HasGeneration]
      obtain ⟨error, he, refused⟩ | ⟨leaseId, lease, he, -, digest, -⟩ | ⟨error, he, admissible,
        exhausted⟩ | ⟨used, he, -, room, -⟩ := admit_cases ledger request nowMs
      · refine iff_of_true (fun _ => by rw [he]) fun admissible => ?_
        obtain ⟨refusal, failed⟩ := refused admissible
        obtain ⟨used, sum⟩ := h.add_isOk admissible
        rw [failed] at sum
        cases sum
      · refine iff_of_true (fun _ => by rw [he]) fun admissible => ?_
        rw [admissible.fresh] at digest
        cases digest
      · rw [he]
        refine iff_of_false (fun kept => ?_) fun room => ?_
        · have := congrArg nextLeaseId (kept ⟨error, rfl⟩)
          exact absurd this (Nat.succ_ne_self _)
        · exact absurd (room admissible) (Nat.not_lt.mpr exhausted)
      · refine iff_of_true (fun failed => ?_) fun _ => room
        obtain ⟨error, failed⟩ := failed
        rw [he] at failed
        cases failed

/-- In every state of every run, what is in use of each resource for each identity is what was at
the start and the sum over the active leases, no entry of it is zero, it fits the capacity, and
the release of an active lease succeeds. Every failing call is without effect exactly if no
admissible request finds the generations exhausted. -/
theorem calls_conserve_iff {start : CooperativeAdmissionLedger} (initial : Initial start)
    (ops : List CooperativeOp) :
    ((∀ before after, ops = before ++ after →
        (∀ resource id, Tally.amount ((run step start before).used.tally resource) id =
          Tally.amount (start.used.tally resource) id +
            ((valueList (run step start before).active).map fun lease =>
              Tally.amount (lease.reservation.tally resource) id).sum) ∧
        (∀ resource (id : String), ((run step start before).used.tally resource)[id]? ≠ some 0) ∧
        Within (run step start before).capacity (run step start before).used ∧
        ∀ (leaseId : Nat) (lease : CooperativeAdmissionLease),
          (run step start before).active[leaseId]? = some lease →
          ((run step start before).release lease).1 = .ok lease) ∧
      ∀ before op after, ops = before ++ op :: after →
        (run step start before).Fails op →
        (run step start before).step op = run step start before) ↔
    Along step HasGeneration start ops := by
  have kept (before : List CooperativeOp) := run_conserved initial before
  rw [along_iff_at_step]
  constructor
  · rintro ⟨-, unchanged⟩ before op after split
    exact ((kept before).unchanged_iff op).mp (unchanged before op after split)
  · intro room
    refine ⟨fun before after _ => ⟨(kept before).used_eq, (kept before).used_positive,
      (kept before).within, fun leaseId lease active => ?_⟩, fun before op after split =>
      ((kept before).unchanged_iff op).mpr (room before op after split)⟩
    obtain ⟨-, rfl⟩ := (kept before).leaseIdLt leaseId lease active
    obtain ⟨used, -, he⟩ := (kept before).release_active active
    rw [he]

/-! ### A ledger for one slot of one executor -/

def cpuReservation : CooperativeReservation :=
  { CooperativeReservation.empty with executorQueueSlots := (∅ : ExtTreeMap _ _).insert "cpu" 1 }

def cpuLedger : CooperativeAdmissionLedger where
  capacity := cpuReservation
  used := .empty
  nextLeaseId := 1
  nextGeneration := 1
  active := ∅
  activeByAttempt := ∅
  attemptDigests := ∅

def cpuRequest (attemptId : Nat) : CooperativeAdmissionRequest where
  schema := cooperativeAdmissionSchemaV1
  taskId := 1
  attemptId := attemptId
  planDigest := "plan"
  reservation := cpuReservation
  spillPaths := ∅

theorem cpuLedger_initial : Initial cpuLedger :=
  .new cpuReservation cpuLedger (by decide)

theorem cpuLedger_admission_conserved :
    Tally.amount ((run step cpuLedger [.admitRequest (cpuRequest 1) 0]).used.tally
        .executorQueueSlots) "cpu" = Tally.amount (cpuLedger.used.tally .executorQueueSlots) "cpu" +
      ((valueList (run step cpuLedger [.admitRequest (cpuRequest 1) 0]).active).map
        fun lease => Tally.amount (lease.reservation.tally .executorQueueSlots) "cpu").sum := by
  have room : Along step HasGeneration cpuLedger [.admitRequest (cpuRequest 1) 0] :=
    ⟨fun _ => by decide, trivial⟩
  exact (((calls_conserve_iff cpuLedger_initial _).mpr room).1 _ [] (List.append_nil _).symm).1 _ _

/-- The lease that the slot has for an attempt when all attempts before it have come and gone. -/
def cpuLease (attemptId : Nat) : CooperativeAdmissionLease where
  schema := cooperativeAdmissionSchemaV1
  leaseId := attemptId
  taskId := 1
  attemptId := attemptId
  planDigest := "plan"
  reservation := cpuReservation
  spillPaths := ∅
  generation := attemptId
  issuedAtMs := 0

/-- One attempt after the other is admitted and released. -/
def cycles : Nat → List CooperativeOp
  | 0 => []
  | n + 1 => cycles n ++ [.admitRequest (cpuRequest (n + 1)) 0, .release (cpuLease (n + 1))]

def cycledDigests : Nat → ExtTreeMap (Nat × Nat) String pairCompare
  | 0 => ∅
  | n + 1 => (cycledDigests n).insert (1, n + 1) "plan"

def cycled (n : Nat) : CooperativeAdmissionLedger where
  capacity := cpuReservation
  used := .empty
  nextLeaseId := n + 1
  nextGeneration := n + 1
  active := ∅
  activeByAttempt := ∅
  attemptDigests := cycledDigests n

theorem cycledDigests_fresh {n attemptId : Nat} (later : n < attemptId) :
    (cycledDigests n)[(1, attemptId)]? = none := by
  induction n with
  | zero => simp [cycledDigests]
  | succ n ih =>
      rw [cycledDigests, getElem?_insert_of_ne (by simp; omega)]
      exact ih (by omega)

theorem cycled_admissible {n : Nat} (room : n + 1 < u128Max) :
    Admissible (cycled n) (cpuRequest (n + 1)) where
  valid := by
    simp only [CooperativeAdmissionRequest.validate, bind_eq_ok_iff, refuseWhen_eq_ok_iff]
    have digest : ¬ (isBlank "plan" ||
        decide (maxCooperativePlanDigestBytes < "plan".utf8ByteSize)) = true := by decide
    have reservation : validateCooperativeReservation cpuReservation = .ok () := by decide
    exact ⟨⟨⟩, not_not.mpr rfl, ⟨⟩, by simp [cpuRequest], ⟨⟩, digest, ⟨⟩, reservation, rfl⟩
  fresh := cycledDigests_fresh (Nat.lt_succ_self n)
  fits := by
    have same : (cycled n).ensureFits cpuReservation = cpuLedger.ensureFits cpuReservation := rfl
    exact same.trans (by decide)
  leaseId := room

theorem add_cpuReservation :
    addCooperativeAdmissionReservation .empty cpuReservation = .ok cpuReservation := by
  decide

theorem cycled_admit {n : Nat} (room : n + 1 < u64Max) :
    (cycled n).admitRequest (cpuRequest (n + 1)) 0 =
      (.ok (.admitted (cpuLease (n + 1))), (cycled n).granted (cpuRequest (n + 1)) 0 cpuReservation)
    := by
  have admissible : Admissible (cycled n) (cpuRequest (n + 1)) :=
    cycled_admissible (room.trans (by decide))
  obtain ⟨error, he, refused⟩ | ⟨leaseId, lease, -, -, digest, -⟩ | ⟨error, -, -, exhausted⟩ |
    ⟨used, he, -, -, sum⟩ := admit_cases (cycled n) (cpuRequest (n + 1)) 0
  · obtain ⟨refusal, failed⟩ := refused admissible
    cases failed.symm.trans add_cpuReservation
  · cases digest.symm.trans admissible.fresh
  · exact absurd room (Nat.not_lt.mpr exhausted)
  · obtain rfl := Except.ok.inj (sum.symm.trans add_cpuReservation)
    exact he

theorem cycled_release (n : Nat) :
    ((cycled n).granted (cpuRequest (n + 1)) 0 cpuReservation).release (cpuLease (n + 1)) =
      (.ok (cpuLease (n + 1)), cycled (n + 1)) := by
  have active : ((cycled n).granted (cpuRequest (n + 1)) 0 cpuReservation).active[n + 1]? =
      some (cpuLease (n + 1)) := ExtTreeMap.getElem?_insert_self
  obtain ⟨error, -, inactive⟩ | ⟨-, release⟩ :=
    ((cycled n).granted (cpuRequest (n + 1)) 0 cpuReservation).release_cases (cpuLease (n + 1))
  · exact absurd active inactive
  · rw [release .empty (show subtractCooperativeAdmissionReservation cpuReservation cpuReservation =
      .ok .empty by decide)]
    have left : (((∅ : ExtTreeMap Nat CooperativeAdmissionLease).insert (n + 1)
        (cpuLease (n + 1))).erase (n + 1)) = ∅ := erase_insert_of_absent (by simp)
    have attempts : (((∅ : ExtTreeMap (Nat × Nat) Nat pairCompare).insert (1, n + 1)
        (n + 1)).erase (1, n + 1)) = ∅ := erase_insert_of_absent (by simp)
    refine congrArg (Prod.mk _) ?_
    change CooperativeAdmissionLedger.mk _ _ _ _ (((∅ : ExtTreeMap Nat
      CooperativeAdmissionLease).insert (n + 1) (cpuLease (n + 1))).erase (n + 1))
      (((∅ : ExtTreeMap (Nat × Nat) Nat pairCompare).insert (1, n + 1) (n + 1)).erase
        (1, n + 1)) _ = _
    rw [left, attempts]
    rfl

theorem run_cycles {n : Nat} (room : n < u64Max) :
    run step cpuLedger (cycles n) = cycled n ∧
      totalCost step leasesIssued cpuLedger (cycles n) = n := by
  induction n with
  | zero => exact ⟨rfl, rfl⟩
  | succ n ih =>
      obtain ⟨reached, issued⟩ := ih (Nat.lt_of_succ_lt room)
      have admitted := cycled_admit room
      have granted : step (cycled n) (.admitRequest (cpuRequest (n + 1)) 0) =
          (cycled n).granted (cpuRequest (n + 1)) 0 cpuReservation := congrArg Prod.snd admitted
      have left : step ((cycled n).granted (cpuRequest (n + 1)) 0 cpuReservation)
          (.release (cpuLease (n + 1))) = cycled (n + 1) := congrArg Prod.snd (cycled_release n)
      have one : leasesIssued (cycled n) (.admitRequest (cpuRequest (n + 1)) 0) = 1 := by
        rw [leasesIssued, admitted]
      constructor
      · rw [cycles, run_append, reached, run_cons, run_cons, run_nil, granted, left]
      · rw [cycles, totalCost_append, reached, issued, totalCost, one]
        rfl

theorem cycled_exhausted {n : Nat} (last : n + 1 = u64Max) :
    ∃ error, (cycled n).admitRequest (cpuRequest (n + 1)) 0 =
      (.error error, { cycled n with nextLeaseId := n + 1 + 1 }) := by
  have admissible : Admissible (cycled n) (cpuRequest (n + 1)) :=
    cycled_admissible (last ▸ by decide)
  obtain ⟨error, -, refused⟩ | ⟨leaseId, lease, -, -, digest, -⟩ | ⟨error, he, -⟩ |
    ⟨used, -, -, room, -⟩ := admit_cases (cycled n) (cpuRequest (n + 1)) 0
  · obtain ⟨refusal, failed⟩ := refused admissible
    cases failed.symm.trans add_cpuReservation
  · cases digest.symm.trans admissible.fresh
  · exact ⟨error, he⟩
  · exact absurd last room.ne

theorem cycles_exhausted {n : Nat} (last : n + 1 = u64Max) :
    totalCost step leasesIssued cpuLedger (cycles n ++ [.admitRequest (cpuRequest (n + 1)) 0]) = n ∧
    (run step cpuLedger (cycles n)).Fails (.admitRequest (cpuRequest (n + 1)) 0) ∧
    (run step cpuLedger (cycles n)).step (.admitRequest (cpuRequest (n + 1)) 0) ≠
      run step cpuLedger (cycles n) := by
  obtain ⟨reached, issued⟩ := run_cycles (n := n) (last ▸ Nat.lt_succ_self n)
  obtain ⟨error, he⟩ := cycled_exhausted last
  have none_issued : leasesIssued (cycled n) (.admitRequest (cpuRequest (n + 1)) 0) = 0 := by
    rw [leasesIssued, he]
  rw [totalCost_append, reached, issued, totalCost, totalCost, none_issued]
  refine ⟨rfl, ⟨error, congrArg Prod.fst he⟩, fun same => ?_⟩
  have moved := congrArg nextLeaseId ((congrArg Prod.snd he).symm.trans same)
  exact absurd moved (Nat.succ_ne_self _)

/-- When `2 ^ 64 - 2` leases have been issued, a request that fits is turned away, but the next
lease id has moved on. -/
theorem exhausted_admission_changes_ledger :
    Initial cpuLedger ∧
    totalCost step leasesIssued cpuLedger
      (cycles (u64Max - 1) ++ [.admitRequest (cpuRequest (u64Max - 1 + 1)) 0]) = u64Max - 1 ∧
    (run step cpuLedger (cycles (u64Max - 1))).Fails
      (.admitRequest (cpuRequest (u64Max - 1 + 1)) 0) ∧
    (run step cpuLedger (cycles (u64Max - 1))).step
        (.admitRequest (cpuRequest (u64Max - 1 + 1)) 0) ≠
      run step cpuLedger (cycles (u64Max - 1)) :=
  ⟨cpuLedger_initial, cycles_exhausted (by decide)⟩

end CooperativeAdmissionLedger

end Aegis.Resource
