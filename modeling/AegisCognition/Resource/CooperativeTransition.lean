import AegisCognition.Resource.Cooperative

/-!
# What the cooperative ledger checks and changes

The checks of a reservation and of its fit are read resource by resource. An admission fails,
finds the lease of its attempt, or records a new one; there is one failure that is not without
effect. A release fails or takes exactly the given lease off.
-/

namespace Aegis.Resource

open Std Foundation CooperativeReservation ExtTreeSet

variable {capacity used left right result reservation : CooperativeReservation}

/-! ### Reservations, resource by resource -/

/-- A reservation that no entry of makes no claim. -/
def CooperativeReservation.Positive (reservation : CooperativeReservation) : Prop :=
  ∀ resource, Tally.NoZero (reservation.tally resource)

theorem validateCooperativeMap_noZero {map : ExtTreeMap String Nat} {resource : String}
    (h : validateCooperativeMap map resource true = .ok ()) : Tally.NoZero map := by
  intro id zero
  refine refuseWhen_eq_ok_iff.mp h (List.any_eq_true.mpr ⟨(id, 0), ?_, by simp⟩)
  exact ExtTreeMap.mem_toList_iff_getElem?_eq_some.mpr zero

theorem validateCooperativeUsageReservation_positive
    (h : validateCooperativeUsageReservation reservation = .ok ()) : reservation.Positive := by
  simp only [validateCooperativeUsageReservation, bind_eq_ok_iff] at h
  obtain ⟨_, h1, _, h2, _, h3, _, h4, _, h5, _, h6, _, h7, h8⟩ := h
  intro resource
  cases resource <;> exact validateCooperativeMap_noZero ‹_›

theorem validateCooperativeReservation_positive
    (h : validateCooperativeReservation reservation = .ok ()) : reservation.Positive := by
  obtain ⟨_, accounting, -⟩ := bind_eq_ok_iff.mp h
  obtain ⟨_, usage, -⟩ := bind_eq_ok_iff.mp accounting
  exact validateCooperativeUsageReservation_positive usage

theorem CooperativeAdmissionRequest.validate_positive {request : CooperativeAdmissionRequest}
    (h : request.validate = .ok ()) : request.reservation.Positive := by
  simp only [validate, bind_eq_ok_iff] at h
  obtain ⟨_, -, _, -, _, -, _, checked, -⟩ := h
  exact validateCooperativeReservation_positive checked

/-- What data and buffers take of the data-tier capacity for an identity. -/
def CooperativeReservation.tierBytes (reservation : CooperativeReservation) (id : String) : Nat :=
  Tally.amount reservation.dataTierBytes id + Tally.amount reservation.bufferBytes id

/-- The amounts in use fit their types and the capacity, that of data and buffers together. -/
structure Within (capacity used : CooperativeReservation) : Prop where
  bounded : ∀ resource id, Tally.amount (used.tally resource) id ≤ resource.bound
  separate : ∀ resource id, resource ≠ .dataTierBytes → resource ≠ .bufferBytes →
    Tally.amount (used.tally resource) id ≤ Tally.amount (capacity.tally resource) id
  combined : ∀ id, used.tierBytes id ≤ Tally.amount capacity.dataTierBytes id

theorem ensureCooperativeMapFits_ok {bound : Nat} {resource : String}
    {capacity used requested : ExtTreeMap String Nat}
    (h : ensureCooperativeMapFits bound resource capacity used requested = .ok ()) {id : String}
    (claimed : Tally.amount requested id ≠ 0) :
    Tally.amount used id + Tally.amount requested id ≤ bound ∧
      Tally.amount used id + Tally.amount requested id ≤ Tally.amount capacity id := by
  cases found : requested[id]? with
  | none =>
      rw [Tally.amount, found] at claimed
      exact absurd rfl claimed
  | some amount =>
      have fits := forM_eq_ok_iff.mp h (id, amount)
        (ExtTreeMap.mem_toList_iff_getElem?_eq_some.mpr found)
      rw [Tally.amount_of_getElem? found]
      unfold ensureCooperativeEntryFits at fits
      split at fits
      · cases fits
      · rename_i limit limited
        rw [Tally.amount_of_getElem? limited]
        exact not_checkedAdd_all_lt.mp (refuseWhen_eq_ok_iff.mp fits)

/-- The identities that the check of data and buffers visits. -/
theorem mem_tierIds {id : String} (claimed : reservation.tierBytes id ≠ 0) :
    id ∈ (ofList (used.dataTierBytes.keys ++ used.bufferBytes.keys ++
      reservation.dataTierBytes.keys ++ reservation.bufferBytes.keys) compare).toList := by
  have key {map : ExtTreeMap String Nat} (held : Tally.amount map id ≠ 0) : id ∈ map.keys := by
    by_contra absent
    rw [ExtTreeMap.mem_keys, ExtTreeMap.mem_iff_isSome_getElem?, Bool.not_eq_true,
      Option.isSome_eq_false_iff, Option.isNone_iff_eq_none] at absent
    rw [Tally.amount, absent] at held
    exact held rfl
  have either : Tally.amount reservation.dataTierBytes id ≠ 0 ∨
      Tally.amount reservation.bufferBytes id ≠ 0 := by
    rw [tierBytes] at claimed
    omega
  simp only [mem_toList, mem_ofList, List.contains_iff_mem, List.mem_append]
  obtain data | buffer := either
  · exact .inl (.inr (key data))
  · exact .inr (key buffer)

theorem ensureCooperativeCombinedU64MapFits_ok {resource : String} {tiers : ExtTreeMap String Nat}
    (h : ensureCooperativeCombinedU64MapFits resource tiers used.dataTierBytes used.bufferBytes
      reservation.dataTierBytes reservation.bufferBytes = .ok ()) {id : String}
    (claimed : reservation.tierBytes id ≠ 0) :
    used.tierBytes id + reservation.tierBytes id ≤ u64Max ∧
      used.tierBytes id + reservation.tierBytes id ≤ Tally.amount tiers id := by
  have fits := forM_eq_ok_iff.mp h id (mem_tierIds claimed)
  simp only [ensureCooperativeCombinedFits, bind_eq_ok_iff, okOr_eq_ok_iff,
    checkedAdd_eq_some_iff] at fits
  obtain ⟨current, ⟨-, rfl⟩, requested, ⟨-, rfl⟩, fits⟩ := fits
  rw [tierBytes] at claimed
  rw [if_neg claimed] at fits
  split at fits
  · cases fits
  · rename_i limit limited
    rw [Tally.amount_of_getElem? limited]
    exact not_checkedAdd_all_lt.mp (refuseWhen_eq_ok_iff.mp fits)

/-- What the check of the ledger establishes about what a reservation claims. -/
theorem ensureMapsFit_ok {ledger : CooperativeAdmissionLedger}
    (h : ledger.ensureMapsFit reservation = .ok ()) :
    (∀ resource id, resource ≠ .dataTierBytes → resource ≠ .bufferBytes →
      Tally.amount (reservation.tally resource) id ≠ 0 →
      Tally.amount (ledger.used.tally resource) id + Tally.amount (reservation.tally resource) id ≤
        resource.bound ∧
      Tally.amount (ledger.used.tally resource) id + Tally.amount (reservation.tally resource) id ≤
        Tally.amount (ledger.capacity.tally resource) id) ∧
    ∀ id, reservation.tierBytes id ≠ 0 →
      ledger.used.tierBytes id + reservation.tierBytes id ≤ u64Max ∧
      ledger.used.tierBytes id + reservation.tierBytes id ≤
        Tally.amount ledger.capacity.dataTierBytes id := by
  simp only [CooperativeAdmissionLedger.ensureMapsFit, ensureCooperativeU32MapFits,
    ensureCooperativeU64MapFits, bind_eq_ok_iff] at h
  obtain ⟨_, h1, _, h2, _, h3, _, h4, _, h5, _, h6, h7⟩ := h
  refine ⟨fun resource id data buffer claimed => ?_, fun id =>
    ensureCooperativeCombinedU64MapFits_ok h3⟩
  cases resource with
  | dataTierBytes => exact absurd rfl data
  | bufferBytes => exact absurd rfl buffer
  | _ => exact ensureCooperativeMapFits_ok ‹_› claimed

/-- Amounts that fit with what a reservation claims fit once it is added. -/
theorem Within.grow {capacity used reservation result : CooperativeReservation}
    (within : Within capacity used)
    (bounded : ∀ resource id, Tally.amount (used.tally resource) id +
      Tally.amount (reservation.tally resource) id ≤ resource.bound)
    (separate : ∀ resource id, resource ≠ .dataTierBytes → resource ≠ .bufferBytes →
      Tally.amount (reservation.tally resource) id ≠ 0 →
      Tally.amount (used.tally resource) id + Tally.amount (reservation.tally resource) id ≤
        Tally.amount (capacity.tally resource) id)
    (combined : ∀ id, reservation.tierBytes id ≠ 0 →
      used.tierBytes id + reservation.tierBytes id ≤ Tally.amount capacity.dataTierBytes id)
    (sums : ∀ resource id, Tally.amount (result.tally resource) id =
      Tally.amount (used.tally resource) id + Tally.amount (reservation.tally resource) id) :
    Within capacity result := by
  refine ⟨fun resource id => sums resource id ▸ bounded resource id,
    fun resource id data buffer => ?_, fun id => ?_⟩
  · have old := within.separate resource id data buffer
    rw [sums]
    by_cases claimed : Tally.amount (reservation.tally resource) id = 0
    · omega
    · exact separate resource id data buffer claimed
  · have old := within.combined id
    have total : result.tierBytes id = used.tierBytes id + reservation.tierBytes id := by
      have data := sums .dataTierBytes id
      have buffer := sums .bufferBytes id
      simp only [CooperativeReservation.tally] at data buffer
      simp only [tierBytes]
      omega
    rw [total]
    by_cases claimed : reservation.tierBytes id = 0
    · omega
    · exact combined id claimed

/-- A reservation that passes the check of the ledger can be added to what is in use. -/
theorem Within.add {ledger : CooperativeAdmissionLedger}
    (within : Within ledger.capacity ledger.used)
    (h : ledger.ensureMapsFit reservation = .ok ()) :
    (∀ resource id, Tally.amount (ledger.used.tally resource) id +
      Tally.amount (reservation.tally resource) id ≤ resource.bound) ∧
    ∀ result : CooperativeReservation, (∀ resource id, Tally.amount (result.tally resource) id =
        Tally.amount (ledger.used.tally resource) id +
          Tally.amount (reservation.tally resource) id) →
      Within ledger.capacity result := by
  obtain ⟨separate, combined⟩ := ensureMapsFit_ok h
  have bounded : ∀ resource id, Tally.amount (ledger.used.tally resource) id +
      Tally.amount (reservation.tally resource) id ≤ resource.bound := by
    intro resource id
    have old := within.bounded resource id
    by_cases claimed : Tally.amount (reservation.tally resource) id = 0
    · omega
    · have tier := combined id
      simp only [tierBytes] at tier
      cases resource with
      | dataTierBytes =>
          simp only [CooperativeReservation.tally, CooperativeResource.bound] at claimed ⊢
          omega
      | bufferBytes =>
          simp only [CooperativeReservation.tally, CooperativeResource.bound] at claimed ⊢
          omega
      | _ => exact (separate _ id (by simp) (by simp) claimed).1
  exact ⟨bounded, fun result sums => within.grow bounded (fun resource id data buffer claimed =>
    (separate resource id data buffer claimed).2) (fun id claimed => (combined id claimed).2) sums⟩

theorem addCooperativeAdmissionReservation_ok_iff :
    addCooperativeAdmissionReservation left right = .ok result ↔ ∀ resource,
      Tally.add resource.bound (left.tally resource) (right.tally resource) =
        some (result.tally resource) := by
  simp only [addCooperativeAdmissionReservation, addCooperativeU32Map, addCooperativeU64Map,
    bind_eq_ok_iff, okOr_eq_ok_iff, pure_eq_ok_iff]
  constructor
  · rintro ⟨_, h1, _, h2, _, h3, _, h4, _, h5, _, h6, _, h7, _, h8, rfl⟩ resource
    cases resource <;> assumption
  · intro h
    exact ⟨_, h .executorQueueSlots, _, h .executorMemoryBytes, _, h .dataTierBytes, _,
      h .bufferBytes, _, h .storageBytes, _, h .storageInFlight, _, h .transferTokens, _,
      h .sharedMemoryBytes, rfl⟩

theorem subtractCooperativeAdmissionReservation_ok_iff :
    subtractCooperativeAdmissionReservation left right = .ok result ↔ ∀ resource,
      Tally.subtract (left.tally resource) (right.tally resource) =
        some (result.tally resource) := by
  simp only [subtractCooperativeAdmissionReservation, subtractCooperativeMap, bind_eq_ok_iff,
    okOr_eq_ok_iff, pure_eq_ok_iff]
  constructor
  · rintro ⟨_, h1, _, h2, _, h3, _, h4, _, h5, _, h6, _, h7, _, h8, rfl⟩ resource
    cases resource <;> assumption
  · intro h
    exact ⟨_, h .executorQueueSlots, _, h .executorMemoryBytes, _, h .dataTierBytes, _,
      h .bufferBytes, _, h .storageBytes, _, h .storageInFlight, _, h .transferTokens, _,
      h .sharedMemoryBytes, rfl⟩

/-! ### Calls -/

namespace CooperativeAdmissionLedger

variable {ledger : CooperativeAdmissionLedger} {request : CooperativeAdmissionRequest}
variable {lease : CooperativeAdmissionLease} {nowMs : Nat}

/-- The ledger after a fresh attempt has been admitted. -/
def granted (ledger : CooperativeAdmissionLedger) (request : CooperativeAdmissionRequest)
    (nowMs : Nat) (used : CooperativeReservation) : CooperativeAdmissionLedger :=
  { ledger with
    used := used
    nextLeaseId := ledger.nextLeaseId + 1
    nextGeneration := ledger.nextGeneration + 1
    attemptDigests := ledger.attemptDigests.insert request.key request.planDigest
    activeByAttempt := ledger.activeByAttempt.insert request.key ledger.nextLeaseId
    active := ledger.active.insert ledger.nextLeaseId (ledger.issueLease request nowMs) }

/-- The ledger after a lease has been released. -/
def released (ledger : CooperativeAdmissionLedger) (lease : CooperativeAdmissionLease)
    (used : CooperativeReservation) : CooperativeAdmissionLedger :=
  { ledger with
    active := ledger.active.erase lease.leaseId
    used := used
    activeByAttempt := ledger.activeByAttempt.erase lease.key }

/-- A request that the ledger would admit as that of a fresh attempt, but for the counter of
generations. -/
structure Admissible (ledger : CooperativeAdmissionLedger)
    (request : CooperativeAdmissionRequest) : Prop where
  valid : request.validate = .ok ()
  fresh : ledger.attemptDigests[request.key]? = none
  fits : ledger.ensureFits request.reservation = .ok ()
  leaseId : ledger.nextLeaseId < u128Max

theorem ensureFits_ok (h : ledger.ensureFits reservation = .ok ()) :
    ledger.ensureMapsFit reservation = .ok () := by
  obtain ⟨_, -, fits⟩ := bind_eq_ok_iff.mp h
  exact fits

/-- An admission fails without effect, finds the lease of its attempt, or is that of an admissible
request, which either is granted or runs out of generations. -/
theorem admit_cases (ledger : CooperativeAdmissionLedger) (request : CooperativeAdmissionRequest)
    (nowMs : Nat) :
    (∃ error, ledger.admitRequest request nowMs = (.error error, ledger) ∧
      (Admissible ledger request → ∃ refusal,
        addCooperativeAdmissionReservation ledger.used request.reservation = .error refusal)) ∨
    (∃ leaseId lease, ledger.admitRequest request nowMs = (.ok (.alreadyAdmitted lease), ledger) ∧
      request.validate = .ok () ∧
      ledger.attemptDigests[request.key]? = some request.planDigest ∧
      ledger.activeByAttempt[request.key]? = some leaseId ∧
      ledger.active[leaseId]? = some lease) ∨
    (∃ error, ledger.admitRequest request nowMs =
        (.error error, { ledger with nextLeaseId := ledger.nextLeaseId + 1 }) ∧
      Admissible ledger request ∧ u64Max ≤ ledger.nextGeneration) ∨
    (∃ used, ledger.admitRequest request nowMs =
        (.ok (.admitted (ledger.issueLease request nowMs)),
          ledger.granted request nowMs used) ∧
      Admissible ledger request ∧ ledger.nextGeneration < u64Max ∧
      addCooperativeAdmissionReservation ledger.used request.reservation = .ok used) := by
  unfold admitRequest
  cases valid : request.validate with
  | error error =>
      refine .inl ⟨error, rfl, fun admissible => ?_⟩
      rw [admissible.valid] at valid
      cases valid
  | ok _ =>
      cases digest : ledger.attemptDigests[request.key]? with
      | some previousDigest =>
          have stale : Admissible ledger request → ∃ refusal,
              addCooperativeAdmissionReservation ledger.used request.reservation =
                .error refusal := by
            intro admissible
            rw [admissible.fresh] at digest
            cases digest
          by_cases same : previousDigest = request.planDigest
          · subst same
            simp only [ne_eq, not_true_eq_false, if_false]
            cases attempt : ledger.activeByAttempt[request.key]? with
            | none => exact .inl ⟨_, rfl, stale⟩
            | some leaseId =>
                cases lease : ledger.active[leaseId]? with
                | none => exact .inl ⟨.unknownLease leaseId, by simp only [lease], stale⟩
                | some lease' => exact .inr (.inl ⟨leaseId, lease', by simp only [lease], trivial,
                    trivial, rfl, lease⟩)
          · exact .inl ⟨_, if_pos same, stale⟩
      | none =>
          simp only [admitFresh]
          cases fits : ledger.ensureFits request.reservation with
          | error error =>
              refine .inl ⟨error, rfl, fun admissible => ?_⟩
              rw [admissible.fits] at fits
              cases fits
          | ok _ =>
              cases sum : addCooperativeAdmissionReservation ledger.used request.reservation with
              | error error => exact .inl ⟨error, rfl, fun _ => ⟨error, rfl⟩⟩
              | ok used =>
                  cases leaseId : checkedAdd u128Max ledger.nextLeaseId 1 with
                  | none =>
                      refine .inl ⟨_, rfl, fun admissible => ?_⟩
                      rw [checkedAdd, if_pos (Nat.succ_le_of_lt admissible.leaseId)] at leaseId
                      cases leaseId
                  | some nextLeaseId =>
                      obtain ⟨room, rfl⟩ := checkedAdd_eq_some_iff.mp leaseId
                      have admissible : Admissible ledger request := ⟨valid, digest, fits, room⟩
                      cases generation : checkedAdd u64Max ledger.nextGeneration 1 with
                      | none =>
                          refine .inr (.inr (.inl ⟨_, rfl, admissible, ?_⟩))
                          by_contra less
                          rw [checkedAdd,
                            if_pos (Nat.succ_le_of_lt (Nat.lt_of_not_le less))] at generation
                          cases generation
                      | some nextGeneration =>
                          obtain ⟨less, rfl⟩ := checkedAdd_eq_some_iff.mp generation
                          exact .inr (.inr (.inr ⟨used, rfl, admissible, less, rfl⟩))

/-- A release fails without effect, or is that of an active lease. -/
theorem release_cases (ledger : CooperativeAdmissionLedger) (lease : CooperativeAdmissionLease) :
    (∃ error, ledger.release lease = (.error error, ledger) ∧
      ledger.active[lease.leaseId]? ≠ some lease) ∨
    (ledger.active[lease.leaseId]? = some lease ∧ ∀ used,
      subtractCooperativeAdmissionReservation ledger.used lease.reservation = .ok used →
      ledger.release lease = (.ok lease, ledger.released lease used)) := by
  unfold release
  cases active : ledger.active[lease.leaseId]? with
  | none => exact .inl ⟨_, rfl, (Option.some_ne_none lease).symm⟩
  | some current =>
      by_cases same : current = lease
      · subst same
        refine .inr ⟨rfl, fun used difference => ?_⟩
        simp only [ne_eq, not_true_eq_false, if_false, difference]
        rfl
      · exact .inl ⟨_, if_pos same, fun h => same (Option.some.inj h)⟩

end CooperativeAdmissionLedger

end Aegis.Resource
