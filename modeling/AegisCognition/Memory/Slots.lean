import AegisCognition.Memory.Slab

/-!
# The slots of a slab

What a call does to the five pools together: it leaves them alone or it changes one slot of one
pool and the two counters. The slots agree with the identifiers that were handed out: a slot's
generation counts how often it was handed out.
-/

namespace Aegis.Memory

open Foundation SlabPool SlotId

universe u

variable {T : Type u}

namespace GenerationalSlab

section

variable (slab : GenerationalSlab T)
include slab

@[simp] theorem pool_withPool (poolClass other : PoolClass)
    (pool : SlabPool T) :
    (slab.withPool poolClass pool).pool other =
      if other = poolClass then pool else slab.pool other := by
  cases poolClass <;> cases other <;> rfl

section

variable (poolClass : PoolClass)

@[simp] theorem withPool_withPool (first second : SlabPool T) :
    (slab.withPool poolClass first).withPool poolClass second = slab.withPool poolClass second := by
  cases poolClass <;> rfl

@[simp] theorem withPool_pool : slab.withPool poolClass (slab.pool poolClass) = slab := by
  cases poolClass <;> rfl

theorem liveLen_withPool (pool : SlabPool T) :
    (slab.withPool poolClass pool).liveLen = slab.liveLen := by
  cases poolClass <;> rfl

theorem payloadBytes_withPool (pool : SlabPool T) :
    (slab.withPool poolClass pool).payloadBytes = slab.payloadBytes := by
  cases poolClass <;> rfl

end

end

/-- A pool and both counters get new values. -/
def settle (slab : GenerationalSlab T) (poolClass : PoolClass) (pool : SlabPool T)
    (liveLen payloadBytes : Nat) : GenerationalSlab T :=
  { slab.withPool poolClass pool with liveLen, payloadBytes }

section Settle

variable (slab : GenerationalSlab T) (poolClass other : PoolClass) (pool : SlabPool T)
variable (liveLen payloadBytes : Nat)

theorem withPool_eq_settle : slab.withPool poolClass pool =
    slab.settle poolClass pool slab.liveLen slab.payloadBytes := by
  cases poolClass <;> rfl

theorem pool_settle :
    (slab.settle poolClass pool liveLen payloadBytes).pool other =
      if other = poolClass then pool else slab.pool other := by
  cases poolClass <;> cases other <;> rfl

@[simp] theorem layoutBudget_settle :
    (slab.settle poolClass pool liveLen payloadBytes).layoutBudget = slab.layoutBudget := by
  cases poolClass <;> rfl

end Settle

section

variable (weight : T → Nat) (slab : GenerationalSlab T)

/-- The weight of the values in all pools. -/
def total : Nat :=
  (slab.iter.map weight).sum

theorem total_eq : slab.total weight = slab.pool32.total weight + slab.pool64.total weight +
      slab.pool128.total weight + slab.pool256.total weight + slab.poolOverflow.total weight := by
  simp [total, iter, SlabPool.total, Nat.add_assoc]

theorem total_settle (poolClass : PoolClass) (pool : SlabPool T) (liveLen payloadBytes : Nat) :
    (slab.settle poolClass pool liveLen payloadBytes).total weight +
        (slab.pool poolClass).total weight =
      slab.total weight + pool.total weight := by
  rw [total_eq, total_eq]
  cases poolClass <;> simp only [settle, withPool, GenerationalSlab.pool] <;> omega

end

/-- One slot of one pool gets a new entry. What the slot held before is gone or was held under
the same generation. -/
structure SlotChange (slab : GenerationalSlab T) (poolClass : PoolClass) (slot : Nat)
    (generation : Generation) (value : Option T) (after : GenerationalSlab T) : Prop where
  slot_lt : slot < 2 ^ 29
  entries : ∀ other index, (after.pool other).entries[index]? =
    if other = poolClass ∧ index = slot then some ⟨value, generation⟩
    else (slab.pool other).entries[index]?
  before : ∀ entry, (slab.pool poolClass).entries[slot]? = some entry →
    entry.value = none ∨ entry.generation = generation

theorem get_eq_some_iff {slab : GenerationalSlab T} {slotId : SlotId} {val : T} :
    slab.get slotId = some val ↔
      (slab.pool slotId.unpack.2).entries[slotId.unpack.1.toNat]? =
        some ⟨some val, slotId.generation⟩ :=
  SlabPool.get_eq_some_iff

section SlotChange

variable {slab after : GenerationalSlab T} {poolClass : PoolClass} {slot : Nat}
variable {generation : Generation} {value : Option T}

/-- After the change the slab finds the new value under the slot's identifier, and under any
other identifier what it found before. -/
theorem SlotChange.get_eq (change : slab.SlotChange poolClass slot generation value after)
    {slotId : SlotId} (canonical : slotId.Canonical) :
    after.get slotId =
      if slotId = .new (BitVec.ofNat 32 slot) generation poolClass then value
      else slab.get slotId := by
  have slot_lt := change.slot_lt
  have number : (BitVec.ofNat 32 slot).toNat = slot := toNat_ofNat_of_small slot_lt.le
  have unpacked := unpack_new (BitVec.ofNat 32 slot) generation poolClass
    (number.symm ▸ slot_lt)
  refine Option.ext fun val => ?_
  rw [get_eq_some_iff, change.entries]
  by_cases here : slotId.unpack.2 = poolClass ∧ slotId.unpack.1.toNat = slot
  · obtain ⟨class_eq, slot_eq⟩ := here
    have index_eq : slotId.unpack.1 = BitVec.ofNat 32 slot := by
      apply BitVec.eq_of_toNat_eq
      rw [slot_eq, number]
    have packed := new_unpack canonical
    rw [class_eq, index_eq] at packed
    rw [if_pos ⟨class_eq, slot_eq⟩]
    by_cases current : slotId.generation = generation
    · have same : slotId = .new (BitVec.ofNat 32 slot) generation poolClass := by
        rw [← packed, current]
      rw [if_pos same]
      simp [current]
    · have apart : slotId ≠ .new (BitVec.ofNat 32 slot) generation poolClass := by
        rintro rfl
        exact current rfl
      rw [if_neg apart, get_eq_some_iff, class_eq, slot_eq]
      constructor
      · intro found
        exact absurd (congrArg SlabEntry.generation (Option.some.inj found)).symm current
      · intro found
        obtain none | same := change.before _ found
        · exact nomatch none
        · exact absurd same current
  · have apart : slotId ≠ .new (BitVec.ofNat 32 slot) generation poolClass := by
      rintro rfl
      rw [unpacked] at here
      exact here ⟨rfl, number⟩
    rw [if_neg here, if_neg apart, get_eq_some_iff]

end SlotChange

section SlotChangeOf

variable {slab : GenerationalSlab T} {poolClass : PoolClass} {slot : Nat}
variable {generation : Generation} {pool : SlabPool T}

theorem SlotChange.of_inserts (liveLen bytes : Nat) {val : T}
    (inserts : (slab.pool poolClass).Inserts val slot generation pool) :
    slab.SlotChange poolClass slot generation (some val)
      (slab.settle poolClass pool liveLen bytes) where
  slot_lt := inserts.slot_lt
  entries := by
    intro other index
    rw [pool_settle]
    by_cases same : other = poolClass
    · subst same
      simp [inserts.entries]
    · simp [same]
  before := by
    intro entry found
    obtain ⟨vacant, there, empty, -⟩ | ⟨absent, -⟩ := inserts.origin
    · exact .inl (Option.some.inj (there.symm.trans found) ▸ empty)
    · exact nomatch absent.symm.trans found

theorem SlotChange.of_replaces (liveLen bytes : Nat) {old : T} {value : Option T}
    (replaces : (slab.pool poolClass).Replaces old slot generation value pool)
    (slot_lt : slot < 2 ^ 29) :
    slab.SlotChange poolClass slot generation value
      (slab.settle poolClass pool liveLen bytes) where
  slot_lt := slot_lt
  entries := by
    intro other index
    rw [pool_settle]
    by_cases same : other = poolClass
    · subst same
      simp [replaces.entries]
    · simp [same]
  before := fun entry found => .inr (Option.some.inj (replaces.found.symm.trans found) ▸ rfl)

end SlotChangeOf

/-- How often the slot with the packed index was handed out. -/
def uses (issued : List SlotId) (index : BitVec 32) : Nat :=
  issued.countP (·.index = index)

/-- The slots of a slab agree with the identifiers that were handed out. -/
structure Indexed (slab : GenerationalSlab T) (issued : List SlotId) : Prop where
  valid : ∀ poolClass, (slab.pool poolClass).Valid
  /-- The slot of an identifier that was handed out is there and of no earlier generation. -/
  known : ∀ slotId ∈ issued, slotId.Canonical ∧
    ∃ entry, (slab.pool slotId.unpack.2).entries[slotId.unpack.1.toNat]? = some entry ∧
      slotId.generation.get.toNat ≤ entry.generation.get.toNat
  /-- The generation of a slot counts how often the slot was handed out. -/
  counted : ∀ poolClass slot entry, (slab.pool poolClass).entries[slot]? = some entry →
    uses issued (packIndex (BitVec.ofNat 32 slot) poolClass) = entry.generation.get.toNat

namespace Indexed

variable {slab after : GenerationalSlab T} {issued : List SlotId} {poolClass : PoolClass}
variable {slot : Nat} {generation : Generation} {value : Option T} {slotId : SlotId}

theorem uses_concat (issued : List SlotId) (slotId : SlotId) (index : BitVec 32) :
    uses (issued ++ [slotId]) index =
      uses issued index + if slotId.index = index then 1 else 0 := by
  simp [uses, List.countP_append, List.countP_singleton]

section

variable (indexed : Indexed slab issued)
include indexed

theorem slot_lt {entry : SlabEntry T}
    (found : (slab.pool poolClass).entries[slot]? = some entry) : slot < 2 ^ 29 :=
  Nat.lt_of_lt_of_le (List.getElem?_eq_some_iff.mp found).1 (indexed.valid poolClass).small

/-- A slot that is not there was never handed out. -/
theorem uses_eq_zero (small : slot < 2 ^ 29)
    (absent : (slab.pool poolClass).entries[slot]? = none) :
    uses issued (packIndex (BitVec.ofNat 32 slot) poolClass) = 0 := by
  refine List.countP_eq_zero.mpr fun slotId mem same => ?_
  obtain ⟨canonical, entry, found, -⟩ := indexed.known slotId mem
  have number : (BitVec.ofNat 32 slot).toNat = slot := toNat_ofNat_of_small small.le
  have packed : packIndex slotId.unpack.1 slotId.unpack.2 = slotId.index :=
    congrArg SlotId.index (new_unpack canonical)
  obtain ⟨index_eq, class_eq⟩ := packIndex_inj slotId.unpack_lt (number.symm ▸ small)
    (packed.trans (of_decide_eq_true same))
  rw [index_eq, class_eq, number, absent] at found
  exact nomatch found

/-- The slot that an insertion takes was handed out once less than its new generation says. -/
theorem generation_eq {val : T} {pool : SlabPool T}
    (inserts : (slab.pool poolClass).Inserts val slot generation pool)
    (room : uses issued (packIndex (BitVec.ofNat 32 slot) poolClass) < 2 ^ 32 - 1) :
    generation.get.toNat =
      uses issued (packIndex (BitVec.ofNat 32 slot) poolClass) + 1 := by
  obtain ⟨entry, found, -, rfl⟩ | ⟨absent, rfl⟩ := inserts.origin
  · have count := indexed.counted _ _ _ found
    rw [count] at room ⊢
    exact Generation.toNat_next (by omega)
  · rw [indexed.uses_eq_zero inserts.slot_lt absent]
    rfl

/-- An identifier of a slot is no newer than the slot's last one. -/
theorem generation_le (mem : slotId ∈ issued) :
    slotId.generation.get.toNat ≤ uses issued slotId.index := by
  obtain ⟨canonical, entry, found, le⟩ := indexed.known slotId mem
  have packed : packIndex slotId.unpack.1 slotId.unpack.2 = slotId.index :=
    congrArg SlotId.index (new_unpack canonical)
  have count := indexed.counted _ _ _ found
  rw [BitVec.ofNat_toNat, BitVec.setWidth_eq, packed] at count
  omega

/-- The identifier of the slot that an insertion takes is new. -/
theorem fresh
    (next : generation.get.toNat =
      uses issued (packIndex (BitVec.ofNat 32 slot) poolClass) + 1) :
    SlotId.new (BitVec.ofNat 32 slot) generation poolClass ∉ issued := by
  intro mem
  have le : generation.get.toNat ≤
      uses issued (packIndex (BitVec.ofNat 32 slot) poolClass) :=
    indexed.generation_le mem
  omega

/-- The slots after an insertion, with its identifier among those handed out. -/
theorem add {val : T} {pool : SlabPool T} {liveLen bytes : Nat}
    (inserts : (slab.pool poolClass).Inserts val slot generation pool)
    (next : generation.get.toNat =
      uses issued (packIndex (BitVec.ofNat 32 slot) poolClass) + 1) :
    Indexed (slab.settle poolClass pool liveLen bytes)
      (issued ++ [.new (BitVec.ofNat 32 slot) generation poolClass]) := by
  have small : ∀ slot ≤ 2 ^ 29, (BitVec.ofNat 32 slot).toNat = slot := fun _ le =>
    toNat_ofNat_of_small le
  have number := small slot inserts.slot_lt.le
  have unpacked := unpack_new _ generation poolClass (number.symm ▸ inserts.slot_lt)
  have entries := (SlotChange.of_inserts liveLen bytes inserts).entries
  refine ⟨?_, ?_, ?_⟩
  · intro other
    rw [pool_settle]
    split
    · exact inserts.valid
    · exact indexed.valid other
  · intro slotId mem
    rw [entries]
    obtain old | new := List.mem_append.mp mem
    · obtain ⟨canonical, entry, found, le⟩ := indexed.known slotId old
      refine ⟨canonical, ?_⟩
      split
      · rename_i here
        refine ⟨_, rfl, ?_⟩
        have packed := congrArg SlotId.index (new_unpack canonical)
        have index_eq : slotId.unpack.1 = BitVec.ofNat 32 slot := by
          rw [← here.2, BitVec.ofNat_toNat, BitVec.setWidth_eq]
        have older := indexed.generation_le old
        rw [← packed, here.1, index_eq] at older
        exact Nat.le_of_lt_succ (next ▸ Nat.lt_succ_of_le (Nat.le_succ_of_le older))
      · exact ⟨entry, found, le⟩
    · obtain rfl := List.mem_singleton.mp new
      refine ⟨canonical_new _ _ _, ⟨some val, generation⟩, ?_, Nat.le_refl _⟩
      rw [unpacked, if_pos ⟨rfl, number⟩]
  · intro other index entry found
    rw [entries] at found
    rw [uses_concat]
    split at found
    · rename_i here
      obtain ⟨rfl, rfl⟩ := here
      cases found
      exact (congrArg _ (if_pos rfl)).trans next.symm
    · rename_i apart
      rw [if_neg ?_]
      · exact indexed.counted other index entry found
      · intro same
        have index_lt := indexed.slot_lt found
        obtain ⟨index_eq, class_eq⟩ := packIndex_inj (number.symm ▸ inserts.slot_lt)
          ((small index index_lt.le).symm ▸ index_lt) same
        refine apart ⟨class_eq.symm, ?_⟩
        rw [← small index index_lt.le, ← index_eq, number]

/-- The slots after a change of the value in one of them. -/
theorem replace {old : T} {pool : SlabPool T}
    {liveLen bytes : Nat}
    (replaces : (slab.pool poolClass).Replaces old slot generation value pool) :
    Indexed (slab.settle poolClass pool liveLen bytes) issued := by
  have entries := (SlotChange.of_replaces liveLen bytes replaces
    (indexed.slot_lt replaces.found)).entries
  refine ⟨?_, ?_, ?_⟩
  · intro other
    rw [pool_settle]
    split
    · exact replaces.valid
    · exact indexed.valid other
  · intro slotId mem
    obtain ⟨canonical, entry, found, le⟩ := indexed.known slotId mem
    refine ⟨canonical, ?_⟩
    rw [entries]
    split
    · rename_i here
      rw [here.1, here.2, replaces.found] at found
      cases found
      exact ⟨_, rfl, le⟩
    · exact ⟨entry, found, le⟩
  · intro other index entry found
    rw [entries] at found
    split at found
    · rename_i here
      obtain ⟨rfl, rfl⟩ := here
      cases found
      have count := indexed.counted other index _ replaces.found
      exact count
    · exact indexed.counted other index entry found

end

end Indexed

section Operations

variable [HasPayloadLen T] {slab : GenerationalSlab T} {val : T} {slotId : SlotId} {update : T → T}

/-- An insertion is refused by the budget and changes nothing, or the budget has room and the pool
of the payload's class takes the value. -/
theorem tryInsert_cases (slab : GenerationalSlab T) (val : T) :
    let check := slab.layoutBudget.elim (.ok ())
      (·.checkInsert slab.liveLen slab.payloadBytes (payloadLen val))
    (∃ error, check = .error error ∧ slab.tryInsert val = (.error error, slab)) ∨
      check = .ok () ∧
      slab.tryInsert val =
        (let poolClass := poolClassForPayloadLen (payloadLen val)
        let ((index, generation), pool) := (slab.pool poolClass).insert val
        (.ok (.new index generation poolClass),
          slab.settle poolClass pool (wrappingAdd slab.liveLen 1)
            (wrappingAdd slab.payloadBytes (payloadLen val)))) := by
  intro check
  cases checked : check with
  | error error =>
      simp only [check] at checked
      exact .inl ⟨error, rfl, by simp only [tryInsert, checked]⟩
  | ok room =>
      simp only [check] at checked
      refine .inr ⟨rfl, ?_⟩
      simp only [tryInsert, checked, insertUnchecked, settle, liveLen_withPool,
        payloadBytes_withPool]

/-- A removal finds nothing and changes nothing, or it takes the value out of its pool. -/
theorem remove_cases (valid : ∀ poolClass, (slab.pool poolClass).Valid) (slotId : SlotId) :
    slab.get slotId = none ∧ slab.remove slotId = (none, slab) ∨
      ∃ val pool, slab.get slotId = some val ∧
        (slab.pool slotId.unpack.2).Replaces val slotId.unpack.1.toNat slotId.generation none pool ∧
        slab.remove slotId =
          (some val,
            slab.settle slotId.unpack.2 pool (slab.liveLen - 1)
              (slab.payloadBytes - payloadLen val)) := by
  obtain ⟨missing, same⟩ | ⟨val, found, removed, replaces⟩ :=
    SlabPool.remove_cases (valid slotId.unpack.2) slotId.unpack.1 slotId.generation
  · refine .inl ⟨missing, ?_⟩
    simp only [remove, same, withPool_pool]
  · refine .inr ⟨val, _, found, replaces, ?_⟩
    simp only [remove, removed, settle, liveLen_withPool, payloadBytes_withPool]

/-- An update of a value that is not there changes nothing. Otherwise the value changes in its
pool, and unless the byte count overflows, the update stands or the old value comes back. -/
theorem tryUpdate_cases (valid : ∀ poolClass, (slab.pool poolClass).Valid) (slotId : SlotId)
    (update : T → T) :
    slab.get slotId = none ∧ slab.tryUpdate slotId update = (.error "slot not found", slab) ∨
      ∃ val, slab.get slotId = some val ∧
        let bytes := slab.payloadBytes - payloadLen val + payloadLen (update val)
        let result := slab.budgetResult slotId.unpack.2
          (poolClassForPayloadLen (payloadLen (update val))) bytes
        bytes ≤ usizeMax →
          (∃ error, result = .error error ∧
            slab.tryUpdate slotId update = (.error error, slab)) ∨
          result = .ok () ∧
          ∃ pool, (slab.pool slotId.unpack.2).Replaces val slotId.unpack.1.toNat slotId.generation
              (some (update val)) pool ∧
            slab.tryUpdate slotId update =
              (.ok (), slab.settle slotId.unpack.2 pool slab.liveLen bytes) := by
  cases found : slab.get slotId with
  | none => exact .inl ⟨rfl, by simp only [tryUpdate, found]⟩
  | some val =>
      refine .inr ⟨val, rfl, ?_⟩
      intro bytes result fits
      have inPool : (slab.pool slotId.unpack.2).get slotId.unpack.1 slotId.generation = some val :=
        found
      have updated : (slab.getMutUntracked slotId update).get slotId = some (update val) := by
        simpa [getMutUntracked, get] using get_getMut inPool
      have restored : (slab.getMutUntracked slotId update).getMutUntracked slotId (fun _ => val) =
          slab := by
        simp [getMutUntracked, getMut_getMut_const inPool]
      have settled : slab.getMutUntracked slotId update = slab.settle slotId.unpack.2
          ((slab.pool slotId.unpack.2).getMut slotId.unpack.1 slotId.generation update)
          slab.liveLen slab.payloadBytes :=
        withPool_eq_settle ..
      have held : (slab.getMutUntracked slotId update).payloadBytes = slab.payloadBytes := by
        rw [settled, settle]
      have budget : (slab.getMutUntracked slotId update).budgetResult slotId.unpack.2
          (poolClassForPayloadLen (payloadLen (update val))) bytes = result := by
        simp only [result, budgetResult, settled, layoutBudget_settle]
      have sum : checkedAdd usizeMax (slab.payloadBytes - payloadLen val)
          (payloadLen (update val)) = some bytes :=
        if_pos fits
      simp only [tryUpdate, found, updated, held, sum, restored, budget]
      cases result with
      | error error => exact .inl ⟨error, rfl, rfl⟩
      | ok stands => exact .inr ⟨rfl, _, getMut_replaces (valid _) inPool, by rw [settled]; rfl⟩

omit [HasPayloadLen T] in
/-- An update that may stand keeps the payload budget. -/
theorem le_of_budgetResult {oldPoolClass newPoolClass : PoolClass} {bytes : Nat}
    (stands : slab.budgetResult oldPoolClass newPoolClass bytes = .ok ())
    {budget : RuntimeLayoutBudget} (present : slab.layoutBudget = some budget) :
    bytes ≤ budget.maxPayloadBytes := by
  simp only [budgetResult, present] at stands
  split at stands
  · cases stands
  · split at stands
    · cases stands
    · omega

end Operations

end GenerationalSlab

end Aegis.Memory
