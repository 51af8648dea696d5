import Mathlib.Data.Finset.Card
import Mathlib.Data.Finset.Max
import Mathlib.Data.List.Sort
import Mathlib.Data.Fintype.EquivFin
import Mathlib.Logic.Relation
import Mathlib.Order.WellFounded

/-!
# Orders of a dependency graph

A graph is a finite set of nodes and, for each node, the set of nodes that it needs. A node may
start when everything that it needs is done. The list that always starts the smallest node is
complete as soon as any list is, and then it is the smallest of all complete lists; that is the
case exactly for the graphs without a cycle.
-/

namespace Aegis.Foundation

open List

universe u

variable {α : Type u} [LinearOrder α] (nodes : Finset α) (needs : α → Finset α)

/-- The nodes that may start once the given ones are done. -/
def startable (done : Finset α) : Finset α :=
  nodes.filter fun node => node ∉ done ∧ needs node ⊆ done

/-- Each listed node may start at its turn. -/
def Starts : Finset α → List α → Prop
  | _, [] => True
  | done, node :: rest => node ∈ startable nodes needs done ∧ Starts (insert node done) rest

/-- Each listed node may start at its turn, and in the end all nodes are done. -/
def Completes (done : Finset α) (order : List α) : Prop :=
  Starts nodes needs done order ∧ nodes ⊆ done ∪ order.toFinset

/-- The smallest node that may start, time and again, at most so many times. -/
def smallestFirst : Nat → Finset α → List α
  | 0, _ => []
  | fuel + 1, done =>
    if h : (startable nodes needs done).Nonempty then
      (startable nodes needs done).min' h ::
        smallestFirst fuel (insert ((startable nodes needs done).min' h) done)
    else []

variable {nodes needs} {done : Finset α} {order rest : List α} {node other : α} {fuel : Nat}

theorem mem_startable :
    node ∈ startable nodes needs done ↔ node ∈ nodes ∧ node ∉ done ∧ needs node ⊆ done :=
  Finset.mem_filter

/-- What may start may still start after another node, unless it is that node. -/
theorem startable_insert (h : node ∈ startable nodes needs done) (apart : node ≠ other) :
    node ∈ startable nodes needs (insert other done) := by
  obtain ⟨mem, fresh, ready⟩ := mem_startable.mp h
  refine mem_startable.mpr ⟨mem, ?_, ready.trans (Finset.subset_insert other done)⟩
  rw [Finset.mem_insert, not_or]
  exact ⟨apart, fresh⟩

namespace Starts

/-- The listed nodes are nodes that were not done, none twice. -/
theorem fresh (h : Starts nodes needs done order) :
    order.Nodup ∧ order.toFinset ⊆ nodes \ done := by
  induction order generalizing done with
  | nil => exact ⟨nodup_nil, by simp⟩
  | cons node rest ih =>
      obtain ⟨first, later⟩ := h
      obtain ⟨mem, fresh, -⟩ := mem_startable.mp first
      obtain ⟨nodup, inside⟩ := ih later
      constructor
      · refine nodup_cons.mpr ⟨fun again => ?_, nodup⟩
        have := inside (mem_toFinset.mpr again)
        simp at this
      · intro other listed
        rw [toFinset_cons, Finset.mem_insert] at listed
        obtain rfl | listed := listed
        · exact Finset.mem_sdiff.mpr ⟨mem, fresh⟩
        · have := inside listed
          simp only [Finset.mem_sdiff, Finset.mem_insert, not_or] at this ⊢
          exact ⟨this.1, this.2.2⟩

theorem length_le (h : Starts nodes needs done order) : order.length ≤ (nodes \ done).card := by
  rw [← toFinset_card_of_nodup h.fresh.1]
  exact Finset.card_le_card h.fresh.2

/-- A node that may start at once can be taken out of the list. -/
theorem advance (h : Starts nodes needs done order) (ready : node ∈ startable nodes needs done) :
    Starts nodes needs (insert node done) (order.erase node) := by
  induction order generalizing done with
  | nil => trivial
  | cons first rest ih =>
      obtain ⟨firstReady, later⟩ := h
      by_cases same : first = node
      · rw [same, erase_cons_head]
        exact same ▸ later
      · rw [erase_cons_tail (by simpa using same), Starts, Finset.insert_comm]
        exact ⟨startable_insert firstReady same,
          ih later (startable_insert ready (Ne.symm same))⟩

/-- Everything that a listed node needs is done or stands before it. -/
theorem needs_subset (h : Starts nodes needs done (order ++ node :: rest)) :
    needs node ⊆ done ∪ order.toFinset := by
  induction order generalizing done with
  | nil =>
      rw [toFinset_nil, Finset.union_empty]
      exact (mem_startable.mp h.1).2.2
  | cons first order ih =>
      intro need mem
      have := ih h.2 mem
      simp only [Finset.mem_union, Finset.mem_insert, toFinset_cons] at this ⊢
      tauto

end Starts

/-- A list starts its nodes in turn if each is a fresh node whose needs stand before it. -/
theorem starts_of_needs_subset (nodup : order.Nodup) (inside : order.toFinset ⊆ nodes \ done)
    (before : ∀ first node rest, order = first ++ node :: rest →
      needs node ⊆ done ∪ first.toFinset) : Starts nodes needs done order := by
  induction order generalizing done with
  | nil => trivial
  | cons node rest ih =>
      obtain ⟨absent, nodup⟩ := nodup_cons.mp nodup
      have here : node ∈ nodes \ done := inside (by simp)
      obtain ⟨mem, fresh⟩ := Finset.mem_sdiff.mp here
      refine ⟨mem_startable.mpr ⟨mem, fresh, by simpa using before [] node rest rfl⟩,
        ih nodup ?_ ?_⟩
      · intro other listed
        obtain ⟨mem, fresh⟩ := Finset.mem_sdiff.mp
          (inside (by rw [toFinset_cons]; exact Finset.mem_insert_of_mem listed))
        refine Finset.mem_sdiff.mpr ⟨mem, ?_⟩
        rw [Finset.mem_insert, not_or]
        refine ⟨?_, fresh⟩
        rintro rfl
        exact absent (mem_toFinset.mp listed)
      · rintro first other later rfl
        have := before (node :: first) other later rfl
        rw [toFinset_cons, Finset.union_insert] at this
        rwa [Finset.insert_union]

namespace Completes

theorem iff_length (h : Starts nodes needs done order) :
    Completes nodes needs done order ↔ order.length = (nodes \ done).card := by
  obtain ⟨nodup, inside⟩ := h.fresh
  rw [Completes, and_iff_right h, ← toFinset_card_of_nodup nodup]
  constructor
  · intro all
    refine congrArg Finset.card (inside.antisymm fun node mem => ?_)
    obtain ⟨mem, fresh⟩ := Finset.mem_sdiff.mp mem
    exact (Finset.mem_union.mp (all mem)).resolve_left fresh
  · intro card
    have same := Finset.eq_of_subset_of_card_le inside card.ge
    rw [same, Finset.union_sdiff_self_eq_union]
    exact Finset.subset_union_right

/-- From the beginning, a complete list is one of all nodes in which every node stands after the
nodes that it needs. -/
theorem iff_respects : Completes nodes needs ∅ order ↔
    order.Nodup ∧ order.toFinset = nodes ∧
      ∀ first node rest, order = first ++ node :: rest → needs node ⊆ first.toFinset := by
  constructor
  · rintro ⟨starts, all⟩
    obtain ⟨nodup, inside⟩ := starts.fresh
    rw [Finset.empty_union] at all
    rw [Finset.sdiff_empty] at inside
    refine ⟨nodup, inside.antisymm all, ?_⟩
    rintro first node rest rfl
    simpa using starts.needs_subset
  · rintro ⟨nodup, same, before⟩
    refine ⟨starts_of_needs_subset nodup ?_ ?_, ?_⟩
    · rw [same, Finset.sdiff_empty]
    · simpa using before
    · rw [same, Finset.empty_union]

theorem advance (h : Completes nodes needs done order)
    (ready : node ∈ startable nodes needs done) :
    Completes nodes needs (insert node done) (order.erase node) := by
  refine ⟨h.1.advance ready, fun other mem => ?_⟩
  have := h.2 mem
  simp only [Finset.mem_union, Finset.mem_insert, mem_toFinset] at this ⊢
  by_cases same : other = node
  · exact .inl (.inl same)
  · rw [mem_erase_of_ne same]
    tauto

theorem mem_of_startable (h : Completes nodes needs done order)
    (ready : node ∈ startable nodes needs done) : node ∈ order := by
  obtain ⟨mem, fresh, -⟩ := mem_startable.mp ready
  exact mem_toFinset.mp ((Finset.mem_union.mp (h.2 mem)).resolve_left fresh)

end Completes

/-! ### The smallest node first -/

theorem smallestFirst_starts (fuel : Nat) (done : Finset α) :
    Starts nodes needs done (smallestFirst nodes needs fuel done) := by
  induction fuel generalizing done with
  | zero => trivial
  | succ fuel ih =>
      rw [smallestFirst]
      split
      · exact ⟨Finset.min'_mem .., ih _⟩
      · trivial

theorem smallestFirst_least (h : Completes nodes needs done order) (enough : order.length ≤ fuel) :
    Completes nodes needs done (smallestFirst nodes needs fuel done) ∧
      (smallestFirst nodes needs fuel done = order ∨
        List.Lex (· < ·) (smallestFirst nodes needs fuel done) order) := by
  induction fuel generalizing done order with
  | zero =>
      obtain rfl := length_eq_zero_iff.mp (Nat.le_zero.mp enough)
      exact ⟨h, .inl rfl⟩
  | succ fuel ih =>
      rw [smallestFirst]
      cases order with
      | nil =>
          rw [dif_neg]
          · exact ⟨h, .inl rfl⟩
          · rintro ⟨node, ready⟩
            exact absurd (h.mem_of_startable ready) not_mem_nil
      | cons first rest =>
          have firstReady : first ∈ startable nodes needs done := h.1.1
          rw [dif_pos ⟨first, firstReady⟩]
          obtain ⟨node, is_min⟩ : ∃ node,
              node = (startable nodes needs done).min' ⟨first, firstReady⟩ := ⟨_, rfl⟩
          have ready : node ∈ startable nodes needs done := is_min ▸ Finset.min'_mem ..
          have least : node ≤ first := is_min ▸ Finset.min'_le _ first firstReady
          rw [← is_min]
          have advanced := h.advance ready
          have shorter : ((first :: rest).erase node).length ≤ fuel := by
            rw [length_erase_of_mem (h.mem_of_startable ready)]
            exact Nat.sub_le_of_le_add enough
          obtain ⟨complete, smallest⟩ := ih advanced shorter
          refine ⟨⟨⟨ready, complete.1⟩, ?_⟩, ?_⟩
          · have := complete.2
            rw [Finset.insert_union] at this
            rwa [toFinset_cons, Finset.union_insert]
          · obtain same | below := least.eq_or_lt
            · obtain rfl := same
              rw [erase_cons_head] at smallest
              exact smallest.imp (congrArg _) .cons
            · exact .inr (.rel below)

/-- The list of the smallest nodes has one place for every node that was not done exactly when
some list is complete. -/
theorem length_smallestFirst_iff (enough : (nodes \ done).card ≤ fuel) :
    (smallestFirst nodes needs fuel done).length = (nodes \ done).card ↔
      ∃ order, Completes nodes needs done order := by
  constructor
  · intro full
    exact ⟨_, (Completes.iff_length (smallestFirst_starts fuel done)).mpr full⟩
  · rintro ⟨order, complete⟩
    have short := complete.1.length_le.trans enough
    exact (Completes.iff_length (smallestFirst_starts fuel done)).mp
      (smallestFirst_least complete short).1

/-! ### Cycles -/

variable (nodes needs) in
/-- No node needs itself, directly or through others. -/
def Acyclic : Prop :=
  ∀ node, ¬ Relation.TransGen (fun need node => node ∈ nodes ∧ need ∈ needs node) node node

/-- As long as something is left to do, a graph without a cycle lets some node start. -/
theorem Acyclic.exists_startable (h : Acyclic nodes needs)
    (closed : ∀ node ∈ nodes, needs node ⊆ nodes) (left : (nodes \ done).Nonempty) :
    (startable nodes needs done).Nonempty := by
  by_contra stuck
  let Rest := { node // node ∈ nodes \ done }
  let below : Rest → Rest → Prop :=
    Relation.TransGen fun need node => need.val ∈ needs node.val
  have lift {a b : Rest} (path : below a b) :
      Relation.TransGen (fun need node => node ∈ nodes ∧ need ∈ needs node) a.val b.val :=
    path.lift Subtype.val fun _ b step => ⟨(Finset.mem_sdiff.mp b.property).1, step⟩
  have : IsTrans Rest below := ⟨fun _ _ _ => Relation.TransGen.trans⟩
  have : Std.Irrefl below := ⟨fun node path => h node.val (lift path)⟩
  have : Finite Rest := inferInstanceAs (Finite { node // node ∈ nodes \ done })
  have wf : WellFounded below := Finite.wellFounded_of_trans_of_irrefl below
  obtain ⟨first, mem⟩ := left
  obtain ⟨node, -, least⟩ := wf.has_min Set.univ ⟨⟨first, mem⟩, trivial⟩
  obtain ⟨inside, fresh⟩ := Finset.mem_sdiff.mp node.property
  refine stuck ⟨node.val, mem_startable.mpr ⟨inside, fresh, fun need needed => ?_⟩⟩
  by_contra undone
  exact least ⟨need, Finset.mem_sdiff.mpr ⟨closed _ inside needed, undone⟩⟩ trivial (.single needed)

theorem Acyclic.exists_completes (h : Acyclic nodes needs)
    (closed : ∀ node ∈ nodes, needs node ⊆ nodes) (done : Finset α) :
    ∃ order, Completes nodes needs done order := by
  induction size : (nodes \ done).card generalizing done with
  | zero =>
      refine ⟨[], trivial, ?_⟩
      rw [toFinset_nil, Finset.union_empty]
      exact Finset.sdiff_eq_empty_iff_subset.mp (Finset.card_eq_zero.mp size)
  | succ left ih =>
      have some_left : (nodes \ done).Nonempty := Finset.card_pos.mp (by omega)
      obtain ⟨node, ready⟩ := h.exists_startable closed some_left
      obtain ⟨mem, fresh, -⟩ := mem_startable.mp ready
      have fewer : (nodes \ insert node done).card = left := by
        have := Finset.card_erase_of_mem (Finset.mem_sdiff.mpr ⟨mem, fresh⟩)
        rw [Finset.sdiff_insert, this, size, Nat.add_sub_cancel]
      obtain ⟨order, starts, all⟩ := ih (insert node done) fewer
      refine ⟨node :: order, ⟨ready, starts⟩, ?_⟩
      rwa [toFinset_cons, Finset.union_insert, ← Finset.insert_union]

/-- In a complete list every node stands behind what it needs. -/
theorem Completes.idxOf_lt (h : Completes nodes needs ∅ order) (mem : node ∈ nodes)
    (needed : other ∈ needs node) : order.idxOf other < order.idxOf node := by
  obtain ⟨nodup, same, before⟩ := Completes.iff_respects.mp h
  rw [← same, mem_toFinset] at mem
  obtain ⟨first, rest, rfl⟩ := append_of_mem mem
  have there : other ∈ first := mem_toFinset.mp (before first node rest rfl needed)
  have absent : node ∉ first := fun again =>
    disjoint_of_nodup_append nodup again mem_cons_self
  rw [idxOf_append_of_mem there, idxOf_append_of_notMem absent]
  exact (idxOf_lt_length_of_mem there).trans_le (Nat.le_add_right _ _)

theorem exists_completes_iff (closed : ∀ node ∈ nodes, needs node ⊆ nodes) :
    (∃ order, Completes nodes needs ∅ order) ↔ Acyclic nodes needs := by
  constructor
  · rintro ⟨order, complete⟩ node path
    have rises {a b : α}
        (path : Relation.TransGen (fun need node => node ∈ nodes ∧ need ∈ needs node) a b) :
        order.idxOf a < order.idxOf b := by
      induction path with
      | single step => exact complete.idxOf_lt step.1 step.2
      | tail _ step ih => exact ih.trans (complete.idxOf_lt step.1 step.2)
    exact (rises path).false
  · exact fun acyclic => acyclic.exists_completes closed ∅

/-! ### Counting down -/

section Kahn

variable (insertReady : α → List α → List α) (children : α → List α)

/-- One thing less that the child waits for; it is ready when there is nothing left. -/
def countDown (state : (α → Nat) × List α) (child : α) : (α → Nat) × List α :=
  let degree := Function.update state.1 child (state.1 child - 1)
  (degree, if degree child = 0 then insertReady child state.2 else state.2)

/-- The loop that takes the first ready node and counts its children down, for at most so many
rounds. -/
def kahn : Nat → (α → Nat) → List α → List α
  | 0, _, _ => []
  | _ + 1, _, [] => []
  | fuel + 1, degree, node :: ready =>
    let next := (children node).foldl (countDown insertReady) (degree, ready)
    node :: kahn fuel next.1 next.2

variable (nodes needs) in
/-- The degrees count what a node still waits for, and the ready nodes may start. -/
structure Tracks (done : Finset α) (degree : α → Nat) (ready : List α) : Prop where
  closed : ∀ node ∈ done, needs node ⊆ done
  sorted : ready.Pairwise (· < ·)
  mem_ready : ∀ node, node ∈ ready ↔ node ∈ startable nodes needs done
  degree_eq : ∀ node ∈ nodes, degree node = (needs node \ done).card

variable {insertReady children} {degree : α → Nat} {ready : List α}

theorem foldl_countDown (degree : α → Nat)
    (inserts : ∀ child ready, ready.Pairwise (· < ·) → child ∉ ready →
      (insertReady child ready).Pairwise (· < ·) ∧
        ∀ node, node ∈ insertReady child ready ↔ node = child ∨ node ∈ ready)
    {some : List α} (nodup : some.Nodup) (sorted : ready.Pairwise (· < ·))
    (apart : ∀ child ∈ some, child ∉ ready) :
    (∀ node, (some.foldl (countDown insertReady) (degree, ready)).1 node =
      if node ∈ some then degree node - 1 else degree node) ∧
    (some.foldl (countDown insertReady) (degree, ready)).2.Pairwise (· < ·) ∧
    ∀ node, node ∈ (some.foldl (countDown insertReady) (degree, ready)).2 ↔
      node ∈ ready ∨ node ∈ some ∧ degree node - 1 = 0 := by
  induction some generalizing degree ready with
  | nil => simpa using sorted
  | cons child some ih =>
      obtain ⟨fresh, nodup⟩ := nodup_cons.mp nodup
      obtain ⟨free, apart⟩ := forall_mem_cons.mp apart
      obtain ⟨kept, members⟩ := inserts child ready sorted free
      have others {node : α} (mem : node ∈ some) : node ≠ child := by
        rintro rfl
        exact fresh mem
      rw [foldl_cons, countDown]
      simp only [Function.update_self]
      by_cases zero : degree child - 1 = 0
      · rw [if_pos zero]
        obtain ⟨degrees, sorted, ready⟩ := ih _ nodup kept fun node mem => by
          rw [members, not_or]
          exact ⟨others mem, apart node mem⟩
        refine ⟨fun node => ?_, sorted, fun node => ?_⟩
        · rw [degrees]
          by_cases same : node = child
          · simp [same, fresh]
          · simp [same]
        · rw [ready, members, mem_cons]
          by_cases same : node = child
          · simp [same, zero]
          · simp [same]
      · rw [if_neg zero]
        obtain ⟨degrees, sorted, ready⟩ := ih _ nodup sorted apart
        refine ⟨fun node => ?_, sorted, fun node => ?_⟩
        · rw [degrees]
          by_cases same : node = child
          · simp [same, fresh]
          · simp [same]
        · rw [ready, mem_cons]
          by_cases same : node = child
          · simp [same, zero, fresh]
          · simp [same]

section

variable (inserts : ∀ child ready, ready.Pairwise (· < ·) → child ∉ ready →
  (insertReady child ready).Pairwise (· < ·) ∧
    ∀ node, node ∈ insertReady child ready ↔ node = child ∨ node ∈ ready)
include inserts

/-- One round of the loop: the first ready node is done. -/
theorem Tracks.round
    (tracks : Tracks nodes needs done degree (node :: ready))
    (nodup : (children node).Nodup)
    (mem_children : ∀ child, child ∈ children node ↔ child ∈ nodes ∧ node ∈ needs child) :
    Tracks nodes needs (insert node done)
      ((children node).foldl (countDown insertReady) (degree, ready)).1
      ((children node).foldl (countDown insertReady) (degree, ready)).2 := by
  obtain ⟨above, sorted⟩ := pairwise_cons.mp tracks.sorted
  have start := (tracks.mem_ready node).mp mem_cons_self
  obtain ⟨mem, fresh, met⟩ := mem_startable.mp start
  have absent : node ∉ ready := fun again => (above node again).false
  have waiting {child : α} (needed : node ∈ needs child) :
      child ∉ startable nodes needs done := fun ready =>
    fresh ((mem_startable.mp ready).2.2 needed)
  have apart : ∀ child ∈ children node, child ∉ ready := by
    intro child there ready
    exact waiting ((mem_children child).mp there).2
      ((tracks.mem_ready child).mp (mem_cons_of_mem _ ready))
  obtain ⟨degrees, sorted', members⟩ := foldl_countDown degree inserts nodup sorted apart
  have left (other : α) : needs other \ insert node done = (needs other \ done).erase node :=
    Finset.sdiff_insert ..
  have degree_eq : ∀ other ∈ nodes,
      ((children node).foldl (countDown insertReady) (degree, ready)).1 other =
        (needs other \ insert node done).card := by
    intro other inside
    rw [degrees, left, tracks.degree_eq other inside]
    by_cases needed : node ∈ needs other
    · rw [if_pos ((mem_children other).mpr ⟨inside, needed⟩),
        Finset.card_erase_of_mem (Finset.mem_sdiff.mpr ⟨needed, fresh⟩)]
    · rw [if_neg fun there => needed ((mem_children other).mp there).2, Finset.erase_eq_of_notMem]
      exact fun there => needed (Finset.mem_sdiff.mp there).1
  refine ⟨?_, sorted', fun other => ?_, degree_eq⟩
  · intro other finished
    obtain rfl | finished := Finset.mem_insert.mp finished
    · exact met.trans (Finset.subset_insert ..)
    · exact (tracks.closed other finished).trans (Finset.subset_insert ..)
  · rw [members]
    by_cases needed : node ∈ needs other
    · have free : other ∉ ready := fun ready =>
        waiting needed ((tracks.mem_ready other).mp (mem_cons_of_mem _ ready))
      have undone : other ∉ insert node done := by
        rw [Finset.mem_insert, not_or]
        refine ⟨?_, fun finished => fresh (tracks.closed other finished needed)⟩
        rintro rfl
        exact waiting needed start
      rw [mem_startable, mem_children, or_iff_right free]
      constructor
      · rintro ⟨there, zero⟩
        have := degree_eq other there.1
        rw [degrees, if_pos ((mem_children other).mpr there), zero] at this
        exact ⟨there.1, undone,
          Finset.sdiff_eq_empty_iff_subset.mp (Finset.card_eq_zero.mp this.symm)⟩
      · rintro ⟨inside, -, met⟩
        have := degree_eq other inside
        rw [degrees, if_pos ((mem_children other).mpr ⟨inside, needed⟩),
          Finset.sdiff_eq_empty_iff_subset.mpr met, Finset.card_empty] at this
        exact ⟨⟨inside, needed⟩, this⟩
    · have same : needs other ⊆ insert node done ↔ needs other ⊆ done :=
        Finset.subset_insert_iff_of_notMem needed
      have before := tracks.mem_ready other
      rw [mem_cons] at before
      rw [or_iff_left fun there => needed ((mem_children other).mp there.1).2, mem_startable, same,
        Finset.mem_insert, not_or]
      constructor
      · intro ready
        obtain ⟨inside, undone, met⟩ := mem_startable.mp (before.mp (.inr ready))
        refine ⟨inside, ⟨?_, undone⟩, met⟩
        rintro rfl
        exact absent ready
      · rintro ⟨inside, ⟨apart, undone⟩, met⟩
        exact (before.mpr (mem_startable.mpr ⟨inside, undone, met⟩)).resolve_left apart

/-- The loop lists the smallest nodes first. -/
theorem kahn_eq
    (nodup : ∀ node ∈ nodes, (children node).Nodup)
    (mem_children : ∀ node ∈ nodes, ∀ child,
      child ∈ children node ↔ child ∈ nodes ∧ node ∈ needs child)
    (tracks : Tracks nodes needs done degree ready) :
    kahn insertReady children fuel degree ready = smallestFirst nodes needs fuel done := by
  induction fuel generalizing done degree ready with
  | zero => rfl
  | succ fuel ih =>
      cases ready with
      | nil =>
          rw [kahn, smallestFirst, dif_neg]
          rintro ⟨node, start⟩
          exact absurd ((tracks.mem_ready node).mpr start) not_mem_nil
      | cons node ready =>
          have start := (tracks.mem_ready node).mp mem_cons_self
          have inside := (mem_startable.mp start).1
          have least : (startable nodes needs done).min' ⟨node, start⟩ = node := by
            refine le_antisymm (Finset.min'_le _ node start) (Finset.le_min' _ _ _ ?_)
            intro other also
            obtain rfl | later := mem_cons.mp ((tracks.mem_ready other).mpr also)
            · exact le_rfl
            · exact ((pairwise_cons.mp tracks.sorted).1 other later).le
          rw [kahn, smallestFirst, dif_pos ⟨node, start⟩, least]
          exact congrArg (node :: ·)
            (ih (tracks.round inserts (nodup node inside) (mem_children node inside)))

end

end Kahn

end Aegis.Foundation
