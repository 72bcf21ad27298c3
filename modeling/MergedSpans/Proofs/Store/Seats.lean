import MergedSpans.Proofs.Store.Peak
import MergedSpans.Proofs.Store.Staleness

/-! # Stores that no node has left

A store counts the allocations that each of its tiers has served, and no tier gives out more ids than
that. So in a store with as many nodes as allocations every id that was ever given out still reaches
its node. No slot of it was ever emptied: the nodes sit in the first slots of the slab, in the order
in which they came, and behind them in the first slots of the growing table.

* `Store.Tallied`, `closed_tallies` — every id given out was counted by its tier; no change of a store
  makes that wrong.
* `Tallied.isSome_of_issued`, `Tallied.allocate_first` — a store with as many nodes as allocations, and
  the next allocation in it.
* `Store.seat` — the id that the nodes get one after another, as long as none of them leaves.
* `Store.Seated`, `Seated.counters_eq` — a store with its nodes at the first seats, and its counters.
* `Seated.allocate_answer` — the next node gets the next seat.
-/

namespace MergedSpans

open MergedSpans.Action

namespace Store

variable {store : Store} {id : NodeId} {slots count : Nat}

/-! ## Ids and allocations, by tier -/

/-- The ids of a tier that were ever given out. -/
def issuedIn (store : Store) (tier : Tier) : Set NodeId :=
  { id | id.tier = tier ∧ id ∈ store.ledger.issued }

/-- The store is in order, and no tier has given out more ids than it has served allocations. -/
structure Tallied (store : Store) : Prop where
  /-- The store is in order. -/
  sound : store.Sound
  /-- Every id that was given out was counted. -/
  issued_le : ∀ tier, (store.issuedIn tier).encard ≤ store.counters.servedBy tier

/-- A store that was never used has given out nothing. -/
theorem IsFresh.tallied (fresh : store.IsFresh) : store.Tallied where
  sound := fresh.sound
  issued_le := by
    intro tier
    have none : store.issuedIn tier = ∅ := by
      rw [issuedIn, fresh.ledger_eq]
      exact Set.eq_empty_of_forall_notMem fun id issued => issued.2
    rw [none, Set.encard_empty]
    exact zero_le

/-- An allocation is served, and counted, by the first free slot of the slab, or by the growing table
if no slot is free. -/
theorem Sound.allocate_serves (sound : store.Sound)
    (few : store.allocations < Arithmetic.halfLimit) (span : Span) :
    ∃ id after events, (allocate span).Yields store id after events
      ∧ (∀ tier, after.counters.servedBy tier
        = store.counters.servedBy tier + if id.tier = tier then 1 else 0)
      ∧ after.counters.capacity = store.counters.capacity
      ∧ (id.tier = .slab → IsLeast store.freeSlots id.index)
      ∧ (id.tier = .heap → store.freeSlots = ∅) := by
  cases store with
  | heap table =>
    obtain ⟨id, after, yields, -, onHeap, -, ledger⟩ :=
      Heap.allocate_yields sound (allocations_heap table ▸ few) span
    have counted : after.allocations = table.allocations + 1 := congrArg Ledger.allocations ledger
    refine ⟨id, .heap after, [], yields_byKind_heap yields, fun tier => ?_, rfl, ?_, fun _ => ?_⟩
    · rw [onHeap]
      cases tier with
      | slab => rfl
      | heap => exact counted
    · rw [onHeap]
      exact fun elsewhere => Tier.noConfusion elsewhere
    · exact Set.eq_empty_of_forall_notMem fun index free => Nat.not_lt_zero index free.1
  | pool slab =>
    rcases Pool.Sound.allocate_cases sound few span with
      ⟨index, generation, isLeast, yields⟩ | ⟨full, id, overflow, onHeap, counted, yields⟩
    · have counters : (Store.pool (slab.occupyAt index span)).counters = _ :=
        slab.counters_occupyAt index span
      refine ⟨_, .pool (slab.occupyAt index span), [], yields_byKind_pool yields, fun tier => ?_, ?_,
        fun _ => isLeast, fun elsewhere => ?_⟩
      · rw [counters]
        cases tier <;> rfl
      · rw [counters]
        rfl
      · cases elsewhere
    · have counters : (Store.pool (slab.spillInto overflow)).counters = _ :=
        slab.counters_spillInto counted
      refine ⟨id, .pool (slab.spillInto overflow), _, yields_byKind_pool yields, fun tier => ?_, ?_,
        ?_, fun _ => full⟩
      · rw [counters, onHeap]
        cases tier <;> rfl
      · rw [counters]
        rfl
      · rw [onHeap]
        exact fun elsewhere => Tier.noConfusion elsewhere

/-! ## Changes -/

/-- One store is an earlier state of another, and the tally of the one is carried on in the other. -/
structure Tallies (before after : Store) : Prop where
  /-- Allocations are never taken back. -/
  allocations_le : before.allocations ≤ after.allocations
  /-- With few allocations in the end, the later store is tallied as the earlier one was, and has as
  many slots in its slab. -/
  tallied : before.Tallied → after.allocations < Arithmetic.halfLimit →
    after.Tallied ∧ after.counters.capacity = before.counters.capacity

instance : Std.Refl Tallies := ⟨fun _ => ⟨Nat.le_refl _, fun tallied _ => ⟨tallied, rfl⟩⟩⟩

instance : IsTrans Store Tallies where
  trans _ _ _ first second := by
    refine ⟨first.allocations_le.trans second.allocations_le, fun tallied few => ?_⟩
    obtain ⟨tallied, kept⟩ := first.tallied tallied (second.allocations_le.trans_lt few)
    obtain ⟨tallied, keptAgain⟩ := second.tallied tallied few
    exact ⟨tallied, keptAgain.trans kept⟩

/-- An allocation gives out one id and counts it. -/
theorem moves_tallies_allocate (span : Span) : (allocate span).Moves Tallies := by
  intro store
  refine ⟨moves_allocate span store, fun tallied few => ?_⟩
  have fewBefore := Nat.lt_of_le_of_lt (moves_allocate span store) few
  obtain ⟨id, after, events, yields, served, capacity_eq, -⟩ :=
    tallied.sound.allocate_serves fewBefore span
  obtain ⟨same, _, _, yieldsSame, sound, -, ledger, -⟩ :=
    allocate_yields tallied.sound fewBefore span
  obtain ⟨rfl, rfl, rfl⟩ := yields.unique yieldsSame
  rw [yields.state_eq]
  refine ⟨⟨sound, fun tier => ?_⟩, capacity_eq⟩
  have issued : after.ledger.issued = Insert.insert id store.ledger.issued :=
    congrArg Ledger.issued ledger
  rw [served]
  split
  · -- The tier that serves the allocation gives out the new id.
    have within : after.issuedIn tier ⊆ Insert.insert id (store.issuedIn tier) := by
      rintro other ⟨onTier, given⟩
      rw [issued] at given
      exact given.imp_right fun given => ⟨onTier, given⟩
    rw [Nat.cast_add, Nat.cast_one]
    exact (Set.encard_le_encard within).trans
      ((Set.encard_insert_le _ _).trans (add_le_add_left (tallied.issued_le tier) 1))
  · next elsewhere =>
    have within : after.issuedIn tier ⊆ store.issuedIn tier := by
      rintro other ⟨onTier, given⟩
      rw [issued] at given
      refine ⟨onTier, given.resolve_left ?_⟩
      rintro rfl
      exact elsewhere onTier
    exact (Set.encard_le_encard within).trans (tallied.issued_le tier)

/-- A change that gives out nothing and is no allocation carries the tally on. -/
theorem moves_tallies_of_keeps {action : Action Store Unit} (keeps : action.Moves (Keeps gauge))
    (precedes : action.Moves Precedes)
    (issued : ∀ store : Store, store.Sound → store.allocations < Arithmetic.halfLimit →
      (action.run store).state.ledger.issued = store.ledger.issued) : action.Moves Tallies := by
  intro store
  have kept : (action.run store).state.gauge = store.gauge := keeps store
  have ascends := (precedes store).allocations_le
  refine ⟨ascends, fun tallied few => ?_⟩
  refine ⟨⟨((precedes store).inherits tallied.sound few).sound, fun tier => ?_⟩,
    congrArg Gauge.capacity kept⟩
  have served : (action.run store).state.counters.servedBy tier = store.counters.servedBy tier := by
    cases tier with
    | slab => exact congrArg Gauge.hits kept
    | heap => exact congrArg Gauge.fallbacks kept
  rw [served, issuedIn, issued store tallied.sound (ascends.trans_lt few)]
  exact tallied.issued_le tier

theorem issued_release (sound : store.Sound) (few : store.allocations < Arithmetic.halfLimit)
    (id : NodeId) : ((release id).run store).state.ledger.issued = store.ledger.issued := by
  cases found : store.get? id with
  | none =>
    obtain ⟨fault, refuses⟩ := release_refuses found
    rw [refuses.state_eq]
  | some node =>
    obtain ⟨after, yields, -, ledger⟩ := release_yields sound few found
    rw [yields.state_eq, ledger]
    rfl

theorem issued_write (sound : store.Sound) (id : NodeId) (change : Node → Node) :
    ((write id change).run store).state.ledger.issued = store.ledger.issued := by
  cases found : store.get? id with
  | none =>
    obtain ⟨fault, refuses⟩ := write_refuses found change
    rw [refuses.state_eq]
  | some node =>
    obtain ⟨after, yields, -, ledger⟩ := write_yields sound found change
    rw [yields.state_eq, ledger]
    rfl

theorem issued_reset (sound : store.Sound) (few : store.allocations < Arithmetic.halfLimit) :
    (reset.run store).state.ledger.issued = store.ledger.issued := by
  obtain ⟨after, yields, -, ledger⟩ := reset_yields sound few
  rw [yields.state_eq, ledger]
  rfl

/-- Every change of a store carries the tally on. -/
theorem closed_tallies : Closed Tallies where
  allocate := moves_tallies_allocate
  release := fun id => moves_tallies_of_keeps (moves_release id) (closed_precedes.release id)
    fun _ sound few => issued_release sound few id
  write := fun id change => moves_tallies_of_keeps (moves_write id change)
    (closed_precedes.write id change) fun _ sound _ => issued_write sound id change
  reset := moves_tallies_of_keeps moves_reset closed_precedes.reset fun _ sound few =>
    issued_reset sound few

/-! ## As many nodes as allocations -/

section Complete

variable (tallied : store.Tallied) (complete : store.live = store.allocations)

/-- Only ids that were given out reach a node. -/
theorem liveIds_subset_issuedIn (store : Store) (tier : Tier) :
    store.liveIds tier ⊆ store.issuedIn tier := by
  rintro id ⟨onTier, reached⟩
  obtain ⟨node, found⟩ := Option.isSome_iff_exists.mp reached
  exact ⟨onTier, mem_issued_of_get? found⟩

/-- A tallied store has no more nodes in a tier than it has served allocations there. -/
theorem Tallied.liveIn_le (tallied : store.Tallied) (tier : Tier) :
    store.counters.liveIn tier ≤ store.counters.servedBy tier := by
  have bound := (Set.encard_le_encard (store.liveIds_subset_issuedIn tier)).trans
    (tallied.issued_le tier)
  rw [tallied.sound.encard_liveIn] at bound
  exact Nat.cast_le.mp bound

include tallied complete

/-- If no node has left the store, none has left any of its tiers. -/
theorem Tallied.liveIn_eq (tier : Tier) :
    store.counters.liveIn tier = store.counters.servedBy tier := by
  have inSlab := tallied.liveIn_le .slab
  have inTable := tallied.liveIn_le .heap
  unfold live allocations at complete
  cases tier <;> simp only [Counters.liveIn, Counters.servedBy] at inSlab inTable ⊢ <;> omega

/-- If no node has left the store, every id that was given out still reaches one. -/
theorem Tallied.isSome_of_issued (issued : id ∈ store.ledger.issued) : (store.get? id).isSome := by
  have counted := tallied.sound.encard_liveIn id.tier
  have listed := tallied.issued_le id.tier
  rw [← tallied.liveIn_eq complete, ← counted] at listed
  have same := (Set.finite_of_encard_eq_coe counted).eq_of_subset_of_encard_le
    (store.liveIds_subset_issuedIn id.tier) listed
  have member : id ∈ store.issuedIn id.tier := ⟨rfl, issued⟩
  rw [← same] at member
  exact member.2

end Complete

/-- What was given out under some generation of a slot was given out under its first one before. -/
theorem first_mem_issued (issued : id ∈ store.ledger.issued) :
    { id with generation := 0 } ∈ store.ledger.issued := by
  have first {tier : Tier} {slots : Array Slot} (given : id ∈ Slots.issued tier slots) :
      { id with generation := 0 } ∈ Slots.issued tier slots := by
    obtain ⟨onTier, slot, present, less⟩ := given
    exact ⟨onTier, slot, present, Nat.zero_lt_of_lt less⟩
  cases store with
  | heap table => exact first issued
  | pool slab => exact issued.imp first first

/-- A slot is reached under one generation at a time. -/
theorem generation_eq {other : UInt32} (reached : (store.get? id).isSome)
    (reachedToo : (store.get? { id with generation := other }).isSome) : id.generation = other := by
  obtain ⟨node, found⟩ := Option.isSome_iff_exists.mp reached
  obtain ⟨same, foundToo⟩ := Option.isSome_iff_exists.mp reachedToo
  rw [get?_eq_bound] at found foundToo
  have present := (Slots.bound_eq_some_iff.mp found).2
  have presentToo := (Slots.bound_eq_some_iff.mp foundToo).2
  exact congrArg Slot.generation (Option.some.inj (present.symm.trans presentToo))

/-- If no node has left the store, every slot is at its first generation. -/
theorem Tallied.generation_eq_zero (tallied : store.Tallied)
    (complete : store.live = store.allocations) (issued : id ∈ store.ledger.issued) :
    id.generation = 0 :=
  generation_eq (tallied.isSome_of_issued complete issued)
    (tallied.isSome_of_issued complete (first_mem_issued issued))

/-- An id of the growing table names a slot that an allocation of that tier has added. -/
theorem Sound.index_lt (sound : store.Sound) (issued : id ∈ store.ledger.issued)
    (onHeap : id.tier = .heap) : id.index < store.counters.heapFallbacks := by
  refine (index_lt_of_issued issued onHeap).trans_le ?_
  cases store with
  | heap table =>
    have inOrder : table.Sound := sound
    exact inOrder.size_le
  | pool slab =>
    have counted : slab.counters.heapFallbacks = slab.overflow.allocations :=
      Pool.Sound.fallbacks_eq sound
    exact (Pool.Sound.overflow sound).size_le.trans counted.ge

/-- If no node has left the store, an allocation gives out the first id of a slot: of the first free
one of the slab, or else of one of the growing table, which has no more slots than it has served
allocations. -/
theorem Tallied.allocate_first (tallied : store.Tallied) (complete : store.live = store.allocations)
    (few : store.allocations + 1 < Arithmetic.halfLimit) (span : Span) :
    ∃ id after events, (allocate span).Yields store id after events ∧ store.get? id = none
      ∧ id.generation = 0
      ∧ (id.tier = .slab → IsLeast store.freeSlots id.index)
      ∧ (id.tier = .heap → store.freeSlots = ∅ ∧ id.index ≤ store.counters.heapFallbacks) := by
  have room : store.allocations < Arithmetic.halfLimit := by omega
  obtain ⟨id, after, events, yields, served, -, onSlab, onHeap⟩ :=
    tallied.sound.allocate_serves room span
  obtain ⟨same, _, _, yieldsSame, -, new, ledger, -⟩ := allocate_yields tallied.sound room span
  obtain ⟨rfl, rfl, rfl⟩ := yields.unique yieldsSame
  have issued : id ∈ after.ledger.issued := by
    rw [ledger]
    exact Set.mem_insert _ _
  have allocated : after.allocations = store.allocations + 1 := congrArg Ledger.allocations ledger
  have entered : after.live = store.live + 1 := congrArg Ledger.live ledger
  -- The new node has not left either, so what holds of the store before holds of it afterwards.
  have tallies := moves_tallies_allocate span store
  rw [yields.state_eq] at tallies
  obtain ⟨afterTallied, -⟩ := tallies.tallied tallied (allocated ▸ few)
  refine ⟨id, after, events, yields, get?_eq_none_of_not_issued new,
    afterTallied.generation_eq_zero (by rw [allocated, entered, complete]) issued, onSlab,
    fun inTable => ⟨onHeap inTable, ?_⟩⟩
  have below := afterTallied.sound.index_lt issued inTable
  have counted : after.counters.heapFallbacks = store.counters.heapFallbacks + 1 := by
    have served := served .heap
    rwa [if_pos inTable] at served
  rw [counted] at below
  exact Nat.le_of_lt_succ below

/-! ## Seats -/

/-- The id of the node that comes with a given number, as long as no node leaves: first those of the
slab, then those of the growing table. -/
def seat (slots index : Nat) : NodeId :=
  if index < slots then ⟨.slab, index, 0⟩ else ⟨.heap, index - slots, 0⟩

section Seat

variable {index : Nat}

theorem seat_of_lt (inside : index < slots) : seat slots index = ⟨.slab, index, 0⟩ := if_pos inside

theorem seat_of_le (past : slots ≤ index) : seat slots index = ⟨.heap, index - slots, 0⟩ :=
  if_neg (Nat.not_lt.mpr past)

/-- No two nodes get the same seat. -/
theorem seat_injective (slots : Nat) : Function.Injective (seat slots) := by
  intro first second same
  unfold seat at same
  split at same <;> split at same <;> simp only [NodeId.mk.injEq, reduceCtorEq, false_and] at same
  · exact same.2.1
  · omega

/-- The seats in the slab are the first ones. -/
theorem seat_eq_slab_iff {place : Nat} {generation : UInt32} :
    seat slots index = ⟨.slab, place, generation⟩
      ↔ index < slots ∧ index = place ∧ generation = 0 := by
  unfold seat
  split <;> simp [*, eq_comm]

end Seat

/-- A store with so many slots in its slab, which a number of nodes have entered and none has left;
they sit at the first seats. -/
structure Seated (slots count : Nat) (store : Store) : Prop where
  /-- The ids of the store were counted by its tiers. -/
  tallied : store.Tallied
  /-- The slab has so many slots. -/
  capacity_eq : store.counters.capacity = slots
  /-- So many nodes have entered. -/
  allocations_eq : store.allocations = count
  /-- They sit at the first seats. -/
  reached : ∀ id, (store.get? id).isSome ↔ ∃ index < count, seat slots index = id

namespace Seated

variable {index : Nat} (seated : store.Seated slots count)

include seated

theorem live_eq : store.live = count := by
  have distinct : ((List.range count).map (seat slots)).Nodup :=
    List.nodup_range.map (seat_injective slots)
  have counted := length_eq_roster distinct fun id => by
    rw [seated.reached, List.mem_map]
    simp only [List.mem_range]
  rw [seated.tallied.sound.live_eq, ← counted, List.length_map, List.length_range]

/-- No node has left. -/
theorem complete : store.live = store.allocations := seated.live_eq.trans seated.allocations_eq.symm

/-- The slots of the slab behind the seats are free. -/
theorem mem_freeSlots_iff : index ∈ store.freeSlots ↔ count ≤ index ∧ index < slots := by
  constructor
  · rintro ⟨inside, unreached⟩
    rw [seated.capacity_eq] at inside
    refine ⟨Nat.not_lt.mp fun taken => ?_, inside⟩
    have reached := (seated.reached ⟨.slab, index, 0⟩).mpr ⟨index, taken, seat_of_lt inside⟩
    rw [unreached] at reached
    cases reached
  · rintro ⟨past, inside⟩
    refine ⟨seated.capacity_eq ▸ inside, fun generation => ?_⟩
    refine Option.not_isSome_iff_eq_none.mp fun reached => ?_
    obtain ⟨other, taken, same⟩ := (seated.reached _).mp reached
    obtain ⟨-, rfl, -⟩ := seat_eq_slab_iff.mp same
    omega

/-- The nodes of the slab sit at the seats that it has slots for. -/
theorem liveIds_slab :
    store.liveIds .slab = seat slots '' ↑(Finset.range (min count slots)) := by
  ext id
  simp only [Set.mem_image, Finset.mem_coe, Finset.mem_range, lt_min_iff]
  constructor
  · rintro ⟨onSlab, reached⟩
    obtain ⟨index, taken, rfl⟩ := (seated.reached id).mp reached
    refine ⟨index, ⟨taken, Nat.not_le.mp fun past => ?_⟩, rfl⟩
    rw [seat_of_le past] at onSlab
    cases onSlab
  · rintro ⟨index, ⟨taken, inside⟩, rfl⟩
    exact ⟨congrArg NodeId.tier (seat_of_lt inside), (seated.reached _).mpr ⟨index, taken, rfl⟩⟩

/-- The slab takes as many nodes as it has slots, and the growing table takes those that are left. -/
theorem counters_eq :
    store.counters
      = ⟨slots, min count slots, count - min count slots, min count slots,
          count - min count slots⟩ := by
  have livePool : store.counters.livePool = min count slots := by
    have counted := seated.tallied.sound.encard_liveIn .slab
    rw [seated.liveIds_slab, (seat_injective slots).encard_image, Set.encard_coe_eq_coe_finsetCard,
      Finset.card_range] at counted
    exact (Nat.cast_inj.mp counted).symm
  have hits : store.counters.livePool = store.counters.poolHits :=
    seated.tallied.liveIn_eq seated.complete .slab
  have fallbacks : store.counters.liveHeap = store.counters.heapFallbacks :=
    seated.tallied.liveIn_eq seated.complete .heap
  have total : store.counters.poolHits + store.counters.heapFallbacks = count := seated.allocations_eq
  have parts : store.counters = ⟨store.counters.capacity, store.counters.livePool,
      store.counters.liveHeap, store.counters.poolHits, store.counters.heapFallbacks⟩ := rfl
  rw [parts, seated.capacity_eq, Counters.mk.injEq]
  omega

/-- The next node gets the next seat. -/
theorem allocate_answer (few : count + 1 < Arithmetic.halfLimit) (span : Span) :
    ((allocate span).run store).answer = .ok (seat slots count) := by
  obtain ⟨⟨tier, index, generation⟩, after, events, yields, new, first, onSlab, onHeap⟩ :=
    seated.tallied.allocate_first seated.complete (by rwa [seated.allocations_eq]) span
  obtain rfl : generation = 0 := first
  rw [yields.answer_eq]
  cases tier with
  | slab =>
    obtain ⟨free, least⟩ := onSlab rfl
    obtain ⟨past, inside⟩ := seated.mem_freeSlots_iff.mp free
    have room : count < slots := past.trans_lt inside
    have before := least (seated.mem_freeSlots_iff.mpr ⟨Nat.le_refl count, room⟩)
    rw [seat_of_lt room, past.antisymm before]
  | heap =>
    obtain ⟨none, below⟩ := onHeap rfl
    have below : index ≤ store.counters.heapFallbacks := below
    have full : slots ≤ count := by
      by_contra room
      have free := seated.mem_freeSlots_iff.mpr ⟨Nat.le_refl count, Nat.not_le.mp room⟩
      rw [none] at free
      exact free
    -- The seats of the growing table up to here are taken.
    have behind : count - slots ≤ index := by
      by_contra taken
      have sits : seat slots (slots + index) = ⟨.heap, index, 0⟩ := by
        rw [seat_of_le (Nat.le_add_right _ _), Nat.add_sub_cancel_left]
      have reached := (seated.reached ⟨.heap, index, 0⟩).mpr ⟨slots + index, by omega, sits⟩
      rw [new] at reached
      cases reached
    have counted : store.counters.heapFallbacks = count - min count slots :=
      congrArg Counters.heapFallbacks seated.counters_eq
    obtain rfl : index = count - slots := by omega
    rw [seat_of_le full]

end Seated

end Store

end MergedSpans
