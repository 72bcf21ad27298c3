import MergedSpans.Proofs.Store.Tiers

/-! # A reset, node by node

A reset goes over the slots and empties those in use. A release looks one id up and empties the slot
that it names. Taken in the order of the slots, the releases of all nodes come to the same: the same
slots, the same list of free ones and the same counters.

* `NodeId.Before`, `Store.pairwise_roster` — the order of the slots, and the ids of all nodes in it.
* `Heap.Sound.forM_release_yields`, `Pool.Sound.forM_release_yields` — the releases of the nodes at
  some positions do to a growing table, and to a slab, what a reset does at those positions.
* `Sound.releases_yield` — the releases of all nodes of a store.
* `reset_as_releases` — the two ways after any calls, and the calls after them.
-/

namespace MergedSpans

open MergedSpans.Action

/-! ## Ids in the order of their slots -/

/-- The slab comes before the growing table, and in either the slots come in ascending order. -/
def NodeId.Before (first second : NodeId) : Prop :=
  first.tier = .slab ∧ second.tier = .heap
    ∨ first.tier = second.tier ∧ first.index < second.index

namespace Slots

variable {tier : Tier} {slots : Array Slot} {index : Nat} {id : NodeId}

/-- The id of a node at a position is the present one of a slot in use. -/
theorem occupantAt?_eq_some_iff :
    occupantAt? tier slots index = some id
      ↔ ∃ slot, slots[index]? = some slot ∧ slot.isLive = true ∧ idAt tier index slot = id := by
  unfold occupantAt? occupant?
  rw [Option.bind_eq_some_iff]
  simp

/-- A position without an id has no node. -/
theorem not_liveAt_of_occupantAt?_eq_none (none : occupantAt? tier slots index = none) :
    ¬ LiveAt slots index := by
  intro live
  have named : (occupantAt? tier slots index).isSome := isSome_occupantAt?.mpr live
  rw [none] at named
  cases named

/-- Emptying a slot leaves the ids at all other positions. -/
theorem filterMap_occupantAt?_vacate (tier : Tier) (slots : Array Slot) {indices : List Nat}
    (outside : index ∉ indices) :
    indices.filterMap (occupantAt? tier (slots.modify index Slot.vacate))
      = indices.filterMap (occupantAt? tier slots) := by
  refine List.filterMap_congr fun other member => ?_
  unfold occupantAt?
  rw [Array.getElem?_modify, if_neg]
  rintro rfl
  exact outside member

/-- The ids of the nodes in a tier come in the order of their slots. -/
theorem pairwise_roster (tier : Tier) (slots : Array Slot) :
    (roster tier slots).Pairwise NodeId.Before := by
  rw [roster_eq]
  refine List.pairwise_lt_range.filterMap _ fun lower upper below first named second other => ?_
  obtain ⟨slot, -, -, rfl⟩ := occupantAt?_eq_some_iff.mp named
  obtain ⟨slot, -, -, rfl⟩ := occupantAt?_eq_some_iff.mp other
  exact .inr ⟨rfl, below⟩

/-- They are ids of that tier. -/
theorem tier_of_mem_roster (member : id ∈ roster tier slots) : id.tier = tier := by
  obtain ⟨node, found⟩ := Option.isSome_iff_exists.mp (mem_roster_iff.mp member)
  exact (bound_eq_some_iff.mp found).1

end Slots

/-- The ids of all nodes come in the order of their slots. -/
theorem Store.pairwise_roster (store : Store) : store.roster.Pairwise NodeId.Before := by
  cases store with
  | heap table => exact Slots.pairwise_roster .heap table.slots
  | pool slab =>
    refine List.pairwise_append.mpr
      ⟨Slots.pairwise_roster .slab _, Slots.pairwise_roster .heap _, ?_⟩
    intro first onSlab second onHeap
    exact .inl ⟨Slots.tier_of_mem_roster onSlab, Slots.tier_of_mem_roster onHeap⟩

/-! ## A growing table -/

namespace Heap

variable {heap : Heap} {index : Nat} {slot : Slot}

/-- Emptying slots does not look at the count. -/
theorem foldl_vacateLive_withLive (heap : Heap) (live : Nat) (indices : List Nat) :
    indices.foldl vacateLive (heap.withLive live)
      = (indices.foldl vacateLive heap).withLive live := by
  induction indices generalizing heap with
  | nil => rfl
  | cons index rest induction =>
    have once : (heap.withLive live).vacateLive index = (heap.vacateLive index).withLive live := by
      unfold vacateLive withLive
      split <;> rfl
    rw [List.foldl_cons, once, induction, List.foldl_cons]

/-- A reset empties every slot in use, and there are no nodes left to count. -/
theorem reset_eq (heap : Heap) :
    heap.reset = ((List.range heap.slots.size).foldl vacateLive heap).withLive 0 := rfl

/-- The present id of a slot in use releases what a reset empties there, and the table stays in
order. -/
theorem Sound.release_vacatesLive (sound : heap.Sound)
    (few : heap.allocations < Arithmetic.halfLimit) (present : heap.slots[index]? = some slot)
    (live : slot.isLive = true) :
    (release (Slots.idAt .heap index slot)).Yields heap ()
        ((heap.vacateLive index).withLive (heap.live - 1)) []
      ∧ ((heap.vacateLive index).withLive (heap.live - 1)).Sound := by
  obtain ⟨node, found⟩ : ∃ node, heap.get? (Slots.idAt .heap index slot) = some node := by
    rw [get?_eq_bound]
    exact Option.isSome_iff_exists.mp (Slots.isSome_bound_of_live .heap present live)
  obtain ⟨after, same, kept, -, positive⟩ := release_yields sound few found
  have yields := release_vacates found positive
  rw [vacateLive_of_live ⟨slot, present, live⟩]
  exact ⟨yields, (yields.unique same).2.1 ▸ kept⟩

/-- The releases of the nodes at some positions empty the slots there, and count the nodes off. -/
theorem Sound.forM_release_yields (sound : heap.Sound)
    (few : heap.allocations < Arithmetic.halfLimit) {indices : List Nat} {ids : List NodeId}
    (distinct : indices.Nodup)
    (named : indices.filterMap (Slots.occupantAt? .heap heap.slots) = ids) :
    (ids.forM release).Yields heap ()
      ((indices.foldl vacateLive heap).withLive (heap.live - ids.length)) [] := by
  -- Induction on the positions: the slots at those ahead are as they were.
  induction indices generalizing heap ids with
  | nil =>
    subst named
    exact yields_pure _ _
  | cons index rest induction =>
    obtain ⟨outside, distinct⟩ := List.nodup_cons.mp distinct
    rw [List.foldl_cons]
    cases occupant : Slots.occupantAt? .heap heap.slots index with
    | none =>
      have empty := Slots.not_liveAt_of_occupantAt?_eq_none occupant
      rw [List.filterMap_cons_none occupant] at named
      rw [vacateLive_of_empty empty]
      exact induction sound few distinct named
    | some id =>
      obtain ⟨slot, present, live, rfl⟩ := Slots.occupantAt?_eq_some_iff.mp occupant
      obtain ⟨yields, kept⟩ := sound.release_vacatesLive few present live
      have allocations_eq : (heap.vacateLive index).allocations = heap.allocations :=
        (sound.toRegular.vacateLive few index .heap).2.1
      have ahead : rest.filterMap (Slots.occupantAt? .heap (heap.vacateLive index).slots)
          = rest.filterMap (Slots.occupantAt? .heap heap.slots) := by
        rw [vacateLive_of_live ⟨slot, present, live⟩]
        exact Slots.filterMap_occupantAt?_vacate .heap heap.slots outside
      have others := induction kept (allocations_eq.trans_lt few) distinct ahead
      rw [foldl_vacateLive_withLive] at others
      rw [List.filterMap_cons_some occupant] at named
      subst named
      rw [List.length_cons, Nat.add_comm, ← Nat.sub_sub]
      exact yields.silent_bind others

/-- The releases of all nodes come to a reset. -/
theorem Sound.releases_yield (sound : heap.Sound) (few : heap.allocations < Arithmetic.halfLimit) :
    ((Slots.roster .heap heap.slots).forM release).Yields heap () heap.reset [] := by
  have yields := sound.forM_release_yields few List.nodup_range
    (Slots.roster_eq .heap heap.slots).symm
  rwa [Slots.length_roster, ← sound.live_eq, Nat.sub_self, ← reset_eq] at yields

end Heap

/-! ## A pool -/

namespace Pool

variable {pool after : Pool} {index : Nat} {slot : Slot}

/-- The present id of a slot in use releases what a reset empties there. -/
theorem run_release_eq (present : pool.slots[index]? = some slot) (live : slot.isLive = true) :
    (release (Slots.idAt .slab index slot)).run pool = (vacateLive index).run pool := by
  obtain ⟨node, found⟩ :=
    Option.isSome_iff_exists.mp (Slots.isSome_bound_of_live .slab present live)
  rw [← pool.get?_of_slab rfl] at found
  have answered : (Action.read fun pool : Pool => pool.node (Slots.idAt .slab index slot)).Yields
      pool node pool [] := yields_read (get?_eq_some_iff.mp found)
  rw [run_vacateLive_of_live ⟨slot, present, live⟩]
  exact answered.run_bind fun _ => vacate index

/-- The releases of the nodes at some positions of the slab do what a reset does there. -/
theorem Sound.forM_release_yields (sound : pool.Sound) (few : pool.hits < Arithmetic.halfLimit)
    {indices : List Nat} {ids : List NodeId} (distinct : indices.Nodup)
    (named : indices.filterMap (Slots.occupantAt? .slab pool.slots) = ids)
    (yields : (indices.forM vacateLive).Yields pool () after []) :
    (ids.forM release).Yields pool () after [] := by
  -- Induction on the positions: the slots at those ahead are as they were.
  induction indices generalizing pool ids with
  | nil =>
    subst named
    exact yields
  | cons index rest induction =>
    obtain ⟨outside, distinct⟩ := List.nodup_cons.mp distinct
    obtain ⟨_, between, first, others⟩ := yields.of_bind
    cases occupant : Slots.occupantAt? .slab pool.slots index with
    | none =>
      have empty := Slots.not_liveAt_of_occupantAt?_eq_none occupant
      obtain rfl : between = pool := (first.unique (vacateLive_skips empty)).2.1
      rw [List.filterMap_cons_none occupant] at named
      exact induction sound few distinct named others
    | some id =>
      obtain ⟨slot, present, live, rfl⟩ := Slots.occupantAt?_eq_some_iff.mp occupant
      obtain ⟨emptied, vacated, kept, slots_eq, ledger, -⟩ := vacate_yields sound few present live
      have looked := (run_vacateLive_of_live ⟨slot, present, live⟩).trans vacated
      obtain rfl : between = emptied := (first.unique looked).2.1
      have hits_eq : between.hits = pool.hits := congrArg Ledger.allocations ledger
      have ahead := Slots.filterMap_occupantAt?_vacate .slab pool.slots outside
      rw [← slots_eq] at ahead
      rw [List.filterMap_cons_some occupant] at named
      subst named
      have released : (release (Slots.idAt .slab index slot)).Yields pool () between [] :=
        (run_release_eq present live).trans first
      exact released.silent_bind (induction kept (hits_eq.trans_lt few) distinct ahead others)

/-- The releases of nodes of the overflow do in the pool what they do in the overflow. -/
theorem forM_release_overflow {ids : List NodeId} {overflow : Heap}
    (onHeap : ∀ id ∈ ids, id.tier = .heap)
    (yields : (ids.forM Heap.release).Yields pool.overflow () overflow []) :
    (ids.forM release).Yields pool () { pool with overflow } [] := by
  refine Yields.forM_place (fun overflow => { pool with overflow }) ?_ yields
  intro id member part after released
  unfold release
  rw [onHeap id member]
  exact Yields.within released

/-- The releases of all nodes, those of the slab first, come to a reset. -/
theorem Sound.releases_yield (sound : pool.Sound)
    (few : pool.hits + pool.fallbacks < Arithmetic.halfLimit) :
    ∃ after, reset.Yields pool () after []
      ∧ ((Store.pool pool).roster.forM release).Yields pool () after [] := by
  have fewHits : pool.hits < Arithmetic.halfLimit := by omega
  obtain ⟨between, emptied, left⟩ :=
    forM_vacateLive_yields sound fewHits (List.range pool.capacity)
  have slab := sound.forM_release_yields fewHits List.nodup_range
    (Slots.roster_eq .slab pool.slots).symm emptied
  have overflow := left.sound.overflow.releases_yield
    (left.overflow_eq ▸ sound.overflow_few few)
  have others := forM_release_overflow (fun id => Slots.tier_of_mem_roster) overflow
  rw [left.overflow_eq] at others
  refine ⟨{ between with overflow := pool.overflow.reset }, ?_, ?_⟩
  · apply Yields.silent_bind (yields_current _)
    refine emptied.silent_bind (Yields.within (yields_update ?_))
    rw [left.overflow_eq]
  · exact slab.forM_append others

end Pool

/-! ## Either kind -/

namespace Store

/-- The releases of all nodes of a store come to a reset. -/
theorem Sound.releases_yield {store : Store} (sound : store.Sound)
    (few : store.allocations < Arithmetic.halfLimit) :
    ∃ emptied, reset.Yields store () emptied []
      ∧ (store.roster.forM release).Yields store () emptied [] := by
  cases store with
  | heap table =>
    refine ⟨.heap table.reset, yields_byKind_heap (yields_update rfl), ?_⟩
    refine Yields.forM_place Store.heap (fun id _ part after => yields_byKind_heap) ?_
    exact Heap.Sound.releases_yield sound (allocations_heap table ▸ few)
  | pool slab =>
    obtain ⟨emptied, reset, releases⟩ := Pool.Sound.releases_yield sound few
    refine ⟨.pool emptied, yields_byKind_pool reset, ?_⟩
    exact Yields.forM_place Store.pool (fun id _ part after => yields_byKind_pool) releases

/-- A reset of a store, after any calls of which fewer than 2 ^ 32 were allocations, and the releases
of the ids that reach a node, one after another: those of the slab first, and in either tier in
ascending order. The releases are all served, they tell as little as the reset does, and the store
that they leave is the one that it leaves, with every slot, the list of free ones and the counters. So
all calls that are made after the releases have the outcomes that they have after the reset. -/
theorem reset_as_releases {start : Store} (fresh : start.IsFresh) (calls : List Call)
    (few : calls.countP Call.allocates < Arithmetic.halfLimit) :
    let store := Action.after perform calls start
    let releases := store.roster.map Call.release
    store.roster.Pairwise NodeId.Before
      ∧ (∀ id, id ∈ store.roster ↔ (store.get? id).isSome)
      ∧ (∀ outcome ∈ Action.outcomes perform releases store,
        outcome.answer = .ok .done ∧ outcome.events = [])
      ∧ (perform .reset).Yields store .done (Action.after perform releases store) []
      ∧ ∀ later, (Action.outcomes perform (releases ++ later) store).drop releases.length
        = (Action.outcomes perform (.reset :: later) store).tail := by
  intro store releases
  obtain ⟨sound, counted⟩ := fresh.sound_after calls few
  obtain ⟨emptied, reset, released⟩ := sound.releases_yield (counted.trans_lt few)
  have performs : ∀ id, perform (.release id) = release id >>= fun _ => pure Reply.done :=
    fun id => rfl
  obtain ⟨served, left⟩ := released.outcomes_map performs
  have called : (perform .reset).Yields store .done emptied [] :=
    reset.silent_bind (yields_pure _ _)
  refine ⟨store.pairwise_roster, fun id => mem_roster_iff, served, left ▸ called, fun later => ?_⟩
  rw [outcomes_append, List.drop_left' (length_outcomes _ _), left, outcomes, List.tail_cons,
    called.state_eq]

/-- A pool of two slots with two more nodes in its overflow, after one of the nodes in either tier
was put in anew. -/
theorem reset_as_releases_in_pool :
    let start : Store := .pool (.ofSlots 2)
    let calls : List Call := [.allocate ⟨0, 1⟩, .allocate ⟨2, 3⟩, .allocate ⟨4, 5⟩,
      .allocate ⟨6, 7⟩, .release ⟨.heap, 0, 0⟩, .release ⟨.slab, 1, 0⟩, .allocate ⟨8, 9⟩,
      .allocate ⟨10, 11⟩]
    let store := Action.after perform calls start
    let ids : List NodeId := [⟨.slab, 0, 0⟩, ⟨.slab, 1, 1⟩, ⟨.heap, 0, 1⟩, ⟨.heap, 1, 0⟩]
    start.IsFresh ∧ calls.countP Call.allocates < Arithmetic.halfLimit ∧ store.roster = ids
      ∧ (perform .reset).Yields store .done
        (Action.after perform (ids.map Call.release) store) [] := by
  intro start calls store ids
  have fresh : start.IsFresh := .inr ⟨2, rfl⟩
  have few : calls.countP Call.allocates < Arithmetic.halfLimit := by decide
  have listed : store.roster = ids := by decide +kernel
  obtain ⟨-, -, -, called, -⟩ := reset_as_releases fresh calls few
  refine ⟨fresh, few, listed, ?_⟩
  rwa [← listed]

end Store

end MergedSpans
