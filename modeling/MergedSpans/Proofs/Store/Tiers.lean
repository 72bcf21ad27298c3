import MergedSpans.Proofs.Store.Tidy
import Mathlib.Data.Set.Card
import Mathlib.Order.Bounds.Basic

/-! # Which tier serves

A pool serves an allocation from its slab as long as a slot of the slab is free, and then it takes
the first one; else it goes past the slab. Both tiers count their nodes, and an operator is warned
once in a pool's life.

* `Counters.servedBy`, `Counters.liveIn`, `Store.slotsIn` — the counters and the slots, by tier.
* `Store.liveIds`, `Store.freeSlots` — the ids of a tier that reach a node, and the slots under which
  none does.
* `Store.Sound.encard_liveIn` — the counters tell how many ids of each tier reach a node.
* `Pool.Sound.allocate_cases` — which tier serves the next allocation.
* `Gauge.Warned`, `warned_perform`, `warned_after` — the warning was told once if an allocation has
  gone past the slab; one call keeps that, and so do calls of any number.
* `first_free_slot_serves` — all of this, after any calls.
-/

namespace MergedSpans

open MergedSpans.Action

/-- Is the event the warning that a slab has no free slot? -/
def Event.isExhausted : Event → Bool
  | exhausted .. => true
  | merging .. | deleting .. | trimming .. | splitting .. | clearing .. | spilled .. | retiring ..
  | oversubscribed .. | claimed .. => false

namespace Counters

/-- The number of allocations that a tier has served. -/
def servedBy (counters : Counters) : Tier → Nat
  | .slab => counters.poolHits
  | .heap => counters.heapFallbacks

/-- The number of nodes that live in a tier. -/
def liveIn (counters : Counters) : Tier → Nat
  | .slab => counters.livePool
  | .heap => counters.liveHeap

end Counters

namespace Store

/-- The slots of a tier; a table on its own has no slab. -/
def slotsIn : Store → Tier → Array Slot
  | .heap _, .slab => #[]
  | .heap table, .heap => table.slots
  | .pool slab, .slab => slab.slots
  | .pool slab, .heap => slab.overflow.slots

/-- The ids of a tier that reach a node. -/
def liveIds (store : Store) (tier : Tier) : Set NodeId :=
  { id | id.tier = tier ∧ (store.get? id).isSome }

/-- The slots of the slab under which no id reaches a node. -/
def freeSlots (store : Store) : Set Nat :=
  { index | index < store.counters.capacity
    ∧ ∀ generation, store.get? ⟨.slab, index, generation⟩ = none }

end Store

/-! ## Nodes by tier -/

/-- As many ids reach a node as there are nodes in the slots. -/
theorem Slots.encard_bound (tier : Tier) (slots : Array Slot) :
    { id | (bound tier slots id).isSome }.encard = liveCount slots := by
  have listed : { id | (bound tier slots id).isSome } = ↑(roster tier slots).toFinset := by
    ext id
    rw [List.coe_toFinset]
    exact mem_roster_iff.symm
  rw [listed, Set.encard_coe_eq_coe_finsetCard, List.toFinset_card_of_nodup (nodup_roster _ _),
    length_roster]

namespace Store

variable {store : Store}

/-- An id is looked up in the slots of its tier. -/
theorem get?_eq_bound (store : Store) (id : NodeId) :
    store.get? id = Slots.bound id.tier (store.slotsIn id.tier) id := by
  cases store with
  | heap table =>
    refine (congrFun table.get?_eq_bound id).trans ?_
    cases onTier : id.tier with
    | slab => simp [Slots.bound, slotsIn, onTier]
    | heap => rfl
  | pool slab =>
    cases onTier : id.tier with
    | slab => exact slab.get?_of_slab onTier
    | heap => exact (slab.get?_of_heap onTier).trans (congrFun slab.overflow.get?_eq_bound id)

/-- The ids of a tier that reach a node do so in its slots. -/
theorem liveIds_eq (store : Store) (tier : Tier) :
    store.liveIds tier = { id | (Slots.bound tier (store.slotsIn tier) id).isSome } := by
  ext id
  constructor
  · rintro ⟨rfl, reached⟩
    rwa [get?_eq_bound] at reached
  · intro reached
    obtain ⟨node, found⟩ := Option.isSome_iff_exists.mp reached
    obtain rfl := (Slots.bound_eq_some_iff.mp found).1
    refine ⟨rfl, ?_⟩
    rwa [get?_eq_bound]

/-- A store in order tells how many ids of each tier reach a node. -/
theorem Sound.encard_liveIn (sound : store.Sound) (tier : Tier) :
    (store.liveIds tier).encard = store.counters.liveIn tier := by
  have counted : store.counters.liveIn tier = Slots.liveCount (store.slotsIn tier) := by
    cases store with
    | heap table =>
      cases tier with
      | slab => rfl
      | heap => exact Heap.Sound.live_eq sound
    | pool slab =>
      cases tier with
      | slab => exact Pool.Sound.live_eq sound
      | heap => exact (Pool.Sound.overflow sound).live_eq
  rw [liveIds_eq, Slots.encard_bound, counted]

end Store

namespace Pool

variable {slab : Pool} {index : Nat}

/-- A pool in order tells how many ids of each tier reach a node, and those of the slab fit into
it. -/
theorem Sound.encard_liveIds (sound : slab.Sound) :
    ((Store.pool slab).liveIds .slab).encard = slab.counters.livePool
      ∧ slab.counters.livePool ≤ slab.counters.capacity
      ∧ ((Store.pool slab).liveIds .heap).encard = slab.counters.liveHeap := by
  have inOrder : (Store.pool slab).Sound := sound
  have counted : slab.counters.livePool = Slots.liveCount slab.slots := sound.live_eq
  refine ⟨inOrder.encard_liveIn .slab, ?_, inOrder.encard_liveIn .heap⟩
  rw [counted]
  exact Array.countP_le_size

/-! ## The next allocation -/

/-- In a pool in order a slot is free if it is vacant. -/
theorem Sound.mem_freeSlots_iff (sound : slab.Sound) :
    index ∈ (Store.pool slab).freeSlots
      ↔ ∃ slot, slab.slots[index]? = some slot ∧ slot.content = .vacant := by
  have reached : ∀ generation, (Store.pool slab).get? ⟨.slab, index, generation⟩
      = Slots.bound .slab slab.slots ⟨.slab, index, generation⟩ :=
    fun generation => @get?_of_slab slab ⟨.slab, index, generation⟩ rfl
  constructor
  · rintro ⟨inside, unreached⟩
    have present : slab.slots[index]? = some slab.slots[index] := Array.getElem?_eq_getElem inside
    refine ⟨_, present, ?_⟩
    cases content : slab.slots[index].content with
    | vacant => rfl
    | retired => exact absurd content (sound.bounded _ _ present).1
    | occupied node =>
      -- The id with the present generation of the slot reaches the node.
      have none := unreached slab.slots[index].generation
      rw [reached] at none
      have found : Slots.bound .slab slab.slots ⟨.slab, index, slab.slots[index].generation⟩
          = some node := by
        refine Slots.bound_eq_some_iff.mpr ⟨rfl, present.trans ?_⟩
        rw [← content]
      rw [none] at found
      cases found
  · rintro ⟨slot, present, vacant⟩
    refine ⟨(Array.getElem?_eq_some_iff.mp present).1, fun generation => ?_⟩
    rw [reached, Option.eq_none_iff_forall_ne_some]
    intro node found
    have occupied := (Slots.bound_eq_some_iff.mp found).2
    rw [present] at occupied
    rw [Option.some.inj occupied] at vacant
    cases vacant

/-- A node that is put into a slot is one more in the slab, and one more hit. -/
theorem counters_occupyAt (slab : Pool) (index : Nat) (span : Span) :
    (slab.occupyAt index span).counters = { slab.counters with
      livePool := slab.counters.livePool + 1
      poolHits := slab.counters.poolHits + 1 } := by
  simp [counters, occupyAt, capacity]

/-- A node that the overflow takes is one more there, and one more fallback. -/
theorem counters_spillInto (slab : Pool) {overflow : Heap}
    (counted : overflow.live = slab.overflow.live + 1) :
    (slab.spillInto overflow).counters = { slab.counters with
      liveHeap := slab.counters.liveHeap + 1
      heapFallbacks := slab.counters.heapFallbacks + 1 } := by
  simp [counters, spillInto, capacity, counted]

/-- An allocation takes the first free slot. Where no slot is free it goes to the overflow. -/
theorem Sound.allocate_cases (sound : slab.Sound)
    (few : slab.hits + slab.fallbacks < Arithmetic.halfLimit) (span : Span) :
    (∃ index generation, IsLeast (Store.pool slab).freeSlots index
        ∧ (allocate span).Yields slab ⟨.slab, index, generation⟩ (slab.occupyAt index span) [])
      ∨ (Store.pool slab).freeSlots = ∅ ∧ ∃ id overflow, id.tier = .heap
        ∧ overflow.live = slab.overflow.live + 1
        ∧ (allocate span).Yields slab id (slab.spillInto overflow)
          (slab.spillNote ++ [.spilled span id]) := by
  cases first : slab.firstFree? with
  | some index =>
    obtain ⟨⟨slot, present, vacant⟩, taken⟩ := firstFree?_eq_some sound.marks first
    refine .inl ⟨index, slot.generation, ⟨?_, fun other free => ?_⟩,
      allocate_occupies first present span⟩
    · exact sound.mem_freeSlots_iff.mpr ⟨slot, present, vacant⟩
    · by_contra before
      obtain ⟨found, there, isVacant⟩ := sound.mem_freeSlots_iff.mp free
      obtain ⟨same, alsoThere, notVacant⟩ := taken other (Nat.not_le.mp before)
      rw [there] at alsoThere
      exact notVacant (Option.some.inj alsoThere ▸ isVacant)
  | none =>
    obtain ⟨id, overflow, yields, -, onHeap, -, ledger⟩ :=
      Heap.allocate_yields sound.overflow (sound.overflow_few few) span
    refine .inr ⟨Set.eq_empty_iff_forall_notMem.mpr fun index free => ?_, id, overflow, onHeap,
      congrArg Ledger.live ledger, allocate_spills first yields⟩
    obtain ⟨slot, present, vacant⟩ := sound.mem_freeSlots_iff.mp free
    exact firstFree?_eq_none sound.marks first present vacant

end Pool

/-! ## The warning -/

/-- The warning was told just once if an allocation has gone past the slab, and never if none
has. -/
structure Gauge.Warned (gauge : Gauge) (events : List Event) : Prop where
  /-- The store knows whether an allocation has gone past the slab. -/
  spilled_eq : gauge.spilled = decide (gauge.fallbacks ≠ 0)
  /-- The warning was told if so. -/
  told_eq : events.filter Event.isExhausted
    = if gauge.fallbacks = 0 then [] else [.exhausted gauge.capacity]

namespace Pool

variable {slab : Pool} {events : List Event} {α : Type}

/-- The warning stays in step when the action is taken, and the slab has as many slots as before. -/
def StaysWarned (slab : Pool) (events : List Event) (action : Action Pool α) : Prop :=
  (action.run slab).state.capacity = slab.capacity
    ∧ (action.run slab).state.gauge.Warned (events ++ (action.run slab).events)

/-- What an allocation past the slab tells is the warning, unless that was told before. -/
theorem spillNote_eq (warned : slab.gauge.Warned events) :
    slab.spillNote = if slab.fallbacks = 0 then [.exhausted slab.capacity] else [] := by
  have passed : slab.spilled = decide (slab.fallbacks ≠ 0) := warned.spilled_eq
  rw [spillNote, passed]
  by_cases none : slab.fallbacks = 0 <;> simp [none]

/-- An allocation keeps the warning in step, whichever tier serves it. -/
theorem Sound.staysWarned_allocate (sound : slab.Sound)
    (few : slab.hits + slab.fallbacks < Arithmetic.halfLimit) (warned : slab.gauge.Warned events)
    (span : Span) : slab.StaysWarned events (allocate span) := by
  unfold StaysWarned
  rcases sound.allocate_cases few span with
    ⟨index, generation, -, yields⟩ | ⟨-, id, overflow, -, -, yields⟩
  · unfold Yields at yields
    have capacity_eq : (slab.occupyAt index span).capacity = slab.capacity := Array.size_modify
    rw [yields, List.append_nil]
    refine ⟨capacity_eq, warned.spilled_eq, warned.told_eq.trans ?_⟩
    simp only [gauge, capacity_eq]
    rfl
  · unfold Yields at yields
    rw [yields]
    refine ⟨rfl, (decide_eq_true (Nat.succ_ne_zero _)).symm, ?_⟩
    -- Either the warning was told before, or it is told now.
    rw [List.filter_append, List.filter_append, warned.told_eq, spillNote_eq warned]
    by_cases none : slab.fallbacks = 0 <;>
      simp [gauge, spillInto, capacity, none, Event.isExhausted]

/-- A change that is no allocation and tells nothing keeps the warning in step. -/
theorem staysWarned_of_keeps {action : Action Pool α} (moves : action.Moves (Keeps gauge))
    (silent : (action.run slab).events = []) (warned : slab.gauge.Warned events) :
    slab.StaysWarned events action := by
  have kept : (action.run slab).state.gauge = slab.gauge := moves slab
  refine ⟨congrArg Gauge.capacity kept, ?_⟩
  rw [silent, List.append_nil, kept]
  exact warned

section Silent

variable (sound : slab.Sound) (few : slab.hits + slab.fallbacks < Arithmetic.halfLimit)

include sound

theorem Sound.write_silent (id : NodeId) (change : Node → Node) :
    ((write id change).run slab).events = [] := by
  cases answer : slab.node id with
  | error fault => exact congrArg Outcome.events (write_refuses answer change)
  | ok node =>
    obtain ⟨after, yields, -⟩ := write_yields sound (get?_eq_some_iff.mpr answer) change
    exact congrArg Outcome.events yields

include few

theorem Sound.release_silent (id : NodeId) : ((release id).run slab).events = [] := by
  cases answer : slab.node id with
  | error fault => exact congrArg Outcome.events (release_refuses answer)
  | ok node =>
    obtain ⟨after, yields, -⟩ := release_yields sound few (get?_eq_some_iff.mpr answer)
    exact congrArg Outcome.events yields

theorem Sound.reset_silent : (reset.run slab).events = [] := by
  obtain ⟨after, yields, -⟩ := reset_yields sound few
  exact congrArg Outcome.events yields

end Silent

end Pool

namespace Store

variable {slab : Pool} {events : List Event}

/-- The warning stays in step when the action is taken on a pool, which stays a pool with a slab of as
many slots. -/
def StaysWarned {α : Type} (slab : Pool) (events : List Event) (action : Action Store α) : Prop :=
  ∃ after, (action.run (.pool slab)).state = .pool after ∧ after.capacity = slab.capacity
    ∧ after.gauge.Warned (events ++ (action.run (.pool slab)).events)

/-- A change of a store, answered in whatever form, does to a pool what the change of pools does. -/
theorem staysWarned_of_pool {α β : Type} {onHeap : Action Heap α} {onPool : Action Pool α}
    (form : α → β) (stays : slab.StaysWarned events onPool) :
    StaysWarned slab events (byKind onHeap onPool >>= fun value => pure (form value)) := by
  unfold StaysWarned
  rw [run_bind_pure]
  exact ⟨_, rfl, stays⟩

/-- One call keeps the warning in step. -/
theorem warned_perform (sound : slab.Sound)
    (few : slab.hits + slab.fallbacks < Arithmetic.halfLimit) (warned : slab.gauge.Warned events)
    (call : Call) : StaysWarned slab events (perform call) := by
  cases call with
  | allocate span =>
    exact staysWarned_of_pool Reply.given (sound.staysWarned_allocate few warned span)
  | release id =>
    exact staysWarned_of_pool (fun _ => Reply.done)
      (Pool.staysWarned_of_keeps (Pool.moves_release id) (sound.release_silent few id) warned)
  | get id =>
    unfold StaysWarned perform
    rw [run_bind_pure]
    exact ⟨slab, rfl, rfl, (List.append_nil events).symm ▸ warned⟩
  | write id change =>
    exact staysWarned_of_pool (fun _ => Reply.done)
      (Pool.staysWarned_of_keeps (Pool.moves_write id change) (sound.write_silent id change) warned)
  | reset =>
    exact staysWarned_of_pool (fun _ => Reply.done)
      (Pool.staysWarned_of_keeps Pool.moves_reset (sound.reset_silent few) warned)

/-- Calls of any number leave a pool in order, which has counted the allocations among them. -/
theorem IsFresh.sound_after {start : Store} (fresh : start.IsFresh) (calls : List Call)
    (few : calls.countP Call.allocates < Arithmetic.halfLimit) :
    (Action.after perform calls start).Sound
      ∧ (Action.after perform calls start).allocations = calls.countP Call.allocates := by
  have agrees := fresh.agrees.after calls (by simpa [Log.allocations] using few)
  exact ⟨agrees.sound, agrees.allocations_eq.trans (allocations_log calls start)⟩

/-- After calls of any number a pool has as many slots as it was made with, and the warning is in
step. -/
theorem warned_after (slots : Nat) (calls : List Call)
    (few : calls.countP Call.allocates < Arithmetic.halfLimit) :
    ∃ slab, Action.after perform calls (.pool (.ofSlots slots)) = .pool slab
      ∧ slab.capacity = slots
      ∧ slab.gauge.Warned (Action.events perform calls (.pool (.ofSlots slots))) := by
  have fresh : (Store.pool (.ofSlots slots)).IsFresh := .inr ⟨slots, rfl⟩
  -- Induction on the calls, from the last one back: it is made on the pool that the others left.
  induction calls using List.reverseRecOn with
  | nil => exact ⟨.ofSlots slots, rfl, Array.size_replicate, rfl, rfl⟩
  | append_singleton made call induction =>
    have fewBefore : made.countP Call.allocates < Arithmetic.halfLimit := by
      rw [List.countP_append] at few
      omega
    obtain ⟨slab, reached, capacity_eq, warned⟩ := induction fewBefore
    obtain ⟨sound, counted⟩ := fresh.sound_after made fewBefore
    rw [reached] at sound counted
    have room : slab.hits + slab.fallbacks < Arithmetic.halfLimit := counted.trans_lt fewBefore
    obtain ⟨after, state_eq, kept, stays⟩ := warned_perform sound room warned call
    refine ⟨after, ?_, kept.trans capacity_eq, ?_⟩
    · rw [after_append, reached]
      exact state_eq
    · rw [events_append, reached, events_cons]
      simpa [Action.events, Action.outcomes] using stays

/-! ## Main result -/

/-- A pool of any number of slots after any calls, fewer than 2 ^ 32 of them allocations. The next
allocation is served by the first slot of the slab that is free, as a hit; only where no slot is free
is it served past the slab, as a fallback, and told to be so. The counters tell how many ids of each
tier reach a node. The warning that the slab has no free slot was told once if an allocation has gone
past the slab, and never if none has. -/
theorem first_free_slot_serves (slots : Nat) (calls : List Call) (span : Span)
    (few : calls.countP Call.allocates < Arithmetic.halfLimit) :
    let store := Action.after perform calls (.pool (.ofSlots slots))
    let told := Action.events perform calls (.pool (.ofSlots slots))
    let counters := store.counters
    ((∃ index generation after, IsLeast store.freeSlots index
          ∧ (allocate span).Yields store ⟨.slab, index, generation⟩ after []
          ∧ after.counters = { counters with
            livePool := counters.livePool + 1
            poolHits := counters.poolHits + 1 })
        ∨ store.freeSlots = ∅ ∧ ∃ id after, id.tier = .heap
          ∧ (allocate span).Yields store id after
            ((if counters.heapFallbacks = 0 then [.exhausted slots] else [])
              ++ [.spilled span id])
          ∧ after.counters = { counters with
            liveHeap := counters.liveHeap + 1
            heapFallbacks := counters.heapFallbacks + 1 })
      ∧ counters.capacity = slots ∧ counters.livePool ≤ slots
      ∧ (store.liveIds .slab).encard = counters.livePool
      ∧ (store.liveIds .heap).encard = counters.liveHeap
      ∧ told.filter Event.isExhausted
        = if counters.heapFallbacks = 0 then [] else [.exhausted slots] := by
  have fresh : (Store.pool (.ofSlots slots)).IsFresh := .inr ⟨slots, rfl⟩
  obtain ⟨slab, reached, rfl, warned⟩ := warned_after slots calls few
  obtain ⟨sound, counted⟩ := fresh.sound_after calls few
  rw [reached] at sound counted ⊢
  have room : slab.hits + slab.fallbacks < Arithmetic.halfLimit := counted.trans_lt few
  obtain ⟨livePool, fits, liveHeap⟩ := Pool.Sound.encard_liveIds sound
  intro store told counters
  refine ⟨?_, rfl, fits, livePool, liveHeap, warned.told_eq⟩
  rcases Pool.Sound.allocate_cases sound room span with
    ⟨index, generation, isLeast, yields⟩ | ⟨full, id, overflow, onHeap, counted, yields⟩
  · exact .inl ⟨index, generation, .pool (slab.occupyAt index span), isLeast,
      yields_byKind_pool yields, slab.counters_occupyAt index span⟩
  · rw [Pool.spillNote_eq warned] at yields
    exact .inr ⟨full, id, .pool (slab.spillInto overflow), onHeap, yields_byKind_pool yields,
      slab.counters_spillInto counted⟩

/-- A slab with one slot more than a word of its bitmap has places is filled and gone past twice, with
a reset in between. Then the last slot is released, whose place is in the second word. -/
theorem first_free_slot_serves_in_second_word :
    let calls : List Call := List.replicate 66 (.allocate ⟨0, 1⟩)
      ++ .reset :: List.replicate 66 (.allocate ⟨0, 1⟩) ++ [.release ⟨.slab, 64, 1⟩]
    let store := Action.after perform calls (.pool (.ofSlots 65))
    calls.countP Call.allocates < Arithmetic.halfLimit
      ∧ IsLeast store.freeSlots 64 ∧ store.counters = ⟨65, 64, 1, 130, 2⟩
      ∧ (∃ after, (allocate ⟨2, 3⟩).Yields store ⟨.slab, 64, 2⟩ after []
        ∧ after.counters = ⟨65, 65, 1, 131, 2⟩)
      ∧ (Action.events perform calls (.pool (.ofSlots 65))).filter Event.isExhausted = [.exhausted 65] := by
  intro calls store
  have few : calls.countP Call.allocates < Arithmetic.halfLimit := by decide +kernel
  have counted : store.counters = ⟨65, 64, 1, 130, 2⟩ := by decide +kernel
  have given : ((allocate ⟨2, 3⟩).run store).answer = .ok ⟨.slab, 64, 2⟩ := by decide +kernel
  obtain ⟨served, -, -, -, -, told⟩ := first_free_slot_serves 65 calls ⟨2, 3⟩ few
  rw [counted] at told served
  refine ⟨few, ?_⟩
  rcases served with ⟨index, generation, after, isLeast, yields, counters⟩
    | ⟨-, id, after, onHeap, yields, -⟩
  · obtain ⟨-, rfl, rfl⟩ := NodeId.mk.inj (Except.ok.inj (yields.answer_eq.symm.trans given))
    exact ⟨isLeast, counted, ⟨after, yields, counters⟩, told⟩
  · obtain rfl := Except.ok.inj (yields.answer_eq.symm.trans given)
    cases onHeap

end Store

end MergedSpans
