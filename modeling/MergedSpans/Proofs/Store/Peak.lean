import MergedSpans.Proofs.Store.Tiers

/-! # How far a table grows

A growing table adds a slot only when a node is in every slot that it has. So it has as many slots as
it ever had nodes at the same time, however many nodes were put in and taken out. The table may be a
store of its own or the overflow of a pool.

* `Store.table`, `Store.loads` — the growing table of a store, and the numbers of nodes that it has
  held at the moments of a run.
* `Heap.Sound.mem_free_iff`, `Heap.Sound.live_add_free` — every slot is in use or listed as free, and
  none is both.
* `Heap.Swells` — a table has grown no further than its nodes need.
* `Sound.perform_swells`, `isGreatest_loads` — one call, and calls of any number.
* `table_grows_to_peak` — the free slots, the count and the size of the table after any calls.
-/

namespace MergedSpans

open MergedSpans.Action

/-! ## A table -/

namespace Heap

variable {heap after : Heap} {index : Nat}

/-- The number of slots in the table. -/
def width (heap : Heap) : Nat := heap.slots.size

/-- In a table in order the slots without a node are the free ones. -/
theorem Sound.mem_free_iff (sound : heap.Sound) :
    index ∈ heap.free ↔ index < heap.width ∧ ¬ Slots.LiveAt heap.slots index := by
  rw [sound.mem_free]
  constructor
  · rintro ⟨slot, present, vacant⟩
    refine ⟨(Array.getElem?_eq_some_iff.mp present).1, ?_⟩
    rintro ⟨other, found, live⟩
    obtain rfl := Option.some.inj (present.symm.trans found)
    rw [Slot.isLive_eq_false_of_vacant vacant] at live
    cases live
  · rintro ⟨inside, empty⟩
    have present : heap.slots[index]? = some heap.slots[index] := Array.getElem?_eq_getElem inside
    refine ⟨_, present, sound.bounded.vacant_of_not_live present ?_⟩
    exact Bool.eq_false_iff.mpr fun live => empty ⟨_, present, live⟩

/-- Every slot of a table in order is in use or free. -/
theorem Sound.live_add_free (sound : heap.Sound) : heap.live + heap.free.length = heap.width := by
  let inUse (index : Nat) : Bool := (Slots.occupantAt? .heap heap.slots index).isSome
  have live_eq : heap.live = (List.range heap.width).countP inUse := by
    rw [sound.live_eq, ← Slots.length_roster .heap, Slots.roster_eq,
      List.length_filterMap_eq_countP]
    rfl
  have free : heap.free.Perm ((List.range heap.width).filter fun index => ¬ inUse index) := by
    refine (List.perm_ext_iff_of_nodup sound.nodup (List.nodup_range.filter _)).mpr fun index => ?_
    rw [sound.mem_free_iff, List.mem_filter, List.mem_range, decide_eq_true_iff,
      Slots.isSome_occupantAt?]
  rw [free.length_eq, ← List.countP_eq_length_filter, live_eq,
    ← List.length_eq_countP_add_countP, List.length_range]

/-- The table has grown to hold its nodes and no further. -/
def Swells (before after : Heap) : Prop := after.width = max before.width after.live

/-- A table that has not grown has room for its nodes. -/
theorem Sound.swells_of_keeps (sound : after.Sound) (kept : Keeps width heap after) :
    heap.Swells after := by
  have counted := sound.live_add_free
  unfold Swells
  unfold Keeps at kept
  omega

/-- An allocation adds a slot if none is free. -/
theorem width_allocate (heap : Heap) (span : Span) (room : heap.width < Arithmetic.halfLimit) :
    ((allocate span).run heap).state.width = heap.width + if heap.free = [] then 1 else 0 := by
  unfold width at *
  cases listed : heap.free with
  | nil =>
    simp only [allocate, run_bind, run_update, run_current, Outcome.done_andThen, listed, room,
      if_true, run_pure]
    exact Array.size_push _
  | cons index rest =>
    simp only [allocate, run_bind, run_update, run_current, Outcome.done_andThen, listed, run_pure]
    exact Array.size_modify

/-- So it adds one only if a node is in every slot. -/
theorem Sound.allocate_swells (sound : heap.Sound) (few : heap.allocations < Arithmetic.halfLimit)
    (span : Span) : heap.Swells ((allocate span).run heap).state := by
  have grown := heap.width_allocate span (Nat.lt_of_le_of_lt sound.size_le few)
  have counted := sound.live_add_free
  obtain ⟨id, after, yields, -, -, -, ledger⟩ := allocate_yields sound few span
  have live : after.live = heap.live + 1 := congrArg Ledger.live ledger
  rw [yields.state_eq] at grown ⊢
  unfold Swells
  cases listed : heap.free with
  | nil =>
    rw [listed, List.length_nil] at counted
    rw [listed, if_pos rfl] at grown
    omega
  | cons index rest =>
    rw [listed, List.length_cons] at counted
    rw [listed, if_neg (List.cons_ne_nil _ _)] at grown
    omega

theorem moves_width_release (id : NodeId) : (release id).Moves (Keeps width) := by
  refine Moves.bind (moves_read _) fun _ => ?_
  refine Moves.bind (moves_update fun _ => Array.size_modify) fun _ => ?_
  exact Moves.bind (moves_read _) fun _ => moves_update fun _ => rfl

theorem moves_width_write (id : NodeId) (change : Node → Node) :
    (write id change).Moves (Keeps width) :=
  Moves.bind (moves_read _) fun _ => moves_update fun _ => Array.size_modify

theorem width_foldl_vacateLive (heap : Heap) (indices : List Nat) :
    (indices.foldl vacateLive heap).width = heap.width := by
  induction indices generalizing heap with
  | nil => rfl
  | cons index rest induction =>
    rw [List.foldl_cons, induction]
    unfold vacateLive
    split
    · exact Array.size_modify
    · rfl

theorem moves_width_reset : (Action.update Heap.reset).Moves (Keeps width) :=
  moves_update fun heap => heap.width_foldl_vacateLive _

end Heap

/-! ## A pool -/

namespace Pool

/-- The number of slots in the overflow. -/
def overflowWidth (pool : Pool) : Nat := pool.overflow.width

/-- What happens in the slab is of no concern to the overflow. -/
theorem moves_overflow_vacate (index : Nat) : (vacate index).Moves (Keeps Pool.overflow) := by
  refine Moves.bind (moves_update fun _ => rfl) fun _ => ?_
  refine Moves.bind ?_ fun _ => ?_
  · refine Moves.bind moves_current fun _ => Moves.ite ?_ (moves_update fun _ => rfl)
    exact Moves.bind (moves_update fun _ => rfl) fun _ => moves_emit _
  · exact Moves.bind (moves_read _) fun _ => moves_update fun _ => rfl

theorem keeps_overflowWidth (before after : Pool) (kept : Keeps Pool.overflow before after) :
    Keeps overflowWidth before after := congrArg Heap.width kept

/-- What keeps the size of the overflow does so in the pool. -/
theorem moves_overflowWidth {action : Action Heap Unit} (moves : action.Moves (Keeps Heap.width)) :
    (onOverflow action).Moves (Keeps overflowWidth) := moves.within fun _ _ kept => kept

theorem moves_overflowWidth_release (id : NodeId) : (release id).Moves (Keeps overflowWidth) := by
  unfold release
  split
  · exact moves_overflowWidth (Heap.moves_width_release id)
  · exact Moves.bind (moves_read _) fun _ => (moves_overflow_vacate _).mono keeps_overflowWidth

theorem moves_overflowWidth_write (id : NodeId) (change : Node → Node) :
    (write id change).Moves (Keeps overflowWidth) := by
  unfold write
  split
  · exact moves_overflowWidth (Heap.moves_width_write id change)
  · exact Moves.bind (moves_read _) fun _ => moves_update fun _ => rfl

theorem moves_overflowWidth_reset : reset.Moves (Keeps overflowWidth) := by
  refine Moves.bind moves_current fun pool => ?_
  refine Moves.bind (moves_forM (fun index => ?_) _) fun _ =>
    moves_overflowWidth Heap.moves_width_reset
  refine Moves.bind moves_current fun _ => Moves.ite ?_ (moves_pure _)
  exact (moves_overflow_vacate _).mono keeps_overflowWidth

/-- An allocation that the slab serves leaves the overflow alone; every other one is an allocation of
the overflow. -/
theorem Sound.allocate_swells {pool : Pool} (sound : pool.Sound)
    (few : pool.hits + pool.fallbacks < Arithmetic.halfLimit) (span : Span) :
    pool.overflow.Swells ((allocate span).run pool).state.overflow := by
  cases first : pool.firstFree? with
  | some index =>
    obtain ⟨⟨slot, present, -⟩, -⟩ := firstFree?_eq_some sound.marks first
    rw [(allocate_occupies first present span).state_eq]
    exact sound.overflow.swells_of_keeps rfl
  | none =>
    have fewer := sound.overflow_few few
    obtain ⟨id, overflow, yields, -⟩ := Heap.allocate_yields sound.overflow fewer span
    have swells := sound.overflow.allocate_swells fewer span
    rw [yields.state_eq] at swells
    rw [(allocate_spills first yields).state_eq]
    exact swells

end Pool

/-! ## Either kind -/

namespace Store

variable {store start : Store} {id : NodeId}

/-- The growing table of a store: the store itself, or what a pool has behind its slab. -/
def table : Store → Heap
  | .heap table => table
  | .pool slab => slab.overflow

/-- The numbers of nodes that the growing table has held, one for every moment of a run: before the
first call and after each of them. -/
def loads (start : Store) (calls : List Call) : Set Nat :=
  { load | ∃ made, made <+: calls
    ∧ ((Action.after perform made start).liveIds .heap).encard = load }

/-- The growing table of a store in order is in order. -/
theorem Sound.table_sound (sound : store.Sound) : store.table.Sound := by
  cases store with
  | heap table => exact sound
  | pool slab => exact Pool.Sound.overflow sound

/-- A store in order has counted the nodes in its growing table. -/
theorem Sound.encard_table (sound : store.Sound) :
    (store.liveIds .heap).encard = store.table.live := by
  rw [sound.encard_liveIn]
  cases store <;> rfl

/-- An id of the growing table that was ever given out names one of its slots. -/
theorem index_lt_of_issued (issued : id ∈ store.ledger.issued) (onHeap : id.tier = .heap) :
    id.index < store.table.width := by
  have named : id ∈ Slots.issued .heap store.table.slots := by
    cases store with
    | heap table => exact issued
    | pool slab =>
      refine issued.resolve_left ?_
      rintro ⟨onSlab, -⟩
      rw [onHeap] at onSlab
      cases onSlab
  obtain ⟨-, slot, present, -⟩ := named
  exact (Array.getElem?_eq_some_iff.mp present).1

/-- What keeps the size of the growing table of either kind of store keeps that of a store. -/
theorem moves_width_byKind {onHeap : Action Heap Unit} {onPool : Action Pool Unit}
    (heap : onHeap.Moves (Keeps Heap.width)) (pool : onPool.Moves (Keeps Pool.overflowWidth)) :
    (byKind onHeap onPool).Moves (Keeps fun store => store.table.width)
  | .heap table => heap table
  | .pool slab => pool slab

/-- A change that keeps the size of the growing table and leaves the store in order has found room for
its nodes. -/
theorem swells_of_moves {action : Action Store Unit}
    (moves : action.Moves (Keeps fun store => store.table.width))
    (sound : ((action >>= fun _ => pure Reply.done).run store).state.Sound) :
    store.table.Swells ((action >>= fun _ => pure Reply.done).run store).state.table :=
  sound.table_sound.swells_of_keeps (Moves.bind moves (fun _ => moves_pure _) store)

/-- No call makes the growing table larger than its nodes need. -/
theorem Sound.perform_swells (sound : store.Sound)
    (few : store.allocations < Arithmetic.halfLimit) (call : Call)
    (kept : ((perform call).run store).state.Sound) :
    store.table.Swells ((perform call).run store).state.table := by
  cases call with
  | allocate span =>
    have ends : ((perform (.allocate span)).run store).state = ((allocate span).run store).state :=
      congrArg Outcome.state (run_bind_pure (allocate span) Reply.given store)
    rw [ends]
    cases store with
    | heap table => exact Heap.Sound.allocate_swells sound (allocations_heap table ▸ few) span
    | pool slab => exact Pool.Sound.allocate_swells sound few span
  | release id =>
    exact swells_of_moves (moves_width_byKind (Heap.moves_width_release id)
      (Pool.moves_overflowWidth_release id)) kept
  | get id =>
    have moves : (perform (.get id)).Moves (Keeps fun store => store.table.width) :=
      Moves.bind (moves_read _) fun _ => moves_pure _
    exact kept.table_sound.swells_of_keeps (moves store)
  | write id change =>
    exact swells_of_moves (moves_width_byKind (Heap.moves_width_write id change)
      (Pool.moves_overflowWidth_write id change)) kept
  | reset =>
    exact swells_of_moves (moves_width_byKind Heap.moves_width_reset
      Pool.moves_overflowWidth_reset) kept

/-- A store that was never used has no slots in its growing table. -/
theorem IsFresh.width_eq (fresh : start.IsFresh) : start.table.width = 0 := by
  rcases fresh with rfl | ⟨slots, rfl⟩ <;> rfl

/-- The size of the growing table is the greatest number of nodes that it has held. -/
theorem isGreatest_loads (fresh : start.IsFresh) (calls : List Call)
    (few : calls.countP Call.allocates < Arithmetic.halfLimit) :
    IsGreatest (start.loads calls) (Action.after perform calls start).table.width := by
  -- Induction on the calls, from the last one back: it adds one moment to those before it.
  induction calls using List.reverseRecOn with
  | nil =>
    have none : (start.liveIds .heap).encard = 0 := by
      have bound := fresh.sound.table_sound.live_add_free
      rw [fresh.width_eq] at bound
      rw [fresh.sound.encard_table, Nat.eq_zero_of_add_eq_zero_right bound]
      rfl
    rw [after_nil, fresh.width_eq]
    refine ⟨⟨[], List.prefix_rfl, none⟩, ?_⟩
    rintro load ⟨made, before, counted⟩
    rw [List.prefix_nil.mp before, after_nil, none] at counted
    exact (Nat.cast_eq_zero.mp counted.symm).le
  | append_singleton made call induction =>
    have fewBefore : made.countP Call.allocates < Arithmetic.halfLimit := by
      rw [List.countP_append] at few
      omega
    obtain ⟨⟨peak, before, held⟩, most⟩ := induction fewBefore
    obtain ⟨sound, counted⟩ := fresh.sound_after made fewBefore
    obtain ⟨kept, -⟩ := fresh.sound_after (made ++ [call]) few
    have now := kept.encard_table
    rw [after_append] at kept now ⊢
    have swells := sound.perform_swells (counted.trans_lt fewBefore) call kept
    unfold Heap.Swells at swells
    rw [after_cons, after_nil] at now ⊢
    rw [swells]
    constructor
    · rcases max_choice (Action.after perform made start).table.width _ with earlier | last
      · rw [earlier]
        exact ⟨peak, before.trans (List.prefix_append _ _), held⟩
      · rw [last]
        refine ⟨made ++ [call], List.prefix_rfl, ?_⟩
        rw [after_append, after_cons, after_nil]
        exact now
    · rintro load ⟨moment, upTo, counted⟩
      rcases List.prefix_concat_iff.mp upTo with rfl | earlier
      · rw [after_append, after_cons, after_nil, now] at counted
        exact le_max_of_le_right (Nat.cast_inj.mp counted).ge
      · exact le_max_of_le_left (most ⟨moment, earlier, counted⟩)

/-! ## Main result -/

/-- The growing table of a store, alone or behind the slab of a pool of any size, after any calls,
fewer than 2 ^ 32 of them allocations. Every slot without a node is listed as free, just once, and no
other one is. The table counts the slots with a node, which are as many as there are ids of the table
that reach one. It has as many slots as it ever had nodes at the same time; so every id of the table
that was ever given out names a slot below that number. -/
theorem table_grows_to_peak (fresh : start.IsFresh) (calls : List Call)
    (few : calls.countP Call.allocates < Arithmetic.halfLimit) :
    let store := Action.after perform calls start
    let table := store.table
    table.free.Nodup
      ∧ (∀ index, index ∈ table.free
        ↔ index < table.slots.size ∧ ¬ Slots.LiveAt table.slots index)
      ∧ table.live = Slots.liveCount table.slots
      ∧ (store.liveIds .heap).encard = table.live
      ∧ IsGreatest (start.loads calls) table.slots.size
      ∧ ∀ id ∈ (log calls start).given, id.tier = .heap → id.index < table.slots.size := by
  intro store table
  have agrees : store.Agrees (log calls start) :=
    fresh.agrees.after calls (by simpa [Log.allocations] using few)
  have sound : table.Sound := agrees.sound.table_sound
  refine ⟨sound.nodup, fun index => sound.mem_free_iff, sound.live_eq, agrees.sound.encard_table,
    isGreatest_loads fresh calls few, fun id given onHeap => ?_⟩
  exact index_lt_of_issued ((agrees.mem_given id).mp given) onHeap

/-- Nodes come and go in a pool of one slot. Its overflow never has more than two of them, and two
slots are all that it has in the end. -/
theorem table_grows_to_peak_under_churn :
    let start : Store := .pool (.ofSlots 1)
    let calls : List Call := [.allocate ⟨0, 1⟩, .allocate ⟨2, 3⟩, .allocate ⟨4, 5⟩,
      .release ⟨.heap, 0, 0⟩, .allocate ⟨6, 7⟩, .reset, .allocate ⟨0, 1⟩, .allocate ⟨2, 3⟩]
    let table := (Action.after perform calls start).table
    start.IsFresh ∧ calls.countP Call.allocates < Arithmetic.halfLimit
      ∧ table.free = [0] ∧ table.live = 1 ∧ IsGreatest (start.loads calls) 2
      ∧ ∀ id ∈ (log calls start).given, id.tier = .heap → id.index < 2 := by
  intro start calls table
  have fresh : start.IsFresh := .inr ⟨1, rfl⟩
  have few : calls.countP Call.allocates < Arithmetic.halfLimit := by decide
  have size : table.slots.size = 2 := by decide +kernel
  obtain ⟨-, -, -, -, greatest, below⟩ := table_grows_to_peak fresh calls few
  refine ⟨fresh, few, by decide +kernel, by decide +kernel, ?_, ?_⟩
  · exact size ▸ greatest
  · exact size ▸ below

end Store

end MergedSpans
