import MergedSpans.Proofs.Store.History
import MergedSpans.Proofs.Store.Roster
import MergedSpans.Proofs.Store.Staleness

/-! # Stores without end

A store that has allocated 2 ^ 32 times or more may have retired slots, and the laws of its ledger
no longer apply. Less is needed to keep a chain in it: what is listed as free is vacant, and no node
has escaped the count. That holds of every store there is, whatever calls were made on it, and the
only fault that such a store meets with ids that reach a node is to have no index left.

* `Heap.Tidy`, `Pool.Tidy`, `Store.Tidy` — what holds of a store however often it has allocated.
* `Tidy.allocate_cases`, `Tidy.release_yields`, `Tidy.write_yields` — what the changes do to the
  nodes that ids reach.
* `Store.LeadsTo`, `Store.Reachable` — the stores that calls lead to.
* `Reachable.tidy`, `Reachable.sound` — they are tidy, and in order below 2 ^ 32 allocations.
-/

namespace MergedSpans

open MergedSpans.Action

/-! ## A growing table -/

namespace Heap

/-- What holds of a growing table at any time, also in the middle of a reset. -/
structure Listed (heap : Heap) : Prop where
  /-- No slot is listed twice as free. -/
  nodup : heap.free.Nodup
  /-- The slots that are listed as free are vacant. -/
  vacant : ∀ index ∈ heap.free, ∃ slot, heap.slots[index]? = some slot ∧ slot.content = .vacant

/-- What holds of a growing table between calls, however often it has allocated. -/
structure Tidy (heap : Heap) : Prop extends Listed heap where
  /-- No node has escaped the count. -/
  live_ge : Slots.liveCount heap.slots ≤ heap.live

/-- A table in order is tidy. -/
theorem Sound.tidy {heap : Heap} (sound : heap.Sound) : heap.Tidy where
  nodup := sound.nodup
  vacant := fun index => (sound.mem_free index).mp
  live_ge := sound.live_eq.ge

section Changes

variable {heap : Heap} {id : NodeId} {node : Node} {index : Nat} {slot : Slot}

/-- A slot in use is not listed as free. -/
theorem Listed.not_mem_free (listed : heap.Listed) (present : heap.slots[index]? = some slot)
    (live : slot.isLive = true) : index ∉ heap.free := by
  intro member
  obtain ⟨other, found, vacant⟩ := listed.vacant index member
  rw [present] at found
  obtain rfl := Option.some.inj found
  rw [Slot.isLive_eq_false_of_vacant vacant] at live
  cases live

/-- The vacant slots stay vacant when another slot changes. -/
theorem Listed.vacant_modify (listed : heap.Listed) (change : Slot → Slot) {other : Nat}
    (member : other ∈ heap.free) (apart : other ≠ index) :
    ∃ slot, (heap.slots.modify index change)[other]? = some slot ∧ slot.content = .vacant := by
  rw [Array.getElem?_modify, if_neg (Ne.symm apart)]
  exact listed.vacant other member

/-- An allocation gives out an id that reaches nothing, unless the table is full; then it has moved
the counters and nothing else. -/
theorem Tidy.allocate_cases (tidy : heap.Tidy) (span : Span) :
    (∃ id after, (allocate span).Yields heap id after [] ∧ after.Tidy ∧ id.tier = .heap
        ∧ heap.get? id = none
        ∧ after.get? = Function.update heap.get? id (some (.unlinked span)))
      ∨ ∃ after, (allocate span).run heap = ⟨.error .heapFull, after, []⟩ ∧ after.Tidy
        ∧ after.get? = heap.get? := by
  cases listed : heap.free with
  | cons index rest =>
    left
    obtain ⟨slot, present, vacant⟩ := tidy.vacant index (by simp [listed])
    have nodup := listed ▸ tidy.nodup
    refine ⟨Slots.idAt .heap index slot, { heap with
      slots := heap.slots.modify index (·.occupy (.unlinked span))
      free := rest
      live := heap.live + 1
      allocations := heap.allocations + 1 }, ?_, ?_, rfl, ?_, ?_⟩
    · apply Yields.silent_bind (yields_update rfl)
      apply Yields.silent_bind (yields_current _)
      simp only [listed, Slots.getD_of_present present]
      exact Yields.silent_bind (yields_update rfl) (yields_pure _ _)
    · refine ⟨⟨(List.nodup_cons.mp nodup).2, fun other member => ?_⟩, ?_⟩
      · refine tidy.vacant_modify _ (by rw [listed]; exact List.mem_cons_of_mem _ member) ?_
        exact ne_of_mem_of_not_mem member (List.nodup_cons.mp nodup).1
      · rw [Slots.liveCount_occupy present vacant]
        exact Nat.succ_le_succ tidy.live_ge
    · rw [get?_eq_bound]
      exact Slots.bound_of_vacant present vacant
    · simp only [get?_eq_bound, Slots.bound_occupy present]
  | nil =>
    by_cases room : heap.slots.size < Arithmetic.halfLimit
    · left
      refine ⟨Slots.idAt .heap heap.slots.size .unused, { heap with
        slots := heap.slots.push (Slot.unused.occupy (.unlinked span))
        live := heap.live + 1
        allocations := heap.allocations + 1 }, ?_, ?_, rfl, ?_, ?_⟩
      · apply Yields.silent_bind (yields_update rfl)
        apply Yields.silent_bind (yields_current _)
        simp only [listed, room, if_true]
        exact Yields.silent_bind (yields_update rfl) (yields_pure _ _)
      · refine ⟨⟨tidy.nodup, fun other member => ?_⟩, ?_⟩
        · rw [listed] at member
          cases member
        · rw [Slots.liveCount_push, Slot.isLive_occupy]
          exact Nat.succ_le_succ tidy.live_ge
      · rw [get?_eq_bound]
        simp [Slots.bound, Slots.idAt]
      · simp only [get?_eq_bound, Slots.bound_push]
    · right
      refine ⟨{ heap with live := heap.live + 1, allocations := heap.allocations + 1 }, ?_,
        ⟨⟨tidy.nodup, tidy.vacant⟩, tidy.live_ge.trans (Nat.le_succ _)⟩,
        by simp only [get?_eq_bound]⟩
      refine (Yields.run_bind (yields_update rfl) _).trans ?_
      refine (Yields.run_bind (yields_current _) _).trans ?_
      simp only [listed, room, if_false]
      rfl

/-- A slot in use that is emptied is listed as free, unless that retires it. -/
theorem Listed.vacate (listed : heap.Listed) (present : heap.slots[index]? = some slot)
    (live : slot.isLive = true) : (heap.vacate index).Listed := by
  have outside := listed.not_mem_free present live
  unfold Heap.vacate
  simp only [Slots.getD_of_present present]
  constructor
  · show (if slot.vacate.isRetired then heap.free else index :: heap.free).Nodup
    split
    · exact listed.nodup
    · exact List.nodup_cons.mpr ⟨outside, listed.nodup⟩
  · intro other member
    by_cases same : other = index
    · subst same
      refine ⟨slot.vacate, Slots.getElem?_modify_self present _, ?_⟩
      simp only at member
      split at member
      · exact absurd member outside
      · next inService =>
        exact Slot.content_vacate_of_not_retired (Bool.eq_false_iff.mpr inService)
    · refine listed.vacant_modify _ ?_ same
      simp only at member
      split at member
      · exact member
      · exact (List.mem_cons.mp member).resolve_left same

/-- A slot that is emptied or left alone does no harm to the list. -/
theorem Listed.vacateLive (listed : heap.Listed) (index : Nat) :
    (heap.vacateLive index).Listed := by
  by_cases liveAt : Slots.LiveAt heap.slots index
  · rw [vacateLive_of_live liveAt]
    obtain ⟨slot, present, live⟩ := liveAt
    exact listed.vacate present live
  · rwa [vacateLive_of_empty liveAt]

/-- Neither do slots that are emptied one after another. -/
theorem Listed.foldl_vacateLive (listed : heap.Listed) (indices : List Nat) :
    (indices.foldl Heap.vacateLive heap).Listed := by
  induction indices generalizing heap with
  | nil => exact listed
  | cons index rest induction => exact induction (listed.vacateLive index)

/-- A release takes the node away that it names. -/
theorem Tidy.release_yields (tidy : heap.Tidy) (found : heap.get? id = some node) :
    ∃ after, (release id).Yields heap () after [] ∧ after.Tidy
      ∧ after.get? = Function.update heap.get? id none := by
  obtain ⟨slot, present, live, same⟩ := Slots.live_of_bound (get?_eq_bound heap ▸ found)
  have counted := Slots.liveCount_vacate present live
  have most := tidy.live_ge
  have listed := tidy.vacate present live
  have positive : 1 ≤ heap.live := by omega
  refine ⟨(heap.vacate id.index).withLive (heap.live - 1), release_vacates found positive,
    ⟨⟨listed.nodup, listed.vacant⟩, ?_⟩, ?_⟩
  · show Slots.liveCount (heap.slots.modify id.index Slot.vacate) ≤ heap.live - 1
    omega
  · simp only [get?_eq_bound]
    show Slots.bound .heap (heap.slots.modify id.index Slot.vacate) = _
    rw [Slots.bound_vacate present, same]

/-- A write changes the node that it names. -/
theorem Tidy.write_yields (tidy : heap.Tidy) (found : heap.get? id = some node)
    (change : Node → Node) :
    ∃ after, (write id change).Yields heap () after [] ∧ after.Tidy
      ∧ after.get? = Function.update heap.get? id ((heap.get? id).map change) := by
  have bound := get?_eq_bound heap ▸ found
  obtain ⟨slot, present, live, same⟩ := Slots.live_of_bound bound
  refine ⟨{ heap with slots := heap.slots.modify id.index (·.write change) }, ?_,
    ⟨⟨tidy.nodup, fun other listed => ?_⟩, ?_⟩, ?_⟩
  · exact Yields.silent_bind (yields_read (get?_eq_some_iff.mp found)) (yields_update rfl)
  · refine tidy.vacant_modify _ listed ?_
    rintro rfl
    exact tidy.not_mem_free present live listed
  · rw [Slots.liveCount_write present]
    exact tidy.live_ge
  · simp only [get?_eq_bound, Slots.bound_write bound]

/-- A reset leaves a tidy table, with no nodes in it. -/
theorem Tidy.reset (tidy : heap.Tidy) : heap.reset.Tidy := by
  have listed := tidy.foldl_vacateLive (List.range heap.slots.size)
  have emptied : ∀ index, ¬ Slots.LiveAt heap.reset.slots index :=
    Slots.not_liveAt_of_range (liveAt_foldl_vacateLive heap _)
  exact ⟨⟨listed.nodup, listed.vacant⟩, (Slots.liveCount_eq_zero emptied).le⟩

end Changes

end Heap

/-! ## A pool -/

namespace Pool

/-- What holds of a pool between calls, however often it has allocated. -/
structure Tidy (pool : Pool) : Prop where
  /-- The bitmap is in step with the slots of the slab. -/
  marks : pool.used.Marks pool.slots
  /-- No node of the slab has escaped the count. -/
  live_ge : Slots.liveCount pool.slots ≤ pool.live
  /-- The overflow is tidy. -/
  overflow : pool.overflow.Tidy

/-- A pool in order is tidy. -/
theorem Sound.tidy {pool : Pool} (sound : pool.Sound) : pool.Tidy where
  marks := sound.marks
  live_ge := sound.live_eq.ge
  overflow := sound.overflow.tidy

section Changes

variable {pool : Pool} {id : NodeId} {node : Node} {index : Nat} {slot : Slot}

/-- What an id of the slab reaches is changed in the slab. -/
theorem get?_of_slab_update {after : Pool} {value : Option Node} (onSlab : id.tier = .slab)
    (slab : Slots.bound .slab after.slots
      = Function.update (Slots.bound .slab pool.slots) id value)
    (overflow : after.overflow = pool.overflow) :
    after.get? = Function.update pool.get? id value := by
  funext other
  rw [Function.update_apply, get?_eq_or, get?_eq_or, slab, overflow, Function.update_apply]
  by_cases same : other = id
  · subst same
    rw [if_pos rfl, if_pos rfl, pool.overflow_get?_of_slab onSlab, Option.or_none]
  · rw [if_neg same, if_neg same]

/-- What an id of the overflow reaches is changed in the overflow. -/
theorem get?_of_heap_update {after : Pool} {value : Option Node} (onHeap : id.tier = .heap)
    (slab : after.slots = pool.slots)
    (overflow : after.overflow.get? = Function.update pool.overflow.get? id value) :
    after.get? = Function.update pool.get? id value := by
  funext other
  rw [Function.update_apply, get?_eq_or, get?_eq_or, slab, overflow, Function.update_apply]
  by_cases same : other = id
  · subst same
    rw [if_pos rfl, if_pos rfl, pool.slab_bound_of_heap onHeap, Option.none_or]
  · rw [if_neg same, if_neg same]

/-- An allocation gives out an id that reaches nothing, unless slab and overflow are full. -/
theorem Tidy.allocate_cases (tidy : pool.Tidy) (span : Span) :
    (∃ id after events, (allocate span).Yields pool id after events ∧ after.Tidy
        ∧ pool.get? id = none ∧ after.get? = Function.update pool.get? id (some (.unlinked span))
        ∧ ∀ event ∈ events, event.ofStore = true)
      ∨ ∃ after events, (allocate span).run pool = ⟨.error .heapFull, after, events⟩
        ∧ after.Tidy ∧ after.get? = pool.get? := by
  cases first : pool.firstFree? with
  | some index =>
    left
    obtain ⟨⟨slot, present, vacant⟩, -⟩ := firstFree?_eq_some tidy.marks first
    refine ⟨_, _, _, allocate_occupies first present span,
      ⟨tidy.marks.occupy present _, ?_, tidy.overflow⟩, ?_, ?_, by simp⟩
    · show Slots.liveCount (pool.slots.modify index _) ≤ pool.live + 1
      rw [Slots.liveCount_occupy present vacant]
      exact Nat.succ_le_succ tidy.live_ge
    · rw [get?_of_slab pool rfl]
      exact Slots.bound_of_vacant present vacant
    · exact get?_of_slab_update rfl (Slots.bound_occupy present _) rfl
  | none =>
    rcases tidy.overflow.allocate_cases span with
      ⟨id, overflow, yields, kept, onHeap, absent, bound⟩ | ⟨overflow, refused, kept, same⟩
    · left
      refine ⟨id, _, _, allocate_spills first yields, ⟨tidy.marks, tidy.live_ge, kept⟩, ?_,
        get?_of_heap_update onHeap rfl bound, pool.ofStore_spilled span id⟩
      rw [get?_of_heap pool onHeap, absent]
    · right
      have started : (allocate span).run pool = (spill span).run pool := by
        refine (Yields.run_bind (yields_current _) _).trans ?_
        simp only [first]
      have unchanged : (pool.spillInto overflow).get? = pool.get? := by
        funext id
        rw [get?_eq_or, get?_eq_or, ← same]
        rfl
      refine ⟨pool.spillInto overflow, pool.spillNote, started.trans ?_,
        ⟨tidy.marks, tidy.live_ge, kept⟩, unchanged⟩
      have noted := pool.noteSpill_yields
      unfold Yields at noted
      simp only [spill, onOverflow, run_bind, noted, Outcome.andThen_of_ok, run_update,
        Outcome.done_andThen, run_within, refused]
      simp [Outcome.mapState, Outcome.andThen, spillInto]

/-- A slot that was emptied is noted, and is free again unless that has retired it. -/
theorem noteVacated_yields (marks : pool.used.Marks pool.slots)
    (present : pool.slots[index]? = some slot) (live : slot.isLive = true) :
    let emptied : Pool := { pool with slots := pool.slots.modify index Slot.vacate }
    ∃ retired used events,
      (noteVacated index).Yields emptied () { emptied with retired, used } events
        ∧ used.Marks emptied.slots ∧ ∀ event ∈ events, event.ofStore = true := by
  intro emptied
  have current : emptied.slots.getD index .unused = slot.vacate :=
    Slots.getD_of_present (Slots.getElem?_modify_self present _)
  by_cases isRetired : slot.vacate.isRetired
  · refine ⟨pool.retired + 1, pool.used, [.retiring index], ?_,
      marks.retire present live isRetired, by simp [Event.ofStore]⟩
    apply Yields.silent_bind (yields_current _)
    rw [current, if_pos isRetired]
    exact Yields.silent_bind (yields_update rfl) (yields_emit _ _)
  · refine ⟨pool.retired, pool.used.unset index, [], ?_,
      marks.vacate present (Bool.eq_false_iff.mpr isRetired), by simp⟩
    apply Yields.silent_bind (yields_current _)
    rw [current, if_neg isRetired]
    exact yields_update rfl

/-- A slot in use is emptied. -/
theorem Tidy.vacate_yields (tidy : pool.Tidy) (present : pool.slots[index]? = some slot)
    (live : slot.isLive = true) :
    ∃ after events, (vacate index).Yields pool () after events ∧ after.Tidy
      ∧ after.slots = pool.slots.modify index Slot.vacate ∧ after.overflow = pool.overflow
      ∧ ∀ event ∈ events, event.ofStore = true := by
  have counted := Slots.liveCount_vacate present live
  have most := tidy.live_ge
  have positive : 1 ≤ pool.live := by omega
  obtain ⟨retired, used, events, noted, marks, ofStore⟩ :=
    noteVacated_yields tidy.marks present live
  refine ⟨{ pool with
    slots := pool.slots.modify index Slot.vacate
    retired
    used
    live := pool.live - 1 }, events ++ [], ?_, ⟨marks, ?_, tidy.overflow⟩, rfl, rfl, by simpa⟩
  · apply Yields.silent_bind (yields_update rfl)
    apply Yields.bind noted
    exact Yields.silent_bind
      (yields_read (Arithmetic.sub_eq_ok_iff.mpr ⟨positive, rfl⟩)) (yields_update rfl)
  · show Slots.liveCount (pool.slots.modify index Slot.vacate) ≤ pool.live - 1
    omega

/-- A release takes the node away that it names. -/
theorem Tidy.release_yields (tidy : pool.Tidy) (found : pool.get? id = some node) :
    ∃ after events, (release id).Yields pool () after events ∧ after.Tidy
      ∧ after.get? = Function.update pool.get? id none
      ∧ ∀ event ∈ events, event.ofStore = true := by
  unfold release
  cases tier : id.tier with
  | heap =>
    rw [pool.get?_of_heap tier] at found
    obtain ⟨overflow, yields, kept, bound⟩ := tidy.overflow.release_yields found
    exact ⟨{ pool with overflow }, [], Yields.within yields, ⟨tidy.marks, tidy.live_ge, kept⟩,
      get?_of_heap_update tier rfl bound, by simp⟩
  | slab =>
    have answered := get?_eq_some_iff.mp found
    rw [pool.get?_of_slab tier] at found
    obtain ⟨slot, present, live, same⟩ := Slots.live_of_bound found
    obtain ⟨after, events, yields, kept, slots, overflow, ofStore⟩ :=
      tidy.vacate_yields present live
    refine ⟨after, events, Yields.silent_bind (yields_read answered) yields, kept, ?_, ofStore⟩
    refine get?_of_slab_update tier ?_ overflow
    rw [slots, Slots.bound_vacate present, same]

/-- A write changes the node that it names. -/
theorem Tidy.write_yields (tidy : pool.Tidy) (found : pool.get? id = some node)
    (change : Node → Node) :
    ∃ after, (write id change).Yields pool () after [] ∧ after.Tidy
      ∧ after.get? = Function.update pool.get? id ((pool.get? id).map change) := by
  unfold write
  cases tier : id.tier with
  | heap =>
    have whole := pool.get?_of_heap tier
    rw [whole] at found
    obtain ⟨overflow, yields, kept, bound⟩ := tidy.overflow.write_yields found change
    rw [whole]
    exact ⟨{ pool with overflow }, Yields.within yields, ⟨tidy.marks, tidy.live_ge, kept⟩,
      get?_of_heap_update tier rfl bound⟩
  | slab =>
    have answered := get?_eq_some_iff.mp found
    have whole := pool.get?_of_slab tier
    rw [whole] at found
    obtain ⟨slot, present, live, same⟩ := Slots.live_of_bound found
    rw [whole]
    refine ⟨{ pool with slots := pool.slots.modify id.index (·.write change) },
      Yields.silent_bind (yields_read answered) (yields_update rfl),
      ⟨tidy.marks.write present change, ?_, tidy.overflow⟩, ?_⟩
    · rw [Slots.liveCount_write present]
      exact tidy.live_ge
    · exact get?_of_slab_update tier (Slots.bound_write found change) rfl

/-- Slots are emptied one after another, where there is a node in them. -/
theorem Tidy.forM_vacateLive_yields (tidy : pool.Tidy) (indices : List Nat) :
    ∃ after events, (indices.forM vacateLive).Yields pool () after events ∧ after.Tidy := by
  induction indices generalizing pool with
  | nil => exact ⟨pool, [], yields_pure _ _, tidy⟩
  | cons index rest induction =>
    have step : ∃ between events, (vacateLive index).Yields pool () between events
        ∧ between.Tidy := by
      by_cases liveAt : Slots.LiveAt pool.slots index
      · have same := run_vacateLive_of_live liveAt
        obtain ⟨slot, present, live⟩ := liveAt
        obtain ⟨after, events, yields, kept, -⟩ := tidy.vacate_yields present live
        exact ⟨after, events, Yields.of_run_eq same yields, kept⟩
      · exact ⟨pool, [], vacateLive_skips liveAt, tidy⟩
    obtain ⟨between, events, first, kept⟩ := step
    obtain ⟨after, more, others, end_⟩ := induction kept
    exact ⟨after, events ++ more, first.bind others, end_⟩

/-- A reset leaves a tidy pool. -/
theorem Tidy.reset_yields (tidy : pool.Tidy) :
    ∃ after events, reset.Yields pool () after events ∧ after.Tidy := by
  obtain ⟨between, events, yields, kept⟩ :=
    tidy.forM_vacateLive_yields (List.range pool.capacity)
  refine ⟨{ between with overflow := between.overflow.reset }, events ++ [], ?_,
    ⟨kept.marks, kept.live_ge, kept.overflow.reset⟩⟩
  apply Yields.silent_bind (yields_current _)
  exact Yields.bind yields (Yields.within (yields_update rfl))

end Changes

end Pool

/-! ## Either kind -/

namespace Store

/-- What holds of a store between calls, however often it has allocated. -/
def Tidy : Store → Prop
  | .heap table => table.Tidy
  | .pool slab => slab.Tidy

variable {store : Store} {id : NodeId} {ids : List NodeId} {node : Node}

/-- A store in order is tidy. -/
theorem Sound.tidy (sound : store.Sound) : store.Tidy := by
  cases store with
  | heap table => exact Heap.Sound.tidy sound
  | pool slab => exact Pool.Sound.tidy sound

/-- No node of a tidy store has escaped the count. -/
theorem Tidy.length_roster_le (tidy : store.Tidy) : store.roster.length ≤ store.live := by
  cases store with
  | heap table =>
    have counted : Slots.liveCount table.slots ≤ table.live := Heap.Tidy.live_ge tidy
    rw [roster, Slots.length_roster]
    exact counted.trans (Nat.zero_add _).ge
  | pool slab =>
    have counted : Slots.liveCount slab.slots ≤ slab.live := Pool.Tidy.live_ge tidy
    have spilled : Slots.liveCount slab.overflow.slots ≤ slab.overflow.live :=
      (Pool.Tidy.overflow tidy).live_ge
    rw [roster, List.length_append, Slots.length_roster, Slots.length_roster]
    exact Nat.add_le_add counted spilled

/-- An allocation gives out an id that reaches nothing, unless there is no index left; then every id
reaches what it did. -/
theorem Tidy.allocate_cases (tidy : store.Tidy) (span : Span) :
    (∃ id after events, (allocate span).Yields store id after events ∧ after.Tidy
        ∧ store.get? id = none
        ∧ after.get? = Function.update store.get? id (some (.unlinked span)))
      ∨ ∃ after events, (allocate span).run store = ⟨.error .heapFull, after, events⟩
        ∧ after.Tidy ∧ after.get? = store.get? := by
  cases store with
  | heap table =>
    rcases Heap.Tidy.allocate_cases tidy span with
      ⟨id, after, yields, kept, -, absent, bound⟩ | ⟨after, refused, kept, same⟩
    · exact .inl ⟨id, .heap after, [], yields_byKind_heap yields, kept, absent, bound⟩
    · exact .inr ⟨.heap after, [], congrArg (Outcome.mapState Store.heap) refused, kept, same⟩
  | pool slab =>
    rcases Pool.Tidy.allocate_cases tidy span with
      ⟨id, after, events, yields, kept, absent, bound, -⟩ | ⟨after, events, refused, kept, same⟩
    · exact .inl ⟨id, .pool after, events, yields_byKind_pool yields, kept, absent, bound⟩
    · exact .inr ⟨.pool after, events, congrArg (Outcome.mapState Store.pool) refused, kept, same⟩

/-- A release takes the node away that it names. -/
theorem Tidy.release_yields (tidy : store.Tidy) (found : store.get? id = some node) :
    ∃ after events, (release id).Yields store () after events ∧ after.Tidy
      ∧ after.get? = Function.update store.get? id none
      ∧ ∀ event ∈ events, event.ofStore = true := by
  cases store with
  | heap table =>
    obtain ⟨after, yields, kept, bound⟩ := Heap.Tidy.release_yields tidy found
    exact ⟨.heap after, [], yields_byKind_heap yields, kept, bound, by simp⟩
  | pool slab =>
    obtain ⟨after, events, yields, kept, bound, ofStore⟩ := Pool.Tidy.release_yields tidy found
    exact ⟨.pool after, events, yields_byKind_pool yields, kept, bound, ofStore⟩

/-- A write changes the node that it names. -/
theorem Tidy.write_yields (tidy : store.Tidy) (found : store.get? id = some node)
    (change : Node → Node) :
    ∃ after, (write id change).Yields store () after [] ∧ after.Tidy
      ∧ after.get? = Function.update store.get? id ((store.get? id).map change) := by
  cases store with
  | heap table =>
    obtain ⟨after, yields, kept, bound⟩ := Heap.Tidy.write_yields tidy found change
    exact ⟨.heap after, yields_byKind_heap yields, kept, bound⟩
  | pool slab =>
    obtain ⟨after, yields, kept, bound⟩ := Pool.Tidy.write_yields tidy found change
    exact ⟨.pool after, yields_byKind_pool yields, kept, bound⟩

/-- A reset leaves a tidy store. -/
theorem Tidy.reset_yields (tidy : store.Tidy) :
    ∃ after events, reset.Yields store () after events ∧ after.Tidy := by
  cases store with
  | heap table =>
    exact ⟨.heap table.reset, [], yields_byKind_heap (yields_update rfl), Heap.Tidy.reset tidy⟩
  | pool slab =>
    obtain ⟨after, events, yields, kept⟩ := Pool.Tidy.reset_yields tidy
    exact ⟨.pool after, events, yields_byKind_pool yields, kept⟩

/-! ## The stores there are -/

/-- What is tidy before is tidy after. -/
def StaysTidy (before after : Store) : Prop := before.Tidy → after.Tidy

instance : Std.Refl StaysTidy := ⟨fun _ tidy => tidy⟩

instance : IsTrans Store StaysTidy := ⟨fun _ _ _ first second tidy => second (first tidy)⟩

/-- No change of a store makes it untidy, also where it meets a fault. -/
theorem closed_staysTidy : Closed StaysTidy where
  allocate := by
    intro span store tidy
    rcases tidy.allocate_cases span with
      ⟨id, after, events, yields, kept, -⟩ | ⟨after, events, refused, kept, -⟩
    · rwa [yields.state_eq]
    · rwa [refused]
  release := by
    intro id store tidy
    cases found : store.get? id with
    | none =>
      obtain ⟨fault, refuses⟩ := release_refuses found
      rwa [refuses.state_eq]
    | some node =>
      obtain ⟨after, events, yields, kept, -⟩ := tidy.release_yields found
      rwa [yields.state_eq]
  write := by
    intro id change store tidy
    cases found : store.get? id with
    | none =>
      obtain ⟨fault, refuses⟩ := write_refuses found change
      rwa [refuses.state_eq]
    | some node =>
      obtain ⟨after, yields, kept, -⟩ := tidy.write_yields found change
      rwa [yields.state_eq]
  reset := by
    intro store tidy
    obtain ⟨after, events, yields, kept⟩ := tidy.reset_yields
    rwa [yields.state_eq]

/-- Every call on a store respects what all its changes respect. -/
theorem moves_perform {relation : Store → Store → Prop} [Std.Refl relation]
    [IsTrans Store relation] (closed : Closed relation) (call : Call) :
    (perform call).Moves relation := by
  cases call with
  | allocate span => exact Moves.bind (closed.allocate span) fun _ => moves_pure _
  | release id => exact Moves.bind (closed.release id) fun _ => moves_pure _
  | get id => exact Moves.bind (moves_read _) fun _ => moves_pure _
  | write id change => exact Moves.bind (closed.write id change) fun _ => moves_pure _
  | reset => exact Moves.bind closed.reset fun _ => moves_pure _

/-- Calls of any number, with any ids, lead from one store to the other. -/
def LeadsTo (before after : Store) : Prop := ∃ calls, after = Action.after perform calls before

instance : Std.Refl LeadsTo := ⟨fun _ => ⟨[], rfl⟩⟩

instance : IsTrans Store LeadsTo where
  trans _ _ _ := by
    rintro ⟨calls, rfl⟩ ⟨more, rfl⟩
    exact ⟨calls ++ more, (after_append calls more _).symm⟩

/-- An action that ends where a call does leads to a store as that call does. -/
theorem moves_leadsTo {α : Type} {action : Action Store α} (call : Call)
    (ends : ∀ store, ((perform call).run store).state = (action.run store).state) :
    action.Moves LeadsTo :=
  fun store => ⟨[call], (ends store).symm⟩

/-- Every change of a store is one that a call makes. -/
theorem closed_leadsTo : Closed LeadsTo where
  allocate := fun span => moves_leadsTo (.allocate span) fun store =>
    congrArg Outcome.state (run_bind_pure (allocate span) Reply.given store)
  release := fun id => moves_leadsTo (.release id) fun store =>
    congrArg Outcome.state (run_bind_pure (release id) (fun _ => Reply.done) store)
  write := fun id change => moves_leadsTo (.write id change) fun store =>
    congrArg Outcome.state (run_bind_pure (write id change) (fun _ => Reply.done) store)
  reset := moves_leadsTo .reset fun store =>
    congrArg Outcome.state (run_bind_pure reset (fun _ => Reply.done) store)

/-- A store that calls have led to from one that was never used. -/
def Reachable (store : Store) : Prop := ∃ start : Store, start.IsFresh ∧ start.LeadsTo store

theorem IsFresh.reachable (fresh : store.IsFresh) : store.Reachable :=
  ⟨store, fresh, refl_of LeadsTo store⟩

/-- Further calls lead on. -/
theorem Reachable.leadsTo {after : Store} (reachable : store.Reachable)
    (leads : store.LeadsTo after) : after.Reachable := by
  obtain ⟨start, fresh, led⟩ := reachable
  exact ⟨start, fresh, trans_of LeadsTo led leads⟩

/-- Every store that calls lead to is tidy. -/
theorem Reachable.tidy (reachable : store.Reachable) : store.Tidy := by
  obtain ⟨start, fresh, calls, rfl⟩ := reachable
  have moved : StaysTidy start (Action.after perform calls start) :=
    rel_after (moves_perform closed_staysTidy) calls start
  exact moved fresh.sound.tidy

/-- It is in order as long as it has allocated fewer than 2 ^ 32 times. -/
theorem Reachable.sound (reachable : store.Reachable)
    (few : store.allocations < Arithmetic.halfLimit) : store.Sound := by
  obtain ⟨start, fresh, calls, rfl⟩ := reachable
  have moved : Precedes start (Action.after perform calls start) :=
    rel_after (moves_perform closed_precedes) calls start
  exact (moved.inherits fresh.sound few).sound

end Store

end MergedSpans
