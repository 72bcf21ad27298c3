import MergedSpans.Store.Pool
import MergedSpans.Proofs.Store.Bitmap
import MergedSpans.Proofs.Store.Heap

/-! # What a pool keeps

A pool is two tables in one: its ledger is that of the slab joined with that of the overflow.

* `Pool.ledger` — the pool as seen through ids.
* `Pool.Sound` — both tiers are in order, the bitmap is in step with the slab, and the pool counts
  what it sends to the overflow.
* `firstFree?_eq_some`, `firstFree?_eq_none` — which slot an allocation takes.
* `allocate_occupies`, `allocate_spills` — what it leaves behind in either tier.
* `allocate_yields`, `release_yields`, `write_yields`, `reset_yields` — on a sound pool every
  change does to the ledger what its name says.
* `Event.ofStore` — the events of a store, which are the only ones that these changes report.
-/

namespace MergedSpans

/-- Is the event one that stores report? -/
def Event.ofStore : Event → Bool
  | exhausted .. | spilled .. | retiring .. => true
  | merging .. | deleting .. | trimming .. | splitting .. | clearing .. | oversubscribed ..
  | claimed .. => false

namespace Pool

/-- The node under an id, if there is one. -/
def get? (pool : Pool) (id : NodeId) : Option Node := (pool.node id).toOption

/-- The ledger of the slab alone. -/
def slabLedger (pool : Pool) : Ledger :=
  ⟨Slots.bound .slab pool.slots, Slots.issued .slab pool.slots, pool.live, pool.hits⟩

/-- The pool as seen through ids. -/
def ledger (pool : Pool) : Ledger :=
  ⟨pool.get?, Slots.issued .slab pool.slots ∪ pool.overflow.ledger.issued,
    pool.live + pool.overflow.live, pool.hits + pool.fallbacks⟩

theorem get?_eq_some_iff {pool : Pool} {id : NodeId} {node : Node} :
    pool.get? id = some node ↔ pool.node id = .ok node := by
  unfold get?
  cases pool.node id <;> simp [Except.toOption]

/-- Ids of the slab are unknown to the overflow. -/
theorem overflow_get?_of_slab (pool : Pool) {id : NodeId} (onSlab : id.tier = .slab) :
    pool.overflow.get? id = none := by
  rw [Heap.get?_eq_bound]
  exact Slots.bound_of_tier_ne (by simp [onSlab])

/-- Ids of the overflow are unknown to the slab. -/
theorem slab_bound_of_heap (pool : Pool) {id : NodeId} (onHeap : id.tier = .heap) :
    Slots.bound .slab pool.slots id = none := Slots.bound_of_tier_ne (by simp [onHeap])

/-- An id is looked up in its own tier. -/
theorem get?_eq_or (pool : Pool) (id : NodeId) :
    pool.get? id = (Slots.bound .slab pool.slots id).or (pool.overflow.get? id) := by
  apply Option.ext
  intro node
  rw [get?_eq_some_iff]
  cases tier : id.tier with
  | slab =>
    rw [node_eq_ok_iff_of_slab tier, pool.overflow_get?_of_slab tier, Option.or_none,
      Slots.bound_eq_some_iff, and_iff_right tier]
  | heap =>
    rw [node_eq_ok_iff_of_heap tier, pool.slab_bound_of_heap tier, Option.none_or,
      Heap.get?_eq_some_iff]

/-- An id of the slab is looked up in the slab. -/
theorem get?_of_slab (pool : Pool) {id : NodeId} (onSlab : id.tier = .slab) :
    pool.get? id = Slots.bound .slab pool.slots id := by
  rw [get?_eq_or, pool.overflow_get?_of_slab onSlab, Option.or_none]

/-- An id of the overflow is looked up in the overflow. -/
theorem get?_of_heap (pool : Pool) {id : NodeId} (onHeap : id.tier = .heap) :
    pool.get? id = pool.overflow.get? id := by
  rw [get?_eq_or, pool.slab_bound_of_heap onHeap, Option.none_or]

/-- What holds of a pool between calls. -/
structure Sound (pool : Pool) : Prop where
  /-- The uses of each slot of the slab are hits. -/
  bounded : Slots.Bounded pool.slots pool.hits
  /-- The bitmap is in step with the slots of the slab. -/
  marks : pool.used.Marks pool.slots
  /-- The pool counts the nodes in the slab. -/
  live_eq : pool.live = Slots.liveCount pool.slots
  /-- The overflow is in order. -/
  overflow : pool.overflow.Sound
  /-- The pool counts the allocations of the overflow. -/
  fallbacks_eq : pool.fallbacks = pool.overflow.allocations

/-- Where the pool has room for allocations, its overflow has. -/
theorem Sound.overflow_few {pool : Pool} (sound : pool.Sound)
    (few : pool.hits + pool.fallbacks < Arithmetic.halfLimit) :
    pool.overflow.allocations < Arithmetic.halfLimit := by
  rw [← sound.fallbacks_eq]
  omega

/-- The overflow can be replaced by another one that has allocated as often. -/
theorem Sound.withOverflow {pool : Pool} (sound : pool.Sound) {overflow : Heap}
    (kept : overflow.Sound) (same : overflow.allocations = pool.overflow.allocations) :
    Sound { pool with overflow := overflow } where
  bounded := sound.bounded
  marks := sound.marks
  live_eq := sound.live_eq
  overflow := kept
  fallbacks_eq := sound.fallbacks_eq.trans same.symm

/-- The ledger of a sound pool is that of its two tiers. -/
theorem Sound.ledger_eq {pool : Pool} (sound : pool.Sound) :
    pool.ledger = pool.slabLedger.join pool.overflow.ledger := by
  simp only [ledger, Ledger.join, slabLedger, Heap.ledger, funext pool.get?_eq_or,
    sound.fallbacks_eq]

/-- A new slab has unused slots only. -/
theorem eq_unused {slots index : Nat} {slot : Slot}
    (present : (ofSlots slots).slots[index]? = some slot) : slot = .unused := by
  simp only [ofSlots, Array.getElem?_replicate, Option.ite_none_right_eq_some,
    Option.some.injEq] at present
  exact present.2.symm

/-- A new slab holds no node. -/
theorem not_liveAt_ofSlots (slots index : Nat) : ¬ Slots.LiveAt (ofSlots slots).slots index := by
  rintro ⟨slot, present, live⟩
  rw [eq_unused present] at live
  cases live

/-- A new pool is in order. -/
theorem sound_ofSlots (slots : Nat) : (ofSlots slots).Sound where
  bounded := by
    intro index slot present
    rw [eq_unused present]
    exact ⟨by simp [Slot.unused], Nat.le_refl 0⟩
  marks := Bitmap.marks_clear slots
  live_eq := (Slots.liveCount_eq_zero (not_liveAt_ofSlots slots)).symm
  overflow := Heap.sound_empty
  fallbacks_eq := rfl

/-- A new pool has given out no id. -/
theorem ledger_ofSlots (slots : Nat) : (ofSlots slots).ledger = .empty := by
  have overflow : (ofSlots slots).overflow.ledger = .empty := Heap.ledger_empty
  rw [(sound_ofSlots slots).ledger_eq, overflow]
  apply Ledger.ext_of
  · intro id
    simp [Ledger.join, slabLedger, Slots.bound_eq_none (not_liveAt_ofSlots slots), Ledger.empty]
  · intro id
    simp only [Ledger.join, Ledger.empty, Set.union_empty, Set.mem_empty_iff_false, iff_false]
    rintro ⟨-, slot, present, less⟩
    rw [eq_unused present] at less
    cases less
  · rfl
  · rfl

/-! ## Emptying slots -/

section Vacate

variable {pool : Pool} {index : Nat} {slot : Slot}

/-- A slot that held a node is emptied in silence. -/
theorem vacate_yields (sound : pool.Sound) (few : pool.hits < Arithmetic.halfLimit)
    (present : pool.slots[index]? = some slot) (live : slot.isLive = true) :
    ∃ after, (vacate index).Yields pool () after [] ∧ after.Sound
      ∧ after.slots = pool.slots.modify index Slot.vacate
      ∧ after.slabLedger = pool.slabLedger.release (Slots.idAt .slab index slot)
      ∧ after.overflow = pool.overflow ∧ 0 < pool.live := by
  have small := sound.bounded.uses_lt few present
  have emptied := Slot.content_vacate live small
  have counted := Slots.liveCount_vacate present live
  rw [← sound.live_eq] at counted
  have positive : 0 < pool.live := by omega
  have inService : slot.vacate.isRetired = false := by simp [Slot.isRetired, emptied]
  refine ⟨{ pool with
    slots := pool.slots.modify index Slot.vacate
    used := pool.used.unset index
    live := pool.live - 1 }, ?_, ?_, rfl, ?_, rfl, positive⟩
  · apply Action.Yields.silent_bind (Action.yields_update rfl)
    have silent : (noteVacated index).Yields
        { pool with slots := pool.slots.modify index Slot.vacate } ()
        { pool with slots := pool.slots.modify index Slot.vacate, used := pool.used.unset index }
        [] := by
      apply Action.Yields.silent_bind (Action.yields_current _)
      simp only [Slots.getD_of_present (Slots.getElem?_modify_self present _), inService,
        Bool.false_eq_true, if_false]
      exact Action.yields_update rfl
    apply Action.Yields.silent_bind silent
    exact Action.Yields.silent_bind
      (Action.yields_read (Arithmetic.sub_eq_ok_iff.mpr ⟨positive, rfl⟩))
      (Action.yields_update rfl)
  · exact {
      bounded := sound.bounded.vacate few present live
      marks := sound.marks.vacate present inService
      live_eq := by
        show pool.live - 1 = Slots.liveCount (pool.slots.modify index Slot.vacate)
        omega
      overflow := sound.overflow
      fallbacks_eq := sound.fallbacks_eq }
  · simp only [slabLedger, Ledger.release, Slots.bound_vacate present,
      Slots.issued_modify present (Slot.uses_vacate live small)]

/-- What is left of a pool when the slots of the slab at `indices` have been emptied. -/
structure Emptied (pool : Pool) (indices : List Nat) (after : Pool) : Prop where
  /-- The pool is in order. -/
  sound : after.Sound
  /-- Nothing was allocated. -/
  hits_eq : after.hits = pool.hits
  /-- The overflow was left alone. -/
  overflow_eq : after.overflow = pool.overflow
  /-- Nothing was given out. -/
  issued_eq : Slots.issued .slab after.slots = Slots.issued .slab pool.slots
  /-- All other slots hold what they held. -/
  liveAt_iff : ∀ other,
    Slots.LiveAt after.slots other ↔ Slots.LiveAt pool.slots other ∧ other ∉ indices

/-- A look at a slot in use empties it. -/
theorem run_vacateLive_of_live (live : Slots.LiveAt pool.slots index) :
    (vacateLive index).run pool = (vacate index).run pool := by
  unfold vacateLive
  rw [Action.Yields.run_bind (Action.yields_current pool),
    if_pos (Slots.isLive_getD_iff.mpr live)]

/-- A look at any other slot does nothing. -/
theorem vacateLive_skips (empty : ¬ Slots.LiveAt pool.slots index) :
    (vacateLive index).Yields pool () pool [] := by
  apply Action.Yields.silent_bind (Action.yields_current pool)
  rw [if_neg (Slots.isLive_getD_iff.not.mpr empty)]
  exact Action.yields_pure _ _

/-- A slot is emptied or, without a node in it, left alone. -/
theorem vacateLive_yields (sound : pool.Sound) (few : pool.hits < Arithmetic.halfLimit)
    (index : Nat) :
    ∃ after, (vacateLive index).Yields pool () after [] ∧ Emptied pool [index] after := by
  by_cases liveAt : Slots.LiveAt pool.slots index
  · have same := run_vacateLive_of_live liveAt
    obtain ⟨slot, present, live⟩ := liveAt
    obtain ⟨after, yields, kept, slots, ledger, overflow, -⟩ :=
      vacate_yields sound few present live
    refine ⟨after, Action.Yields.of_run_eq same yields, {
      sound := kept
      hits_eq := congrArg Ledger.allocations ledger
      overflow_eq := overflow
      issued_eq := congrArg Ledger.issued ledger
      liveAt_iff := fun other => by
        rw [slots, Slots.liveAt_vacate, List.mem_singleton] }⟩
  · refine ⟨pool, vacateLive_skips liveAt, {
      sound := sound
      hits_eq := rfl
      overflow_eq := rfl
      issued_eq := rfl
      liveAt_iff := fun other => by
        refine (and_iff_left_of_imp fun live same => liveAt ?_).symm
        rwa [← List.mem_singleton.mp same] }⟩

/-- Slots are emptied one after another. -/
theorem forM_vacateLive_yields (sound : pool.Sound) (few : pool.hits < Arithmetic.halfLimit)
    (indices : List Nat) :
    ∃ after, (indices.forM vacateLive).Yields pool () after [] ∧ Emptied pool indices after := by
  -- Induction on the positions: what was emptied before stays so.
  induction indices generalizing pool with
  | nil =>
    exact ⟨pool, Action.yields_pure _ _, {
      sound := sound
      hits_eq := rfl
      overflow_eq := rfl
      issued_eq := rfl
      liveAt_iff := by simp }⟩
  | cons index rest induction =>
    obtain ⟨between, first, emptied⟩ := vacateLive_yields sound few index
    obtain ⟨after, others, all⟩ := induction emptied.sound (emptied.hits_eq ▸ few)
    refine ⟨after, Action.Yields.silent_bind first others, {
      sound := all.sound
      hits_eq := all.hits_eq.trans emptied.hits_eq
      overflow_eq := all.overflow_eq.trans emptied.overflow_eq
      issued_eq := all.issued_eq.trans emptied.issued_eq
      liveAt_iff := fun other => by
        rw [all.liveAt_iff, emptied.liveAt_iff, List.mem_singleton, List.mem_cons, not_or,
          and_assoc] }⟩

end Vacate

/-! ## The changes -/

section Changes

variable {pool : Pool} {id : NodeId} {node : Node}

/-- The first free slot is in the slab, and it is the first one that is vacant. -/
theorem firstFree?_eq_some (marks : pool.used.Marks pool.slots) {index : Nat}
    (first : pool.firstFree? = some index) :
    (∃ slot, pool.slots[index]? = some slot ∧ slot.content = .vacant)
      ∧ ∀ lower < index, ∃ slot, pool.slots[lower]? = some slot ∧ slot.content ≠ .vacant := by
  obtain ⟨found, inside⟩ := Option.filter_eq_some_iff.mp first
  exact marks.firstClear?_eq_some found (of_decide_eq_true inside)

/-- Where there is no free slot, no slot of the slab is vacant. -/
theorem firstFree?_eq_none (marks : pool.used.Marks pool.slots) (none : pool.firstFree? = none)
    {index : Nat} {slot : Slot} (present : pool.slots[index]? = some slot) :
    slot.content ≠ .vacant := by
  refine marks.firstClear?_eq_none (fun first found => ?_) present
  have outside := Option.filter_eq_none_iff.mp none first found
  exact Nat.not_lt.mp fun inside => outside (decide_eq_true inside)

/-- The pool with a node put into a slot of its slab. -/
def occupyAt (pool : Pool) (index : Nat) (span : Span) : Pool :=
  { pool with
    slots := pool.slots.modify index (·.occupy (.unlinked span))
    used := pool.used.set index
    live := pool.live + 1
    hits := pool.hits + 1 }

/-- The pool with an allocation served by its overflow. -/
def spillInto (pool : Pool) (overflow : Heap) : Pool :=
  { pool with spilled := true, fallbacks := pool.fallbacks + 1, overflow }

/-- What is told when a slot is asked for and none is free. -/
def spillNote (pool : Pool) : List Event := if pool.spilled then [] else [.exhausted pool.capacity]

theorem ofStore_spillNote (pool : Pool) : ∀ event ∈ pool.spillNote, event.ofStore = true := by
  unfold spillNote
  split <;> simp [Event.ofStore]

/-- A pool that is past its slab is noted to be so, whether it was before or not. -/
theorem noteSpill_yields (pool : Pool) :
    noteSpill.Yields pool () { pool with spilled := true } pool.spillNote := by
  unfold spillNote
  cases spilled : pool.spilled with
  | true =>
    apply Action.Yields.silent_bind (Action.yields_current _)
    simp only [spilled, if_true]
    rw [← spilled]
    exact Action.yields_pure _ _
  | false =>
    apply Action.Yields.silent_bind (Action.yields_current _)
    simp only [spilled, Bool.false_eq_true, if_false]
    exact Action.Yields.silent_bind (Action.yields_update rfl) (Action.yields_emit _ _)

/-- An allocation that finds a free slot gives out its present id. -/
theorem allocate_occupies {index : Nat} {slot : Slot} (first : pool.firstFree? = some index)
    (present : pool.slots[index]? = some slot) (span : Span) :
    (allocate span).Yields pool (Slots.idAt .slab index slot) (pool.occupyAt index span) [] := by
  apply Action.Yields.silent_bind (Action.yields_current _)
  simp only [first]
  apply Action.Yields.silent_bind (Action.yields_current _)
  rw [Slots.getD_of_present present]
  exact Action.Yields.silent_bind (Action.yields_update rfl) (Action.yields_pure _ _)

/-- An allocation that finds no free slot gives out the id that the overflow gives out. -/
theorem allocate_spills {overflow : Heap} {span : Span} (full : pool.firstFree? = none)
    (yields : (Heap.allocate span).Yields pool.overflow id overflow []) :
    (allocate span).Yields pool id (pool.spillInto overflow)
      (pool.spillNote ++ [.spilled span id]) := by
  apply Action.Yields.silent_bind (Action.yields_current _)
  simp only [full]
  apply Action.Yields.bind pool.noteSpill_yields
  apply Action.Yields.silent_bind (Action.yields_update rfl)
  apply Action.Yields.silent_bind (Action.Yields.within yields)
  exact Action.Yields.bind (Action.yields_emit _ _) (Action.yields_pure _ _)

/-- Neither of the two tells anything but what stores do. -/
theorem ofStore_spilled (pool : Pool) (span : Span) (id : NodeId) :
    ∀ event ∈ pool.spillNote ++ [.spilled span id], event.ofStore = true := by
  intro event member
  rcases List.mem_append.mp member with before | last
  · exact pool.ofStore_spillNote event before
  · rw [List.mem_singleton.mp last]
    rfl

/-- A vacant slot can be put to use. -/
theorem sound_occupyAt (sound : pool.Sound) {index : Nat} {slot : Slot}
    (present : pool.slots[index]? = some slot) (vacant : slot.content = .vacant) (span : Span) :
    (pool.occupyAt index span).Sound where
  bounded := sound.bounded.occupy present vacant _
  marks := sound.marks.occupy present _
  live_eq := by
    show pool.live + 1 = Slots.liveCount (pool.slots.modify index _)
    rw [Slots.liveCount_occupy present vacant, sound.live_eq]
  overflow := sound.overflow
  fallbacks_eq := sound.fallbacks_eq

/-- The overflow can serve one more allocation. -/
theorem sound_spillInto (sound : pool.Sound) {overflow : Heap} (kept : overflow.Sound)
    (counted : overflow.allocations = pool.overflow.allocations + 1) :
    (pool.spillInto overflow).Sound where
  bounded := sound.bounded
  marks := sound.marks
  live_eq := sound.live_eq
  overflow := kept
  fallbacks_eq := by
    show pool.fallbacks + 1 = overflow.allocations
    rw [counted, sound.fallbacks_eq]

/-- An allocation gives out a new id. -/
theorem allocate_yields (sound : pool.Sound)
    (few : pool.hits + pool.fallbacks < Arithmetic.halfLimit) (span : Span) :
    ∃ id after events, (allocate span).Yields pool id after events ∧ after.Sound
      ∧ id ∉ pool.ledger.issued ∧ after.ledger = pool.ledger.allocate id span
      ∧ ∀ event ∈ events, event.ofStore = true := by
  cases first : pool.firstFree? with
  | some index =>
    obtain ⟨⟨slot, present, vacant⟩, -⟩ := firstFree?_eq_some sound.marks first
    have occupied := sound_occupyAt sound present vacant span
    refine ⟨_, _, _, allocate_occupies first present span, occupied, ?_, ?_, by simp⟩
    · -- The slab has not yet given the id out, and the overflow never gives out ids of the slab.
      rintro (issued | ⟨onHeap, -⟩)
      · exact Slots.not_mem_issued_of_vacant present vacant issued
      · cases onHeap
    · rw [occupied.ledger_eq, sound.ledger_eq, ← Ledger.join_allocate_left]
      simp only [occupyAt, slabLedger, Ledger.allocate, Slots.bound_occupy present,
        Slots.issued_occupy present vacant]
  | none =>
    obtain ⟨id, overflow, yields, kept, onHeap, fresh, ledger⟩ :=
      Heap.allocate_yields sound.overflow (sound.overflow_few few) span
    have spilled := sound_spillInto sound kept (congrArg Ledger.allocations ledger)
    refine ⟨id, _, _, allocate_spills first yields, spilled, ?_, ?_, pool.ofStore_spilled span id⟩
    · rintro (⟨onSlab, -⟩ | issued)
      · rw [onHeap] at onSlab
        cases onSlab
      · exact fresh issued
    · rw [spilled.ledger_eq, sound.ledger_eq,
        ← Ledger.join_allocate_right (pool.slab_bound_of_heap onHeap), ← ledger]
      rfl

/-- A release takes back the id that it names. -/
theorem release_yields (sound : pool.Sound)
    (few : pool.hits + pool.fallbacks < Arithmetic.halfLimit) (found : pool.get? id = some node) :
    ∃ after, (release id).Yields pool () after [] ∧ after.Sound
      ∧ after.ledger = pool.ledger.release id := by
  unfold release
  -- The tier that does not know the id takes no part: its ledger stays as it was.
  cases tier : id.tier with
  | heap =>
    have fewer := sound.overflow_few few
    rw [pool.get?_of_heap tier] at found
    obtain ⟨overflow, yields, kept, ledger, positive⟩ :=
      Heap.release_yields sound.overflow fewer found
    have released := sound.withOverflow kept (congrArg Ledger.allocations ledger)
    refine ⟨_, Action.Yields.within yields, released, ?_⟩
    rw [released.ledger_eq, sound.ledger_eq,
      ← Ledger.join_release_right (pool.slab_bound_of_heap tier) positive, ← ledger]
    rfl
  | slab =>
    have answered := get?_eq_some_iff.mp found
    rw [pool.get?_of_slab tier] at found
    obtain ⟨slot, present, live, same⟩ := Slots.live_of_bound found
    obtain ⟨after, yields, kept, -, ledger, overflow, positive⟩ :=
      vacate_yields sound (by omega) present live
    refine ⟨after, Action.Yields.silent_bind (Action.yields_read answered) yields, kept, ?_⟩
    rw [kept.ledger_eq, sound.ledger_eq, ledger, overflow, same]
    exact Ledger.join_release_left (pool.overflow_get?_of_slab tier) positive

/-- A write changes the node of the id that it names. -/
theorem write_yields (sound : pool.Sound) (found : pool.get? id = some node)
    (change : Node → Node) :
    ∃ after, (write id change).Yields pool () after [] ∧ after.Sound
      ∧ after.ledger = pool.ledger.write id change := by
  unfold write
  cases tier : id.tier with
  | heap =>
    rw [pool.get?_of_heap tier] at found
    obtain ⟨overflow, yields, kept, ledger⟩ := Heap.write_yields sound.overflow found change
    have written := sound.withOverflow kept (congrArg Ledger.allocations ledger)
    refine ⟨_, Action.Yields.within yields, written, ?_⟩
    rw [written.ledger_eq, sound.ledger_eq,
      ← Ledger.join_write_right (pool.slab_bound_of_heap tier), ← ledger]
    rfl
  | slab =>
    have answered := get?_eq_some_iff.mp found
    rw [pool.get?_of_slab tier] at found
    obtain ⟨slot, present, live, same⟩ := Slots.live_of_bound found
    have written : Pool.Sound { pool with
        slots := pool.slots.modify id.index (·.write change) } := {
      bounded := sound.bounded.write present change
      marks := sound.marks.write present change
      live_eq := by
        rw [Slots.liveCount_write present, sound.live_eq]
      overflow := sound.overflow
      fallbacks_eq := sound.fallbacks_eq }
    refine ⟨_, Action.Yields.silent_bind (Action.yields_read answered) (Action.yields_update rfl),
      written, ?_⟩
    rw [written.ledger_eq, sound.ledger_eq,
      ← Ledger.join_write_left (pool.overflow_get?_of_slab tier)]
    simp only [slabLedger, Ledger.write, Slots.bound_write found,
      Slots.issued_modify present (Slot.uses_write change slot)]

/-- Nothing is released through an id that reaches nothing. -/
theorem release_refuses {fault : Fault} (refused : pool.node id = .error fault) :
    (release id).Refuses pool fault := by
  unfold release
  cases tier : id.tier with
  | heap =>
    rw [Pool.node, tier] at refused
    exact Action.Refuses.within (Heap.release_refuses refused) rfl
  | slab => exact Action.Refuses.bind (Action.refuses_read refused)

/-- Nothing is written through an id that reaches nothing. -/
theorem write_refuses {fault : Fault} (refused : pool.node id = .error fault)
    (change : Node → Node) : (write id change).Refuses pool fault := by
  unfold write
  cases tier : id.tier with
  | heap =>
    rw [Pool.node, tier] at refused
    exact Action.Refuses.within (Heap.write_refuses refused change) rfl
  | slab => exact Action.Refuses.bind (Action.refuses_read refused)

/-- A reset takes back every id. -/
theorem reset_yields (sound : pool.Sound)
    (few : pool.hits + pool.fallbacks < Arithmetic.halfLimit) :
    ∃ after, reset.Yields pool () after [] ∧ after.Sound
      ∧ after.ledger = pool.ledger.reset := by
  have fewer := sound.overflow_few few
  obtain ⟨between, yields, emptied⟩ :=
    forM_vacateLive_yields sound (by omega) (List.range pool.capacity)
  -- The slab is empty, and so is the overflow.
  have dead : ∀ index, ¬ Slots.LiveAt between.slots index :=
    Slots.not_liveAt_of_range emptied.liveAt_iff
  obtain ⟨kept, ledger⟩ := Heap.sound_reset sound.overflow fewer
  have overflow := emptied.overflow_eq
  rw [← overflow] at kept ledger
  have clean := emptied.sound.withOverflow kept (congrArg Ledger.allocations ledger)
  refine ⟨{ between with overflow := between.overflow.reset }, ?_, clean, ?_⟩
  · apply Action.Yields.silent_bind (Action.yields_current _)
    exact Action.Yields.silent_bind yields (Action.Yields.within (Action.yields_update rfl))
  · rw [clean.ledger_eq, sound.ledger_eq, ← Ledger.join_reset, ← overflow, ← ledger]
    simp only [slabLedger, Ledger.reset, Slots.bound_eq_none dead, emptied.issued_eq,
      emptied.hits_eq, emptied.sound.live_eq, Slots.liveCount_eq_zero dead]

end Changes

end Pool

end MergedSpans
