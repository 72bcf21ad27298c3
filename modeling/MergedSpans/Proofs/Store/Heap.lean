import MergedSpans.Store.Heap
import MergedSpans.Proofs.Runs
import MergedSpans.Proofs.Store.Ledger
import MergedSpans.Proofs.Store.Slots

/-! # What a growing table keeps

* `Heap.ledger` — the table as seen through ids.
* `Heap.Regular`, `Heap.Sound` — the free list holds exactly the vacant slots, the uses of the
  slots are bounded by the allocations, and the table counts its nodes.
* `allocate_yields`, `release_yields`, `write_yields`, `sound_reset` — on a sound table every
  change does to the ledger what its name says. A slot is retired only after 2 ^ 32 uses, so below
  that number of allocations no change meets a fault.
-/

namespace MergedSpans

namespace Heap

/-- The node under an id, if there is one. -/
def get? (heap : Heap) (id : NodeId) : Option Node := (heap.node id).toOption

/-- The table as seen through ids. -/
def ledger (heap : Heap) : Ledger :=
  ⟨heap.get?, Slots.issued .heap heap.slots, heap.live, heap.allocations⟩

theorem get?_eq_some_iff {heap : Heap} {id : NodeId} {node : Node} :
    heap.get? id = some node ↔ heap.node id = .ok node := by
  unfold get?
  cases heap.node id <;> simp [Except.toOption]

/-- An id reaches what its slot shows. -/
theorem get?_eq_bound (heap : Heap) : heap.get? = Slots.bound .heap heap.slots := by
  funext id
  apply Option.ext
  intro node
  rw [get?_eq_some_iff, node_eq_ok_iff, Slots.bound_eq_some_iff]

/-- What holds of a table at any time, also in the middle of a reset. -/
structure Regular (heap : Heap) : Prop where
  /-- The uses of each slot are allocations of the table. -/
  bounded : Slots.Bounded heap.slots heap.allocations
  /-- Every slot was added by an allocation. -/
  size_le : heap.slots.size ≤ heap.allocations
  /-- No slot is listed twice as free. -/
  nodup : heap.free.Nodup
  /-- Exactly the vacant slots are listed as free. -/
  mem_free : ∀ index,
    index ∈ heap.free ↔ ∃ slot, heap.slots[index]? = some slot ∧ slot.content = .vacant

/-- What holds of a table between calls. -/
structure Sound (heap : Heap) : Prop extends Regular heap where
  /-- The table counts its nodes. -/
  live_eq : heap.live = Slots.liveCount heap.slots

/-- A table without slots is in order. -/
theorem sound_empty : Sound .empty where
  bounded := by
    intro index slot present
    simp [empty] at present
  size_le := Nat.le_refl 0
  nodup := List.nodup_nil
  mem_free := by simp [empty]
  live_eq := rfl

/-- A table without slots has no ids. -/
theorem ledger_empty : ledger .empty = .empty := by
  apply Ledger.ext_of
  · intro id
    simp [ledger, get?_eq_bound, Slots.bound, empty, Ledger.empty]
  · intro id
    simp [ledger, Slots.mem_issued, empty, Ledger.empty]
  · rfl
  · rfl

/-! ## Emptying slots -/

section Vacate

variable {heap : Heap} {index : Nat} {slot : Slot}

/-- A slot that held a node becomes the first free one. -/
theorem Regular.vacate_eq (regular : heap.Regular) (few : heap.allocations < Arithmetic.halfLimit)
    (present : heap.slots[index]? = some slot) (live : slot.isLive = true) :
    heap.vacate index
      = { heap with slots := heap.slots.modify index Slot.vacate, free := index :: heap.free } := by
  have emptied := Slot.content_vacate live (regular.bounded.uses_lt few present)
  simp [vacate, Slots.getD_of_present present, Slot.isRetired, emptied]

/-- A table is in order after one of its slots was emptied. -/
theorem Regular.vacate (regular : heap.Regular) (few : heap.allocations < Arithmetic.halfLimit)
    (present : heap.slots[index]? = some slot) (live : slot.isLive = true) :
    (heap.vacate index).Regular := by
  have emptied := Slot.content_vacate live (regular.bounded.uses_lt few present)
  rw [regular.vacate_eq few present live]
  exact {
    bounded := regular.bounded.vacate few present live
    size_le := by simpa using regular.size_le
    nodup := by
      refine List.nodup_cons.mpr ⟨fun listed => ?_, regular.nodup⟩
      -- A slot that is listed as free is vacant, and this one held a node.
      obtain ⟨other, found, vacant⟩ := (regular.mem_free index).mp listed
      rw [present] at found
      obtain rfl := Option.some.inj found
      simp [Slot.isLive_eq_false_of_vacant vacant] at live
    mem_free := by
      intro other
      rw [List.mem_cons, Array.getElem?_modify]
      by_cases same : index = other
      · subst same
        simp [present, emptied]
      · simp [same, Ne.symm same, regular.mem_free other] }

/-- Emptying a slot gives out nothing. -/
theorem Regular.issued_vacate (regular : heap.Regular)
    (few : heap.allocations < Arithmetic.halfLimit) (present : heap.slots[index]? = some slot)
    (live : slot.isLive = true) (tier : Tier) :
    Slots.issued tier (heap.vacate index).slots = Slots.issued tier heap.slots :=
  Slots.issued_modify present (Slot.uses_vacate live (regular.bounded.uses_lt few present))

theorem vacateLive_of_live (live : Slots.LiveAt heap.slots index) :
    heap.vacateLive index = heap.vacate index := if_pos (Slots.isLive_getD_iff.mpr live)

theorem vacateLive_of_empty (empty : ¬ Slots.LiveAt heap.slots index) :
    heap.vacateLive index = heap := if_neg (Slots.isLive_getD_iff.not.mpr empty)

/-- A slot is emptied or left alone without harm to the table. -/
theorem Regular.vacateLive (regular : heap.Regular)
    (few : heap.allocations < Arithmetic.halfLimit) (index : Nat) (tier : Tier) :
    (heap.vacateLive index).Regular
      ∧ (heap.vacateLive index).allocations = heap.allocations
      ∧ Slots.issued tier (heap.vacateLive index).slots = Slots.issued tier heap.slots := by
  by_cases liveAt : Slots.LiveAt heap.slots index
  · rw [vacateLive_of_live liveAt]
    obtain ⟨slot, present, live⟩ := liveAt
    exact ⟨regular.vacate few present live, rfl, regular.issued_vacate few present live tier⟩
  · rw [vacateLive_of_empty liveAt]
    exact ⟨regular, rfl, rfl⟩

/-- A slot without a node is left alone, which makes no difference to where nodes are. -/
theorem liveAt_vacateLive (heap : Heap) (index other : Nat) :
    Slots.LiveAt (heap.vacateLive index).slots other
      ↔ Slots.LiveAt heap.slots other ∧ other ≠ index := by
  by_cases liveAt : Slots.LiveAt heap.slots index
  · rw [vacateLive_of_live liveAt]
    exact Slots.liveAt_vacate heap.slots index other
  · rw [vacateLive_of_empty liveAt]
    refine (and_iff_left_of_imp ?_).symm
    rintro live rfl
    exact liveAt live

/-- Slots that are emptied one after another. -/
theorem Regular.foldl_vacateLive (regular : heap.Regular)
    (few : heap.allocations < Arithmetic.halfLimit) (indices : List Nat) (tier : Tier) :
    (indices.foldl Heap.vacateLive heap).Regular
      ∧ (indices.foldl Heap.vacateLive heap).allocations = heap.allocations
      ∧ Slots.issued tier (indices.foldl Heap.vacateLive heap).slots
        = Slots.issued tier heap.slots := by
  -- Induction on the positions; the number of nodes is not looked at before the end.
  induction indices generalizing heap with
  | nil => exact ⟨regular, rfl, rfl⟩
  | cons index rest induction =>
    obtain ⟨kept, allocations, issued⟩ := regular.vacateLive few index tier
    rw [List.foldl_cons, ← allocations, ← issued]
    exact induction kept (allocations ▸ few)

/-- Nodes are left in the slots that were passed over. -/
theorem liveAt_foldl_vacateLive (heap : Heap) (indices : List Nat) (other : Nat) :
    Slots.LiveAt (indices.foldl Heap.vacateLive heap).slots other
      ↔ Slots.LiveAt heap.slots other ∧ other ∉ indices := by
  induction indices generalizing heap with
  | nil => simp
  | cons index rest induction =>
    rw [List.foldl_cons, induction, liveAt_vacateLive, List.mem_cons, not_or, and_assoc]

end Vacate

/-! ## The changes -/

section Changes

variable {heap : Heap} {id : NodeId} {node : Node}

/-- An allocation takes the first free slot and gives out its present id. -/
theorem allocate_reuses (sound : heap.Sound) {index : Nat} {rest : List Nat}
    (listed : heap.free = index :: rest) (span : Span) :
    ∃ id after, (allocate span).Yields heap id after [] ∧ after.Sound ∧ id.tier = .heap
      ∧ id ∉ heap.ledger.issued ∧ after.ledger = heap.ledger.allocate id span := by
  -- Only vacant slots are listed as free.
  obtain ⟨slot, present, vacant⟩ := (sound.mem_free index).mp (by simp [listed])
  have nodup := listed ▸ sound.nodup
  refine ⟨Slots.idAt .heap index slot, { heap with
    slots := heap.slots.modify index (·.occupy (.unlinked span))
    free := rest
    live := heap.live + 1
    allocations := heap.allocations + 1 }, ?_, ?_, rfl, ?_, ?_⟩
  · apply Action.Yields.silent_bind (Action.yields_update rfl)
    apply Action.Yields.silent_bind (Action.yields_current _)
    simp only [listed, Slots.getD_of_present present]
    exact Action.Yields.silent_bind (Action.yields_update rfl) (Action.yields_pure _ _)
  · exact {
      bounded := sound.bounded.occupy present vacant _
      size_le := by
        rw [Array.size_modify]
        exact Nat.le_succ_of_le sound.size_le
      nodup := (List.nodup_cons.mp nodup).2
      mem_free := by
        intro other
        have members := sound.mem_free other
        simp only [listed, List.mem_cons] at members
        rw [Array.getElem?_modify]
        by_cases same : index = other
        · subst same
          simp [present, (List.nodup_cons.mp nodup).1, Slot.occupy]
        · simpa [same, Ne.symm same] using members
      live_eq := by
        rw [Slots.liveCount_occupy present vacant, sound.live_eq] }
  · exact Slots.not_mem_issued_of_vacant present vacant
  · simp only [ledger, Ledger.allocate, get?_eq_bound, Slots.bound_occupy present,
      Slots.issued_occupy present vacant]

/-- An allocation that finds no free slot adds one and gives out its first id. -/
theorem allocate_grows (sound : heap.Sound) (few : heap.allocations < Arithmetic.halfLimit)
    (listed : heap.free = []) (span : Span) :
    ∃ id after, (allocate span).Yields heap id after [] ∧ after.Sound ∧ id.tier = .heap
      ∧ id ∉ heap.ledger.issued ∧ after.ledger = heap.ledger.allocate id span := by
  -- Every slot was added by an allocation, so there are few of them.
  have room := Nat.lt_of_le_of_lt sound.size_le few
  refine ⟨Slots.idAt .heap heap.slots.size .unused, { heap with
    slots := heap.slots.push (Slot.unused.occupy (.unlinked span))
    live := heap.live + 1
    allocations := heap.allocations + 1 }, ?_, ?_, rfl, ?_, ?_⟩
  · apply Action.Yields.silent_bind (Action.yields_update rfl)
    apply Action.Yields.silent_bind (Action.yields_current _)
    simp only [listed, room, if_true]
    exact Action.Yields.silent_bind (Action.yields_update rfl) (Action.yields_pure _ _)
  · exact {
      bounded := (sound.bounded.mono (Nat.le_succ _)).push (by simp [Slot.occupy])
        (by simp [Slot.uses, Slot.unused])
      size_le := by
        rw [Array.size_push]
        exact Nat.succ_le_succ sound.size_le
      nodup := sound.nodup
      mem_free := by
        intro other
        rw [sound.mem_free other, Array.getElem?_push]
        by_cases last : other = heap.slots.size
        · simp [last, Slot.occupy]
        · simp [last]
      live_eq := by
        rw [Slots.liveCount_push, Slot.isLive_occupy, sound.live_eq]
        rfl }
  · exact Slots.not_mem_issued_size .heap heap.slots .unused
  · simp only [ledger, Ledger.allocate, get?_eq_bound, Slots.bound_push, Slots.issued_push]

/-- An allocation gives out a new id. -/
theorem allocate_yields (sound : heap.Sound) (few : heap.allocations < Arithmetic.halfLimit)
    (span : Span) :
    ∃ id after, (allocate span).Yields heap id after [] ∧ after.Sound ∧ id.tier = .heap
      ∧ id ∉ heap.ledger.issued ∧ after.ledger = heap.ledger.allocate id span := by
  cases listed : heap.free with
  | nil => exact allocate_grows sound few listed span
  | cons index rest => exact allocate_reuses sound listed span

/-- The table with another count of its nodes. -/
def withLive (heap : Heap) (live : Nat) : Heap := { heap with live }

/-- A release of an id that reaches a node empties its slot, and counts the node off. -/
theorem release_vacates (found : heap.get? id = some node) (positive : 0 < heap.live) :
    (release id).Yields heap () ((heap.vacate id.index).withLive (heap.live - 1)) [] := by
  refine Action.Yields.silent_bind (Action.yields_read (get?_eq_some_iff.mp found)) ?_
  apply Action.Yields.silent_bind (Action.yields_update rfl)
  exact Action.Yields.silent_bind
    (Action.yields_read (Arithmetic.sub_eq_ok_iff.mpr ⟨positive, rfl⟩))
    (Action.yields_update rfl)

/-- A release takes back the id that it names. -/
theorem release_yields (sound : heap.Sound) (few : heap.allocations < Arithmetic.halfLimit)
    (found : heap.get? id = some node) :
    ∃ after, (release id).Yields heap () after [] ∧ after.Sound
      ∧ after.ledger = heap.ledger.release id ∧ 0 < heap.live := by
  obtain ⟨slot, present, live, same⟩ := Slots.live_of_bound (get?_eq_bound heap ▸ found)
  have regular := sound.vacate few present live
  have counted := Slots.liveCount_vacate present live
  rw [← sound.live_eq] at counted
  have positive : 0 < heap.live := by omega
  have slots_eq : ((heap.vacate id.index).withLive (heap.live - 1)).slots
      = heap.slots.modify id.index Slot.vacate := rfl
  refine ⟨(heap.vacate id.index).withLive (heap.live - 1), release_vacates found positive, ?_, ?_,
    positive⟩
  · exact {
      bounded := regular.bounded
      size_le := regular.size_le
      nodup := regular.nodup
      mem_free := regular.mem_free
      live_eq := by
        show heap.live - 1 = Slots.liveCount (heap.slots.modify id.index Slot.vacate)
        omega }
  · simp only [ledger, Ledger.release, get?_eq_bound, slots_eq, Slots.bound_vacate present, same,
      Slots.issued_modify present (Slot.uses_vacate live (sound.bounded.uses_lt few present))]
    rfl

/-- A write changes the node of the id that it names. -/
theorem write_yields (sound : heap.Sound) (found : heap.get? id = some node)
    (change : Node → Node) :
    ∃ after, (write id change).Yields heap () after [] ∧ after.Sound
      ∧ after.ledger = heap.ledger.write id change := by
  have bound := get?_eq_bound heap ▸ found
  obtain ⟨slot, present, live, same⟩ := Slots.live_of_bound bound
  refine ⟨{ heap with slots := heap.slots.modify id.index (·.write change) }, ?_, ?_, ?_⟩
  · exact Action.Yields.silent_bind (Action.yields_read (get?_eq_some_iff.mp found))
      (Action.yields_update rfl)
  · exact {
      bounded := sound.bounded.write present change
      size_le := by simpa using sound.size_le
      nodup := sound.nodup
      mem_free := by
        intro other
        rw [sound.mem_free other, Array.getElem?_modify]
        split
        · next same =>
          subst same
          simp [present, Slot.content_write_eq_iff]
        · exact Iff.rfl
      live_eq := by
        rw [Slots.liveCount_write present, sound.live_eq] }
  · simp only [ledger, Ledger.write, get?_eq_bound, Slots.bound_write bound,
      Slots.issued_modify present (Slot.uses_write change slot)]

/-- Nothing is released through an id that reaches nothing. -/
theorem release_refuses {fault : Fault} (refused : heap.node id = .error fault) :
    (release id).Refuses heap fault := Action.Refuses.bind (Action.refuses_read refused)

/-- Nothing is written through an id that reaches nothing. -/
theorem write_refuses {fault : Fault} (refused : heap.node id = .error fault)
    (change : Node → Node) : (write id change).Refuses heap fault :=
  Action.Refuses.bind (Action.refuses_read refused)

/-- A reset takes back every id. -/
theorem sound_reset (sound : heap.Sound) (few : heap.allocations < Arithmetic.halfLimit) :
    heap.reset.Sound ∧ heap.reset.ledger = heap.ledger.reset := by
  obtain ⟨regular, allocations, issued⟩ :=
    sound.foldl_vacateLive few (List.range heap.slots.size) .heap
  have emptied : ∀ index, ¬ Slots.LiveAt heap.reset.slots index :=
    Slots.not_liveAt_of_range (liveAt_foldl_vacateLive heap _)
  constructor
  · exact {
      bounded := regular.bounded
      size_le := regular.size_le
      nodup := regular.nodup
      mem_free := regular.mem_free
      live_eq := (Slots.liveCount_eq_zero emptied).symm }
  · simp only [ledger, Ledger.reset, get?_eq_bound, Slots.bound_eq_none emptied, Ledger.mk.injEq,
      true_and]
    exact ⟨issued, rfl, allocations⟩

end Changes

end Heap

end MergedSpans
