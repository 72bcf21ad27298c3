import MergedSpans.Proofs.Store.Growth

/-! # Ids that have gone stale

An id that was given out and reaches no node any more never reaches one again, whatever becomes of
the slot that it names. So whoever has kept an id too long is told so at any later time.

* `Store.Stale` — an id that has been given out and taken back.
* `Store.Precedes` — one store is an earlier state of another: what is in order stays so, and what
  is stale stays so, as long as there is room for the allocations.
* `Store.closed_precedes` — every change of a store leads to a later state.
-/

namespace MergedSpans

open MergedSpans.Action

namespace Store

/-- The id was given out, and reaches no node any more. -/
def Stale (store : Store) (id : NodeId) : Prop := id ∈ store.ledger.issued ∧ store.get? id = none

/-- What a store in order takes over from an earlier state of it. -/
structure Inherits (before after : Store) : Prop where
  /-- The store is in order. -/
  sound : after.Sound
  /-- Ids that were given out stay so. -/
  issued_subset : before.ledger.issued ⊆ after.ledger.issued
  /-- Ids that have gone stale stay so. -/
  stale : ∀ id, before.Stale id → after.Stale id

/-- One store is an earlier state of another. -/
structure Precedes (before after : Store) : Prop where
  /-- Allocations are never taken back. -/
  allocations_le : before.allocations ≤ after.allocations
  /-- With few allocations in the end, the later store is what the earlier one has led to. -/
  inherits : before.Sound → after.allocations < Arithmetic.halfLimit → Inherits before after

section Changes

variable {before between after : Store} {id : NodeId}

theorem inherits_refl (sound : before.Sound) : Inherits before before :=
  ⟨sound, subset_rfl, fun _ stale => stale⟩

instance : Std.Refl Precedes := ⟨fun _ => ⟨Nat.le_refl _, fun sound _ => inherits_refl sound⟩⟩

/-- Room in the end is room on the way, so what is inherited twice is inherited. -/
instance : IsTrans Store Precedes where
  trans _ _ _ first second := by
    refine ⟨first.allocations_le.trans second.allocations_le, fun sound few => ?_⟩
    have earlier := first.inherits sound (second.allocations_le.trans_lt few)
    have later := second.inherits earlier.sound few
    exact ⟨later.sound, earlier.issued_subset.trans later.issued_subset,
      fun id stale => later.stale id (earlier.stale id stale)⟩

/-- A store inherits what a change of its ledger leaves of it. -/
theorem inherits_of_ledger (sound : after.Sound)
    (issued_subset : before.ledger.issued ⊆ after.ledger.issued)
    (unbound : ∀ id, before.Stale id → after.get? id = none) : Inherits before after where
  sound := sound
  issued_subset := issued_subset
  stale := fun id stale => ⟨issued_subset stale.1, unbound id stale⟩

/-- An action leads to a later state when it takes no allocation back, and a store with room for
allocations inherits what it had. -/
theorem moves_precedes {α : Type} {action : Action Store α}
    (ascends : action.Moves (Ascends allocations))
    (inherits : ∀ store : Store, store.Sound → store.allocations < Arithmetic.halfLimit →
      Inherits store (action.run store).state) : action.Moves Precedes :=
  fun store => ⟨ascends store, fun sound few =>
    inherits store sound (Nat.lt_of_le_of_lt (ascends store) few)⟩

theorem inherits_allocate (sound : before.Sound)
    (few : before.allocations < Arithmetic.halfLimit) (span : Span) :
    Inherits before ((allocate span).run before).state := by
  obtain ⟨id, after, events, yields, kept, new, ledger, -⟩ := allocate_yields sound few span
  have bound : after.get? = Function.update before.get? id (some (.unlinked span)) :=
    congrArg Ledger.bound ledger
  rw [yields.state_eq]
  refine inherits_of_ledger kept ?_ fun other stale => ?_
  · rw [ledger]
    exact Set.subset_insert _ _
  · -- A stale id was given out before, so it is not the new one.
    rw [bound, Function.update_of_ne (ne_of_mem_of_not_mem stale.1 new), stale.2]

theorem inherits_release (sound : before.Sound)
    (few : before.allocations < Arithmetic.halfLimit) (id : NodeId) :
    Inherits before ((release id).run before).state := by
  cases found : before.get? id with
  | none =>
    obtain ⟨fault, refuses⟩ := release_refuses found
    rw [refuses.state_eq]
    exact inherits_refl sound
  | some node =>
    obtain ⟨after, yields, kept, ledger⟩ := release_yields sound few found
    have bound : after.get? = Function.update before.get? id none := congrArg Ledger.bound ledger
    rw [yields.state_eq]
    refine inherits_of_ledger kept (by rw [ledger]; rfl) fun other stale => ?_
    rw [bound, Function.update_apply, stale.2, ite_self]

theorem inherits_write (sound : before.Sound) (id : NodeId) (change : Node → Node) :
    Inherits before ((write id change).run before).state := by
  cases found : before.get? id with
  | none =>
    obtain ⟨fault, refuses⟩ := write_refuses found change
    rw [refuses.state_eq]
    exact inherits_refl sound
  | some node =>
    obtain ⟨after, yields, kept, ledger⟩ := write_yields sound found change
    have bound : after.get? = Function.update before.get? id ((before.get? id).map change) :=
      congrArg Ledger.bound ledger
    rw [yields.state_eq]
    refine inherits_of_ledger kept (by rw [ledger]; rfl) fun other stale => ?_
    -- The written id reaches a node, so it is not the stale one.
    have apart : other ≠ id := by
      rintro rfl
      rw [stale.2] at found
      cases found
    rw [bound, Function.update_of_ne apart, stale.2]

theorem inherits_reset (sound : before.Sound) (few : before.allocations < Arithmetic.halfLimit) :
    Inherits before (reset.run before).state := by
  obtain ⟨after, yields, kept, ledger⟩ := reset_yields sound few
  have bound : after.get? = fun _ => none := congrArg Ledger.bound ledger
  rw [yields.state_eq]
  refine inherits_of_ledger kept (by rw [ledger]; rfl) fun other _ => ?_
  rw [bound]

/-- Every change of a store leads to a later state of it. -/
theorem closed_precedes : Closed Precedes where
  allocate := fun span => moves_precedes (closed_ascends.allocate span) fun _ sound few =>
    inherits_allocate sound few span
  release := fun id => moves_precedes (closed_ascends.release id) fun _ sound few =>
    inherits_release sound few id
  write := fun id change => moves_precedes (closed_ascends.write id change) fun _ sound _ =>
    inherits_write sound id change
  reset := moves_precedes closed_ascends.reset fun _ sound few => inherits_reset sound few

end Changes

end Store

end MergedSpans
