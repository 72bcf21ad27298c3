import MergedSpans.Proofs.Store.Basic
import Mathlib.Data.List.Induction
import Mathlib.Data.List.Perm.Subperm
import Mathlib.Data.List.Sigma

/-! # The nodes of a store, listed

A store counts its nodes. Listed by slot they are as many as it has counted, and that list holds
every id that reaches a node just once; so the count tells how long a list of such ids can be.

* `Slots.roster`, `Store.roster` — the ids of the nodes.
* `Store.mem_roster_iff`, `Store.nodup_roster` — they are those that reach a node, each once.
* `Store.Sound.live_eq` — a store in order has counted them.
-/

namespace MergedSpans

namespace Slots

variable {tier : Tier} {slots : Array Slot} {id : NodeId}

/-- The id of the node in a slot, if there is one. -/
def occupant? (tier : Tier) (entry : Slot × Nat) : Option NodeId :=
  if entry.1.isLive then some (idAt tier entry.2 entry.1) else none

/-- The ids of the nodes in the slots of a tier, by position. -/
def roster (tier : Tier) (slots : Array Slot) : List NodeId :=
  slots.toList.zipIdx.filterMap (occupant? tier)

/-- The listed ids are those that reach a node. -/
theorem mem_roster_iff : id ∈ roster tier slots ↔ (bound tier slots id).isSome := by
  unfold roster
  rw [List.mem_filterMap]
  constructor
  · rintro ⟨⟨slot, index⟩, member, named⟩
    have present : slots[index]? = some slot := by
      have found := List.mem_zipIdx_iff_getElem?.mp member
      rwa [Array.getElem?_toList] at found
    by_cases live : slot.isLive
    · rw [occupant?, if_pos live] at named
      obtain rfl := Option.some.inj named
      exact isSome_bound_of_live tier present live
    · rw [occupant?, if_neg live] at named
      cases named
  · intro reached
    obtain ⟨node, found⟩ := Option.isSome_iff_exists.mp reached
    obtain ⟨slot, present, live, same⟩ := live_of_bound found
    refine ⟨(slot, id.index), ?_, ?_⟩
    · rw [List.mem_zipIdx_iff_getElem?, Array.getElem?_toList]
      exact present
    · rw [occupant?, if_pos live]
      exact congrArg some same

/-- No id is listed twice, because no two slots have the same position. -/
theorem nodup_roster (tier : Tier) (slots : Array Slot) : (roster tier slots).Nodup := by
  have positions : (slots.toList.zipIdx.map Prod.snd).Nodup := List.nodup_zipIdx_map_snd _
  refine List.pairwise_filterMap.mpr ((List.pairwise_map.mp positions).imp ?_)
  intro first second apart left named right other same
  unfold occupant? at named other
  split at named
  · split at other
    · obtain rfl := Option.some.inj named
      obtain rfl := Option.some.inj other
      exact apart (congrArg NodeId.index same)
    · cases other
  · cases named

/-- As many ids are listed as there are nodes. -/
theorem length_roster (tier : Tier) (slots : Array Slot) :
    (roster tier slots).length = liveCount slots := by
  have named : ∀ entry : Slot × Nat, (occupant? tier entry).isSome = entry.1.isLive := by
    intro entry
    unfold occupant?
    split <;> simp_all
  unfold roster liveCount
  rw [List.length_filterMap_eq_countP, ← Array.countP_toList]
  simp only [named]
  rw [← List.zipIdx_map_fst 0 slots.toList, List.countP_map]
  simp [Function.comp_def]

/-- The id of the node at a position, if there is one. -/
def occupantAt? (tier : Tier) (slots : Array Slot) (index : Nat) : Option NodeId :=
  slots[index]?.bind fun slot => occupant? tier (slot, index)

theorem isSome_occupantAt? {index : Nat} :
    (occupantAt? tier slots index).isSome ↔ LiveAt slots index := by
  unfold occupantAt? LiveAt occupant?
  cases slots[index]? <;> simp

/-- The ids of the nodes are those found at the positions, one after another. -/
theorem roster_eq (tier : Tier) (slots : Array Slot) :
    roster tier slots = (List.range slots.size).filterMap (occupantAt? tier slots) := by
  have listed : ∀ list : List Slot, list.zipIdx.filterMap (occupant? tier)
      = (List.range list.length).filterMap
        fun index => list[index]?.bind fun slot => occupant? tier (slot, index) := by
    intro list
    -- Induction from the last slot back, because positions are counted from the first.
    induction list using List.reverseRecOn with
    | nil => rfl
    | append_singleton init last induction =>
      rw [List.zipIdx_append, List.filterMap_append, induction, List.length_append,
        List.length_singleton, List.range_succ, List.filterMap_append]
      congr 1
      · refine List.filterMap_congr fun index inside => ?_
        rw [List.getElem?_append_left (List.mem_range.mp inside)]
      · simp [List.filterMap_cons]
  unfold roster occupantAt?
  simpa using listed slots.toList

end Slots

namespace Store

variable {store : Store} {id : NodeId} {ids : List NodeId}

/-- The ids of the nodes in a store. -/
def roster : Store → List NodeId
  | .heap table => Slots.roster .heap table.slots
  | .pool slab => Slots.roster .slab slab.slots ++ Slots.roster .heap slab.overflow.slots

/-- The listed ids are those that reach a node. -/
theorem mem_roster_iff : id ∈ store.roster ↔ (store.get? id).isSome := by
  cases store with
  | heap table =>
    have bound : (Store.heap table).get? id = table.get? id := rfl
    rw [bound, Heap.get?_eq_bound]
    exact Slots.mem_roster_iff
  | pool slab =>
    have bound : (Store.pool slab).get? id = slab.get? id := rfl
    rw [bound, slab.get?_eq_or, Option.isSome_or, Bool.or_eq_true, Heap.get?_eq_bound, roster,
      List.mem_append, Slots.mem_roster_iff, Slots.mem_roster_iff]

/-- No id is listed twice: in a pool the two tiers share none. -/
theorem nodup_roster (store : Store) : store.roster.Nodup := by
  cases store with
  | heap table => exact Slots.nodup_roster .heap table.slots
  | pool slab =>
    refine List.nodup_append.mpr
      ⟨Slots.nodup_roster .slab _, Slots.nodup_roster .heap _, ?_⟩
    rintro id onSlab other onHeap rfl
    obtain ⟨node, found⟩ := Option.isSome_iff_exists.mp (Slots.mem_roster_iff.mp onSlab)
    have elsewhere : id.tier ≠ .heap := by
      rw [(Slots.bound_eq_some_iff.mp found).1]
      exact Tier.noConfusion
    rw [Slots.mem_roster_iff, Slots.bound_of_tier_ne elsewhere] at onHeap
    cases onHeap

/-- Distinct ids that reach a node are no more than are listed. -/
theorem length_le_roster (distinct : ids.Nodup) (reached : ∀ id ∈ ids, (store.get? id).isSome) :
    ids.length ≤ store.roster.length :=
  (List.subperm_of_subset distinct fun id member =>
    mem_roster_iff.mpr (reached id member)).length_le

/-- Distinct ids that are all those which reach a node are as many as are listed. -/
theorem length_eq_roster (distinct : ids.Nodup)
    (reached : ∀ id, (store.get? id).isSome ↔ id ∈ ids) : ids.length = store.roster.length :=
  (length_le_roster distinct fun id => (reached id).mpr).antisymm
    (List.subperm_of_subset store.nodup_roster fun id member =>
      (reached id).mp (mem_roster_iff.mp member)).length_le

/-- A store in order has counted its nodes. -/
theorem Sound.live_eq (sound : store.Sound) : store.live = store.roster.length := by
  cases store with
  | heap table =>
    have counted : table.live = Slots.liveCount table.slots := Heap.Sound.live_eq sound
    rw [roster, Slots.length_roster, ← counted]
    exact Nat.zero_add _
  | pool slab =>
    have counted : slab.live = Slots.liveCount slab.slots := Pool.Sound.live_eq sound
    have spilled : slab.overflow.live = Slots.liveCount slab.overflow.slots :=
      (Pool.Sound.overflow sound).live_eq
    rw [roster, List.length_append, Slots.length_roster, Slots.length_roster, ← counted,
      ← spilled]
    rfl

end Store

end MergedSpans
