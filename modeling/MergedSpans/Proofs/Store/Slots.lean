import MergedSpans.Arithmetic
import MergedSpans.Store.Slot
import Mathlib.Data.Set.Insert
import Mathlib.Logic.Function.Basic

/-! # Tables of slots

Both tiers of a store keep their nodes in an array of slots. What holds of every such array is
said here once.

* `Slot.uses` — how often a node was put into a slot. A slot has issued exactly the generations
  below that number, so neither emptying it nor changing its node issues or forgets one.
* `Slots.bound` — the array as a partial map from ids to nodes.
* `Slots.issued` — the ids that were ever given out.
* `Slots.Bounded` — no slot was used more often than the table has served allocations.
-/

namespace MergedSpans

namespace Slot

/-- How often a node was put into the slot. -/
def uses (slot : Slot) : Nat := slot.generation.toNat + if slot.isLive then 1 else 0

/-- A vacant slot holds no node. -/
theorem isLive_eq_false_of_vacant {slot : Slot} (vacant : slot.content = .vacant) :
    slot.isLive = false := by
  simp [isLive, node?, vacant]

/-- Changing the node in a slot does not make a slot without one out of it, nor one out of such a
slot. -/
theorem content_write_eq_iff (change : Node → Node) (slot : Slot) {content : Content}
    (empty : ∀ node, content ≠ .occupied node) :
    (slot.write change).content = content ↔ slot.content = content := by
  obtain ⟨generation, current⟩ := slot
  cases current with
  | occupied node => simp [write, (empty _).symm]
  | vacant => rfl
  | retired => rfl

@[simp] theorem isLive_occupy (node : Node) (slot : Slot) : (slot.occupy node).isLive = true := rfl

@[simp] theorem isLive_vacate (slot : Slot) : slot.vacate.isLive = false := by
  simp [isLive]

@[simp] theorem isLive_write (change : Node → Node) (slot : Slot) :
    (slot.write change).isLive = slot.isLive := by
  simp [isLive]

/-- Putting a node into a vacant slot is one more use. -/
theorem uses_occupy {slot : Slot} (vacant : slot.content = .vacant) (node : Node) :
    (slot.occupy node).uses = slot.uses + 1 := by
  simp [uses, isLive_eq_false_of_vacant vacant]

@[simp] theorem uses_write (change : Node → Node) (slot : Slot) :
    (slot.write change).uses = slot.uses := by
  simp [uses]

/-- The generation of a slot moves on without coming round while its uses fit in 32 bits. -/
theorem toNat_generation_vacate {slot : Slot} (live : slot.isLive = true)
    (few : slot.uses < Arithmetic.halfLimit) :
    slot.vacate.generation.toNat = slot.generation.toNat + 1 := by
  simp only [uses, live, if_true, Arithmetic.halfLimit] at few
  rw [generation_vacate, UInt32.toNat_add]
  exact Nat.mod_eq_of_lt few

/-- Emptying a slot in use leaves the number of its uses. -/
theorem uses_vacate {slot : Slot} (live : slot.isLive = true)
    (few : slot.uses < Arithmetic.halfLimit) : slot.vacate.uses = slot.uses := by
  unfold uses
  rw [toNat_generation_vacate live few]
  simp [live]

/-- A slot that is emptied is not retired while its uses fit in 32 bits. -/
theorem content_vacate {slot : Slot} (live : slot.isLive = true)
    (few : slot.uses < Arithmetic.halfLimit) : slot.vacate.content = .vacant := by
  have moved := toNat_generation_vacate live few
  -- A generation that has come round to zero would not have moved on.
  refine if_neg fun wrapped => ?_
  rw [generation_vacate, wrapped] at moved
  simp at moved

/-- A slot that is emptied and not retired is vacant. -/
theorem content_vacate_of_not_retired {slot : Slot} (inService : slot.vacate.isRetired = false) :
    slot.vacate.content = .vacant := by
  unfold isRetired vacate at inService
  unfold vacate
  split
  · next wrapped => simp [wrapped] at inService
  · rfl

/-- A slot without a node shows none, whatever generation is asked for. -/
theorem resolve?_of_not_live {slot : Slot} (empty : slot.isLive = false) (generation : UInt32) :
    slot.resolve? generation = none := by
  unfold resolve?
  split
  · simpa [isLive] using empty
  · rfl

@[simp] theorem resolve?_write (change : Node → Node) (slot : Slot) (generation : UInt32) :
    (slot.write change).resolve? generation = (slot.resolve? generation).map change := by
  unfold resolve?
  rw [generation_write, node?_write]
  split <;> rfl

end Slot

namespace Slots

variable {tier : Tier} {slots : Array Slot} {index : Nat} {slot : Slot} {id : NodeId} {node : Node}

/-- The id under which a slot's present generation is known. -/
def idAt (tier : Tier) (index : Nat) (slot : Slot) : NodeId := ⟨tier, index, slot.generation⟩

theorem getD_of_present (present : slots[index]? = some slot) :
    slots.getD index .unused = slot := by
  rw [Array.getD_eq_getD_getElem?, present, Option.getD_some]

theorem getElem?_modify_self (present : slots[index]? = some slot) (change : Slot → Slot) :
    (slots.modify index change)[index]? = some (change slot) := by
  rw [Array.getElem?_modify, if_pos rfl, present, Option.map_some]

/-! ## Looking up -/

/-- The node that an id reaches in the slots of a tier. -/
def bound (tier : Tier) (slots : Array Slot) (id : NodeId) : Option Node :=
  if id.tier = tier then slots[id.index]?.bind (·.resolve? id.generation) else none

theorem bound_eq_some_iff :
    bound tier slots id = some node
      ↔ id.tier = tier ∧ slots[id.index]? = some ⟨id.generation, .occupied node⟩ := by
  unfold bound
  split
  · next onTier =>
    simp only [Option.bind_eq_some_iff, Slot.resolve?_eq_some_iff, onTier, true_and]
    constructor
    · rintro ⟨slot, present, current, content⟩
      rw [present, ← content, ← current]
    · intro present
      exact ⟨_, present, rfl, rfl⟩
  · next elsewhere => simp [elsewhere]

theorem bound_of_tier_ne (elsewhere : id.tier ≠ tier) : bound tier slots id = none :=
  if_neg elsewhere

/-- An id of another generation than its slot's present one reaches nothing. -/
theorem bound_of_generation_ne (present : slots[id.index]? = some slot)
    (stale : id.generation ≠ slot.generation) : bound tier slots id = none := by
  refine Option.eq_none_iff_forall_ne_some.mpr fun node found => stale ?_
  obtain ⟨-, same⟩ := bound_eq_some_iff.mp found
  rw [present] at same
  rw [Option.some.inj same]

/-- An id that reaches a node is the present one of a slot with a node in it. -/
theorem live_of_bound (found : bound tier slots id = some node) :
    ∃ slot, slots[id.index]? = some slot ∧ slot.isLive = true ∧ idAt tier id.index slot = id := by
  obtain ⟨rfl, present⟩ := bound_eq_some_iff.mp found
  exact ⟨_, present, rfl, rfl⟩

/-- The present id of a vacant slot reaches nothing. -/
theorem bound_of_vacant (present : slots[index]? = some slot) (vacant : slot.content = .vacant) :
    bound tier slots (idAt tier index slot) = none := by
  simp only [bound, idAt, if_true, present, Option.bind_some]
  exact Slot.resolve?_of_not_live (Slot.isLive_eq_false_of_vacant vacant) _

/-- The present id of a slot in use reaches the node there. -/
theorem isSome_bound_of_live (tier : Tier) (present : slots[index]? = some slot)
    (live : slot.isLive = true) :
    (bound tier slots (idAt tier index slot)).isSome := by
  simp only [bound, idAt, if_true, present, Option.bind_some, Slot.resolve?]
  exact live

/-- A change of one slot is seen through no id of another position. -/
theorem bound_modify_of_ne (change : Slot → Slot) (apart : id.index ≠ index) :
    bound tier (slots.modify index change) id = bound tier slots id := by
  unfold bound
  rw [Array.getElem?_modify, if_neg (Ne.symm apart)]

/-- A change of one slot that keeps its generation, and is made to a vacant slot or one in use, is
seen through the slot's present id only. -/
theorem bound_modify (present : slots[index]? = some slot) {change : Slot → Slot}
    (unseen : ∀ generation, generation ≠ slot.generation →
      (change slot).resolve? generation = none) :
    bound tier (slots.modify index change)
      = Function.update (bound tier slots) (idAt tier index slot)
          ((change slot).resolve? slot.generation) := by
  funext other
  -- Any other id names another position, another tier, or a generation that the slot is not at.
  by_cases same : other = idAt tier index slot
  · subst same
    rw [Function.update_self]
    simp [bound, idAt, getElem?_modify_self present]
  · rw [Function.update_of_ne same]
    by_cases apart : other.index = index
    · subst apart
      by_cases onTier : other.tier = tier
      · have stale : other.generation ≠ slot.generation := by
          rintro current
          exact same (by rw [idAt, ← onTier, ← current])
        rw [bound_of_generation_ne present stale]
        simp [bound, getElem?_modify_self present, unseen other.generation stale]
      · rw [bound_of_tier_ne onTier, bound_of_tier_ne onTier]
    · exact bound_modify_of_ne change apart

/-- A slot that was emptied is reached by no id any more. -/
theorem bound_vacate (present : slots[index]? = some slot) :
    bound tier (slots.modify index Slot.vacate)
      = Function.update (bound tier slots) (idAt tier index slot) none := by
  have unseen := Slot.resolve?_of_not_live slot.isLive_vacate
  rw [bound_modify present fun generation _ => unseen generation, unseen]

/-- A node that was put into a slot is reached by the slot's present id. -/
theorem bound_occupy (present : slots[index]? = some slot) (node : Node) :
    bound tier (slots.modify index (·.occupy node))
      = Function.update (bound tier slots) (idAt tier index slot) (some node) := by
  have unseen (generation : UInt32) (stale : generation ≠ slot.generation) :
      (slot.occupy node).resolve? generation = none := if_neg (Ne.symm stale)
  rw [bound_modify present unseen]
  simp [Slot.resolve?]

/-- A node that was changed is seen changed by the id that reaches it. -/
theorem bound_write (found : bound tier slots id = some node) (change : Node → Node) :
    bound tier (slots.modify id.index (·.write change))
      = Function.update (bound tier slots) id ((bound tier slots id).map change) := by
  obtain ⟨slot, present, -, same⟩ := live_of_bound found
  obtain ⟨onTier, exactly⟩ := bound_eq_some_iff.mp found
  rw [bound_modify present fun generation stale => ?_, same, found]
  · rw [present] at exactly
    rw [Option.some.inj exactly, Slot.resolve?_write]
    simp [Slot.resolve?, Slot.node?]
  · rw [Slot.resolve?_write, Slot.resolve?, if_neg (Ne.symm stale)]
    rfl

/-- A slot that was added with a node in it is reached by its own id. -/
theorem bound_push (tier : Tier) (slots : Array Slot) (node : Node) :
    bound tier (slots.push (Slot.unused.occupy node))
      = Function.update (bound tier slots) (idAt tier slots.size .unused) (some node) := by
  funext other
  by_cases same : other = idAt tier slots.size .unused
  · subst same
    rw [Function.update_self]
    simp [bound, idAt, Slot.resolve?]
  · rw [Function.update_of_ne same]
    unfold bound
    split
    · next onTier =>
      rw [Array.getElem?_push]
      split
      · next last =>
        have stale : Slot.unused.generation ≠ other.generation := by
          rintro first
          exact same (by rw [idAt, ← onTier, ← last, first])
        simp [last, Slot.resolve?, stale]
      · rfl
    · rfl

/-! ## Ids that were given out -/

/-- The ids that the slots of a tier ever gave out. -/
def issued (tier : Tier) (slots : Array Slot) : Set NodeId :=
  {id | id.tier = tier ∧ ∃ slot, slots[id.index]? = some slot ∧ id.generation.toNat < slot.uses}

theorem mem_issued :
    id ∈ issued tier slots
      ↔ id.tier = tier ∧ ∃ slot, slots[id.index]? = some slot ∧ id.generation.toNat < slot.uses :=
  Iff.rfl

/-- Only ids that were given out reach a node. -/
theorem mem_issued_of_bound (found : bound tier slots id = some node) : id ∈ issued tier slots := by
  obtain ⟨onTier, present⟩ := bound_eq_some_iff.mp found
  exact ⟨onTier, _, present, by simp [Slot.uses, Slot.isLive, Slot.node?]⟩

/-- A change that is no use of its slot gives out nothing. -/
theorem issued_modify (present : slots[index]? = some slot) {change : Slot → Slot}
    (uses : (change slot).uses = slot.uses) :
    issued tier (slots.modify index change) = issued tier slots := by
  ext other
  rw [mem_issued, mem_issued, Array.getElem?_modify]
  split
  · next same =>
    subst same
    simp [present, uses]
  · exact Iff.rfl

/-- Putting a node into a vacant slot gives out its present id. -/
theorem issued_occupy (present : slots[index]? = some slot) (vacant : slot.content = .vacant)
    (node : Node) :
    issued tier (slots.modify index (·.occupy node))
      = insert (idAt tier index slot) (issued tier slots) := by
  -- A vacant slot has given out the generations before its present one.
  have unused : slot.uses = slot.generation.toNat := by
    simp [Slot.uses, Slot.isLive_eq_false_of_vacant vacant]
  ext other
  obtain ⟨otherTier, otherIndex, generation⟩ := other
  rw [Set.mem_insert_iff, mem_issued, mem_issued, Array.getElem?_modify]
  by_cases same : index = otherIndex
  · subst same
    simp only [if_true, present, Option.map_some, Option.some.injEq, exists_eq_left',
      Slot.uses_occupy vacant, unused, idAt, NodeId.mk.injEq, true_and, ← UInt32.toNat_inj,
      ← and_or_left]
    exact and_congr_right fun _ => by omega
  · simp [same, Ne.symm same, idAt]

/-- A vacant slot has not yet given out its present id. -/
theorem not_mem_issued_of_vacant (present : slots[index]? = some slot)
    (vacant : slot.content = .vacant) : idAt tier index slot ∉ issued tier slots := by
  rintro ⟨-, other, found, less⟩
  rw [idAt, present] at found
  obtain rfl := Option.some.inj found
  simp [idAt, Slot.uses, Slot.isLive_eq_false_of_vacant vacant] at less

/-- A slot that is added with a node in it gives out its first id. -/
theorem issued_push (tier : Tier) (slots : Array Slot) (node : Node) :
    issued tier (slots.push (Slot.unused.occupy node))
      = insert (idAt tier slots.size .unused) (issued tier slots) := by
  ext other
  obtain ⟨otherTier, otherIndex, generation⟩ := other
  rw [Set.mem_insert_iff, mem_issued, mem_issued, Array.getElem?_push]
  by_cases last : otherIndex = slots.size
  · simp [last, idAt, Slot.uses, Slot.unused, ← UInt32.toNat_inj]
  · simp [last, idAt]

/-- A position past the slots has given out nothing. -/
theorem not_mem_issued_size (tier : Tier) (slots : Array Slot) (slot : Slot) :
    idAt tier slots.size slot ∉ issued tier slots := by
  rintro ⟨-, other, found, -⟩
  simp [idAt] at found

/-! ## Bounds on the uses -/

/-- Every slot is in service and was used at most `limit` times. -/
def Bounded (slots : Array Slot) (limit : Nat) : Prop :=
  ∀ (index : Nat) (slot : Slot), slots[index]? = some slot →
    slot.content ≠ .retired ∧ slot.uses ≤ limit

theorem Bounded.mono {limit larger : Nat} (bounded : Bounded slots limit) (le : limit ≤ larger) :
    Bounded slots larger :=
  fun index slot present =>
    ⟨(bounded index slot present).1, Nat.le_trans (bounded index slot present).2 le⟩

/-- A bound is kept by a change of one slot that keeps it for that slot. -/
theorem Bounded.modify {limit : Nat} (bounded : Bounded slots limit)
    (present : slots[index]? = some slot) {change : Slot → Slot}
    (inService : (change slot).content ≠ .retired) (uses : (change slot).uses ≤ limit) :
    Bounded (slots.modify index change) limit := by
  intro other changed found
  rw [Array.getElem?_modify] at found
  split at found
  · next same =>
    subst same
    rw [present] at found
    obtain rfl := Option.some.inj found
    exact ⟨inService, uses⟩
  · exact bounded other changed found

/-- While the limit fits in 32 bits, no slot is used up. -/
theorem Bounded.uses_lt {limit : Nat} (bounded : Bounded slots limit)
    (few : limit < Arithmetic.halfLimit) (present : slots[index]? = some slot) :
    slot.uses < Arithmetic.halfLimit :=
  Nat.lt_of_le_of_lt (bounded index slot present).2 few

/-- A slot in service is vacant if there is no node in it. -/
theorem Bounded.vacant_of_not_live {limit : Nat} (bounded : Bounded slots limit)
    (present : slots[index]? = some slot) (empty : slot.isLive = false) :
    slot.content = .vacant := by
  cases content : slot.content with
  | vacant => rfl
  | retired => exact absurd content (bounded index slot present).1
  | occupied node => simp [Slot.isLive, Slot.node?, content] at empty

/-- Emptying a slot is no use of it, and does not retire it. -/
theorem Bounded.vacate {limit : Nat} (bounded : Bounded slots limit)
    (few : limit < Arithmetic.halfLimit) (present : slots[index]? = some slot)
    (live : slot.isLive = true) : Bounded (slots.modify index Slot.vacate) limit := by
  have small := bounded.uses_lt few present
  apply bounded.modify present
  · rw [Slot.content_vacate live small]
    exact Content.noConfusion
  · rw [Slot.uses_vacate live small]
    exact (bounded index slot present).2

/-- Putting a node into a vacant slot is one more use. -/
theorem Bounded.occupy {limit : Nat} (bounded : Bounded slots limit)
    (present : slots[index]? = some slot) (vacant : slot.content = .vacant) (node : Node) :
    Bounded (slots.modify index (·.occupy node)) (limit + 1) := by
  apply (bounded.mono (Nat.le_succ limit)).modify present
  · exact Content.noConfusion
  · rw [Slot.uses_occupy vacant]
    exact Nat.succ_le_succ (bounded index slot present).2

/-- Changing a node is no use of its slot. -/
theorem Bounded.write {limit : Nat} (bounded : Bounded slots limit)
    (present : slots[index]? = some slot) (change : Node → Node) :
    Bounded (slots.modify index (·.write change)) limit := by
  obtain ⟨inService, uses⟩ := bounded index slot present
  refine bounded.modify present (fun retired => inService ?_) (by rwa [Slot.uses_write])
  exact (Slot.content_write_eq_iff change slot (by simp)).mp retired

/-- A bound is kept by a slot that is added within it. -/
theorem Bounded.push {limit : Nat} (bounded : Bounded slots limit)
    (inService : slot.content ≠ .retired) (uses : slot.uses ≤ limit) :
    Bounded (slots.push slot) limit := by
  intro other added found
  rw [Array.getElem?_push] at found
  split at found
  · obtain rfl := Option.some.inj found
    exact ⟨inService, uses⟩
  · exact bounded other added found

/-! ## The number of nodes -/

/-- The number of slots with a node in them. -/
def liveCount (slots : Array Slot) : Nat := slots.countP Slot.isLive

/-- A change of one slot moves the number of nodes by what it does to that slot. -/
theorem liveCount_modify (present : slots[index]? = some slot) (change : Slot → Slot) :
    liveCount (slots.modify index change) + (if slot.isLive then 1 else 0)
      = liveCount slots + (if (change slot).isLive then 1 else 0) := by
  obtain ⟨inside, rfl⟩ := Array.getElem?_eq_some_iff.mp present
  -- The slot itself is counted, so taking it out of the count does not run below zero.
  have bound : (if slots[index].isLive then 1 else 0) ≤ slots.toList.countP Slot.isLive :=
    List.boole_getElem_le_countP inside
  unfold liveCount
  rw [← Array.countP_toList, ← Array.countP_toList, Array.toList_modify, List.modify_eq_set,
    List.countP_set inside]
  simp only [Array.getElem_toList, Array.getElem?_toList, present, Option.getD_some]
  omega

/-- A node that is put into a vacant slot is one more. -/
theorem liveCount_occupy (present : slots[index]? = some slot) (vacant : slot.content = .vacant)
    (node : Node) : liveCount (slots.modify index (·.occupy node)) = liveCount slots + 1 := by
  have counted := liveCount_modify present (·.occupy node)
  rwa [Slot.isLive_eq_false_of_vacant vacant] at counted

/-- Emptying a slot with a node in it leaves one less. -/
theorem liveCount_vacate (present : slots[index]? = some slot) (live : slot.isLive = true) :
    liveCount (slots.modify index Slot.vacate) + 1 = liveCount slots := by
  have counted := liveCount_modify present Slot.vacate
  rwa [live, Slot.isLive_vacate] at counted

/-- Changing a node leaves as many as there were. -/
theorem liveCount_write (present : slots[index]? = some slot) (change : Node → Node) :
    liveCount (slots.modify index (·.write change)) = liveCount slots := by
  have counted := liveCount_modify present (·.write change)
  rw [Slot.isLive_write] at counted
  exact Nat.add_right_cancel counted

theorem liveCount_push (slots : Array Slot) (slot : Slot) :
    liveCount (slots.push slot) = liveCount slots + (if slot.isLive then 1 else 0) :=
  Array.countP_push

/-- There is a slot with a node in it at this position. -/
def LiveAt (slots : Array Slot) (index : Nat) : Prop :=
  ∃ slot, slots[index]? = some slot ∧ slot.isLive = true

/-- Past the table there is none, as if the slots went on unused. -/
theorem isLive_getD_iff : (slots.getD index .unused).isLive = true ↔ LiveAt slots index := by
  unfold LiveAt
  rw [Array.getD_eq_getD_getElem?]
  cases slots[index]? with
  | none => simp [Slot.isLive, Slot.node?, Slot.unused]
  | some slot => simp

/-- A node is in a slot of the table. -/
theorem lt_size_of_liveAt (live : LiveAt slots index) : index < slots.size := by
  obtain ⟨slot, present, -⟩ := live
  exact (Array.getElem?_eq_some_iff.mp present).1

/-- Emptying a slot leaves the nodes in all others. -/
theorem liveAt_vacate (slots : Array Slot) (index other : Nat) :
    LiveAt (slots.modify index Slot.vacate) other ↔ LiveAt slots other ∧ other ≠ index := by
  unfold LiveAt
  rw [Array.getElem?_modify]
  by_cases same : index = other
  · subst same
    simp
  · simp [same, Ne.symm same]

/-- Once all positions up to the size were emptied, no node is left. -/
theorem not_liveAt_of_range {after : Array Slot} (emptied : ∀ other,
    LiveAt after other ↔ LiveAt slots other ∧ other ∉ List.range slots.size) (index : Nat) :
    ¬ LiveAt after index := by
  intro live
  obtain ⟨before, outside⟩ := (emptied index).mp live
  exact outside (List.mem_range.mpr (lt_size_of_liveAt before))

/-- Without nodes there are none to be counted. -/
theorem liveCount_eq_zero (none : ∀ index, ¬ LiveAt slots index) : liveCount slots = 0 := by
  unfold liveCount
  rw [Array.countP_eq_zero]
  intro slot member live
  obtain ⟨index, present⟩ := Array.getElem?_of_mem member
  exact none index ⟨slot, present, live⟩

/-- Without nodes there are none to be reached. -/
theorem bound_eq_none (none : ∀ index, ¬ LiveAt slots index) (tier : Tier) :
    bound tier slots = fun _ => Option.none := by
  funext id
  refine Option.eq_none_iff_forall_ne_some.mpr fun node found => ?_
  obtain ⟨slot, present, live, -⟩ := live_of_bound found
  exact none id.index ⟨slot, present, live⟩

end Slots

end MergedSpans
