import MergedSpans.Proofs.Chain.Audit
import MergedSpans.Proofs.Chain.Calls

/-! # Clearing repairs

The nodes of a chain can be changed and released behind its back, and then its calls may meet faults
halfway. None of this reaches what the store keeps in order for itself, and that alone is needed to
take every node out: a cleared chain is as good as a new one.

* `Chain.Incident`, `Chain.befall` — what can happen to a chain.
* `Chain.Emptied` — what a clearing leaves of a chain.
* `Chain.Twins` — two chains with the same spans; `Twins.outcomes` — calls come to the same on both.
* `Chain.clear_repairs` — a clearing after incidents of any number.
-/

namespace MergedSpans

namespace Chain

open MergedSpans.Action

/-! ## Incidents -/

/-- Something that can happen to a chain. -/
inductive Incident where
  /-- A call, whatever its span, and also where it meets a fault halfway. -/
  | call (op : Op)
  /-- A look at the chain. -/
  | look (question : Chain → Except Fault Unit)
  /-- A node is changed behind the chain's back, its span as well as its links. -/
  | write (id : NodeId) (change : Node → Node)
  /-- A node is released behind the chain's back. -/
  | release (id : NodeId)

/-- What an incident does to a chain. -/
def befall : Incident → Action Chain Unit
  | .call op => do
    let _ ← perform op
    return ()
  | .look question => Action.read question
  | .write id change => Chain.write id change
  | .release id => onStore (Store.release id)

/-- Every incident respects what all changes of a store respect. -/
theorem moves_befall {relation : Store → Store → Prop} [Std.Refl relation] [IsTrans Store relation]
    (closed : Store.Closed relation) (incident : Incident) :
    (befall incident).Moves (Across relation) := by
  cases incident with
  | call op => exact Moves.bind (moves_perform closed op) fun _ => moves_pure _
  | look question => exact moves_read question
  | write id change => exact moves_write closed id change
  | release id => exact moves_onStore (closed.release id)

/-! ## What a clearing leaves -/

/-- What a clearing leaves of a chain. -/
structure Emptied (damaged cleared : Chain) : Prop where
  /-- An audit finds no defect. -/
  validate_eq : cleared.validate = .ok none
  /-- The chain has recorded no nodes. -/
  length_eq : cleared.length = 0
  /-- No nodes are counted in the slab. -/
  livePool_eq : cleared.counters.livePool = 0
  /-- No nodes are counted in the growing table. -/
  liveHeap_eq : cleared.counters.liveHeap = 0
  /-- No id reaches a node. -/
  unreached : ∀ id, ∃ fault, cleared.node id = .error fault
  /-- The allocations in the slab are still counted. -/
  poolHits_eq : cleared.counters.poolHits = damaged.counters.poolHits
  /-- So are those in the growing table. -/
  heapFallbacks_eq : cleared.counters.heapFallbacks = damaged.counters.heapFallbacks

/-- A clearing empties every chain whose store is in order, whatever its links are. -/
theorem emptied_of_sound {damaged : Chain} (sound : damaged.store.Sound)
    (few : damaged.allocations < Arithmetic.halfLimit) :
    ∃ cleared, clear.Yields damaged () cleared [.clearing damaged.participant damaged.length]
      ∧ cleared.Ordered [] ∧ cleared.census.issued = damaged.census.issued
      ∧ Emptied damaged cleared := by
  obtain ⟨cleared, yields, owned, census_eq, -⟩ := Chain.clear_yields sound few
  have kept : Across (Keeps Store.gauge) damaged cleared := by
    have moved := moves_clear Store.moves_reset damaged
    rwa [yields.state_eq] at moved
  have counted : cleared.counters.livePool + cleared.counters.liveHeap = 0 := owned.live_eq
  exact ⟨cleared, yields, ⟨owned, separated_nil⟩, by rw [census_eq]; rfl, {
    validate_eq := owned.validate_eq separated_nil
    length_eq := owned.length_eq
    livePool_eq := (Nat.add_eq_zero_iff.mp counted).1
    liveHeap_eq := (Nat.add_eq_zero_iff.mp counted).2
    unreached := fun id => Store.error_of_get?_eq_none (owned.get?_eq_none List.not_mem_nil)
    poolHits_eq := congrArg Gauge.hits kept
    heapFallbacks_eq := congrArg Gauge.fallbacks kept }⟩

/-! ## Calls on two chains -/

/-- A call came to the same on two chains: to the same answer, and to the same spans, as many as
both have recorded. -/
structure Alike (first second : Outcome Chain (Option Bool)) : Prop where
  /-- Both calls ended well, with the same answer. -/
  answer_eq : ∃ answer, first.answer = .ok answer ∧ second.answer = .ok answer
  /-- Both chains have the same spans. -/
  spans_eq : ∃ spans, first.state.spans = .ok spans ∧ second.state.spans = .ok spans
  /-- Both have recorded the same number of them. -/
  length_eq : first.state.length = second.state.length

/-- Two chains in order have the same spans, and the first has not allocated less. -/
structure Twins (first second : Chain) (cells others : List Cell) : Prop where
  /-- The first chain is in order. -/
  left : first.Ordered cells
  /-- The second chain is in order. -/
  right : second.Ordered others
  /-- They have the same spans. -/
  spans_eq : spansOf cells = spansOf others
  /-- The second chain has room where the first has. -/
  allocations_le : second.allocations ≤ first.allocations

section Twins

variable {first second : Chain} {cells others : List Cell} {op : Op}

/-- A call on twins that ends with few allocations on the first ends well on both, with the same
answer, and leaves twins. -/
theorem Twins.perform (twins : Twins first second cells others) (formed : op.WellFormed)
    (few : ((perform op).run first).state.allocations < Arithmetic.halfLimit) :
    ∃ answer firstAfter secondAfter events more remaining rest,
      (Chain.perform op).Yields first answer firstAfter events
      ∧ (Chain.perform op).Yields second answer secondAfter more
      ∧ Twins firstAfter secondAfter remaining rest := by
  have room := twins.left.room_of_perform formed few
  -- The two put in equally many nodes, so the second has room as well.
  have demand_eq := Op.demand_eq twins.spans_eq op
  have secondRoom : second.allocations + op.demand others < Arithmetic.halfLimit := by
    have le := twins.allocations_le
    omega
  obtain ⟨answer, firstAfter, events, remaining, yields, ordered, covers, answers, settles, -⟩ :=
    twins.left.perform_of_room formed room
  obtain ⟨other, secondAfter, more, rest, secondYields, secondOrdered, secondCovers, secondAnswers,
    secondSettles, -⟩ := twins.right.perform_of_room formed secondRoom
  rw [← twins.spans_eq] at secondCovers secondAnswers
  obtain rfl := answers.unique secondAnswers
  refine ⟨answer, firstAfter, secondAfter, events, more, remaining, rest, yields, secondYields,
    ordered, secondOrdered, ?_, ?_⟩
  · exact ordered.separated.eq_of_covered secondOrdered.separated fun address => by
      rw [covers, secondCovers]
  · rw [settles.allocations_eq, secondSettles.allocations_eq, demand_eq]
    exact Nat.add_le_add_right twins.allocations_le _

/-- Where a call on twins ends well with the same answer and leaves twins, it came to the same. -/
theorem Twins.alike (twins : Twins first second cells others) (answer : Option Bool)
    (events more : List Event) :
    Alike ⟨.ok answer, first, events⟩ ⟨.ok answer, second, more⟩ where
  answer_eq := ⟨answer, rfl, rfl⟩
  spans_eq := ⟨spansOf cells, twins.left.spans_eq, twins.spans_eq ▸ twins.right.spans_eq⟩
  length_eq := by
    have lengths := congrArg List.length twins.spans_eq
    rw [List.length_map, List.length_map] at lengths
    rw [twins.left.length_eq, twins.right.length_eq, lengths]

/-- Calls of any number come to the same on twins. -/
theorem Twins.outcomes (twins : Twins first second cells others) (ops : List Op)
    (formed : ∀ op ∈ ops, op.WellFormed)
    (few : (Action.after Chain.perform ops first).allocations < Arithmetic.halfLimit) :
    List.Forall₂ Alike (Action.outcomes Chain.perform ops first)
      (Action.outcomes Chain.perform ops second) := by
  -- Induction on the calls: each of them leaves twins for the next.
  induction ops generalizing first second cells others with
  | nil => exact .nil
  | cons op rest induction =>
    rw [List.forall_mem_cons] at formed
    have fewNow := Nat.lt_of_le_of_lt (allocations_le_after rest _) few
    obtain ⟨answer, firstAfter, secondAfter, events, more, _, _, yields, secondYields, after⟩ :=
      twins.perform formed.1 fewNow
    unfold Yields at yields secondYields
    rw [after_cons, yields] at few
    rw [Action.outcomes, Action.outcomes, yields, secondYields]
    exact .cons (after.alike answer events more) (induction after formed.2 few)

end Twins

/-- A chain over a store that was never used meets incidents of any kind and number, and fewer than
2 ^ 32 nodes are put into its store. Then a clearing ends well and leaves the chain empty. The ids
that were given out before are stale for good, whatever happens later; and calls with well-formed
spans come to the same on the cleared chain as on a chain over any store that was never used. -/
theorem clear_repairs {store : Store} (fresh : store.IsFresh) (participant : Participant)
    (incidents : List Incident)
    (few : (Action.after befall incidents (.empty participant store)).allocations
      < Arithmetic.halfLimit) :
    let damaged := Action.after befall incidents (.empty participant store)
    ∃ cleared, clear.Yields damaged () cleared [.clearing damaged.participant damaged.length]
      ∧ Emptied damaged cleared
      ∧ (∀ later, (Action.after befall later cleared).allocations < Arithmetic.halfLimit →
        ∀ id ∈ damaged.census.issued, ∃ fault, (Action.after befall later cleared).node id
          = .error fault)
      ∧ ∀ other : Store, other.IsFresh → ∀ ops : List Op, (∀ op ∈ ops, op.WellFormed) →
        (Action.after perform ops cleared).allocations < Arithmetic.halfLimit →
        List.Forall₂ Alike (Action.outcomes perform ops cleared)
          (Action.outcomes perform ops (.empty participant other)) := by
  intro damaged
  have sound : damaged.store.Sound :=
    (inherits_after (moves_befall Store.closed_precedes) incidents fresh.sound few).sound
  obtain ⟨cleared, yields, ordered, issued_eq, emptied⟩ := emptied_of_sound sound few
  refine ⟨cleared, yields, emptied, ?_, ?_⟩
  · intro later fewLater id issued
    rw [← issued_eq] at issued
    have stale : cleared.store.Stale id := ⟨issued, ordered.get?_eq_none List.not_mem_nil⟩
    have kept := inherits_after (moves_befall Store.closed_precedes) later ordered.sound fewLater
    exact Store.error_of_get?_eq_none (kept.stale id stale).2
  · intro other otherFresh ops formed fewLater
    have noneYet : (Chain.empty participant other).allocations = 0 :=
      congrArg Ledger.allocations otherFresh.ledger_eq
    have twins : Twins cleared (.empty participant other) [] [] :=
      ⟨ordered, ordered_empty otherFresh participant, rfl, noneYet ▸ Nat.zero_le _⟩
    exact twins.outcomes ops formed fewLater

/-- Damage to a chain over a pool of one slot: a span with its bounds the wrong way round, a node
that is gone while links still lead to it, and a call that meets a fault halfway. -/
theorem clear_repairs_in_pool :
    let start : Chain := .empty default (.pool (.ofSlots 1))
    let first : NodeId := ⟨.slab, 0, 0⟩
    let second : NodeId := ⟨.heap, 0, 0⟩
    let incidents : List Incident := [.call (.insert ⟨0, 10⟩), .call (.insert ⟨20, 30⟩),
      .write first fun node => { node with span := ⟨9, 2⟩, prev := some second }, .release second,
      .call (.insert ⟨15, 40⟩)]
    let ops : List Op := [.insert ⟨0, 10⟩, .erase ⟨3, 5⟩, .overlaps ⟨4, 6⟩]
    let damaged := Action.after befall incidents start
    damaged.allocations < Arithmetic.halfLimit ∧ damaged.validate = .ok (some (.brokenLink ⟨9, 2⟩))
      ∧ ∃ cleared, clear.Yields damaged () cleared [.clearing default 2] ∧ Emptied damaged cleared
        ∧ List.Forall₂ Alike (Action.outcomes perform ops cleared)
          (Action.outcomes perform ops (.empty default (.heap .empty))) := by
  intro start first second incidents ops damaged
  have few : damaged.allocations < Arithmetic.halfLimit := by decide +kernel
  obtain ⟨cleared, yields, emptied, -, alike⟩ :=
    clear_repairs (Or.inr ⟨1, rfl⟩) default incidents few
  have told : Event.clearing damaged.participant damaged.length = .clearing default 2 := by
    decide +kernel
  have fewLater : (Action.after perform ops cleared).allocations < Arithmetic.halfLimit := by
    rw [← yields.state_eq]
    decide +kernel
  exact ⟨few, by decide +kernel, cleared, told ▸ yields, emptied,
    alike (.heap .empty) (Or.inl rfl) ops (by decide) fewLater⟩

end Chain

end MergedSpans
