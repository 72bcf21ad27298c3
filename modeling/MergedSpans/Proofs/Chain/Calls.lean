import MergedSpans.Proofs.Chain.Budget
import MergedSpans.Proofs.Chain.Query

/-! # Calls on a chain

What one call does, told by the addresses that are covered, and what holds after calls of any
number, as long as their spans hold addresses and the store has room for the nodes.

* `Op.WellFormed`, `Op.coverage`, `Op.Answers` — the calls on a set of addresses.
* `Op.demand` — the number of nodes that a call puts into the store.
* `Chain.Ordered` — what holds between calls.
* `Ordered.perform_of_room` — one call; `Ordered.runs` — calls one after another.
* `runs_in_order` — no call meets a fault, and every call leaves a doubly linked list of separated
  spans.
* `accounts_balance` — no node is lost or freed twice, and counters and events agree on how many
  there are.
-/

namespace MergedSpans

namespace Op

/-- The call is made with a span that holds an address. -/
def WellFormed : Op → Prop
  | insert span | erase span | overlaps span => span.WellFormed
  | clear => True

instance : DecidablePred WellFormed
  | insert span | erase span | overlaps span => inferInstanceAs (Decidable span.WellFormed)
  | clear => inferInstanceAs (Decidable True)

/-- Does the call put a span in? -/
def isInsert : Op → Bool
  | insert _ => true
  | _ => false

/-- The addresses covered after the call, given those that were covered before it. -/
def coverage (covered : UInt64 → Prop) : Op → UInt64 → Prop
  | insert span, address => span.Holds address ∨ covered address
  | erase span, address => covered address ∧ ¬ span.Holds address
  | overlaps _, address => covered address
  | clear, _ => False

/-- What the call has to answer, given the addresses that are covered. -/
def Answers (covered : UInt64 → Prop) : Op → Option Bool → Prop
  | overlaps span, answer =>
    ∃ hit, answer = some hit ∧ (hit = true ↔ ∃ address, span.Holds address ∧ covered address)
  | _, answer => answer = none

/-- The number of nodes that the call puts into the store of a chain, given its cells. -/
def demand (cells : List Cell) : Op → Nat
  | insert _ => 1
  | erase span => 2 * Cells.splits span cells
  | overlaps _ | clear => 0

/-- The covered addresses leave no choice about the answer. -/
theorem Answers.unique {op : Op} {covered : UInt64 → Prop} {first second : Option Bool}
    (left : op.Answers covered first) (right : op.Answers covered second) : first = second := by
  cases op with
  | overlaps span =>
    obtain ⟨firstHit, rfl, firstIff⟩ := left
    obtain ⟨secondHit, rfl, secondIff⟩ := right
    rw [Option.some_inj, Bool.eq_iff_iff, firstIff, secondIff]
  | insert span => exact left.trans right.symm
  | erase span => exact left.trans right.symm
  | clear => exact left.trans right.symm

/-- How many nodes a call puts in is a matter of the spans that are there. -/
theorem demand_eq {cells others : List Cell} (same : spansOf cells = spansOf others) (op : Op) :
    op.demand cells = op.demand others := by
  cases op with
  | erase span => rw [demand, demand, Cells.splits_eq same]
  | insert span => rfl
  | overlaps span => rfl
  | clear => rfl

end Op

namespace Chain

open MergedSpans.Action

/-- What holds of a chain between calls: it owns its store, and its spans are separated. -/
structure Ordered (chain : Chain) (cells : List Cell) : Prop extends Owned chain cells where
  /-- The spans are separated. -/
  separated : Separated (spansOf cells)

/-- A chain over a store that was never used has no spans. -/
theorem ordered_empty {store : Store} (fresh : store.IsFresh) (participant : Participant) :
    (Chain.empty participant store).Ordered [] :=
  { owned_empty fresh participant with separated := separated_nil }

variable {chain : Chain} {cells : List Cell} {op : Op}

/-- Clearing takes every node out at once, whatever the links were. -/
theorem clear_yields (sound : chain.store.Sound) (few : chain.allocations < Arithmetic.halfLimit) :
    ∃ after, clear.Yields chain () after [.clearing chain.participant chain.length]
      ∧ after.Owned [] ∧ after.census = chain.census.reset
      ∧ after.participant = chain.participant := by
  obtain ⟨store, yields, kept, ledger⟩ := Store.reset_yields sound few
  have census_eq := congrArg Ledger.census ledger
  rw [Ledger.census_reset] at census_eq
  let after : Chain := { participant := chain.participant, store }
  have census : after.census = chain.census.reset := census_eq
  refine ⟨after, ?_, ?_, census, rfl⟩
  · show clear.Yields chain () after ([.clearing chain.participant chain.length] ++ [])
    refine Yields.silent_bind (yields_current chain) (Yields.bind (yields_emit _ chain) ?_)
    exact (yields_onStore yields).silent_bind (yields_update rfl)
  · exact {
      toSpells := spells_nil rfl rfl rfl
      sound := kept
      domain_eq := by
        rw [census]
        ext id
        simp [Census.reset]
      live_eq := congrArg Census.live census }

/-- A chain that owns its store has as many nodes to clear as it tells. -/
theorem Owned.clear_yields (owned : chain.Owned cells)
    (few : chain.allocations < Arithmetic.halfLimit) :
    ∃ after events, clear.Yields chain () after events ∧ after.Owned []
      ∧ Settles chain after events 0 ∧ splittings events = 0 := by
  obtain ⟨after, yields, afterOwned, census, participant_eq⟩ := Chain.clear_yields owned.sound few
  refine ⟨after, _, yields, afterOwned, {
    participant_eq := participant_eq
    issued_subset := by rw [census]; rfl
    allocations_eq := congrArg Census.allocations census
    live_eq := ?_ }, rfl⟩
  have told : leaving [.clearing chain.participant chain.length] = cells.length := by
    simp [leaving, Event.isMerging, Event.isDeleting, Event.cleared, owned.length_eq]
  rw [census, told, owned.census_live]
  exact Nat.zero_add _

/-- A call that ends with few allocations had room for the nodes that it put in. -/
theorem Ordered.room_of_perform (ordered : chain.Ordered cells) (formed : op.WellFormed)
    (few : ((perform op).run chain).state.allocations < Arithmetic.halfLimit) :
    chain.allocations + op.demand cells < Arithmetic.halfLimit := by
  have start : chain.allocations < Arithmetic.halfLimit :=
    Nat.lt_of_le_of_lt (moves_perform Store.closed_ascends op chain) few
  cases op with
  | insert span =>
    exact ordered.room_of_insert formed
      (Nat.lt_of_le_of_lt (allocations_le_bind _ (fun _ => moves_pure _) chain) few)
  | erase span =>
    exact ordered.room_of_erase ordered.separated formed
      (Nat.lt_of_le_of_lt (allocations_le_bind _ (fun _ => moves_pure _) chain) few)
  | overlaps span => exact start
  | clear => exact start

/-- A call on a chain that is in order and has room ends well. It leaves the chain in order,
covering what the call says, with the answer that the covered addresses give; and the accounts
balance, with one allocation for an insertion and two for every span that is cut in two. -/
theorem Ordered.perform_of_room (ordered : chain.Ordered cells) (formed : op.WellFormed)
    (room : chain.allocations + op.demand cells < Arithmetic.halfLimit) :
    ∃ answer after events remaining, (perform op).Yields chain answer after events
      ∧ after.Ordered remaining
      ∧ (∀ address, Covered (spansOf remaining) address
        ↔ op.coverage (Covered (spansOf cells)) address)
      ∧ op.Answers (Covered (spansOf cells)) answer
      ∧ Settles chain after events (op.demand cells)
      ∧ op.demand cells = (if op.isInsert then 1 else 0) + 2 * splittings events := by
  cases op with
  | insert span =>
    obtain ⟨id, after, events, yields, owned, -, settles, told⟩ :=
      ordered.insert_yields ordered.separated formed room
    refine ⟨none, after, events ++ [], Cells.insert id span cells, yields.bind (yields_pure _ _),
      ⟨owned, Cells.separated_insert ordered.separated formed⟩, ?_, rfl, ?_⟩
    · exact fun address => Cells.covered_insert ordered.separated
    · rw [List.append_nil, told]
      exact ⟨settles, rfl⟩
  | erase span =>
    obtain ⟨first, second, after, events, yields, owned, -, settles, told⟩ :=
      ordered.erase_yields ordered.separated formed room
    refine ⟨none, after, events ++ [], Cells.erase span first second cells,
      yields.bind (yields_pure _ _), ⟨owned, Cells.separated_erase formed ordered.separated⟩, ?_,
      rfl, ?_⟩
    · exact fun address => Cells.covered_erase
    · rw [List.append_nil, told]
      exact ⟨settles, (Nat.zero_add _).symm⟩
  | overlaps span =>
    obtain ⟨hit, answered, iff⟩ := ordered.overlaps_eq ordered.separated formed
    have asked : (Action.read fun chain : Chain => chain.overlaps span).Yields chain hit chain [] :=
      yields_read answered
    exact ⟨some hit, chain, [], cells, asked.silent_bind (yields_pure _ _), ordered,
      fun _ => Iff.rfl, ⟨hit, rfl, iff⟩, settles_refl chain, rfl⟩
  | clear =>
    obtain ⟨after, events, yields, owned, settles, told⟩ := ordered.clear_yields room
    refine ⟨none, after, events ++ [], [], yields.bind (yields_pure _ _), ⟨owned, separated_nil⟩,
      ?_, rfl, ?_⟩
    · exact fun address => iff_of_false not_covered_nil id
    · rw [List.append_nil, told]
      exact ⟨settles, rfl⟩

/-- A call that ends with few allocations had room, and so it ended well. -/
theorem Ordered.perform_yields (ordered : chain.Ordered cells) (formed : op.WellFormed)
    (few : ((perform op).run chain).state.allocations < Arithmetic.halfLimit) :
    ∃ answer after events remaining, (perform op).Yields chain answer after events
      ∧ after.Ordered remaining
      ∧ (∀ address, Covered (spansOf remaining) address
        ↔ op.coverage (Covered (spansOf cells)) address)
      ∧ op.Answers (Covered (spansOf cells)) answer
      ∧ Settles chain after events ((if op.isInsert then 1 else 0) + 2 * splittings events) := by
  obtain ⟨answer, after, events, remaining, yields, afterOrdered, covers, answers, settles, made⟩ :=
    ordered.perform_of_room formed (ordered.room_of_perform formed few)
  exact ⟨answer, after, events, remaining, yields, afterOrdered, covers, answers, made ▸ settles⟩

/-! ## Calls of any number -/

/-- What calls of any number come to, told by what the last of them leaves. -/
structure Settled (chain : Chain) (ops : List Op) : Prop where
  /-- The chain is in order, whatever it is linked up to. -/
  ordered : ∃ cells, (Action.after perform ops chain).Ordered cells
  /-- The accounts balance over all calls together. -/
  settles : Settles chain (Action.after perform ops chain) (Action.events perform ops chain)
    (ops.countP Op.isInsert + 2 * splittings (Action.events perform ops chain))

/-- Calls that end with few allocations were all made on a chain in order, and met no fault. -/
theorem Ordered.runs (ordered : chain.Ordered cells) (ops : List Op)
    (formed : ∀ op ∈ ops, op.WellFormed)
    (few : (Action.after perform ops chain).allocations < Arithmetic.halfLimit) :
    chain.Settled ops ∧ ∀ outcome ∈ Action.outcomes perform ops chain,
      (∃ answer, outcome.answer = .ok answer) ∧ ∃ remaining, outcome.state.Ordered remaining := by
  -- Induction on the calls: each of them has room, because the last of them has had.
  induction ops generalizing chain cells with
  | nil => exact ⟨⟨⟨cells, ordered⟩, settles_refl chain⟩, by simp [Action.outcomes]⟩
  | cons op rest induction =>
    rw [List.forall_mem_cons] at formed
    have fewNow : ((perform op).run chain).state.allocations < Arithmetic.halfLimit :=
      Nat.lt_of_le_of_lt (allocations_le_after rest _) few
    obtain ⟨answer, after, events, remaining, yields, afterOrdered, -, -, settles⟩ :=
      ordered.perform_yields formed.1 fewNow
    unfold Yields at yields
    rw [after_cons, yields] at few
    obtain ⟨settled, others⟩ := induction afterOrdered formed.2 few
    refine ⟨⟨?_, ?_⟩, ?_⟩
    · rw [after_cons, yields]
      exact settled.ordered
    · have made : (if op.isInsert then 1 else 0) + 2 * splittings events
          + (rest.countP Op.isInsert + 2 * splittings (Action.events perform rest after))
          = (op :: rest).countP Op.isInsert
            + 2 * splittings (events ++ Action.events perform rest after) := by
        rw [splittings_append, List.countP_cons]
        omega
      rw [after_cons, events_cons, yields]
      exact made ▸ settles.trans settled.settles
    · rw [Action.outcomes, List.forall_mem_cons, yields]
      exact ⟨⟨⟨answer, rfl⟩, remaining, afterOrdered⟩, others⟩

/-! ## Main results -/

section Results

variable {store : Store}

/-- Calls with well-formed spans on a chain over any store that was never used, in any order, end
without a fault as long as there is room for the nodes. After every one of them the chain is a
doubly linked list: its nodes are distinct, each one points back to the one before it, the recorded
ends and the recorded length are right, a walk from the first node finds these nodes and no
others, and an address lies between any two of their spans. -/
theorem runs_in_order (fresh : store.IsFresh) (participant : Participant) (ops : List Op)
    (formed : ∀ op ∈ ops, op.WellFormed)
    (few : (Action.after perform ops (.empty participant store)).allocations
      < Arithmetic.halfLimit) :
    ∀ outcome ∈ Action.outcomes perform ops (.empty participant store),
      (∃ answer, outcome.answer = .ok answer)
        ∧ ∃ cells entries, outcome.state.Linked cells ∧ Separated (spansOf cells)
          ∧ outcome.state.entries (outcome.state.length + 1) = .ok entries
          ∧ entries.map (fun entry => ⟨entry.1, entry.2.span⟩) = cells := by
  intro outcome member
  obtain ⟨-, every⟩ := (ordered_empty fresh participant).runs ops formed few
  obtain ⟨answered, cells, ordered⟩ := every outcome member
  obtain ⟨entries, walked, same⟩ := ordered.entries_eq
  exact ⟨answered, cells, entries, ordered.toLinked, ordered.separated, walked, same⟩

/-- A run over a pool of one slot, which merges, splits, deletes and clears. -/
theorem runs_in_order_in_pool :
    let start : Chain := .empty default (.pool (.ofSlots 1))
    let ops : List Op := [.insert ⟨0, 10⟩, .insert ⟨20, 30⟩, .insert ⟨10, 20⟩, .erase ⟨5, 8⟩,
      .overlaps ⟨6, 9⟩, .erase ⟨0, 5⟩, .clear, .insert ⟨5, 8⟩]
    (∀ op ∈ ops, op.WellFormed)
      ∧ (Action.after perform ops start).allocations < Arithmetic.halfLimit
      ∧ ∀ outcome ∈ Action.outcomes perform ops start,
        ∃ cells, outcome.state.Linked cells ∧ Separated (spansOf cells) := by
  intro start ops
  have formed : ∀ op ∈ ops, op.WellFormed := by decide
  have few : (Action.after perform ops start).allocations < Arithmetic.halfLimit := by
    decide +kernel
  refine ⟨formed, few, fun outcome member => ?_⟩
  obtain ⟨-, cells, -, linked, separated, -⟩ :=
    runs_in_order (Or.inr ⟨1, rfl⟩) default ops formed few outcome member
  exact ⟨cells, linked, separated⟩

/-- No node is ever lost or freed twice. After calls of any number the ids in the chain are those
that reach a node of the store, the store counts as many nodes as the chain, and its counters
balance: every allocation was made for an insertion or for one of the two pieces of a span that was
cut, and every node is in the chain still or is told to have left it. -/
theorem accounts_balance (fresh : store.IsFresh) (participant : Participant) (ops : List Op)
    (formed : ∀ op ∈ ops, op.WellFormed)
    (few : (Action.after perform ops (.empty participant store)).allocations
      < Arithmetic.halfLimit) :
    let chain := Action.after perform ops (.empty participant store)
    let events := Action.events perform ops (.empty participant store)
    (∃ cells, chain.Linked cells ∧ ∀ id, (chain.store.get? id).isSome ↔ id ∈ idsOf cells)
      ∧ chain.counters.live = .ok chain.length
      ∧ chain.counters.poolHits + chain.counters.heapFallbacks
        = ops.countP Op.isInsert + 2 * events.countP Event.isSplitting
      ∧ chain.counters.poolHits + chain.counters.heapFallbacks
        = chain.length + events.countP Event.isMerging + events.countP Event.isDeleting
          + (events.map Event.cleared).sum := by
  intro chain events
  obtain ⟨⟨⟨cells, ordered⟩, settles⟩, -⟩ := (ordered_empty fresh participant).runs ops formed few
  -- The run started without nodes and without allocations.
  have before : (Chain.empty participant store).census = Ledger.empty.census :=
    congrArg Ledger.census fresh.ledger_eq
  have noneYet : (Chain.empty participant store).allocations = 0 :=
    congrArg Census.allocations before
  have noneLive : (Chain.empty participant store).census.live = 0 := congrArg Census.live before
  have made : chain.allocations = _ := settles.allocations_eq
  have left : chain.census.live + leaving events = _ := settles.live_eq
  have live : chain.census.live = chain.length := by
    rw [ordered.census_live, ordered.length_eq]
  rw [noneYet, Nat.zero_add] at made
  rw [noneLive, Nat.zero_add, ← made, live] at left
  refine ⟨⟨cells, ordered.toLinked, fun id => ?_⟩, ?_, made, ?_⟩
  · have domain := congrArg (id ∈ ·) ordered.domain_eq
    exact iff_of_eq domain
  · -- The sum over both tiers is no larger than the number of allocations, so it fits.
    have fits : chain.length < Arithmetic.wordLimit := by
      have small : chain.allocations < Arithmetic.halfLimit := few
      unfold Arithmetic.halfLimit at small
      unfold Arithmetic.wordLimit
      omega
    have total : chain.counters.livePool + chain.counters.liveHeap = chain.length := live
    exact Arithmetic.add_eq_ok_iff.mpr ⟨by omega, total⟩
  · have balance : chain.length + leaving events = chain.allocations := left
    show chain.allocations = _
    unfold leaving at balance
    omega

/-- Three insertions and a split make five allocations. Two nodes are left in the end, and a merge,
a merge again and a deletion account for the others. -/
theorem accounts_balance_in_pool :
    let start : Chain := .empty default (.pool (.ofSlots 1))
    let ops : List Op := [.insert ⟨0, 10⟩, .insert ⟨20, 30⟩, .insert ⟨10, 20⟩, .erase ⟨5, 8⟩]
    let chain := Action.after perform ops start
    let events := Action.events perform ops start
    (∀ op ∈ ops, op.WellFormed) ∧ chain.allocations < Arithmetic.halfLimit
      ∧ chain.counters.poolHits + chain.counters.heapFallbacks = 5
      ∧ events.countP Event.isSplitting = 1 ∧ events.countP Event.isMerging = 2
      ∧ events.countP Event.isDeleting = 1 ∧ chain.counters.live = .ok 2 := by
  intro start ops chain events
  have formed : ∀ op ∈ ops, op.WellFormed := by decide
  have few : chain.allocations < Arithmetic.halfLimit := by decide +kernel
  obtain ⟨-, live, made, left⟩ := accounts_balance (Or.inr ⟨1, rfl⟩) default ops formed few
  have inserted : ops.countP Op.isInsert = 3 := by decide
  have split : events.countP Event.isSplitting = 1 := by decide +kernel
  have deleted : events.countP Event.isDeleting = 1 := by decide +kernel
  have merged : events.countP Event.isMerging = 2 := by decide +kernel
  have remaining : chain.length = 2 := by decide +kernel
  refine ⟨formed, few, ?_, split, merged, deleted, ?_⟩
  · rw [inserted, split] at made
    exact made
  · rw [remaining] at live
    exact live

end Results

end Chain

end MergedSpans
