import MergedSpans.Workload
import MergedSpans.Proofs.AddressSet
import MergedSpans.Proofs.Chain.Calls

/-! # Chains agree with sets of single addresses

A chain is a set of addresses that is kept in fewer places. Asked the same questions in the same
order, the two give the same answers, and the spans of the chain are the maximal runs of the set.

* `Chain.Mirrors` — a chain that is in order covers just the addresses of a set.
* `SameOutcome` — a call came to the same on a chain and on a set.
* `Mirrors.perform` — one call; `agrees_with_addresses` — calls of any number.
-/

namespace MergedSpans

open MergedSpans.Action

/-! ## One call on a set -/

/-- A call on a set with a well-formed span ends well, and does what it says. -/
theorem AddressSet.perform_yields {set : AddressSet} {op : Op} (formed : op.WellFormed) :
    ∃ answer after, (AddressSet.perform op).Yields set answer after []
      ∧ (∀ address, address ∈ after ↔ op.coverage (· ∈ set) address)
      ∧ op.Answers (· ∈ set) answer := by
  cases op with
  | insert span =>
    refine ⟨none, set.insert span, (yields_update rfl).silent_bind (yields_pure _ _), ?_, rfl⟩
    exact fun address => AddressSet.mem_insert.trans or_comm
  | erase span =>
    refine ⟨none, set.erase span, (yields_update rfl).silent_bind (yields_pure _ _), ?_, rfl⟩
    exact fun address => AddressSet.mem_erase
  | overlaps span =>
    obtain ⟨hit, answered, iff⟩ := @AddressSet.overlaps_eq set span formed
    have asked : (Action.read fun set : AddressSet => set.overlaps span).Yields set hit set [] :=
      yields_read answered
    exact ⟨some hit, set, asked.silent_bind (yields_pure _ _), fun _ => Iff.rfl, hit, rfl, iff⟩
  | clear =>
    refine ⟨none, set.clear, (yields_update rfl).silent_bind (yields_pure _ _), ?_, rfl⟩
    exact fun address => iff_of_false AddressSet.not_mem_clear id

/-! ## One call on both -/

/-- The chain is in order, and covers just the addresses of the set. -/
structure Chain.Mirrors (chain : Chain) (cells : List Cell) (set : AddressSet) : Prop
    extends Chain.Ordered chain cells where
  /-- The covered addresses are those of the set. -/
  mem_iff : ∀ address, address ∈ set ↔ Covered (spansOf cells) address

/-- A call came to the same on a chain and on a set: to the same answer, and to the same spans, as
many as the chain has recorded. -/
structure SameOutcome (chain : Outcome Chain (Option Bool))
    (set : Outcome AddressSet (Option Bool)) : Prop where
  /-- Both calls ended well, with the same answer. -/
  answer_eq : ∃ answer, chain.answer = .ok answer ∧ set.answer = .ok answer
  /-- Both have the same spans. -/
  spans_eq : ∃ spans, chain.state.spans = .ok spans ∧ set.state.spans = .ok spans
  /-- Both have the same number of them. -/
  length_eq : set.state.length = .ok chain.state.length

section Mirrors

variable {chain : Chain} {cells : List Cell} {set : AddressSet} {op : Op}

/-- The spans of a chain are the maximal runs of the set that it mirrors. -/
theorem Chain.Mirrors.spans_eq (mirrors : chain.Mirrors cells set) :
    set.spans = .ok (spansOf cells) := by
  have below : ∀ address ∈ set, address.toNat + 1 < Arithmetic.wordLimit := by
    intro address member
    obtain ⟨span, -, held⟩ := (mirrors.mem_iff address).mp member
    exact held.add_one_lt
  obtain ⟨spans, read, separated, covers⟩ := AddressSet.spans_eq below
  rw [read, separated.eq_of_covered mirrors.separated fun address => by
    rw [covers, mirrors.mem_iff]]

/-- A call on a chain and on the set that it mirrors comes to the same on both, and the chain
mirrors the set again. -/
theorem Chain.Mirrors.perform (mirrors : chain.Mirrors cells set) (formed : op.WellFormed)
    (few : ((Chain.perform op).run chain).state.allocations < Arithmetic.halfLimit) :
    ∃ answer after events remaining setAfter, (Chain.perform op).Yields chain answer after events
      ∧ (AddressSet.perform op).Yields set answer setAfter []
      ∧ after.Mirrors remaining setAfter := by
  obtain ⟨answer, after, events, remaining, yields, ordered, covers, answers, -⟩ :=
    mirrors.perform_yields formed few
  obtain ⟨setAnswer, setAfter, setYields, members, setAnswers⟩ :=
    @AddressSet.perform_yields set op formed
  -- Both calls were told in terms of the covered addresses, and those are the same.
  have same : (· ∈ set) = Covered (spansOf cells) := funext fun address =>
    propext (mirrors.mem_iff address)
  rw [same] at members setAnswers
  obtain rfl := answers.unique setAnswers
  exact ⟨answer, after, events, remaining, setAfter, yields, setYields,
    { ordered with mem_iff := fun address => by rw [members, covers] }⟩

/-- Where both calls end well with the same answer, and the chain mirrors the set, they came to
the same. -/
theorem Chain.Mirrors.sameOutcome (mirrors : chain.Mirrors cells set) (answer : Option Bool)
    (events more : List Event) :
    SameOutcome ⟨.ok answer, chain, events⟩ ⟨.ok answer, set, more⟩ where
  answer_eq := ⟨answer, rfl, rfl⟩
  spans_eq := ⟨spansOf cells, mirrors.toOwned.spans_eq, mirrors.spans_eq⟩
  length_eq := by
    show (do let spans ← set.spans; return spans.length) = Except.ok chain.length
    rw [mirrors.spans_eq, mirrors.length_eq]
    show Except.ok (spansOf cells).length = _
    rw [List.length_map]

end Mirrors

/-! ## Calls of any number -/

/-- Did a query hit? -/
def hit (outcome : Outcome AddressSet (Option Bool)) : Bool :=
  match outcome.answer with
  | .ok (some true) => true
  | _ => false

section Runs

variable {chain : Chain} {cells : List Cell} {set : AddressSet}

/-- Calls of any number come to the same on a chain and on the set that it mirrors. -/
theorem Chain.Mirrors.outcomes (mirrors : chain.Mirrors cells set) (ops : List Op)
    (formed : ∀ op ∈ ops, op.WellFormed)
    (few : (Action.after Chain.perform ops chain).allocations < Arithmetic.halfLimit) :
    List.Forall₂ SameOutcome (Action.outcomes Chain.perform ops chain)
      (Action.outcomes AddressSet.perform ops set) := by
  -- Induction on the calls: after each of them the chain mirrors the set again.
  induction ops generalizing chain cells set with
  | nil => exact .nil
  | cons op rest induction =>
    rw [List.forall_mem_cons] at formed
    have fewNow := Nat.lt_of_le_of_lt (Chain.allocations_le_after rest _) few
    obtain ⟨answer, after, events, remaining, setAfter, yields, setYields, mirrorsAfter⟩ :=
      mirrors.perform formed.1 fewNow
    unfold Yields at yields setYields
    rw [after_cons, yields] at few
    rw [Action.outcomes, Action.outcomes, yields, setYields]
    exact .cons (mirrorsAfter.sameOutcome answer events []) (induction mirrorsAfter formed.2 few)

/-- A replay on a chain counts the queries that hit on the set which it mirrors. -/
theorem Chain.Mirrors.replay_yields (mirrors : chain.Mirrors cells set) (ops : List Op)
    (formed : ∀ op ∈ ops, op.WellFormed)
    (few : (Action.after Chain.perform ops chain).allocations < Arithmetic.halfLimit) :
    ∃ after events, (Workload.replay ops).Yields chain
      ((Action.outcomes AddressSet.perform ops set).countP hit) after events := by
  induction ops generalizing chain cells set with
  | nil => exact ⟨chain, [], yields_pure _ _⟩
  | cons op rest induction =>
    rw [List.forall_mem_cons] at formed
    have fewNow := Nat.lt_of_le_of_lt (Chain.allocations_le_after rest _) few
    obtain ⟨answer, between, events, remaining, setAfter, yields, setYields, mirrorsAfter⟩ :=
      mirrors.perform formed.1 fewNow
    unfold Yields at setYields
    have fewLater := few
    rw [after_cons, show (Chain.perform op).run chain = _ from yields] at fewLater
    obtain ⟨after, more, later⟩ := induction mirrorsAfter formed.2 fewLater
    have counted : (Action.outcomes AddressSet.perform (op :: rest) set).countP hit
        = (if answer = some true then 1 else 0)
          + (Action.outcomes AddressSet.perform rest setAfter).countP hit := by
      rw [Action.outcomes, List.countP_cons, setYields, Nat.add_comm]
      rcases answer with _ | _ | _ <;> rfl
    rw [counted]
    exact ⟨after, events ++ (more ++ []), yields.bind (later.bind (yields_pure _ _))⟩

/-- Calls with well-formed spans, in any order and over any store that was never used, come to the
same on a chain as on a set of single addresses as long as there is room for the nodes: after every
one of them the answers are the same, the spans of the chain are the maximal runs of the set, and
the chain has recorded how many there are. So a replay counts the queries that hit on the set. -/
theorem agrees_with_addresses {store : Store} (fresh : store.IsFresh) (participant : Participant)
    (ops : List Op) (formed : ∀ op ∈ ops, op.WellFormed)
    (few : (Action.after Chain.perform ops (.empty participant store)).allocations
      < Arithmetic.halfLimit) :
    List.Forall₂ SameOutcome (Action.outcomes Chain.perform ops (.empty participant store))
        (Action.outcomes AddressSet.perform ops .empty)
      ∧ ((Workload.replay ops).run (.empty participant store)).answer
        = .ok ((Action.outcomes AddressSet.perform ops .empty).countP hit) := by
  have mirrors : (Chain.empty participant store).Mirrors [] .empty :=
    { Chain.ordered_empty fresh participant with
      mem_iff := fun address => iff_of_false (AddressSet.not_mem_empty address) not_covered_nil }
  refine ⟨mirrors.outcomes ops formed few, ?_⟩
  obtain ⟨after, events, yields⟩ := mirrors.replay_yields ops formed few
  unfold Yields at yields
  rw [yields]

/-- A run that reaches the last address there is, over a pool without slots. -/
theorem agrees_with_addresses_to_the_top :
    let top : UInt64 := 0xffffffffffffffff
    let ops : List Op := [.insert ⟨0, 4⟩, .insert ⟨top - 6, top⟩, .erase ⟨top - 4, top - 2⟩,
      .overlaps ⟨top - 4, top - 2⟩, .overlaps ⟨3, top⟩, .insert ⟨4, 6⟩]
    let start : Chain := .empty default (.pool (.ofSlots 0))
    (∀ op ∈ ops, op.WellFormed)
      ∧ (Action.after Chain.perform ops start).allocations < Arithmetic.halfLimit
      ∧ List.Forall₂ SameOutcome (Action.outcomes Chain.perform ops start)
        (Action.outcomes AddressSet.perform ops .empty)
      ∧ ((Workload.replay ops).run start).answer = .ok 1 := by
  intro top ops start
  have formed : ∀ op ∈ ops, op.WellFormed := by decide
  have few : (Action.after Chain.perform ops start).allocations < Arithmetic.halfLimit := by
    decide +kernel
  obtain ⟨same, counted⟩ := agrees_with_addresses (Or.inr ⟨0, rfl⟩) default ops formed few
  refine ⟨formed, few, same, ?_⟩
  have hits : (Action.outcomes AddressSet.perform ops .empty).countP hit = 1 := by decide +kernel
  rw [hits] at counted
  exact counted

end Runs

end MergedSpans
