import MergedSpans.Proofs.Chain.Calls

/-! # Calls that are rejected

A call with a span that holds no address is rejected before it has done anything, and no other call
meets a fault. So the calls of a run that were rejected may as well not have been made.

* `Op.Rejects` — the call has to be rejected, with a fault that names the bounds of its span.
* `Chain.perform_refuses` — calls that are not well formed, on any chain.
* `Ordered.perform_or_rejects` — all calls, on a chain that is in order.
* `Chain.rejected_calls_leave_no_trace` — a run with and without the calls that were rejected.
-/

namespace MergedSpans

namespace Op

/-- The span that a call is made with. -/
def span? : Op → Option Span
  | insert span | erase span | overlaps span => some span
  | clear => none

/-- The call has to be rejected with the fault: it is made with a span whose low bound is not below
its high bound, and the message names the two. -/
def Rejects (op : Op) (fault : Fault) : Prop :=
  ∃ span, op.span? = some span ∧ span.high ≤ span.low ∧ fault = .invalidSpan span.low span.high
    ∧ fault.message = "invalid span: low " ++ Span.addressText span.low ++ " must be below high "
      ++ Span.addressText span.high

variable {op : Op}

/-- There is one fault at most for a call to be rejected with. -/
theorem Rejects.unique {first second : Fault} (left : op.Rejects first)
    (right : op.Rejects second) : first = second := by
  obtain ⟨span, made, -, rfl, -⟩ := left
  obtain ⟨other, same, -, rfl, -⟩ := right
  obtain rfl := Option.some_inj.mp (made.symm.trans same)
  rfl

/-- A call is well formed when its span, if it has one, is. -/
theorem wellFormed_iff : op.WellFormed ↔ ∀ span, op.span? = some span → span.WellFormed := by
  cases op <;> simp [WellFormed, span?]

/-- A call that is well formed is not rejected. -/
theorem WellFormed.not_rejects (formed : op.WellFormed) (fault : Fault) : ¬ op.Rejects fault := by
  rintro ⟨span, made, reversed, -⟩
  exact UInt64.not_lt.mpr reversed (wellFormed_iff.mp formed span made)

end Op

namespace Chain

open MergedSpans.Action

variable {chain : Chain} {cells : List Cell} {op : Op}

/-- A call with a span that holds no address is refused, whatever the chain is like. -/
theorem perform_refuses (malformed : ¬ op.WellFormed) (chain : Chain) :
    ∃ fault, op.Rejects fault ∧ (perform op).Refuses chain fault := by
  obtain ⟨span, made, unformed⟩ : ∃ span, op.span? = some span ∧ ¬ span.WellFormed := by
    simpa only [Op.wellFormed_iff, not_forall, exists_prop] using malformed
  have required : span.require = .error (.invalidSpan span.low span.high) := if_neg unformed
  refine ⟨_, ⟨span, made, UInt64.not_lt.mp unformed, rfl, rfl⟩, ?_⟩
  have refuses : (requireFormed span).Refuses chain (.invalidSpan span.low span.high) :=
    refuses_ofExcept required chain
  -- Every call starts by looking at its span.
  cases op with
  | insert span =>
    cases made
    exact refuses.bind.bind
  | erase span =>
    cases made
    exact refuses.bind.bind
  | overlaps span =>
    cases made
    have answered : chain.overlaps span = .error (.invalidSpan span.low span.high) := by
      rw [overlaps, required]
      rfl
    have asked : (Action.read fun chain : Chain => chain.overlaps span).Refuses chain
        (.invalidSpan span.low span.high) := refuses_read answered
    exact asked.bind
  | clear => cases made

/-- On a chain that is in order and has room, a call meets a fault just when it has to be rejected,
and leaves the chain in order in either case. -/
theorem Ordered.perform_or_rejects (ordered : chain.Ordered cells)
    (few : ((perform op).run chain).state.allocations < Arithmetic.halfLimit) :
    (∃ remaining, ((perform op).run chain).state.Ordered remaining)
      ∧ ∀ fault, ((perform op).run chain).answer = .error fault ↔ op.Rejects fault := by
  by_cases formed : op.WellFormed
  · obtain ⟨answer, after, events, remaining, yields, orderedAfter, -⟩ :=
      ordered.perform_yields formed few
    rw [yields.state_eq, yields.answer_eq]
    exact ⟨⟨remaining, orderedAfter⟩, fun fault => iff_of_false nofun (formed.not_rejects fault)⟩
  · obtain ⟨fault, rejects, refuses⟩ := perform_refuses formed chain
    rw [refuses.state_eq, show ((perform op).run chain).answer = .error fault from
      congrArg Outcome.answer refuses]
    refine ⟨⟨cells, ordered⟩, fun other => ⟨?_, fun also => congrArg _ (rejects.unique also)⟩⟩
    rintro ⟨⟩
    exact rejects

/-- In a run of any calls just those meet a fault that have to be rejected. -/
theorem Ordered.outcomes_rejects (ordered : chain.Ordered cells) (ops : List Op)
    (few : (Action.after perform ops chain).allocations < Arithmetic.halfLimit) :
    List.Forall₂ (fun op outcome => ∀ fault, outcome.answer = .error fault ↔ op.Rejects fault) ops
      (Action.outcomes perform ops chain) := by
  -- Induction on the calls: whether rejected or not, each of them leaves the chain in order.
  induction ops generalizing chain cells with
  | nil => exact .nil
  | cons op rest induction =>
    obtain ⟨⟨remaining, orderedAfter⟩, rejects⟩ :=
      ordered.perform_or_rejects (Nat.lt_of_le_of_lt (allocations_le_after rest _) few)
    exact .cons rejects (induction orderedAfter few)

/-- In a run of any calls, on a chain over a store that was never used and has room for the nodes, a
call meets a fault just when it is made with a span whose low bound is not below its high bound, and
the fault is always that one. The run without these calls comes to the same: to the same outcomes of
all other calls, the same chain with the same store, and the same events. -/
theorem rejected_calls_leave_no_trace {store : Store} (fresh : store.IsFresh)
    (participant : Participant) (ops : List Op)
    (few : (Action.after perform ops (.empty participant store)).allocations
      < Arithmetic.halfLimit) :
    let start : Chain := .empty participant store
    let outcomes := Action.outcomes perform ops start
    let kept := ops.filter (·.WellFormed)
    List.Forall₂ (fun op outcome => ∀ fault, outcome.answer = .error fault ↔ op.Rejects fault) ops
        outcomes
      ∧ Action.outcomes perform kept start
        = ((ops.zip outcomes).filter (·.1.WellFormed)).map Prod.snd
      ∧ Action.after perform kept start = Action.after perform ops start
      ∧ Action.events perform kept start = Action.events perform ops start := by
  intro start outcomes kept
  have refused : ∀ op : Op, ¬ op.WellFormed →
      ∀ chain, ∃ fault, (perform op).Refuses chain fault := fun op malformed chain =>
    (perform_refuses malformed chain).imp fun _ rejected => rejected.2
  exact ⟨(ordered_empty fresh participant).outcomes_rejects ops few,
    outcomes_filter refused ops start, after_filter refused ops start,
    events_filter refused ops start⟩

/-- A run over a growing table that starts with a removal from no spans, with a span that holds no
address, and goes on with more such calls. -/
theorem rejected_calls_leave_no_trace_in_table :
    let start : Chain := .empty default (.heap .empty)
    let ops : List Op := [.erase ⟨5, 5⟩, .insert ⟨0, 10⟩, .insert ⟨10, 3⟩, .overlaps ⟨7, 7⟩,
      .erase ⟨3, 4⟩, .erase ⟨9, 2⟩, .clear]
    let kept : List Op := [.insert ⟨0, 10⟩, .erase ⟨3, 4⟩, .clear]
    (Action.after perform ops start).allocations < Arithmetic.halfLimit
      ∧ (Action.outcomes perform ops start).map (·.answer)
        = [.error (.invalidSpan 5 5), .ok none, .error (.invalidSpan 10 3),
          .error (.invalidSpan 7 7), .ok none, .error (.invalidSpan 9 2), .ok none]
      ∧ Action.after perform kept start = Action.after perform ops start
      ∧ Action.events perform kept start = Action.events perform ops start := by
  intro start ops kept
  have few : (Action.after perform ops start).allocations < Arithmetic.halfLimit := by
    decide +kernel
  obtain ⟨-, -, after, events⟩ := rejected_calls_leave_no_trace (Or.inl rfl) default ops few
  exact ⟨few, by decide +kernel, after, events⟩

end Chain

end MergedSpans
