import MergedSpans.Proofs.Chain.Insertion
import MergedSpans.Proofs.Chain.Verdict

/-! # One representation for each set of addresses

What a chain without a defect holds is determined by the addresses that it covers, whatever calls
have made it and whatever store it is kept in. So it does not matter in which order spans are
inserted, how often, or how they are cut into pieces.

* `Chain.HasRoom` — the store has an index for every node that insertions put into it.
* `Spells.inserts`, `Owned.inserts` — insertions one after another.
* `Owned.hasRoom` — a store in order has room for them below 2 ^ 32 allocations.
* `spans_eq_of_covered`, `inserts_spans_eq` — the addresses determine the spans of chains without a
  defect, and so those of chains that insertions make.
* `canonical` — both of these.
-/

namespace MergedSpans

namespace Chain

open MergedSpans.Action

variable {chain : Chain} {cells : List Cell} {spans : List Span}

/-! ## Insertions one after another -/

/-- No insertion of the spans finds the store without an index for its node. -/
def HasRoom (chain : Chain) (spans : List Span) : Prop :=
  ∀ outcome ∈ Action.outcomes insert spans chain, outcome.answer ≠ .error .heapFull

/-- Insertions that have room end well, and the cells gain what is inserted. -/
theorem Spells.inserts (spells : chain.Spells cells) (tidy : chain.store.Tidy)
    (separated : Separated (spansOf cells)) (formed : ∀ span ∈ spans, span.WellFormed)
    (room : chain.HasRoom spans) :
    (∀ outcome ∈ Action.outcomes insert spans chain, outcome.answer = .ok ())
      ∧ ∃ remaining, (Action.after insert spans chain).Spells remaining
        ∧ (Action.after insert spans chain).store.Tidy ∧ Cells.Gains spans cells remaining := by
  -- Induction on the spans, for whatever the chain spells out when the next one is inserted.
  induction spans generalizing chain cells with
  | nil => exact ⟨by simp [Action.outcomes], cells, spells, tidy, Cells.gains_nil separated⟩
  | cons span rest induction =>
    rw [List.forall_mem_cons] at formed
    rw [HasRoom, Action.outcomes, List.forall_mem_cons] at room
    rcases spells.insert_cases tidy separated formed.1 with
      ⟨id, after, events, -, yields, afterSpells, afterTidy, -⟩ | ⟨stalls, -⟩
    · rw [yields.state_eq] at room
      obtain ⟨others, remaining, remainingSpells, remainingTidy, gains⟩ :=
        induction afterSpells afterTidy (Cells.separated_insert separated formed.1) formed.2 room.2
      rw [Action.outcomes, List.forall_mem_cons, after_cons, yields.state_eq]
      exact ⟨⟨yields.answer_eq, others⟩, remaining, remainingSpells, remainingTidy,
        gains.cons separated⟩
    · exact absurd stalls.answer_eq room.1

/-- Insertions into a chain that owns its store end well as long as there are fewer than 2 ^ 32
allocations, and it owns its store in the end. -/
theorem Owned.inserts (owned : chain.Owned cells) (separated : Separated (spansOf cells))
    (formed : ∀ span ∈ spans, span.WellFormed)
    (few : chain.allocations + spans.length < Arithmetic.halfLimit) :
    (∀ outcome ∈ Action.outcomes insert spans chain, outcome.answer = .ok ())
      ∧ ∃ remaining, (Action.after insert spans chain).Owned remaining
        ∧ Cells.Gains spans cells remaining := by
  induction spans generalizing chain cells with
  | nil => exact ⟨by simp [Action.outcomes], cells, owned, Cells.gains_nil separated⟩
  | cons span rest induction =>
    rw [List.forall_mem_cons] at formed
    rw [List.length_cons, Nat.add_comm rest.length] at few
    obtain ⟨id, after, events, yields, afterOwned, -, settles, -⟩ :=
      owned.insert_yields separated formed.1 (by omega)
    obtain ⟨others, remaining, remainingOwned, gains⟩ :=
      induction afterOwned (Cells.separated_insert separated formed.1) formed.2 (settles.room few)
    rw [Action.outcomes, List.forall_mem_cons, after_cons, yields.state_eq]
    exact ⟨⟨yields.answer_eq, others⟩, remaining, remainingOwned, gains.cons separated⟩

/-- So such a chain has room for them. -/
theorem Owned.hasRoom (owned : chain.Owned cells) (separated : Separated (spansOf cells))
    (formed : ∀ span ∈ spans, span.WellFormed)
    (few : chain.allocations + spans.length < Arithmetic.halfLimit) : chain.HasRoom spans := by
  intro outcome member full
  rw [(owned.inserts separated formed few).1 outcome member] at full
  cases full

/-! ## Main result -/

section Results

variable {first second : Chain} {others : List Span} {store other : Store}

/-- Two chains without a defect have the same spans if they cover the same addresses. -/
theorem spans_eq_of_covered (reachable : first.store.Reachable)
    (otherReachable : second.store.Reachable) (clean : first.validate = .ok none)
    (otherClean : second.validate = .ok none) :
    ∃ spans others, first.spans = .ok spans ∧ second.spans = .ok others
      ∧ ((∀ address, Covered spans address ↔ Covered others address) →
        spans = others ∧ first.length = second.length) := by
  obtain ⟨cells, spells, separated⟩ := exists_spells_of_validate clean
  obtain ⟨otherCells, otherSpells, otherSeparated⟩ := exists_spells_of_validate otherClean
  refine ⟨spansOf cells, spansOf otherCells, spells.spans_eq (spells.fits reachable.tidy),
    otherSpells.spans_eq (otherSpells.fits otherReachable.tidy), fun same => ?_⟩
  have spans_eq := separated.eq_of_covered otherSeparated same
  have counted := congrArg List.length spans_eq
  rw [List.length_map, List.length_map, ← spells.length_eq, ← otherSpells.length_eq] at counted
  exact ⟨spans_eq, counted⟩

/-- Insertions of spans that cover the same addresses leave the same spans. -/
theorem inserts_spans_eq (fresh : store.IsFresh) (otherFresh : other.IsFresh)
    (participant partner : Participant) (formed : ∀ span ∈ spans, span.WellFormed)
    (othersFormed : ∀ span ∈ others, span.WellFormed)
    (same : ∀ address, Covered spans address ↔ Covered others address)
    (room : (empty participant store).HasRoom spans)
    (otherRoom : (empty partner other).HasRoom others) :
    (∀ outcome ∈ Action.outcomes insert spans (empty participant store), outcome.answer = .ok ())
      ∧ (∀ outcome ∈ Action.outcomes insert others (empty partner other), outcome.answer = .ok ())
      ∧ ∃ result, (Action.after insert spans (empty participant store)).spans = .ok result
        ∧ (Action.after insert others (empty partner other)).spans = .ok result := by
  obtain ⟨ends, cells, spells, tidy, gains⟩ :=
    (owned_empty fresh participant).toSpells.inserts fresh.sound.tidy separated_nil formed room
  obtain ⟨otherEnds, otherCells, otherSpells, otherTidy, otherGains⟩ :=
    (owned_empty otherFresh partner).toSpells.inserts otherFresh.sound.tidy separated_nil othersFormed
      otherRoom
  -- Both chains cover just what was inserted.
  have spans_eq : spansOf cells = spansOf otherCells :=
    gains.separated.eq_of_covered otherGains.separated fun address => by
      rw [gains.covered_iff, otherGains.covered_iff, same]
  refine ⟨ends, otherEnds, spansOf cells, spells.spans_eq (spells.fits tidy), ?_⟩
  rw [spans_eq]
  exact otherSpells.spans_eq (otherSpells.fits otherTidy)

/-- A store that was never used has room for fewer than 2 ^ 32 insertions. -/
theorem hasRoom_of_length_lt (fresh : store.IsFresh) (participant : Participant)
    (formed : ∀ span ∈ spans, span.WellFormed) (few : spans.length < Arithmetic.halfLimit) :
    (empty participant store).HasRoom spans := by
  have noneYet : (empty participant store).allocations = 0 :=
    congrArg Ledger.allocations fresh.ledger_eq
  refine (owned_empty fresh participant).hasRoom separated_nil formed ?_
  rwa [noneYet, Nat.zero_add]

/-- The representation is canonical. Any two chains without a defect, over any stores that calls
have led to, have the same spans and as many of them if they cover the same addresses. So spans that
cover the same addresses, inserted into two chains over stores that were never used, leave the same
spans in both. That is so as long as the stores have room, and for fewer than 2 ^ 32 insertions they
have. -/
theorem canonical :
    (∀ first second : Chain, first.store.Reachable → second.store.Reachable →
        first.validate = .ok none → second.validate = .ok none →
        ∃ spans others, first.spans = .ok spans ∧ second.spans = .ok others
          ∧ ((∀ address, Covered spans address ↔ Covered others address) →
            spans = others ∧ first.length = second.length))
      ∧ (∀ store other : Store, store.IsFresh → other.IsFresh →
        ∀ participant partner : Participant, ∀ spans others : List Span,
          (∀ span ∈ spans, span.WellFormed) → (∀ span ∈ others, span.WellFormed) →
          (∀ address, Covered spans address ↔ Covered others address) →
          (empty participant store).HasRoom spans → (empty partner other).HasRoom others →
          (∀ outcome ∈ Action.outcomes insert spans (empty participant store),
              outcome.answer = .ok ())
            ∧ (∀ outcome ∈ Action.outcomes insert others (empty partner other),
              outcome.answer = .ok ())
            ∧ ∃ result, (Action.after insert spans (empty participant store)).spans = .ok result
              ∧ (Action.after insert others (empty partner other)).spans = .ok result)
      ∧ ∀ store : Store, store.IsFresh → ∀ (participant : Participant) (spans : List Span),
        (∀ span ∈ spans, span.WellFormed) → spans.length < Arithmetic.halfLimit →
        (empty participant store).HasRoom spans := by
  refine ⟨?_, ?_, ?_⟩
  · intro first second reachable otherReachable clean otherClean
    exact spans_eq_of_covered reachable otherReachable clean otherClean
  · intro store other fresh otherFresh participant partner spans others formed othersFormed same
      room otherRoom
    exact inserts_spans_eq fresh otherFresh participant partner formed othersFormed same room
      otherRoom
  · intro store fresh participant spans formed few
    exact hasRoom_of_length_lt fresh participant formed few

/-- Two adjoining spans and one that lies apart, and the same addresses in other pieces, some of
them twice, in another order. -/
theorem canonical_across_stores :
    let spans : List Span := [⟨0, 10⟩, ⟨30, 40⟩, ⟨10, 20⟩]
    let others : List Span := [⟨30, 35⟩, ⟨5, 20⟩, ⟨0, 7⟩, ⟨32, 40⟩, ⟨30, 35⟩]
    let first := Action.after insert spans (empty default (.heap .empty))
    let second := Action.after insert others (empty default (.pool (.ofSlots 1)))
    (∀ address, Covered spans address ↔ Covered others address)
      ∧ first.validate = .ok none ∧ second.validate = .ok none
      ∧ first.spans = second.spans ∧ first.length = second.length := by
  intro spans others first second
  obtain ⟨determined, inserted, room⟩ := canonical
  have formed : ∀ span ∈ spans, span.WellFormed := by decide
  have othersFormed : ∀ span ∈ others, span.WellFormed := by decide
  have same : ∀ address, Covered spans address ↔ Covered others address := by
    intro address
    simp only [spans, others, covered_cons, not_covered_nil, Span.Holds]
    grind
  have heapFresh : (Store.heap .empty).IsFresh := .inl rfl
  have poolFresh : (Store.pool (.ofSlots 1)).IsFresh := .inr ⟨1, rfl⟩
  obtain ⟨-, -, result, firstSpans, secondSpans⟩ :=
    inserted _ _ heapFresh poolFresh default default spans others formed othersFormed same
      (room _ heapFresh default spans formed (by decide))
      (room _ poolFresh default others othersFormed (by decide))
  have clean : first.validate = .ok none := by decide +kernel
  have otherClean : second.validate = .ok none := by decide +kernel
  obtain ⟨_, _, told, otherTold, equal⟩ := determined first second
    (reachable_after (moves_insert Store.closed_leadsTo) spans heapFresh.reachable)
    (reachable_after (moves_insert Store.closed_leadsTo) others poolFresh.reachable)
    clean otherClean
  obtain rfl := Except.ok.inj (told.symm.trans firstSpans)
  obtain rfl := Except.ok.inj (otherTold.symm.trans secondSpans)
  exact ⟨same, clean, otherClean, firstSpans.trans secondSpans.symm, (equal fun _ => Iff.rfl).2⟩

end Results

end Chain

end MergedSpans
