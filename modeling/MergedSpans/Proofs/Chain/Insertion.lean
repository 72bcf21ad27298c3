import MergedSpans.Proofs.Cells.Insertion
import MergedSpans.Proofs.Chain.Accounts
import MergedSpans.Proofs.Chain.Audit

/-! # What insertion does

Insertion into a chain is insertion into its cells. The new node is linked in front of the first
one that starts no earlier, which may leave the chain with spans that touch; one merge backward
and as many merges forward as there are spans to take in make the chain separated again. All of this
is so however often the store has allocated, and a chain that owns its store keeps its accounts.

* `Spells.mergeForward_run`, `Spells.mergeBack_run` — what is looked at before a merge.
* `Spells.mergeForward_yields`, `Spells.mergeBack_yields` — the merges.
* `Chain.Upright`, `Chain.Stalls` — what a chain is left as when its store has no index left.
* `Spells.insert_cases` — the whole insertion, audit included, unless the store has no index left.
* `Owned.insert_yields` — the whole insertion into a chain that owns its store and has room.
-/

namespace MergedSpans

namespace Chain

open MergedSpans.Action

variable {chain : Chain} {cells left right : List Cell} {id : NodeId} {span : Span}

/-! ## Stores without an index left -/

/-- The chain spells out separated spans, in a tidy store. -/
def Upright (chain : Chain) : Prop :=
  ∃ cells, chain.Spells cells ∧ Separated (spansOf cells) ∧ chain.store.Tidy

section Stalls

variable {α β : Type} {action : Action Chain α} {next : α → Action Chain β}

/-- The action meets a store that has no index left for a node, and leaves the chain upright. It may
have come a part of its way before. -/
def Stalls (action : Action Chain α) (chain : Chain) : Prop :=
  ∃ after events, action.run chain = ⟨.error .heapFull, after, events⟩ ∧ after.Upright

theorem Stalls.answer_eq (stalls : Stalls action chain) :
    (action.run chain).answer = .error .heapFull := by
  obtain ⟨after, events, stopped, -⟩ := stalls
  rw [stopped]

/-- Two actions in a row stall where the first of them does. -/
theorem Stalls.bind (stalls : Stalls action chain) : Stalls (action >>= next) chain := by
  obtain ⟨after, events, stopped, upright⟩ := stalls
  refine ⟨after, events, ?_, upright⟩
  rw [run_bind, stopped]
  rfl

/-- After an action that ends well they stall where the second does. -/
theorem Stalls.after {between : Chain} {value : α} {events : List Event}
    (yields : action.Yields chain value between events) (stalls : Stalls (next value) between) :
    Stalls (action >>= next) chain := by
  obtain ⟨after, more, stopped, upright⟩ := stalls
  refine ⟨after, events ++ more, ?_, upright⟩
  unfold Yields at yields
  rw [run_bind, yields, Outcome.andThen_of_ok, stopped]

/-- An action that runs as another one does stalls where that one does. -/
theorem Stalls.of_run_eq {other : Action Chain α} (same : action.run chain = other.run chain)
    (stalls : Stalls other chain) : Stalls action chain := by
  rwa [Stalls, same]

end Stalls

/-! ## Single steps -/

/-- A merge forward looks at the next cell, and either takes it in and goes on or is done. -/
theorem Spells.mergeForward_run {next : Cell}
    (spells : chain.Spells (left ++ ⟨id, span⟩ :: next :: right))
    (ordered : span.low ≤ next.span.low) (steps : Nat) :
    (mergeForward id (steps + 1)).run chain
      = (if span.Touches next.span then do
          merge id next.id
          mergeForward id steps
        else pure ()).run chain := by
  have seam := spells.links
  rw [List.append_cons] at seam
  have asked : span.mergeable next.span = .ok (decide (span.Touches next.span)) :=
    Span.mergeable_of_le ordered
  refine ((yields_node spells.links).run_bind _).trans ?_
  refine ((yields_spanAt spells.links).run_bind _).trans ?_
  refine ((yields_spanAt seam).run_bind _).trans ?_
  refine ((yields_ofExcept asked chain).run_bind _).trans ?_
  simp only [decide_eq_true_eq]

/-- A merge backward looks at the last cell before the new one. -/
theorem Spells.mergeBack_run {last : Cell}
    (spells : chain.Spells (left ++ last :: ⟨id, span⟩ :: right))
    (ordered : last.span.low ≤ span.low) :
    (mergeBack id span).run chain
      = (if last.span.Touches span then do
          merge last.id id
          return last.id
        else return id).run chain := by
  have seam := spells.links
  rw [List.append_cons] at seam
  have node := yields_node seam
  rw [lastId_append, lastId_cons, lastId_nil] at node
  have asked : last.span.mergeable span = .ok (decide (last.span.Touches span)) :=
    Span.mergeable_of_le ordered
  refine (node.run_bind _).trans ?_
  refine ((yields_spanAt spells.links).run_bind _).trans ?_
  refine ((yields_ofExcept asked chain).run_bind _).trans ?_
  simp only [decide_eq_true_eq]

/-! ## Merges -/

/-- The merges forward take in what the cell touches. -/
theorem Spells.mergeForward_yields (spells : chain.Spells (left ++ ⟨id, span⟩ :: right))
    (tidy : chain.store.Tidy) (ordered : ∀ later ∈ right, span.low ≤ later.span.low) {steps : Nat}
    (enough : right.length < steps) :
    ∃ after events, (mergeForward id steps).Yields chain () after events
      ∧ after.Spells (left ++ Cells.absorb id span right) ∧ after.store.Tidy
      ∧ Balances chain after (left ++ ⟨id, span⟩ :: right) (left ++ Cells.absorb id span right)
        events 0 := by
  -- Induction on the cells behind, for every span that the cell has grown to by then.
  induction right generalizing chain span steps with
  | nil =>
    obtain ⟨steps, rfl⟩ := Nat.exists_eq_add_one.mpr (Nat.zero_lt_of_lt enough)
    refine ⟨chain, [], ?_, spells, tidy, balances_refl chain _⟩
    exact (yields_node spells.links).silent_bind (yields_pure _ _)
  | cons next rest induction =>
    obtain ⟨steps, rfl⟩ := Nat.exists_eq_add_one.mpr (Nat.zero_lt_of_lt enough)
    rw [List.forall_mem_cons] at ordered
    have step := spells.mergeForward_run ordered.1 steps
    by_cases touches : span.Touches next.span
    · -- The next cell is taken in, and the merges go on from the hull.
      rw [if_pos touches] at step
      obtain ⟨merged, mergeEvents, mergeYields, mergeSpells, mergeTidy, mergeBalances⟩ :=
        spells.merge_balances tidy ordered.1
      obtain ⟨after, events, yields, afterSpells, afterTidy, balances⟩ :=
        induction mergeSpells mergeTidy ordered.2 (Nat.lt_of_succ_lt_succ enough)
      rw [Cells.absorb, if_pos touches]
      exact ⟨after, mergeEvents ++ events, .of_run_eq step (mergeYields.bind yields), afterSpells,
        afterTidy, mergeBalances.trans balances⟩
    · -- The next cell lies apart, and nothing is left to be done.
      rw [if_neg touches] at step
      rw [Cells.absorb, if_neg touches]
      exact ⟨chain, [], .of_run_eq step (yields_pure _ _), spells, tidy, balances_refl chain _⟩

/-- The merge backward hands the new span to the cell before it, if the two touch. What is left to
be done is to take in what stands behind. -/
theorem Spells.mergeBack_yields (spells : chain.Spells (left ++ ⟨id, span⟩ :: right))
    (tidy : chain.store.Tidy) (separated : Separated (spansOf left))
    (early : ∀ cell ∈ left, cell.span.low < span.low)
    (late : ∀ cell ∈ right, span.low ≤ cell.span.low) :
    ∃ holder held kept after events, (mergeBack id span).Yields chain holder after events
      ∧ after.Spells (kept ++ ⟨holder, held⟩ :: right) ∧ after.store.Tidy ∧ held.low ≤ span.low
      ∧ Cells.insert id span (left ++ right) = kept ++ Cells.absorb holder held right
      ∧ Balances chain after (left ++ ⟨id, span⟩ :: right) (kept ++ ⟨holder, held⟩ :: right)
        events 0 := by
  rcases List.eq_nil_or_concat' left with rfl | ⟨init, last, rfl⟩
  · refine ⟨id, span, [], chain, [], ?_, spells, tidy, UInt64.le_refl _,
      Cells.insert_of_le late, balances_refl chain _⟩
    exact (yields_node spells.links).silent_bind (yields_pure _ _)
  · rw [List.forall_mem_append, List.forall_mem_singleton] at early
    obtain ⟨initSeparated, -, behind⟩ := separated_spansOf_append.mp separated
    -- The cells before the last end before it starts, so the span cannot touch them.
    have passed : ∀ cell ∈ init, cell.span.low < span.low ∧ ¬ cell.span.Touches span := by
      intro cell member
      have formed := formed_of_mem initSeparated member
      have ends := behind cell member last List.mem_cons_self
      refine ⟨early.1 cell member, ?_⟩
      rw [formed.touches_iff, UInt64.not_le]
      exact UInt64.lt_trans ends early.2
    have whole := spells
    rw [List.append_assoc] at whole
    have step := whole.mergeBack_run (UInt64.le_of_lt early.2)
    by_cases touches : last.span.Touches span
    · -- The last cell takes the span in.
      rw [if_pos touches] at step
      obtain ⟨after, events, yields, afterSpells, afterTidy, balances⟩ :=
        whole.merge_balances tidy (UInt64.le_of_lt early.2)
      refine ⟨last.id, hull last.span span, init, after, events, ?_, afterSpells, afterTidy,
        UInt64.le_of_lt early.2, ?_, ?_⟩
      · rw [← List.append_nil events]
        exact .of_run_eq step (yields.bind (yields_pure _ _))
      · rw [List.append_assoc, Cells.insert_append passed, List.singleton_append,
          Cells.insert_of_touches early.2 touches]
      · rwa [List.append_assoc]
    · -- The span stands alone, for now.
      rw [if_neg touches] at step
      refine ⟨id, span, init ++ [last], chain, [], .of_run_eq step (yields_pure _ _), spells, tidy,
        UInt64.le_refl _, ?_, balances_refl chain _⟩
      have allPassed : ∀ cell ∈ init ++ [last],
          cell.span.low < span.low ∧ ¬ cell.span.Touches span := by
        rw [List.forall_mem_append, List.forall_mem_singleton]
        exact ⟨passed, early.2, touches⟩
      rw [Cells.insert_append allPassed, Cells.insert_of_le late]

/-! ## The whole insertion -/

/-- A node enters the store and is linked in front of the first one that starts no earlier, unless
the store has no index left for it. -/
theorem Spells.place_cases (spells : chain.Spells (left ++ right)) (tidy : chain.store.Tidy)
    (span : Span) (dropped : (left ++ right).dropWhile (·.span.low < span.low) = right) :
    (∃ id placed spliced events, (onStore (Store.allocate span)).Yields chain id placed events
        ∧ placed.lowerBound span.low = .ok (firstId right none)
        ∧ (spliceBefore id (firstId right none)).Yields placed () spliced []
        ∧ spliced.Spells (left ++ ⟨id, span⟩ :: right) ∧ spliced.store.Tidy
        ∧ Balances chain spliced (left ++ right) (left ++ ⟨id, span⟩ :: right) events 1)
      ∨ (∃ after events,
          (onStore (Store.allocate span)).run chain = ⟨.error .heapFull, after, events⟩
          ∧ after.Spells (left ++ right) ∧ after.store.Tidy)
        ∧ ¬ (chain.store.Sound ∧ chain.allocations < Arithmetic.halfLimit) := by
  rcases spells.allocate_cases tidy span with
    ⟨id, placed, events, placeYields, placeSpells, placeTidy, placeNode, apart, placeParticipant,
      placeKept⟩ | full
  · left
    have found := placeSpells.lowerBound_eq (placeSpells.fits placeTidy) span.low
    rw [dropped] at found
    obtain ⟨spliced, yields, splicedSpells, splicedTidy, participant_eq, kept, -⟩ :=
      placeSpells.spliceBefore_yields placeTidy placeNode apart
    refine ⟨id, placed, spliced, events, placeYields, found, yields, splicedSpells, splicedTidy, ?_⟩
    intro owned room
    obtain ⟨placeSound, placeCensus, ofStore⟩ := placeKept owned.sound (by omega)
    obtain ⟨sound, census⟩ := kept placeSound
    have census_eq := census.trans placeCensus
    obtain ⟨told, splits⟩ := told_of_ofStore ofStore
    exact ⟨owned_of_allocate owned ⟨splicedSpells, sound⟩ census_eq,
      settles_of_allocate census_eq (participant_eq.trans placeParticipant) told, splits⟩
  · exact .inr full

/-- Insertion into a chain that spells out separated spans ends well, audit included, and inserts
the span into the cells under the id that the store gives out for it, unless the store has no index
left. -/
theorem Spells.insert_cases (spells : chain.Spells cells) (tidy : chain.store.Tidy)
    (separated : Separated (spansOf cells)) (formed : span.WellFormed) :
    (∃ id after events, ((Store.allocate span).run chain.store).answer = .ok id
        ∧ (insert span).Yields chain () after events
        ∧ after.Spells (Cells.insert id span cells) ∧ after.store.Tidy
        ∧ Balances chain after cells (Cells.insert id span cells) events 1)
      ∨ Stalls (insert span) chain
        ∧ ¬ (chain.store.Sound ∧ chain.allocations < Arithmetic.halfLimit) := by
  obtain ⟨left, right, rfl, dropped, early, late⟩ := Cells.exists_seam separated span.low
  have leftSeparated := (separated_spansOf_append.mp separated).1
  have required := yields_ofExcept (Span.require_eq_ok_iff.mpr formed) chain
  rcases spells.place_cases tidy span dropped with
    ⟨id, placed, spliced, placeEvents, placeYields, found, spliceYields, spliceSpells, spliceTidy,
      spliceBalances⟩ | ⟨⟨stopped, events, refused, stoppedSpells, stoppedTidy⟩, full⟩
  · left
    -- Touching spans are merged, first backward, then forward.
    obtain ⟨holder, held, kept, back, backEvents, backYields, backSpells, backTidy, starts,
      cells_eq, backBalances⟩ := spliceSpells.mergeBack_yields spliceTidy leftSeparated early late
    have ordered : ∀ later ∈ right, held.low ≤ later.span.low :=
      fun later member => UInt64.le_trans starts (late later member)
    have enough : right.length < back.reach := by
      have counted := backSpells.length_le_live backTidy
      rw [List.length_append, List.length_cons] at counted
      unfold reach
      omega
    obtain ⟨after, events, yields, afterSpells, afterTidy, balances⟩ :=
      backSpells.mergeForward_yields backTidy ordered enough
    rw [← cells_eq] at afterSpells balances
    -- The result is separated, so the audit passes.
    have audited := recheck_yields afterSpells (Cells.separated_insert separated formed)
    refine ⟨id, after, placeEvents ++ backEvents ++ events, placeYields.answer_eq, ?_, afterSpells,
      afterTidy, (spliceBalances.trans backBalances).trans balances⟩
    apply Yields.silent_bind required
    rw [List.append_assoc]
    refine placeYields.bind (Yields.silent_bind (yields_read found) ?_)
    refine spliceYields.silent_bind (backYields.bind (Yields.silent_bind (yields_current back) ?_))
    rw [← List.append_nil events]
    exact yields.bind audited
  · have stalls : Stalls (onStore (Store.allocate span)) chain :=
      ⟨stopped, events, refused, left ++ right, stoppedSpells, separated, stoppedTidy⟩
    exact .inr ⟨.after required stalls.bind, full⟩

/-- Insertion into a chain that owns its store and has separated spans ends well, audit included,
and inserts the span into the cells under the id that the store gives out for it. -/
theorem Owned.insert_yields (owned : chain.Owned cells) (separated : Separated (spansOf cells))
    (formed : span.WellFormed) (room : chain.allocations + 1 < Arithmetic.halfLimit) :
    ∃ id after events, (insert span).Yields chain () after events
      ∧ after.Owned (Cells.insert id span cells)
      ∧ ((Store.allocate span).run chain.store).answer = .ok id
      ∧ Settles chain after events 1 ∧ splittings events = 0 := by
  have few : chain.allocations < Arithmetic.halfLimit := by omega
  rcases owned.toSpells.insert_cases owned.sound.tidy separated formed with
    ⟨id, after, events, allocated, yields, -, -, balances⟩ | ⟨-, full⟩
  · obtain ⟨afterOwned, settles, splits⟩ := balances owned room
    exact ⟨id, after, events, yields, afterOwned, allocated, settles, splits⟩
  · exact absurd ⟨owned.sound, few⟩ full

/-- A span that touches no other one enters at the seam where it belongs, unless the store has no
index left. In a store in order it does so under an id that was never given out before. -/
theorem Spells.insert_cases_of_apart (spells : chain.Spells (left ++ right))
    (tidy : chain.store.Tidy) (separated : Separated (spansOf left ++ span :: spansOf right)) :
    (∃ id after events, (insert span).Yields chain () after events
        ∧ after.Spells (left ++ ⟨id, span⟩ :: right) ∧ after.store.Tidy
        ∧ Balances chain after (left ++ right) (left ++ ⟨id, span⟩ :: right) events 1
        ∧ (chain.store.Sound → chain.allocations < Arithmetic.halfLimit →
          id ∉ chain.census.issued))
      ∨ Stalls (insert span) chain
        ∧ ¬ (chain.store.Sound ∧ chain.allocations < Arithmetic.halfLimit) := by
  have without : Separated (spansOf (left ++ right)) := by
    rw [spansOf_append]
    exact separated.sublist ((List.sublist_cons_self _ _).append_left _)
  have formed := separated.formed span (by simp)
  rcases spells.insert_cases tidy without formed with
    ⟨id, after, events, allocated, yields, afterSpells, afterTidy, balances⟩ | stalls
  · rw [Cells.insert_of_separated id separated] at afterSpells balances
    exact .inl ⟨id, after, events, yields, afterSpells, afterTidy, balances,
      fun sound few => Store.not_mem_issued sound few allocated⟩
  · exact .inr stalls

/-- A span that touches no other one enters a chain that owns its store at the seam where it
belongs, under an id that was never given out before. -/
theorem Owned.insert_yields_of_apart (owned : chain.Owned (left ++ right))
    (separated : Separated (spansOf left ++ span :: spansOf right))
    (room : chain.allocations + 1 < Arithmetic.halfLimit) :
    ∃ id after events, (insert span).Yields chain () after events
      ∧ after.Owned (left ++ ⟨id, span⟩ :: right) ∧ id ∉ chain.census.issued
      ∧ Settles chain after events 1 ∧ splittings events = 0 := by
  have few : chain.allocations < Arithmetic.halfLimit := by omega
  rcases owned.toSpells.insert_cases_of_apart owned.sound.tidy separated with
    ⟨id, after, events, yields, -, -, balances, new⟩ | ⟨-, full⟩
  · obtain ⟨afterOwned, settles, splits⟩ := balances owned room
    exact ⟨id, after, events, yields, afterOwned, new owned.sound few, settles, splits⟩
  · exact absurd ⟨owned.sound, few⟩ full

end Chain

end MergedSpans
