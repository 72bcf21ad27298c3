import MergedSpans.Proofs.Cells.Removal
import MergedSpans.Proofs.Chain.Insertion

/-! # What removal does

Removal from a chain is removal from its cells. The one cell that starts before the span and
reaches into it is trimmed or cut in two; from there on cells are discarded for as long as the span
covers them, and the last one is trimmed at its start. All of this is so however often the store has
allocated, unless it has no index left for the second piece of a cell; and a chain that owns its
store keeps its accounts.

* `Chain.Divides` — the accounts of a removal.
* `Spells.trim_yields`, `Spells.split_cases` — what befalls one cell.
* `Spells.cutBefore_run`, `Spells.cutFrom_run` — what is looked at before a cell is changed.
* `Spells.cutBefore_cases`, `Spells.cutFrom_yields` — the cells on either side of the place where
  the span belongs.
* `Spells.erase_cases` — the whole removal, audit included, unless the store has no index left.
* `Owned.erase_yields` — the whole removal from a chain that owns its store and has room.
-/

namespace MergedSpans

namespace Chain

open MergedSpans.Action

variable {chain : Chain} {cells left right : List Cell} {cell : Cell} {span : Span}

/-! ## Accounts of a removal -/

/-- A chain that owned its store, with room for two allocations for each split, owns it still; the
splits had new ids for their pieces, and the accounts balance. -/
def Divides (before after : Chain) (cells remaining : List Cell) (events : List Event)
    (first second : NodeId) (splits : Nat) : Prop :=
  before.Owned cells → before.allocations + 2 * splits < Arithmetic.halfLimit →
    after.Owned remaining
      ∧ (0 < splits → first ∉ before.census.issued ∧ second ∉ before.census.issued)
      ∧ Settles before after events (2 * splits) ∧ splittings events = splits

section Divides

variable {before between after : Chain} {middle remaining : List Cell} {events more : List Event}
  {splits : Nat}

/-- Where the accounts balance without an allocation, nothing was split. -/
theorem Balances.divides (balances : Balances before after cells remaining events 0)
    (first second : NodeId) : Divides before after cells remaining events first second 0 := by
  intro owned room
  obtain ⟨afterOwned, settles, splits⟩ := balances owned room
  exact ⟨afterOwned, fun some => absurd some (Nat.lt_irrefl 0), settles, splits⟩

/-- What balances after a removal balances together with it. -/
theorem Divides.trans {first second : NodeId}
    (divides : Divides before between cells middle events first second splits)
    (balances : Balances between after middle remaining more 0) :
    Divides before after cells remaining (events ++ more) first second splits := by
  intro owned room
  obtain ⟨middleOwned, new, settles, told⟩ := divides owned room
  obtain ⟨afterOwned, moreSettles, moreTold⟩ := balances middleOwned (settles.few room)
  refine ⟨afterOwned, new, settles.trans moreSettles, ?_⟩
  rw [splittings_append, told, moreTold, Nat.add_zero]

end Divides

/-! ## One cell -/

/-- A trim is told of and gives a cell a part of its span. -/
theorem Spells.trim_yields (spells : chain.Spells (left ++ cell :: right))
    (tidy : chain.store.Tidy) (change : Node → Node) (kept : Span)
    (changed : ∀ prev next, change ⟨cell.span, prev, next⟩ = ⟨kept, prev, next⟩) :
    ∃ after events, (do
        let chain ← Action.current
        Action.emit (.trimming chain.participant cell.span kept)
        write cell.id change : Action Chain Unit).Yields chain () after events
      ∧ after.Spells (left ++ ⟨cell.id, kept⟩ :: right) ∧ after.store.Tidy
      ∧ Balances chain after (left ++ cell :: right) (left ++ ⟨cell.id, kept⟩ :: right) events 0 := by
  obtain ⟨after, yields, afterSpells, afterTidy, balances⟩ :=
    spells.respan_yields tidy change kept changed
  have told : Balances chain chain (left ++ cell :: right) (left ++ cell :: right)
      [.trimming chain.participant cell.span kept] 0 :=
    fun owned _ => ⟨owned, settles_of_census_eq rfl rfl rfl, rfl⟩
  refine ⟨after, _ ++ [], ?_, afterSpells, afterTidy, told.trans balances⟩
  exact (yields_current chain).silent_bind ((yields_emit _ chain).bind yields)

/-- A cell that starts before the span loses its end. -/
theorem Spells.trimEnd_yields (spells : chain.Spells (left ++ cell :: right))
    (tidy : chain.store.Tidy) (starts : cell.span.low < span.low) :
    ∃ after events, (trimEnd cell.id cell.span span).Yields chain () after events
      ∧ after.Spells (left ++ ⟨cell.id, ⟨cell.span.low, span.low⟩⟩ :: right) ∧ after.store.Tidy
      ∧ Balances chain after (left ++ cell :: right)
        (left ++ ⟨cell.id, ⟨cell.span.low, span.low⟩⟩ :: right) events 0 := by
  have kept : Span.between cell.span.low span.low = .ok ⟨cell.span.low, span.low⟩ :=
    Span.between_eq_ok_iff.mpr ⟨starts, rfl⟩
  obtain ⟨after, events, yields, trimmed⟩ :=
    spells.trim_yields tidy (fun node => { node with span.high := span.low })
      ⟨cell.span.low, span.low⟩ fun _ _ => rfl
  exact ⟨after, events, (yields_ofExcept kept chain).silent_bind yields, trimmed⟩

/-- A cell that ends behind the span loses its start. -/
theorem Spells.trimStart_yields (spells : chain.Spells (left ++ cell :: right))
    (tidy : chain.store.Tidy) (ends : span.high < cell.span.high) :
    ∃ after events, (trimStart cell.id cell.span span).Yields chain () after events
      ∧ after.Spells (left ++ ⟨cell.id, ⟨span.high, cell.span.high⟩⟩ :: right) ∧ after.store.Tidy
      ∧ Balances chain after (left ++ cell :: right)
        (left ++ ⟨cell.id, ⟨span.high, cell.span.high⟩⟩ :: right) events 0 := by
  have kept : Span.between span.high cell.span.high = .ok ⟨span.high, cell.span.high⟩ :=
    Span.between_eq_ok_iff.mpr ⟨ends, rfl⟩
  obtain ⟨after, events, yields, trimmed⟩ :=
    spells.trim_yields tidy (fun node => { node with span.low := span.high })
      ⟨span.high, cell.span.high⟩ fun _ _ => rfl
  exact ⟨after, events, (yields_ofExcept kept chain).silent_bind yields, trimmed⟩

/-- Two spans that touch no others enter at the seam where they belong, one after the other, unless
the store has no index left for one of them. Each of the two insertions is audited on its own, and
finds the chain in order. -/
theorem Spells.insert_both_cases {front back : Span} (spells : chain.Spells (left ++ right))
    (tidy : chain.store.Tidy)
    (separated : Separated (spansOf left ++ front :: back :: spansOf right)) :
    (∃ first second after events,
        (insert front >>= fun _ => insert back).Yields chain () after events
        ∧ after.Spells (left ++ ⟨first, front⟩ :: ⟨second, back⟩ :: right) ∧ after.store.Tidy
        ∧ (chain.Owned (left ++ right) → chain.allocations + 2 < Arithmetic.halfLimit →
          after.Owned (left ++ ⟨first, front⟩ :: ⟨second, back⟩ :: right)
            ∧ (first ∉ chain.census.issued ∧ second ∉ chain.census.issued)
            ∧ Settles chain after events 2 ∧ splittings events = 0))
      ∨ Stalls (insert front >>= fun _ => insert back) chain
        ∧ ¬ (chain.Owned (left ++ right) ∧ chain.allocations + 2 < Arithmetic.halfLimit) := by
  rcases spells.insert_cases_of_apart tidy
      (separated.sublist (((List.sublist_cons_self _ _).cons_cons _).append_left _)) with
    ⟨first, half, halfEvents, halfYields, halfSpells, halfTidy, halfBalances, firstNew⟩
    | ⟨stalls, full⟩
  · rw [List.append_cons] at halfSpells
    have placed :
        Separated (spansOf (left ++ [⟨first, front⟩]) ++ back :: spansOf right) := by
      rw [List.append_cons] at separated
      rw [spansOf_append]
      exact separated
    rcases halfSpells.insert_cases_of_apart halfTidy placed with
      ⟨second, after, events, yields, afterSpells, afterTidy, balances, secondNew⟩ | ⟨stalls, full⟩
    · left
      rw [← List.append_cons, ← List.append_cons] at balances
      rw [← List.append_cons] at afterSpells
      refine ⟨first, second, after, halfEvents ++ events, halfYields.bind yields, afterSpells,
        afterTidy, fun owned room => ?_⟩
      obtain ⟨halfOwned, halfSettles, halfTold⟩ := halfBalances owned (by omega)
      have halfRoom : half.allocations + 1 < Arithmetic.halfLimit := halfSettles.room room
      obtain ⟨afterOwned, settles, told⟩ := balances halfOwned halfRoom
      refine ⟨afterOwned, ⟨firstNew owned.sound (by omega), fun issued => ?_⟩,
        halfSettles.trans settles, ?_⟩
      · exact secondNew halfOwned.sound (by omega) (halfSettles.issued_subset issued)
      · rw [splittings_append, halfTold, told]
    · refine .inr ⟨.after halfYields stalls, fun ⟨owned, room⟩ => ?_⟩
      obtain ⟨halfOwned, halfSettles, -⟩ := halfBalances owned (by omega)
      have halfRoom : half.allocations + 1 < Arithmetic.halfLimit := halfSettles.room room
      exact full ⟨halfOwned.sound, by omega⟩
  · exact .inr ⟨stalls.bind, fun ⟨owned, room⟩ => full ⟨owned.sound, by omega⟩⟩

/-- A cell that reaches out of the span on both sides leaves, and two new ones come in its place,
unless the store has no index left for one of them. -/
theorem Spells.split_cases (spells : chain.Spells (left ++ cell :: right))
    (tidy : chain.store.Tidy) (separated : Separated (spansOf (left ++ cell :: right)))
    (formed : span.WellFormed) (starts : cell.span.low < span.low)
    (ends : span.high < cell.span.high) :
    (∃ first second after events, (split cell.id cell.span span).Yields chain () after events
        ∧ after.Spells (left ++ ⟨first, ⟨cell.span.low, span.low⟩⟩
            :: ⟨second, ⟨span.high, cell.span.high⟩⟩ :: right)
        ∧ after.store.Tidy
        ∧ Divides chain after (left ++ cell :: right)
          (left ++ ⟨first, ⟨cell.span.low, span.low⟩⟩
            :: ⟨second, ⟨span.high, cell.span.high⟩⟩ :: right) events first second 1)
      ∨ Stalls (split cell.id cell.span span) chain
        ∧ ¬ (chain.Owned (left ++ cell :: right)
          ∧ chain.allocations + 2 * 1 < Arithmetic.halfLimit) := by
  have keptLeft : Span.between cell.span.low span.low = .ok ⟨cell.span.low, span.low⟩ :=
    Span.between_eq_ok_iff.mpr ⟨starts, rfl⟩
  have keptRight : Span.between span.high cell.span.high = .ok ⟨span.high, cell.span.high⟩ :=
    Span.between_eq_ok_iff.mpr ⟨ends, rfl⟩
  rw [spansOf_append, spansOf_cons] at separated
  have pieces := Cells.separated_pieces separated formed starts ends
  -- The split is told of, and the cell leaves.
  let told : Event := .splitting chain.participant cell.span ⟨cell.span.low, span.low⟩
    ⟨span.high, cell.span.high⟩
  have telling : (Action.emit told : Action Chain Unit).Yields chain () chain [told] :=
    yields_emit told chain
  have start : Settles chain chain [told] 0 := settles_of_census_eq rfl rfl rfl
  obtain ⟨gone, goneEvents, goneYields, goneSpells, goneTidy, goneBalances⟩ :=
    spells.discard_balances tidy
  rcases goneSpells.insert_both_cases goneTidy pieces with
    ⟨first, second, after, events, yields, afterSpells, afterTidy, accounts⟩ | ⟨stalls, full⟩
  · left
    refine ⟨first, second, after, [told] ++ (goneEvents ++ events), ?_, afterSpells, afterTidy,
      fun owned room => ?_⟩
    · apply Yields.silent_bind (yields_ofExcept keptLeft chain)
      apply Yields.silent_bind (yields_ofExcept keptRight chain)
      apply Yields.silent_bind (yields_current chain)
      exact telling.bind (goneYields.bind yields)
    · obtain ⟨goneOwned, goneSettles, goneTold⟩ := goneBalances owned (by omega)
      obtain ⟨afterOwned, new, settles, afterTold⟩ := accounts goneOwned (goneSettles.room room)
      refine ⟨afterOwned, fun _ => ⟨fun issued => ?_, fun issued => ?_⟩,
        start.trans (goneSettles.trans settles), ?_⟩
      · exact new.1 (goneSettles.issued_subset issued)
      · exact new.2 (goneSettles.issued_subset issued)
      · rw [splittings_append, splittings_append, goneTold, afterTold]
        rfl
  · refine .inr ⟨?_, fun ⟨owned, room⟩ => ?_⟩
    · apply Stalls.after (yields_ofExcept keptLeft chain)
      apply Stalls.after (yields_ofExcept keptRight chain)
      apply Stalls.after (yields_current chain)
      exact .after telling (.after goneYields stalls)
    · obtain ⟨goneOwned, goneSettles, -⟩ := goneBalances owned (by omega)
      exact full ⟨goneOwned, goneSettles.room room⟩

/-! ## Single steps -/

/-- The cell before the seam is passed over, trimmed or split, depending on where it ends. -/
theorem Spells.cutBefore_run (spells : chain.Spells (left ++ cell :: right))
    (ordered : cell.span.low ≤ span.low) :
    (cutBefore span (some cell.id)).run chain
      = (if cell.span.Meets span then
          if cell.span.high ≤ span.high then trimEnd cell.id cell.span span
          else split cell.id cell.span span
        else pure ()).run chain := by
  have asked : cell.span.overlaps span = .ok (decide (cell.span.Meets span)) :=
    Span.overlaps_of_le ordered
  refine ((yields_spanAt spells.links).run_bind _).trans ?_
  refine ((yields_ofExcept asked chain).run_bind _).trans ?_
  by_cases meets : cell.span.Meets span
  · simp only [meets, decide_true, Bool.not_true, Bool.false_eq_true, if_false, if_true]
  · simp only [meets, decide_false, Bool.not_false, if_true, if_false]

/-- A cell behind the seam ends the removal, or is trimmed, which ends it as well, or is discarded,
and the removal goes on. -/
theorem Spells.cutFrom_run (spells : chain.Spells (left ++ cell :: right))
    (ordered : span.low ≤ cell.span.low) (steps : Nat) :
    (cutFrom span (steps + 1) (some cell.id)).run chain
      = (if span.Meets cell.span then
          if span.Covers cell.span then do
            let successor ← discard cell.id
            cutFrom span steps successor
          else trimStart cell.id cell.span span
        else pure ()).run chain := by
  have asked : span.overlaps cell.span = .ok (decide (span.Meets cell.span)) :=
    Span.overlaps_of_le ordered
  have askedAgain : span.contains cell.span = .ok (decide (span.Covers cell.span)) :=
    Span.contains_of_le ordered
  refine ((yields_spanAt spells.links).run_bind _).trans ?_
  refine ((yields_ofExcept asked chain).run_bind _).trans ?_
  by_cases meets : span.Meets cell.span
  · rw [decide_eq_true meets, if_pos meets]
    refine ((yields_ofExcept askedAgain chain).run_bind _).trans ?_
    simp only [decide_eq_true_eq]
  · rw [decide_eq_false meets, if_neg meets]
    rfl

/-! ## Both sides of the seam -/

/-- A cell that starts before the span loses what it has inside, unless it has to be split and the
store has no index left. -/
theorem Spells.cutCell_cases (spells : chain.Spells (left ++ cell :: right))
    (tidy : chain.store.Tidy) (separated : Separated (spansOf (left ++ cell :: right)))
    (formed : span.WellFormed) (starts : cell.span.low < span.low) :
    (∃ first second after events, (cutBefore span (some cell.id)).Yields chain () after events
        ∧ after.Spells (left ++ Cells.remainder span first second cell ++ right)
        ∧ after.store.Tidy
        ∧ Divides chain after (left ++ cell :: right)
          (left ++ Cells.remainder span first second cell ++ right) events first second
          (Cells.splits span [cell]))
      ∨ Stalls (cutBefore span (some cell.id)) chain
        ∧ ¬ (chain.Owned (left ++ cell :: right)
          ∧ chain.allocations + 2 * Cells.splits span [cell] < Arithmetic.halfLimit) := by
  have cellFormed : cell.span.WellFormed := formed_of_mem separated (by simp)
  have step := spells.cutBefore_run (UInt64.le_of_lt starts)
  by_cases inside : cell.span.high ≤ span.high
  · have whole : Cells.splits span [cell] = 0 :=
      Cells.splits_of_high_le (List.forall_mem_singleton.mpr inside)
    rw [whole]
    left
    by_cases meets : cell.span.Meets span
    · -- The cell ends inside the span.
      rw [if_pos meets, if_pos inside] at step
      have reaches : span.low < cell.span.high := cellFormed.meets_iff.mp meets
      obtain ⟨after, events, yields, afterSpells, afterTidy, balances⟩ :=
        spells.trimEnd_yields tidy starts
      refine ⟨default, default, after, events, .of_run_eq step yields, ?_⟩
      rw [Cells.remainder_trimEnd starts reaches inside, List.append_assoc]
      exact ⟨afterSpells, afterTidy, balances.divides _ _⟩
    · -- The cell ends before the span.
      rw [if_neg meets] at step
      have ends : cell.span.high ≤ span.low := by
        rwa [cellFormed.meets_iff, UInt64.not_lt] at meets
      refine ⟨default, default, chain, [], .of_run_eq step (yields_pure _ _), ?_⟩
      rw [Cells.remainder_of_apart (Or.inl ends), List.append_assoc]
      exact ⟨spells, tidy, (balances_refl chain _).divides _ _⟩
  · -- The cell ends behind the span.
    have ends := UInt64.not_le.mp inside
    rw [if_pos (cellFormed.meets_iff.mpr (UInt64.lt_trans formed ends)), if_neg inside] at step
    rw [Cells.splits_singleton starts ends]
    rcases spells.split_cases tidy separated formed starts ends with
      ⟨first, second, after, events, yields, afterSpells, afterTidy, divides⟩ | ⟨stalls, full⟩
    · left
      refine ⟨first, second, after, events, .of_run_eq step yields, ?_⟩
      rw [Cells.remainder_split formed starts ends, List.append_assoc]
      exact ⟨afterSpells, afterTidy, divides⟩
    · exact .inr ⟨.of_run_eq step stalls, full⟩

/-- Of the cells that start before the span, only the last one can reach into it. -/
theorem Spells.cutBefore_cases (spells : chain.Spells (left ++ right)) (tidy : chain.store.Tidy)
    (separated : Separated (spansOf (left ++ right))) (formed : span.WellFormed)
    (early : ∀ cell ∈ left, cell.span.low < span.low) :
    (∃ first second after events, (cutBefore span (lastId none left)).Yields chain () after events
        ∧ after.Spells (Cells.erase span first second left ++ right) ∧ after.store.Tidy
        ∧ Divides chain after (left ++ right) (Cells.erase span first second left ++ right) events
          first second (Cells.splits span left))
      ∨ Stalls (cutBefore span (lastId none left)) chain
        ∧ ¬ (chain.Owned (left ++ right)
          ∧ chain.allocations + 2 * Cells.splits span left < Arithmetic.halfLimit) := by
  rcases List.eq_nil_or_concat' left with rfl | ⟨init, last, rfl⟩
  · exact .inl ⟨default, default, chain, [], yields_pure _ _, spells, tidy,
      (balances_refl chain _).divides _ _⟩
  · rw [List.append_assoc, List.singleton_append] at spells separated
    have starts : last.span.low < span.low := early last (by simp)
    have apart : ∀ cell ∈ init, cell.span.high ≤ span.low := by
      intro cell member
      obtain ⟨-, -, before⟩ := separated_spansOf_append.mp separated
      exact UInt64.le_of_lt (UInt64.lt_trans (before cell member last List.mem_cons_self) starts)
    have inits : Cells.splits span init = 0 := Cells.splits_of_high_le fun cell member =>
      UInt64.le_of_lt (UInt64.lt_of_le_of_lt (apart cell member) formed)
    rw [Cells.splits_append, inits, Nat.zero_add, lastId_append, lastId_cons, lastId_nil]
    rcases spells.cutCell_cases tidy separated formed starts with
      ⟨first, second, after, events, yields, cut⟩ | stalls
    · refine .inl ⟨first, second, after, events, yields, ?_⟩
      rwa [Cells.erase_concat apart, List.append_assoc init [last], List.singleton_append]
    · refine .inr ?_
      rwa [List.append_assoc, List.singleton_append]

/-- The cells that start at the span or later lose what they have inside, one after another. -/
theorem Spells.cutFrom_yields (spells : chain.Spells (left ++ right)) (tidy : chain.store.Tidy)
    (separated : Separated (spansOf right)) (formed : span.WellFormed)
    (late : ∀ cell ∈ right, span.low ≤ cell.span.low) {steps : Nat} (enough : right.length ≤ steps)
    (first second : NodeId) :
    ∃ after events, (cutFrom span steps (firstId right none)).Yields chain () after events
      ∧ after.Spells (left ++ Cells.erase span first second right) ∧ after.store.Tidy
      ∧ Balances chain after (left ++ right) (left ++ Cells.erase span first second right)
        events 0 := by
  -- Induction on the cells that may lie inside, for every chain that the deletions have left.
  induction right generalizing chain steps with
  | nil =>
    refine ⟨chain, [], ?_, spells, tidy, balances_refl chain _⟩
    cases steps <;> exact yields_pure _ _
  | cons cell rest induction =>
    obtain ⟨steps, rfl⟩ := Nat.exists_eq_add_one.mpr (Nat.zero_lt_of_lt enough)
    rw [List.forall_mem_cons] at late
    obtain ⟨cellFormed, behind, restSeparated⟩ := separated_spansOf_cons.mp separated
    have step := spells.cutFrom_run late.1 steps
    rw [Cells.erase_cons]
    by_cases meets : span.Meets cell.span
    · rw [if_pos meets] at step
      by_cases covers : span.Covers cell.span
      · -- The cell lies inside the span.
        rw [if_pos covers] at step
        obtain ⟨gone, goneEvents, goneYields, goneSpells, goneTidy, goneBalances⟩ :=
          spells.discard_balances tidy
        obtain ⟨after, events, yields, afterSpells, afterTidy, balances⟩ :=
          induction goneSpells goneTidy restSeparated late.2 (Nat.le_of_succ_le_succ enough)
        refine ⟨after, goneEvents ++ events, .of_run_eq step (goneYields.bind yields), ?_⟩
        rw [Cells.remainder_covered cellFormed covers.1 covers.2, List.nil_append]
        exact ⟨afterSpells, afterTidy, goneBalances.trans balances⟩
      · -- The cell reaches out of the span, and so all further ones lie behind it.
        rw [if_neg covers] at step
        have ends : span.high < cell.span.high :=
          UInt64.not_le.mp fun inside => covers ⟨late.1, inside⟩
        have inside : cell.span.low < span.high := formed.meets_iff.mp meets
        obtain ⟨after, events, yields, trimmed⟩ := spells.trimStart_yields tidy ends
        refine ⟨after, events, .of_run_eq step yields, ?_⟩
        rw [Cells.remainder_trimStart late.1 inside ends, Cells.erase_of_apart]
        · exact trimmed
        · intro later member
          exact Or.inr (UInt64.le_of_lt (UInt64.lt_trans ends (behind later member)))
    · -- The cell lies behind the span, and so do all further ones.
      rw [if_neg meets] at step
      have beyond : span.high ≤ cell.span.low := by
        rwa [formed.meets_iff, UInt64.not_lt] at meets
      refine ⟨chain, [], .of_run_eq step (yields_pure _ _), ?_⟩
      rw [Cells.remainder_of_apart (Or.inr beyond), Cells.erase_of_apart]
      · exact ⟨spells, tidy, balances_refl chain _⟩
      · intro later member
        have above : cell.span.low < later.span.low :=
          UInt64.lt_trans cellFormed (behind later member)
        exact Or.inr (UInt64.le_trans beyond (UInt64.le_of_lt above))

/-! ## The whole removal -/

/-- Once the place of the span is found, a removal from a chain that is not empty is one of the
cells on either side of it. -/
theorem Spells.erase_run (spells : chain.Spells (left ++ right))
    (fits : (left ++ right).length ≤ chain.reach) (occupied : left ++ right ≠ [])
    (formed : span.WellFormed)
    (dropped : (left ++ right).dropWhile (·.span.low < span.low) = right) :
    (erase span).run chain
      = (do
          cutBefore span (lastId none left)
          let chain ← Action.current
          cutFrom span chain.reach (firstId right none)
          recheck : Action Chain Unit).run chain := by
  have found : (Action.read fun chain : Chain => chain.lowerBound span.low).Yields chain
      (firstId right none) chain [] := by
    rw [← dropped]
    exact yields_read (spells.lowerBound_eq fits span.low)
  have before : (Action.read fun chain : Chain => chain.predecessor? (firstId right none)).Yields
      chain (lastId none left) chain [] := yields_read spells.predecessor?_eq
  -- The removal does not end early: the span holds an address, and the chain has a first node.
  have headed : chain.head.isNone = false := by
    rw [spells.head_eq]
    cases cells : left ++ right with
    | nil => exact absurd cells occupied
    | cons _ _ => rfl
  unfold erase requireFormed
  rw [(yields_ofExcept (Span.require_eq_ok_iff.mpr formed) chain).run_bind,
    (yields_current chain).run_bind]
  simp only [headed, Bool.false_eq_true, if_false]
  unfold cut
  rw [found.run_bind, before.run_bind]

/-- Removal from a chain that spells out separated spans ends well, audit included, and removes the
span from the cells, unless the store has no index left. Two ids are given out when a cell is cut in
two, and none otherwise. -/
theorem Spells.erase_cases (spells : chain.Spells cells) (tidy : chain.store.Tidy)
    (separated : Separated (spansOf cells)) (formed : span.WellFormed) :
    (∃ first second after events, (erase span).Yields chain () after events
        ∧ after.Spells (Cells.erase span first second cells) ∧ after.store.Tidy
        ∧ Divides chain after cells (Cells.erase span first second cells) events first second
          (Cells.splits span cells))
      ∨ Stalls (erase span) chain
        ∧ ¬ (chain.Owned cells
          ∧ chain.allocations + 2 * Cells.splits span cells < Arithmetic.halfLimit) := by
  by_cases vacant : cells = []
  · subst vacant
    refine .inl ⟨default, default, chain, [], ?_, spells, tidy,
      (balances_refl chain _).divides _ _⟩
    apply Yields.silent_bind (yields_ofExcept (Span.require_eq_ok_iff.mpr formed) chain)
    apply Yields.silent_bind (yields_current chain)
    rw [spells.head_eq]
    exact yields_pure _ _
  · obtain ⟨left, right, rfl, dropped, early, late⟩ := Cells.exists_seam separated span.low
    have rightSeparated := (separated_spansOf_append.mp separated).2.1
    have step := spells.erase_run (spells.fits tidy) vacant formed dropped
    rw [Cells.splits_append, Cells.splits_of_le late, Nat.add_zero]
    rcases spells.cutBefore_cases tidy separated formed early with
      ⟨first, second, cut, cutEvents, cutYields, cutSpells, cutTidy, divides⟩ | ⟨stalls, full⟩
    · have enough : right.length ≤ cut.reach := by
        have counted := cutSpells.fits cutTidy
        rw [List.length_append] at counted
        omega
      obtain ⟨after, events, yields, afterSpells, afterTidy, balances⟩ :=
        cutSpells.cutFrom_yields cutTidy rightSeparated formed late enough first second
      rw [← Cells.erase_append] at afterSpells balances
      -- The result is separated, so the audit passes.
      have audited := recheck_yields afterSpells (Cells.separated_erase formed separated)
      refine .inl ⟨first, second, after, cutEvents ++ events, .of_run_eq step ?_, afterSpells,
        afterTidy, divides.trans balances⟩
      rw [← List.append_nil events]
      exact cutYields.bind (Yields.silent_bind (yields_current cut) (yields.bind audited))
    · exact .inr ⟨.of_run_eq step stalls.bind, full⟩

/-- Removal from a chain that owns its store and has separated spans ends well, audit included, and
removes the span from the cells. Two ids are given out when a cell is cut in two, and none
otherwise. -/
theorem Owned.erase_yields (owned : chain.Owned cells) (separated : Separated (spansOf cells))
    (formed : span.WellFormed)
    (room : chain.allocations + 2 * Cells.splits span cells < Arithmetic.halfLimit) :
    ∃ first second after events, (erase span).Yields chain () after events
      ∧ after.Owned (Cells.erase span first second cells)
      ∧ (0 < Cells.splits span cells →
        first ∉ chain.census.issued ∧ second ∉ chain.census.issued)
      ∧ Settles chain after events (2 * Cells.splits span cells)
      ∧ splittings events = Cells.splits span cells := by
  rcases owned.toSpells.erase_cases owned.sound.tidy separated formed with
    ⟨first, second, after, events, yields, -, -, divides⟩ | ⟨-, full⟩
  · exact ⟨first, second, after, events, yields, divides owned room⟩
  · exact absurd ⟨owned, room⟩ full

end Chain

end MergedSpans
