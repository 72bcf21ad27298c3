import MergedSpans.Proofs.Chain.Cursors
import MergedSpans.Proofs.Chain.Verdict

/-! # Two ways through a chain

A chain records its length, an iteration counts down from it, and the links lead through some number
of nodes. On a chain without a defect these are the same number, and a cursor that is moved on from
the start stands at the spans that an iteration reads.

* `Iter.steps_eq` — what an iteration reads along linked cells, and where it is left.
* `Chain.advance`, `advance_eq` — a cursor that is moved on, and where it comes to.
* `traversals_agree` — both of them, for every number of steps.
-/

namespace MergedSpans

variable {chain : Chain} {cells : List Cell} {before : Option NodeId}

/-! ## Iterations -/

namespace Iter

/-- A step of an iteration is the first of the steps that start with it. -/
theorem steps_of_step {count : Nat} {iter after last : Iter} {read : Option Span}
    {reads : List (Option Span)} (stepped : iter.step chain = .ok (read, after))
    (later : steps chain count after = .ok (reads, last)) :
    steps chain (count + 1) iter = .ok (read :: reads, last) := by
  rw [steps, stepped]
  show (do let left ← steps chain count after; return (read :: left.1, left.2)) = _
  rw [later]
  rfl

/-- An iteration that stands at a linked node reads its span and goes on to the node behind it. -/
theorem step_of_links {cell : Cell} {rest : List Cell}
    (links : Links chain.store.get? before (cell :: rest) none) (remaining : Nat) :
    step chain ⟨⟨some cell.id⟩, remaining⟩
      = .ok (some cell.span, ⟨⟨firstId rest none⟩, remaining - 1⟩) := by
  show (do let node ← chain.node cell.id; return (some node.span, _)) = _
  rw [Chain.node_of_links_cons links]
  rfl

/-- An iteration along linked cells reads their spans and then nothing more, and it counts down by
one for each of them. -/
theorem steps_eq (links : Links chain.store.get? before cells none) (count remaining : Nat) :
    steps chain count ⟨⟨firstId cells none⟩, remaining⟩
      = .ok (((spansOf cells).take count).map some ++ List.replicate (count - cells.length) none,
        ⟨⟨firstId (cells.drop count) none⟩, remaining - min count cells.length⟩) := by
  -- Induction on the steps, for every place in the chain: past the end there is none to move to.
  induction count generalizing before cells remaining with
  | zero => simp [steps]
  | succ count induction =>
    cases cells with
    | nil =>
      have stays : step chain ⟨⟨none⟩, remaining⟩ = .ok (none, ⟨⟨none⟩, remaining⟩) := rfl
      have read := steps_of_step stays (induction links remaining)
      simpa [List.replicate_succ] using read
    | cons cell rest =>
      have read := steps_of_step (step_of_links links remaining)
        (induction links.2 (remaining - 1))
      rw [Nat.sub_sub, Nat.add_comm 1, ← Nat.add_min_add_right] at read
      simpa using read

end Iter

namespace Chain

/-! ## Cursors -/

/-- The position `count` steps after another one; past the end there is no further one. -/
def advance (chain : Chain) : (count : Nat) → Cursor → Except Fault Cursor
  | 0, cursor => .ok cursor
  | count + 1, cursor => do
    let cursor ← chain.next cursor
    chain.advance count cursor

/-- A step of a cursor is the first of the steps that start with it. -/
theorem advance_of_next {count : Nat} {cursor following : Cursor}
    (moved : chain.next cursor = .ok following) :
    chain.advance (count + 1) cursor = chain.advance count following := by
  rw [advance, moved]
  rfl

/-- A cursor that is moved on along linked cells comes to the cell that is as many places further, or
past the end. -/
theorem advance_eq (links : Links chain.store.get? before cells none) (count : Nat) :
    chain.advance count ⟨firstId cells none⟩ = .ok ⟨firstId (cells.drop count) none⟩ := by
  induction count generalizing before cells with
  | zero => rfl
  | succ count induction =>
    cases cells with
    | nil =>
      have stays : chain.next ⟨none⟩ = .ok ⟨none⟩ := rfl
      have later := (advance_of_next stays).trans (induction links)
      rwa [List.drop_nil] at later
    | cons cell rest =>
      have moved : chain.next ⟨some cell.id⟩ = .ok ⟨firstId rest none⟩ := by
        rw [next_some, node_of_links_cons links]
        rfl
      exact (advance_of_next moved).trans (induction links.2)

/-- The position of a cell has the span of the cell. -/
theorem get_of_links {count : Nat} {cell : Cell} (links : Links chain.store.get? before cells none)
    (there : cells[count]? = some cell) :
    chain.get ⟨firstId (cells.drop count) none⟩ = .ok cell.span := by
  obtain ⟨inside, rfl⟩ := List.getElem?_eq_some_iff.mp there
  have split := List.take_append_drop count cells
  rw [List.drop_eq_getElem_cons inside] at split ⊢
  rw [← split] at links
  exact spanAt_of_links links

/-! ## Main result -/

/-- A chain without a defect, and any number of steps. An iteration from the first span on has read
the first spans in ascending order, one in each step, and nothing in the steps beyond the recorded
length; its hint is the number of spans that are left. A cursor that was moved on from the start as
often is past the end if and only if that was at least once for every span. Before, it stands at the
span that the iteration reads next; and past the end it stays there. -/
theorem traversals_agree (clean : chain.validate = .ok none) :
    ∃ cells, chain.Intact cells ∧ Separated (spansOf cells) ∧ ∀ count,
      (∃ iter, Iter.steps chain count chain.iter
          = .ok (((spansOf cells).take count).map some
            ++ List.replicate (count - chain.length) none, iter)
        ∧ iter.sizeHint
          = (chain.length - min count chain.length, some (chain.length - min count chain.length)))
      ∧ ∃ cursor, chain.advance count chain.start = .ok cursor
        ∧ (cursor.isEnd = true ↔ chain.length ≤ count)
        ∧ (∀ span, (spansOf cells)[count]? = some span → chain.get cursor = .ok span)
        ∧ (cursor.isEnd = true → chain.next cursor = .ok cursor) := by
  obtain ⟨cells, intact⟩ := validate_eq_none_iff.mp clean
  refine ⟨cells, intact, intact.spells.2, fun count => ⟨?_, ?_⟩⟩
  · have read := Iter.steps_eq intact.links count chain.length
    rw [← intact.length_eq, ← intact.head_eq] at read
    exact ⟨_, read, rfl⟩
  · refine ⟨⟨firstId (cells.drop count) none⟩, ?_, ?_, fun span found => ?_, fun atEnd => ?_⟩
    · rw [start, intact.head_eq]
      exact advance_eq intact.links count
    · rw [intact.length_eq, ← List.drop_eq_nil_iff]
      cases cells.drop count <;> simp [Cursor.isEnd]
    · rw [List.getElem?_map, Option.map_eq_some_iff] at found
      obtain ⟨cell, there, rfl⟩ := found
      exact get_of_links intact.links there
    · have none : firstId (cells.drop count) none = none := Option.isNone_iff_eq_none.mp atEnd
      rw [none]
      rfl

/-- After a merge and a cut there are three spans. An iteration of five steps reads them and then
nothing twice; a cursor is past the end after three. -/
theorem traversals_agree_after_merge_and_cut :
    let start : Chain := .empty default (.pool (.ofSlots 1))
    let ops : List Op := [.insert ⟨40, 50⟩, .insert ⟨0, 10⟩, .insert ⟨20, 30⟩, .insert ⟨10, 20⟩,
      .erase ⟨5, 8⟩]
    let chain := Action.after perform ops start
    let spans : List Span := [⟨0, 5⟩, ⟨8, 30⟩, ⟨40, 50⟩]
    chain.validate = .ok none ∧ chain.length = 3
      ∧ (∃ iter, Iter.steps chain 5 chain.iter = .ok (spans.map some ++ [none, none], iter)
        ∧ iter.sizeHint = (0, some 0))
      ∧ (∃ cursor, chain.advance 1 chain.start = .ok cursor ∧ chain.get cursor = .ok ⟨8, 30⟩)
      ∧ ∃ cursor, chain.advance 3 chain.start = .ok cursor ∧ cursor.isEnd = true
        ∧ chain.next cursor = .ok cursor := by
  intro start ops chain spans
  have clean : chain.validate = .ok none := by decide +kernel
  have counted : chain.length = 3 := by decide +kernel
  have told : chain.spans = .ok spans := by decide +kernel
  obtain ⟨cells, intact, -, traversed⟩ := traversals_agree clean
  have fits : cells.length ≤ chain.reach := by
    rw [← intact.length_eq]
    decide +kernel
  have same : spansOf cells = spans :=
    Except.ok.inj ((intact.spells.1.spans_eq fits).symm.trans told)
  rw [same, counted] at traversed
  obtain ⟨-, second, moved, -, got, -⟩ := traversed 1
  obtain ⟨-, last, movedOn, ends, -, stays⟩ := traversed 3
  have past := ends.mpr (Nat.le_refl 3)
  exact ⟨clean, counted, (traversed 5).1, ⟨second, moved, got _ rfl⟩, last, movedOn, past,
    stays past⟩

end Chain

end MergedSpans
