import MergedSpans.Chain.Update
import MergedSpans.Proofs.Cells.Insertion
import MergedSpans.Proofs.Chain.Linked

/-! # Audits that pass

An audit finds no defect on a chain that spells out separated spans. So no change that leaves such a
chain is stopped by the audit at its end.

* `Spells.validate_eq` — a chain that spells out separated spans has no defect.
* `recheck_yields` — the audit at the end of a change passes.
-/

namespace MergedSpans

namespace Chain

variable {chain : Chain} {cells left right : List Cell}

/-- Two spans with an address between them have no defect. -/
theorem pairDefect?_eq_none {before span : Span} (formed : before.WellFormed)
    (apart : before.high < span.low) : pairDefect? before span = .ok none := by
  have ordered : before.low < span.low := UInt64.lt_trans formed apart
  have notTouching : ¬ before.Touches span := by
    rwa [formed.touches_iff, UInt64.not_le]
  rw [pairDefect?, if_neg (UInt64.not_le.mpr ordered),
    Span.mergeable_of_le (UInt64.le_of_lt ordered), decide_eq_false notTouching]
  rfl

/-- A node of a chain that spells out separated spans has no defect. -/
theorem Spells.nodeDefect?_eq_none {cell : Cell} (spells : chain.Spells (left ++ cell :: right))
    (separated : Separated (spansOf (left ++ cell :: right))) :
    chain.nodeDefect? (lastId none left) ⟨cell.span, lastId none left, firstId right none⟩
      = .ok none := by
  obtain ⟨leftSeparated, rightSeparated, behind⟩ := separated_spansOf_append.mp separated
  have formed : cell.span.WellFormed := formed_of_mem rightSeparated List.mem_cons_self
  unfold nodeDefect?
  rw [if_neg (not_not_intro rfl), if_neg (not_not_intro formed)]
  -- Only the span before the node is left to be compared with, and the first node has none.
  rcases List.eq_nil_or_concat' left with rfl | ⟨init, last, rfl⟩
  · rfl
  · have span : chain.spanAt last.id = .ok last.span := by
      have links := spells.links
      rw [List.append_assoc] at links
      exact spanAt_of_links links
    have lastFormed : last.span.WellFormed := formed_of_mem leftSeparated (by simp)
    have apart : last.span.high < cell.span.low := behind _ (by simp) _ List.mem_cons_self
    rw [lastId_append, lastId_cons, lastId_nil]
    show (do let span ← chain.spanAt last.id; pairDefect? span cell.span) = _
    rw [span]
    exact pairDefect?_eq_none lastFormed apart

/-- An audit that has come to the end of the cells that a chain spells out finds no defect
there. -/
theorem Spells.endDefect?_eq_none (spells : chain.Spells cells) :
    chain.endDefect? (lastId none cells) cells.length = none := by
  rw [endDefect?, if_neg (not_not_intro spells.tail_eq),
    if_neg (not_not_intro spells.length_eq.symm)]

/-- An audit that goes on in the middle of separated spans finds nothing. -/
theorem Spells.auditFrom_verdict (spells : chain.Spells (left ++ right))
    (separated : Separated (spansOf (left ++ right))) {budget : Nat}
    (enough : right.length ≤ budget) :
    (chain.auditFrom budget left.length (lastId none left) (firstId right none)).verdict
      = .ok none := by
  -- Induction on the cells that are still to be audited, for all cells that were audited before.
  induction right generalizing left budget with
  | nil =>
    rw [List.append_nil] at spells
    have clean := spells.endDefect?_eq_none
    cases budget <;> exact congrArg Except.ok clean
  | cons cell rest induction =>
    obtain ⟨budget, rfl⟩ := Nat.exists_eq_add_one.mpr (Nat.zero_lt_of_lt enough)
    have node := node_of_links spells.links
    have clean := spells.nodeDefect?_eq_none separated
    rw [List.append_cons] at spells separated
    have later := induction spells separated (Nat.le_of_succ_le_succ enough)
    rw [List.length_append, lastId_append] at later
    rw [firstId_cons, auditFrom, node]
    simp only [clean]
    exact later

/-- A chain that spells out separated spans has no defect. -/
theorem Spells.validate_eq (spells : chain.Spells cells) (separated : Separated (spansOf cells)) :
    chain.validate = .ok none := by
  have enough : cells.length ≤ chain.length + 1 := by
    rw [spells.length_eq]
    omega
  rw [validate, audit, spells.head_eq]
  exact @Spells.auditFrom_verdict chain [] cells spells separated _ enough

/-- The audit at the end of a change passes on a chain that spells out separated spans. -/
theorem recheck_yields (spells : chain.Spells cells) (separated : Separated (spansOf cells)) :
    recheck.Yields chain () chain [] := by
  refine Action.yields_read ?_
  rw [requireSound, spells.validate_eq separated]
  rfl

end Chain

end MergedSpans
