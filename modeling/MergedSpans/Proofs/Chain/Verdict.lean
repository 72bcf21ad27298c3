import MergedSpans.Proofs.Chain.Audit

/-! # What a verdict tells

An audit may be made of any chain, however damaged: its links may lead in circles or nowhere, and
what it records about itself may be anything. The audit stops at the first node with a flaw; and
since nodes without a flaw ascend, it cannot be led in a circle for long.

* `Chain.Intact` — what a chain without a defect is.
* `Chain.Flaw` — what may be wrong with one node.
* `Chain.Follows`, `Chain.Walked` — the way along the forward links, and the way along nodes without
  a flaw.
* `Chain.Finds` — what an audit may come to; `Walked.audit_finds` is the induction over its walk.
* `validate_eq_none_iff`, `audit_finds_first_defect` — an audit finds nothing exactly on intact
  chains, and elsewhere the first defect there is.
* `exists_spells_of_validate` — a chain without a defect spells out separated spans.
-/

namespace MergedSpans

namespace Chain

variable {chain : Chain} {cells : List Cell} {link : Option NodeId} {before : Option Cell}
  {node : Node} {ids others : List NodeId}

/-- The chain threads cells that hold addresses, each of which ends before the next one starts. -/
structure Intact (chain : Chain) (cells : List Cell) : Prop extends Threads chain cells where
  /-- Every span holds an address. -/
  formed : ∀ cell ∈ cells, cell.span.WellFormed
  /-- Of two neighbours the first ends before the second starts. -/
  apart : (spansOf cells).IsChain fun first second => first.high < second.low

/-- Spans that hold addresses are separated when neighbours are. -/
theorem separated_of_isChain {spans : List Span} (formed : ∀ span ∈ spans, span.WellFormed)
    (apart : spans.IsChain fun first second => first.high < second.low) : Separated spans := by
  induction spans with
  | nil => exact separated_nil
  | cons first rest induction =>
    rw [List.forall_mem_cons] at formed
    cases rest with
    | nil => exact separated_singleton formed.1
    | cons second rest =>
      rw [List.isChain_cons_cons] at apart
      have separated := induction formed.2 apart.2
      obtain ⟨secondFormed, behind, -⟩ := separated_cons.mp separated
      refine separated_cons.mpr ⟨formed.1, List.forall_mem_cons.mpr ⟨apart.1, ?_⟩, separated⟩
      intro later member
      exact UInt64.lt_trans (UInt64.lt_trans apart.1 secondFormed) (behind later member)

/-- Separated spans are distinct, so an intact chain spells its cells out. -/
theorem Intact.spells (intact : chain.Intact cells) :
    chain.Spells cells ∧ Separated (spansOf cells) := by
  have separated : Separated (spansOf cells) :=
    separated_of_isChain (List.forall_mem_map.mpr intact.formed) intact.apart
  exact ⟨⟨intact.toThreads, intact.links.nodup separated⟩, separated⟩

/-! ## Flaws -/

/-- What may be wrong with a node that was reached behind a cell, or as the first node. -/
inductive Flaw (before : Option Cell) (node : Node) : Defect → Prop
  /-- The node points back to something else than where it was reached from. -/
  | brokenLink (astray : node.prev ≠ before.map Cell.id) :
    Flaw before node (.brokenLink node.span)
  /-- The node's span holds no address. -/
  | malformed (empty : ¬ node.span.WellFormed) : Flaw before node (.malformed node.span)
  /-- The node starts no later than the cell before it. -/
  | unordered {cell : Cell} (behind : before = some cell)
    (early : node.span.low ≤ cell.span.low) : Flaw before node (.unordered cell.span node.span)
  /-- The node starts later than the cell before it, and there is no address between the two. -/
  | unmerged {cell : Cell} (behind : before = some cell)
    (ordered : cell.span.low < node.span.low) (touches : cell.span.Touches node.span) :
    Flaw before node (.unmerged cell.span node.span)

/-- A node without a flaw points back to where it was reached from and holds addresses, all of them
behind the cell before it. -/
theorem flawless_iff :
    (∀ defect, ¬ Flaw before node defect)
      ↔ node.prev = before.map Cell.id ∧ node.span.WellFormed
        ∧ ∀ cell, before = some cell →
          cell.span.low < node.span.low ∧ ¬ cell.span.Touches node.span := by
  constructor
  · intro flawless
    refine ⟨?_, ?_, fun cell behind => ?_⟩
    · exact not_not.mp fun astray => flawless _ (.brokenLink astray)
    · exact not_not.mp fun empty => flawless _ (.malformed empty)
    · have ordered : cell.span.low < node.span.low :=
        UInt64.not_le.mp fun early => flawless _ (.unordered behind early)
      exact ⟨ordered, fun touches => flawless _ (.unmerged behind ordered touches)⟩
  · rintro ⟨back, formed, apart⟩ defect flaw
    cases flaw with
    | brokenLink astray => exact astray back
    | malformed empty => exact empty formed
    | unordered behind early => exact UInt64.not_le.mpr (apart _ behind).1 early
    | unmerged behind _ touches => exact (apart _ behind).2 touches

/-- The checks of one node tell a flaw that it has, or that it has none. They never compare two
spans in the wrong order. -/
theorem nodeDefect?_cases
    (looked : ∀ cell, before = some cell → chain.spanAt cell.id = .ok cell.span) :
    chain.nodeDefect? (before.map Cell.id) node = .ok none ∧ (∀ defect, ¬ Flaw before node defect)
      ∨ ∃ defect, chain.nodeDefect? (before.map Cell.id) node = .ok (some defect)
        ∧ Flaw before node defect := by
  rw [flawless_iff]
  unfold nodeDefect?
  by_cases back : node.prev = before.map Cell.id
  · rw [if_neg (not_not_intro back)]
    by_cases formed : node.span.WellFormed
    · rw [if_neg (not_not_intro formed)]
      cases before with
      | none => exact .inl ⟨rfl, back, formed, fun cell behind => by cases behind⟩
      | some cell =>
        simp only [Option.map_some, looked cell rfl, pairDefect?, bind, Except.bind]
        by_cases early : node.span.low ≤ cell.span.low
        · rw [if_pos early]
          exact .inr ⟨_, rfl, .unordered rfl early⟩
        · -- The spans ascend, so they may be asked whether they touch.
          have ordered := UInt64.not_le.mp early
          rw [if_neg early, Span.mergeable_of_le (UInt64.le_of_lt ordered)]
          by_cases touches : cell.span.Touches node.span
          · rw [decide_eq_true touches]
            exact .inr ⟨_, rfl, .unmerged rfl ordered touches⟩
          · rw [decide_eq_false touches]
            refine .inl ⟨rfl, back, formed, fun other behind => ?_⟩
            obtain rfl := Option.some.inj behind
            exact ⟨ordered, touches⟩
    · rw [if_pos formed]
      exact .inr ⟨_, rfl, .malformed formed⟩
  · rw [if_pos back]
    exact .inr ⟨_, rfl, .brokenLink back⟩

/-! ## Ways along the links -/

/-- The forward links lead from the recorded first node through the nodes to a link. -/
inductive Follows (chain : Chain) : List NodeId → Option NodeId → Prop
  /-- The way starts at the recorded first node. -/
  | start : Follows chain [] chain.head
  /-- It goes on from a node that is there. -/
  | step {ids : List NodeId} {id : NodeId} {node : Node} (follows : Follows chain ids (some id))
    (found : chain.node id = .ok node) : Follows chain (ids ++ [id]) node.next

/-- The forward links leave no choice. -/
theorem Follows.unique {other : Option NodeId} (follows : chain.Follows ids link)
    (followsOther : chain.Follows others other) (same : ids.length = others.length) :
    ids = others ∧ link = other := by
  induction follows generalizing others other with
  | start =>
    cases followsOther with
    | start => exact ⟨rfl, rfl⟩
    | step => simp at same
  | step follows found induction =>
    cases followsOther with
    | start => simp at same
    | step followsOther foundOther =>
      simp only [List.length_append, List.length_singleton, Nat.add_right_cancel_iff] at same
      obtain ⟨rfl, next⟩ := induction followsOther same
      obtain rfl := Option.some.inj next
      obtain rfl := Except.ok.inj (found.symm.trans foundOther)
      exact ⟨rfl, rfl⟩

/-- Before the end of a way there is a further node. -/
theorem Follows.take (follows : chain.Follows ids link) {count : Nat} (inside : count < ids.length) :
    ∃ id, chain.Follows (ids.take count) (some id) := by
  induction follows with
  | start => cases inside
  | step follows found induction =>
    rw [List.length_append, List.length_singleton, Nat.lt_succ_iff] at inside
    rcases Nat.lt_or_eq_of_le inside with earlier | rfl
    · rw [List.take_append_of_le_length inside]
      exact induction earlier
    · rw [List.take_left]
      exact ⟨_, follows⟩

/-- A way that has come to an end is as long as any. -/
theorem Follows.length_le (ends : chain.Follows ids none) (follows : chain.Follows others link) :
    others.length ≤ ids.length := by
  by_contra longer
  rw [Nat.not_le] at longer
  obtain ⟨id, further⟩ := follows.take longer
  have counted : ids.length = (others.take ids.length).length :=
    (List.length_take_of_le (Nat.le_of_lt longer)).symm
  cases (ends.unique further counted).2

/-- The forward links lead from the recorded first node through the cells to a link, and none of the
nodes on the way has a flaw. -/
inductive Walked (chain : Chain) : List Cell → Option NodeId → Prop
  /-- The walk starts at the recorded first node. -/
  | start : Walked chain [] chain.head
  /-- It goes on from a node that is there and has no flaw. -/
  | step {cells : List Cell} {id : NodeId} {node : Node} (walked : Walked chain cells (some id))
    (found : chain.node id = .ok node)
    (flawless : ∀ defect, ¬ Flaw cells.getLast? node defect) :
    Walked chain (cells ++ [⟨id, node.span⟩]) node.next

theorem Walked.follows (walked : chain.Walked cells link) : chain.Follows (idsOf cells) link := by
  induction walked with
  | start => exact .start
  | step _ found _ induction =>
    rw [idsOf_append]
    exact .step induction found

/-- A node without a flaw goes on a list of separated spans. -/
theorem Leads.concat_of_flawless {id : NodeId} (leads : chain.Leads cells (some id))
    (separated : Separated (spansOf cells)) (found : chain.node id = .ok node)
    (flawless : ∀ defect, ¬ Flaw cells.getLast? node defect) :
    chain.Leads (cells ++ [⟨id, node.span⟩]) node.next
      ∧ Separated (spansOf (cells ++ [⟨id, node.span⟩])) := by
  obtain ⟨back, formed, behind⟩ := flawless_iff.mp flawless
  have reached : chain.store.get? id = some ⟨node.span, lastId none cells, node.next⟩ := by
    rw [lastId_none_eq, ← back]
    exact Store.get?_eq_some_iff.mpr found
  refine ⟨leads.concat reached, separated_spansOf_append.mpr
    ⟨separated, separated_singleton formed, ?_⟩⟩
  intro cell member later same
  obtain rfl := List.mem_singleton.mp same
  show cell.span.high < node.span.low
  -- Only the last of the spans was compared with the new one, and the others end before it.
  obtain ⟨init, last, rfl⟩ :=
    List.eq_nil_or_concat' cells |>.resolve_left (List.ne_nil_of_mem member)
  obtain ⟨-, -, earlier⟩ := separated_spansOf_append.mp separated
  have lastFormed : last.span.WellFormed := formed_of_mem separated (by simp)
  obtain ⟨-, apart⟩ := behind last (by simp)
  rw [lastFormed.touches_iff, UInt64.not_le] at apart
  rcases List.mem_append.mp member with early | isLast
  · have ends : cell.span.high < last.span.low := earlier cell early last List.mem_cons_self
    exact UInt64.lt_trans (UInt64.lt_trans ends lastFormed) apart
  · rwa [List.mem_singleton.mp isLast]

/-- Nodes without a flaw have separated spans. -/
theorem Walked.leads (walked : chain.Walked cells link) :
    chain.Leads cells link ∧ Separated (spansOf cells) := by
  induction walked with
  | start => exact ⟨⟨trivial, rfl⟩, separated_nil⟩
  | step _ found flawless induction => exact induction.1.concat_of_flawless induction.2 found flawless

/-- The span of the last cell on a walk can be looked at again. -/
theorem Walked.spanAt_last (walked : chain.Walked cells link) (cell : Cell)
    (last : cells.getLast? = some cell) : chain.spanAt cell.id = .ok cell.span := by
  obtain ⟨init, rfl⟩ := List.getLast?_eq_some_iff.mp last
  have found : chain.node cell.id = .ok ⟨cell.span, lastId none init, link⟩ :=
    Store.get?_eq_some_iff.mp walked.leads.1.links.node_eq
  rw [spanAt, found]
  rfl

/-! ## The walk of an audit -/

/-- What an audit may come to, with the nodes that it has looked at. -/
inductive Finds (chain : Chain) : List NodeId → Except Fault (Option Defect) → Prop
  /-- The chain is intact. -/
  | nothing {cells : List Cell} (intact : chain.Intact cells) :
    Finds chain (idsOf cells) (.ok none)
  /-- Behind nodes without a flaw a link that has to be followed leads nowhere. -/
  | astray {cells : List Cell} {id : NodeId} {fault : Fault}
    (walked : chain.Walked cells (some id)) (needed : cells.length ≤ chain.length)
    (refused : chain.node id = .error fault) : Finds chain (idsOf cells) (.error fault)
  /-- Behind nodes without a flaw there is one with a flaw. -/
  | flaw {cells : List Cell} {id : NodeId} {node : Node} {defect : Defect}
    (walked : chain.Walked cells (some id)) (found : chain.node id = .ok node)
    (flaw : Flaw cells.getLast? node defect) : Finds chain (idsOf cells ++ [id]) (.ok (some defect))
  /-- All nodes are without a flaw, but the last of them is not the recorded one. -/
  | brokenTail {cells : List Cell} (walked : chain.Walked cells none)
    (elsewhere : chain.tail ≠ lastId none cells) :
    Finds chain (idsOf cells) (.ok (some .brokenTail))
  /-- No node that was looked at has a flaw, but the links do not lead through as many nodes as are
  recorded. -/
  | miscounted {cells : List Cell} {link : Option NodeId} (walked : chain.Walked cells link)
    (wrong : ∀ ids, chain.Follows ids none → ids.length ≠ chain.length) :
    Finds chain (idsOf cells) (.ok (some (.sizeMismatch chain.length cells.length)))

/-- At the end of the links an audit compares what it has seen with what the chain records. -/
theorem Walked.finds_at_end (walked : chain.Walked cells none) :
    chain.Finds (idsOf cells) (.ok (chain.endDefect? (lastId none cells) cells.length)) := by
  unfold endDefect?
  split
  · next elsewhere => exact .brokenTail walked elsewhere
  · next tail =>
    split
    · next counted =>
      refine .miscounted walked fun ids ends length_eq => counted ?_
      have most := ends.length_le walked.follows
      have least := walked.follows.length_le ends
      rw [List.length_map] at most least
      omega
    · next counted =>
      obtain ⟨leads, separated⟩ := walked.leads
      have threads : chain.Threads cells := ⟨leads, not_not.mp tail, (not_not.mp counted).symm⟩
      exact .nothing ⟨threads, fun cell => formed_of_mem separated, separated.apart.isChain⟩

/-- A walk through more nodes than are recorded is told to be one. -/
theorem Walked.finds_beyond {id : NodeId} (walked : chain.Walked cells (some id))
    (beyond : chain.length < cells.length) :
    chain.Finds (idsOf cells) (.ok (some (.sizeMismatch chain.length cells.length))) := by
  refine .miscounted walked fun ids ends length_eq => ?_
  have most := ends.length_le walked.follows
  rw [List.length_map] at most
  omega

/-- An audit that goes on behind nodes without a flaw finds the first defect there is. -/
theorem Walked.audit_finds (walked : chain.Walked cells link) {budget : Nat}
    (spent : cells.length + budget = chain.length + 1) :
    let audit := chain.auditFrom budget cells.length (lastId none cells) link
    chain.Finds (idsOf cells ++ audit.visited) audit.verdict := by
  -- Induction on the nodes that may be looked at, for all cells that were audited before.
  induction budget generalizing cells link with
  | zero =>
    cases link with
    | none => simpa [auditFrom, Audit.ended] using walked.finds_at_end
    | some id => simpa [auditFrom, Audit.ended] using walked.finds_beyond (by omega)
  | succ budget induction =>
    cases link with
    | none => simpa [auditFrom, Audit.ended] using walked.finds_at_end
    | some id =>
      cases found : chain.node id with
      | error fault =>
        simpa [auditFrom, Audit.ended, found] using Finds.astray walked (by omega) found
      | ok node =>
        rcases nodeDefect?_cases walked.spanAt_last with ⟨clean, flawless⟩ | ⟨defect, told, flaw⟩
        · have later := induction (walked.step found flawless) (by
            rw [List.length_append, List.length_singleton]
            omega)
          rw [← lastId_none_eq] at clean
          simpa [auditFrom, Audit.after, found, clean] using later
        · rw [← lastId_none_eq] at told
          simpa [auditFrom, Audit.ended, Audit.after, found, told] using
            Finds.flaw walked found flaw

/-- An audit looks at no more nodes than it may. -/
theorem length_visited_auditFrom_le (chain : Chain) (budget counted : Nat)
    (before position : Option NodeId) :
    (chain.auditFrom budget counted before position).visited.length ≤ budget := by
  induction budget generalizing counted before position with
  | zero => cases position <;> exact Nat.le_refl 0
  | succ budget induction =>
    cases position with
    | none => exact Nat.zero_le _
    | some id =>
      unfold auditFrom
      cases chain.node id with
      | error fault => exact Nat.zero_le _
      | ok node =>
        refine Nat.succ_le_succ ?_
        cases chain.nodeDefect? before node with
        | error fault => exact Nat.zero_le _
        | ok defect =>
          cases defect with
          | some defect => exact Nat.zero_le _
          | none => exact induction _ _ _

/-- Only on an intact chain nothing is found. -/
theorem Finds.exists_intact {visited : List NodeId} (finds : chain.Finds visited (.ok none)) :
    ∃ cells, chain.Intact cells := by
  cases finds with
  | nothing intact => exact ⟨_, intact⟩

/-! ## Main results -/

/-- An audit comes to what there is to be found. -/
theorem finds_audit (chain : Chain) : chain.Finds chain.audit.visited chain.validate :=
  Walked.audit_finds .start (Nat.zero_add _)

/-- A chain has no defect exactly if it is intact. -/
theorem validate_eq_none_iff : chain.validate = .ok none ↔ ∃ cells, chain.Intact cells := by
  constructor
  · intro clean
    have finds := chain.finds_audit
    rw [clean] at finds
    exact finds.exists_intact
  · rintro ⟨cells, intact⟩
    obtain ⟨spells, separated⟩ := intact.spells
    exact spells.validate_eq separated

/-- An audit of any chain, however damaged, looks at no more than one node above the recorded length.
It finds nothing exactly on the intact chains. On every other one it stops at a link that leads
nowhere, behind nodes without a flaw; or it tells a flaw of the first node that has one; or, where no
node on the way has a flaw, that the recorded last node is not the last one, or that the links do not
lead through the recorded number of nodes. -/
theorem audit_finds_first_defect (chain : Chain) :
    chain.audit.visited.length ≤ chain.length + 1
      ∧ (chain.validate = .ok none ↔ ∃ cells, chain.Intact cells)
      ∧ chain.Finds chain.audit.visited chain.validate :=
  ⟨chain.length_visited_auditFrom_le _ _ _ _, validate_eq_none_iff, chain.finds_audit⟩

/-- A chain without a defect spells out separated spans. -/
theorem exists_spells_of_validate (clean : chain.validate = .ok none) :
    ∃ cells, chain.Spells cells ∧ Separated (spansOf cells) := by
  obtain ⟨cells, intact⟩ := validate_eq_none_iff.mp clean
  exact ⟨cells, intact.spells⟩

end Chain

end MergedSpans
