import MergedSpans.Chain.Audit
import MergedSpans.Proofs.Cells.Basic
import MergedSpans.Proofs.Chain.Growth
import MergedSpans.Proofs.Store.Basic

/-! # Linked chains

A chain is linked when its store spells out some cells, and when what the chain records about
itself fits them. Every walk along the links then does what its name says.

* `Chain.Leads`, `Chain.Trails` — the part of a chain on one side of a seam.
* `Chain.Threads` — both parts are the whole chain, and it has recorded how long it is.
* `Chain.Spells` — the chain spells out some cells, whatever else can be said of its store.
* `Chain.Linked` — the chain is linked up to some cells, in a store that is in order.
* `Chain.Owned` — the chain is linked, and its store holds no other nodes.
* `Spells.lowerBound_eq`, `Spells.spans_eq`, `Linked.entries_eq` — the walks.
-/

namespace MergedSpans

namespace Chain

/-- The ids that the chain's store knows. -/
def census (chain : Chain) : Census := chain.store.ledger.census

/-- The chain leads through cells up to a link, starting at its own record of the first node. -/
structure Leads (chain : Chain) (cells : List Cell) (after : Option NodeId) : Prop where
  /-- The store spells out the cells. -/
  links : Links chain.store.get? none cells after
  /-- The chain starts with them. -/
  head_eq : chain.head = firstId cells after

/-- The chain trails off through cells behind a link, up to its own record of the last node. -/
structure Trails (chain : Chain) (before : Option NodeId) (cells : List Cell) : Prop where
  /-- The store spells out the cells. -/
  links : Links chain.store.get? before cells none
  /-- The chain ends with them. -/
  tail_eq : chain.tail = lastId before cells

/-- The chain threads the cells: it leads through all of them, trails off with the last of them, and
has recorded how many there are. -/
structure Threads (chain : Chain) (cells : List Cell) : Prop
    extends Leads chain cells none, Trails chain none cells where
  /-- The recorded length is the number of nodes. -/
  length_eq : chain.length = cells.length

/-- The chain spells out the cells, whatever their spans are and whatever its store has counted. -/
structure Spells (chain : Chain) (cells : List Cell) : Prop extends Threads chain cells where
  /-- No node occurs twice. -/
  distinct : (idsOf cells).Nodup

/-- The chain is linked up to the cells, whatever their spans are. -/
structure Linked (chain : Chain) (cells : List Cell) : Prop extends Spells chain cells where
  /-- The store is in order. -/
  sound : chain.store.Sound

section Halves

variable {chain after : Chain} {left right cells : List Cell} {link : Option NodeId}

theorem Spells.leads (spells : chain.Spells (left ++ right)) :
    chain.Leads left (firstId right none) where
  links := (links_append.mp spells.links).1
  head_eq := by rw [spells.head_eq, firstId_append]

theorem Spells.trails (spells : chain.Spells (left ++ right)) :
    chain.Trails (lastId none left) right where
  links := (links_append.mp spells.links).2
  tail_eq := by rw [spells.tail_eq, lastId_append]

/-- A chain that has recorded no node spells out no cells. -/
theorem spells_nil (head_eq : chain.head = none) (tail_eq : chain.tail = none)
    (length_eq : chain.length = 0) : chain.Spells [] where
  links := trivial
  head_eq := head_eq
  tail_eq := tail_eq
  length_eq := length_eq
  distinct := List.nodup_nil

/-- Two halves that meet at a seam make a whole. -/
theorem spells_of_halves (leads : chain.Leads left (firstId right none))
    (trails : chain.Trails (lastId none left) right)
    (length_eq : chain.length = (left ++ right).length)
    (distinct : (idsOf (left ++ right)).Nodup) : chain.Spells (left ++ right) where
  links := links_append.mpr ⟨leads.links, trails.links⟩
  head_eq := by rw [leads.head_eq, firstId_append]
  tail_eq := by rw [trails.tail_eq, lastId_append]
  length_eq := length_eq
  distinct := distinct

/-- The first half depends on its own nodes and on the recorded first node alone. -/
theorem Leads.congr (leads : chain.Leads left link)
    (same : ∀ id ∈ idsOf left, after.store.get? id = chain.store.get? id)
    (head_eq : after.head = chain.head) : after.Leads left link where
  links := leads.links.congr same
  head_eq := head_eq.trans leads.head_eq

/-- The second half depends on its own nodes and on the recorded last node alone. -/
theorem Trails.congr (trails : chain.Trails link right)
    (same : ∀ id ∈ idsOf right, after.store.get? id = chain.store.get? id)
    (tail_eq : after.tail = chain.tail) : after.Trails link right where
  links := trails.links.congr same
  tail_eq := tail_eq.trans trails.tail_eq

/-- The first half can be closed with one more cell. -/
theorem Leads.concat {id : NodeId} {span : Span} (leads : chain.Leads left (some id))
    (node : chain.store.get? id = some ⟨span, lastId none left, link⟩) :
    chain.Leads (left ++ [⟨id, span⟩]) link where
  links := links_append.mpr ⟨leads.links, node, trivial⟩
  head_eq := by rw [leads.head_eq, firstId_append, firstId_cons]

/-- The second half without its first cell trails off behind that cell. -/
theorem Trails.tail {cell : Cell} (trails : chain.Trails link (cell :: right)) :
    chain.Trails (some cell.id) right where
  links := trails.links.2
  tail_eq := trails.tail_eq

end Halves

/-- The chain is linked up to the cells, and its store holds no other nodes. -/
structure Owned (chain : Chain) (cells : List Cell) : Prop extends Linked chain cells where
  /-- The ids that reach a node are those of the cells. -/
  domain_eq : chain.census.domain = { id | id ∈ idsOf cells }
  /-- The store has counted the nodes. -/
  live_eq : chain.store.live = cells.length

theorem Owned.reach_eq {chain : Chain} {cells : List Cell} (owned : chain.Owned cells) :
    chain.reach = cells.length + 1 := congrArg (· + 1) owned.live_eq

/-- The ids that reach a node are those that are linked. -/
theorem Owned.isSome_iff {chain : Chain} {cells : List Cell} {id : NodeId}
    (owned : chain.Owned cells) : (chain.store.get? id).isSome ↔ id ∈ idsOf cells :=
  iff_of_eq (congrArg (id ∈ ·) owned.domain_eq)

/-- An id that is not linked reaches nothing. -/
theorem Owned.get?_eq_none {chain : Chain} {cells : List Cell} {id : NodeId}
    (owned : chain.Owned cells) (unlinked : id ∉ idsOf cells) : chain.store.get? id = none :=
  Option.not_isSome_iff_eq_none.mp fun reached => unlinked (owned.isSome_iff.mp reached)

/-- A chain over a store that was never used is linked up to no cells. -/
theorem owned_empty {store : Store} (fresh : store.IsFresh) (participant : Participant) :
    (Chain.empty participant store).Owned [] where
  toSpells := spells_nil rfl rfl rfl
  sound := fresh.sound
  domain_eq := by
    rw [census, empty, fresh.ledger_eq]
    ext id
    simp [Ledger.census, Ledger.empty]
  live_eq := congrArg Ledger.live fresh.ledger_eq

/-! ## Walks -/

section Walks

variable {chain : Chain} {cells left right : List Cell} {before : Option NodeId} {cell : Cell}

/-- A node that the store spells out can be looked at. -/
theorem node_of_links (links : Links chain.store.get? before (left ++ cell :: right) none) :
    chain.node cell.id = .ok ⟨cell.span, lastId before left, firstId right none⟩ :=
  Store.get?_eq_some_iff.mp links.node_eq

theorem node_of_links_cons (links : Links chain.store.get? before (cell :: right) none) :
    chain.node cell.id = .ok ⟨cell.span, before, firstId right none⟩ :=
  Store.get?_eq_some_iff.mp links.1

theorem spanAt_of_links (links : Links chain.store.get? before (left ++ cell :: right) none) :
    chain.spanAt cell.id = .ok cell.span := by
  rw [spanAt, node_of_links links]
  rfl

/-- As an action, a look at a node that the store spells out is silent and ends well. -/
theorem yields_node (links : Links chain.store.get? before (left ++ cell :: right) none) :
    (Action.read fun chain : Chain => chain.node cell.id).Yields chain
      ⟨cell.span, lastId before left, firstId right none⟩ chain [] :=
  Action.yields_read (node_of_links links)

theorem yields_spanAt (links : Links chain.store.get? before (left ++ cell :: right) none) :
    (Action.read fun chain : Chain => chain.spanAt cell.id).Yields chain cell.span chain [] :=
  Action.yields_read (spanAt_of_links links)

/-- The search for a place skips the cells that start too early. -/
theorem lowerBoundFrom_eq (links : Links chain.store.get? before cells none) (low : UInt64)
    {steps : Nat} (enough : cells.length ≤ steps) :
    chain.lowerBoundFrom low steps (firstId cells none)
      = .ok (firstId (cells.dropWhile (·.span.low < low)) none) := by
  -- Induction on the cells: the walk takes one step for each, so it does not run out of them.
  induction cells generalizing before steps with
  | nil => cases steps <;> rfl
  | cons cell rest induction =>
    obtain ⟨steps, rfl⟩ := Nat.exists_eq_add_one.mpr (Nat.zero_lt_of_lt enough)
    have found := induction links.2 (Nat.le_of_succ_le_succ enough)
    rw [firstId_cons, lowerBoundFrom, node_of_links_cons links, List.dropWhile_cons]
    by_cases early : cell.span.low < low
    · have notLate : ¬ low ≤ cell.span.low := UInt64.not_le.mpr early
      rw [if_pos (decide_eq_true early), ← found]
      exact if_neg notLate
    · have late : low ≤ cell.span.low := UInt64.not_lt.mp early
      rw [if_neg (by simpa using early)]
      exact if_pos late

/-- The walk for the spans finds the spans of the cells. -/
theorem spansFrom_eq (links : Links chain.store.get? before cells none) {steps : Nat}
    (enough : cells.length ≤ steps) :
    chain.spansFrom steps (firstId cells none) = .ok (spansOf cells) := by
  induction cells generalizing before steps with
  | nil => cases steps <;> rfl
  | cons cell rest induction =>
    obtain ⟨steps, rfl⟩ := Nat.exists_eq_add_one.mpr (Nat.zero_lt_of_lt enough)
    have found := induction links.2 (Nat.le_of_succ_le_succ enough)
    rw [firstId_cons, spansFrom, node_of_links_cons links]
    show (do return cell.span :: (← chain.spansFrom steps (firstId rest none))) = _
    rw [found]
    rfl

/-- The walk for the entries finds the ids and the spans of the cells. -/
theorem entriesFrom_eq (links : Links chain.store.get? before cells none) {limit : Nat}
    (enough : cells.length ≤ limit) :
    ∃ entries, chain.entriesFrom limit (firstId cells none) = .ok entries
      ∧ entries.map (fun entry => ⟨entry.1, entry.2.span⟩) = cells := by
  induction cells generalizing before limit with
  | nil => cases limit <;> exact ⟨[], rfl, rfl⟩
  | cons cell rest induction =>
    obtain ⟨limit, rfl⟩ := Nat.exists_eq_add_one.mpr (Nat.zero_lt_of_lt enough)
    obtain ⟨entries, found, same⟩ := induction links.2 (Nat.le_of_succ_le_succ enough)
    refine ⟨(cell.id, ⟨cell.span, before, firstId rest none⟩) :: entries, ?_, ?_⟩
    · rw [firstId_cons, entriesFrom, node_of_links_cons links]
      show (do return (cell.id, _) :: (← chain.entriesFrom limit (firstId rest none))) = _
      rw [found]
      rfl
    · rw [List.map_cons, same]

/-- A walk that may look at one node more than the chain records finds just the cells. -/
theorem Linked.entries_eq (linked : chain.Linked cells) :
    ∃ entries, chain.entries (chain.length + 1) = .ok entries
      ∧ entries.map (fun entry => ⟨entry.1, entry.2.span⟩) = cells := by
  rw [entries, linked.head_eq]
  exact entriesFrom_eq linked.links (by rw [linked.length_eq]; omega)

/-- The nodes that such a walk finds are those of the cells. -/
theorem Linked.entries_ids (linked : chain.Linked cells) :
    ∃ entries, chain.entries (cells.length + 1) = .ok entries
      ∧ entries.map Prod.fst = idsOf cells := by
  obtain ⟨entries, found, same⟩ := linked.entries_eq
  rw [linked.length_eq] at found
  refine ⟨entries, found, ?_⟩
  rw [← same, idsOf, List.map_map]
  rfl

/-- The search for a place finds it in a chain that its store can walk through. -/
theorem Spells.lowerBound_eq (spells : chain.Spells cells) (fits : cells.length ≤ chain.reach)
    (low : UInt64) :
    chain.lowerBound low = .ok (firstId (cells.dropWhile (·.span.low < low)) none) := by
  rw [lowerBound, spells.head_eq]
  exact lowerBoundFrom_eq spells.links low fits

/-- The spans that a chain tells are those that it spells out. -/
theorem Spells.spans_eq (spells : chain.Spells cells) (fits : cells.length ≤ chain.reach) :
    chain.spans = .ok (spansOf cells) := by
  rw [Chain.spans, spells.head_eq]
  exact spansFrom_eq spells.links fits

/-- A chain that owns its store can be walked through. -/
theorem Owned.fits (owned : chain.Owned cells) : cells.length ≤ chain.reach := by
  rw [owned.reach_eq]
  omega

theorem Owned.spans_eq (owned : chain.Owned cells) : chain.spans = .ok (spansOf cells) :=
  owned.toSpells.spans_eq owned.fits

end Walks

end Chain

end MergedSpans
