import MergedSpans.Chain.Links
import MergedSpans.Proofs.Chain.Linked
import MergedSpans.Proofs.Store.Tidy

/-! # What link surgery does

The three ways in which a chain is relinked are sequence operations on its cells. They are so for
every chain that spells out cells over a tidy store, whatever its spans are, whatever else lives in
the store and however often that has allocated. A store in order stays so, and its census tells of
the node that has left. Of all nodes, linked or not, only the one that enters or leaves is touched
and those on both sides of it.

* `Chain.Spares` — every node is as it was, but for some; `vicinity` — a node and its neighbours.
* `Chain.Edits` — a change that touches only nodes under some ids, in a store that stays tidy.
* `Chain.Rewrites` — a change of links alone: no node enters the store or leaves it.
* `Chain.Releases` — one node leaves the store.
* `setNext_yields`, `setPrev_yields` — each closes one half of a chain with a new link.
* `Spells.spliceBefore_yields`, `Spells.merge_yields`, `Spells.discard_yields` — the three
  operations.
-/

namespace MergedSpans

namespace Chain

open MergedSpans.Action

/-- Every node is as it was, but for those under some ids. -/
def Spares (ids : List NodeId) (before after : Chain) : Prop :=
  ∀ id, id ∉ ids → after.store.get? id = before.store.get? id

/-- A node with what stands before it and what stands behind it. -/
def vicinity (before : Option NodeId) (id : NodeId) (behind : Option NodeId) : List NodeId :=
  before.toList ++ id :: behind.toList

theorem Spares.trans {first second : List NodeId} {before between after : Chain}
    (left : Spares first before between) (right : Spares second between after) :
    Spares (first ++ second) before after := by
  intro id outside
  rw [List.mem_append, not_or] at outside
  rw [right id outside.2, left id outside.1]

theorem Spares.mono {ids more : List NodeId} {before after : Chain}
    (spares : Spares ids before after) (subset : ids ⊆ more) : Spares more before after :=
  fun id outside => spares id fun member => outside (subset member)

/-- What is changed under one id alone spares all others. -/
theorem spares_of_update {id : NodeId} {value : Option Node} {before after : Chain}
    (bound : after.store.get? = Function.update before.store.get? id value) :
    Spares [id] before after := by
  intro other outside
  rw [bound, Function.update_of_ne (by simpa using outside)]

/-- Of the nodes only those under some ids were touched, in a store that the change left tidy, and
the chain is still the same participant's. -/
structure Edits (ids : List NodeId) (before after : Chain) : Prop where
  /-- The store is tidy. -/
  tidy : after.store.Tidy
  /-- Every other node is as it was. -/
  elsewhere : Spares ids before after
  /-- The chain is still the same participant's. -/
  participant_eq : after.participant = before.participant

theorem Edits.trans {first second : List NodeId} {before between after : Chain}
    (left : Edits first before between) (right : Edits second between after) :
    Edits (first ++ second) before after where
  tidy := right.tidy
  elsewhere := left.elsewhere.trans right.elsewhere
  participant_eq := right.participant_eq.trans left.participant_eq

theorem Edits.mono {ids more : List NodeId} {before after : Chain} (edits : Edits ids before after)
    (subset : ids ⊆ more) : Edits more before after :=
  { edits with elsewhere := edits.elsewhere.mono subset }

/-- Between the two states only the nodes under some ids were written, and the two ends. -/
structure Rewrites (ids : List NodeId) (before after : Chain) : Prop
    extends Edits ids before after where
  /-- A store that was in order is so still, and knows the same ids. -/
  kept : before.store.Sound → after.store.Sound ∧ after.census = before.census
  /-- The recorded length is as it was. -/
  length_eq : after.length = before.length

theorem Rewrites.trans {first second : List NodeId} {before between after : Chain}
    (left : Rewrites first before between) (right : Rewrites second between after) :
    Rewrites (first ++ second) before after where
  toEdits := left.toEdits.trans right.toEdits
  kept := by
    intro sound
    obtain ⟨between, betweenCensus⟩ := left.kept sound
    obtain ⟨after, afterCensus⟩ := right.kept between
    exact ⟨after, afterCensus.trans betweenCensus⟩
  length_eq := right.length_eq.trans left.length_eq

variable {chain : Chain} {cells left right : List Cell} {cell : Cell} {id : NodeId} {node : Node}

/-- The first half stays when only other nodes are touched. -/
theorem Leads.frame {ids : List NodeId} {after : Chain} {link : Option NodeId}
    (leads : chain.Leads left link) (edits : Edits ids chain after)
    (apart : ∀ id ∈ idsOf left, id ∉ ids) (head_eq : after.head = chain.head) :
    after.Leads left link :=
  leads.congr (fun id member => edits.elsewhere id (apart id member)) head_eq

/-- The second half stays when only other nodes are touched. -/
theorem Trails.frame {ids : List NodeId} {after : Chain} {link : Option NodeId}
    (trails : chain.Trails link right) (edits : Edits ids chain after)
    (apart : ∀ id ∈ idsOf right, id ∉ ids) (tail_eq : after.tail = chain.tail) :
    after.Trails link right :=
  trails.congr (fun id member => edits.elsewhere id (apart id member)) tail_eq

/-- A tidy store has counted every node that a chain spells out. -/
theorem Spells.length_le_live (spells : chain.Spells cells) (tidy : chain.store.Tidy) :
    cells.length ≤ chain.store.live := by
  have listed := Store.length_le_roster spells.distinct fun id => spells.links.isSome
  rw [List.length_map] at listed
  exact listed.trans tidy.length_roster_le

/-- A chain over a tidy store can be walked through. -/
theorem Spells.fits (spells : chain.Spells cells) (tidy : chain.store.Tidy) :
    cells.length ≤ chain.reach := (spells.length_le_live tidy).trans (Nat.le_succ _)

/-! ## Single steps -/

/-- What ends well on the chain's store does so on the chain. -/
theorem yields_onStore {α : Type} {action : Action Store α} {value : α} {store : Store}
    {events : List Event} (yields : action.Yields chain.store value store events) :
    (onStore action).Yields chain value { chain with store } events := by
  unfold Yields at *
  rw [onStore, run_within, yields]
  rfl

/-- A write changes the node that it names. -/
theorem write_yields (tidy : chain.store.Tidy) (found : chain.store.get? id = some node)
    (change : Node → Node) :
    ∃ after, (write id change).Yields chain () after [] ∧ Rewrites [id] chain after
      ∧ after.store.get?
        = Function.update chain.store.get? id ((chain.store.get? id).map change)
      ∧ after.head = chain.head ∧ after.tail = chain.tail := by
  obtain ⟨store, yields, tidied, bound⟩ := tidy.write_yields found change
  have edits : Edits [id] chain { chain with store } := ⟨tidied, spares_of_update bound, rfl⟩
  refine ⟨{ chain with store }, yields_onStore yields, ⟨edits, ?_, rfl⟩, bound, rfl, rfl⟩
  intro sound
  obtain ⟨same, yieldsSame, kept, ledger⟩ := Store.write_yields sound found change
  obtain ⟨-, rfl, -⟩ := yields.unique yieldsSame
  have census := congrArg Ledger.census ledger
  rw [Ledger.census_write] at census
  exact ⟨kept, census⟩

/-- The first half of a chain is closed with a new forward link. Where it has no cells, the link
is the recorded first node. -/
theorem setNext_yields {link : Option NodeId} (tidy : chain.store.Tidy)
    (leads : chain.Leads left link) (distinct : (idsOf left).Nodup) (target : Option NodeId) :
    ∃ after, (setNext (lastId none left) target).Yields chain () after []
      ∧ after.Leads left target ∧ Rewrites (lastId none left).toList chain after
      ∧ after.tail = chain.tail := by
  -- The link is kept by the last cell, or by the chain itself where there is none.
  rcases List.eq_nil_or_concat' left with rfl | ⟨init, last, rfl⟩
  · refine ⟨{ chain with head := target }, yields_update rfl, ⟨trivial, rfl⟩, ?_, rfl⟩
    exact ⟨⟨tidy, fun _ _ => rfl, rfl⟩, fun sound => ⟨sound, rfl⟩, rfl⟩
  · have node := leads.links.node_eq
    obtain ⟨after, yields, rewrites, bound, head, tail⟩ :=
      write_yields tidy node fun node => { node with next := target }
    rw [lastId_append, lastId_cons, lastId_nil]
    refine ⟨after, yields, ⟨?_, ?_⟩, rewrites, tail⟩
    · rw [bound]
      exact links_setNext leads.links distinct target
    · rw [head, leads.head_eq, firstId_append, firstId_append]
      rfl

/-- The second half of a chain is closed with a new backward link. Where it has no cells, the link
is the recorded last node. -/
theorem setPrev_yields {link : Option NodeId} (tidy : chain.store.Tidy)
    (trails : chain.Trails link right) (distinct : (idsOf right).Nodup) (target : Option NodeId) :
    ∃ after, (setPrev (firstId right none) target).Yields chain () after []
      ∧ after.Trails target right ∧ Rewrites (firstId right none).toList chain after
      ∧ after.head = chain.head := by
  -- The link is kept by the first cell, or by the chain itself where there is none.
  cases right with
  | nil =>
    refine ⟨{ chain with tail := target }, yields_update rfl, ⟨trivial, rfl⟩, ?_, rfl⟩
    exact ⟨⟨tidy, fun _ _ => rfl, rfl⟩, fun sound => ⟨sound, rfl⟩, rfl⟩
  | cons first rest =>
    obtain ⟨after, yields, rewrites, bound, head, tail⟩ :=
      write_yields tidy trails.links.1 fun node => { node with prev := target }
    refine ⟨after, yields, ⟨?_, ?_⟩, rewrites, head⟩
    · rw [bound]
      exact links_setPrev trails.links distinct target
    · rw [tail, trails.tail_eq]
      rfl

/-! ## The three operations -/

/-- In front of the second half stands the last cell of the first. -/
theorem Spells.predecessor?_eq (spells : chain.Spells (left ++ right)) :
    chain.predecessor? (firstId right none) = .ok (lastId none left) := by
  cases right with
  | nil =>
    show Except.ok chain.tail = _
    rw [spells.tail_eq, List.append_nil]
  | cons first rest =>
    show (do let node ← chain.node first.id; return node.prev) = _
    rw [node_of_links spells.links]
    rfl

/-- A new node enters at the seam. -/
theorem Spells.spliceBefore_yields (spells : chain.Spells (left ++ right))
    (tidy : chain.store.Tidy) (found : chain.store.get? id = some node)
    (apart : id ∉ idsOf (left ++ right)) :
    ∃ after, (spliceBefore id (firstId right none)).Yields chain () after []
      ∧ after.Spells (left ++ ⟨id, node.span⟩ :: right)
      ∧ after.store.Tidy ∧ after.participant = chain.participant
      ∧ (chain.store.Sound → after.store.Sound ∧ after.census = chain.census)
      ∧ Spares (vicinity (lastId none left) id (firstId right none)) chain after := by
  obtain ⟨distinctLeft, distinctRight, disjoint⟩ := nodup_idsOf_append.mp spells.distinct
  obtain ⟨outLeft, outRight⟩ := not_mem_idsOf_append.mp apart
  -- The node gets its own links; neither half sees it.
  obtain ⟨first, firstYields, firstRewrites, firstBound, firstHead, firstTail⟩ :=
    write_yields tidy found
      fun node => { node with prev := lastId none left, next := firstId right none }
  have firstLeads := spells.leads.frame firstRewrites.toEdits (not_mem_singleton outLeft) firstHead
  have firstTrails := spells.trails.frame firstRewrites.toEdits (not_mem_singleton outRight) firstTail
  -- The first half leads up to it.
  obtain ⟨second, secondYields, secondLeads, secondRewrites, secondTail⟩ :=
    setNext_yields firstRewrites.tidy firstLeads distinctLeft (some id)
  have secondTrails := firstTrails.frame secondRewrites.toEdits
    (fun other inRight last => disjoint other (lastId_subset left last) inRight) secondTail
  -- The second half trails off behind it.
  obtain ⟨third, thirdYields, thirdTrails, thirdRewrites, thirdHead⟩ :=
    setPrev_yields secondRewrites.tidy secondTrails distinctRight (some id)
  have thirdLeads := secondLeads.frame thirdRewrites.toEdits
    (fun other inLeft first => disjoint other inLeft (firstId_subset right first)) thirdHead
  have thirdNode : third.store.get? id
      = some ⟨node.span, lastId none left, firstId right none⟩ := by
    rw [thirdRewrites.elsewhere id fun first => outRight (firstId_subset right first),
      secondRewrites.elsewhere id fun last => outLeft (lastId_subset left last), firstBound,
      Function.update_self, found]
    rfl
  have leads : third.Leads (left ++ [⟨id, node.span⟩]) (firstId right none) :=
    Leads.concat thirdLeads thirdNode
  have rewrites := (firstRewrites.trans secondRewrites).trans thirdRewrites
  have within : [id] ++ (lastId none left).toList ++ (firstId right none).toList
      ⊆ vicinity (lastId none left) id (firstId right none) := by
    simp [vicinity]
  refine ⟨{ third with length := third.length + 1 }, ?_, ?_, rewrites.tidy,
    rewrites.participant_eq, rewrites.kept, rewrites.elsewhere.mono within⟩
  · refine Yields.silent_bind (yields_read spells.predecessor?_eq) ?_
    refine firstYields.silent_bind (secondYields.silent_bind (thirdYields.silent_bind ?_))
    exact yields_update rfl
  · rw [List.append_cons]
    refine spells_of_halves ⟨leads.links, leads.head_eq⟩ ⟨?_, ?_⟩ ?_ ?_
    · simpa using thirdTrails.links
    · simpa using thirdTrails.tail_eq
    · have counted := rewrites.length_eq.trans spells.length_eq
      simp only [List.length_append, List.length_cons, List.length_nil] at counted ⊢
      omega
    · rw [← List.append_cons]
      exact nodup_idsOf_middle.mpr ⟨apart, spells.distinct⟩

/-- Between the two states one node has left, and besides it only nodes under some ids were
written. -/
structure Releases (ids : List NodeId) (id : NodeId) (before after : Chain) (events : List Event) :
    Prop extends Edits ids before after where
  /-- The id of the node reaches nothing any more. -/
  gone : after.store.get? id = none
  /-- The store alone has told anything. -/
  ofStore : ∀ event ∈ events, event.ofStore = true
  /-- A store that was in order, with few allocations, is so still; it knows the ids it knew but for
  the one, and has told nothing. -/
  kept : before.store.Sound → before.allocations < Arithmetic.halfLimit →
    after.store.Sound ∧ after.census = before.census.release id ∧ events = []

/-- What was written before a node left makes no difference. -/
theorem Rewrites.releases {ids more whole : List NodeId} {before between after : Chain}
    {events : List Event} (rewrites : Rewrites ids before between)
    (releases : Releases more id between after events) (within : ids ++ more ⊆ whole) :
    Releases whole id before after events where
  toEdits := (rewrites.toEdits.trans releases.toEdits).mono within
  gone := releases.gone
  ofStore := releases.ofStore
  kept := by
    intro sound few
    obtain ⟨between, census_eq⟩ := rewrites.kept sound
    have same := congrArg Census.allocations census_eq
    obtain ⟨after, afterCensus, silent⟩ := releases.kept between (Nat.lt_of_le_of_lt same.le few)
    exact ⟨after, by rw [afterCensus, census_eq], silent⟩

/-- A node to which no link leads any more leaves. The two halves of the chain meet already, and
only the recorded length tells of one more node. -/
theorem releaseCounted_yields (tidy : chain.store.Tidy)
    (leads : chain.Leads left (firstId right none)) (trails : chain.Trails (lastId none left) right)
    (counted : chain.length = (left ++ right).length + 1) (distinct : (idsOf (left ++ right)).Nodup)
    (apart : id ∉ idsOf (left ++ right)) (found : chain.store.get? id = some node) :
    ∃ after events, (releaseCounted id).Yields chain () after events
      ∧ after.Spells (left ++ right) ∧ Releases [id] id chain after events := by
  obtain ⟨store, events, yields, tidied, bound, ofStore⟩ := tidy.release_yields found
  let after : Chain := { chain with store, length := (left ++ right).length }
  have edits : Edits [id] chain after := ⟨tidied, spares_of_update bound, rfl⟩
  have gone : store.get? id = none := by rw [bound, Function.update_self]
  -- The halves do not have the node that leaves, so they stay.
  obtain ⟨outLeft, outRight⟩ := not_mem_idsOf_append.mp apart
  have leadsAfter : after.Leads left (firstId right none) :=
    leads.frame edits (not_mem_singleton outLeft) rfl
  have trailsAfter : after.Trails (lastId none left) right :=
    trails.frame edits (not_mem_singleton outRight) rfl
  have fewer : Arithmetic.sub chain.length 1 = .ok (left ++ right).length :=
    Arithmetic.sub_eq_ok_iff.mpr ⟨by omega, by omega⟩
  have read : (Action.read fun chain : Chain => Arithmetic.sub chain.length 1).Yields
      { chain with store } (left ++ right).length { chain with store } [] := yields_read fewer
  refine ⟨after, events ++ [], ?_, spells_of_halves leadsAfter trailsAfter rfl distinct,
    edits, gone, by simpa using ofStore, ?_⟩
  · exact (yields_onStore yields).bind (read.silent_bind (yields_update rfl))
  · intro sound few
    obtain ⟨same, yieldsSame, kept, ledger⟩ := Store.release_yields sound few found
    obtain ⟨-, rfl, rfl⟩ := yields.unique yieldsSame
    have census := congrArg Ledger.census ledger
    rw [Ledger.census_release] at census
    exact ⟨kept, census, rfl⟩

/-- A node takes in the one behind it. -/
theorem Spells.merge_yields {first second : Cell}
    (spells : chain.Spells (left ++ first :: second :: right)) (tidy : chain.store.Tidy)
    (ordered : first.span.low ≤ second.span.low) :
    ∃ after events, (merge first.id second.id).Yields chain () after
        (.merging chain.participant first.span second.span (hull first.span second.span) :: events)
      ∧ after.Spells (left ++ ⟨first.id, hull first.span second.span⟩ :: right)
      ∧ Releases (vicinity (some first.id) second.id (firstId right none)) second.id chain after
        events := by
  have seam := spells
  rw [List.append_cons] at seam
  obtain ⟨firstApart, distinctRest⟩ := nodup_idsOf_middle.mp spells.distinct
  obtain ⟨secondApart, distinct⟩ := nodup_idsOf_middle.mp seam.distinct
  obtain ⟨-, distinctRight, disjoint⟩ := nodup_idsOf_append.mp distinct
  obtain ⟨firstOutLeft, firstOutRest⟩ := not_mem_idsOf_append.mp firstApart
  have firstOutRight : first.id ∉ idsOf right :=
    fun member => firstOutRest (List.mem_cons_of_mem _ member)
  have secondOutRight := (not_mem_idsOf_append.mp secondApart).2
  have firstNode := spells.links.node_eq
  have secondNode := seam.links.node_eq
  rw [lastId_append, lastId_cons, lastId_nil] at secondNode
  have neighbours : requireNeighbours first.id second.id
      ⟨first.span, lastId none left, some second.id⟩
      ⟨second.span, some first.id, firstId right none⟩ = .ok () :=
    if_pos ⟨rfl, rfl, ordered⟩
  let merged : Cell := ⟨first.id, hull first.span second.span⟩
  -- The first of the two grows over the second and points behind it.
  obtain ⟨grown, growYields, growRewrites, growBound, growHead, growTail⟩ :=
    write_yields tidy firstNode fun node =>
      { node with span := hull first.span second.span, next := firstId right none }
  have growLeads := spells.leads.frame growRewrites.toEdits (not_mem_singleton firstOutLeft) growHead
  have growTrails := seam.trails.frame growRewrites.toEdits (not_mem_singleton firstOutRest) growTail
  -- What stands behind the second points back to the first.
  obtain ⟨passed, passYields, passTrails, passRewrites, passHead⟩ :=
    setPrev_yields growRewrites.tidy growTrails.tail distinctRight (some first.id)
  have inRight := firstId_subset right
  have passLeads := growLeads.frame passRewrites.toEdits
    (fun other member next => disjoint other (by simp_all) (inRight next)) passHead
  have rewrites := growRewrites.trans passRewrites
  have passFirst : passed.store.get? first.id
      = some ⟨hull first.span second.span, lastId none left, firstId right none⟩ := by
    rw [passRewrites.elsewhere _ fun next => firstOutRight (inRight next), growBound,
      Function.update_self, firstNode]
    rfl
  have secondOutside : second.id ∉ [first.id] ++ (firstId right none).toList := by
    rw [List.mem_append, not_or]
    refine ⟨?_, fun next => secondOutRight (inRight next)⟩
    exact fun same => firstOutRest (List.mem_singleton.mp same ▸ List.mem_cons_self)
  have passSecond := rewrites.elsewhere second.id secondOutside
  rw [secondNode] at passSecond
  have leads : passed.Leads (left ++ [merged]) (firstId right none) := passLeads.concat passFirst
  have trails : passed.Trails (lastId none (left ++ [merged])) right := by
    rwa [lastId_append, lastId_cons, lastId_nil]
  -- Nothing leads to the second any more.
  have counted : passed.length = (left ++ [merged] ++ right).length + 1 := by
    rw [rewrites.length_eq, spells.length_eq]
    simp only [List.length_append, List.length_cons, List.length_nil]
    omega
  have secondOut : second.id ∉ idsOf (left ++ [merged] ++ right) := by simpa using secondApart
  have distinctAfter : (idsOf (left ++ [merged] ++ right)).Nodup := by simpa using distinct
  obtain ⟨after, events, freeYields, freed, releases⟩ :=
    releaseCounted_yields rewrites.tidy leads trails counted distinctAfter secondOut passSecond
  rw [← List.append_cons] at freed
  refine ⟨after, events, ?_, freed, rewrites.releases releases (by simp [vicinity])⟩
  refine Yields.silent_bind (yields_read (Store.get?_eq_some_iff.mp firstNode)) ?_
  refine Yields.silent_bind (yields_read (Store.get?_eq_some_iff.mp secondNode)) ?_
  refine Yields.silent_bind (yields_ofExcept neighbours chain) ?_
  refine Yields.silent_bind (yields_current chain) ?_
  rw [← List.singleton_append]
  refine Yields.bind (yields_emit _ chain) ?_
  exact growYields.silent_bind (passYields.silent_bind freeYields)

/-- A node leaves, and its neighbours become neighbours. -/
theorem Spells.discard_yields (spells : chain.Spells (left ++ cell :: right))
    (tidy : chain.store.Tidy) :
    ∃ after events, (discard cell.id).Yields chain (firstId right none) after
        (.deleting chain.participant cell.span :: events)
      ∧ after.Spells (left ++ right)
      ∧ Releases (vicinity (lastId none left) cell.id (firstId right none)) cell.id chain after
        events := by
  obtain ⟨apart, distinct⟩ := nodup_idsOf_middle.mp spells.distinct
  obtain ⟨distinctLeft, distinctRight, disjoint⟩ := nodup_idsOf_append.mp distinct
  have node := spells.links.node_eq
  have inLeft := lastId_subset left
  have inRight := firstId_subset right
  -- The first half leads up to the second.
  obtain ⟨passed, passYields, passLeads, passRewrites, passTail⟩ :=
    setNext_yields tidy spells.leads distinctLeft (firstId right none)
  have passTrails := spells.trails.tail.frame passRewrites.toEdits
    (fun other member last => disjoint other (inLeft last) member) passTail
  -- The second half trails off behind the first.
  obtain ⟨closed, closeYields, closeTrails, closeRewrites, closeHead⟩ :=
    setPrev_yields passRewrites.tidy passTrails distinctRight (lastId none left)
  have closeLeads := passLeads.frame closeRewrites.toEdits
    (fun other member next => disjoint other member (inRight next)) closeHead
  have rewrites := passRewrites.trans closeRewrites
  obtain ⟨outLeft, outRight⟩ := not_mem_idsOf_append.mp apart
  have outside : cell.id ∉ (lastId none left).toList ++ (firstId right none).toList := by
    rw [List.mem_append, not_or]
    exact ⟨fun last => outLeft (inLeft last), fun next => outRight (inRight next)⟩
  have closeNode := rewrites.elsewhere cell.id outside
  rw [node] at closeNode
  -- Nothing leads to the node any more.
  have counted : closed.length = (left ++ right).length + 1 := by
    rw [rewrites.length_eq, spells.length_eq]
    simp only [List.length_append, List.length_cons]
    omega
  obtain ⟨after, events, freeYields, freed, releases⟩ :=
    releaseCounted_yields rewrites.tidy closeLeads closeTrails counted distinct apart closeNode
  refine ⟨after, events ++ [], ?_, freed, ?_⟩
  · refine Yields.silent_bind (yields_read (Store.get?_eq_some_iff.mp node)) ?_
    refine Yields.silent_bind (yields_current chain) ?_
    rw [← List.singleton_append]
    refine Yields.bind (yields_emit _ chain) ?_
    refine passYields.silent_bind (closeYields.silent_bind ?_)
    exact freeYields.bind (yields_pure _ after)
  · rw [List.append_nil]
    exact rewrites.releases releases (by simp [vicinity])

end Chain

end MergedSpans
