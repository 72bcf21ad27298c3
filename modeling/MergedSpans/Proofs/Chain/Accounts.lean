import MergedSpans.Proofs.Chain.Surgery
import Mathlib.Algebra.Ring.Nat

/-! # Accounts of a chain

Every node that enters a store does so by an allocation, and every node that leaves it is told of
by an event: a merge, a deletion, or a clearing that says how many spans there were. So events and
counters can be balanced against the number of nodes.

* `leaving`, `splittings` — what events tell: how many nodes left, and how many were cut in two.
* `Chain.Settles` — the accounts between two states balance.
* `Chain.Balances` — a chain that owned its store owns it still, and its accounts balance.
* `Spells.allocate_cases`, `Spells.merge_balances`, `Spells.discard_balances` — a node enters a tidy
  store or leaves it; `Spells.respan_yields` — a node gets another span.
* `Linked.allocate_yields`, `Owned.discard_yields` — changes of a chain in order, with their
  accounts.
-/

namespace MergedSpans

/-! ## What events tell -/

namespace Event

/-- Does the event tell of a merge? -/
def isMerging : Event → Bool
  | merging .. => true
  | _ => false

/-- Does the event tell of a deletion? -/
def isDeleting : Event → Bool
  | deleting .. => true
  | _ => false

/-- Does the event tell of a span that was cut in two? -/
def isSplitting : Event → Bool
  | splitting .. => true
  | _ => false

/-- The number of spans that the event tells to be cleared. -/
def cleared : Event → Nat
  | clearing _ spans => spans
  | _ => 0

end Event

/-- The number of nodes that left, as told by events. -/
def leaving (events : List Event) : Nat :=
  events.countP Event.isMerging + events.countP Event.isDeleting
    + (events.map Event.cleared).sum

/-- The number of spans that were cut in two, as told by events. -/
def splittings (events : List Event) : Nat := events.countP Event.isSplitting

@[simp] theorem leaving_append (first second : List Event) :
    leaving (first ++ second) = leaving first + leaving second := by
  simp only [leaving, List.countP_append, List.map_append, List.sum_append]
  omega

@[simp] theorem splittings_append (first second : List Event) :
    splittings (first ++ second) = splittings first + splittings second := List.countP_append

/-- Stores tell nothing of nodes that leave or are cut in two. -/
theorem told_of_ofStore {events : List Event} (ofStore : ∀ event ∈ events, event.ofStore = true) :
    leaving events = 0 ∧ splittings events = 0 := by
  induction events with
  | nil => exact ⟨rfl, rfl⟩
  | cons event rest induction =>
    rw [List.forall_mem_cons] at ofStore
    -- No event of a store tells of a merge, a deletion, a split or a clearing.
    have single : leaving [event] = 0 ∧ splittings [event] = 0 := by
      cases event <;> first | exact ⟨rfl, rfl⟩ | cases ofStore.1
    obtain ⟨left, split⟩ := induction ofStore.2
    rw [← List.singleton_append, leaving_append, splittings_append]
    omega

namespace Chain

open MergedSpans.Action

/-! ## Balance -/

/-- The accounts between two states balance. `made` is the number of allocations between them, and
`events` is what was told. -/
structure Settles (before after : Chain) (events : List Event) (made : Nat) : Prop where
  /-- The chain is still the same participant's. -/
  participant_eq : after.participant = before.participant
  /-- Ids that were given out stay so. -/
  issued_subset : before.census.issued ⊆ after.census.issued
  /-- The allocations were counted. -/
  allocations_eq : after.allocations = before.allocations + made
  /-- Every node that entered is still there, unless it is told to have left. -/
  live_eq : after.census.live + leaving events = before.census.live + made

section Settles

variable {before between after : Chain} {first second : List Event} {made more : Nat}

/-- Accounts of one stretch after another are added up. -/
theorem Settles.trans (left : Settles before between first made)
    (right : Settles between after second more) :
    Settles before after (first ++ second) (made + more) where
  participant_eq := right.participant_eq.trans left.participant_eq
  issued_subset := left.issued_subset.trans right.issued_subset
  allocations_eq := by
    rw [right.allocations_eq, left.allocations_eq, Nat.add_assoc]
  live_eq := by
    have left := left.live_eq
    have right := right.live_eq
    rw [leaving_append]
    omega

/-- The room that there was for the allocations made and for some more is room for those. -/
theorem Settles.room {limit : Nat} (settles : Settles before after first made)
    (room : before.allocations + (made + more) < limit) : after.allocations + more < limit := by
  rw [settles.allocations_eq, Nat.add_assoc]
  exact room

/-- With room for the allocations made, the limit is not reached by them. -/
theorem Settles.few {limit : Nat} (settles : Settles before after first made)
    (room : before.allocations + made < limit) : after.allocations < limit :=
  @Settles.room before after first made 0 limit settles room

/-- Where no node enters or leaves, and nothing is told to have left, the accounts balance. -/
theorem settles_of_census_eq (census_eq : after.census = before.census)
    (participant_eq : after.participant = before.participant) (told : leaving first = 0) :
    Settles before after first 0 where
  participant_eq := participant_eq
  issued_subset := by rw [census_eq]
  allocations_eq := congrArg Census.allocations census_eq
  live_eq := by rw [census_eq, told]

theorem settles_refl (chain : Chain) : Settles chain chain [] 0 :=
  settles_of_census_eq rfl rfl rfl

/-- A node that enters balances the accounts with the allocation that was made for it. -/
theorem settles_of_allocate {id : NodeId} (census_eq : after.census = before.census.allocate id)
    (participant_eq : after.participant = before.participant) (told : leaving first = 0) :
    Settles before after first 1 where
  participant_eq := participant_eq
  issued_subset := by rw [census_eq]; exact Set.subset_insert _ _
  allocations_eq := congrArg Census.allocations census_eq
  live_eq := by rw [census_eq, told]; rfl

end Settles

/-! ## The changes of a chain that owns its store -/

variable {chain after : Chain} {cells left right : List Cell} {cell : Cell} {id : NodeId}
  {node : Node}

theorem Owned.census_live (owned : chain.Owned cells) : chain.census.live = cells.length :=
  owned.live_eq

/-- A chain that owns its store owns it after one of its nodes has left. -/
theorem owned_of_release (owned : chain.Owned (left ++ cell :: right))
    (linked : after.Linked cells) (census_eq : after.census = chain.census.release cell.id)
    (ids_eq : idsOf cells = idsOf (left ++ right)) : after.Owned cells := by
  have counted : cells.length = (left ++ right).length := by
    have lengths := congrArg List.length ids_eq
    rwa [List.length_map, List.length_map] at lengths
  refine { linked with domain_eq := ?_, live_eq := ?_ }
  · rw [census_eq, ids_eq]
    -- The cell that left had its id for itself, so no other id is lost with it.
    have apart := (nodup_idsOf_middle.mp owned.distinct).1
    ext other
    show other ∈ chain.census.domain \ {cell.id} ↔ other ∈ idsOf (left ++ right)
    rw [owned.domain_eq]
    simp only [Set.mem_sdiff, Set.mem_ofPred_eq, Set.mem_singleton_iff, idsOf_append, idsOf_cons,
      List.mem_append, List.mem_cons] at apart ⊢
    grind
  · have live : after.store.live = chain.census.live - 1 := congrArg Census.live census_eq
    rw [live, owned.census_live, counted]
    simp only [List.length_append, List.length_cons]
    omega

/-- A chain that owns its store owns it after a new node has entered both. -/
theorem owned_of_allocate (owned : chain.Owned (left ++ right))
    (linked : after.Linked (left ++ cell :: right))
    (census_eq : after.census = chain.census.allocate cell.id) :
    after.Owned (left ++ cell :: right) := by
  refine { linked with domain_eq := ?_, live_eq := ?_ }
  · rw [census_eq]
    ext other
    show other ∈ Insert.insert cell.id chain.census.domain ↔ other ∈ idsOf (left ++ cell :: right)
    rw [owned.domain_eq]
    simp only [Set.mem_insert_iff, Set.mem_ofPred_eq, idsOf_append, idsOf_cons, List.mem_append,
      List.mem_cons]
    grind
  · have live : after.store.live = chain.census.live + 1 := congrArg Census.live census_eq
    rw [live, owned.census_live]
    simp only [List.length_append, List.length_cons]
    omega

/-- A node enters the store of a chain and is not linked yet, unless the store has no index left for
it, which leaves the chain as it was linked; that cannot be in a store in order with few
allocations. -/
theorem Spells.allocate_cases (spells : chain.Spells cells) (tidy : chain.store.Tidy)
    (span : Span) :
    (∃ id after events, (onStore (Store.allocate span)).Yields chain id after events
        ∧ after.Spells cells ∧ after.store.Tidy ∧ after.store.get? id = some (.unlinked span)
        ∧ id ∉ idsOf cells ∧ after.participant = chain.participant
        ∧ (chain.store.Sound → chain.allocations < Arithmetic.halfLimit →
          after.store.Sound ∧ after.census = chain.census.allocate id
            ∧ ∀ event ∈ events, event.ofStore = true))
      ∨ (∃ after events,
          (onStore (Store.allocate span)).run chain = ⟨.error .heapFull, after, events⟩
          ∧ after.Spells cells ∧ after.store.Tidy)
        ∧ ¬ (chain.store.Sound ∧ chain.allocations < Arithmetic.halfLimit) := by
  rcases tidy.allocate_cases span with
    ⟨id, store, events, yields, tidied, absent, bound⟩ | ⟨store, events, refused, tidied, same⟩
  · left
    -- Every id in the chain reaches a node, so the new one is not among them.
    have apart : id ∉ idsOf cells := by
      intro member
      have reached := spells.links.isSome member
      rw [absent] at reached
      cases reached
    refine ⟨id, { chain with store }, events, yields_onStore yields,
      { spells with links := spells.links.congr fun other member => ?_ }, tidied, ?_, apart, rfl,
      ?_⟩
    · show store.get? other = _
      rw [bound, Function.update_of_ne (ne_of_mem_of_not_mem member apart)]
    · show store.get? id = _
      rw [bound, Function.update_self]
    · intro sound few
      obtain ⟨same, sameStore, sameEvents, yieldsSame, kept, -, ledger, ofStore⟩ :=
        Store.allocate_yields sound few span
      obtain ⟨rfl, rfl, rfl⟩ := yields.unique yieldsSame
      have census := congrArg Ledger.census ledger
      rw [Ledger.census_allocate] at census
      exact ⟨kept, census, ofStore⟩
  · refine .inr ⟨⟨{ chain with store }, events, ?_, ?_, tidied⟩, ?_⟩
    · rw [onStore, run_within, refused]
      rfl
    · exact { spells with links := spells.links.congr fun other _ => congrFun same other }
    · rintro ⟨sound, few⟩
      obtain ⟨id, after, events, yields, -⟩ := Store.allocate_yields sound few span
      have answered := yields.answer_eq
      rw [refused] at answered
      cases answered

/-- A node enters the store of a linked chain, and is not linked yet. -/
theorem Linked.allocate_yields (linked : chain.Linked cells)
    (few : chain.allocations < Arithmetic.halfLimit) (span : Span) :
    ∃ id after events, (onStore (Store.allocate span)).Yields chain id after events
      ∧ after.census = chain.census.allocate id := by
  rcases linked.toSpells.allocate_cases linked.sound.tidy span with
    ⟨id, after, events, yields, -, -, -, -, -, kept⟩ | ⟨-, full⟩
  · exact ⟨id, after, events, yields, (kept linked.sound few).2.1⟩
  · exact absurd ⟨linked.sound, few⟩ full

/-- A node that leaves a chain and is told of balances the accounts, for the chain had it. -/
theorem Owned.settles_of_release {events : List Event} (owned : chain.Owned (left ++ cell :: right))
    (census_eq : after.census = chain.census.release cell.id)
    (participant_eq : after.participant = chain.participant) (told : leaving events = 1) :
    Settles chain after events 0 where
  participant_eq := participant_eq
  issued_subset := by rw [census_eq]; rfl
  allocations_eq := congrArg Census.allocations census_eq
  live_eq := by
    rw [census_eq, told]
    show chain.census.live - 1 + 1 = chain.census.live + 0
    rw [owned.census_live, List.length_append, List.length_cons]
    omega

/-- A chain that owned its store, with room for `made` allocations, owns it still, and the accounts
balance. -/
def Balances (before after : Chain) (cells remaining : List Cell) (events : List Event)
    (made : Nat) : Prop :=
  before.Owned cells → before.allocations + made < Arithmetic.halfLimit →
    after.Owned remaining ∧ Settles before after events made ∧ splittings events = 0

theorem balances_refl (chain : Chain) (cells : List Cell) : Balances chain chain cells cells [] 0 :=
  fun owned _ => ⟨owned, settles_refl chain, rfl⟩

/-- What balances on one stretch after another balances on both. -/
theorem Balances.trans {before between after : Chain} {cells middle remaining : List Cell}
    {events more : List Event} {made : Nat}
    (first : Balances before between cells middle events made)
    (second : Balances between after middle remaining more 0) :
    Balances before after cells remaining (events ++ more) made := by
  intro owned room
  obtain ⟨middleOwned, firstSettles, firstSplits⟩ := first owned room
  obtain ⟨remainingOwned, secondSettles, secondSplits⟩ := second middleOwned (firstSettles.few room)
  refine ⟨remainingOwned, firstSettles.trans secondSettles, ?_⟩
  rw [splittings_append, firstSplits, secondSplits]

/-- A node takes in the one behind it. -/
theorem Spells.merge_balances {first second : Cell}
    (spells : chain.Spells (left ++ first :: second :: right)) (tidy : chain.store.Tidy)
    (ordered : first.span.low ≤ second.span.low) :
    ∃ after events, (merge first.id second.id).Yields chain () after events
      ∧ after.Spells (left ++ ⟨first.id, hull first.span second.span⟩ :: right)
      ∧ after.store.Tidy
      ∧ Balances chain after (left ++ first :: second :: right)
        (left ++ ⟨first.id, hull first.span second.span⟩ :: right) events 0 := by
  obtain ⟨after, events, yields, afterSpells, releases⟩ := spells.merge_yields tidy ordered
  refine ⟨after, _, yields, afterSpells, releases.tidy, fun owned few => ?_⟩
  obtain ⟨sound, census_eq, rfl⟩ := releases.kept owned.sound few
  rw [List.append_cons] at owned
  exact ⟨owned_of_release owned ⟨afterSpells, sound⟩ census_eq (by simp),
    owned.settles_of_release census_eq releases.participant_eq rfl, rfl⟩

/-- A node leaves. -/
theorem Spells.discard_balances (spells : chain.Spells (left ++ cell :: right))
    (tidy : chain.store.Tidy) :
    ∃ after events, (discard cell.id).Yields chain (firstId right none) after events
      ∧ after.Spells (left ++ right) ∧ after.store.Tidy
      ∧ Balances chain after (left ++ cell :: right) (left ++ right) events 0 := by
  obtain ⟨after, events, yields, afterSpells, releases⟩ := spells.discard_yields tidy
  refine ⟨after, _, yields, afterSpells, releases.tidy, fun owned few => ?_⟩
  obtain ⟨sound, census_eq, rfl⟩ := releases.kept owned.sound few
  exact ⟨owned_of_release owned ⟨afterSpells, sound⟩ census_eq rfl,
    owned.settles_of_release census_eq releases.participant_eq rfl, rfl⟩

/-- A node leaves a chain that owns its store. -/
theorem Owned.discard_yields (owned : chain.Owned (left ++ cell :: right))
    (few : chain.allocations < Arithmetic.halfLimit) :
    ∃ after events, (discard cell.id).Yields chain (firstId right none) after events
      ∧ after.Owned (left ++ right) ∧ Settles chain after events 0 ∧ splittings events = 0 := by
  obtain ⟨after, events, yields, -, -, balances⟩ :=
    owned.toSpells.discard_balances owned.sound.tidy
  exact ⟨after, events, yields, balances owned few⟩

/-- A node gets another span and keeps its links. -/
theorem Spells.respan_yields (spells : chain.Spells (left ++ cell :: right))
    (tidy : chain.store.Tidy) (change : Node → Node) (span : Span)
    (changed : ∀ prev next, change ⟨cell.span, prev, next⟩ = ⟨span, prev, next⟩) :
    ∃ after, (write cell.id change).Yields chain () after []
      ∧ after.Spells (left ++ ⟨cell.id, span⟩ :: right) ∧ after.store.Tidy
      ∧ Balances chain after (left ++ cell :: right) (left ++ ⟨cell.id, span⟩ :: right) [] 0 := by
  obtain ⟨outLeft, outRight⟩ := not_mem_idsOf_append.mp (nodup_idsOf_middle.mp spells.distinct).1
  have node := spells.links.node_eq
  obtain ⟨after, yields, rewrites, bound, head, tail⟩ := write_yields tidy node change
  have leads := spells.leads.frame rewrites.toEdits (not_mem_singleton outLeft) head
  have trails := spells.trails.tail.frame rewrites.toEdits (not_mem_singleton outRight) tail
  have changedNode : after.store.get? cell.id
      = some ⟨span, lastId none left, firstId right none⟩ := by
    rw [bound, Function.update_self, node, Option.map_some, changed]
  have afterSpells : after.Spells (left ++ ⟨cell.id, span⟩ :: right) := by
    refine spells_of_halves leads ⟨⟨changedNode, trails.links⟩, trails.tail_eq⟩ ?_ ?_
    · rw [rewrites.length_eq, spells.length_eq]
      simp
    · have distinct := spells.distinct
      rwa [idsOf_append, idsOf_cons] at distinct ⊢
  refine ⟨after, yields, afterSpells, rewrites.tidy, fun owned _ => ?_⟩
  obtain ⟨sound, census_eq⟩ := rewrites.kept owned.sound
  refine ⟨{ afterSpells with sound := sound, domain_eq := ?_, live_eq := ?_ },
    settles_of_census_eq census_eq rewrites.participant_eq rfl, rfl⟩
  · rw [census_eq, owned.domain_eq, idsOf_append, idsOf_append]
    rfl
  · have live : after.store.live = chain.store.live := congrArg Census.live census_eq
    rw [live, owned.live_eq]
    simp

end Chain

end MergedSpans
