import MergedSpans.Proofs.Chain.Canonical
import MergedSpans.Proofs.Store.Seats
import MergedSpans.Workload

/-! # A chain of pages

A chain is made of every other page, over a pool of any size, and then the pages between them are
inserted in some order. None of the first nodes leaves before the last of them has entered, so they
sit in the slots one after another, in the slab and past it. The pages between them end up in one
node whatever their order is: nothing is ever inserted in front of the first node, so it stays the
first one through all merges, and in the end no address is left out between the pages.

* `page`, `pageSpan_eq` — the span of a page, which is computed without overflow.
* `covered_pages`, `covered_all_pages` — the addresses of pages, by number.
* `separated_evenPages` — every other page lies apart from the others.
* `Fragmented` — a chain of even pages, each in its seat.
* `Fragmented.insert_yields`, `insertEvenPages_yields` — one more of them, and many.
* `Fragmented.fill` — the pages between them, in any order.
* `fragmented_fills_up` — all of this.
-/

namespace MergedSpans.Workload

open MergedSpans.Action

/-! ## Pages -/

/-- The address at which a page starts. -/
def pageStart (index : Nat) : UInt64 := UInt64.ofNat (index * pageLength)

/-- The span of a page. -/
def page (index : Nat) : Span := ⟨pageStart index, pageStart (index + 1)⟩

section Pages

variable {index first last count : Nat} {pages : List Nat} {address : UInt64}

theorem mul_pageLength_lt (small : index ≤ Arithmetic.halfLimit) :
    index * pageLength < Arithmetic.wordLimit := by
  unfold pageLength Arithmetic.halfLimit Arithmetic.wordLimit at *
  omega

/-- Small numbers of pages start at addresses that fit in 64 bits. -/
theorem toNat_pageStart (small : index ≤ Arithmetic.halfLimit) :
    (pageStart index).toNat = index * pageLength := by
  rw [pageStart, UInt64.toNat_ofNat']
  exact Nat.mod_eq_of_lt (mul_pageLength_lt small)

theorem pageStart_zero : pageStart 0 = 0 := rfl

/-- Pages start in the order of their numbers. -/
theorem pageStart_lt_iff (small : first ≤ Arithmetic.halfLimit)
    (smallToo : last ≤ Arithmetic.halfLimit) : pageStart first < pageStart last ↔ first < last := by
  rw [UInt64.lt_iff_toNat_lt, toNat_pageStart small, toNat_pageStart smallToo]
  exact Nat.mul_lt_mul_right (by decide)

theorem wellFormed_page (small : index < Arithmetic.halfLimit) : (page index).WellFormed :=
  (pageStart_lt_iff small.le small).mpr (Nat.lt_succ_self index)

/-- The bounds of a page with a small number are computed without overflow. -/
theorem pageSpan_eq (small : index < Arithmetic.halfLimit) : pageSpan index = .ok (page index) := by
  have low : Arithmetic.mul index pageLength = .ok (index * pageLength) :=
    Arithmetic.mul_eq_ok_iff.mpr ⟨mul_pageLength_lt small.le, rfl⟩
  have following : Arithmetic.add index 1 = .ok (index + 1) := by
    refine Arithmetic.add_eq_ok_iff.mpr ⟨?_, rfl⟩
    unfold Arithmetic.halfLimit Arithmetic.wordLimit at *
    omega
  have high : Arithmetic.mul (index + 1) pageLength = .ok ((index + 1) * pageLength) :=
    Arithmetic.mul_eq_ok_iff.mpr ⟨mul_pageLength_lt small, rfl⟩
  have ordered : Span.between (pageStart index) (pageStart (index + 1)) = .ok (page index) :=
    Span.between_eq_ok_iff.mpr ⟨wellFormed_page small, rfl⟩
  simp only [pageSpan, low, following, high, bind, Except.bind]
  exact ordered

/-- The addresses from the start of one page up to that of another one are those of the pages in
between. -/
theorem holds_pages (small : first ≤ Arithmetic.halfLimit) (smallToo : last ≤ Arithmetic.halfLimit) :
    (⟨pageStart first, pageStart last⟩ : Span).Holds address
      ↔ first ≤ address.toNat / pageLength ∧ address.toNat / pageLength < last := by
  have positive : 0 < pageLength := by decide
  rw [Span.Holds, UInt64.le_iff_toNat_le, UInt64.lt_iff_toNat_lt, toNat_pageStart small,
    toNat_pageStart smallToo, Nat.le_div_iff_mul_le positive, Nat.div_lt_iff_lt_mul positive]

/-- Pages cover the addresses that lie in one of them. -/
theorem covered_pages (small : ∀ index ∈ pages, index < Arithmetic.halfLimit) :
    Covered (pages.map page) address ↔ address.toNat / pageLength ∈ pages := by
  have held : ∀ index ∈ pages, (page index).Holds address ↔ address.toNat / pageLength = index := by
    intro index member
    rw [page, holds_pages (small index member).le (small index member)]
    omega
  constructor
  · rintro ⟨span, member, holds⟩
    obtain ⟨index, listed, rfl⟩ := List.mem_map.mp member
    rwa [(held index listed).mp holds]
  · intro listed
    exact ⟨_, List.mem_map_of_mem listed, (held _ listed).mpr rfl⟩

/-- Every other page, the first `count` of them. -/
def evenPages (count : Nat) : List Nat := (List.range count).map (2 * ·)

/-- The pages between them. -/
def gapPages (count : Nat) : List Nat := (List.range (count - 1)).map (2 * · + 1)

theorem evenPages_succ (count : Nat) : evenPages (count + 1) = evenPages count ++ [2 * count] := by
  rw [evenPages, List.range_succ, List.map_append]
  rfl

theorem lt_of_mem_evenPages (member : index ∈ evenPages count) : index + 1 < 2 * count := by
  obtain ⟨half, inside, rfl⟩ := List.mem_map.mp member
  have inside := List.mem_range.mp inside
  omega

theorem lt_of_mem_gapPages (member : index ∈ gapPages count) : 0 < index ∧ index + 1 < 2 * count := by
  obtain ⟨half, inside, rfl⟩ := List.mem_map.mp member
  have inside := List.mem_range.mp inside
  omega

/-- Together they are all pages up to the last even one. -/
theorem mem_gapPages_or_evenPages :
    index ∈ gapPages count ∨ index ∈ evenPages count ↔ index < 2 * count - 1 := by
  simp only [gapPages, evenPages, List.mem_map, List.mem_range]
  constructor
  · rintro (⟨half, inside, rfl⟩ | ⟨half, inside, rfl⟩) <;> omega
  · intro inside
    rcases Nat.even_or_odd' index with ⟨half, rfl | rfl⟩
    · exact .inr ⟨half, by omega, rfl⟩
    · exact .inl ⟨half, by omega, rfl⟩

/-- Even pages and the ones between them leave no address out. -/
theorem covered_all_pages (few : 2 * count ≤ Arithmetic.halfLimit)
    (perm : pages.Perm (gapPages count)) :
    Covered (pages.map page) address ∨ Covered ((evenPages count).map page) address
      ↔ (⟨0, pageStart (2 * count - 1)⟩ : Span).Holds address := by
  have gapSmall : ∀ index ∈ pages, index < Arithmetic.halfLimit := by
    intro index member
    have bounds := lt_of_mem_gapPages (perm.mem_iff.mp member)
    omega
  have evenSmall : ∀ index ∈ evenPages count, index < Arithmetic.halfLimit := by
    intro index member
    have bounds := lt_of_mem_evenPages member
    omega
  rw [covered_pages gapSmall, covered_pages evenSmall, perm.mem_iff, mem_gapPages_or_evenPages,
    ← pageStart_zero, holds_pages (Nat.zero_le _) (by omega)]
  exact (and_iff_right (Nat.zero_le _)).symm

/-- Pages do not touch when there is one between them. -/
theorem separated_evenPages (few : 2 * count ≤ Arithmetic.halfLimit) :
    Separated ((evenPages count).map page) := by
  induction count with
  | zero => exact separated_nil
  | succ count induction =>
    rw [evenPages_succ, List.map_append, separated_append]
    refine ⟨induction (by omega), separated_singleton (wellFormed_page (by omega)), ?_⟩
    simp only [List.forall_mem_map, List.map_cons, List.map_nil, List.forall_mem_singleton]
    intro index member
    have before := lt_of_mem_evenPages member
    exact (pageStart_lt_iff (by omega) (by omega)).mpr before

end Pages

/-! ## Chains of even pages -/

variable {slots count first : Nat} {chain : Chain}

/-- Every other page with the id that its node gets, the first `count` of them. -/
def evenCells (slots count : Nat) : List Cell :=
  (List.range count).map fun index => ⟨Store.seat slots index, page (2 * index)⟩

theorem spansOf_evenCells (slots count : Nat) :
    spansOf (evenCells slots count) = (evenPages count).map page := by
  simp [evenCells, evenPages]

theorem idsOf_evenCells (slots count : Nat) :
    idsOf (evenCells slots count) = (List.range count).map (Store.seat slots) := by
  simp [evenCells]

theorem evenCells_succ (slots count : Nat) :
    evenCells slots (count + 1)
      = evenCells slots count ++ [⟨Store.seat slots count, page (2 * count)⟩] := by
  rw [evenCells, List.range_succ, List.map_append]
  rfl

/-- Page 0 is the first of them. -/
theorem ledBy_evenCells (slots : Nat) (positive : 1 ≤ count) :
    Cells.LedBy (Store.seat slots 0) 0 (evenCells slots count) := by
  obtain ⟨count, rfl⟩ := Nat.exists_eq_add_one.mpr positive
  rw [evenCells, List.range_succ_eq_map, List.map_cons]
  exact ⟨pageStart 1, _, rfl⟩

/-- The chain holds the even pages, each in its seat of a store that no node has left. -/
structure Fragmented (slots count : Nat) (chain : Chain) : Prop where
  /-- The chain holds the even pages in their seats. -/
  owned : chain.Owned (evenCells slots count)
  /-- The ids of the store were counted by its tiers. -/
  tallied : chain.store.Tallied
  /-- The slab has so many slots. -/
  capacity_eq : chain.store.counters.capacity = slots
  /-- Every allocation was made for one of the pages. -/
  allocations_eq : chain.allocations = count

/-- A chain over a pool that was never used holds no pages. -/
theorem fragmented_empty (participant : Participant) (slots : Nat) :
    Fragmented slots 0 (.empty participant (.pool (.ofSlots slots))) := by
  have fresh : (Store.pool (.ofSlots slots)).IsFresh := .inr ⟨slots, rfl⟩
  exact {
    owned := Chain.owned_empty fresh participant
    tallied := fresh.tallied
    capacity_eq := Array.size_replicate
    allocations_eq := rfl }

namespace Fragmented

/-- The nodes sit at the first seats of the store. -/
theorem seated (fragmented : Fragmented slots count chain) : chain.store.Seated slots count where
  tallied := fragmented.tallied
  capacity_eq := fragmented.capacity_eq
  allocations_eq := fragmented.allocations_eq
  reached := by
    intro id
    rw [fragmented.owned.isSome_iff, idsOf_evenCells, List.mem_map]
    simp only [List.mem_range]

/-- One more page is inserted at the end, and gets the next seat. -/
theorem insert_yields (fragmented : Fragmented slots count chain)
    (few : 2 * (count + 1) ≤ Arithmetic.halfLimit) :
    ∃ after events, (Chain.insert (page (2 * count))).Yields chain () after events
      ∧ Fragmented slots (count + 1) after := by
  have whole := separated_evenPages few
  rw [evenPages_succ, List.map_append, ← spansOf_evenCells slots] at whole
  obtain ⟨separated, formed, -⟩ := separated_append.mp whole
  have room : count + 1 < Arithmetic.halfLimit := by omega
  obtain ⟨id, after, events, yields, owned, allocated, settles, -⟩ :=
    fragmented.owned.insert_yields separated (formed.formed _ List.mem_cons_self)
      (by rwa [fragmented.allocations_eq])
  have sits := fragmented.seated.allocate_answer room (page (2 * count))
  obtain rfl := Except.ok.inj (allocated.symm.trans sits)
  have entered := @Cells.insert_of_separated _ (evenCells slots count) [] (Store.seat slots count) whole
  rw [List.append_nil, ← evenCells_succ] at entered
  rw [entered] at owned
  have allocations_eq : after.allocations = count + 1 := by
    rw [settles.allocations_eq, fragmented.allocations_eq]
  have moved := Chain.moves_insert Store.closed_tallies (page (2 * count)) chain
  rw [yields.state_eq] at moved
  obtain ⟨tallied, kept⟩ :=
    Store.Tallies.tallied moved fragmented.tallied (allocations_eq.trans_lt room)
  exact ⟨after, events, yields, owned, tallied, kept.trans fragmented.capacity_eq, allocations_eq⟩

end Fragmented

/-- Even pages are inserted one after another. -/
theorem insertEvenPages_yields (fragmented : Fragmented slots first chain)
    (few : 2 * (first + count) ≤ Arithmetic.halfLimit) :
    ∃ after events, (insertEvenPages first count).Yields chain () after events
      ∧ Fragmented slots (first + count) after := by
  induction count generalizing first chain with
  | zero => exact ⟨chain, [], yields_pure _ _, fragmented⟩
  | succ count induction =>
    obtain ⟨between, events, inserts, grown⟩ := fragmented.insert_yields (by omega)
    obtain ⟨after, more, yields, last⟩ := induction grown (by omega)
    have index : Arithmetic.mul first 2 = .ok (2 * first) := by
      refine Arithmetic.mul_eq_ok_iff.mpr ⟨?_, Nat.mul_comm first 2⟩
      unfold Arithmetic.halfLimit Arithmetic.wordLimit at *
      omega
    have span : pageSpan (2 * first) = .ok (page (2 * first)) := pageSpan_eq (by omega)
    rw [Nat.add_right_comm] at last
    refine ⟨after, events ++ more, ?_, last⟩
    refine (yields_ofExcept index chain).silent_bind ?_
    refine (yields_ofExcept span chain).silent_bind ?_
    exact inserts.bind yields

/-! ## The pages between them -/

/-- The pages between the even ones are inserted, in any order. One node is left, the first that ever
was: nothing is inserted in front of it. -/
theorem Fragmented.fill (fragmented : Fragmented slots count chain) (positive : 1 ≤ count)
    (few : 2 * count ≤ Arithmetic.halfLimit) {order : List Nat} (perm : order.Perm (gapPages count)) :
    (∀ outcome ∈ Action.outcomes Chain.insert (order.map page) chain, outcome.answer = .ok ())
      ∧ (Action.after Chain.insert (order.map page) chain).Owned
        [⟨Store.seat slots 0, ⟨0, pageStart (2 * count - 1)⟩⟩] := by
  have gap : ∀ index ∈ order, 0 < index ∧ index + 1 < 2 * count :=
    fun index member => lt_of_mem_gapPages (perm.mem_iff.mp member)
  have formed : ∀ span ∈ order.map page, span.WellFormed ∧ 0 < span.low := by
    rw [List.forall_mem_map]
    intro index member
    have bounds := gap index member
    refine ⟨wellFormed_page (by omega), ?_⟩
    rw [← pageStart_zero]
    exact (pageStart_lt_iff (Nat.zero_le _) (by omega)).mpr bounds.1
  have separated := separated_evenPages few
  rw [← spansOf_evenCells slots] at separated
  have room : chain.allocations + (order.map page).length < Arithmetic.halfLimit := by
    rw [fragmented.allocations_eq, List.length_map, perm.length_eq, gapPages, List.length_map,
      List.length_range]
    omega
  obtain ⟨ends, remaining, owned, gains⟩ :=
    fragmented.owned.inserts separated (fun span member => (formed span member).1) room
  -- No address is left out between the pages, so one span is left.
  have whole : (⟨0, pageStart (2 * count - 1)⟩ : Span).WellFormed := by
    rw [← pageStart_zero]
    exact (pageStart_lt_iff (Nat.zero_le _) (by omega)).mpr (by omega)
  have spans_eq : spansOf remaining = [⟨0, pageStart (2 * count - 1)⟩] := by
    refine gains.separated.eq_of_covered (separated_singleton whole) fun address => ?_
    rw [gains.covered_iff, spansOf_evenCells, covered_all_pages few perm, covered_singleton]
  -- The first node was the first one all along.
  obtain ⟨high, rest, rfl⟩ :=
    gains.ledBy _ _ (ledBy_evenCells slots positive) fun span member => (formed span member).2
  rw [spansOf_cons, List.cons.injEq, Span.mk.injEq, List.map_eq_nil_iff] at spans_eq
  obtain ⟨⟨-, rfl⟩, rfl⟩ := spans_eq
  exact ⟨ends, owned⟩

/-! ## Main result -/

/-- A chain is made of the first even pages, `count` of them, over a pool with any number of slots.
It holds just these pages. The nodes of the first ones sit in the slots of the slab, in order, and
those of the others in the slots of the growing table behind it, all under first generations; every
allocation was a hit or a fallback accordingly. Then the pages between them are inserted, each once
and in any order. That always ends well, with all pages up to the last one in a single span, under the
node that was the first one in the beginning, and with no other node in the store. -/
theorem fragmented_fills_up (count : Nat) (slots : UInt32) (positive : 1 ≤ count)
    (few : count < 2 ^ 30) :
    let made := fragmented count (.pool (pool slots))
    let chain := made.state
    let inSlab := min count slots.toNat
    made.answer = .ok ()
      ∧ (∀ index < 2 * count, pageSpan index = .ok (page index))
      ∧ chain.spans = .ok ((evenPages count).map page)
      ∧ (∃ entries, chain.entries (count + 1) = .ok entries
        ∧ entries.map Prod.fst = (List.range count).map (Store.seat slots.toNat))
      ∧ chain.counters = ⟨slots.toNat, inSlab, count - inSlab, inSlab, count - inSlab⟩
      ∧ ∀ order : List Nat, order.Perm (gapPages count) →
        let fills := order.map page
        let filled := Action.after Chain.insert fills chain
        (∀ outcome ∈ Action.outcomes Chain.insert fills chain, outcome.answer = .ok ())
          ∧ filled.spans = .ok [⟨0, UInt64.ofNat ((2 * count - 1) * pageLength)⟩]
          ∧ (∃ entries, filled.entries 2 = .ok entries
            ∧ entries.map Prod.fst = [Store.seat slots.toNat 0])
          ∧ chain.head = some (Store.seat slots.toNat 0)
          ∧ filled.counters.live = .ok 1 := by
  intro made chain inSlab
  have room : 2 * count ≤ Arithmetic.halfLimit := by
    unfold Arithmetic.halfLimit
    omega
  obtain ⟨after, events, yields, fragmented⟩ :=
    insertEvenPages_yields (fragmented_empty default slots.toNat) (by rwa [Nat.zero_add])
  have ends : chain = after := yields.state_eq
  rw [Nat.zero_add, ← ends] at fragmented
  have owned := fragmented.owned
  refine ⟨yields.answer_eq, fun index inside => pageSpan_eq (inside.trans_le room), ?_, ?_,
    fragmented.seated.counters_eq, fun order perm => ?_⟩
  · rw [owned.spans_eq, spansOf_evenCells]
  · have walked := owned.toLinked.entries_ids
    rwa [idsOf_evenCells, evenCells, List.length_map, List.length_range] at walked
  · obtain ⟨answered, filled⟩ := fragmented.fill positive room perm
    refine ⟨answered, filled.spans_eq, filled.toLinked.entries_ids, ?_, ?_⟩
    · obtain ⟨high, rest, same⟩ := ledBy_evenCells slots.toNat positive
      rw [owned.head_eq, same, firstId_cons]
    · have single : _ + _ = 1 := filled.live_eq
      exact Arithmetic.add_eq_ok_iff.mpr ⟨single.trans_lt (by decide), single⟩

/-- Three pages over a slab of one slot: one node sits in the slab and two past it. The gap behind the
last node but one is filled first, across the tiers, and the node in the slab is left. -/
theorem fragmented_fills_up_past_slab :
    let made := fragmented 3 (.pool (pool 1))
    let filled := Action.after Chain.insert [page 3, page 1] made.state
    made.answer = .ok () ∧ [3, 1].Perm (gapPages 3)
      ∧ made.state.spans = .ok [⟨0x0, 0x1000⟩, ⟨0x2000, 0x3000⟩, ⟨0x4000, 0x5000⟩]
      ∧ made.state.counters = ⟨1, 1, 2, 1, 2⟩
      ∧ (∃ entries, made.state.entries 4 = .ok entries
        ∧ entries.map Prod.fst = [⟨.slab, 0, 0⟩, ⟨.heap, 0, 0⟩, ⟨.heap, 1, 0⟩])
      ∧ filled.spans = .ok [⟨0x0, 0x5000⟩]
      ∧ (∃ entries, filled.entries 2 = .ok entries ∧ entries.map Prod.fst = [⟨.slab, 0, 0⟩])
      ∧ filled.counters.live = .ok 1 := by
  intro made filled
  have perm : [3, 1].Perm (gapPages 3) := by decide
  obtain ⟨answered, -, spans, entries, counters, fills⟩ :=
    fragmented_fills_up 3 1 (by decide) (by decide)
  obtain ⟨-, filledSpans, filledEntries, -, live⟩ := fills [3, 1] perm
  exact ⟨answered, perm, spans, counters, entries, filledSpans, filledEntries, live⟩

end MergedSpans.Workload
