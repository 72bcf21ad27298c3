import MergedSpans.Proofs.AddressSet
import MergedSpans.Proofs.Chain.Calls
import MergedSpans.Proofs.Span.Size

/-! # Maximal runs of addresses

Whatever calls made a set of addresses, its spans are its maximal runs, one for each.

* `Action.after AddressSet.perform` — `mem_after` tells which addresses are in a set by then, and
  `add_one_lt_of_mem_after` that the last address there is never is one of them.
* `AddressSet.Fills` — calls that leave a set used, whether or not an address is left;
  `overlaps_after_eq_error_iff` — which queries are refused after calls.
* `AddressSet.MaximalRun` — a run that goes on at neither end; `maximalRun_iff_mem` — separated
  spans that cover a set are just its maximal runs.
* `AddressSet.members_after_inserts` — the set that spans are put into again.
* `spans_are_maximal_runs` — all of it for a set that calls have made.
-/

namespace MergedSpans.AddressSet

open MergedSpans.Action

variable {set other : AddressSet} {run another span : Span} {spans : List Span}

/-! ## Addresses after calls -/

/-- Two sets of the same addresses list them alike, since the addresses stand in order. -/
theorem members_eq_of_mem_iff (same : ∀ address, address ∈ set ↔ address ∈ other) :
    set.members = other.members :=
  set.ascending.eq_of_mem_iff other.ascending fun address => same address

/-- A query leaves the set alone, whether it is answered or refused. -/
theorem state_overlaps (span : Span) (set : AddressSet) :
    ((perform (.overlaps span)).run set).state = set :=
  have asked : (perform (.overlaps span)).Moves (Keeps id) :=
    (moves_read _).bind fun _ => moves_pure _
  asked set

/-- A call leaves the addresses that it says, also one whose span holds none. -/
theorem mem_perform (op : Op) (set : AddressSet) (address : UInt64) :
    address ∈ ((perform op).run set).state ↔ op.coverage (· ∈ set) address := by
  cases op with
  | insert span => exact mem_insert.trans or_comm
  | erase span => exact mem_erase
  | overlaps span =>
    rw [state_overlaps]
    rfl
  | clear => exact iff_of_false (not_mem_empty address) id

/-- The addresses after calls are what the calls say, one after another. -/
theorem mem_after (ops : List Op) (set : AddressSet) (address : UInt64) :
    address ∈ after perform ops set ↔ ops.foldl Op.coverage (· ∈ set) address := by
  -- Induction on the calls, for every set that the first of them may be made on.
  induction ops generalizing set with
  | nil => rfl
  | cons op rest induction =>
    have called : (· ∈ ((perform op).run set).state) = op.coverage (· ∈ set) :=
      funext fun address => propext (mem_perform op set address)
    rw [after_cons, induction, called]
    rfl

/-- The last address there is can not be put into a set: no span holds it. -/
theorem add_one_lt_of_mem_after (ops : List Op) {address : UInt64}
    (bounded : ∀ address ∈ set, address.toNat + 1 < Arithmetic.wordLimit)
    (member : address ∈ after perform ops set) : address.toNat + 1 < Arithmetic.wordLimit := by
  induction ops generalizing set with
  | nil => exact bounded address member
  | cons op rest induction =>
    refine induction (fun other member => ?_) member
    rw [mem_perform] at member
    cases op with
    | insert span =>
      rcases member with held | before
      · exact held.add_one_lt
      · exact bounded other before
    | erase span => exact bounded other member.1
    | overlaps span => exact bounded other member
    | clear => exact member.elim

/-- Calls that put spans in leave the addresses that the spans cover, besides those of the start. -/
theorem mem_after_inserts (spans : List Span) (set : AddressSet) (address : UInt64) :
    address ∈ after perform (spans.map .insert) set ↔ address ∈ set ∨ Covered spans address := by
  induction spans generalizing set with
  | nil => simp
  | cons span rest induction =>
    rw [List.map_cons, after_cons, induction, mem_perform, covered_cons, Op.coverage,
      or_comm (a := span.Holds address), or_assoc]

/-- A span without addresses changes nothing, whether it is put in or taken away. -/
theorem insert_erase_of_not_wellFormed (malformed : ¬ span.WellFormed) :
    set.insert span = set ∧ set.erase span = set := by
  have vacant (address : UInt64) : ¬ span.Holds address := fun held =>
    malformed (UInt64.lt_of_le_of_lt held.1 held.2)
  constructor
  · exact dif_neg malformed
  · refine AddressSet.ext (List.filter_eq_self.mpr fun address _ => ?_) rfl
    rw [decide_eq_false (vacant address)]
    rfl

/-! ## Used sets -/

/-- A call leaves the set used if it puts an address in, or if the set was used and is not
cleared. -/
theorem used_perform (op : Op) (set : AddressSet) :
    ((perform op).run set).state.used = true
      ↔ (∃ span, op = .insert span ∧ span.WellFormed) ∨ (set.used = true ∧ op ≠ .clear) := by
  cases op with
  | insert span =>
    show (set.insert span).used = true ↔ _
    simp
  | erase span =>
    show (set.erase span).used = true ↔ _
    simp
  | overlaps span => simp [state_overlaps]
  | clear =>
    show set.clear.used = true ↔ _
    simp

/-- One of the calls puts an address in, and none behind it clears the set. -/
def Fills (ops : List Op) : Prop :=
  ∃ earlier span later, ops = earlier ++ .insert span :: later ∧ span.WellFormed ∧ Op.clear ∉ later

/-- Calls leave a set used if they fill it, or if it was used before and none of them clears it. -/
theorem used_after_iff (ops : List Op) (set : AddressSet) :
    (after perform ops set).used = true ↔ Fills ops ∨ (set.used = true ∧ Op.clear ∉ ops) := by
  -- Induction on the calls: the first of them fills the set, clears it, or leaves it as used as it is.
  induction ops generalizing set with
  | nil => simp [after_nil, Fills]
  | cons op rest induction =>
    rw [after_cons, induction, used_perform]
    constructor
    · rintro (⟨earlier, span, later, rfl, formed, kept⟩ | ⟨⟨span, rfl, formed⟩ | ⟨used, other⟩, kept⟩)
      · exact Or.inl ⟨op :: earlier, span, later, rfl, formed, kept⟩
      · exact Or.inl ⟨[], span, rest, rfl, formed, kept⟩
      · exact Or.inr ⟨used, List.not_mem_cons_of_ne_of_not_mem other.symm kept⟩
    · rintro (⟨earlier, span, later, split, formed, kept⟩ | ⟨used, kept⟩)
      · rcases List.cons_eq_append_iff.mp split with ⟨-, same⟩ | ⟨between, -, rfl⟩
        · obtain ⟨rfl, rfl⟩ := List.cons.inj same
          exact Or.inr ⟨Or.inl ⟨span, rfl, formed⟩, kept⟩
        · exact Or.inl ⟨between, span, later, rfl, formed, kept⟩
      · rw [List.mem_cons, not_or] at kept
        exact Or.inr ⟨Or.inr ⟨used, Ne.symm kept.1⟩, kept.2⟩

/-- Whatever calls are made on a set that is empty at first, a query is refused then if its span runs
backwards and the calls have filled the set, even if they have left no address in it. -/
theorem overlaps_after_eq_error_iff (ops : List Op) (span : Span) :
    (after perform ops empty).overlaps span = .error .invertedRange
      ↔ span.high < span.low ∧ Fills ops := by
  have unused : ¬ (empty.used = true ∧ Op.clear ∉ ops) := fun used => Bool.false_ne_true used.1
  rw [overlaps_eq_error_iff, used_after_iff, or_iff_left unused, and_comm]

/-- A set that has lost its only address again still refuses such a query; one that was cleared
answers it. -/
example : (after perform [.insert ⟨0, 1⟩, .erase ⟨0, 1⟩] empty).overlaps ⟨5, 1⟩
      = .error .invertedRange
    ∧ (after perform [.insert ⟨0, 1⟩, .clear] empty).overlaps ⟨5, 1⟩ = .ok false := ⟨rfl, rfl⟩

/-! ## Maximal runs -/

/-- A maximal run of a set: all addresses of the span are in the set, and neither the one after its
last nor the one before its first is. -/
structure MaximalRun (set : AddressSet) (run : Span) : Prop where
  /-- The run holds an address. -/
  formed : run.WellFormed
  /-- All its addresses are in the set. -/
  mem : ∀ address, run.Holds address → address ∈ set
  /-- The run does not go on behind its end. -/
  stops : run.high ∉ set
  /-- The run does not go on before its start. -/
  starts : ∀ before : UInt64, before.toNat + 1 = run.low.toNat → before ∉ set

/-- A maximal run starts no later than another one that it shares an address with. -/
theorem MaximalRun.low_le (maximal : set.MaximalRun run) (others : set.MaximalRun another)
    {address : UInt64} (held : run.Holds address) (shared : another.Holds address) :
    run.low ≤ another.low := by
  by_contra beyond
  have later := UInt64.not_le.mp beyond
  -- Otherwise the address before the run is in the other one, and so in the set.
  have positive : 1 ≤ run.low := by
    rw [UInt64.le_iff_toNat_le]
    exact Nat.succ_le_of_lt (Nat.lt_of_le_of_lt (Nat.zero_le _) (UInt64.lt_iff_toNat_lt.mp later))
  have before : (run.low - 1).toNat + 1 = run.low.toNat := by
    rw [UInt64.toNat_sub_of_le _ _ positive]
    exact Nat.sub_add_cancel (UInt64.le_iff_toNat_le.mp positive)
  refine maximal.starts _ before (others.mem _ ⟨?_, ?_⟩)
  · rw [UInt64.lt_iff_toNat_lt] at later
    rw [UInt64.le_iff_toNat_le]
    omega
  · have reached := UInt64.lt_of_le_of_lt held.1 shared.2
    rw [UInt64.lt_iff_toNat_lt] at reached ⊢
    omega

/-- A maximal run ends no later than another one that it shares an address with. -/
theorem MaximalRun.high_le (maximal : set.MaximalRun run) (others : set.MaximalRun another)
    {address : UInt64} (held : run.Holds address) (shared : another.Holds address) :
    run.high ≤ another.high := by
  by_contra beyond
  -- Otherwise the end of the other one is in the run, and so in the set.
  exact others.stops (maximal.mem _
    ⟨UInt64.le_trans held.1 (UInt64.le_of_lt shared.2), UInt64.not_le.mp beyond⟩)

/-- Two maximal runs that share an address are the same. -/
theorem MaximalRun.eq_of_holds (maximal : set.MaximalRun run) (others : set.MaximalRun another)
    {address : UInt64} (held : run.Holds address) (shared : another.Holds address) :
    run = another := by
  have low : run.low = another.low := UInt64.le_antisymm
    (maximal.low_le others held shared) (others.low_le maximal shared held)
  have high : run.high = another.high := UInt64.le_antisymm
    (maximal.high_le others held shared) (others.high_le maximal shared held)
  cases run
  cases another
  simp_all

section Runs

variable (separated : Separated spans) (covers : ∀ address, Covered spans address ↔ address ∈ set)

include separated covers

/-- Each of the separated spans that cover a set is a maximal run of it: an address that none of
them covers lies before it, and one behind it. -/
theorem maximalRun_of_mem (member : run ∈ spans) : set.MaximalRun run := by
  have formed := separated.formed run member
  obtain ⟨front, back, rfl⟩ := List.append_of_mem member
  obtain ⟨-, onwards, behind⟩ := separated_append.mp separated
  have ahead : ∀ address, address ∈ set → address < run.low ∨ Covered (run :: back) address := by
    intro address inSet
    rcases covered_append.mp ((covers address).mpr inSet) with ⟨earlier, listed, held⟩ | covered
    · have ends := behind earlier listed run List.mem_cons_self
      exact Or.inl (UInt64.lt_trans held.2 ends)
    · exact Or.inr covered
  refine ⟨formed, fun address held => (covers address).mp ⟨run, member, held⟩, ?_, ?_⟩
  · intro inSet
    rcases ahead _ inSet with below | covered
    · exact UInt64.lt_irrefl _ (UInt64.lt_trans formed below)
    · exact onwards.not_covered_high covered
  · intro before next inSet
    rcases covered_append.mp ((covers before).mpr inSet) with ⟨earlier, listed, held⟩ | covered
    · -- The end of an earlier span would lie between two neighbours.
      have ends := behind earlier listed run List.mem_cons_self
      have within := held.2
      rw [UInt64.lt_iff_toNat_lt] at ends within
      omega
    · have reached := onwards.low_le covered
      rw [UInt64.le_iff_toNat_le] at reached
      omega

/-- The separated spans that cover a set are just its maximal runs. -/
theorem maximalRun_iff_mem : set.MaximalRun run ↔ run ∈ spans := by
  refine ⟨fun maximal => ?_, maximalRun_of_mem separated covers⟩
  have start := maximal.formed.holds_low
  obtain ⟨span, member, held⟩ := (covers run.low).mpr (maximal.mem _ start)
  have same := maximal.eq_of_holds (maximalRun_of_mem separated covers member) start held
  exact same ▸ member

/-- There are as many maximal runs as spans. -/
theorem encard_maximalRun : { run | set.MaximalRun run }.encard = spans.length := by
  have distinct : spans.Nodup := separated.nodup
  have listed : { run | set.MaximalRun run } = ↑spans.toFinset := by
    ext run
    rw [List.coe_toFinset]
    exact maximalRun_iff_mem separated covers
  rw [listed, Set.encard_coe_eq_coe_finsetCard, List.toFinset_card_of_nodup distinct]

end Runs

/-- The addresses of a set are put together again by spans that cover it. -/
theorem members_after_inserts (covers : ∀ address, Covered spans address ↔ address ∈ set) :
    (after perform (spans.map .insert) empty).members = set.members :=
  members_eq_of_mem_iff fun address => by
    rw [mem_after_inserts, covers]
    exact or_iff_right (not_mem_empty address)

/-- Whatever calls are made on a set that is empty at first, it holds the addresses that the calls
say. Its spans can be told; they are separated, cover just the addresses of the set, are as many as
it has maximal runs, and put the same addresses together again in an empty one. A query with a span
that holds addresses answers whether one of them is in the set, and a span that holds none changes
nothing. A query is refused if its span runs backwards and the calls have filled the set, even if they
have left no address in it. -/
theorem spans_are_maximal_runs (ops : List Op) :
    let set := after perform ops empty
    (∀ address, address ∈ set ↔ ops.foldl Op.coverage (fun _ => False) address)
      ∧ (∃ spans, set.spans = .ok spans ∧ Separated spans
        ∧ (∀ address, Covered spans address ↔ address ∈ set)
        ∧ set.length = .ok spans.length
        ∧ { run | set.MaximalRun run }.encard = spans.length
        ∧ (after perform (spans.map .insert) empty).members = set.members)
      ∧ (∀ span : Span, span.WellFormed → ∃ hit, set.overlaps span = .ok hit
        ∧ (hit = true ↔ ∃ address, span.Holds address ∧ address ∈ set))
      ∧ (∀ span : Span, ¬ span.WellFormed → set.insert span = set ∧ set.erase span = set)
      ∧ ∀ span : Span, set.overlaps span = .error .invertedRange
        ↔ span.high < span.low ∧ Fills ops := by
  intro set
  have vacant : (· ∈ empty) = fun _ => False := funext fun address =>
    propext (iff_of_false (not_mem_empty address) id)
  have below : ∀ address ∈ set, address.toNat + 1 < Arithmetic.wordLimit := fun address =>
    add_one_lt_of_mem_after ops fun other member => absurd member (not_mem_empty other)
  obtain ⟨spans, read, separated, covers⟩ := spans_eq below
  have counted : set.length = .ok spans.length := by
    rw [AddressSet.length, read]
    rfl
  refine ⟨fun address => ?_, ⟨spans, read, separated, covers, counted,
    encard_maximalRun separated covers, members_after_inserts covers⟩,
    fun span formed => overlaps_eq formed, fun span => insert_erase_of_not_wellFormed,
    overlaps_after_eq_error_iff ops⟩
  rw [mem_after, vacant]

end MergedSpans.AddressSet
