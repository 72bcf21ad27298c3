import MergedSpans.Proofs.Chain.Traversal
import MergedSpans.Proofs.Span.Size

/-! # Lengths added up

Who goes through a chain and adds the lengths of its spans up in a word of 64 bits comes to the number
of addresses that the chain covers. That is so because the spans are separated: none is counted twice,
and there are too few addresses for the sum to overflow on the way.

* `Iter.addUp` — the loop, and `Iter.addUp_eq`, what it comes to.
* `Chain.covered`, `Chain.Measures` — the covered addresses, and a number that the loop finds for them.
* `Ordered.measures`, `Ordered.insert_measures`, `Ordered.erase_measures` — a chain in order has such a
  number, and how a call changes it.
* `lengths_add_up` — all of this, after any calls.
-/

namespace MergedSpans

/-! ## The loop -/

namespace Iter

variable {chain : Chain} {cells : List Cell} {before : Option NodeId}

/-- Read up to `count` spans and add their lengths to a sum of 64 bits. -/
def addUp (chain : Chain) : (count sum : Nat) → Iter → Except Fault Nat
  | 0, sum, _ => .ok sum
  | count + 1, sum, iter => do
    match ← iter.step chain with
    | (none, _) => return sum
    | (some span, iter) =>
      let length ← span.length
      let sum ← Arithmetic.add sum length
      addUp chain count sum iter

/-- A span that is read is added to the sum, where the sum has room for it. -/
theorem addUp_of_step {count sum : Nat} {iter after : Iter} {span : Span}
    (stepped : iter.step chain = .ok (some span, after)) (formed : span.WellFormed)
    (fits : sum + span.size < Arithmetic.wordLimit) :
    addUp chain (count + 1) sum iter = addUp chain count (sum + span.size) after := by
  have added : Arithmetic.add sum span.size = .ok (sum + span.size) :=
    Arithmetic.add_eq_ok_iff.mpr ⟨fits, rfl⟩
  rw [addUp, stepped]
  show (do
    let length ← span.length
    let sum ← Arithmetic.add sum length
    addUp chain count sum after) = _
  rw [formed.length_eq]
  show (do let sum ← Arithmetic.add sum span.size; addUp chain count sum after) = _
  rw [added]
  rfl

/-- Along linked cells the loop adds the sizes of the first spans up, as long as all of them together
have room in the sum. -/
theorem addUp_eq (links : Links chain.store.get? before cells none)
    (formed : ∀ cell ∈ cells, cell.span.WellFormed) {sum : Nat}
    (fits : sum + sizeSum (spansOf cells) < Arithmetic.wordLimit) (count remaining : Nat) :
    addUp chain count sum ⟨⟨firstId cells none⟩, remaining⟩
      = .ok (sum + sizeSum ((spansOf cells).take count)) := by
  -- Induction on the steps, for every place in the chain and what was added up before it.
  induction count generalizing before cells sum remaining with
  | zero => simp [addUp]
  | succ count induction =>
    cases cells with
    | nil => rfl
    | cons cell rest =>
      rw [List.forall_mem_cons] at formed
      rw [spansOf_cons, sizeSum_cons, ← Nat.add_assoc] at fits
      have room : sum + cell.span.size < Arithmetic.wordLimit := by omega
      rw [firstId_cons, addUp_of_step (step_of_links links remaining) formed.1 room,
        induction links.2 formed.2 fits, spansOf_cons, List.take_succ_cons, sizeSum_cons,
        Nat.add_assoc]

end Iter

namespace Chain

open MergedSpans.Action

variable {chain : Chain} {cells : List Cell} {before : Option NodeId} {total : Nat} {span : Span}

/-- A walk along linked cells adds up all their sizes. -/
theorem totalFrom_eq (links : Links chain.store.get? before cells none)
    (formed : ∀ cell ∈ cells, cell.span.WellFormed) {steps : Nat} (enough : cells.length ≤ steps) :
    chain.totalFrom steps (firstId cells none) = .ok (sizeSum (spansOf cells)) := by
  induction cells generalizing before steps with
  | nil => cases steps <;> rfl
  | cons cell rest induction =>
    obtain ⟨steps, rfl⟩ := Nat.exists_eq_add_one.mpr (Nat.zero_lt_of_lt enough)
    rw [List.forall_mem_cons] at formed
    have later := induction links.2 formed.2 (Nat.le_of_succ_le_succ enough)
    rw [firstId_cons, totalFrom, node_of_links_cons links]
    show (do
      let length ← cell.span.length
      let rest ← chain.totalFrom steps (firstId rest none)
      return length + rest) = _
    rw [formed.1.length_eq, later]
    rfl

/-! ## The covered addresses -/

/-- The addresses that the spans of the chain hold. -/
def covered (chain : Chain) : Set UInt64 :=
  { address | ∃ spans, chain.spans = .ok spans ∧ Covered spans address }

/-- The number is that of the covered addresses, and it is what the loop comes to. -/
structure Measures (chain : Chain) (total : Nat) : Prop where
  /-- So many addresses are covered. -/
  encard_covered : chain.covered.encard = total
  /-- The sum does not overflow, wherever the loop is left. -/
  addUp_le : ∀ count, ∃ sum, Iter.addUp chain count 0 chain.iter = .ok sum ∧ sum ≤ total
  /-- A loop through the whole chain comes to the number. -/
  addUp_eq : ∀ count, chain.length ≤ count → Iter.addUp chain count 0 chain.iter = .ok total
  /-- So does a walk that adds up without a limit. -/
  total_eq : chain.total = .ok total

/-- The covered addresses of a chain in order are those in its cells. -/
theorem Owned.covered_eq (owned : chain.Owned cells) :
    chain.covered = { address | Covered (spansOf cells) address } := by
  ext address
  constructor
  · rintro ⟨spans, told, held⟩
    obtain rfl := Except.ok.inj (owned.spans_eq.symm.trans told)
    exact held
  · exact fun held => ⟨spansOf cells, owned.spans_eq, held⟩

/-- On a chain in order the loop comes to the number of covered addresses. -/
theorem Ordered.measures (ordered : chain.Ordered cells) :
    chain.Measures (sizeSum (spansOf cells)) := by
  have formed : ∀ cell ∈ cells, cell.span.WellFormed :=
    fun cell member => formed_of_mem ordered.separated member
  have sums : ∀ count, Iter.addUp chain count 0 chain.iter
      = .ok (sizeSum ((spansOf cells).take count)) := by
    intro count
    have fits := ordered.separated.sizeSum_lt
    rw [← Nat.zero_add (sizeSum _)] at fits ⊢
    rw [iter, start, ordered.head_eq]
    exact Iter.addUp_eq ordered.links formed fits count chain.length
  refine ⟨?_, fun count => ⟨_, sums count, sizeSum_take_le _ count⟩, fun count whole => ?_, ?_⟩
  · rw [ordered.covered_eq, ordered.separated.encard_covered]
  · rw [sums, List.take_of_length_le]
    rwa [List.length_map, ← ordered.length_eq]
  · rw [Chain.total, ordered.head_eq]
    exact totalFrom_eq ordered.links formed ordered.fits

/-- A set of addresses within a span has a number of members. -/
theorem exists_encard_eq (span : Span) {addresses : Set UInt64}
    (inside : ∀ address ∈ addresses, span.Holds address) :
    ∃ number : Nat, addresses.encard = number := by
  have bounded : addresses.encard ≤ span.size := by
    rw [← span.encard_holds]
    exact Set.encard_le_encard inside
  obtain ⟨number, counted⟩ := ENat.ne_top_iff_exists.mp (ne_top_of_le_ne_top (by simp) bounded)
  exact ⟨number, counted.symm⟩

/-- A call on a chain in order leaves it covering what the call says, with the number of that. -/
theorem Ordered.perform_measures (ordered : chain.Ordered cells) (op : Op) (formed : op.WellFormed)
    (few : ((perform op).run chain).state.allocations < Arithmetic.halfLimit) :
    ∃ answer after events total, (perform op).Yields chain answer after events
      ∧ op.Answers (Covered (spansOf cells)) answer
      ∧ after.covered = { address | op.coverage (· ∈ chain.covered) address }
      ∧ after.Measures total := by
  obtain ⟨answer, after, events, remaining, yields, afterOrdered, covers, answers, -⟩ :=
    ordered.perform_yields formed few
  refine ⟨answer, after, events, _, yields, answers, ?_, afterOrdered.measures⟩
  have same : (· ∈ chain.covered) = Covered (spansOf cells) :=
    funext fun address => congrArg (address ∈ ·) ordered.covered_eq
  rw [same, afterOrdered.covered_eq]
  exact Set.ext covers

/-- A chain that covers what another one covers, and some addresses more, has them more in its
number. -/
theorem Measures.total_add {other : Chain} {sum number : Nat} {more : Set UInt64}
    (measures : chain.Measures total) (otherMeasures : other.Measures sum)
    (parts : other.covered = chain.covered ∪ more)
    (apart : ∀ address ∈ more, address ∉ chain.covered) (counted : more.encard = number) :
    total + number = sum := by
  have whole := otherMeasures.encard_covered
  rw [parts, Set.encard_union_eq (Set.disjoint_right.mpr apart), measures.encard_covered, counted,
    ← ENat.natCast_add] at whole
  exact ENat.natCast_inj.mp whole

/-- An insertion adds the addresses of the span that were not covered before. -/
theorem Ordered.insert_measures (ordered : chain.Ordered cells) (measures : chain.Measures total)
    (formed : span.WellFormed)
    (few : ((perform (.insert span)).run chain).state.allocations < Arithmetic.halfLimit) :
    ∃ after events, ∃ new : Nat, (perform (.insert span)).Yields chain none after events
      ∧ { address | span.Holds address ∧ address ∉ chain.covered }.encard = new
      ∧ after.Measures (total + new) := by
  let added : Set UInt64 := { address | span.Holds address ∧ address ∉ chain.covered }
  obtain ⟨_, after, events, sum, yields, rfl, covered, afterMeasures⟩ :=
    ordered.perform_measures (.insert span) formed few
  obtain ⟨new, counted⟩ := exists_encard_eq span fun address (inside : address ∈ added) => inside.1
  have apart : ∀ address ∈ added, address ∉ chain.covered := fun address inside => inside.2
  have parts : after.covered = chain.covered ∪ added := by
    rw [covered]
    ext address
    show span.Holds address ∨ address ∈ chain.covered
      ↔ address ∈ chain.covered ∨ span.Holds address ∧ address ∉ chain.covered
    tauto
  obtain rfl := measures.total_add afterMeasures parts apart counted
  exact ⟨after, events, new, yields, counted, afterMeasures⟩

/-- A removal takes the addresses of the span away that were covered. -/
theorem Ordered.erase_measures (ordered : chain.Ordered cells) (measures : chain.Measures total)
    (formed : span.WellFormed)
    (few : ((perform (.erase span)).run chain).state.allocations < Arithmetic.halfLimit) :
    ∃ after events, ∃ old left : Nat, (perform (.erase span)).Yields chain none after events
      ∧ { address | span.Holds address ∧ address ∈ chain.covered }.encard = old
      ∧ left + old = total ∧ after.Measures left := by
  let taken : Set UInt64 := { address | span.Holds address ∧ address ∈ chain.covered }
  obtain ⟨_, after, events, left, yields, rfl, covered, afterMeasures⟩ :=
    ordered.perform_measures (.erase span) formed few
  obtain ⟨old, counted⟩ := exists_encard_eq span fun address (inside : address ∈ taken) => inside.1
  have apart : ∀ address ∈ taken, address ∉ after.covered := by
    rw [covered]
    exact fun address inside outside => outside.2 inside.1
  have parts : chain.covered = after.covered ∪ taken := by
    rw [covered]
    ext address
    show address ∈ chain.covered ↔ (address ∈ chain.covered ∧ ¬ span.Holds address)
      ∨ span.Holds address ∧ address ∈ chain.covered
    tauto
  exact ⟨after, events, old, left, yields, counted,
    afterMeasures.total_add measures parts apart counted, afterMeasures⟩

/-! ## Main result -/

/-- A chain over a store that was never used, after any calls with well-formed spans that have
allocated fewer than 2 ^ 32 nodes. The lengths of its spans, added up in a word of 64 bits during an
iteration, never overflow it, and they come to the number of addresses that the chain covers. An
insertion raises that number by the number of addresses in the span that were not covered before, and
a removal lowers it by the number of those that were. -/
theorem lengths_add_up {store : Store} (fresh : store.IsFresh) (participant : Participant)
    (ops : List Op) (formed : ∀ op ∈ ops, op.WellFormed)
    (few : (Action.after perform ops (.empty participant store)).allocations
      < Arithmetic.halfLimit) :
    let chain := Action.after perform ops (.empty participant store)
    ∃ total, chain.Measures total ∧ ∀ span : Span, span.WellFormed →
      (((perform (.insert span)).run chain).state.allocations < Arithmetic.halfLimit →
        ∃ after events, ∃ new : Nat, (perform (.insert span)).Yields chain none after events
          ∧ { address | span.Holds address ∧ address ∉ chain.covered }.encard = new
          ∧ after.Measures (total + new))
      ∧ (((perform (.erase span)).run chain).state.allocations < Arithmetic.halfLimit →
        ∃ after events, ∃ old left : Nat, (perform (.erase span)).Yields chain none after events
          ∧ { address | span.Holds address ∧ address ∈ chain.covered }.encard = old
          ∧ left + old = total ∧ after.Measures left) := by
  intro chain
  obtain ⟨⟨⟨cells, ordered⟩, -⟩, -⟩ := (ordered_empty fresh participant).runs ops formed few
  have measures := ordered.measures
  exact ⟨_, measures, fun span spanFormed => ⟨ordered.insert_measures measures spanFormed,
    ordered.erase_measures measures spanFormed⟩⟩

/-- All addresses but the last are covered, by three insertions that overlap, in a pool of one slot.
They are so many that one more would not fit in 64 bits. -/
theorem lengths_add_up_to_the_top :
    let top : UInt64 := 0xffffffffffffffff
    let start : Chain := .empty default (.pool (.ofSlots 1))
    let ops : List Op := [.insert ⟨0, 10⟩, .insert ⟨top - 10, top⟩, .insert ⟨5, top - 5⟩]
    let chain := Action.after perform ops start
    (∀ op ∈ ops, op.WellFormed) ∧ chain.allocations < Arithmetic.halfLimit
      ∧ chain.Measures (Arithmetic.wordLimit - 1)
      ∧ ∃ after events, (perform (.erase ⟨0, top⟩)).Yields chain none after events
        ∧ after.Measures 0 := by
  intro top start ops chain
  have formed : ∀ op ∈ ops, op.WellFormed := by decide
  have few : chain.allocations < Arithmetic.halfLimit := by decide +kernel
  obtain ⟨total, measures, changes⟩ := lengths_add_up (.inr ⟨1, rfl⟩) default ops formed few
  have known : chain.total = .ok (Arithmetic.wordLimit - 1) := by decide +kernel
  obtain rfl : Arithmetic.wordLimit - 1 = total :=
    Except.ok.inj (known.symm.trans measures.total_eq)
  have room : ((perform (.erase ⟨0, top⟩)).run chain).state.allocations < Arithmetic.halfLimit := by
    decide +kernel
  obtain ⟨after, events, old, left, yields, -, -, afterMeasures⟩ :=
    (changes ⟨0, top⟩ (by decide)).2 room
  have gone : ((perform (.erase ⟨0, top⟩)).run chain).state.total = .ok 0 := by decide +kernel
  rw [yields.state_eq] at gone
  obtain rfl : 0 = left := Except.ok.inj (gone.symm.trans afterMeasures.total_eq)
  exact ⟨formed, few, measures, after, events, yields, afterMeasures⟩

end Chain

end MergedSpans
