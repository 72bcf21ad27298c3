import MergedSpans.Action
import MergedSpans.Arithmetic
import MergedSpans.Op

/-! # Sets of single addresses

The plain way to keep a set of addresses: one by one. It takes room for every address, and is what
a chain of spans has to agree with.

* `AddressSet` — the addresses in ascending order.
* `AddressSet.insert`, `AddressSet.erase`, `AddressSet.overlaps`, `AddressSet.clear` — the calls.
* `AddressSet.spans` — the addresses as maximal runs.
-/

namespace MergedSpans

/-- The addresses of a span, in ascending order. -/
def Span.addresses (span : Span) : List UInt64 :=
  (List.range' span.low.toNat (span.high.toNat - span.low.toNat)).map UInt64.ofNat

theorem Span.mem_addresses {span : Span} {address : UInt64} :
    address ∈ span.addresses ↔ span.Holds address := by
  simp only [addresses, List.mem_map, List.mem_range'_1, Holds, UInt64.le_iff_toNat_le,
    UInt64.lt_iff_toNat_lt]
  constructor
  · rintro ⟨number, bounds, rfl⟩
    have fits : number < 2 ^ 64 := by
      have := span.high.toNat_lt
      omega
    rw [UInt64.toNat_ofNat_of_lt' fits]
    omega
  · intro bounds
    exact ⟨address.toNat, by omega, UInt64.ofNat_toNat⟩

theorem Span.pairwise_addresses (span : Span) : span.addresses.Pairwise (· < ·) := by
  rw [addresses, List.pairwise_map]
  refine List.Pairwise.imp_of_mem ?_ (List.pairwise_lt_range' 1)
  intro first second firstMem secondMem less
  rw [List.mem_range'_1] at firstMem secondMem
  have := span.high.toNat_lt
  have firstFits : first < 2 ^ 64 := by omega
  have secondFits : second < 2 ^ 64 := by omega
  rw [UInt64.lt_iff_toNat_lt, UInt64.toNat_ofNat_of_lt' firstFits,
    UInt64.toNat_ofNat_of_lt' secondFits]
  exact less

/-- A set of addresses. -/
@[ext]
structure AddressSet where
  /-- The addresses. -/
  members : List UInt64
  /-- They stand in ascending order, each of them once. -/
  ascending : members.Pairwise (· < ·)
  /-- Has an address been put in since the set was made or last cleared? That one may have been
  taken away again. -/
  used : Bool
  /-- No address is there without having been put in. -/
  used_of_mem : ∀ address ∈ members, used = true

namespace AddressSet

/-- The set without addresses, and without any before. -/
def empty : AddressSet where
  members := []
  ascending := .nil
  used := false
  used_of_mem _ member := absurd member List.not_mem_nil

instance : Inhabited AddressSet := ⟨empty⟩

/-- Is the set without addresses? -/
def isEmpty (set : AddressSet) : Bool := set.members.isEmpty

/-- The set with the addresses of a span added. -/
def insert (set : AddressSet) (span : Span) : AddressSet :=
  if formed : span.WellFormed then
    { members := set.members.filter (· < span.low) ++ span.addresses
        ++ set.members.filter (span.high ≤ ·)
      ascending := by
        simp only [List.pairwise_append, List.mem_append, List.mem_filter, decide_eq_true_eq,
          Span.mem_addresses]
        refine ⟨⟨set.ascending.filter _, span.pairwise_addresses, ?_⟩, set.ascending.filter _, ?_⟩
        · exact fun first firstMem second secondMem =>
            UInt64.lt_of_lt_of_le firstMem.2 secondMem.1
        · rintro first (firstMem | firstMem) second secondMem
          · exact UInt64.lt_of_lt_of_le (UInt64.lt_trans firstMem.2 formed) secondMem.2
          · exact UInt64.lt_of_lt_of_le firstMem.2 secondMem.2
      used := true
      used_of_mem := fun _ _ => rfl }
  else set

/-- The set with the addresses of a span taken away. -/
def erase (set : AddressSet) (span : Span) : AddressSet where
  members := set.members.filter fun address => !decide (span.Holds address)
  ascending := set.ascending.filter _
  used := set.used
  used_of_mem address member := set.used_of_mem address (List.mem_filter.mp member).1

/-- Does the set hold an address of a span? The bounds of a span are compared only if the set has
been used, whether or not an address is left; then they must not run backwards. -/
def overlaps (set : AddressSet) (span : Span) : Except Fault Bool :=
  if set.used ∧ span.high < span.low then .error .invertedRange
  else .ok (set.members.any fun address => decide (span.Holds address))

/-- The set with all addresses taken away. -/
def clear (_ : AddressSet) : AddressSet := empty

/-! ## Membership -/

instance : Membership UInt64 AddressSet := ⟨fun set address => address ∈ set.members⟩

theorem mem_def {set : AddressSet} {address : UInt64} :
    address ∈ set ↔ address ∈ set.members := Iff.rfl

@[simp] theorem not_mem_empty (address : UInt64) : ¬ address ∈ empty := List.not_mem_nil

@[simp] theorem mem_insert {set : AddressSet} {span : Span} {address : UInt64} :
    address ∈ set.insert span ↔ address ∈ set ∨ span.Holds address := by
  unfold insert
  split
  · next formed =>
    simp only [mem_def, List.mem_append, List.mem_filter, decide_eq_true_eq, Span.mem_addresses]
    by_cases held : span.Holds address
    · simp [held]
    · have outside : address < span.low ∨ span.high ≤ address := by
        rcases UInt64.lt_or_le address span.low with below | above
        · exact Or.inl below
        · exact Or.inr (UInt64.not_lt.mp fun less => held ⟨above, less⟩)
      simp only [held, or_false]
      rw [← and_or_left]
      exact and_iff_left outside
  · next unformed =>
    have : ¬ span.Holds address := fun held =>
      unformed (UInt64.lt_of_le_of_lt held.1 held.2)
    simp [this]

@[simp] theorem mem_erase {set : AddressSet} {span : Span} {address : UInt64} :
    address ∈ set.erase span ↔ address ∈ set ∧ ¬ span.Holds address := by
  simp [mem_def, erase]

@[simp] theorem not_mem_clear {set : AddressSet} {address : UInt64} : ¬ address ∈ set.clear :=
  List.not_mem_nil

/-! ## Use -/

@[simp] theorem used_insert {set : AddressSet} {span : Span} :
    (set.insert span).used = true ↔ span.WellFormed ∨ set.used = true := by
  unfold insert
  split
  · next formed => exact iff_of_true rfl (Or.inl formed)
  · next unformed => exact (or_iff_right unformed).symm

@[simp] theorem used_erase (set : AddressSet) (span : Span) : (set.erase span).used = set.used := rfl

@[simp] theorem used_clear (set : AddressSet) : set.clear.used = false := rfl

/-! ## Runs -/

/-- The address after another one. -/
def successor (address : UInt64) : Except Fault UInt64 := do
  let after ← Arithmetic.add address.toNat 1
  return UInt64.ofNat after

/-- Read ascending addresses into a run that is still open; a gap closes it. -/
def runsFrom (run : Span) : List UInt64 → Except Fault (List Span)
  | [] => .ok [run]
  | address :: rest => do
    let after ← successor address
    if run.high = address then runsFrom { run with high := after } rest
    else return run :: (← runsFrom ⟨address, after⟩ rest)

/-- The addresses as maximal runs, in ascending order. -/
def spans (set : AddressSet) : Except Fault (List Span) :=
  match set.members with
  | [] => .ok []
  | address :: rest => do
    let after ← successor address
    runsFrom ⟨address, after⟩ rest

/-- The number of maximal runs. -/
def length (set : AddressSet) : Except Fault Nat := do
  let spans ← set.spans
  return spans.length

/-- Make a call; only a query has something to answer. -/
def perform : Op → Action AddressSet (Option Bool)
  | .insert span => do
    Action.update (·.insert span)
    return none
  | .erase span => do
    Action.update (·.erase span)
    return none
  | .overlaps span => do
    let hit ← Action.read (·.overlaps span)
    return some hit
  | .clear => do
    Action.update clear
    return none

end AddressSet

end MergedSpans
