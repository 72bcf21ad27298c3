import MergedSpans.Proofs.Registry.Runs

/-! # Claims that cannot be counted

The budget of a registry has 64 bits and the count of a participant has 32, so a participant can be
due more pools than can be counted. Its claim then meets a fault, after the total has moved.

* `Registry.EndsWell` — all claims of a run are answered.
* `claim_refused` — a claim that is turned away changes nothing, on any registry.
* `endsWell_iff` — the runs without a fault are those that fit.
* `always_endsWell_iff` — the registries without a faulty run are those whose budget has 32 bits.
* `claims_end_well` — both, and that a claim which is turned away changes nothing;
  `one_claim_too_many` — a usable sizing and a run whose next claim meets the fault.
-/

namespace MergedSpans

namespace Registry

open MergedSpans.Action

/-- Every claim of the run is answered, with a pool or with the reason why there is none. -/
def EndsWell (calls : List Participant) (registry : Registry) : Prop :=
  ∀ outcome ∈ outcomes claim calls registry, ∃ answer, outcome.answer = .ok answer

theorem endsWell_concat {calls : List Participant} {last : Participant} {registry : Registry} :
    EndsWell (calls ++ [last]) registry
      ↔ EndsWell calls registry
        ∧ ∃ answer, ((claim last).run (after claim calls registry)).answer = .ok answer := by
  unfold EndsWell
  simp only [outcomes_append, outcomes, List.mem_append, List.mem_singleton]
  constructor
  · intro well
    exact ⟨fun outcome member => well outcome (.inl member), well _ (.inr rfl)⟩
  · rintro ⟨earlier, later⟩ outcome (member | rfl)
    · exact earlier outcome member
    · exact later

/-- A claim that is turned away changes and reports nothing, whatever the registry has counted. -/
theorem claim_refused {registry : Registry} {participant : Participant} {refusal : Refusal}
    (refused : ((claim participant).run registry).answer = .ok (.error refusal)) :
    (claim participant).Yields registry (.error refusal) registry [] := by
  by_cases serves : registry.sizing.Serves participant
  · by_cases left : registry.claimed < registry.capacity
    · -- Handing out a pool is never answered with a refusal.
      rw [claim_run_of_lt serves left, run_bind_pure] at refused
      cases handed : ((handOut participant).run registry).answer with
      | error fault =>
        rw [handed] at refused
        cases refused
      | ok pool =>
        rw [handed] at refused
        cases refused
    · have yields := claim_exhausted serves (Nat.not_lt.mp left)
      obtain rfl := Except.error.inj (Except.ok.inj (yields.answer_eq.symm.trans refused))
      exact yields
  · have yields := claim_unknown serves
    obtain rfl := Except.error.inj (Except.ok.inj (yields.answer_eq.symm.trans refused))
    exact yields

section Runs

variable {start : Registry}

/-- After a run that has gone as the sizing says, a claim that is due a pool which cannot be counted
meets a fault, with the total already moved. -/
theorem Recorded.claim_overflows {calls : List Participant} {participant : Participant}
    (recorded : Recorded start calls)
    (due : start.sizing.Serves participant
      ∧ (admitted start.sizing calls).length < start.sizing.budget)
    (full : Arithmetic.halfLimit ≤ (admitted start.sizing calls).count participant + 1) :
    (claim participant).run (after claim calls start)
      = ⟨.error (.overflow .add),
          { after claim calls start with claimed := (after claim calls start).claimed + 1 },
          []⟩ := by
  refine recorded.records.tabulates.claim_overflows ?_ ?_ full
  · rw [recorded.sizing_eq]
    exact due.1
  · rw [capacity, recorded.sizing_eq, recorded.records.claimed_eq]
    exact due.2

/-- A run of claims ends well exactly when no participant is due more pools than 32 bits can
count. -/
theorem endsWell_iff (fresh : start.IsFresh) (calls : List Participant) :
    EndsWell calls start ↔ Fits start.sizing calls := by
  -- Induction from the last claim: the first fault is met by the first claim that does not fit.
  induction calls using List.reverseRecOn with
  | nil =>
    refine iff_of_true (fun _ member => absurd member List.not_mem_nil) ?_
    exact fits_of_length_lt _ (by decide)
  | append_singleton calls last induction =>
    rw [endsWell_concat, induction]
    constructor
    · rintro ⟨fits, answer, answered⟩ participant
      have recorded := fresh.recorded calls fits
      rw [admitted_concat]
      split
      · next due =>
        by_contra full
        have grown := fits participant
        have other : last = participant := by
          by_contra differs
          rw [List.count_append, List.count_singleton, beq_false_of_ne differs] at full
          exact full grown
        subst other
        rw [List.count_append, List.count_singleton_self, Nat.not_lt] at full
        rw [recorded.claim_overflows due full] at answered
        cases answered
      · exact fits participant
    · intro fits
      exact ⟨fits.init, ((fresh.recorded calls fits.init).answers fits).ends_well⟩

/-- Claims of one participant that is served are all due a pool while the budget lasts. -/
theorem admitted_replicate {sizing : Sizing} {participant : Participant} {claims : Nat}
    (serves : sizing.Serves participant) (within : claims ≤ sizing.budget) :
    admitted sizing (List.replicate claims participant) = List.replicate claims participant := by
  rw [admitted, List.filter_replicate, if_pos (decide_eq_true serves), List.take_replicate,
    Nat.min_eq_right within]

/-- No run meets a fault exactly when the whole budget has 32 bits. -/
theorem always_endsWell_iff (fresh : start.IsFresh) :
    (∀ calls, EndsWell calls start) ↔ start.capacity < Arithmetic.halfLimit := by
  simp only [endsWell_iff fresh]
  constructor
  · intro fits
    by_contra large
    have whole : Arithmetic.halfLimit ≤ start.sizing.budget := Nat.not_lt.mp large
    have serves : start.sizing.Serves ⟨0⟩ := by
      show (0 : UInt32) < start.sizing.maxParticipants
      rw [UInt32.lt_iff_toNat_lt, UInt32.toNat_zero]
      rw [start.sizing.budget_eq] at whole
      exact Nat.pos_of_mul_pos_right (Nat.lt_of_lt_of_le (by decide) whole)
    have most := fits (List.replicate Arithmetic.halfLimit ⟨0⟩) ⟨0⟩
    rw [admitted_replicate serves whole, List.count_replicate_self] at most
    exact Nat.lt_irrefl _ most
  · intro small calls participant
    exact List.count_le_length.trans_lt ((length_admitted_le start.sizing calls).trans_lt small)

/-- On a registry that nothing was claimed from, a run of claims ends well exactly when no
participant is due 2 ^ 32 pools or more, every run does when the budget is smaller than that, and a
claim that is turned away changes and reports nothing. -/
theorem claims_end_well (fresh : start.IsFresh) :
    (∀ calls, EndsWell calls start ↔ Fits start.sizing calls)
      ∧ ((∀ calls, EndsWell calls start) ↔ start.capacity < Arithmetic.halfLimit)
      ∧ ∀ calls participant refusal,
        ((claim participant).run (after claim calls start)).answer = .ok (.error refusal) →
          ((claim participant).run (after claim calls start)).state = after claim calls start
            ∧ ((claim participant).run (after claim calls start)).events = [] := by
  refine ⟨endsWell_iff fresh, always_endsWell_iff fresh, ?_⟩
  intro calls participant refusal refused
  exact ⟨(claim_refused refused).state_eq, congrArg Outcome.events (claim_refused refused)⟩

/-- The default registry answers every claim of every run. -/
theorem claims_end_well_by_default :
    (default : Registry).IsFresh ∧ ∀ calls, EndsWell calls (default : Registry) := by
  have fresh : (default : Registry).IsFresh := Or.inr rfl
  have small : (default : Registry).capacity < Arithmetic.halfLimit := by decide +kernel
  exact ⟨fresh, (claims_end_well fresh).2.1.mpr small⟩

/-- Where the budget lasts that long, a participant is handed as many pools as can be counted. The
claim of the next one meets a fault, and the total then counts a pool that nobody was handed. -/
theorem claim_overflows_of_replicate (fresh : start.IsFresh) {participant : Participant}
    (serves : start.sizing.Serves participant) (large : Arithmetic.halfLimit ≤ start.capacity)
    {claims : Nat} (most : claims + 1 = Arithmetic.halfLimit) :
    EndsWell (List.replicate claims participant) start
      ∧ (after claim (List.replicate claims participant) start).claimed = claims
      ∧ (claim participant).run (after claim (List.replicate claims participant) start)
        = ⟨.error (.overflow .add),
            { after claim (List.replicate claims participant) start with
              claimed := Arithmetic.halfLimit }, []⟩ := by
  have less : claims < start.sizing.budget := (Nat.lt_of_succ_le most.le).trans_le large
  have due := admitted_replicate serves less.le
  have fits : Fits start.sizing (List.replicate claims participant) := by
    refine fits_of_length_lt _ ?_
    rw [List.length_replicate]
    exact Nat.lt_of_succ_le most.le
  have recorded := fresh.recorded _ fits
  have claimed : (after claim (List.replicate claims participant) start).claimed = claims := by
    rw [recorded.records.claimed_eq, due, List.length_replicate]
  have left : (admitted start.sizing (List.replicate claims participant)).length
      < start.sizing.budget := by
    rwa [due, List.length_replicate]
  have full : Arithmetic.halfLimit
      ≤ (admitted start.sizing (List.replicate claims participant)).count participant + 1 := by
    rw [due, List.count_replicate_self]
    exact most.ge
  refine ⟨(endsWell_iff fresh _).mpr fits, claimed, ?_⟩
  rw [recorded.claim_overflows ⟨serves, left⟩ full, claimed, most]

/-- Of two participants that share 2 ^ 32 pools, one can be due all of them. All its claims but the
last are answered, and that one meets a fault with a pool of the budget left. -/
theorem one_claim_too_many :
    let start : Registry :=
      { sizing := { poolSlots := 1, maxParticipants := 2, setsPerParticipant := 0x80000000 } }
    ofSizing start.sizing = .ok start ∧ start.capacity = Arithmetic.halfLimit
      ∧ ∃ calls : List Participant, calls = List.replicate (Arithmetic.halfLimit - 1) ⟨0⟩
        ∧ EndsWell calls start ∧ (after claim calls start).claimed = Arithmetic.halfLimit - 1
        ∧ (claim ⟨0⟩).run (after claim calls start)
          = ⟨.error (.overflow .add),
              { after claim calls start with claimed := Arithmetic.halfLimit }, []⟩ := by
  intro start
  have usable : ofSizing start.sizing = .ok start := by decide +kernel
  have budget : start.capacity = Arithmetic.halfLimit := by decide +kernel
  have serves : start.sizing.Serves ⟨0⟩ := by decide
  exact ⟨usable, budget, _, rfl,
    claim_overflows_of_replicate (Or.inl usable) serves budget.ge (by decide)⟩

end Runs

end Registry

end MergedSpans
