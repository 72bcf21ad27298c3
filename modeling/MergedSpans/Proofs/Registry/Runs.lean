import MergedSpans.Proofs.Registry.Claims
import Mathlib.Algebra.BigOperators.Group.Finset.Basic
import Mathlib.Data.FinEnum

/-! # Runs of claims

Claims made one after another on a registry that nothing was claimed from before.

* `Registry.admitted` — the claims of a run that are due a pool, by the sizing alone.
* `Registry.answered` — the claims of a run that were answered with a pool.
* `Registry.announcements` — what is reported for those claims.
* `IsFresh.recorded` — the two lists are the same and determine the registry and the events, while
  no participant is due more pools than 32 bits can count.
* `Registry.Shows`, `Registry.Answers` — what a registry shows of the pools that it handed out,
  and how it answers a claim.
* `claims_add_up` — what a registry shows after a run, and how it answers the next claim.
-/

namespace MergedSpans

namespace Registry

open MergedSpans.Action

/-! ## What a run is about -/

/-- The claims that are due a pool: those of participants that are served, while the budget
lasts. -/
def admitted (sizing : Sizing) (calls : List Participant) : List Participant :=
  (calls.filter (sizing.Serves ·)).take sizing.budget

/-- One more claim is due a pool when its participant is served and the budget is not used up. -/
theorem admitted_concat (sizing : Sizing) (calls : List Participant) (participant : Participant) :
    admitted sizing (calls ++ [participant])
      = if sizing.Serves participant ∧ (admitted sizing calls).length < sizing.budget then
          admitted sizing calls ++ [participant]
        else admitted sizing calls := by
  unfold admitted
  rw [List.filter_append, List.take_append, List.length_take]
  by_cases serves : sizing.Serves participant
  · rw [List.filter_singleton, decide_eq_true serves, cond_true]
    by_cases left : (calls.filter (sizing.Serves ·)).length < sizing.budget
    · have whole : ([participant] : List Participant).length
          ≤ sizing.budget - (calls.filter (sizing.Serves ·)).length := by
        rw [List.length_singleton]
        omega
      rw [if_pos ⟨serves, by omega⟩, List.take_of_length_le whole, List.take_of_length_le left.le]
    · rw [if_neg (by omega), Nat.sub_eq_zero_of_le (Nat.not_lt.mp left), List.take_zero,
        List.append_nil]
  · rw [List.filter_singleton, decide_eq_false serves, cond_false, List.take_nil, List.append_nil,
      if_neg fun both => serves both.1]

theorem length_admitted_le (sizing : Sizing) (calls : List Participant) :
    (admitted sizing calls).length ≤ sizing.budget := List.length_take_le _ _

/-- Is the outcome an answer with a pool? -/
def handsOut (outcome : Outcome Registry (Except Refusal Pool)) : Bool :=
  match outcome.answer with
  | .ok (.ok _) => true
  | .ok (.error _) | .error _ => false

/-- The participants of the claims in a run that were answered with a pool, in order. -/
def answered (calls : List Participant) (registry : Registry) : List Participant :=
  ((calls.zip (outcomes claim calls registry)).filter (handsOut ·.2)).map Prod.fst

theorem answered_concat (calls : List Participant) (participant : Participant)
    (registry : Registry) :
    answered (calls ++ [participant]) registry
      = answered calls registry
        ++ if handsOut ((claim participant).run (after claim calls registry)) then [participant]
          else [] := by
  unfold answered
  rw [outcomes_append, List.zip_append (length_outcomes calls registry).symm, List.filter_append,
    List.map_append]
  congr 1
  simp only [outcomes, List.zip_cons_cons, List.zip_nil_left, List.filter_singleton]
  split <;> simp_all

/-- What is reported for pools that are handed to `served`, when `before` have been handed one. -/
def announcements (sizing : Sizing) : List Participant → List Participant → List Event
  | _, [] => []
  | before, participant :: rest =>
    told sizing participant (before.count participant + 1) before.length
      ++ announcements sizing (before ++ [participant]) rest

theorem announcements_concat (sizing : Sizing) (before served : List Participant)
    (participant : Participant) :
    announcements sizing before (served ++ [participant])
      = announcements sizing before served
        ++ told sizing participant ((before ++ served).count participant + 1)
          (before ++ served).length := by
  induction served generalizing before with
  | nil => simp [announcements]
  | cons first rest induction =>
    rw [List.cons_append, announcements, induction, announcements, List.append_assoc,
      List.append_assoc, List.singleton_append]

/-- Is the event a report that the participant took more pools than it was sized for? -/
def warnsOf (participant : Participant) : Event → Bool
  | .oversubscribed other _ _ => other = participant
  | .merging .. | .deleting .. | .trimming .. | .splitting .. | .clearing .. | .exhausted ..
  | .spilled .. | .retiring .. | .claimed .. => false

/-- A claim is reported as one too many when its participant has had the expected ones. -/
theorem countP_told (sizing : Sizing) (participant other : Participant) (sets position : Nat) :
    (told sizing other sets position).countP (warnsOf participant)
      = if other = participant ∧ sizing.setsPerParticipant.toNat < sets then 1 else 0 := by
  unfold told
  by_cases same : other = participant <;>
    by_cases more : sizing.setsPerParticipant.toNat < sets <;> simp [warnsOf, same, more]

/-- A participant is reported once for each of its pools behind the expected ones. -/
theorem countP_announcements (sizing : Sizing) (served : List Participant)
    (participant : Participant) :
    (announcements sizing [] served).countP (warnsOf participant)
      = served.count participant - sizing.setsPerParticipant.toNat := by
  induction served using List.reverseRecOn with
  | nil => simp [announcements]
  | append_singleton served last induction =>
    rw [announcements_concat, List.countP_append, induction, countP_told, List.nil_append,
      List.count_append]
    by_cases same : last = participant
    · subst same
      rw [List.count_singleton_self]
      simp only [true_and]
      split <;> omega
    · rw [if_neg fun both => same both.1, List.count_singleton, beq_false_of_ne same]
      rfl

/-! ## The run -/

/-- No participant is due more pools than 32 bits can count. -/
def Fits (sizing : Sizing) (calls : List Participant) : Prop :=
  ∀ participant, (admitted sizing calls).count participant < Arithmetic.halfLimit

/-- What fits in the end has fitted before. -/
theorem Fits.init {sizing : Sizing} {calls : List Participant} {last : Participant}
    (fits : Fits sizing (calls ++ [last])) : Fits sizing calls := by
  intro participant
  have most := fits participant
  rw [admitted_concat] at most
  split at most
  · rw [List.count_append] at most
    omega
  · exact most

/-- A run of fewer than 2 ^ 32 claims fits. -/
theorem fits_of_length_lt (sizing : Sizing) {calls : List Participant}
    (few : calls.length < Arithmetic.halfLimit) : Fits sizing calls := by
  intro participant
  have sublist : (admitted sizing calls).Sublist calls :=
    (List.take_sublist _ _).trans List.filter_sublist
  exact (List.count_le_length.trans sublist.length_le).trans_lt few

/-- A run that has gone as the sizing says. -/
structure Recorded (start : Registry) (calls : List Participant) : Prop where
  /-- The sizing has stayed. -/
  sizing_eq : (after claim calls start).sizing = start.sizing
  /-- The registry records what was due. -/
  records : (after claim calls start).Records (admitted start.sizing calls)
  /-- What was due was answered with a pool. -/
  answered_eq : answered calls start = admitted start.sizing calls
  /-- It was reported. -/
  events_eq : events claim calls start
    = announcements start.sizing [] (admitted start.sizing calls)

section Run

variable {start : Registry} {calls : List Participant} {participant : Participant}

/-- A claim that changes and reports nothing and hands out no pool can end a run that has gone as
the sizing says, if it was due no pool. -/
theorem Recorded.concat_refused (recorded : Recorded start calls)
    (undue : ¬ (start.sizing.Serves participant
      ∧ (admitted start.sizing calls).length < start.sizing.budget))
    {refusal : Refusal}
    (refused : (claim participant).Yields (after claim calls start) (.error refusal)
      (after claim calls start) []) :
    Recorded start (calls ++ [participant]) := by
  have same : admitted start.sizing (calls ++ [participant]) = admitted start.sizing calls := by
    rw [admitted_concat, if_neg undue]
  have stays : after claim (calls ++ [participant]) start = after claim calls start := by
    rw [after_append, after_cons, after_nil, refused.state_eq]
  refine ⟨?_, ?_, ?_, ?_⟩
  · rw [stays, recorded.sizing_eq]
  · rw [stays, same]
    exact recorded.records
  · have none : handsOut ((claim participant).run (after claim calls start)) = false := by
      rw [handsOut, refused.answer_eq]
    rw [answered_concat, none, same, recorded.answered_eq]
    exact List.append_nil _
  · rw [events_append, events_cons, congrArg Outcome.events refused, same, recorded.events_eq]
    exact List.append_nil _

/-- A claim that is due a pool which can be counted ends such a run as well. -/
theorem Recorded.concat_served (recorded : Recorded start calls)
    (due : start.sizing.Serves participant
      ∧ (admitted start.sizing calls).length < start.sizing.budget)
    (room : (admitted start.sizing calls).count participant + 1 < Arithmetic.halfLimit) :
    Recorded start (calls ++ [participant]) := by
  obtain ⟨serves, left⟩ := due
  have more : admitted start.sizing (calls ++ [participant])
      = admitted start.sizing calls ++ [participant] := by
    rw [admitted_concat, if_pos ⟨serves, left⟩]
  rw [← recorded.sizing_eq] at serves
  have below : (after claim calls start).claimed < (after claim calls start).capacity := by
    rw [capacity, recorded.sizing_eq, recorded.records.claimed_eq]
    exact left
  obtain ⟨last, yields, tabulates, claimed, sizing⟩ :=
    recorded.records.tabulates.claim_yields serves below room
  have moves : after claim (calls ++ [participant]) start = last := by
    rw [after_append, after_cons, after_nil, yields.state_eq]
  refine ⟨?_, ?_, ?_, ?_⟩
  · rw [moves, sizing, recorded.sizing_eq]
  · rw [moves, more]
    refine ⟨?_, tabulates⟩
    rw [claimed, recorded.records.claimed_eq, List.length_append, List.length_singleton]
  · have some : handsOut ((claim participant).run (after claim calls start)) = true := by
      rw [handsOut, yields.answer_eq]
    rw [answered_concat, some, more, recorded.answered_eq, if_pos rfl]
  · rw [events_append, events_cons, congrArg Outcome.events yields, more, announcements_concat,
      recorded.events_eq, recorded.sizing_eq, recorded.records.claimed_eq, List.nil_append]
    exact congrArg _ (List.append_nil _)

/-- A run of claims that fit goes as the sizing says. -/
theorem IsFresh.recorded (fresh : start.IsFresh) (calls : List Participant)
    (fits : Fits start.sizing calls) : Recorded start calls := by
  -- Induction on the claims from the last one, since what a claim is due depends on those before.
  induction calls using List.reverseRecOn with
  | nil =>
    have due : admitted start.sizing [] = [] := List.take_nil
    refine ⟨rfl, ?_, ?_, ?_⟩
    · rw [due]
      exact fresh.records
    · rw [due]
      rfl
    · rw [due]
      rfl
  | append_singleton calls last induction =>
    have recorded := induction fits.init
    by_cases serves : start.sizing.Serves last
    · by_cases left : (admitted start.sizing calls).length < start.sizing.budget
      · have most := fits last
        rw [admitted_concat, if_pos ⟨serves, left⟩, List.count_append,
          List.count_singleton_self] at most
        exact recorded.concat_served ⟨serves, left⟩ most
      · refine recorded.concat_refused (fun due => left due.2) (claim_exhausted ?_ ?_)
        · rw [recorded.sizing_eq]
          exact serves
        · rw [capacity, recorded.sizing_eq, recorded.records.claimed_eq]
          exact Nat.not_lt.mp left
    · refine recorded.concat_refused (fun due => serves due.1) (claim_unknown ?_)
      rw [recorded.sizing_eq]
      exact serves

end Run

/-! ## What the registry shows -/

/-- What a registry shows when the claims in `served` were answered with a pool. -/
structure Shows (registry : Registry) (served : List Participant) : Prop where
  /-- The total is the number of those claims. -/
  claimed_eq : registry.claimed = served.length
  /-- It is also the sum of what all participants took. -/
  sum_eq : ∑ number : UInt32, registry.claimsOf ⟨number⟩ = registry.claimed
  /-- The budget is the product of the two numbers of the sizing. -/
  capacity_eq : registry.capacity
    = registry.sizing.maxParticipants.toNat * registry.sizing.setsPerParticipant.toNat
  /-- No more pools are handed out than there are. -/
  claimed_le : registry.claimed ≤ registry.capacity
  /-- What is left is the rest of the budget. -/
  remaining_eq : registry.remaining = .ok (registry.capacity - registry.claimed)
  /-- A participant counts as often as it was handed a pool. -/
  claimsOf_eq : ∀ participant, registry.claimsOf participant = served.count participant
  /-- The participants stand in the order in which they were first handed a pool. -/
  participants_eq : registry.participants = served.eraseDups
  /-- None of them is listed twice. -/
  participants_nodup : registry.participants.Nodup
  /-- They are those that took a pool. -/
  mem_participants_iff : ∀ participant,
    participant ∈ registry.participants ↔ 0 < registry.claimsOf participant

/-- How a registry answers a claim when `served` have been handed a pool. -/
structure Answers (registry : Registry) (served : List Participant) (participant : Participant) :
    Prop where
  /-- A participant that is not served is turned away, whatever is left of the budget. -/
  unknown_iff : ((claim participant).run registry).answer
        = .ok (.error (.unknownParticipant participant registry.sizing.maxParticipants))
      ↔ registry.sizing.maxParticipants ≤ participant.number
  /-- One that is served is turned away when the budget is used up. -/
  exhausted_iff : ((claim participant).run registry).answer
        = .ok (.error (.exhausted registry.capacity))
      ↔ participant.number < registry.sizing.maxParticipants ∧ served.length = registry.capacity
  /-- Otherwise it is handed an unused pool with the slots of the sizing. -/
  pool_of_ne : participant.number < registry.sizing.maxParticipants →
    served.length ≠ registry.capacity →
      ((claim participant).run registry).answer
        = .ok (.ok (.ofSlots registry.sizing.poolSlots.toNat))
  /-- A claim that is turned away changes and reports nothing. -/
  unchanged : ∀ refusal, ((claim participant).run registry).answer = .ok (.error refusal) →
    ((claim participant).run registry).state = registry
      ∧ ((claim participant).run registry).events = []

/-- Whichever of these answers it is, the claim meets no fault. -/
theorem Answers.ends_well {registry : Registry} {served : List Participant}
    {participant : Participant} (answers : registry.Answers served participant) :
    ∃ answer, ((claim participant).run registry).answer = .ok answer := by
  by_cases beyond : registry.sizing.maxParticipants ≤ participant.number
  · exact ⟨_, answers.unknown_iff.mpr beyond⟩
  · by_cases full : served.length = registry.capacity
    · exact ⟨_, answers.exhausted_iff.mpr ⟨UInt32.not_le.mp beyond, full⟩⟩
    · exact ⟨_, answers.pool_of_ne (UInt32.not_le.mp beyond) full⟩

/-- Each claim is one participant's. -/
theorem sum_count (served : List Participant) :
    ∑ number : UInt32, served.count ⟨number⟩ = served.length := by
  have injective : Function.Injective Participant.number := by
    rintro ⟨first⟩ ⟨second⟩ rfl
    rfl
  have each : ∀ number : UInt32,
      served.count ⟨number⟩ = (served.map Participant.number).count number := by
    intro number
    rw [← List.count_map_of_injective served Participant.number injective]
  calc ∑ number : UInt32, served.count ⟨number⟩
      = ∑ number : UInt32, (served.map Participant.number : Multiset UInt32).count number :=
        Finset.sum_congr rfl fun number _ => (each number).trans (Multiset.coe_count number _).symm
    _ = (served.map Participant.number).length :=
        Multiset.sum_count_eq_card fun number _ => Finset.mem_univ number
    _ = served.length := List.length_map _

/-- A registry that records claims within its budget shows them. -/
theorem Records.shows {registry : Registry} {served : List Participant}
    (records : registry.Records served) (within : served.length ≤ registry.capacity) :
    registry.Shows served where
  claimed_eq := records.claimed_eq
  sum_eq := by
    simp only [records.tabulates.claimsOf_eq]
    rw [sum_count, records.claimed_eq]
  capacity_eq := registry.sizing.budget_eq
  claimed_le := records.claimed_eq.le.trans within
  remaining_eq := Arithmetic.sub_eq_ok_iff.mpr ⟨records.claimed_eq.le.trans within, rfl⟩
  claimsOf_eq := records.tabulates.claimsOf_eq
  participants_eq := records.tabulates.participants_eq
  participants_nodup := by
    rw [records.tabulates.participants_eq]
    exact nodup_eraseDups served
  mem_participants_iff := by
    intro participant
    rw [records.tabulates.participants_eq, records.tabulates.claimsOf_eq, List.mem_eraseDups,
      List.count_pos_iff]

/-- A registry that records claims within its budget answers the next one as it should, if that can
be counted. -/
theorem Records.answers {registry : Registry} {served : List Participant}
    (records : registry.Records served) (within : served.length ≤ registry.capacity)
    {participant : Participant}
    (room : registry.sizing.Serves participant → served.length < registry.capacity →
      served.count participant + 1 < Arithmetic.halfLimit) :
    registry.Answers served participant := by
  by_cases serves : registry.sizing.Serves participant
  · have known : ¬ registry.sizing.maxParticipants ≤ participant.number := UInt32.not_le.mpr serves
    by_cases left : served.length < registry.capacity
    · have below : registry.claimed < registry.capacity := by
        rw [records.claimed_eq]
        exact left
      obtain ⟨last, yields, -⟩ := records.tabulates.claim_yields serves below (room serves left)
      refine ⟨?_, ?_, fun _ _ => yields.answer_eq, ?_⟩
      · simp [yields.answer_eq, known]
      · simp [yields.answer_eq, left.ne]
      · intro refusal refused
        rw [yields.answer_eq] at refused
        cases refused
    · have full : served.length = registry.capacity := within.antisymm (Nat.not_lt.mp left)
      have refused := claim_exhausted serves (by rw [records.claimed_eq, full])
      refine ⟨?_, ?_, fun _ differs => absurd full differs, fun _ _ => ?_⟩
      · simp [refused.answer_eq, known]
      · simp only [refused.answer_eq, true_iff]
        exact ⟨serves, full⟩
      · exact ⟨refused.state_eq, congrArg Outcome.events refused⟩
  · have refused := claim_unknown serves
    have beyond : registry.sizing.maxParticipants ≤ participant.number := UInt32.not_lt.mp serves
    refine ⟨?_, ?_, fun inside => absurd inside serves, fun _ _ => ?_⟩
    · simp [refused.answer_eq, beyond]
    · simp only [refused.answer_eq, Except.ok.injEq, Except.error.injEq, reduceCtorEq, false_iff]
      exact fun both => serves both.1
    · exact ⟨refused.state_eq, congrArg Outcome.events refused⟩

/-- No more was due than there is. -/
theorem Recorded.within {start : Registry} {calls : List Participant}
    (recorded : Recorded start calls) :
    (admitted start.sizing calls).length ≤ (after claim calls start).capacity := by
  rw [capacity, recorded.sizing_eq]
  exact length_admitted_le start.sizing calls

/-- After a run that has gone as the sizing says, so does the next claim, if it fits. -/
theorem Recorded.answers {start : Registry} {calls : List Participant} {next : Participant}
    (recorded : Recorded start calls) (fits : Fits start.sizing (calls ++ [next])) :
    (after claim calls start).Answers (admitted start.sizing calls) next := by
  refine recorded.records.answers recorded.within fun serves left => ?_
  rw [recorded.sizing_eq] at serves
  rw [capacity, recorded.sizing_eq] at left
  have most := fits next
  rw [admitted_concat, if_pos ⟨serves, left⟩, List.count_append, List.count_singleton_self] at most
  exact most

/-- After any claims on a registry that nothing was claimed from, of which no participant is due
2 ^ 32 pools or more, the registry shows exactly the claims that were answered with a pool, it
answers the next claim by the sizing and by their number, and each participant was reported once
for each of its pools behind the expected ones. -/
theorem claims_add_up {start : Registry} (fresh : start.IsFresh) (made : List Participant)
    (next : Participant) (fits : Fits start.sizing (made ++ [next])) :
    (after claim made start).sizing = start.sizing
      ∧ (after claim made start).Shows (answered made start)
      ∧ (after claim made start).Answers (answered made start) next
      ∧ ∀ participant, (events claim made start).countP (warnsOf participant)
          = (after claim made start).claimsOf participant
            - start.sizing.setsPerParticipant.toNat := by
  have recorded := fresh.recorded made fits.init
  rw [recorded.answered_eq]
  refine ⟨recorded.sizing_eq, recorded.records.shows recorded.within, recorded.answers fits, ?_⟩
  intro participant
  rw [recorded.events_eq, countP_announcements, recorded.records.tabulates.claimsOf_eq]

/-- A budget of two pools, both of which are taken by one of two participants: it is reported, and
the other one finds nothing left. -/
theorem claims_add_up_when_one_takes_all :
    let start : Registry := { sizing := { maxParticipants := 2, setsPerParticipant := 1 } }
    let made : List Participant := [⟨1⟩, ⟨7⟩, ⟨1⟩]
    let last := after claim made start
    start.IsFresh ∧ Fits start.sizing (made ++ [⟨0⟩])
      ∧ answered made start = [⟨1⟩, ⟨1⟩] ∧ last.Shows [⟨1⟩, ⟨1⟩]
      ∧ ((claim ⟨0⟩).run last).answer = .ok (.error (.exhausted 2))
      ∧ (events claim made start).countP (warnsOf ⟨1⟩) = 1 := by
  intro start made last
  have fresh : start.IsFresh := Or.inl (by decide +kernel)
  have fits : Fits start.sizing (made ++ [⟨0⟩]) :=
    fits_of_length_lt _ (by decide)
  have served : answered made start = [⟨1⟩, ⟨1⟩] := by decide +kernel
  have taken : last.claimsOf ⟨1⟩ = 2 := by decide +kernel
  obtain ⟨sizing, shows', answers, warned⟩ := claims_add_up fresh made ⟨0⟩ fits
  rw [served] at shows' answers
  have full : last.capacity = 2 := by rw [capacity, sizing]; decide +kernel
  refine ⟨fresh, fits, served, shows', ?_, ?_⟩
  · have exhausted := answers.exhausted_iff.mpr ⟨by rw [sizing]; decide, full.symm⟩
    rwa [full] at exhausted
  · rw [warned, taken]
    rfl

end Registry

end MergedSpans
