import MergedSpans.Registry.Basic
import MergedSpans.Proofs.Runs
import Mathlib.Data.List.Induction
import Mathlib.Data.List.Nodup

/-! # Claims of pools

A registry keeps a total and a table of counts. Both are determined by who was handed a pool, in
which order, so that list is all that one needs to know about a registry.

* `Sizing.Serves` — the participants of a sizing; `Sizing.budget_eq` — the budget is exact.
* `Registry.IsFresh` — the registries that claims start with.
* `Registry.Tabulates`, `Registry.Records` — the table, and the total as well, are those of some
  claims that were answered with a pool.
* `claim_unknown`, `claim_exhausted`, `Tabulates.claim_yields`, `Tabulates.claim_overflows` — the
  four ways in which a claim can end.
-/

namespace MergedSpans

/-! ## Sizes -/

namespace Sizing

/-- The participant is one of those that the sizing is for. -/
def Serves (sizing : Sizing) (participant : Participant) : Prop :=
  participant.number < sizing.maxParticipants

instance (sizing : Sizing) : DecidablePred sizing.Serves :=
  fun participant => inferInstanceAs (Decidable (participant.number < sizing.maxParticipants))

/-- The budget is the product of the two numbers: these have 32 bits, so it fits in 64. -/
theorem budget_eq (sizing : Sizing) :
    sizing.budget = sizing.maxParticipants.toNat * sizing.setsPerParticipant.toNat := by
  have participants := sizing.maxParticipants.toNat_lt
  have sets := sizing.setsPerParticipant.toNat_lt
  have product : sizing.maxParticipants.toNat * sizing.setsPerParticipant.toNat
      ≤ (2 ^ 32 - 1) * (2 ^ 32 - 1) := Nat.mul_le_mul (by omega) (by omega)
  unfold budget Arithmetic.saturatingMul Arithmetic.wordLimit
  omega

end Sizing

namespace Registry

open MergedSpans.Action

/-- A registry that nothing was claimed from: one of a usable sizing, or the default one. -/
def IsFresh (registry : Registry) : Prop :=
  ofSizing registry.sizing = .ok registry ∨ registry = default

/-- A registry that nothing was claimed from has counted nothing. -/
theorem IsFresh.eq {registry : Registry} (fresh : registry.IsFresh) :
    registry = { sizing := registry.sizing } := by
  rcases fresh with made | rfl
  · unfold ofSizing at made
    cases usable : registry.sizing.validate with
    | error error =>
      rw [usable] at made
      cases made
    | ok =>
      rw [usable] at made
      exact (Except.ok.inj made).symm
  · rfl

/-! ## The table -/

/-- The table is that of the claims in `served`: a row for each participant that was handed a
pool, in the order of the first ones, with the number of its pools. -/
def Tabulates (registry : Registry) (served : List Participant) : Prop :=
  registry.claims = served.eraseDups.map fun participant => (participant, served.count participant)

/-- The total and the table are those of the claims in `served`. -/
structure Records (registry : Registry) (served : List Participant) : Prop where
  /-- The total is the number of pools that were handed out. -/
  claimed_eq : registry.claimed = served.length
  /-- So is the table. -/
  tabulates : registry.Tabulates served

/-- A registry that nothing was claimed from records no claims. -/
theorem IsFresh.records {registry : Registry} (fresh : registry.IsFresh) : registry.Records [] := by
  rw [fresh.eq]
  exact ⟨rfl, rfl⟩

section Table

variable {registry : Registry} {served participants : List Participant} {participant : Participant}

/-- A table with one row for each of some participants is looked up by asking whether a participant
is one of them. -/
theorem lookup_map (count : Participant → Nat) (participants : List Participant)
    (participant : Participant) :
    (participants.map fun other => (other, count other)).lookup participant
      = if participant ∈ participants then some (count participant) else none := by
  induction participants with
  | nil => rfl
  | cons first rest induction =>
    rw [List.map_cons, List.lookup_cons, induction]
    by_cases same : participant = first
    · simp [same]
    · rw [beq_false_of_ne same]
      simp [same]

/-- A participant counts as often as it was handed a pool. -/
theorem Tabulates.claimsOf_eq (tabulates : registry.Tabulates served) (participant : Participant) :
    registry.claimsOf participant = served.count participant := by
  rw [claimsOf, tabulates, lookup_map fun other => served.count other]
  by_cases member : participant ∈ served
  · rw [if_pos (List.mem_eraseDups.mpr member), Option.getD_some]
  · rw [if_neg (mt List.mem_eraseDups.mp member), Option.getD_none, List.count_eq_zero.mpr member]

/-- The participants of the table are those that were handed a pool. -/
theorem Tabulates.participants_eq (tabulates : registry.Tabulates served) :
    registry.participants = served.eraseDups := by
  rw [Registry.participants, tabulates, List.map_map]
  exact List.map_id _

/-- A participant that comes again stays at the place where it came first. -/
theorem eraseDups_concat (served : List Participant) (participant : Participant) :
    (served ++ [participant]).eraseDups
      = if participant ∈ served then served.eraseDups else served.eraseDups ++ [participant] := by
  rw [List.eraseDups_append]
  by_cases member : participant ∈ served
  · simp [List.removeAll, member]
  · simp [List.removeAll, member, List.eraseDups_cons]

/-- No participant is listed twice. -/
theorem nodup_eraseDups (served : List Participant) : served.eraseDups.Nodup := by
  induction served using List.reverseRecOn with
  | nil => exact List.nodup_nil
  | append_singleton served participant induction =>
    rw [eraseDups_concat]
    split
    · exact induction
    · next absent =>
      rw [List.nodup_append]
      refine ⟨induction, List.nodup_singleton _, ?_⟩
      rintro other listed _ last rfl
      rw [List.mem_singleton.mp last] at listed
      exact absent (List.mem_eraseDups.mp listed)

/-- The table gets a row for a participant that has none; it counts nothing yet. -/
theorem Tabulates.withRow_eq (tabulates : registry.Tabulates served) (participant : Participant) :
    withRow participant registry.claims
      = (served ++ [participant]).eraseDups.map fun other => (other, served.count other) := by
  rw [withRow, tabulates, lookup_map fun other => served.count other, eraseDups_concat]
  by_cases member : participant ∈ served
  · simp [member, List.mem_eraseDups]
  · simp [member, List.mem_eraseDups, List.count_eq_zero.mpr member]

/-- In a table with a row for the participant, that row is set to one more. -/
theorem setCount_map (served participants : List Participant) (participant : Participant) :
    setCount participant (served.count participant + 1)
        (participants.map fun other => (other, served.count other))
      = participants.map fun other => (other, (served ++ [participant]).count other) := by
  rw [setCount, List.map_map]
  refine List.map_congr_left fun other _ => ?_
  by_cases same : other = participant
  · simp [same]
  · simp [same, Ne.symm same]

end Table

/-! ## One claim -/

section Claim

variable {registry : Registry} {served : List Participant} {participant : Participant}

/-- What is reported when a participant is handed its pool number `sets`, the one at `position`
among all pools. -/
def told (sizing : Sizing) (participant : Participant) (sets position : Nat) : List Event :=
  (if sizing.setsPerParticipant.toNat < sets then
    [.oversubscribed participant sets sizing.setsPerParticipant.toNat] else [])
  ++ [.claimed participant position sizing.poolSlots.toNat]

/-- The registry after a pool was handed out. -/
def counted (participant : Participant) (sets : Nat) (registry : Registry) : Registry :=
  { registry with
    claimed := registry.claimed + 1
    claims := setCount participant sets (withRow participant registry.claims) }

/-- A participant that is not served is turned away, whatever is left of the budget. -/
theorem claim_unknown (unserved : ¬ registry.sizing.Serves participant) :
    (claim participant).Yields registry
      (.error (.unknownParticipant participant registry.sizing.maxParticipants)) registry [] := by
  refine Yields.silent_bind (yields_current registry) ?_
  rw [if_pos (UInt32.not_lt.mp unserved)]
  exact yields_pure _ _

/-- A participant that is served is turned away when the budget is used up. -/
theorem claim_exhausted (serves : registry.sizing.Serves participant)
    (full : registry.capacity ≤ registry.claimed) :
    (claim participant).Yields registry (.error (.exhausted registry.capacity)) registry [] := by
  refine Yields.silent_bind (yields_current registry) ?_
  rw [if_neg (UInt32.not_le.mpr serves), if_pos full]
  exact yields_pure _ _

/-- A claim within the budget is handed a pool. -/
theorem claim_run_of_lt (serves : registry.sizing.Serves participant)
    (left : registry.claimed < registry.capacity) :
    (claim participant).run registry
      = (do let pool ← handOut participant; return .ok pool : Action Registry _).run registry := by
  refine ((yields_current registry).run_bind _).trans ?_
  rw [if_neg (UInt32.not_le.mpr serves), if_neg (Nat.not_le.mpr left)]

/-- Until it is counted, a participant counts as often as it was handed a pool before. -/
theorem Tabulates.claimsOf_withRow (tabulates : registry.Tabulates served)
    (participant : Participant) (claimed : Nat) :
    claimsOf { registry with claimed, claims := withRow participant registry.claims } participant
      = served.count participant := by
  rw [claimsOf]
  show ((withRow participant registry.claims).lookup participant).getD 0 = _
  rw [tabulates.withRow_eq, lookup_map fun other => served.count other,
    if_pos (List.mem_eraseDups.mpr (by simp)), Option.getD_some]

/-- A claim that fits in 32 bits is counted. -/
theorem Tabulates.count_yields (tabulates : registry.Tabulates served)
    (room : served.count participant + 1 < Arithmetic.halfLimit) :
    (count participant).Yields registry (served.count participant + 1)
      (counted participant (served.count participant + 1) registry) [] := by
  have fits : Arithmetic.addBelow Arithmetic.halfLimit (served.count participant) 1
      = .ok (served.count participant + 1) := if_pos room
  rw [← tabulates.claimsOf_withRow participant (registry.claimed + 1)] at fits
  refine Yields.silent_bind (yields_update rfl) ?_
  refine Yields.silent_bind (yields_read fits) ?_
  rw [tabulates.claimsOf_withRow]
  exact Yields.silent_bind (yields_update rfl) (yields_pure _ _)

theorem noteOversubscribed_yields (registry : Registry) (participant : Participant) (sets : Nat) :
    (noteOversubscribed participant sets).Yields registry () registry
      (if registry.sizing.setsPerParticipant.toNat < sets then
        [.oversubscribed participant sets registry.sizing.setsPerParticipant.toNat] else []) := by
  refine Yields.silent_bind (yields_current registry) ?_
  by_cases more : registry.sizing.setsPerParticipant.toNat < sets
  · simp only [if_pos more]
    exact yields_emit _ _
  · simp only [if_neg more]
    exact yields_pure _ _

/-- A claim within the budget that fits in 32 bits is answered with an unused pool, is counted, and
is reported. -/
theorem Tabulates.claim_yields (tabulates : registry.Tabulates served)
    (serves : registry.sizing.Serves participant) (left : registry.claimed < registry.capacity)
    (room : served.count participant + 1 < Arithmetic.halfLimit) :
    ∃ after, (claim participant).Yields registry
        (.ok (.ofSlots registry.sizing.poolSlots.toNat)) after
        (told registry.sizing participant (served.count participant + 1) registry.claimed)
      ∧ after.Tabulates (served ++ [participant]) ∧ after.claimed = registry.claimed + 1
      ∧ after.sizing = registry.sizing := by
  refine ⟨counted participant (served.count participant + 1) registry, ?_, ?_, rfl, rfl⟩
  · refine Yields.of_run_eq (claim_run_of_lt serves left) ?_
    rw [← List.append_nil (told _ _ _ _)]
    refine Yields.bind ?_ (yields_pure _ _)
    refine Yields.silent_bind (yields_current registry) ?_
    refine Yields.silent_bind (tabulates.count_yields room) ?_
    refine Yields.bind (noteOversubscribed_yields _ _ _) ?_
    exact Yields.bind (yields_emit _ _) (yields_pure _ _)
  · show setCount participant _ (withRow participant registry.claims) = _
    rw [tabulates.withRow_eq, setCount_map]

/-- A claim within the budget that would be the participant's number 2 ^ 32 meets a fault, and has
moved the total by then. -/
theorem Tabulates.claim_overflows (tabulates : registry.Tabulates served)
    (serves : registry.sizing.Serves participant) (left : registry.claimed < registry.capacity)
    (full : Arithmetic.halfLimit ≤ served.count participant + 1) :
    (claim participant).run registry
      = ⟨.error (.overflow .add), { registry with claimed := registry.claimed + 1 }, []⟩ := by
  have member : participant ∈ served := by
    refine List.count_pos_iff.mp ?_
    unfold Arithmetic.halfLimit at full
    omega
  have listed : withRow participant registry.claims = registry.claims := by
    rw [tabulates.withRow_eq, eraseDups_concat, if_pos member, tabulates]
  have refused : Arithmetic.addBelow Arithmetic.halfLimit (served.count participant) 1
      = .error (.overflow .add) := if_neg (Nat.not_lt.mpr full)
  have stops : (count participant).run registry
      = ⟨.error (.overflow .add), { registry with claimed := registry.claimed + 1 }, []⟩ := by
    refine (Yields.run_bind (yields_update rfl) _).trans ?_
    have refuses : (Action.read fun registry : Registry =>
        Arithmetic.addBelow Arithmetic.halfLimit (registry.claimsOf participant) 1).Refuses
        { registry with
          claimed := registry.claimed + 1
          claims := withRow participant registry.claims } (.overflow .add) := by
      apply refuses_read
      rw [tabulates.claimsOf_withRow, refused]
    refine Refuses.bind refuses |>.trans ?_
    rw [listed]
    rfl
  rw [claim_run_of_lt serves left, run_bind, handOut, run_bind, run_current, Outcome.done_andThen,
    run_bind, stops]
  rfl

end Claim

end Registry

end MergedSpans
