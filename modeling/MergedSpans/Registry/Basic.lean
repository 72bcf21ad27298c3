import MergedSpans.Registry.Sizing
import MergedSpans.Registry.Refusal
import MergedSpans.Store.Pool

/-! # The registry of pools

A registry hands out pools against a fixed budget and keeps count of who took how many. A pool
that is no longer used is not given back.

* `Registry` — the sizing and the counts.
* `Registry.ofSizing` — a registry of a checked sizing.
* `Registry.claim` — hand out the next pool.
-/

namespace MergedSpans

/-- A pool with the slots that a sizing gives it. -/
def Pool.ofSizing (sizing : Sizing) : Pool := .ofSlots sizing.poolSlots.toNat

/-- A budget of pools. -/
structure Registry where
  /-- The sizing. -/
  sizing : Sizing
  /-- The number of pools handed out. -/
  claimed : Nat := 0
  /-- The number of pools that each participant took, in the order of their first claims. -/
  claims : List (Participant × Nat) := []
  deriving DecidableEq

namespace Registry

/-- The registry of the default sizing. -/
instance : Inhabited Registry := ⟨{ sizing := default }⟩

/-- A registry of a sizing, if that is usable. -/
def ofSizing (sizing : Sizing) : Except SizingError Registry := do
  sizing.validate
  return { sizing }

/-- The number of pools in the budget. -/
def capacity (registry : Registry) : Nat := registry.sizing.budget

/-- The number of pools still to be handed out. -/
def remaining (registry : Registry) : Except Fault Nat :=
  Arithmetic.sub registry.capacity registry.claimed

/-- The number of pools that a participant took. -/
def claimsOf (registry : Registry) (participant : Participant) : Nat :=
  (registry.claims.lookup participant).getD 0

/-- The participants that took a pool, in the order of their first claims. -/
def participants (registry : Registry) : List Participant := registry.claims.map Prod.fst

/-- The counts with a row for a participant; a new row is the last and counts nothing. -/
def withRow (participant : Participant) (claims : List (Participant × Nat)) :
    List (Participant × Nat) :=
  if (claims.lookup participant).isSome then claims else claims ++ [(participant, 0)]

/-- The counts with one participant's count replaced. -/
def setCount (participant : Participant) (count : Nat) (claims : List (Participant × Nat)) :
    List (Participant × Nat) :=
  claims.map fun row => if row.1 = participant then (participant, count) else row

/-- Count a claim. The total moves before the participant's own count, which has only 32 bits. -/
def count (participant : Participant) : Action Registry Nat := do
  Action.update fun registry =>
    { registry with
      claimed := registry.claimed + 1
      claims := withRow participant registry.claims }
  let sets ← Action.read fun registry =>
    Arithmetic.addBelow Arithmetic.halfLimit (registry.claimsOf participant) 1
  Action.update fun registry =>
    { registry with claims := setCount participant sets registry.claims }
  return sets

/-- Report a claim that a participant was not sized for. -/
def noteOversubscribed (participant : Participant) (sets : Nat) : Action Registry Unit := do
  let registry ← Action.current
  let expected := registry.sizing.setsPerParticipant.toNat
  if expected < sets then Action.emit (.oversubscribed participant sets expected) else pure ()

/-- Hand out the next pool to a participant. One that takes more pools than it was sized for is
served and reported. -/
def handOut (participant : Participant) : Action Registry Pool := do
  let registry ← Action.current
  let sets ← count participant
  noteOversubscribed participant sets
  Action.emit (.claimed participant registry.claimed registry.sizing.poolSlots.toNat)
  return .ofSizing registry.sizing

/-- Hand out a pool to a participant that the registry serves, while the budget lasts. -/
def claim (participant : Participant) : Action Registry (Except Refusal Pool) := do
  let registry ← Action.current
  if registry.sizing.maxParticipants ≤ participant.number then
    return .error (.unknownParticipant participant registry.sizing.maxParticipants)
  else if registry.capacity ≤ registry.claimed then
    return .error (.exhausted registry.capacity)
  else do
    let pool ← handOut participant
    return .ok pool

end Registry

end MergedSpans
