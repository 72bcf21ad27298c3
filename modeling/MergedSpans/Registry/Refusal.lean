import MergedSpans.Participant

/-! # Refused claims

Why a registry hands out no pool.
-/

namespace MergedSpans

/-- Why a registry hands out no pool. -/
inductive Refusal where
  /-- All pools are handed out. -/
  | exhausted (capacity : Nat)
  /-- The registry does not serve the participant. -/
  | unknownParticipant (participant : Participant) (maxParticipants : UInt32)
  deriving DecidableEq

namespace Refusal

/-- The error in messages. -/
def message : Refusal → String
  | exhausted capacity =>
    "pool registry exhausted: all " ++ Text.decimal capacity ++ " pools claimed"
  | unknownParticipant participant maxParticipants =>
    "participant " ++ participant.text ++ " is outside the configured limit of "
      ++ Text.decimal maxParticipants.toNat

/-- The error in diagnostics. -/
def debugText : Refusal → String
  | exhausted capacity => Text.record "Exhausted" [("capacity", Text.decimal capacity)]
  | unknownParticipant participant maxParticipants =>
    Text.record "UnknownParticipant"
      [("participant", participant.debugText),
        ("max_participants", Text.decimal maxParticipants.toNat)]

end Refusal

end MergedSpans
