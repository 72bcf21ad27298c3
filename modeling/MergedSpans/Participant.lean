import MergedSpans.Text.Numeral
import MergedSpans.Text.Labelled

/-! # Participants

A participant is whoever spans are tracked for: a bare 32-bit number that names it in every
message and every budget.
-/

namespace MergedSpans

/-- The number of a participant. -/
structure Participant where
  /-- The number itself. -/
  number : UInt32
  deriving DecidableEq

namespace Participant

/-- Participant zero stands where none is named. -/
instance : Inhabited Participant := ⟨⟨0⟩⟩

/-- The participant's position in a table with one row per participant. -/
def index (participant : Participant) : Nat := participant.number.toNat

/-- Participants are ordered by their numbers. -/
instance : Ord Participant := ⟨fun first second => compare first.number second.number⟩

/-- The participant in messages: its number. -/
def text (participant : Participant) : String := Text.decimal participant.index

/-- The participant in diagnostics: its number under its type's name. -/
def debugText (participant : Participant) : String :=
  Text.wrapper "ParticipantId" participant.text

end Participant

end MergedSpans
