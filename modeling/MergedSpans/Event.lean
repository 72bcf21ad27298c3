import MergedSpans.Node
import MergedSpans.Participant

/-! # Events

What chains, pools and the registry report while they work. An event is data; `Event.render`
writes its line: the level, the message, and each part behind its name.
-/

namespace MergedSpans

/-- How much an event matters. -/
inductive Level where
  /-- Every step. -/
  | trace
  /-- What an operation did. -/
  | debug
  /-- What an operator may want to know. -/
  | info
  /-- What an operator ought to look at. -/
  | warn
  deriving DecidableEq

/-- The name of a level in an event's line. -/
def Level.text : Level → String
  | trace => "TRACE"
  | debug => "DEBUG"
  | info => "INFO"
  | warn => "WARN"

/-- Something that happened. -/
inductive Event where
  /-- Two neighbours become one. -/
  | merging (participant : Participant) (first second merged : Span)
  /-- A span leaves its chain. -/
  | deleting (participant : Participant) (span : Span)
  /-- A span loses addresses at one end. -/
  | trimming (participant : Participant) (whole kept : Span)
  /-- A span loses addresses in its middle. -/
  | splitting (participant : Participant) (whole left right : Span)
  /-- A chain loses all its spans at once. -/
  | clearing (participant : Participant) (spans : Nat)
  /-- A pool has no free slot for the first time in its life. -/
  | exhausted (capacity : Nat)
  /-- A pool serves an allocation from its overflow. -/
  | spilled (span : Span) (id : NodeId)
  /-- A slot of a pool runs out of generations. -/
  | retiring (slot : Nat)
  /-- A participant claims more pools than it was sized for. -/
  | oversubscribed (participant : Participant) (sets : Nat) (expected : Nat)
  /-- A pool is handed out. -/
  | claimed (participant : Participant) (pool slots : Nat)
  deriving DecidableEq

namespace Event

/-- How much the event matters. -/
def level : Event → Level
  | merging .. | deleting .. | trimming .. | splitting .. | clearing .. | retiring .. => .debug
  | exhausted .. | oversubscribed .. => .warn
  | spilled .. => .trace
  | claimed .. => .info

/-- What happened, in words. -/
def message : Event → String
  | merging .. => "merging spans"
  | deleting .. => "deleting span"
  | trimming .. => "trimming span"
  | splitting .. => "splitting span"
  | clearing .. => "clearing list"
  | exhausted .. => "node pool exhausted, spilling to heap"
  | spilled .. => "heap node allocated"
  | retiring .. => "pool slot generation wrapped, retiring slot"
  | oversubscribed .. => "participant claimed more pools than it was sized for"
  | claimed .. => "node pool claimed"

/-- The parts of the event, each with its name. -/
def parts : Event → List (String × String)
  | merging participant first second merged =>
    [("participant", participant.text), ("a", first.text), ("b", second.text),
      ("merged", merged.text)]
  | deleting participant span => [("participant", participant.text), ("span", span.text)]
  | trimming participant whole kept =>
    [("participant", participant.text), ("from", whole.text), ("to", kept.text)]
  | splitting participant whole left right =>
    [("participant", participant.text), ("from", whole.text), ("left", left.text),
      ("right", right.text)]
  | clearing participant spans =>
    [("participant", participant.text), ("spans", Text.decimal spans)]
  | exhausted capacity => [("capacity", Text.decimal capacity)]
  | spilled span id => [("span", span.text), ("id", id.text)]
  | retiring slot => [("slot", Text.decimal slot)]
  | oversubscribed participant sets expected =>
    [("participant", participant.text), ("sets", Text.decimal sets),
      ("expected", Text.decimal expected)]
  | claimed participant pool slots =>
    [("participant", participant.text), ("pool", Text.decimal pool),
      ("slots", Text.decimal slots)]

/-- The event's line. -/
def render (event : Event) : String :=
  event.level.text ++ " " ++ event.message
    ++ String.join (event.parts.map fun (name, text) => "; " ++ name ++ "=" ++ text)

end Event

end MergedSpans
