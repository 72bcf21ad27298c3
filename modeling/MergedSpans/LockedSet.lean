import MergedSpans.Chain.Text
import MergedSpans.Chain.Update
import MergedSpans.Registry.Basic

/-! # Locked sets

A chain behind a lock. Every call takes the lock once; a fault that leaves the lock poisons the
set, because the chain may have been left half changed, and from then on no call gets through.

* `Lock`, `LockedSet` — the lock with the chain it guards, and the set around it.
* `LockedSet.locked` — any call on the chain, under the lock.
* `Section` — the lock held over several calls: `LockedSet.enter`, `Section.perform`,
  `Section.leave`, `Section.abandon`.
-/

namespace MergedSpans

/-- A lock that nobody holds. -/
inductive Lock where
  /-- The lock guards a chain. -/
  | sound (chain : Chain)
  /-- A fault has left the lock, and the chain is out of reach for good. -/
  | poisoned
  deriving DecidableEq

/-- A chain behind a lock. -/
structure LockedSet where
  /-- Whom the spans are tracked for; known without the lock. -/
  participant : Participant
  /-- The lock and the chain. -/
  lock : Lock
  deriving DecidableEq

namespace LockedSet

/-- A set without spans over a store. -/
def ofStore (participant : Participant) (store : Store) : LockedSet :=
  ⟨participant, .sound (.empty participant store)⟩

instance : Inhabited LockedSet := ⟨ofStore default default⟩

/-- A set without spans over the next pool of a registry. -/
def claim (participant : Participant) : Action Registry (Except Refusal LockedSet) := do
  let pool ← Registry.claim participant
  return pool.map fun slab => ofStore participant (.pool slab)

/-- The chain, unless the set is poisoned. -/
def unlock (set : LockedSet) : Except Fault Chain :=
  match set.lock with
  | .sound chain => .ok chain
  | .poisoned => .error (.poisoned set.participant)

/-- The set after a call has given the lock back, with the answer of the call and the chain that
it left. -/
def relock {α : Type} (set : LockedSet) (answer : Except Fault α) (chain : Chain) : LockedSet :=
  match answer with
  | .ok _ => { set with lock := .sound chain }
  | .error _ => { set with lock := .poisoned }

/-- Act on the chain under the lock. -/
def locked {α : Type} (action : Action Chain α) : Action LockedSet α := fun set =>
  match set.unlock with
  | .error fault => Outcome.failed fault set
  | .ok chain =>
    let outcome := action.run chain
    ⟨outcome.answer, set.relock outcome.answer outcome.state, outcome.events⟩

/-- Ask the chain a question under the lock. -/
def ask {α : Type} (question : Chain → Except Fault α) : Action LockedSet α :=
  locked (Action.read question)

/-- Add the addresses of a span. -/
def insert (span : Span) : Action LockedSet Unit := locked (Chain.insert span)

/-- Take the addresses of a span away. -/
def erase (span : Span) : Action LockedSet Unit := locked (Chain.erase span)

/-- Does the set share an address with a span? -/
def overlaps (span : Span) : Action LockedSet Bool := ask (·.overlaps span)

/-- The number of spans. -/
def size : Action LockedSet Nat := ask fun chain => .ok chain.length

/-- Is the set without spans? -/
def isEmpty : Action LockedSet Bool := ask fun chain => .ok chain.isEmpty

/-- Take all addresses away. -/
def clear : Action LockedSet Unit := locked Chain.clear

/-- The spans in order. -/
def spans : Action LockedSet (List Span) := ask Chain.spans

/-- The counters of the store. -/
def counters : Action LockedSet Counters := ask fun chain => .ok chain.counters

/-- The dump of the chain. -/
def text : Action LockedSet String := ask Chain.text

/-- A set in diagnostics while its chain cannot be looked at. -/
def closedText (participant : Participant) : String :=
  Text.openRecord "SpanSet" [("participant", participant.debugText)]

/-- The set in diagnostics. A poisoned lock is shown, not met. -/
def debugText (set : LockedSet) : Except Fault String :=
  match set.lock with
  | .sound chain => chain.debugText
  | .poisoned => .ok (closedText set.participant)

end LockedSet

/-! ## Sections -/

/-- A set whose lock is held. -/
structure Section where
  /-- Whom the set tracks spans for. -/
  participant : Participant
  /-- The chain under the lock. -/
  chain : Chain
  deriving DecidableEq

/-- Take the lock of a set and keep it. -/
def LockedSet.enter (set : LockedSet) : Except Fault Section := do
  let chain ← set.unlock
  return ⟨set.participant, chain⟩

namespace Section

/-- Act on the chain under the lock that is held. A fault that is met here has not left the
lock. -/
def perform {α : Type} (action : Action Chain α) : Action Section α :=
  Action.within Section.chain (fun held chain => { held with chain }) action

/-- Give the lock back. -/
def leave (held : Section) : LockedSet := ⟨held.participant, .sound held.chain⟩

/-- Give the lock back because of a fault. -/
def abandon (held : Section) : LockedSet := ⟨held.participant, .poisoned⟩

/-- The set in diagnostics while its lock is held. -/
def debugText (held : Section) : String := LockedSet.closedText held.participant

end Section

end MergedSpans
