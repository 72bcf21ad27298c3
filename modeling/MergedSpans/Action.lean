import MergedSpans.Event
import MergedSpans.Fault

/-! # Actions

An action changes a state, reports events and ends with a value or a fault. A fault takes
nothing back: the state it leaves is the one reached so far, and the events before it stand.

* `Outcome` — the answer of an action, the state it leaves and the events it reports.
* `Action` — a step from a state to an outcome, with its monad.
* `Action.read`, `Action.update`, `Action.emit` — the basic actions.
* `Action.within` — an action on a part of the state.
-/

namespace MergedSpans

/-- What an action leaves behind. -/
structure Outcome (σ α : Type) where
  /-- The value, or the fault that ended the action early. -/
  answer : Except Fault α
  /-- The state at the end, whatever the answer. -/
  state : σ
  /-- The reported events, oldest first. -/
  events : List Event

namespace Outcome

/-- The outcome of an action that ends well and in silence. -/
def done {σ α : Type} (value : α) (state : σ) : Outcome σ α := ⟨.ok value, state, []⟩

/-- The outcome of an action that meets a fault in silence. -/
def failed {σ α : Type} (fault : Fault) (state : σ) : Outcome σ α := ⟨.error fault, state, []⟩

/-- The same outcome, with the state put into its place in a larger one. -/
def mapState {σ τ α : Type} (place : σ → τ) (outcome : Outcome σ α) : Outcome τ α :=
  ⟨outcome.answer, place outcome.state, outcome.events⟩

/-- The outcome of going on with `next` after this one; a fault ends it here. -/
def andThen {σ α β : Type} (outcome : Outcome σ α) (next : α → σ → Outcome σ β) : Outcome σ β :=
  match outcome with
  | ⟨.error fault, state, events⟩ => ⟨.error fault, state, events⟩
  | ⟨.ok value, state, events⟩ =>
    match next value state with
    | ⟨answer, after, more⟩ => ⟨answer, after, events ++ more⟩

variable {σ α β γ : Type}

@[simp] theorem mapState_done {τ : Type} (place : σ → τ) (value : α) (state : σ) :
    (done value state).mapState place = done value (place state) := rfl

@[simp] theorem mapState_failed {τ : Type} (place : σ → τ) (fault : Fault) (state : σ) :
    (failed fault state : Outcome σ α).mapState place = failed fault (place state) := rfl

/-- Going on after a silent end is going on from there. -/
@[simp] theorem done_andThen (value : α) (state : σ) (next : α → σ → Outcome σ β) :
    (done value state).andThen next = next value state := rfl

/-- Going on after an event is going on from there, with the event first. -/
theorem andThen_of_ok (value : α) (state : σ) (events : List Event)
    (next : α → σ → Outcome σ β) :
    (⟨.ok value, state, events⟩ : Outcome σ α).andThen next
      = ⟨(next value state).answer, (next value state).state,
          events ++ (next value state).events⟩ := rfl

/-- A fault is where an outcome ends. -/
@[simp] theorem failed_andThen (fault : Fault) (state : σ) (next : α → σ → Outcome σ β) :
    (failed fault state).andThen next = failed fault state := rfl

/-- Going on with nothing to do changes nothing. -/
@[simp] theorem andThen_done (outcome : Outcome σ α) : outcome.andThen done = outcome := by
  obtain ⟨fault | value, state, events⟩ := outcome
  · rfl
  · simp [andThen, done]

/-- Going on twice is going on once with both. -/
theorem andThen_assoc (outcome : Outcome σ α) (next : α → σ → Outcome σ β)
    (last : β → σ → Outcome σ γ) :
    (outcome.andThen next).andThen last
      = outcome.andThen fun value state => (next value state).andThen last := by
  obtain ⟨fault | value, state, events⟩ := outcome
  · rfl
  · simp only [andThen]
    obtain ⟨fault | value, state, events⟩ := next value state
    · rfl
    · simp

end Outcome

/-- A step from a state to an outcome. -/
def Action (σ α : Type) : Type := σ → Outcome σ α

namespace Action

variable {σ τ α β : Type}

/-- Run an action on a state. -/
def run (action : Action σ α) (state : σ) : Outcome σ α := action state

instance : Monad (Action σ) where
  pure value := fun state => Outcome.done value state
  bind action next := fun state =>
    (action.run state).andThen fun value after => (next value).run after

instance : LawfulMonad (Action σ) := LawfulMonad.mk' (Action σ)
  (fun action => funext fun state => (action state).andThen_done)
  (fun value next => funext fun state => Outcome.done_andThen value state _)
  (fun action next last => funext fun state => (action state).andThen_assoc _ _)

/-- End with the answer of a computation that has no state. -/
def ofExcept (answer : Except Fault α) : Action σ α := fun state => ⟨answer, state, []⟩

/-- End with a fault. -/
def fail (fault : Fault) : Action σ α := fun state => Outcome.failed fault state

/-- The current state. -/
def current : Action σ σ := fun state => Outcome.done state state

/-- Ask the current state a question. -/
def read (question : σ → Except Fault α) : Action σ α := fun state => ⟨question state, state, []⟩

/-- Change the state. -/
def update (change : σ → σ) : Action σ Unit := fun state => Outcome.done () (change state)

/-- Report an event. -/
def emit (event : Event) : Action σ Unit := fun state => ⟨.ok (), state, [event]⟩

/-- Act on a part of the state, which `part` finds and `replace` puts back. -/
def within (part : σ → τ) (replace : σ → τ → σ) (action : Action τ α) : Action σ α :=
  fun state => (action.run (part state)).mapState (replace state)

/-! ## What the basic actions leave behind -/

@[simp] theorem run_pure (value : α) (state : σ) :
    (pure value : Action σ α).run state = Outcome.done value state := rfl

@[simp] theorem run_bind (action : Action σ α) (next : α → Action σ β) (state : σ) :
    (action >>= next).run state
      = (action.run state).andThen fun value after => (next value).run after := rfl

@[simp] theorem run_ofExcept_ok (value : α) (state : σ) :
    (ofExcept (.ok value)).run state = Outcome.done value state := rfl

@[simp] theorem run_ofExcept_error (fault : Fault) (state : σ) :
    (ofExcept (.error fault) : Action σ α).run state = Outcome.failed fault state := rfl

@[simp] theorem run_fail (fault : Fault) (state : σ) :
    (fail fault : Action σ α).run state = Outcome.failed fault state := rfl

@[simp] theorem run_current (state : σ) :
    (current : Action σ σ).run state = Outcome.done state state := rfl

@[simp] theorem run_read (question : σ → Except Fault α) (state : σ) :
    (read question).run state = (ofExcept (question state)).run state := rfl

@[simp] theorem run_update (change : σ → σ) (state : σ) :
    (update change).run state = Outcome.done () (change state) := rfl

@[simp] theorem run_emit (event : Event) (state : σ) :
    (emit event).run state = ⟨.ok (), state, [event]⟩ := rfl

@[simp] theorem run_within (part : σ → τ) (replace : σ → τ → σ) (action : Action τ α)
    (state : σ) :
    (within part replace action).run state
      = (action.run (part state)).mapState (replace state) := rfl

/-- Two actions are the same when they leave the same behind on every state. -/
@[ext] theorem ext {first second : Action σ α}
    (same : ∀ state, first.run state = second.run state) : first = second := funext same

end Action

end MergedSpans
