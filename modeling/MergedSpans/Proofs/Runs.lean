import MergedSpans.Action
import Mathlib.Order.Defs.Unbundled

/-! # Runs of actions

Ways to speak about what actions do, from one action to many.

* `Action.Yields` — an action that ends well, with all that it leaves behind; such actions are
  put together by `Yields.bind`.
* `Action.Refuses` — an action that meets a fault before it has done anything.
* `Action.Moves` — a relation between the states before and after, which holds however the
  action ends; `Action.Keeps` is the one for a measure that stays as it is, and `Action.Ascends`
  the one for a measure that never goes down.
* `Action.outcomes`, `Action.after`, `Action.events` — calls made one after another, where a fault
  ends its call and not the run. Calls that are refused can be left out (`outcomes_filter`,
  `after_filter`, `events_filter`).
-/

namespace MergedSpans

namespace Action

variable {σ τ α β ι : Type}

/-! ## Actions that end well -/

/-- The action ends well on `state`: it answers `value`, leaves `after` and reports `events`. -/
def Yields (action : Action σ α) (state : σ) (value : α) (after : σ) (events : List Event) : Prop :=
  action.run state = ⟨.ok value, after, events⟩

/-- An action that runs as another one does ends well where that one does. -/
theorem Yields.of_run_eq {action other : Action σ α} {state after : σ} {value : α}
    {events : List Event} (same : action.run state = other.run state)
    (yields : other.Yields state value after events) :
    action.Yields state value after events := same.trans yields

theorem Yields.answer_eq {action : Action σ α} {state after : σ} {value : α} {events : List Event}
    (yields : action.Yields state value after events) : (action.run state).answer = .ok value :=
  congrArg Outcome.answer yields

theorem Yields.state_eq {action : Action σ α} {state after : σ} {value : α} {events : List Event}
    (yields : action.Yields state value after events) : (action.run state).state = after :=
  congrArg Outcome.state yields

/-- An action that ends well does so in one way only. -/
theorem Yields.unique {action : Action σ α} {state after other : σ} {value same : α}
    {events more : List Event} (yields : action.Yields state value after events)
    (yieldsSame : action.Yields state same other more) :
    value = same ∧ after = other ∧ events = more :=
  have outcomes := yields.symm.trans yieldsSame
  ⟨Except.ok.inj (congrArg Outcome.answer outcomes), congrArg Outcome.state outcomes,
    congrArg Outcome.events outcomes⟩

/-- Two actions in a row end well when both do; the events of the first come first. -/
theorem Yields.bind {action : Action σ α} {next : α → Action σ β} {state between after : σ}
    {value : α} {result : β} {events more : List Event}
    (first : action.Yields state value between events)
    (second : (next value).Yields between result after more) :
    (action >>= next).Yields state result after (events ++ more) := by
  unfold Yields at *
  rw [run_bind, first, Outcome.andThen_of_ok, second]

/-- After a silent action only the events of the second are left. -/
theorem Yields.silent_bind {action : Action σ α} {next : α → Action σ β} {state between after : σ}
    {value : α} {result : β} {events : List Event}
    (first : action.Yields state value between [])
    (second : (next value).Yields between result after events) :
    (action >>= next).Yields state result after events := first.bind second

/-- Two actions in a row that end well in silence each do so. -/
theorem Yields.of_bind {action : Action σ α} {next : α → Action σ β} {state after : σ}
    {result : β} (yields : (action >>= next).Yields state result after []) :
    ∃ value between, action.Yields state value between []
      ∧ (next value).Yields between result after [] := by
  unfold Yields at yields
  rw [run_bind] at yields
  rcases first : action.run state with ⟨fault | value, between, events⟩
  · rw [first] at yields
    cases congrArg Outcome.answer yields
  · rw [first, Outcome.andThen_of_ok] at yields
    have none : events = [] := (List.append_eq_nil_iff.mp (congrArg Outcome.events yields)).1
    rw [none, List.nil_append] at yields
    exact ⟨value, between, none ▸ first, yields⟩

/-- A silent action that ends well can be skipped. -/
theorem Yields.run_bind {action : Action σ α} {state between : σ} {value : α}
    (first : action.Yields state value between []) (next : α → Action σ β) :
    (action >>= next).run state = (next value).run between := by
  unfold Yields at first
  rw [Action.run_bind, first]
  rfl

/-- After an action that ends well the next one decides where the two of them end. -/
theorem Yields.state_bind {action : Action σ α} {state between : σ} {value : α}
    {events : List Event} (first : action.Yields state value between events)
    (next : α → Action σ β) :
    ((action >>= next).run state).state = ((next value).run between).state := by
  unfold Yields at first
  rw [Action.run_bind, first]
  rfl

theorem yields_pure (value : α) (state : σ) :
    (pure value : Action σ α).Yields state value state [] := rfl

theorem yields_current (state : σ) : (current : Action σ σ).Yields state state state [] := rfl

theorem yields_update {change : σ → σ} {state after : σ} (changed : change state = after) :
    (update change).Yields state () after [] := by
  unfold Yields
  rw [run_update, changed]
  rfl

theorem yields_emit (event : Event) (state : σ) :
    (emit event : Action σ Unit).Yields state () state [event] := rfl

theorem yields_read {question : σ → Except Fault α} {state : σ} {value : α}
    (answered : question state = .ok value) : (read question).Yields state value state [] := by
  unfold Yields
  rw [run_read, answered]
  rfl

theorem yields_ofExcept {answer : Except Fault α} {value : α} (answered : answer = .ok value)
    (state : σ) : (ofExcept answer : Action σ α).Yields state value state [] := by
  unfold Yields
  rw [answered]
  rfl

/-- An action on a part of the state ends well when it does so on that part. -/
theorem Yields.within {part : σ → τ} {replace : σ → τ → σ} {action : Action τ α} {state : σ}
    {value : α} {after : τ} {events : List Event}
    (ends : action.Yields (part state) value after events) :
    (within part replace action).Yields state value (replace state after) events := by
  unfold Yields at *
  rw [run_within, ends]
  rfl

/-- Actions in silence, one for each member of a list and then for each one of another list. -/
theorem Yields.forM_append {action : ι → Action σ Unit} {items more : List ι}
    {state between after : σ} (first : (items.forM action).Yields state () between [])
    (second : (more.forM action).Yields between () after []) :
    ((items ++ more).forM action).Yields state () after [] := by
  rw [List.forM_eq_forM, List.forM_append]
  exact first.silent_bind second

/-- Actions taken on parts of a state, one for each member of a list, do together to the whole what
they do together to the part. -/
theorem Yields.forM_place {inner : ι → Action τ Unit} {outer : ι → Action σ Unit} (place : τ → σ)
    {items : List ι}
    (each : ∀ item ∈ items, ∀ part after, (inner item).Yields part () after [] →
      (outer item).Yields (place part) () (place after) [])
    {part after : τ} (yields : (items.forM inner).Yields part () after []) :
    (items.forM outer).Yields (place part) () (place after) [] := by
  induction items generalizing part with
  | nil =>
    obtain rfl : part = after := yields.state_eq
    exact yields_pure _ _
  | cons item rest induction =>
    obtain ⟨_, between, first, others⟩ := yields.of_bind
    have placed := each item List.mem_cons_self part between first
    exact placed.silent_bind
      (induction (fun other member => each other (List.mem_cons_of_mem item member)) others)

/-- An action whose value is only put into another form changes and reports the same. -/
theorem run_bind_pure (action : Action σ α) (form : α → β) (state : σ) :
    (action >>= fun value => pure (form value)).run state
      = ⟨(action.run state).answer.map form, (action.run state).state,
          (action.run state).events⟩ := by
  rw [run_bind]
  rcases action.run state with ⟨fault | value, after, events⟩
  · rfl
  · rw [Outcome.andThen_of_ok, run_pure, Outcome.done, List.append_nil]
    rfl

/-! ## Actions that are refused -/

/-- The action meets a fault on `state` before it has changed or reported anything. -/
def Refuses (action : Action σ α) (state : σ) (fault : Fault) : Prop :=
  action.run state = Outcome.failed fault state

/-- Actions in a row are refused when the first of them is. -/
theorem Refuses.bind {action : Action σ α} {next : α → Action σ β} {state : σ} {fault : Fault}
    (refuses : action.Refuses state fault) : (action >>= next).Refuses state fault := by
  unfold Refuses at *
  rw [run_bind, refuses, Outcome.failed_andThen]

/-- An action that is refused has not changed anything. -/
theorem Refuses.state_eq {action : Action σ α} {state : σ} {fault : Fault}
    (refuses : action.Refuses state fault) : (action.run state).state = state :=
  congrArg Outcome.state refuses

theorem refuses_ofExcept {answer : Except Fault α} {fault : Fault}
    (refused : answer = .error fault) (state : σ) :
    (ofExcept answer : Action σ α).Refuses state fault := by
  unfold Refuses
  rw [refused]
  rfl

theorem refuses_read {question : σ → Except Fault α} {state : σ} {fault : Fault}
    (refused : question state = .error fault) : (read question).Refuses state fault := by
  unfold Refuses
  rw [run_read, refused]
  rfl

/-- An action on a part of the state is refused when it is so on that part. -/
theorem Refuses.within {part : σ → τ} {replace : σ → τ → σ} {action : Action τ α} {state : σ}
    {fault : Fault} (refuses : action.Refuses (part state) fault)
    (unchanged : replace state (part state) = state) :
    (within part replace action).Refuses state fault := by
  unfold Refuses at *
  rw [run_within, refuses, Outcome.mapState_failed, unchanged]

/-! ## Relations between the states before and after -/

/-- The action leads every state to one that `relation` relates to it, also when it ends with a
fault. -/
def Moves (relation : σ → σ → Prop) (action : Action σ α) : Prop :=
  ∀ state, relation state (action.run state).state

section Moves

variable {relation : σ → σ → Prop}

/-- Two actions in a row move along a transitive relation when both do. -/
theorem Moves.bind [IsTrans σ relation] {action : Action σ α} {next : α → Action σ β}
    (first : action.Moves relation) (second : ∀ value, (next value).Moves relation) :
    (action >>= next).Moves relation := by
  intro state
  have moved := first state
  rw [run_bind]
  -- A fault in the first ends the two of them where the first ends.
  rcases outcome : action.run state with ⟨fault | value, between, events⟩
  · rwa [outcome] at moved
  · rw [outcome] at moved
    rw [Outcome.andThen_of_ok]
    exact trans_of relation moved (second value between)

/-- Where an action ends lies on the way to where the actions after it end. -/
theorem rel_run_bind [Std.Refl relation] (action : Action σ α) {next : α → Action σ β}
    (second : ∀ value, (next value).Moves relation) (state : σ) :
    relation (action.run state).state ((action >>= next).run state).state := by
  rw [run_bind]
  rcases action.run state with ⟨fault | value, between, events⟩
  · exact refl_of relation between
  · exact second value between

/-- An action that moves along a relation moves along every larger one. -/
theorem Moves.mono {larger : σ → σ → Prop} {action : Action σ α} (moves : action.Moves relation)
    (le : ∀ before after, relation before after → larger before after) : action.Moves larger :=
  fun state => le state _ (moves state)

/-- A choice between two actions moves along a relation when both do. -/
theorem Moves.ite {condition : Prop} [Decidable condition] {first second : Action σ α}
    (left : first.Moves relation) (right : second.Moves relation) :
    (if condition then first else second).Moves relation := by
  split
  · exact left
  · exact right

theorem moves_update {change : σ → σ} (changes : ∀ state, relation state (change state)) :
    (update change).Moves relation := changes

variable [Std.Refl relation]

theorem moves_pure (value : α) : (pure value : Action σ α).Moves relation :=
  fun state => refl_of relation state

theorem moves_current : (current : Action σ σ).Moves relation := fun state => refl_of relation state

theorem moves_read (question : σ → Except Fault α) : (read question).Moves relation :=
  fun state => refl_of relation state

theorem moves_ofExcept (answer : Except Fault α) : (ofExcept answer : Action σ α).Moves relation :=
  fun state => refl_of relation state

theorem moves_fail (fault : Fault) : (fail fault : Action σ α).Moves relation :=
  fun state => refl_of relation state

theorem moves_emit (event : Event) : (emit event : Action σ Unit).Moves relation :=
  fun state => refl_of relation state

/-- An action taken for each member of a list moves along a preorder when each of them does. -/
theorem moves_forM [IsTrans σ relation] {action : ι → Action σ Unit}
    (moves : ∀ item, (action item).Moves relation) (items : List ι) :
    (items.forM action).Moves relation := by
  -- Each action starts where the one before it ended, and a fault ends them all.
  induction items with
  | nil => exact moves_pure ()
  | cons item rest induction => exact (moves item).bind fun _ => induction

end Moves

/-- An action on a part of the state moves the whole along when it moves the part. -/
theorem Moves.within {inner : τ → τ → Prop} {outer : σ → σ → Prop} {part : σ → τ}
    {replace : σ → τ → σ} {action : Action τ α} (moves : action.Moves inner)
    (lift : ∀ state after, inner (part state) after → outer state (replace state after)) :
    (within part replace action).Moves outer :=
  fun state => lift state _ (moves (part state))

/-- A measure of the state that stays as it is. -/
def Keeps (measure : σ → τ) (before after : σ) : Prop := measure after = measure before

instance (measure : σ → τ) : Std.Refl (Keeps measure) := ⟨fun _ => rfl⟩

instance (measure : σ → τ) : IsTrans σ (Keeps measure) :=
  ⟨fun _ _ _ first second => second.trans first⟩

/-- A measure of the state that does not go down. -/
def Ascends (measure : σ → Nat) (before after : σ) : Prop := measure before ≤ measure after

instance (measure : σ → Nat) : Std.Refl (Ascends measure) := ⟨fun _ => Nat.le_refl _⟩

instance (measure : σ → Nat) : IsTrans σ (Ascends measure) := ⟨fun _ _ _ => Nat.le_trans⟩

/-! ## Calls one after another -/

/-- The outcomes of calls, each made on the state that the one before it left. -/
def outcomes (perform : ι → Action σ α) : List ι → σ → List (Outcome σ α)
  | [], _ => []
  | call :: rest, state =>
    (perform call).run state :: outcomes perform rest ((perform call).run state).state

/-- The state after calls. -/
def after (perform : ι → Action σ α) (calls : List ι) (state : σ) : σ :=
  calls.foldl (fun state call => ((perform call).run state).state) state

/-- The events of calls, oldest first. -/
def events (perform : ι → Action σ α) (calls : List ι) (state : σ) : List Event :=
  (outcomes perform calls state).flatMap (·.events)

section Calls

variable {perform : ι → Action σ α}

@[simp] theorem after_nil (state : σ) : after perform [] state = state := rfl

@[simp] theorem after_cons (call : ι) (rest : List ι) (state : σ) :
    after perform (call :: rest) state = after perform rest ((perform call).run state).state := rfl

theorem after_append (calls more : List ι) (state : σ) :
    after perform (calls ++ more) state = after perform more (after perform calls state) :=
  List.foldl_append

theorem events_cons (call : ι) (rest : List ι) (state : σ) :
    events perform (call :: rest) state
      = ((perform call).run state).events
        ++ events perform rest ((perform call).run state).state := rfl

/-- Every call has its outcome. -/
@[simp] theorem length_outcomes (calls : List ι) (state : σ) :
    (outcomes perform calls state).length = calls.length := by
  induction calls generalizing state with
  | nil => rfl
  | cons call rest induction => rw [outcomes, List.length_cons, induction, List.length_cons]

/-- Calls that are made later have their outcomes behind those of the earlier ones. -/
theorem outcomes_append (calls more : List ι) (state : σ) :
    outcomes perform (calls ++ more) state
      = outcomes perform calls state ++ outcomes perform more (after perform calls state) := by
  induction calls generalizing state with
  | nil => rfl
  | cons call rest induction => rw [List.cons_append, outcomes, induction, outcomes]; rfl

theorem events_append (calls more : List ι) (state : σ) :
    events perform (calls ++ more) state
      = events perform calls state ++ events perform more (after perform calls state) := by
  rw [events, outcomes_append, List.flatMap_append, events, events]

/-- Calls that are each an action of a list, when the list of them ends well in silence: every one
is answered, and they leave behind what the list does. -/
theorem Yields.outcomes_map {κ : Type} {action : κ → Action σ Unit} {call : κ → ι} {reply : α}
    (performs : ∀ item, perform (call item) = action item >>= fun _ => pure reply)
    {items : List κ} {state last : σ} (yields : (items.forM action).Yields state () last []) :
    (∀ outcome ∈ outcomes perform (items.map call) state,
        outcome.answer = .ok reply ∧ outcome.events = [])
      ∧ after perform (items.map call) state = last := by
  induction items generalizing state with
  | nil => exact ⟨fun _ member => absurd member List.not_mem_nil, yields.state_eq⟩
  | cons item rest induction =>
    obtain ⟨_, between, first, others⟩ := yields.of_bind
    have called : (perform (call item)).Yields state reply between [] := by
      rw [performs]
      exact first.silent_bind (yields_pure _ _)
    obtain ⟨answered, left⟩ := induction others
    rw [← called.state_eq] at answered left
    refine ⟨?_, left⟩
    rw [List.map_cons, outcomes, List.forall_mem_cons]
    exact ⟨⟨called.answer_eq, congrArg Outcome.events called⟩, answered⟩

/-- Calls that each move along a preorder do so together. -/
theorem rel_after {relation : σ → σ → Prop} [Std.Refl relation] [IsTrans σ relation]
    (moves : ∀ call, (perform call).Moves relation) (calls : List ι) (state : σ) :
    relation state (after perform calls state) := by
  -- Induction on the calls, for every state that they may start on.
  induction calls generalizing state with
  | nil => exact refl_of relation state
  | cons call rest induction =>
    exact trans_of relation (moves call state) (induction _)

section Refused

variable {sound : ι → Prop} [DecidablePred sound]
  (refused : ∀ call, ¬ sound call → ∀ state, ∃ fault, (perform call).Refuses state fault)

include refused

-- In all of these a call that is left out has made no difference to the calls behind it.

/-- The outcomes of the calls that are left are what they were. -/
theorem outcomes_filter (calls : List ι) (state : σ) :
    outcomes perform (calls.filter (sound ·)) state
      = ((calls.zip (outcomes perform calls state)).filter (sound ·.1)).map Prod.snd := by
  induction calls generalizing state with
  | nil => rfl
  | cons call rest induction =>
    rw [outcomes, List.zip_cons_cons]
    by_cases kept : sound call
    · simp only [List.filter_cons, kept, decide_true, if_true, List.map_cons, outcomes, induction]
    · obtain ⟨fault, refuses⟩ := refused call kept state
      simp only [List.filter_cons, kept, decide_false, Bool.false_eq_true, if_false,
        refuses.state_eq, induction]

/-- The state at the end is what it was. -/
theorem after_filter (calls : List ι) (state : σ) :
    after perform (calls.filter (sound ·)) state = after perform calls state := by
  induction calls generalizing state with
  | nil => rfl
  | cons call rest induction =>
    by_cases kept : sound call
    · simp only [List.filter_cons, kept, decide_true, if_true, after_cons, induction]
    · obtain ⟨fault, refuses⟩ := refused call kept state
      simp only [List.filter_cons, kept, decide_false, Bool.false_eq_true, if_false, after_cons,
        refuses.state_eq, induction]

/-- The events are what they were. -/
theorem events_filter (calls : List ι) (state : σ) :
    events perform (calls.filter (sound ·)) state = events perform calls state := by
  induction calls generalizing state with
  | nil => rfl
  | cons call rest induction =>
    by_cases kept : sound call
    · simp only [List.filter_cons, kept, decide_true, if_true, events_cons, induction]
    · obtain ⟨fault, refuses⟩ := refused call kept state
      have silent : ((perform call).run state).events = [] := congrArg Outcome.events refuses
      simp only [List.filter_cons, kept, decide_false, Bool.false_eq_true, if_false, events_cons,
        refuses.state_eq, silent, List.nil_append, induction]

end Refused

end Calls

end Action

end MergedSpans
