import MergedSpans.LockedSet
import MergedSpans.Proofs.Chain.Requests

/-! # Locked sets answer as chains do

A set behind a lock is used in turns: a call that takes the lock for itself, or a section that
holds it over several requests. As long as no fault leaves the lock, the set answers as its chain
would if the same requests were made on it in a row. The first fault that does leave it is the last
thing that the set does.

* `Attempt`, `Chain.tryAll` — requests in a row on a chain, up to the first fault that is not
  caught.
* `Section.tryAll` — the same under a lock that is held.
* `LockedSet.Call`, `LockedSet.perform` — the calls that take the lock for themselves.
* `LockedSet.Turn`, `LockedSet.takeAll` — turns one after another.
* `LockedSet.Lost` — what is left of a set after a fault has left its lock.
* `LockedSet.answers_as_chain` — turns on a set against requests on a chain.
-/

namespace MergedSpans

open MergedSpans.Action MergedSpans.Chain

/-! ## Requests in a row -/

/-- What the caller sees of a request: the answer, and the events that were reported. -/
abbrev Seen : Type := Except Fault Reply × List Event

/-- What the caller sees of an outcome. -/
def Outcome.seen {σ : Type} (outcome : Outcome σ Reply) : Seen := (outcome.answer, outcome.events)

/-- A request that is made where a fault may be caught. -/
structure Attempt where
  /-- The request. -/
  request : Request
  /-- Is a fault caught, so that the requests behind it are still made? -/
  caught : Bool
  deriving DecidableEq

/-- Does the attempt end with a fault that is not caught? -/
def Attempt.escapes (attempt : Attempt) (answer : Except Fault Reply) : Bool :=
  !attempt.caught && !answer.isOk

/-- How far attempts in a row have got. -/
structure Progress where
  /-- What the caller has seen. -/
  seen : List Seen
  /-- The chain at the end. -/
  chain : Chain
  /-- Was the last attempt one that ended with a fault which was not caught? -/
  escaped : Bool

namespace Progress

/-- The same progress after one more attempt in front. -/
def cons (first : Seen) (progress : Progress) : Progress :=
  { progress with seen := first :: progress.seen }

/-- Go on from where attempts have got to, unless a fault has escaped. -/
def andThen : Progress → (Chain → Progress) → Progress
  | ⟨seen, chain, true⟩, _ => ⟨seen, chain, true⟩
  | ⟨seen, chain, false⟩, next => { next chain with seen := seen ++ (next chain).seen }

/-- The lock under which attempts were made, when it is given back. -/
def lock (progress : Progress) : Lock :=
  if progress.escaped then .poisoned else .sound progress.chain

theorem andThen_of_escaped {progress : Progress} (escaped : progress.escaped = true)
    (next : Chain → Progress) : progress.andThen next = progress := by
  obtain ⟨seen, chain, _ | _⟩ := progress
  · cases escaped
  · rfl

theorem andThen_of_going {progress : Progress} (going : progress.escaped = false)
    (next : Chain → Progress) :
    progress.andThen next
      = { next progress.chain with seen := progress.seen ++ (next progress.chain).seen } := by
  obtain ⟨seen, chain, _ | _⟩ := progress
  · rfl
  · cases going

theorem lock_of_escaped {progress : Progress} (escaped : progress.escaped = true) :
    progress.lock = .poisoned := if_pos escaped

theorem lock_of_going {progress : Progress} (going : progress.escaped = false) :
    progress.lock = .sound progress.chain := if_neg (Bool.eq_false_iff.mp going)

theorem cons_andThen (first : Seen) (progress : Progress) (next : Chain → Progress) :
    (progress.cons first).andThen next = (progress.andThen next).cons first := by
  rcases progress with ⟨seen, chain, _ | _⟩ <;> rfl

end Progress

/-- Make attempts in a row on a chain, up to the first fault that is not caught. -/
def Chain.tryAll : List Attempt → Chain → Progress
  | [], chain => ⟨[], chain, false⟩
  | attempt :: rest, chain =>
    let outcome := (serve attempt.request).run chain
    if attempt.escapes outcome.answer then ⟨[outcome.seen], outcome.state, true⟩
    else (tryAll rest outcome.state).cons outcome.seen

namespace Chain

variable {chain : Chain} {cells : List Cell}

/-- Attempts in one row after another are attempts in one row. -/
theorem tryAll_append (first second : List Attempt) (chain : Chain) :
    tryAll (first ++ second) chain = (tryAll first chain).andThen (tryAll second) := by
  -- Induction on the first row: a fault that escapes from it ends both.
  induction first generalizing chain with
  | nil => rfl
  | cons attempt rest induction =>
    rw [List.cons_append, tryAll, tryAll]
    split
    · rfl
    · rw [induction, Progress.cons_andThen]

/-- Attempts in a row respect what all changes of a store respect. -/
theorem rel_tryAll {relation : Store → Store → Prop} [Std.Refl relation] [IsTrans Store relation]
    (closed : Store.Closed relation) (attempts : List Attempt) (chain : Chain) :
    Across relation chain (tryAll attempts chain).chain := by
  induction attempts generalizing chain with
  | nil => exact refl_of (Across relation) chain
  | cons attempt rest induction =>
    have moved := moves_serve closed attempt.request chain
    rw [tryAll]
    split
    · exact moved
    · exact trans_of (Across relation) moved (induction _)

/-- Attempts in a row never take an allocation back. -/
theorem allocations_le_tryAll (attempts : List Attempt) (chain : Chain) :
    chain.allocations ≤ (tryAll attempts chain).chain.allocations :=
  rel_tryAll Store.closed_ascends attempts chain

/-- The chain that one attempt leaves is on the way to where the row ends. -/
theorem allocations_le_tryAll_cons (attempt : Attempt) (rest : List Attempt) (chain : Chain) :
    ((serve attempt.request).run chain).state.allocations
      ≤ (tryAll (attempt :: rest) chain).chain.allocations := by
  rw [tryAll]
  split
  · exact Nat.le_refl _
  · exact allocations_le_tryAll rest _

/-- Attempts in a row leave a chain in order that was so before and has room. -/
theorem Ordered.after_tryAll (ordered : chain.Ordered cells) (attempts : List Attempt)
    (few : (tryAll attempts chain).chain.allocations < Arithmetic.halfLimit) :
    ∃ remaining, (tryAll attempts chain).chain.Ordered remaining := by
  induction attempts generalizing chain cells with
  | nil => exact ⟨cells, ordered⟩
  | cons attempt rest induction =>
    have fewNow := Nat.lt_of_le_of_lt (allocations_le_tryAll_cons attempt rest chain) few
    obtain ⟨⟨remaining, orderedAfter⟩, -⟩ := ordered.serve_iff attempt.request fewNow
    by_cases escapes : attempt.escapes ((serve attempt.request).run chain).answer = true
    · rw [tryAll, if_pos escapes]
      exact ⟨remaining, orderedAfter⟩
    · rw [tryAll, if_neg escapes] at few ⊢
      exact induction orderedAfter few

/-- Of the attempts that are made just those meet a fault, caught or not, that have to be
rejected. -/
theorem Ordered.tryAll_iff (ordered : chain.Ordered cells) {before later : List Attempt}
    {attempt : Attempt} (reached : (tryAll before chain).escaped = false)
    (few : (tryAll (before ++ attempt :: later) chain).chain.allocations < Arithmetic.halfLimit) :
    (∃ fault, ((serve attempt.request).run (tryAll before chain).chain).answer = .error fault)
      ↔ attempt.request.Rejected (tryAll before chain).chain := by
  rw [tryAll_append, Progress.andThen_of_going reached] at few
  have fewNow := Nat.lt_of_le_of_lt (allocations_le_tryAll_cons attempt later _) few
  have start := moves_serve Store.closed_ascends attempt.request (tryAll before chain).chain
  obtain ⟨remaining, orderedNow⟩ :=
    ordered.after_tryAll before (Nat.lt_of_le_of_lt start fewNow)
  exact (orderedNow.serve_iff attempt.request fewNow).2

end Chain

/-! ## Under the lock -/

namespace LockedSet

/-- A call that takes the lock of a set for itself. -/
inductive Call where
  /-- A call that a chain has as well. -/
  | op (call : Op)
  /-- How many spans are there? -/
  | size
  /-- Are there no spans? -/
  | isEmpty
  /-- Which spans are there? -/
  | spans
  /-- What does the store count? -/
  | counters
  /-- What is the dump? -/
  | text
  deriving DecidableEq

/-- The same request, made on a chain. -/
def Call.request : Call → Request
  | .op call => .call call
  | .size => .ask .length
  | .isEmpty => .ask .isEmpty
  | .spans => .ask .spans
  | .counters => .ask .counters
  | .text => .ask .text

/-- Make a call that a chain has as well. -/
def performOp : Op → Action LockedSet (Option Bool)
  | .insert span => do
    insert span
    return none
  | .erase span => do
    erase span
    return none
  | .overlaps span => do
    let hit ← overlaps span
    return some hit
  | .clear => do
    clear
    return none

/-- Make a call that takes the lock for itself. -/
def perform : Call → Action LockedSet Reply
  | .op call => do
    let answer ← performOp call
    return .ofAnswer answer
  | .size => do
    let count ← size
    return .number count
  | .isEmpty => do
    let empty ← isEmpty
    return .flag empty
  | .spans => do
    let spans ← spans
    return .spans spans
  | .counters => do
    let counters ← counters
    return .counters counters
  | .text => do
    let text ← text
    return .text text

theorem run_locked_sound {α : Type} (action : Action Chain α) (participant : Participant)
    (chain : Chain) :
    (locked action).run ⟨participant, .sound chain⟩
      = ⟨(action.run chain).answer,
          relock ⟨participant, .sound chain⟩ (action.run chain).answer (action.run chain).state,
          (action.run chain).events⟩ := rfl

/-- A set whose lock a fault has left refuses whatever would be done under it. -/
theorem locked_refuses {α : Type} (action : Action Chain α) (participant : Participant) :
    (locked action).Refuses ⟨participant, .poisoned⟩ (.poisoned participant) := rfl

/-- The value of an action can be put into another form under the lock as well as afterwards. -/
theorem locked_bind_pure {α β : Type} (action : Action Chain α) (form : α → β) :
    (locked action >>= fun value => pure (form value))
      = locked (action >>= fun value => pure (form value)) := by
  ext ⟨participant, chain | _⟩
  · rw [run_bind_pure, run_locked_sound, run_locked_sound, run_bind_pure]
    cases (action.run chain).answer <;> rfl
  · rfl

/-- The answer to a question can be put into another form before it is given. -/
theorem ask_bind_pure {α β : Type} (question : Chain → Except Fault α) (form : α → β) :
    (ask question >>= fun value => pure (form value))
      = ask fun chain => (question chain).map form := by
  refine (locked_bind_pure _ form).trans (congrArg locked ?_)
  ext chain
  rw [run_bind_pure]
  rfl

theorem performOp_eq (call : Op) : performOp call = locked (Chain.perform call) := by
  cases call with
  | insert span => exact locked_bind_pure (Chain.insert span) fun _ => none
  | erase span => exact locked_bind_pure (Chain.erase span) fun _ => none
  | overlaps span => exact locked_bind_pure (Action.read fun chain => chain.overlaps span) some
  | clear => exact locked_bind_pure Chain.clear fun _ => none

/-- Every call does under the lock what its request does to the chain. -/
theorem perform_eq (call : Call) : perform call = locked (serve call.request) := by
  cases call with
  | op call =>
    rw [perform, performOp_eq]
    exact locked_bind_pure _ _
  | size => exact ask_bind_pure _ _
  | isEmpty => exact ask_bind_pure _ _
  | spans => exact ask_bind_pure _ _
  | counters => exact ask_bind_pure _ _
  | text => exact ask_bind_pure _ _

end LockedSet

/-- Make attempts in a row on the chain of a section, and give the lock back: at the end, or with
the first fault that is not caught. -/
def Section.tryAll : List Attempt → Section → List Seen × LockedSet
  | [], held => ([], held.leave)
  | attempt :: rest, held =>
    let outcome := (Section.perform (serve attempt.request)).run held
    if attempt.escapes outcome.answer then ([outcome.seen], outcome.state.abandon)
    else (tryAll rest outcome.state).map (outcome.seen :: ·) id

/-- Under a lock that is held, attempts come to what they come to on the chain. -/
theorem Section.tryAll_eq (attempts : List Attempt) (participant : Participant) (chain : Chain) :
    Section.tryAll attempts ⟨participant, chain⟩
      = ((Chain.tryAll attempts chain).seen,
          ⟨participant, (Chain.tryAll attempts chain).lock⟩) := by
  induction attempts generalizing chain with
  | nil => rfl
  | cons attempt rest induction =>
    have performed : (Section.perform (serve attempt.request)).run ⟨participant, chain⟩
        = ((serve attempt.request).run chain).mapState fun chain => ⟨participant, chain⟩ := rfl
    rw [Section.tryAll, Chain.tryAll, performed]
    by_cases escapes : attempt.escapes ((serve attempt.request).run chain).answer = true
    · rw [if_pos escapes]
      exact if_pos escapes
    · rw [if_neg escapes]
      exact (if_neg escapes).trans (congrArg (Prod.map (_ :: ·) id) (induction _))

namespace LockedSet

/-! ## Turns -/

/-- What is done with a set at one go. -/
inductive Turn where
  /-- A call that takes the lock for itself. -/
  | call (own : Call)
  /-- A section, with what is attempted while it holds the lock. -/
  | hold (attempts : List Attempt)
  deriving DecidableEq

/-- What is attempted in a turn. A fault in a call for itself always leaves the lock. -/
def Turn.attempts : Turn → List Attempt
  | .call own => [⟨own.request, false⟩]
  | .hold attempts => attempts

/-- Take a turn. -/
def take : Turn → LockedSet → List Seen × LockedSet
  | .call own, set =>
    let outcome := (perform own).run set
    ([outcome.seen], outcome.state)
  | .hold attempts, set =>
    match set.enter with
    | .error fault => ([(.error fault, [])], set)
    | .ok held => held.tryAll attempts

/-- Take turns one after another. -/
def takeAll : List Turn → LockedSet → List Seen × LockedSet
  | [], set => ([], set)
  | turn :: rest, set =>
    let (seen, after) := take turn set
    let (more, last) := takeAll rest after
    (seen ++ more, last)

/-- What the caller sees of a turn that does not get the lock. -/
def refusal (participant : Participant) : Seen := (.error (.poisoned participant), [])

theorem takeAll_cons (turn : Turn) (rest : List Turn) (set : LockedSet) :
    takeAll (turn :: rest) set
      = ((take turn set).1 ++ (takeAll rest (take turn set).2).1,
          (takeAll rest (take turn set).2).2) := rfl

/-- A turn comes to what its attempts come to on the chain. -/
theorem take_sound (turn : Turn) (participant : Participant) (chain : Chain) :
    take turn ⟨participant, .sound chain⟩
      = ((tryAll turn.attempts chain).seen, ⟨participant, (tryAll turn.attempts chain).lock⟩) := by
  cases turn with
  | call own =>
    rw [take, perform_eq, run_locked_sound, Turn.attempts, Chain.tryAll]
    -- Whether the lock is given back sound is up to the answer.
    rcases (serve own.request).run chain with ⟨_ | _, after, events⟩ <;> rfl
  | hold attempts => exact Section.tryAll_eq attempts participant chain

/-- No turn gets the lock after a fault has left it. -/
theorem take_poisoned (turn : Turn) (participant : Participant) :
    take turn ⟨participant, .poisoned⟩ = ([refusal participant], ⟨participant, .poisoned⟩) := by
  cases turn with
  | call own =>
    rw [take, perform_eq]
    rfl
  | hold attempts => rfl

/-- Nor do turns of any number. -/
theorem takeAll_poisoned (turns : List Turn) (participant : Participant) :
    takeAll turns ⟨participant, .poisoned⟩
      = (turns.map fun _ => refusal participant, ⟨participant, .poisoned⟩) := by
  induction turns with
  | nil => rfl
  | cons turn rest induction =>
    rw [takeAll_cons, take_poisoned, induction]
    rfl

/-- What turns attempt, in a row. -/
def attemptsOf (turns : List Turn) : List Attempt := turns.flatMap Turn.attempts

/-- The attempts of the first turn come first. -/
theorem tryAll_attemptsOf_cons (turn : Turn) (rest : List Turn) (chain : Chain) :
    tryAll (attemptsOf (turn :: rest)) chain
      = (tryAll turn.attempts chain).andThen (tryAll (attemptsOf rest)) := by
  rw [attemptsOf, List.flatMap_cons, tryAll_append]
  rfl

/-- Turns from which no fault escapes come to what their attempts come to on the chain. -/
theorem takeAll_of_not_escaped (turns : List Turn) (participant : Participant) (chain : Chain)
    (going : (tryAll (attemptsOf turns) chain).escaped = false) :
    takeAll turns ⟨participant, .sound chain⟩
      = ((tryAll (attemptsOf turns) chain).seen,
          ⟨participant, .sound (tryAll (attemptsOf turns) chain).chain⟩) := by
  -- Induction on the turns, for every chain that they may start on.
  induction turns generalizing chain with
  | nil => rfl
  | cons turn rest induction =>
    rw [tryAll_attemptsOf_cons] at going ⊢
    cases here : (tryAll turn.attempts chain).escaped with
    | true =>
      rw [Progress.andThen_of_escaped here, here] at going
      cases going
    | false =>
      rw [Progress.andThen_of_going here] at going ⊢
      rw [takeAll_cons, take_sound, Progress.lock_of_going here, induction _ going]

/-- Turns from which a fault escapes come to what their attempts come to on the chain up to there,
and the turns behind that one are refused. -/
theorem takeAll_of_escaped (turns : List Turn) (participant : Participant) (chain : Chain)
    (escaped : (tryAll (attemptsOf turns) chain).escaped = true) :
    ∃ before turn later, turns = before ++ turn :: later
      ∧ (tryAll (attemptsOf before) chain).escaped = false
      ∧ (tryAll (attemptsOf (before ++ [turn])) chain).escaped = true
      ∧ takeAll turns ⟨participant, .sound chain⟩
        = ((tryAll (attemptsOf turns) chain).seen ++ later.map fun _ => refusal participant,
            ⟨participant, .poisoned⟩) := by
  -- Induction on the turns: the fault escapes from the first of them, or from one behind it.
  induction turns generalizing chain with
  | nil => cases escaped
  | cons turn rest induction =>
    rw [tryAll_attemptsOf_cons] at escaped ⊢
    cases here : (tryAll turn.attempts chain).escaped with
    | true =>
      refine ⟨[], turn, rest, rfl, rfl, ?_, ?_⟩
      · rw [List.nil_append, tryAll_attemptsOf_cons, Progress.andThen_of_escaped here, here]
      · rw [Progress.andThen_of_escaped here, takeAll_cons, take_sound,
          Progress.lock_of_escaped here, takeAll_poisoned]
    | false =>
      rw [Progress.andThen_of_going here] at escaped ⊢
      obtain ⟨before, last, later, rfl, going, ends, taken⟩ := induction _ escaped
      refine ⟨turn :: before, last, later, rfl, ?_, ?_, ?_⟩
      · rw [tryAll_attemptsOf_cons, Progress.andThen_of_going here]
        exact going
      · rw [List.cons_append, tryAll_attemptsOf_cons, Progress.andThen_of_going here]
        exact ends
      · rw [takeAll_cons, take_sound, Progress.lock_of_going here, taken, List.append_assoc]

/-! ## Main results -/

/-- What is left of a set after a fault has left its lock. -/
structure Lost (set : LockedSet) (participant : Participant) : Prop where
  /-- It is still known whom the set is for. -/
  participant_eq : set.participant = participant
  /-- Every call is refused, and leaves the set as it is. -/
  refuses : ∀ own, (perform own).Refuses set (.poisoned participant)
  /-- No section is entered. -/
  enter_eq : set.enter = .error (.poisoned participant)
  /-- The chain is not handed out. -/
  unlock_eq : set.unlock = .error (.poisoned participant)
  /-- The message names the participant. -/
  message_eq : (Fault.poisoned participant).message
    = "span set for participant " ++ participant.text ++ " poisoned by an earlier panic"
  /-- Diagnostics are still given. -/
  debugText_eq : set.debugText = .ok (closedText participant)

theorem lost_poisoned (participant : Participant) :
    Lost ⟨participant, .poisoned⟩ participant where
  participant_eq := rfl
  refuses := fun own => perform_eq own ▸ locked_refuses _ participant
  enter_eq := rfl
  unlock_eq := rfl
  message_eq := rfl
  debugText_eq := rfl

/-- A set over a store that was never used takes turns, with calls of any kind and any spans. It
answers and reports what its chain would if the same requests were made on it in a row, and ends up
with the same chain, until a fault leaves the lock; a fault that is caught inside a section does no
harm. Behind the turn from which a fault has escaped, every turn is refused, and so is every call
from then on. No request meets a fault, caught or not, unless it has to be rejected. -/
theorem answers_as_chain {store : Store} (fresh : store.IsFresh) (participant : Participant)
    (turns : List Turn)
    (few : (tryAll (attemptsOf turns) (.empty participant store)).chain.allocations
      < Arithmetic.halfLimit) :
    let start : Chain := .empty participant store
    let progress := tryAll (attemptsOf turns) start
    let taken := takeAll turns (ofStore participant store)
    (progress.escaped = false →
        taken.1 = progress.seen ∧ taken.2 = ⟨participant, .sound progress.chain⟩
          ∧ taken.2.unlock = .ok progress.chain)
      ∧ (progress.escaped = true →
        taken.2.Lost participant
          ∧ ∃ before turn later, turns = before ++ turn :: later
            ∧ (tryAll (attemptsOf before) start).escaped = false
            ∧ (tryAll (attemptsOf (before ++ [turn])) start).escaped = true
            ∧ taken.1 = progress.seen ++ later.map fun _ => refusal participant)
      ∧ ∀ before attempt later, attemptsOf turns = before ++ attempt :: later →
        (tryAll before start).escaped = false →
        ((∃ fault, ((serve attempt.request).run (tryAll before start).chain).answer = .error fault)
          ↔ attempt.request.Rejected (tryAll before start).chain) := by
  intro start progress taken
  refine ⟨fun going => ?_, fun escaped => ?_, fun before attempt later split reached => ?_⟩
  · have same : taken = _ := takeAll_of_not_escaped turns participant start going
    rw [same]
    exact ⟨rfl, rfl, rfl⟩
  · obtain ⟨before, turn, later, split, going, ends, same⟩ :=
      takeAll_of_escaped turns participant start escaped
    have same : taken = _ := same
    rw [same]
    exact ⟨lost_poisoned participant, before, turn, later, split, going, ends, rfl⟩
  · rw [split] at few
    exact (ordered_empty fresh participant).tryAll_iff reached few

/-- A section that catches a fault of each kind leaves the set as good as its chain. A later section
lets a fault get away, and takes the set with it. -/
theorem answers_as_chain_until_lost :
    let start : Chain := .empty default (.pool (.ofSlots 1))
    let set : LockedSet := ofStore default (.pool (.ofSlots 1))
    let calm : List Turn := [.call (.op (.insert ⟨0, 10⟩)),
      .hold [⟨.call (.insert ⟨7, 3⟩), true⟩, ⟨.ask (.get .pastEnd), true⟩,
        ⟨.ask (.next ⟨some ⟨.heap, 0, 0⟩⟩), true⟩, ⟨.call (.erase ⟨3, 5⟩), false⟩], .call .size]
    let turns : List Turn := calm ++ [.hold [⟨.call (.overlaps ⟨5, 5⟩), false⟩], .call .spans]
    (tryAll (attemptsOf turns) start).chain.allocations < Arithmetic.halfLimit
      ∧ (tryAll (attemptsOf calm) start).chain.spans = .ok [⟨0, 3⟩, ⟨5, 10⟩]
      ∧ (takeAll calm set).2.unlock = .ok (tryAll (attemptsOf calm) start).chain
      ∧ (takeAll turns set).2.Lost default := by
  intro start set calm turns
  have few : (tryAll (attemptsOf turns) start).chain.allocations < Arithmetic.halfLimit := by
    decide +kernel
  have fewCalm : (tryAll (attemptsOf calm) start).chain.allocations < Arithmetic.halfLimit := by
    decide +kernel
  have going : (tryAll (attemptsOf calm) start).escaped = false := by decide +kernel
  have escaped : (tryAll (attemptsOf turns) start).escaped = true := by decide +kernel
  obtain ⟨answered, -⟩ := answers_as_chain (Or.inr ⟨1, rfl⟩) default calm fewCalm
  obtain ⟨-, lost, -⟩ := answers_as_chain (Or.inr ⟨1, rfl⟩) default turns few
  exact ⟨few, by decide +kernel, (answered going).2.2, (lost escaped).1⟩

end LockedSet

end MergedSpans
