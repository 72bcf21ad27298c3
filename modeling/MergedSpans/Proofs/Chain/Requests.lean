import MergedSpans.Chain.Text
import MergedSpans.Proofs.Chain.Rejection
import MergedSpans.Proofs.Chain.Traversal

/-! # Requests

Everything that can be asked of a chain, calls and questions alike, and what of it has to be
rejected.

* `Chain.Question`, `Chain.Reply`, `Question.answer` — the questions with their answers.
* `Chain.Request`, `Chain.serve` — a call or a question, and what it does to a chain.
* `Request.Rejected` — the request breaks a contract of its own.
* `Ordered.serve_iff` — a chain in order meets a fault just when it is served such a request.
-/

namespace MergedSpans

namespace Chain

open MergedSpans.Action

/-! ## Questions and calls -/

/-- A question that can be asked of a chain. It changes nothing. -/
inductive Question where
  /-- Whom are the spans tracked for? -/
  | participant
  /-- How many spans are there? -/
  | length
  /-- Are there no spans? -/
  | isEmpty
  /-- What does the store count? -/
  | counters
  /-- Which spans are there? -/
  | spans
  /-- What is the dump? -/
  | text
  /-- How does the chain look in diagnostics? -/
  | debugText
  /-- What does an audit find? -/
  | validate
  /-- Where is the first span? -/
  | start
  /-- Where is the end? -/
  | pastEnd
  /-- Where is the span after a position? -/
  | next (cursor : Cursor)
  /-- Which span is at a position? -/
  | get (cursor : Cursor)
  /-- What does an iteration read in its first steps? -/
  | iterate (count : Nat)
  deriving DecidableEq

/-- What can be replied to a request. -/
inductive Reply where
  /-- That it is done. -/
  | done
  /-- Yes or no. -/
  | flag (value : Bool)
  /-- A number. -/
  | number (value : Nat)
  /-- A participant. -/
  | participant (value : Participant)
  /-- Counters. -/
  | counters (value : Counters)
  /-- Spans in order. -/
  | spans (value : List Span)
  /-- A text. -/
  | text (value : String)
  /-- A defect, if there is one. -/
  | defect (value : Option Defect)
  /-- A position. -/
  | cursor (value : Cursor)
  /-- A span. -/
  | span (value : Span)
  /-- What was read in each step of an iteration. -/
  | reads (value : List (Option Span))
  deriving DecidableEq

/-- The reply that stands for the answer of a call. -/
def Reply.ofAnswer : Option Bool → Reply
  | none => .done
  | some hit => .flag hit

/-- The answer to a question. -/
def Question.answer : Question → Chain → Except Fault Reply
  | .participant, chain => .ok (.participant chain.participant)
  | .length, chain => .ok (.number chain.length)
  | .isEmpty, chain => .ok (.flag chain.isEmpty)
  | .counters, chain => .ok (.counters chain.counters)
  | .spans, chain => chain.spans.map .spans
  | .text, chain => chain.text.map .text
  | .debugText, chain => chain.debugText.map .text
  | .validate, chain => chain.validate.map .defect
  | .start, chain => .ok (.cursor chain.start)
  | .pastEnd, _ => .ok (.cursor .pastEnd)
  | .next cursor, chain => (chain.next cursor).map .cursor
  | .get cursor, chain => (chain.get cursor).map .span
  | .iterate count, chain => (Iter.steps chain count chain.iter).map fun (reads, _) => .reads reads

/-- Anything that can be asked of a chain. -/
inductive Request where
  /-- A call. -/
  | call (op : Op)
  /-- A question. -/
  | ask (question : Question)
  deriving DecidableEq

/-- What a request does to a chain, with the reply. -/
def serve : Request → Action Chain Reply
  | .call op => do
    let answer ← perform op
    return .ofAnswer answer
  | .ask question => Action.read question.answer

/-- Requests respect what all changes of a store respect. -/
theorem moves_serve {relation : Store → Store → Prop} [Std.Refl relation] [IsTrans Store relation]
    (closed : Store.Closed relation) (request : Request) :
    (serve request).Moves (Across relation) := by
  cases request with
  | call op => exact Moves.bind (moves_perform closed op) fun _ => moves_pure _
  | ask question => exact moves_read _

/-! ## Rejections -/

/-- The cursor stands at a node that is not linked. -/
def Strays (chain : Chain) (cursor : Cursor) : Prop :=
  ∃ id cells, cursor.node = some id ∧ chain.Linked cells ∧ id ∉ idsOf cells

/-- The request breaks a contract of its own: it is a call with a span whose low bound is not below
its high bound, it asks for the span at the end, or it uses a cursor at a node that is not
linked. -/
def Request.Rejected (chain : Chain) : Request → Prop
  | .call op => ∃ span, op.span? = some span ∧ span.high ≤ span.low
  | .ask (.get cursor) => cursor.isEnd = true ∨ chain.Strays cursor
  | .ask (.next cursor) => chain.Strays cursor
  | .ask _ => False

section Rejections

variable {chain : Chain} {cells others : List Cell} {cell : Cell} {before : Option NodeId}

/-- A chain is linked up to one list of cells at most. -/
theorem Linked.unique (linked : chain.Linked cells) (also : chain.Linked others) :
    cells = others := by
  obtain ⟨entries, walked, same⟩ := linked.entries_eq
  obtain ⟨found, walkedAgain, sameAgain⟩ := also.entries_eq
  obtain rfl := Except.ok.inj (walked.symm.trans walkedAgain)
  exact same.symm.trans sameAgain

/-- The cursors that stray are those at nodes that are not linked. -/
theorem Linked.strays_iff (linked : chain.Linked cells) {id : NodeId} :
    chain.Strays ⟨some id⟩ ↔ id ∉ idsOf cells := by
  constructor
  · rintro ⟨_, others, ⟨⟩, also, unlinked⟩
    rwa [linked.unique also]
  · exact fun unlinked => ⟨id, cells, rfl, linked, unlinked⟩

/-- No cursor past the end strays. -/
theorem not_strays_pastEnd : ¬ chain.Strays ⟨none⟩ := by
  rintro ⟨id, cells, ⟨⟩, -⟩

/-- A reply is a fault just when what it is made of is. -/
theorem map_eq_error_iff {α : Type} {answer : Except Fault α} {reply : α → Reply} {fault : Fault} :
    answer.map reply = .error fault ↔ answer = .error fault := by
  cases answer <;> simp [Except.map]

/-- A reply is a fault just when there is no value to make it of. -/
theorem exists_error_map_iff {α : Type} {answer : Except Fault α} {reply : α → Reply} :
    (∃ fault, answer.map reply = .error fault) ↔ ¬ ∃ value, answer = .ok value := by
  cases answer <;> simp [Except.map]

/-- A question to a chain in order meets a fault just when it has to be rejected. -/
theorem Ordered.answer_iff (ordered : chain.Ordered cells) (question : Question) :
    (∃ fault, question.answer chain = .error fault) ↔ (Request.ask question).Rejected chain := by
  -- A question that is answered is not rejected.
  have answered {reply : Reply} {question : Question} (good : question.answer chain = .ok reply) :
      ¬ ∃ fault, question.answer chain = .error fault := by
    rintro ⟨fault, bad⟩
    cases good.symm.trans bad
  have spans := ordered.toOwned.spans_eq
  cases question with
  | participant | length | isEmpty | counters | start | pastEnd =>
    exact iff_of_false (answered rfl) id
  | spans => exact iff_of_false (answered (by rw [Question.answer, spans]; rfl)) id
  | text => exact iff_of_false (answered (by rw [Question.answer, text, spans]; rfl)) id
  | debugText => exact iff_of_false (answered (by rw [Question.answer, debugText, spans]; rfl)) id
  | validate =>
    have clean := ordered.validate_eq ordered.separated
    exact iff_of_false (answered (by rw [Question.answer, clean]; rfl)) id
  | next cursor =>
    obtain ⟨_ | id⟩ := cursor
    · exact iff_of_false (answered rfl) not_strays_pastEnd
    · exact exists_error_map_iff.trans
        ((not_congr (ordered.reads id).next_iff).trans ordered.strays_iff.symm)
  | get cursor =>
    obtain ⟨_ | id⟩ := cursor
    · exact iff_of_true ⟨_, rfl⟩ (Or.inl rfl)
    · have inside : ¬ (⟨some id⟩ : Cursor).isEnd = true := nofun
      exact exists_error_map_iff.trans ((not_congr (ordered.reads id).get_iff).trans
        (ordered.strays_iff.symm.trans (or_iff_right inside).symm))
  | iterate count =>
    have read := Iter.steps_eq ordered.links count chain.length
    rw [← ordered.head_eq] at read
    have whole : Iter.steps chain count chain.iter = _ := read
    exact iff_of_false (answered (by rw [Question.answer, whole]; rfl)) id

/-- A call on a chain has to be rejected when its span holds no address. -/
theorem rejected_call_iff {op : Op} :
    (Request.call op).Rejected chain ↔ ∃ fault, op.Rejects fault := by
  constructor
  · rintro ⟨span, made, reversed⟩
    exact ⟨_, span, made, reversed, rfl, rfl⟩
  · rintro ⟨fault, span, made, reversed, -⟩
    exact ⟨span, made, reversed⟩

/-- A chain in order with room for what a request puts in meets a fault just when the request has
to be rejected, and is left in order in either case. -/
theorem Ordered.serve_iff (ordered : chain.Ordered cells) (request : Request)
    (few : ((serve request).run chain).state.allocations < Arithmetic.halfLimit) :
    (∃ remaining, ((serve request).run chain).state.Ordered remaining)
      ∧ ((∃ fault, ((serve request).run chain).answer = .error fault)
        ↔ request.Rejected chain) := by
  cases request with
  | call op =>
    have served := run_bind_pure (perform op) Reply.ofAnswer chain
    rw [show (serve (.call op)).run chain = _ from served] at few ⊢
    obtain ⟨orderedAfter, rejects⟩ := ordered.perform_or_rejects few
    exact ⟨orderedAfter, (exists_congr fun fault => map_eq_error_iff.trans (rejects fault)).trans
      rejected_call_iff.symm⟩
  | ask question => exact ⟨⟨cells, ordered⟩, ordered.answer_iff question⟩

end Rejections

end Chain

end MergedSpans
