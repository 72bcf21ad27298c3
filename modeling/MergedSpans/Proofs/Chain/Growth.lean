import MergedSpans.Chain.Update
import MergedSpans.Proofs.Store.Tidy

/-! # What every change of a chain does to its store

A chain acts on its store by nothing but the changes that the store offers. So whatever holds
between a store before and after each of these changes (`Store.Closed`) holds before and after every
call on the chain, also when the call meets a fault halfway.

* `Chain.Across` — the relation between the stores of two chains.
* `Chain.moves_perform` — every call on a chain respects it.
* `Chain.allocations_le_after` — calls never take an allocation back.
* `Chain.inherits_after` — what is in order or stale in a store stays so.
* `Chain.reachable_after` — a store that calls lead to is led on by the calls on a chain.
-/

namespace MergedSpans

open MergedSpans.Action

namespace Chain

/-- The stores of two chains are related. -/
def Across (relation : Store → Store → Prop) (before after : Chain) : Prop :=
  relation before.store after.store

section Across

variable {relation : Store → Store → Prop}

instance [Std.Refl relation] : Std.Refl (Across relation) :=
  ⟨fun chain => refl_of relation chain.store⟩

instance [IsTrans Store relation] : IsTrans Chain (Across relation) :=
  ⟨fun _ _ _ => trans_of relation⟩

theorem moves_onStore {α : Type} {action : Action Store α} (moves : action.Moves relation) :
    (onStore action).Moves (Across relation) := moves.within fun _ _ => id

theorem moves_write (closed : Store.Closed relation) (id : NodeId) (change : Node → Node) :
    (write id change).Moves (Across relation) := moves_onStore (closed.write id change)

variable [Std.Refl relation]

/-- What a chain records about itself is no matter of its store. -/
theorem moves_record {change : Chain → Chain} (kept : ∀ chain, (change chain).store = chain.store) :
    (Action.update change).Moves (Across relation) := by
  refine moves_update fun chain => ?_
  unfold Across
  rw [kept]
  exact refl_of relation _

variable (closed : Store.Closed relation)

include closed

/-! ## Link surgery -/

-- Each action is walked through step by step. Steps that read, report or record are no matter of
-- the store, and those that are left are changes which the store offers.

theorem moves_setNext (before target : Option NodeId) :
    (setNext before target).Moves (Across relation) := by
  cases before with
  | none => exact moves_record fun _ => rfl
  | some id => exact moves_write closed id _

theorem moves_setPrev (after target : Option NodeId) :
    (setPrev after target).Moves (Across relation) := by
  cases after with
  | none => exact moves_record fun _ => rfl
  | some id => exact moves_write closed id _

variable [IsTrans Store relation]

theorem moves_releaseCounted (id : NodeId) : (releaseCounted id).Moves (Across relation) := by
  refine Moves.bind (moves_onStore (closed.release id)) fun _ => ?_
  exact Moves.bind (moves_read _) fun _ => moves_record fun _ => rfl

theorem moves_spliceBefore (id : NodeId) (successor : Option NodeId) :
    (spliceBefore id successor).Moves (Across relation) := by
  refine Moves.bind (moves_read _) fun _ => ?_
  refine Moves.bind (moves_write closed id _) fun _ => ?_
  refine Moves.bind (moves_setNext closed _ _) fun _ => ?_
  exact Moves.bind (moves_setPrev closed _ _) fun _ => moves_record fun _ => rfl

theorem moves_merge (first second : NodeId) : (merge first second).Moves (Across relation) := by
  refine Moves.bind (moves_read _) fun _ => Moves.bind (moves_read _) fun _ => ?_
  refine Moves.bind (moves_ofExcept _) fun _ => Moves.bind moves_current fun _ => ?_
  refine Moves.bind (moves_emit _) fun _ => Moves.bind (moves_write closed first _) fun _ => ?_
  exact Moves.bind (moves_setPrev closed _ _) fun _ => moves_releaseCounted closed second

theorem moves_discard (id : NodeId) : (discard id).Moves (Across relation) := by
  refine Moves.bind (moves_read _) fun _ => Moves.bind moves_current fun _ => ?_
  refine Moves.bind (moves_emit _) fun _ => Moves.bind (moves_setNext closed _ _) fun _ => ?_
  refine Moves.bind (moves_setPrev closed _ _) fun _ => ?_
  exact Moves.bind (moves_releaseCounted closed id) fun _ => moves_pure _

/-! ## Insertion -/

theorem moves_mergeBack (id : NodeId) (span : Span) :
    (mergeBack id span).Moves (Across relation) := by
  refine Moves.bind (moves_read _) fun node => ?_
  split
  · exact moves_pure _
  · refine Moves.bind (moves_read _) fun _ => Moves.bind (moves_ofExcept _) fun _ => ?_
    exact Moves.ite (Moves.bind (moves_merge closed _ _) fun _ => moves_pure _) (moves_pure _)

/-- By induction on the number of merges that are allowed. -/
theorem moves_mergeForward (id : NodeId) (steps : Nat) :
    (mergeForward id steps).Moves (Across relation) := by
  induction steps with
  | zero => exact moves_fail _
  | succ steps induction =>
    refine Moves.bind (moves_read _) fun node => ?_
    split
    · exact moves_pure _
    · refine Moves.bind (moves_read _) fun _ => Moves.bind (moves_read _) fun _ => ?_
      refine Moves.bind (moves_ofExcept _) fun _ => Moves.ite ?_ (moves_pure _)
      exact Moves.bind (moves_merge closed _ _) fun _ => induction

/-- What is left of an insertion once the new node is in the store. -/
theorem moves_link (id : NodeId) (span : Span) :
    (do
      let successor ← Action.read (·.lowerBound span.low)
      spliceBefore id successor
      let holder ← mergeBack id span
      let chain ← Action.current
      mergeForward holder chain.reach
      recheck : Action Chain Unit).Moves (Across relation) := by
  refine Moves.bind (moves_read _) fun _ => ?_
  refine Moves.bind (moves_spliceBefore closed id _) fun _ => ?_
  refine Moves.bind (moves_mergeBack closed id span) fun _ => Moves.bind moves_current fun _ => ?_
  exact Moves.bind (moves_mergeForward closed _ _) fun _ => moves_read _

theorem moves_insert (span : Span) : (insert span).Moves (Across relation) := by
  refine Moves.bind (moves_ofExcept _) fun _ => ?_
  exact Moves.bind (moves_onStore (closed.allocate span)) fun id => moves_link closed id span

/-! ## Removal -/

theorem moves_trimEnd (id : NodeId) (whole span : Span) :
    (trimEnd id whole span).Moves (Across relation) := by
  refine Moves.bind (moves_ofExcept _) fun _ => Moves.bind moves_current fun _ => ?_
  exact Moves.bind (moves_emit _) fun _ => moves_write closed id _

theorem moves_trimStart (id : NodeId) (whole span : Span) :
    (trimStart id whole span).Moves (Across relation) := by
  refine Moves.bind (moves_ofExcept _) fun _ => Moves.bind moves_current fun _ => ?_
  exact Moves.bind (moves_emit _) fun _ => moves_write closed id _

theorem moves_split (id : NodeId) (whole span : Span) :
    (split id whole span).Moves (Across relation) := by
  refine Moves.bind (moves_ofExcept _) fun _ => Moves.bind (moves_ofExcept _) fun _ => ?_
  refine Moves.bind moves_current fun _ => Moves.bind (moves_emit _) fun _ => ?_
  refine Moves.bind (moves_discard closed id) fun _ => ?_
  exact Moves.bind (moves_insert closed _) fun _ => moves_insert closed _

theorem moves_cutBefore (span : Span) (before : Option NodeId) :
    (cutBefore span before).Moves (Across relation) := by
  cases before with
  | none => exact moves_pure _
  | some id =>
    refine Moves.bind (moves_read _) fun whole => Moves.bind (moves_ofExcept _) fun _ => ?_
    refine Moves.ite (moves_pure _) (Moves.ite ?_ ?_)
    · exact moves_trimEnd closed id whole span
    · exact moves_split closed id whole span

/-- By induction on the number of nodes that may be looked at. -/
theorem moves_cutFrom (span : Span) (steps : Nat) (position : Option NodeId) :
    (cutFrom span steps position).Moves (Across relation) := by
  induction steps generalizing position with
  | zero =>
    cases position with
    | none => exact moves_pure _
    | some _ => exact moves_fail _
  | succ steps induction =>
    cases position with
    | none => exact moves_pure _
    | some id =>
      refine Moves.bind (moves_read _) fun whole => Moves.bind (moves_ofExcept _) fun _ => ?_
      refine Moves.ite (moves_pure _) (Moves.bind (moves_ofExcept _) fun _ => Moves.ite ?_ ?_)
      · exact Moves.bind (moves_discard closed id) fun successor => induction successor
      · exact moves_trimStart closed id whole span

theorem moves_cut (span : Span) : (cut span).Moves (Across relation) := by
  refine Moves.bind (moves_read _) fun _ => Moves.bind (moves_read _) fun _ => ?_
  refine Moves.bind (moves_cutBefore closed span _) fun _ => Moves.bind moves_current fun _ => ?_
  exact Moves.bind (moves_cutFrom closed span _ _) fun _ => moves_read _

theorem moves_erase (span : Span) : (erase span).Moves (Across relation) := by
  refine Moves.bind (moves_ofExcept _) fun _ => Moves.bind moves_current fun _ => ?_
  exact Moves.ite (moves_pure _) (moves_cut closed span)

/-! ## Calls -/

omit closed in
/-- Of all changes of its store, a clearing makes none but the reset. -/
theorem moves_clear (reset : Store.reset.Moves relation) : clear.Moves (Across relation) := by
  refine Moves.bind moves_current fun _ => Moves.bind (moves_emit _) fun _ => ?_
  exact Moves.bind (moves_onStore reset) fun _ => moves_record fun _ => rfl

/-- Every call on a chain respects what all changes of its store respect. -/
theorem moves_perform (op : Op) : (perform op).Moves (Across relation) := by
  cases op with
  | insert span => exact Moves.bind (moves_insert closed span) fun _ => moves_pure _
  | erase span => exact Moves.bind (moves_erase closed span) fun _ => moves_pure _
  | overlaps span => exact Moves.bind (moves_read _) fun _ => moves_pure _
  | clear => exact Moves.bind (moves_clear closed.reset) fun _ => moves_pure _

end Across

/-! ## Allocations -/

/-- How often the chain's store has allocated. -/
def allocations (chain : Chain) : Nat := chain.store.allocations

/-- Calls on a chain never take an allocation back. -/
theorem allocations_le_after (ops : List Op) (chain : Chain) :
    chain.allocations ≤ (Action.after perform ops chain).allocations := by
  have ascends : Across (Ascends Store.allocations) chain (Action.after perform ops chain) :=
    rel_after (moves_perform Store.closed_ascends) ops chain
  exact ascends

/-! ## Later states -/

/-- Whatever is done to a chain by changes of its store leaves a later state of that store. -/
theorem inherits_after {ι α : Type} {perform : ι → Action Chain α}
    (moves : ∀ call, (perform call).Moves (Across Store.Precedes)) (calls : List ι) {chain : Chain}
    (sound : chain.store.Sound)
    (few : (Action.after perform calls chain).allocations < Arithmetic.halfLimit) :
    chain.store.Inherits (Action.after perform calls chain).store := by
  have moved : Across Store.Precedes chain (Action.after perform calls chain) :=
    rel_after moves calls chain
  exact moved.inherits sound few

/-- Whatever is done to a chain by changes of its store leads to a store that there is. -/
theorem reachable_after {ι α : Type} {perform : ι → Action Chain α}
    (moves : ∀ call, (perform call).Moves (Across Store.LeadsTo)) (calls : List ι) {chain : Chain}
    (reachable : chain.store.Reachable) : (Action.after perform calls chain).store.Reachable := by
  have moved : Across Store.LeadsTo chain (Action.after perform calls chain) :=
    rel_after moves calls chain
  exact reachable.leadsTo moved

end Chain

end MergedSpans
