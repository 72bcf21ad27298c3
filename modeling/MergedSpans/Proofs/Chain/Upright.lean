import MergedSpans.Proofs.Chain.Rejection

/-! # What holds of every chain

Whatever calls are made on a chain, with whatever spans and however often, it spells out separated
spans in a tidy store. A call with a span that holds no address is refused before it has done
anything, and one that finds its store without an index left stops between two of its steps, where
the chain is upright as well.

* `Upright.insert`, `Upright.erase`, `Upright.clear` — one change, however it ends.
* `Upright.perform` — one call; `upright_after` — calls of any number.
-/

namespace MergedSpans

namespace Chain

open MergedSpans.Action

variable {chain : Chain} {span : Span} {store : Store}

/-- A chain over a store that was never used is upright. -/
theorem upright_empty (fresh : store.IsFresh) (participant : Participant) :
    (empty participant store).Upright :=
  ⟨[], (owned_empty fresh participant).toSpells, separated_nil, fresh.sound.tidy⟩

/-- What stalls leaves an upright chain. -/
theorem Stalls.upright {α : Type} {action : Action Chain α} (stalls : Stalls action chain) :
    (action.run chain).state.Upright := by
  obtain ⟨after, events, stopped, upright⟩ := stalls
  rwa [stopped]

/-- An insertion leaves an upright chain. -/
theorem Upright.insert (upright : chain.Upright) (formed : span.WellFormed) :
    ((insert span).run chain).state.Upright := by
  obtain ⟨cells, spells, separated, tidy⟩ := upright
  rcases spells.insert_cases tidy separated formed with
    ⟨id, after, events, -, yields, afterSpells, afterTidy, -⟩ | ⟨stalls, -⟩
  · rw [yields.state_eq]
    exact ⟨_, afterSpells, Cells.separated_insert separated formed, afterTidy⟩
  · exact stalls.upright

/-- So does a removal. -/
theorem Upright.erase (upright : chain.Upright) (formed : span.WellFormed) :
    ((erase span).run chain).state.Upright := by
  obtain ⟨cells, spells, separated, tidy⟩ := upright
  rcases spells.erase_cases tidy separated formed with
    ⟨first, second, after, events, yields, afterSpells, afterTidy, -⟩ | ⟨stalls, -⟩
  · rw [yields.state_eq]
    exact ⟨_, afterSpells, Cells.separated_erase formed separated, afterTidy⟩
  · exact stalls.upright

/-- So does a clearing. -/
theorem Upright.clear (upright : chain.Upright) : (clear.run chain).state.Upright := by
  obtain ⟨cells, spells, separated, tidy⟩ := upright
  obtain ⟨store, events, yields, tidied⟩ := tidy.reset_yields
  have cleared : Chain.clear.Yields chain ()
      { chain with store, head := none, tail := none, length := 0 }
      ([.clearing chain.participant chain.length] ++ (events ++ [])) := by
    apply Yields.silent_bind (yields_current chain)
    apply Yields.bind (yields_emit _ chain)
    exact (yields_onStore yields).bind (yields_update rfl)
  rw [cleared.state_eq]
  exact ⟨[], spells_nil rfl rfl rfl, separated_nil, tidied⟩

/-- A call leaves an upright chain, whether it ends well, is refused or stalls. -/
theorem Upright.perform (upright : chain.Upright) (op : Op) :
    ((perform op).run chain).state.Upright := by
  by_cases formed : op.WellFormed
  · cases op with
    | insert span =>
      have same := congrArg Outcome.state
        (run_bind_pure (Chain.insert span) (fun _ => (none : Option Bool)) chain)
      exact same ▸ upright.insert formed
    | erase span =>
      have same := congrArg Outcome.state
        (run_bind_pure (Chain.erase span) (fun _ => (none : Option Bool)) chain)
      exact same ▸ upright.erase formed
    | overlaps span =>
      have asked : (Chain.perform (.overlaps span)).Moves (Keeps id) :=
        (moves_read _).bind fun _ => moves_pure _
      have unchanged : ((Chain.perform (.overlaps span)).run chain).state = chain := asked chain
      rwa [unchanged]
    | clear =>
      have same := congrArg Outcome.state
        (run_bind_pure Chain.clear (fun _ => (none : Option Bool)) chain)
      exact same ▸ upright.clear
  · obtain ⟨fault, -, refuses⟩ := perform_refuses formed chain
    rwa [refuses.state_eq]

/-- Calls of any number leave an upright chain. -/
theorem upright_after (upright : chain.Upright) (ops : List Op) :
    (Action.after Chain.perform ops chain).Upright := by
  induction ops generalizing chain with
  | nil => exact upright
  | cons op rest induction => exact induction (upright.perform op)

/-- The spans of an upright chain can be told, and it has recorded how many there are. -/
theorem Upright.spans_eq (upright : chain.Upright) :
    ∃ spans, chain.spans = .ok spans ∧ Separated spans ∧ chain.length = spans.length := by
  obtain ⟨cells, spells, separated, tidy⟩ := upright
  refine ⟨spansOf cells, spells.spans_eq (spells.fits tidy), separated, ?_⟩
  rw [spells.length_eq, spansOf, List.length_map]

end Chain

end MergedSpans
