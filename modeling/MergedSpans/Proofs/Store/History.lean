import MergedSpans.Proofs.Store.Basic

/-! # A store as a partial map

From the calls made on a store and what they answered one can tell, without a look at the store,
which ids reach a node and which node that is. The store agrees with that at every moment, for
calls with any ids at all.

* `Store.Call`, `Store.Reply`, `Store.perform` — calls as data.
* `Store.Log`, `Store.log` — calls with their answers, and those of a run.
* `Log.bound`, `Log.given` — the partial map that a log describes, and the ids it gave out.
* `Conforms` — the answers that a partial map allows.
-/

namespace MergedSpans

namespace Store

/-- A call on a store. -/
inductive Call where
  /-- Put a node into the store. -/
  | allocate (span : Span)
  /-- Take a node out. -/
  | release (id : NodeId)
  /-- Look at a node. -/
  | get (id : NodeId)
  /-- Change a node, in any way that depends on nothing but the node. -/
  | write (id : NodeId) (change : Node → Node)
  /-- Take every node out. -/
  | reset

/-- Does the call put a node into the store? -/
def Call.allocates : Call → Bool
  | .allocate _ => true
  | _ => false

/-- What a call on a store answers. -/
inductive Reply where
  /-- An id was given out. -/
  | given (id : NodeId)
  /-- The node that was asked for. -/
  | node (node : Node)
  /-- It is done. -/
  | done

/-- Make a call. -/
def perform : Call → Action Store Reply
  | .allocate span => do
    let id ← allocate span
    return .given id
  | .release id => do
    release id
    return .done
  | .get id => do
    let node ← Action.read (·.node id)
    return .node node
  | .write id change => do
    write id change
    return .done
  | .reset => do
    reset
    return .done

/-! ## Logs -/

/-- Calls with their answers, oldest first. -/
abbrev Log : Type := List (Call × Except Fault Reply)

/-- What a call makes of a partial map, given its answer. A call that met a fault makes nothing
of it. -/
def record (bound : NodeId → Option Node) : Call × Except Fault Reply → NodeId → Option Node
  | (.allocate span, .ok (.given id)) => Function.update bound id (some (.unlinked span))
  | (.release id, .ok _) => Function.update bound id none
  | (.write id change, .ok _) => Function.update bound id ((bound id).map change)
  | (.reset, .ok _) => fun _ => none
  | _ => bound

/-- The partial map that a log describes. -/
def Log.bound (log : Log) : NodeId → Option Node := log.foldl record fun _ => none

/-- The id that a call gave out. -/
def idGiven? : Call × Except Fault Reply → Option NodeId
  | (_, .ok (.given id)) => some id
  | _ => none

/-- The ids that a log gave out. -/
def Log.given (log : Log) : List NodeId := log.filterMap idGiven?

/-- How many of the calls in a log were allocations. -/
def Log.allocations (log : Log) : Nat := log.countP fun entry => entry.1.allocates

/-- The log of calls made one after another. -/
def log : List Call → Store → Log
  | [], _ => []
  | call :: rest, store =>
    (call, ((perform call).run store).answer) :: log rest ((perform call).run store).state

theorem allocations_log (calls : List Call) (store : Store) :
    (log calls store).allocations = calls.countP Call.allocates := by
  induction calls generalizing store with
  | nil => rfl
  | cons call rest induction =>
    have later := induction ((perform call).run store).state
    unfold Log.allocations at later ⊢
    rw [log, List.countP_cons, List.countP_cons, later]

/-- The answers to a call that a partial map allows, when `given` are the ids given out before.
Only new ids are given out; an id that reaches a node is served, and every other one is a fault. -/
def Conforms (bound : NodeId → Option Node) (given : List NodeId) (answer : Except Fault Reply) :
    Call → Prop
  | .allocate _ => ∃ id, id ∉ given ∧ answer = .ok (.given id)
  | .get id =>
    match bound id with
    | some node => answer = .ok (.node node)
    | none => ∃ fault, answer = .error fault
  | .release id | .write id _ =>
    match bound id with
    | some _ => answer = .ok .done
    | none => ∃ fault, answer = .error fault
  | .reset => answer = .ok .done

/-! ## One call -/

/-- The store agrees with a log: it reaches the same nodes, and has given out the same ids. -/
structure Agrees (store : Store) (log : Log) : Prop where
  /-- The store is in order. -/
  sound : store.Sound
  /-- The ids reach the nodes that the log tells of. -/
  get?_eq : store.get? = log.bound
  /-- The ids given out are those of the log. -/
  mem_given : ∀ id, id ∈ log.given ↔ id ∈ store.ledger.issued
  /-- The store has counted its allocations. -/
  allocations_eq : store.allocations = log.allocations

/-- A store that was never used agrees with the log without calls. -/
theorem IsFresh.agrees {store : Store} (fresh : store.IsFresh) : store.Agrees [] where
  sound := fresh.sound
  get?_eq := congrArg Ledger.bound fresh.ledger_eq
  mem_given := by
    intro id
    rw [fresh.ledger_eq]
    exact ⟨fun member => absurd member List.not_mem_nil, fun member => member.elim⟩
  allocations_eq := congrArg Ledger.allocations fresh.ledger_eq

/-- What an entry makes of the ids given out. -/
def issuedBy (issued : Set NodeId) (entry : Call × Except Fault Reply) : Set NodeId :=
  { id | idGiven? entry = some id } ∪ issued

/-- A log that goes on is agreed with when the last call made of the store what it made of the
log. -/
theorem Agrees.append {store after : Store} {log : Log} (agrees : store.Agrees log)
    (entry : Call × Except Fault Reply) (sound : after.Sound)
    (bound : after.get? = record store.get? entry)
    (issued : after.ledger.issued = issuedBy store.ledger.issued entry)
    (allocations : after.allocations = store.allocations + if entry.1.allocates then 1 else 0) :
    after.Agrees (log ++ [entry]) where
  sound := sound
  get?_eq := by
    rw [bound, agrees.get?_eq]
    simp [Log.bound]
  mem_given := by
    intro id
    rw [issued, Log.given, List.filterMap_append, List.mem_append, or_comm]
    refine or_congr ?_ (agrees.mem_given id)
    simp
  allocations_eq := by
    rw [allocations, agrees.allocations_eq]
    simp [Log.allocations, List.countP_append, List.countP_singleton]

/-- What one call on a store that agrees with a log has to come to. -/
structure Serves (store : Store) (log : Log) (call : Call) : Prop where
  /-- The answer is one that the log allows. -/
  conforms : Conforms log.bound log.given ((perform call).run store).answer call
  /-- The store agrees with the log that goes on with this call. -/
  agrees : Agrees ((perform call).run store).state
    (log ++ [(call, ((perform call).run store).answer)])
  /-- A call that meets a fault leaves the store as it was. -/
  unchanged : ∀ fault, ((perform call).run store).answer = .error fault →
    ((perform call).run store).state = store

/-- A call is served as it ought to be when its outcome is. -/
theorem serves_of_yields {store after : Store} {log : Log} {call : Call} {reply : Reply}
    {events : List Event} (yields : (perform call).Yields store reply after events)
    (conforms : Conforms log.bound log.given (.ok reply) call)
    (agrees : after.Agrees (log ++ [(call, .ok reply)])) : store.Serves log call := by
  unfold Action.Yields at yields
  constructor
  · rwa [yields]
  · rwa [yields]
  · intro fault refused
    rw [yields] at refused
    cases refused

/-- A refused call changes neither the store nor what its log tells. -/
theorem serves_of_refuses {store : Store} {log : Log} {call : Call} {fault : Fault}
    (agrees : store.Agrees log) (refuses : (perform call).Refuses store fault)
    (allocates : call.allocates = false)
    (conforms : Conforms log.bound log.given (.error fault) call) : store.Serves log call := by
  unfold Action.Refuses Outcome.failed at refuses
  constructor
  · rwa [refuses]
  · -- The log goes on by an entry that makes nothing of the map and gives out no id.
    rw [refuses]
    refine agrees.append _ agrees.sound ?_ ?_ ?_
    · cases call <;> rfl
    · simp [issuedBy, idGiven?]
    · simp [allocates]
  · intro _ _
    rw [refuses]

section Calls

variable {store : Store} {log : Log}

/-- A node is put in under a new id. -/
theorem serves_allocate (agrees : store.Agrees log) (few : log.allocations < Arithmetic.halfLimit)
    (span : Span) : store.Serves log (.allocate span) := by
  obtain ⟨id, after, events, yields, sound, new, ledger, -⟩ :=
    allocate_yields agrees.sound (agrees.allocations_eq ▸ few) span
  refine serves_of_yields (yields.bind (Action.yields_pure _ _)) ?_ ?_
  · exact ⟨id, fun given => new ((agrees.mem_given id).mp given), rfl⟩
  · refine agrees.append _ sound (congrArg Ledger.bound ledger) ?_
      (congrArg Ledger.allocations ledger)
    rw [ledger]
    ext other
    simp [Ledger.allocate, issuedBy, idGiven?, eq_comm]

/-- A node is taken out through its id and through no other. -/
theorem serves_release (agrees : store.Agrees log) (few : log.allocations < Arithmetic.halfLimit)
    (id : NodeId) : store.Serves log (.release id) := by
  cases found : store.get? id with
  | none =>
    obtain ⟨fault, refuses⟩ := release_refuses found
    refine serves_of_refuses agrees refuses.bind rfl ?_
    simp [Conforms, ← agrees.get?_eq, found]
  | some node =>
    obtain ⟨after, yields, sound, ledger⟩ :=
      release_yields agrees.sound (agrees.allocations_eq ▸ few) found
    refine serves_of_yields (yields.bind (Action.yields_pure _ _)) ?_ ?_
    · simp [Conforms, ← agrees.get?_eq, found]
    · refine agrees.append _ sound (congrArg Ledger.bound ledger) ?_
        (congrArg Ledger.allocations ledger)
      rw [ledger]
      simp [Ledger.release, issuedBy, idGiven?]

/-- A look at a node changes nothing. -/
theorem serves_get (agrees : store.Agrees log) (id : NodeId) : store.Serves log (.get id) := by
  cases found : store.get? id with
  | none =>
    obtain ⟨fault, refused⟩ := error_of_get?_eq_none found
    have refuses : (Action.read fun store : Store => store.node id).Refuses store fault :=
      Action.refuses_read refused
    refine serves_of_refuses agrees refuses.bind rfl ?_
    simp [Conforms, ← agrees.get?_eq, found]
  | some node =>
    refine serves_of_yields (Action.Yields.silent_bind
      (Action.yields_read (get?_eq_some_iff.mp found)) (Action.yields_pure _ _)) ?_ ?_
    · simp [Conforms, ← agrees.get?_eq, found]
    · exact agrees.append _ agrees.sound rfl (by simp [issuedBy, idGiven?]) rfl

/-- A node is changed through its id and through no other. -/
theorem serves_write (agrees : store.Agrees log) (id : NodeId) (change : Node → Node) :
    store.Serves log (.write id change) := by
  cases found : store.get? id with
  | none =>
    obtain ⟨fault, refuses⟩ := write_refuses found change
    refine serves_of_refuses agrees refuses.bind rfl ?_
    simp [Conforms, ← agrees.get?_eq, found]
  | some node =>
    obtain ⟨after, yields, sound, ledger⟩ := write_yields agrees.sound found change
    refine serves_of_yields (yields.bind (Action.yields_pure _ _)) ?_ ?_
    · simp [Conforms, ← agrees.get?_eq, found]
    · refine agrees.append _ sound (congrArg Ledger.bound ledger) ?_
        (congrArg Ledger.allocations ledger)
      rw [ledger]
      simp [Ledger.write, issuedBy, idGiven?]

/-- A reset takes every node out. -/
theorem serves_reset (agrees : store.Agrees log) (few : log.allocations < Arithmetic.halfLimit) :
    store.Serves log .reset := by
  obtain ⟨after, yields, sound, ledger⟩ :=
    reset_yields agrees.sound (agrees.allocations_eq ▸ few)
  refine serves_of_yields (yields.bind (Action.yields_pure _ _)) rfl ?_
  refine agrees.append _ sound (congrArg Ledger.bound ledger) ?_
    (congrArg Ledger.allocations ledger)
  rw [ledger]
  simp [Ledger.reset, issuedBy, idGiven?]

/-- Every call on a store that agrees with a log is served as it ought to be. -/
theorem serves (agrees : store.Agrees log) (few : log.allocations < Arithmetic.halfLimit)
    (call : Call) : store.Serves log call := by
  cases call with
  | allocate span => exact serves_allocate agrees few span
  | release id => exact serves_release agrees few id
  | get id => exact serves_get agrees id
  | write id change => exact serves_write agrees id change
  | reset => exact serves_reset agrees few

end Calls

/-! ## Many calls -/

/-- Agreement is kept over calls of any number, as long as few of them are allocations. -/
theorem Agrees.after {store : Store} {before : Log} (agrees : store.Agrees before)
    (calls : List Call)
    (few : before.allocations + calls.countP Call.allocates < Arithmetic.halfLimit) :
    (Action.after perform calls store).Agrees (before ++ log calls store) := by
  -- Induction on the calls, with the log of all that were made before.
  induction calls generalizing store before with
  | nil => simpa [log] using agrees
  | cons call rest induction =>
    have served := serves agrees (by omega) call
    rw [List.countP_cons] at few
    have later := induction served.agrees (by
      simp only [Log.allocations, List.countP_append, List.countP_singleton] at few ⊢
      omega)
    simpa [log] using later

/-- A store is a partial map. Whatever calls were made on it before, with whatever ids, it reaches
the nodes that their answers tell of; the next call is answered as that map allows and changes
the map as it ought to; and when it meets a fault, the store with all its counters is as it was. -/
theorem partial_map {store : Store} (fresh : store.IsFresh) (made : List Call) (call : Call)
    (few : (made ++ [call]).countP Call.allocates < Arithmetic.halfLimit) :
    let known := log made store
    let current := Action.after perform made store
    let outcome := (perform call).run current
    current.get? = known.bound
      ∧ Conforms known.bound known.given outcome.answer call
      ∧ outcome.state.get? = record known.bound (call, outcome.answer)
      ∧ ∀ fault, outcome.answer = .error fault → outcome.state = current := by
  intro known current outcome
  rw [List.countP_append] at few
  have agrees : current.Agrees known := fresh.agrees.after made (by
    simp only [Log.allocations, List.countP_nil]
    omega)
  have served : current.Serves known call := serves agrees (by
    rw [allocations_log]
    omega) call
  refine ⟨agrees.get?_eq, served.conforms, ?_, served.unchanged⟩
  rw [served.agrees.get?_eq]
  simp [Log.bound, outcome]

/-- A slot of a pool is used again, and the id it was used under before reaches nothing. -/
theorem partial_map_recycled :
    let store : Store := .pool (.ofSlots 1)
    let stale : NodeId := ⟨.slab, 0, 0⟩
    let made : List Call :=
      [.allocate ⟨0, 1⟩, .allocate ⟨2, 3⟩, .release stale, .allocate ⟨4, 5⟩]
    let current := Action.after perform made store
    store.IsFresh ∧ (made ++ [Call.get stale]).countP Call.allocates < Arithmetic.halfLimit
      ∧ (log made store).given = [stale, ⟨.heap, 0, 0⟩, ⟨.slab, 0, 1⟩]
      ∧ current.get? ⟨.slab, 0, 1⟩ = some (.unlinked ⟨4, 5⟩)
      ∧ (∃ fault, ((perform (.get stale)).run current).answer = .error fault)
      ∧ ((perform (.get stale)).run current).state = current := by
  intro store stale made current
  have fresh : store.IsFresh := Or.inr ⟨1, rfl⟩
  have few : (made ++ [Call.get stale]).countP Call.allocates < Arithmetic.halfLimit := by decide
  obtain ⟨reaches, conforms, -, unchanged⟩ := partial_map fresh made (Call.get stale) few
  have absent : (log made store).bound stale = none := by decide +kernel
  have refused : ∃ fault, ((perform (.get stale)).run current).answer = .error fault := by
    simpa only [Conforms, absent] using conforms
  refine ⟨fresh, few, by decide +kernel, ?_, refused, ?_⟩
  · rw [reaches]
    decide +kernel
  · obtain ⟨fault, refused⟩ := refused
    exact unchanged fault refused

end Store

end MergedSpans
