import TransactionLookup.Proofs.Store.Identity
import TransactionLookup.Session.Run

/-!
# The writes of a session

What a session does to its store, as the writes that reach it one after the other: those of a schedule
stand before the commit of the round that they come into. At every moment of a session, also within
the schedules of updates at any depth, the store is the one that the writes so far have made.
-/

namespace TransactionLookup.Session

mutual

/-- The writes of a command. -/
def Command.writes (s : State) : Command → List Write
  | .insert r => [.insert r]
  | .upsert r => [.upsert r]
  | .remove hash => [.remove hash]
  | .update hash edit during =>
    match s.store.get? hash with
    | none => []
    | some base => roundWrites hash edit s base during
  | .unreadable _ | .get _ | .lookup _ | .size | .hold _ _ | .held _ | .request _ _ _ _ => []

/-- The writes of commands one after the other. -/
def writesAll (s : State) : List Command → List Write
  | [] => []
  | c :: cs => c.writes s ++ writesAll (c.run s).1 cs

/-- The writes of the rounds of an update. -/
def roundWrites (hash : TxHash) (edit : Record → Record) (s : State) (base : Version) :
    List (List Command) → List Write
  | [] => [.commit hash base (edit base.record)]
  | cs :: during =>
    let left := (runAll s cs).1
    writesAll s cs ++ .commit hash base (edit base.record) ::
      match left.store.commit hash base (edit base.record) with
      | .superseded latest =>
        roundWrites hash edit (left.logged [.updateRetried hash]) latest during
      | .published _ | .gone => []

end

namespace State

theorem store_insert (s : State) (r : Record) :
    (s.insert r).1.store = s.store.write (.insert r) := by
  unfold insert Store.write
  split <;> simp_all

@[simp] theorem store_logged (s : State) (events : List Event) :
    (s.logged events).store = s.store := rfl

@[simp] theorem store_withStore (s : State) (store : Store) : (s.withStore store).store = store :=
  rfl

@[simp] theorem store_lookup (s : State) (hash : TxHash) : (s.lookup hash).1.store = s.store := rfl

@[simp] theorem store_hold (s : State) (hash : TxHash) (name : String) :
    (s.hold hash name).1.store = s.store := by
  unfold hold
  split <;> rfl

end State

theorem runRounds_cons (hash : TxHash) (edit : Record → Record) (s : State) (base : Version)
    (cs : List Command) (during : List (List Command)) :
    runRounds hash edit s base (cs :: during) =
      match (runAll s cs).1.store.commit hash base (edit base.record) with
      | .published store =>
        ((runAll s cs).1.withStore store, .last true base.record [(runAll s cs).2])
      | .gone => ((runAll s cs).1, .last false base.record [(runAll s cs).2])
      | .superseded latest =>
        let later := runRounds hash edit ((runAll s cs).1.logged [.updateRetried hash]) latest during
        (later.1, later.2.after base.record [(runAll s cs).2]) := by
  refine (runRounds.eq_def hash edit s base (cs :: during)).trans ?_
  rfl

mutual

/-- The store after a command is the one that its writes make. -/
theorem Command.store_run (s : State) (c : Command) :
    (c.run s).1.store = s.store.writeAll (c.writes s) := by
  match c with
  | .insert r =>
    rw [Command.run, State.store_insert, Command.writes]
    rfl
  | .upsert r =>
    rw [Command.run, Command.writes]
    rfl
  | .remove hash =>
    rw [Command.run, Command.writes]
    rfl
  | .update hash edit during =>
    rw [Command.run, Command.writes]
    cases s.store.get? hash with
    | none => rfl
    | some base => exact store_runRounds hash edit s base during
  | .unreadable _ | .get _ | .size | .held _ =>
    rw [Command.run, Command.writes]
    rfl
  | .lookup hash =>
    rw [Command.run, Command.writes, State.store_lookup]
    rfl
  | .hold hash name =>
    rw [Command.run, Command.writes, State.store_hold]
    rfl
  | .request method target headers body =>
    rw [Command.run, Command.writes]
    split <;> rfl

theorem store_runAll (s : State) (cs : List Command) :
    (runAll s cs).1.store = s.store.writeAll (writesAll s cs) := by
  match cs with
  | [] => rw [runAll, writesAll]; rfl
  | c :: cs =>
    rw [runAll, writesAll, Store.writeAll_append, ← Command.store_run s c]
    exact store_runAll (c.run s).1 cs

theorem store_runRounds (hash : TxHash) (edit : Record → Record) (s : State) (base : Version)
    (during : List (List Command)) :
    (runRounds hash edit s base during).1.store =
      s.store.writeAll (roundWrites hash edit s base during) := by
  match during with
  | [] =>
    rw [runRounds, roundWrites, Store.writeAll_cons, Store.writeAll_nil, Store.write]
    cases s.store.commit hash base (edit base.record) <;> rfl
  | cs :: during =>
    rw [runRounds_cons, roundWrites, Store.writeAll_append, ← store_runAll s cs,
      Store.writeAll_cons, Store.write]
    dsimp only
    cases (runAll s cs).1.store.commit hash base (edit base.record) with
    | published store => rfl
    | gone => rfl
    | superseded latest =>
      exact store_runRounds hash edit ((runAll s cs).1.logged [.updateRetried hash]) latest during

end

end TransactionLookup.Session
