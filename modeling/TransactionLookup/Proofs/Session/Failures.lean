import TransactionLookup.Proofs.Session.Independence
import TransactionLookup.Proofs.Session.Logging

/-!
# Failures without a trace

A command that tells that nothing has come of it has left every version in its place, and not only a
record that is equal. An update that fails at its commit has left what its schedule would have left
alone. So commands that fail while an update works on its copy do not overtake it, even if they are
for its own hash: without them it goes through the same rounds and publishes the same
(`failures_leave_no_trace`).
-/

namespace TransactionLookup.Session

/-- Whether a reply tells that nothing has come of a command: it has failed, or there was nothing to
be found, taken away or changed. An update that has begun is not counted here, whatever becomes of
it, since its schedule has come to something. -/
def Reply.inVain : Reply → Bool
  | .unreadable _ | .badRequest _ | .fault _ => true
  | .removed old | .read old | .looked old | .version old => old.isNone
  | .held found => !found
  | .updated published seen _ => !published && seen.isEmpty
  | .response answer _ => 400 ≤ answer.status
  | .inserted | .replaced _ | .size _ => false

variable {s s' : State} {c : Command} {hash : TxHash} {edit : Record → Record} {base : Version}

/-! ## Single commands -/

/-- A command of which nothing has come leaves the store with the versions that it had. -/
theorem store_run_of_inVain (vain : (c.run s).2.inVain = true) : (c.run s).1.store = s.store := by
  cases c with
  | unreadable | get | lookup | size | hold | held | request =>
    rw [Command.store_run]
    rfl
  | insert r =>
    rw [Command.run, State.insert] at vain ⊢
    cases inserted : s.store.insert r with
    | ok store =>
      rw [inserted] at vain
      cases vain
    | error fault => rfl
  | upsert r =>
    rw [Command.run] at vain
    cases vain
  | remove hash =>
    rw [Command.run] at vain ⊢
    have absent : s.store.get? hash = none := by
      simpa [State.remove, Store.remove, Store.record?, Reply.inVain] using vain
    exact Store.erase_of_absent absent
  | update hash edit during =>
    rw [Command.run] at vain ⊢
    cases there : s.store.get? hash with
    | none => rfl
    | some base =>
      -- an update that has found a record has seen it
      have seen := length_seen_pos hash edit s base during
      rw [there] at vain
      simp only [Rounds.reply, Reply.inVain, Bool.and_eq_true, List.isEmpty_iff] at vain
      rw [vain.2] at seen
      exact absurd seen (Nat.lt_irrefl 0)

/-- A read that meets a fault tells so, be it made for a command or for a request. -/
theorem inVain_of_fault {fault : Fault} (reads : c = .get hash ∨ c.LooksUp hash)
    (met : s.faults.on hash = some fault) : (c.run s).2.inVain = true := by
  have found : s.find hash = .error fault := find_eq_error_iff.mpr met
  rcases reads with rfl | looks
  · rw [Command.run, found]
    rfl
  · have shown := (run_of_looksUp (s := s) looks).2
    rw [found] at shown
    generalize (c.run s).2 = reply at shown ⊢
    cases reply with
    | fault => rfl
    | response answer reads =>
      simp only [Reply.outcome?] at shown
      -- the statuses of a lookup that failed are those of the server
      split at shown
      next => cases shown
      next => cases shown
      next same => simp [Reply.inVain, same]
      next same => simp [Reply.inVain, same]
      next => cases shown
    | looked r => cases r <;> cases shown
    | _ => cases shown

/-! ## Runs from the same store -/

mutual

theorem Thins.refl (cs : List Command) : Thins cs cs := by
  match cs with
  | [] => exact .nil
  | .update hash edit during :: cs => exact .update (ThinsEach.refl during) (Thins.refl cs)
  | .unreadable _ :: cs | .insert _ :: cs | .upsert _ :: cs | .remove _ :: cs | .get _ :: cs
  | .lookup _ :: cs | .size :: cs | .hold _ _ :: cs | .held _ :: cs | .request _ _ _ _ :: cs =>
    exact .kept rfl (Thins.refl cs)

theorem ThinsEach.refl (during : List (List Command)) : ThinsEach during during := by
  match during with
  | [] => exact .nil
  | cs :: during => exact .cons (Thins.refl cs) (ThinsEach.refl during)

end

theorem store_runAll_congr (same : s.store = s'.store) (cs : List Command) :
    (runAll s cs).1.store = (runAll s' cs).1.store :=
  ((Thins.refl cs).run same).store

theorem store_run_congr (same : s.store = s'.store) (c : Command) :
    (c.run s).1.store = (c.run s').1.store := by
  have all := store_runAll_congr same [c]
  simpa only [runAll] using all

theorem state_runAll_append (s : State) (before after : List Command) :
    (runAll s (before ++ after)).1 = (runAll (runAll s before).1 after).1 := by
  induction before generalizing s with
  | nil => rw [List.nil_append, runAll]
  | cons c before ih =>
    rw [List.cons_append, runAll, runAll]
    exact ih (c.run s).1

/-! ## Updates that fail at their commit -/

theorem get?_of_gone {store : Store} {next : Record}
    (ended : store.commit hash base next = .gone) : store.get? hash = none := by
  unfold Store.commit at ended
  split at ended
  next absent => exact absent
  · split at ended <;> cases ended

/-- An update that fails at its commit leaves what the rounds of its schedule leave that were run,
and no version under its hash. -/
theorem store_runRounds_of_failed (there : s.store.get? hash = some base) (edit : Record → Record)
    (during : List (List Command))
    (failed : (runRounds hash edit s base during).2.published = false) :
    let rounds := runRounds hash edit s base during
    rounds.1.store = (runAll s (during.take rounds.2.seen.length).flatten).1.store ∧
      rounds.1.store.get? hash = none := by
  induction during generalizing s base with
  | nil =>
    -- nothing comes between the last start and its commit
    rw [runRounds, Store.commit_of_get? there] at failed
    cases failed
  | cons cs during ih =>
    rw [runRounds_cons] at failed ⊢
    cases ended : (runAll s cs).1.store.commit hash base (edit base.record) with
    | published store =>
      rw [ended] at failed
      cases failed
    | gone =>
      have one : ((cs :: during).take 1).flatten = cs := by simp
      dsimp only
      exact ⟨by rw [Rounds.last, List.length_singleton, one], get?_of_gone ended⟩
    | superseded latest =>
      -- that the update starts over is told to the log alone
      have found : ((runAll s cs).1.logged [.updateRetried hash]).store.get? hash = some latest :=
        get?_of_superseded ended
      rw [ended] at failed
      obtain ⟨left, absent⟩ := ih found failed
      refine ⟨left.trans ?_, absent⟩
      dsimp only
      rw [Rounds.after, List.length_cons, List.take_succ_cons, List.flatten_cons,
        state_runAll_append]
      apply store_runAll_congr
      rfl

theorem run_of_failed {during : List (List Command)} {seen : List Record}
    {rounds : List (List Reply)}
    (failed : ((Command.update hash edit during).run s).2 = .updated false seen rounds) :
    let left := ((Command.update hash edit during).run s).1.store
    left = (runAll s (during.take seen.length).flatten).1.store ∧ left.get? hash = none ∧
      (seen = [] ↔ s.store.get? hash = none) := by
  rw [Command.run] at failed ⊢
  cases there : s.store.get? hash with
  | none =>
    simp only [there, Reply.updated.injEq] at failed
    obtain ⟨-, rfl, -⟩ := failed
    refine ⟨?_, there, by simp⟩
    rw [List.length_nil, List.take_zero, List.flatten_nil, runAll]
  | some base =>
    simp only [there, Rounds.reply, Reply.updated.injEq] at failed
    obtain ⟨unpublished, rfl, -⟩ := failed
    have seen := length_seen_pos hash edit s base during
    obtain ⟨left, absent⟩ := store_runRounds_of_failed there edit during unpublished
    refine ⟨left, absent, ?_⟩
    simp [List.ne_nil_of_length_pos seen]

/-! ## Sessions without what was in vain -/

mutual

/-- Whether some commands are what is left of others, run from a state, without some of which
nothing has come. A schedule keeps its rounds, and may have fewer of these in each. -/
inductive Spares : State → List Command → List Command → Prop
  | nil (s : State) : Spares s [] []
  | dropped {s : State} {c : Command} {cs cs' : List Command} (vain : (c.run s).2.inVain = true)
      (later : Spares (c.run s).1 cs cs') : Spares s (c :: cs) cs'
  | kept {s : State} {c : Command} {cs cs' : List Command} (later : Spares (c.run s).1 cs cs') :
      Spares s (c :: cs) (c :: cs')
  | update {s : State} {hash : TxHash} {edit : Record → Record}
      {during during' : List (List Command)} {cs cs' : List Command}
      (schedule : SparesEach hash s during during')
      (later : Spares ((Command.update hash edit during).run s).1 cs cs') :
      Spares s (.update hash edit during :: cs) (.update hash edit during' :: cs')

/-- The same for the rounds of a schedule, each from the state that those before it leave. -/
inductive SparesEach : TxHash → State → List (List Command) → List (List Command) → Prop
  | nil (hash : TxHash) (s : State) : SparesEach hash s [] []
  | cons {hash : TxHash} {s : State} {cs cs' : List Command} {during during' : List (List Command)}
      (round : Spares s cs cs')
      (rounds : SparesEach hash ((runAll s cs).1.logged [.updateRetried hash]) during during') :
      SparesEach hash s (cs :: during) (cs' :: during')

end

/-- Whether two updates have gone through the same rounds to the same end. -/
structure SameCourse (run run' : State × Rounds) : Prop where
  store : run.1.store = run'.1.store
  published : run.2.published = run'.2.published
  seen : run.2.seen = run'.2.seen

mutual

theorem Spares.run {s s' : State} {cs cs' : List Command} (spares : Spares s cs cs')
    (same : s.store = s'.store) : (runAll s cs).1.store = (runAll s' cs').1.store := by
  match spares with
  | .nil _ =>
    rw [runAll, runAll]
    exact same
  | .dropped vain later =>
    rw [runAll]
    exact later.run ((store_run_of_inVain vain).trans same)
  | @Spares.kept _ c _ _ later =>
    rw [runAll, runAll]
    exact later.run (store_run_congr same c)
  | @Spares.update _ hash edit during during' _ _ schedule later =>
    have both : ((Command.update hash edit during).run s).1.store =
        ((Command.update hash edit during').run s').1.store := by
      rw [Command.run, Command.run, ← same]
      cases s.store.get? hash with
      | none => exact same
      | some base => exact (schedule.run same edit base).store
    rw [runAll, runAll]
    exact later.run both

theorem SparesEach.run {hash : TxHash} {s s' : State} {during during' : List (List Command)}
    (spares : SparesEach hash s during during') (same : s.store = s'.store)
    (edit : Record → Record) (base : Version) :
    SameCourse (runRounds hash edit s base during) (runRounds hash edit s' base during') := by
  match spares with
  | .nil _ _ =>
    rw [runRounds, runRounds, same]
    cases s'.store.commit hash base (edit base.record) with
    | published store => exact ⟨rfl, rfl, rfl⟩
    | gone => exact ⟨same, rfl, rfl⟩
    | superseded latest => exact ⟨same, rfl, rfl⟩
  | @SparesEach.cons _ _ cs cs' _ _ round rounds =>
    -- the round leaves the same store in both, serial numbers included, and so ends in the same way
    have after := round.run same
    rw [runRounds_cons, runRounds_cons, after]
    cases (runAll s' cs').1.store.commit hash base (edit base.record) with
    | published store => exact ⟨rfl, rfl, rfl⟩
    | gone => exact ⟨after, rfl, rfl⟩
    | superseded latest =>
      have logged : ((runAll s cs).1.logged [.updateRetried hash]).store =
          ((runAll s' cs').1.logged [.updateRetried hash]).store := after
      have later := rounds.run logged edit latest
      exact ⟨later.store, later.published, congrArg (base.record :: ·) later.seen⟩

end

theorem Spares.store_runAll {cs : List Command} (spares : Spares s cs []) :
    (runAll s cs).1.store = s.store := by
  have both := spares.run (rfl : s.store = s.store)
  rwa [runAll] at both

/-- Commands of which nothing has come, one after another, can all be left out. -/
theorem Spares.of_all {cs : List Command} (vain : (runAll s cs).2.all Reply.inVain = true) :
    Spares s cs [] := by
  induction cs generalizing s with
  | nil => exact .nil s
  | cons c cs ih =>
    rw [runAll, List.all_cons, Bool.and_eq_true] at vain
    exact .dropped vain.1 (ih vain.2)

/-- An update in whose first round nothing has come of anything is not overtaken. -/
theorem run_update_spared {r : Record} (stored : s.store.record? hash = some r)
    (edit : Record → Record) {cs : List Command} (spares : Spares s cs [])
    (during : List (List Command)) :
    ((Command.update hash edit (cs :: during)).run s).2 = .updated true [r] [(runAll s cs).2] ∧
      ((Command.update hash edit (cs :: during)).run s).1.store =
        ((Command.update hash edit []).run s).1.store := by
  obtain ⟨base, there, rfl⟩ := Option.map_eq_some_iff.mp stored
  have left : (runAll s ((cs :: during).headD [])).1.store.get? hash = some base := by
    rw [List.headD_cons, spares.store_runAll, there]
  rw [run_update_undisturbed there edit (cs :: during) left]
  exact ⟨rfl, store_run_congr spares.store_runAll _⟩

/-! ## The main statement -/

/-- Whatever tells of failure or absence has left every version in its place: a read that meets a
fault does so, and of an update that fails at its commit only its schedule is left. Without things
that were in vain, in its own schedule or in those of updates there, an update starts its rounds
from the same records, and the same is stored in the end; if there is nothing else in its first
round, it is published at once as if undisturbed. -/
theorem failures_leave_no_trace (s : State) :
    (∀ c : Command, (c.run s).2.inVain = true → (c.run s).1.store = s.store) ∧
    (∀ (c : Command) (hash : TxHash) (fault : Fault), (c = .get hash ∨ c.LooksUp hash) →
      s.faults.on hash = some fault → (c.run s).2.inVain = true) ∧
    (∀ hash edit during seen rounds,
      ((Command.update hash edit during).run s).2 = .updated false seen rounds →
      let left := ((Command.update hash edit during).run s).1.store
      left = (runAll s (during.take seen.length).flatten).1.store ∧ left.get? hash = none ∧
        (seen = [] ↔ s.store.get? hash = none)) ∧
    (∀ hash edit during during', SparesEach hash s during during' →
      let run := (Command.update hash edit during).run s
      let run' := (Command.update hash edit during').run s
      run.1.store = run'.1.store ∧ ∃ published seen rounds rounds',
        run.2 = .updated published seen rounds ∧ run'.2 = .updated published seen rounds') ∧
    ∀ hash edit cs during r, s.store.record? hash = some r → Spares s cs [] →
      ((Command.update hash edit (cs :: during)).run s).2 =
        .updated true [r] [(runAll s cs).2] ∧
      ((Command.update hash edit (cs :: during)).run s).1.store =
        ((Command.update hash edit []).run s).1.store := by
  refine ⟨fun c => store_run_of_inVain, fun c hash fault => inVain_of_fault,
    fun hash edit during seen rounds => run_of_failed, ?_, ?_⟩
  · intro hash edit during during' spares
    dsimp only
    rw [Command.run, Command.run]
    cases s.store.get? hash with
    | none => exact ⟨rfl, false, [], [], [], rfl, rfl⟩
    | some base =>
      have both := spares.run (rfl : s.store = s.store) edit base
      refine ⟨both.store, _, _, _, (runRounds hash edit s base during').2.during, rfl, ?_⟩
      rw [both.published, both.seen]
      rfl
  · intro hash edit cs during r stored spares
    exact run_update_spared stored edit spares during

/-- Around a hash that is stored and whose reads meet a fault: an update in whose first round other
clients fail in every way, one that fails at its commit, and one that is overtaken amid failures. -/
theorem failures_leave_no_trace_racing :
    let a : TxHash := ⟨"a"⟩
    let b : TxHash := ⟨"b"⟩
    let s : State :=
      { store := Store.empty.writeAll [.upsert (Record.new a)]
        faults := { onHashes := [(a, .unavailable "down")] } }
    let cs : List Command :=
      [.insert (Record.new a), .remove b, .update b id [[.upsert (Record.new a)]], .lookup a,
        .request "GET" "/tx/a" [] ""]
    let pay (r : Record) : Record := { r with amount := r.amount + 1 }
    let put : Command := .upsert (Record.new a)
    Spares s cs [] ∧
      ((Command.update a pay (cs :: [[put]])).run s).2 =
        .updated true [Record.new a] [(runAll s cs).2] ∧
      ((Command.get a).run s).1.store = s.store ∧
      ((Command.update a pay [[put], [.remove a, .remove a], [put]]).run s).1.store =
        (runAll s [put, .remove a, .remove a]).1.store ∧
      ((Command.update a pay [put :: cs, cs]).run s).1.store =
        ((Command.update a pay [[put], []]).run s).1.store := by
  intro a b s cs pay put
  have spares : Spares s cs [] := .of_all (by decide +kernel)
  have later : Spares (put.run s).1 cs [] := .of_all (by decide +kernel)
  have after : Spares ((runAll s (put :: cs)).1.logged [.updateRetried a]) cs [] :=
    .of_all (by decide +kernel)
  obtain ⟨alone, faulted, failed, thinned, undisturbed⟩ := failures_leave_no_trace s
  have met : ((Command.get a).run s).2.inVain = true :=
    faulted (.get a) a (.unavailable "down") (.inl rfl) rfl
  refine ⟨spares, (undisturbed a pay cs [[put]] (Record.new a) rfl spares).1,
    alone (.get a) met, (failed a pay [[put], [.remove a, .remove a], [put]] _ _ rfl).1, ?_⟩
  exact (thinned a pay [put :: cs, cs] [[put], []]
    (.cons (.kept later) (.cons after (.nil _ _)))).1

end TransactionLookup.Session
