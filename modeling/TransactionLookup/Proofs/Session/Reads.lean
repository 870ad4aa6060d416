import TransactionLookup.Proofs.Session.Confinement

/-!
# Reads without a trace

Of a session some reads are left out, at whatever depth of a schedule they stand: lookups and requests,
readings of the store, its size and versions that are kept. Nothing that is left can tell. All writes
reply as before, each update starts its rounds from the same records, and the same is stored in the end
(`reads_leave_no_trace`). The reason is that reads leave the store as it is, serial numbers included,
and that nothing but the store decides what a write comes to.
-/

namespace TransactionLookup

namespace Http.Exchange

/-- What is told of a transaction does not depend on the counters. -/
theorem answer_transaction_eq {r : Request} {segment : List Char}
    (path : r.path = transactionPath segment) (single : isSegment segment = true)
    (find : TxHash → Finding) (c c' : Counters) : answer find c r = answer find c' r := by
  have routed : ofRoute find c r = ofRoute find c' r := by
    rw [ofRoute, ofRoute, path, ofPath_transactionPath single]
  rw [answer_eq, answer_eq, routed]

end Http.Exchange

namespace Session

/-- Whether a command only reads. -/
def Command.isRead : Command → Bool
  | .get _ | .lookup _ | .size | .hold _ _ | .held _ | .request _ _ _ _ => true
  | .unreadable _ | .insert _ | .upsert _ | .remove _ | .update _ _ _ => false

mutual

/-- Whether some commands are what is left of others without some of the reads among them. A schedule
keeps its rounds, and may have fewer reads in each. -/
inductive Thins : List Command → List Command → Prop
  | nil : Thins [] []
  | dropped {c : Command} {cs cs' : List Command} (read : c.isRead = true) (later : Thins cs cs') :
      Thins (c :: cs) cs'
  | kept {c : Command} {cs cs' : List Command} (single : c.isUpdate = false)
      (later : Thins cs cs') : Thins (c :: cs) (c :: cs')
  | update {hash : TxHash} {edit : Record → Record} {during during' : List (List Command)}
      {cs cs' : List Command} (schedule : ThinsEach during during') (later : Thins cs cs') :
      Thins (.update hash edit during :: cs) (.update hash edit during' :: cs')

inductive ThinsEach : List (List Command) → List (List Command) → Prop
  | nil : ThinsEach [] []
  | cons {cs cs' : List Command} {during during' : List (List Command)} (round : Thins cs cs')
      (rounds : ThinsEach during during') : ThinsEach (cs :: during) (cs' :: during')

end

mutual

/-- The reply to a command, without those to reads within it. -/
def Command.unread : Command → Reply → Reply
  | .update _ _ during, .updated published seen rounds =>
    .updated published seen (unreadRounds during rounds)
  | _, reply => reply

/-- The replies to commands, without those to reads. -/
def unreadAll : List Command → List Reply → List Reply
  | c :: cs, reply :: replies =>
    if c.isRead then unreadAll cs replies else c.unread reply :: unreadAll cs replies
  | _, _ => []

def unreadRounds : List (List Command) → List (List Reply) → List (List Reply)
  | cs :: during, replies :: rounds => unreadAll cs replies :: unreadRounds during rounds
  | _, _ => []

end

/-! ## Single commands -/

variable {s s' : State} {c : Command} {hash : TxHash} {base : Version}

theorem store_run_read (read : c.isRead = true) (s : State) : (c.run s).1.store = s.store := by
  rw [Command.store_run]
  cases c with
  | unreadable | insert | upsert | remove | update => cases read
  | get | lookup | size | hold | held | request => rfl

theorem store_runAll_reads {cs : List Command} (reads : ∀ c ∈ cs, c.isRead = true) (s : State) :
    (runAll s cs).1.store = s.store := by
  induction cs generalizing s with
  | nil => rw [runAll]
  | cons c cs ih =>
    rw [runAll]
    dsimp only
    rw [ih (fun c member => reads c (List.mem_cons_of_mem _ member)),
      store_run_read (reads c List.mem_cons_self)]

/-- A command that is neither a read nor an update sees nothing but the store. -/
theorem run_eq_of_store (single : c.isUpdate = false) (writes : c.isRead = false)
    (same : s.store = s'.store) :
    (c.run s).1.store = (c.run s').1.store ∧ (c.run s).2 = (c.run s').2 := by
  cases c with
  | update => cases single
  | get | lookup | size | hold | held | request => cases writes
  | unreadable report =>
    rw [Command.run, Command.run]
    exact ⟨same, rfl⟩
  | insert r =>
    rw [Command.run, Command.run, State.insert, State.insert, same]
    cases s'.store.insert r with
    | ok store => exact ⟨rfl, rfl⟩
    | error fault => exact ⟨same, rfl⟩
  | upsert r =>
    rw [Command.run, Command.run, State.upsert, State.upsert, same]
    exact ⟨rfl, rfl⟩
  | remove hash =>
    rw [Command.run, Command.run, State.remove, State.remove, same]
    exact ⟨rfl, rfl⟩

theorem unread_of_single (single : c.isUpdate = false) (reply : Reply) : c.unread reply = reply := by
  cases c with
  | update => cases single
  | _ => rfl

/-! ## Runs side by side -/

/-- Whether two runs have left the same store and given the same replies, but for those to reads. -/
structure SameWrites (cs cs' : List Command) (run run' : State × List Reply) : Prop where
  store : run.1.store = run'.1.store
  replies : unreadAll cs run.2 = unreadAll cs' run'.2

structure SameRounds (during during' : List (List Command)) (run run' : State × Rounds) : Prop where
  store : run.1.store = run'.1.store
  published : run.2.published = run'.2.published
  seen : run.2.seen = run'.2.seen
  rounds : unreadRounds during run.2.during = unreadRounds during' run'.2.during

theorem SameWrites.dropped {cs cs' : List Command} (read : c.isRead = true) {run' : State × List Reply}
    (later : SameWrites cs cs' (runAll (c.run s).1 cs) run') :
    SameWrites (c :: cs) cs' (runAll s (c :: cs)) run' := by
  rw [runAll]
  refine ⟨later.store, ?_⟩
  simp only [unreadAll, if_pos read]
  exact later.replies

theorem SameWrites.cons {cs cs' : List Command} {c' : Command} (same : c.isRead = c'.isRead)
    (reply : c.isRead = false → c.unread (c.run s).2 = c'.unread (c'.run s').2)
    (later : SameWrites cs cs' (runAll (c.run s).1 cs) (runAll (c'.run s').1 cs')) :
    SameWrites (c :: cs) (c' :: cs') (runAll s (c :: cs)) (runAll s' (c' :: cs')) := by
  rw [runAll, runAll]
  refine ⟨later.store, ?_⟩
  simp only [unreadAll, ← same]
  cases read : c.isRead with
  | true => exact later.replies
  | false =>
    simp only [Bool.false_eq_true, if_false]
    rw [reply read, later.replies]

mutual

theorem Thins.run {s s' : State} {cs cs' : List Command} (thins : Thins cs cs')
    (same : s.store = s'.store) : SameWrites cs cs' (runAll s cs) (runAll s' cs') := by
  match thins with
  | .nil =>
    rw [runAll, runAll]
    exact ⟨same, rfl⟩
  | .dropped read later => exact .dropped read (later.run ((store_run_read read s).trans same))
  | @Thins.kept c _ _ single later =>
    cases read : c.isRead with
    | true =>
      have after : (c.run s).1.store = (c.run s').1.store := by
        rw [store_run_read read, store_run_read read, same]
      exact .cons rfl (fun writes => by rw [read] at writes; cases writes) (later.run after)
    | false =>
      obtain ⟨after, reply⟩ := run_eq_of_store single read same
      refine .cons rfl (fun _ => ?_) (later.run after)
      rw [unread_of_single single, unread_of_single single, reply]
  | @Thins.update hash edit during during' cs cs' schedule later =>
    have both : ((Command.update hash edit during).run s).1.store =
          ((Command.update hash edit during').run s').1.store ∧
        (Command.update hash edit during).unread ((Command.update hash edit during).run s).2 =
          (Command.update hash edit during').unread
            ((Command.update hash edit during').run s').2 := by
      rw [Command.run, Command.run, ← same]
      cases s.store.get? hash with
      | none => exact ⟨same, by simp only [Command.unread, unreadRounds]⟩
      | some base =>
        obtain ⟨store, published, seen, rounds⟩ := schedule.run same hash edit base
        refine ⟨store, ?_⟩
        simp only [Rounds.reply, Command.unread]
        rw [published, seen, rounds]
    exact .cons rfl (fun _ => both.2) (later.run both.1)

theorem ThinsEach.run {s s' : State} {during during' : List (List Command)}
    (thins : ThinsEach during during') (same : s.store = s'.store) (hash : TxHash)
    (edit : Record → Record) (base : Version) :
    SameRounds during during' (runRounds hash edit s base during)
      (runRounds hash edit s' base during') := by
  match thins with
  | .nil =>
    rw [runRounds, runRounds, same]
    cases s'.store.commit hash base (edit base.record) with
    | published store => exact ⟨rfl, rfl, rfl, rfl⟩
    | gone => exact ⟨same, rfl, rfl, rfl⟩
    | superseded latest => exact ⟨same, rfl, rfl, rfl⟩
  | @ThinsEach.cons cs cs' _ _ round rounds =>
    obtain ⟨after, replies⟩ := round.run same
    rw [runRounds_cons, runRounds_cons, after]
    cases (runAll s' cs').1.store.commit hash base (edit base.record) with
    | published store =>
      refine ⟨rfl, rfl, rfl, ?_⟩
      simp only [Rounds.last, unreadRounds, replies]
    | gone =>
      refine ⟨after, rfl, rfl, ?_⟩
      simp only [Rounds.last, unreadRounds, replies]
    | superseded latest =>
      have logged : ((runAll s cs).1.logged [.updateRetried hash]).store =
          ((runAll s' cs').1.logged [.updateRetried hash]).store := after
      have later := rounds.run logged hash edit latest
      refine ⟨later.store, later.published, ?_, ?_⟩
      · simp only [Rounds.after, later.seen]
      · simp only [Rounds.after, List.singleton_append, unreadRounds, replies, later.rounds]

end

/-! ## Requests -/

/-- An update in whose first round there are only reads is not overtaken. -/
theorem run_update_reads {r : Record} (stored : s.store.record? hash = some r)
    (edit : Record → Record) {cs : List Command} (reads : ∀ c ∈ cs, c.isRead = true)
    (during : List (List Command)) :
    ((Command.update hash edit (cs :: during)).run s).2 =
      .updated true [r] [(runAll s cs).2] := by
  obtain ⟨base, there, rfl⟩ := Option.map_eq_some_iff.mp stored
  have kept : (runAll s cs).1.store.get? hash = some base := by
    rw [store_runAll_reads reads, there]
  rw [Command.run, there]
  dsimp only
  rw [runRounds_cons, Store.commit_of_get? kept]
  rfl

theorem faults_performAll (s : State) (acts : List Act) : (s.performAll acts).faults = s.faults := by
  induction acts generalizing s with
  | nil => rfl
  | cons a acts ih =>
    rw [State.performAll_cons, ih]
    cases a with
    | command c single => exact faults_run single s
    | commit hash base next =>
      rw [State.perform]
      split <;> rfl

theorem faults_runAll (s : State) (cs : List Command) : (runAll s cs).1.faults = s.faults := by
  rw [← (comes_all s cs).state, faults_performAll]

/-- Requests for one transaction get one reply as long as the store and its faults are the same. -/
theorem run_request_transaction_eq {method target body : String} {headers : List (String × String)}
    {r : Http.Request} (made : Http.Request.of method target headers body = .ok r)
    {segment : List Char} (path : r.path = Http.transactionPath segment)
    (single : Http.isSegment segment = true) (store : s.store = s'.store)
    (faults : s.faults = s'.faults) :
    ((Command.request method target headers body).run s).2 =
      ((Command.request method target headers body).run s').2 := by
  have find : s.find = s'.find := by
    funext hash
    rw [State.find, State.find, store, faults]
  rw [run_request made, run_request made]
  simp only [State.answer, find,
    Http.Exchange.answer_transaction_eq path single s'.find s.counters s'.counters]

/-! ## The main statement -/

/-- Without some of its reads a session stores the same and replies the same to all that is left. A
request never changes what is stored, so an update with nothing but reads in its way is published at
once, and a request for a transaction gets the same response until something is written. -/
theorem reads_leave_no_trace (s : State) :
    (∀ cs cs', Thins cs cs' →
      (runAll s cs).1.store = (runAll s cs').1.store ∧
      unreadAll cs (runAll s cs).2 = unreadAll cs' (runAll s cs').2) ∧
    (∀ method target headers body,
      ((Command.request method target headers body).run s).1.store = s.store) ∧
    (∀ hash edit cs during r, (∀ c ∈ cs, Command.isRead c = true) →
      s.store.record? hash = some r →
      ((Command.update hash edit (cs :: during)).run s).2 =
        .updated true [r] [(runAll s cs).2]) ∧
    ∀ method target headers body r segment between,
      Http.Request.of method target headers body = .ok r →
      r.path = Http.transactionPath segment → Http.isSegment segment = true →
      let first := (Command.request method target headers body).run s
      let later := (runAll first.1 between).1
      later.store = first.1.store →
        ((Command.request method target headers body).run later).2 = first.2 := by
  refine ⟨?_, ?_, ?_, ?_⟩
  · intro cs cs' thins
    obtain ⟨store, replies⟩ := thins.run (rfl : s.store = s.store)
    exact ⟨store, replies⟩
  · intro method target headers body
    exact store_run_read rfl s
  · intro hash edit cs during r reads stored
    exact run_update_reads stored edit reads during
  · intro method target headers body r segment between made path single first later same
    have store : first.1.store = s.store := store_run_read rfl s
    have faults : later.faults = s.faults :=
      (faults_runAll first.1 between).trans (faults_run rfl s)
    exact run_request_transaction_eq made path single (same.trans store) faults

/-- Reads are left out before an update, in its first round and in the update that overtakes it there;
one of them would have met a fault. -/
theorem reads_leave_no_trace_overtaken :
    let hash : TxHash := ⟨"a"⟩
    let add (n : UInt64) (r : Record) : Record := { r with amount := r.amount + n }
    let s : State :=
      { store := Store.empty.writeAll [.upsert (Record.new hash)]
        faults := { everywhere := some (.unavailable "down") } }
    let ask (method : String) : Command := .request method "/tx/a" [] ""
    let cs : List Command :=
      [ask "GET", .hold hash "old",
        .update hash (add 1)
          [[.lookup hash, .update hash (add 10) [[ask "DELETE"]], .size], [.held "old"]]]
    let cs' : List Command := [.update hash (add 1) [[.update hash (add 10) [[]]], []]]
    Thins cs cs' ∧
      (runAll s cs).1.store = (runAll s cs').1.store ∧
      unreadAll cs (runAll s cs).2 = unreadAll cs' (runAll s cs').2 ∧
      (runAll s cs').1.store.record? hash = some { Record.new hash with amount := 11 } ∧
      ((Command.update hash (add 1) [[ask "PUT"]]).run s).2 =
        .updated true [Record.new hash] [(runAll s [ask "PUT"]).2] := by
  intro hash add s ask cs cs'
  have thins : Thins cs cs' := by
    refine .dropped rfl (.dropped rfl (.update (.cons (.dropped rfl (.update (.cons ?_ .nil) ?_))
      (.cons (.dropped rfl .nil) .nil)) .nil))
    · exact .dropped rfl .nil
    · exact .dropped rfl .nil
  obtain ⟨thinned, -, update, -⟩ := reads_leave_no_trace s
  obtain ⟨store, replies⟩ := thinned cs cs' thins
  exact ⟨thins, store, replies, by decide +kernel,
    update hash (add 1) [ask "PUT"] [] (Record.new hash) (by decide) (by decide)⟩

end Session

end TransactionLookup
