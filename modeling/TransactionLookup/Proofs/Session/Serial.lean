import TransactionLookup.Proofs.Clients.Linearizability
import TransactionLookup.Proofs.Session.Acts

/-!
# Sessions one operation at a time

The commands of a session in the order in which they end: what is done in the schedule of an update
ends before the update does. In this order each of them is a single step on the contents of the store,
also an update that has been overtaken and has started over (`ends_all`). So a session tells no more
of its updates than operations do that never overlap.
-/

namespace TransactionLookup

namespace Clients

/-- Whether operations, each as a single step, give their answers and lead from one ledger to
another. -/
def Serial (start : Ledger) (calls : List (Operation × Answer)) (final : Ledger) : Prop :=
  oneByOne start (calls.map Prod.fst) = (final, calls.map Prod.snd)

variable {l middle final : Ledger} {operation : Operation} {answer : Answer}

theorem serial_nil (l : Ledger) : Serial l [] l := rfl

theorem serial_cons_iff {calls : List (Operation × Answer)} :
    Serial l ((operation, answer) :: calls) final ↔
      ∃ middle, operation.atOnce l = (middle, answer) ∧ Serial middle calls final := by
  simp only [Serial, List.map_cons, oneByOne, Prod.mk.injEq, List.cons.injEq]
  constructor
  · rintro ⟨state, given, answers⟩
    exact ⟨(operation.atOnce l).1, by rw [← given], by rw [← state, ← answers]⟩
  · rintro ⟨middle, single, later⟩
    rw [single, later]
    exact ⟨rfl, rfl, rfl⟩

theorem serial_single (single : operation.atOnce l = (final, answer)) :
    Serial l [(operation, answer)] final :=
  serial_cons_iff.mpr ⟨final, single, serial_nil final⟩

theorem Serial.append {before after : List (Operation × Answer)} (first : Serial l before middle)
    (later : Serial middle after final) : Serial l (before ++ after) final := by
  induction before generalizing l with
  | nil =>
    cases first
    exact later
  | cons call before ih =>
    obtain ⟨next, single, rest⟩ := serial_cons_iff.mp first
    exact serial_cons_iff.mpr ⟨next, single, ih rest⟩

end Clients

namespace Session

open Clients

/-! ## The order of the ends -/

mutual

/-- What ends within a command: the schedule of an update, as far as it is run, with the replies. -/
def Command.within (s : State) : Command → List (Command × Reply)
  | .update hash edit during =>
    match s.store.get? hash with
    | none => []
    | some base => roundsWithin hash edit s base during
  | .unreadable _ | .insert _ | .upsert _ | .remove _ | .get _ | .lookup _ | .size | .hold _ _
  | .held _ | .request _ _ _ _ => []

/-- The commands that end in a run, at whatever depth of a schedule, with their replies. -/
def endedAll (s : State) : List Command → List (Command × Reply)
  | [] => []
  | c :: cs => c.within s ++ (c, (c.run s).2) :: endedAll (c.run s).1 cs

/-- What ends within the rounds of an update. -/
def roundsWithin (hash : TxHash) (edit : Record → Record) (s : State) (base : Version) :
    List (List Command) → List (Command × Reply)
  | [] => []
  | cs :: during =>
    let left := (runAll s cs).1
    endedAll s cs ++
      match left.store.commit hash base (edit base.record) with
      | .superseded latest => roundsWithin hash edit (left.logged [.updateRetried hash]) latest during
      | .published _ | .gone => []

end

mutual

/-- The replies that stand within a reply. -/
def Reply.within : Reply → List Reply
  | .updated _ _ during => repliesWithin during
  | _ => []

/-- Replies in the order of the ends: what stands within one comes before it. -/
def repliesEnded : List Reply → List Reply
  | [] => []
  | reply :: replies => reply.within ++ reply :: repliesEnded replies

def repliesWithin : List (List Reply) → List Reply
  | [] => []
  | replies :: during => repliesEnded replies ++ repliesWithin during

end

/-! ## Operations -/

/-- The operation on the store that a command stands for, if it is there to change something. -/
def Command.operation? : Command → Option Operation
  | .insert r => some (.insert r)
  | .upsert r => some (.upsert r)
  | .remove hash => some (.remove hash)
  | .update hash edit _ => some (.update hash edit)
  | .unreadable _ | .get _ | .lookup _ | .size | .hold _ _ | .held _ | .request _ _ _ _ => none

/-- The answer of an operation that a reply gives. -/
def Reply.answer? : Reply → Option Answer
  | .inserted => some .inserted
  | .fault f => some (.refused f)
  | .replaced old => some (.replaced old)
  | .removed old => some (.removed old)
  | .updated published _ _ => some (.updated published)
  | _ => none

/-- The operations among some commands with their answers. -/
def calls (ended : List (Command × Reply)) : List (Operation × Answer) :=
  ended.filterMap fun e => e.1.operation?.bind fun operation =>
    e.2.answer?.map fun answer => (operation, answer)

theorem calls_append (before after : List (Command × Reply)) :
    calls (before ++ after) = calls before ++ calls after :=
  List.filterMap_append

/-- Whether what has ended is a run: its operations lead from the store at the start to that at the
end, one at a time, and its replies are those of the run, which its commands have got. -/
structure Ends (s : State) (ended : List (Command × Reply)) (final : State)
    (replies : List Reply) : Prop where
  serial : Serial s.store.ledger (calls ended) final.store.ledger
  replies : ended.map Prod.snd = replies
  replied : ∀ e ∈ ended, ∃ moment : State, (e.1.run moment).2 = e.2

theorem Ends.append {s mid final : State} {before after : List (Command × Reply)}
    {first later : List Reply} (start : Ends s before mid first) (more : Ends mid after final later) :
    Ends s (before ++ after) final (first ++ later) where
  serial := by
    rw [calls_append]
    exact start.serial.append more.serial
  replies := by rw [List.map_append, start.replies, more.replies]
  replied e member := by
    rcases List.mem_append.mp member with earlier | later
    · exact start.replied e earlier
    · exact more.replied e later

theorem within_run {c : Command} (single : c.isUpdate = false) (s : State) :
    (c.run s).2.within = [] := by
  have plain := isUpdated_run single s
  generalize (c.run s).2 = reply at plain ⊢
  cases reply with
  | updated => cases plain
  | _ => rfl

/-- A command that is no operation leaves the store as it is. -/
theorem store_run_of_none {c : Command} (none : c.operation? = none) (s : State) :
    (c.run s).1.store = s.store := by
  rw [Command.store_run]
  cases c with
  | insert | upsert | remove | update => cases none
  | unreadable | get | lookup | size | hold | held | request => rfl

/-- An operation that is no update is over with the only access that it makes. -/
theorem begin_run {c : Command} (single : c.isUpdate = false) {operation : Operation}
    (asks : c.operation? = some operation) (s : State) :
    ∃ answer, operation.begin s.store = ((c.run s).1.store, .ended answer) ∧
      (c.run s).2.answer? = some answer := by
  cases c with
  | update hash edit during => cases single
  | insert r =>
    cases asks
    simp only [Operation.begin, Command.run, State.insert]
    cases s.store.insert r with
    | ok store => exact ⟨.inserted, rfl, rfl⟩
    | error fault => exact ⟨.refused fault, rfl, rfl⟩
  | upsert r =>
    cases asks
    rw [Command.run]
    exact ⟨_, rfl, rfl⟩
  | remove hash =>
    cases asks
    rw [Command.run]
    exact ⟨_, rfl, rfl⟩
  | unreadable | get | lookup | size | hold | held | request => cases asks

theorem serial_single_run {s : State} (sound : s.store.Sound) {c : Command}
    (single : c.isUpdate = false) :
    Serial s.store.ledger (calls [(c, (c.run s).2)]) (c.run s).1.store.ledger := by
  cases asks : c.operation? with
  | none =>
    rw [store_run_of_none asks]
    have none : calls [(c, (c.run s).2)] = [] := by simp [calls, asks]
    rw [none]
    exact serial_nil _
  | some operation =>
    obtain ⟨answer, begins, answers⟩ := begin_run single asks s
    have access := begin_access sound operation
    rw [begins] at access
    have one : calls [(c, (c.run s).2)] = [(operation, answer)] := by simp [calls, asks, answers]
    rw [one]
    exact serial_single (access.ended rfl)

/-- An attempt to commit with which an update is over is that update as a single step. -/
theorem serial_attempt {s : Store} {work : Work} (taken : s.Snapshot work.hash work.base)
    {store : Store} {answer : Answer} (ended : work.attempt s = (store, .ended answer)) :
    Serial s.ledger [(work.operation, answer)] store.ledger := by
  have access := attempt_access taken
  rw [ended] at access
  exact serial_single (access.ended rfl)

mutual

theorem Command.ends {s : State} (sound : s.store.Sound) (c : Command) :
    Ends s (c.within s ++ [(c, (c.run s).2)]) (c.run s).1
      ((c.run s).2.within ++ [(c.run s).2]) := by
  match c with
  | .update hash edit during =>
    rw [Command.within, Command.run]
    cases there : s.store.get? hash with
    | none =>
      -- the update ends at once, and nothing has been done
      have begins := begin_access sound (.update hash edit)
      simp only [Operation.begin, there] at begins
      refine ⟨serial_single (begins.ended rfl), rfl, ?_⟩
      rintro _ (_ | ⟨_, ⟨⟩⟩)
      exact ⟨s, by rw [Command.run, there]⟩
    | some base =>
      obtain ⟨serial, replies, replied⟩ := ends_rounds sound there edit during
      refine ⟨?_, ?_, ?_⟩
      · rw [calls_append]
        exact serial
      · rw [List.map_append, replies]
        rfl
      · intro e member
        rcases List.mem_append.mp member with earlier | own
        · exact replied e earlier
        · rw [List.mem_singleton] at own
          subst own
          exact ⟨s, by rw [Command.run, there]⟩
  | .unreadable _ | .insert _ | .upsert _ | .remove _ | .get _ | .lookup _ | .size | .hold _ _
  | .held _ | .request _ _ _ _ =>
    rw [Command.within, within_run rfl]
    refine ⟨serial_single_run sound rfl, rfl, ?_⟩
    rintro _ (_ | ⟨_, ⟨⟩⟩)
    exact ⟨s, rfl⟩

theorem ends_all {s : State} (sound : s.store.Sound) (cs : List Command) :
    Ends s (endedAll s cs) (runAll s cs).1 (repliesEnded (runAll s cs).2) := by
  match cs with
  | [] =>
    rw [endedAll, runAll]
    exact ⟨serial_nil _, rfl, nofun⟩
  | c :: cs =>
    have sound' : (c.run s).1.store.Sound := by
      rw [Command.store_run]
      exact sound.writeAll _
    have both := (Command.ends sound c).append (ends_all sound' cs)
    rw [List.append_assoc, List.append_assoc] at both
    rw [endedAll, runAll]
    exact both

theorem ends_rounds {s : State} (sound : s.store.Sound) {hash : TxHash} {base : Version}
    (there : s.store.get? hash = some base) (edit : Record → Record)
    (during : List (List Command)) :
    Serial s.store.ledger
        (calls (roundsWithin hash edit s base during) ++
          [(.update hash edit, .updated (runRounds hash edit s base during).2.published)])
        (runRounds hash edit s base during).1.store.ledger ∧
      (roundsWithin hash edit s base during).map Prod.snd =
        repliesWithin (runRounds hash edit s base during).2.during ∧
      ∀ e ∈ roundsWithin hash edit s base during, ∃ moment : State, (e.1.run moment).2 = e.2 := by
  match during with
  | [] =>
    have kept := Store.commit_of_get? there (edit base.record)
    have finished : Work.attempt s.store ⟨hash, edit, base⟩ =
        (s.store.publish hash { edit base.record with hash }, .ended (.updated true)) := by
      simp only [Work.attempt, kept]
    rw [roundsWithin, runRounds, kept]
    exact ⟨serial_attempt (sound.snapshot there) finished, rfl, nofun⟩
  | cs :: during =>
    have schedule := ends_all sound cs
    have taken : (runAll s cs).1.store.Snapshot hash base := by
      rw [store_runAll]
      exact (sound.snapshot there).writeAll _
    rw [roundsWithin, runRounds_cons]
    dsimp only
    cases ended : (runAll s cs).1.store.commit hash base (edit base.record) with
    | published store =>
      have finished : Work.attempt (runAll s cs).1.store ⟨hash, edit, base⟩ =
          (store, .ended (.updated true)) := by simp only [Work.attempt, ended]
      rw [List.append_nil]
      refine ⟨schedule.serial.append (serial_attempt taken finished), ?_, schedule.replied⟩
      rw [schedule.replies]
      simp only [Rounds.last, repliesWithin, List.append_nil]
    | gone =>
      have finished : Work.attempt (runAll s cs).1.store ⟨hash, edit, base⟩ =
          ((runAll s cs).1.store, .ended (.updated false)) := by simp only [Work.attempt, ended]
      rw [List.append_nil]
      refine ⟨schedule.serial.append (serial_attempt taken finished), ?_, schedule.replied⟩
      rw [schedule.replies]
      simp only [Rounds.last, repliesWithin, List.append_nil]
    | superseded latest =>
      have found : ((runAll s cs).1.logged [.updateRetried hash]).store.get? hash = some latest :=
        get?_of_superseded ended
      have sound' : ((runAll s cs).1.logged [.updateRetried hash]).store.Sound := by
        rw [State.store_logged, store_runAll]
        exact sound.writeAll _
      obtain ⟨later, replies, replied⟩ := ends_rounds sound' found edit during
      dsimp only
      refine ⟨?_, ?_, ?_⟩
      · rw [calls_append, List.append_assoc]
        exact schedule.serial.append later
      · rw [List.map_append, schedule.replies, replies]
        simp only [Rounds.after, repliesWithin, List.singleton_append]
      · intro e member
        rcases List.mem_append.mp member with now | after
        · exact schedule.replied e now
        · exact replied e after

end

end Session

end TransactionLookup
