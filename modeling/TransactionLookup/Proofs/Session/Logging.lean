import TransactionLookup.Proofs.Session.Events
import TransactionLookup.Proofs.Session.Reads
import TransactionLookup.Proofs.Session.Serial
import TransactionLookup.Proofs.Session.Update

/-!
# The log of a session

The events of a session stand one for one for what was done in it, at whatever depth of a schedule
(`log_one_for_one`). Commands are taken in the order in which they end. An update is not an occasion for
any event but those that say that it started over, and these separate what its rounds have logged.
-/

namespace TransactionLookup

/-- The hash of an update that has started over. -/
def Event.retried? : Event → Option TxHash
  | updateRetried hash => some hash
  | _ => none

namespace Session

/-! ## Events and occasions -/

section OneForOne

open scoped Classical in
/-- Whether the events of a kind stand in their order for what was done on the occasions for them, one
for each. -/
def OneForOne (kind : Event → Prop) (occasion : Command × Reply → Prop)
    (about : Event → Command × Reply → Prop) (events : List Event)
    (done : List (Command × Reply)) : Prop :=
  List.Forall₂ about (events.filter fun event => kind event) (done.filter fun e => occasion e)

namespace OneForOne

variable {kind : Event → Prop} {occasion : Command × Reply → Prop}
  {about : Event → Command × Reply → Prop} {events later : List Event}
  {done after : List (Command × Reply)} {event : Event} {e : Command × Reply}

theorem nil : OneForOne kind occasion about [] [] := List.Forall₂.nil

theorem append (first : OneForOne kind occasion about events done)
    (rest : OneForOne kind occasion about later after) :
    OneForOne kind occasion about (events ++ later) (done ++ after) := by
  rw [OneForOne, List.filter_append, List.filter_append]
  exact List.rel_append first rest

theorem one (worth : kind event) (due : occasion e) (own : about event e)
    (rest : OneForOne kind occasion about events done) :
    OneForOne kind occasion about (event :: events) (e :: done) := by
  rw [OneForOne, List.filter_cons_of_pos (by simpa using worth),
    List.filter_cons_of_pos (by simpa using due)]
  exact .cons own rest

theorem other (unlike : ¬ kind event) (rest : OneForOne kind occasion about events done) :
    OneForOne kind occasion about (event :: events) done := by
  rw [OneForOne, List.filter_cons_of_neg (by simpa using unlike)]
  exact rest

theorem silent (unlike : ∀ event ∈ events, ¬ kind event) (undue : ¬ occasion e) :
    OneForOne kind occasion about events [e] := by
  rw [OneForOne, List.filter_eq_nil_iff.mpr (by simpa using unlike),
    List.filter_cons_of_neg (by simpa using undue)]
  exact .nil

theorem quiet (undue : ¬ occasion e) : OneForOne kind occasion about [] [e] :=
  silent (List.forall_mem_nil _) undue

end OneForOne

end OneForOne

/-- Whether an event carries the whole wording of the fault that a lookup has met. -/
def TellsFault (faults : Faults) (event : Event) (e : Command × Reply) : Prop :=
  ∃ hash fault, e.1.LooksUp hash ∧ faults.on hash = some fault ∧
    event.fields = [("error", fault.message)]

/-- Whether an event is one of those for finding faults in requests, with a message. -/
def IsDebug (message : String) (event : Event) : Prop :=
  event.level = .debug ∧ event.message = message

/-- Whether there is an event for each occasion that something done gave, and no other. -/
structure Accounted (faults : Faults) (events : List Event) (done : List (Command × Reply)) :
    Prop where
  errors : OneForOne (fun event => event.level = .error) (fun e => e.2.IsServerError)
    (TellsFault faults) events done
  warnings : OneForOne (fun event => event.level = .warn) (CameOut .error)
    (TellsFault faults) events done
  absent : OneForOne (IsDebug "transaction not found") (CameOut .notFound)
    (fun event _ => event = .nothingFound) events done
  undecodable : OneForOne (IsDebug "undecodable hash segment")
    (fun e => ∃ segment, e.1.Undecodable segment)
    (fun event e => ∃ segment, e.1.Undecodable segment ∧
      event = .undecodable (String.ofList segment)) events done
  unrouted : OneForOne (IsDebug "no route matched") (fun e => ∃ path, e.1.Unrouted path)
    (fun event e => ∃ path, e.1.Unrouted path ∧ event = .unrouted (String.ofList path)) events done

/-- The hash of an update as often as it started over: once less than it called its edit. -/
def retries : Command × Reply → List TxHash
  | (.update hash _ _, .updated _ seen _) => List.replicate (seen.length - 1) hash
  | _ => []

variable {s mid final : State} {c : Command} {reply : Reply} {faults : Faults}
  {events later : List Event} {done after : List (Command × Reply)} {hash : TxHash}
  {also also' : List TxHash} {replies replies' : List Reply}

namespace Accounted

theorem nil : Accounted faults [] [] :=
  ⟨.nil, .nil, .nil, .nil, .nil⟩

theorem append (first : Accounted faults events done) (rest : Accounted faults later after) :
    Accounted faults (events ++ later) (done ++ after) where
  errors := first.errors.append rest.errors
  warnings := first.warnings.append rest.warnings
  absent := first.absent.append rest.absent
  undecodable := first.undecodable.append rest.undecodable
  unrouted := first.unrouted.append rest.unrouted

/-- That an update started over is no other event. -/
theorem retried (hash : TxHash) : Accounted faults [.updateRetried hash] [] where
  errors := .other (by simp [Event.level]) .nil
  warnings := .other (by simp [Event.level]) .nil
  absent := .other (by simp [IsDebug, Event.message]) .nil
  undecodable := .other (by simp [IsDebug, Event.message]) .nil
  unrouted := .other (by simp [IsDebug, Event.message]) .nil

end Accounted

/-- A lookup is no occasion for the events of requests that reach none. -/
theorem Logs.accounted_lookup (looks : c.LooksUp hash)
    (unlike : ∀ event ∈ events, ¬ IsDebug "undecodable hash segment" event ∧
      ¬ IsDebug "no route matched" event)
    (errors : OneForOne (fun event => event.level = .error) (fun e => e.2.IsServerError)
      (TellsFault faults) events [(c, reply)])
    (warnings : OneForOne (fun event => event.level = .warn) (CameOut .error)
      (TellsFault faults) events [(c, reply)])
    (absent : OneForOne (IsDebug "transaction not found") (CameOut .notFound)
      (fun event _ => event = .nothingFound) events [(c, reply)]) :
    Accounted faults events [(c, reply)] where
  errors := errors
  warnings := warnings
  absent := absent
  undecodable := by
    refine .silent (fun event member => (unlike event member).1) ?_
    rintro ⟨segment, asks⟩
    exact looks.not_undecodable asks
  unrouted := by
    refine .silent (fun event member => (unlike event member).2) ?_
    rintro ⟨path, asks⟩
    exact asks.not_looksUp looks

theorem Logs.accounted (logs : Logs faults c reply events) :
    Accounted faults events [(c, reply)] := by
  cases logs with
  | found looks shown =>
    apply Logs.accounted_lookup looks (List.forall_mem_nil _)
    · exact .quiet (Reply.not_isServerError_of_outcome? shown (by decide))
    · exact .quiet (not_cameOut_of_ne shown (by decide))
    · exact .quiet (not_cameOut_of_ne shown (by decide))
  | absent looks shown =>
    apply Logs.accounted_lookup looks (by simp [IsDebug, Event.message])
    · exact .other (by simp [Event.level]) (.quiet (Reply.not_isServerError_of_outcome? shown (by decide)))
    · exact .other (by simp [Event.level]) (.quiet (not_cameOut_of_ne shown (by decide)))
    · exact .one ⟨rfl, rfl⟩ ⟨⟨_, looks⟩, shown⟩ rfl .nil
  | failed looks met shown =>
    -- a lookup of its own is no response, so there is nothing but the warning
    subst shown
    apply Logs.accounted_lookup looks (by simp [IsDebug, Event.level])
    · exact .other (by simp [Event.level]) (.quiet (by rintro ⟨status, ⟨⟩, -⟩))
    · exact .one rfl ⟨⟨_, looks⟩, rfl⟩ ⟨_, _, looks, met, rfl⟩ .nil
    · exact .other (by simp [IsDebug, Event.level]) (.quiet (not_cameOut_of_ne rfl (by decide)))
  | answered looks met shown blamed =>
    apply Logs.accounted_lookup looks (by simp [IsDebug, Event.level])
    · exact .other (by simp [Event.level]) (.one rfl blamed ⟨_, _, looks, met, rfl⟩ .nil)
    · exact .one rfl ⟨⟨_, looks⟩, shown⟩ ⟨_, _, looks, met, rfl⟩ (.other (by simp [Event.level]) .nil)
    · exact .silent (by simp [IsDebug, Event.level]) (not_cameOut_of_ne shown (by decide))
  | undecodable asks shown =>
    have noLookup (hash : TxHash) : ¬ c.LooksUp hash := fun looks => looks.not_undecodable asks
    have fine := Reply.not_isServerError_of_status? shown (by decide)
    constructor
    · exact .silent (by simp [Event.level]) fine
    · exact .silent (by simp [Event.level]) (not_cameOut_of_none noLookup _)
    · exact .silent (by simp [IsDebug, Event.message]) (not_cameOut_of_none noLookup _)
    · exact .one ⟨rfl, rfl⟩ ⟨_, asks⟩ ⟨_, asks, rfl⟩ .nil
    · refine .silent (by simp [IsDebug, Event.message]) ?_
      rintro ⟨path, other⟩
      exact other.not_undecodable asks
  | unrouted asks shown =>
    have noLookup (hash : TxHash) : ¬ c.LooksUp hash := asks.not_looksUp
    have fine := Reply.not_isServerError_of_status? shown (by decide)
    constructor
    · exact .silent (by simp [Event.level]) fine
    · exact .silent (by simp [Event.level]) (not_cameOut_of_none noLookup _)
    · exact .silent (by simp [IsDebug, Event.message]) (not_cameOut_of_none noLookup _)
    · refine .silent (by simp [IsDebug, Event.message]) ?_
      rintro ⟨segment, other⟩
      exact asks.not_undecodable other
    · exact .one ⟨rfl, rfl⟩ ⟨_, asks⟩ ⟨_, asks, rfl⟩ .nil
  | nothing aside fine =>
    constructor
    · exact .quiet fine
    · exact .quiet (not_cameOut_of_none aside.noLookup _)
    · exact .quiet (not_cameOut_of_none aside.noLookup _)
    · exact .quiet (not_exists.mpr aside.decodable)
    · exact .quiet (not_exists.mpr aside.routed)

/-- An update is an occasion for none of these events. -/
theorem accounted_update (hash : TxHash) (edit : Record → Record) (during : List (List Command))
    (rounds : Rounds) : Accounted faults [] [(.update hash edit during, rounds.reply)] := by
  refine (Logs.nothing (Command.aside rfl (by simp)) ?_).accounted
  rintro ⟨status, ⟨⟩, -⟩

/-- No command but an update says that one started over. -/
theorem Logs.filterMap_retried? (logs : Logs faults c reply events) :
    events.filterMap Event.retried? = [] := by
  cases logs <;> rfl

/-! ## Runs -/

/-- Whether what has been logged and replied between two states is what is due for some commands that
have ended, and besides that some updates, which have not, have started over. -/
structure Told (s : State) (done : List (Command × Reply)) (also : List TxHash) (final : State)
    (replies : List Reply) : Prop where
  replies : done.map Prod.snd = replies
  logged : ∃ events, final.log = s.log ++ events ∧ Accounted s.faults events done ∧
    (events.filterMap Event.retried?).Perm (done.flatMap retries ++ also)

theorem Told.append (first : Told s done also mid replies) (same : mid.faults = s.faults)
    (rest : Told mid after also' final replies') :
    Told s (done ++ after) (also ++ also') final (replies ++ replies') := by
  obtain ⟨replied, events, logged, accounted, retried⟩ := first
  obtain ⟨replied', later, logged', accounted', retried'⟩ := rest
  rw [same] at accounted'
  refine ⟨by rw [List.map_append, replied, replied'], events ++ later, ?_,
    accounted.append accounted', ?_⟩
  · rw [logged', logged, List.append_assoc]
  · -- what the updates that have ended account for goes before what is left over
    rw [List.filterMap_append, List.flatMap_append, List.append_assoc]
    have both := retried.append retried'
    rw [List.append_assoc] at both
    exact both.trans (List.perm_append_comm_assoc _ _ _ |>.append_left _)

theorem told_single (single : c.isUpdate = false) (s : State) :
    Told s [(c, (c.run s).2)] [] (c.run s).1 [(c.run s).2] := by
  obtain ⟨events, logged, logs⟩ := logs_run single s
  refine ⟨rfl, events, logged, logs.accounted, ?_⟩
  rw [logs.filterMap_retried?]
  cases c with
  | update => cases single
  | _ => rfl

theorem told_nil (s : State) : Told s [] [] s [] :=
  ⟨rfl, [], (List.append_nil _).symm, .nil, .refl _⟩

theorem Told.withStore (told : Told s done also final replies) (store : Store) :
    Told s done also (final.withStore store) replies :=
  ⟨told.replies, told.logged⟩

/-- An update that starts over says so after all that was done before. -/
theorem Told.retried (told : Told s done also final replies) (hash : TxHash) :
    Told s done (also ++ [hash]) (final.logged [.updateRetried hash]) replies := by
  obtain ⟨replied, events, logged, accounted, retried⟩ := told
  refine ⟨replied, events ++ [.updateRetried hash], ?_, ?_, ?_⟩
  · rw [State.logged, logged, List.append_assoc]
  · have both := accounted.append (.retried hash)
    rwa [List.append_nil] at both
  · rw [List.filterMap_append, ← List.append_assoc]
    exact retried.append_right _

/-- An update that ends has started over as often as has been said. -/
theorem Told.update {edit : Record → Record} {during : List (List Command)} {rounds : Rounds}
    (told : Told s done (List.replicate (rounds.seen.length - 1) hash) final replies) :
    Told s (done ++ [(.update hash edit during, rounds.reply)]) [] final
      (replies ++ [rounds.reply]) := by
  obtain ⟨replied, events, logged, accounted, retried⟩ := told
  refine ⟨by rw [List.map_append, replied]; rfl, events, logged, ?_, ?_⟩
  · have both := accounted.append (accounted_update hash edit during rounds)
    rwa [List.append_nil] at both
  · rw [List.append_nil, List.flatMap_append]
    simpa [Rounds.reply, retries] using retried

/-- A round of an update has seen a record. -/
theorem length_seen_pos (hash : TxHash) (edit : Record → Record) (s : State) (base : Version)
    (during : List (List Command)) : 0 < (runRounds hash edit s base during).2.seen.length := by
  cases during with
  | nil =>
    rw [runRounds]
    split <;> exact Nat.one_pos
  | cons cs during =>
    rw [runRounds_cons]
    split
    · exact Nat.one_pos
    · exact Nat.one_pos
    · exact Nat.succ_pos _

theorem faults_command (c : Command) (s : State) : (c.run s).1.faults = s.faults := by
  have same := faults_runAll s [c]
  simp only [runAll] at same
  exact same

mutual

theorem Command.told (s : State) (c : Command) :
    Told s (c.within s ++ [(c, (c.run s).2)]) [] (c.run s).1
      ((c.run s).2.within ++ [(c.run s).2]) := by
  match c with
  | .update hash edit during =>
    rw [Command.within, Command.run]
    cases s.store.get? hash with
    | none =>
      let rounds : Rounds := ⟨false, [], []⟩
      have never : Told s [] (List.replicate (rounds.seen.length - 1) hash) s [] := told_nil s
      exact never.update
    | some base => exact (told_rounds s hash edit base during).update
  | .unreadable _ | .insert _ | .upsert _ | .remove _ | .get _ | .lookup _ | .size | .hold _ _
  | .held _ | .request _ _ _ _ =>
    rw [Command.within, within_run rfl]
    exact told_single rfl s

theorem told_all (s : State) (cs : List Command) :
    Told s (endedAll s cs) [] (runAll s cs).1 (repliesEnded (runAll s cs).2) := by
  match cs with
  | [] =>
    rw [endedAll, runAll]
    exact told_nil s
  | c :: cs =>
    have both := (Command.told s c).append (faults_command c s) (told_all (c.run s).1 cs)
    rw [List.append_assoc, List.append_assoc] at both
    rw [endedAll, runAll]
    exact both

/-- The rounds of an update say that it has started over before each of them but the first. -/
theorem told_rounds (s : State) (hash : TxHash) (edit : Record → Record) (base : Version)
    (during : List (List Command)) :
    Told s (roundsWithin hash edit s base during)
      (List.replicate ((runRounds hash edit s base during).2.seen.length - 1) hash)
      (runRounds hash edit s base during).1
      (repliesWithin (runRounds hash edit s base during).2.during) := by
  match during with
  | [] =>
    rw [roundsWithin, runRounds]
    cases s.store.commit hash base (edit base.record) with
    | published store => exact (told_nil s).withStore store
    | gone => exact told_nil s
    | superseded latest => exact told_nil s
  | cs :: during =>
    have schedule := told_all s cs
    rw [roundsWithin, runRounds_cons]
    dsimp only
    cases (runAll s cs).1.store.commit hash base (edit base.record) with
    | published store =>
      simp only [Rounds.last, repliesWithin, List.append_nil]
      exact schedule.withStore store
    | gone =>
      simp only [Rounds.last, repliesWithin, List.append_nil]
      exact schedule
    | superseded latest =>
      have later := told_rounds ((runAll s cs).1.logged [.updateRetried hash]) hash edit latest during
      have both := (schedule.retried hash).append (faults_runAll s cs) later
      have seen := length_seen_pos hash edit ((runAll s cs).1.logged [.updateRetried hash]) latest
        during
      -- this round has started over once, and those after it once less than there are of them
      rw [List.nil_append, List.singleton_append, ← List.replicate_succ, Nat.sub_add_cancel seen]
        at both
      simp only [Rounds.after, List.singleton_append, repliesWithin, List.length_cons,
        Nat.add_sub_cancel]
      exact both

end

/-! ## Rounds -/

theorem log_runAll (s : State) (cs : List Command) :
    ∃ events, (runAll s cs).1.log = s.log ++ events := by
  obtain ⟨-, events, logged, -⟩ := told_all s cs
  exact ⟨events, logged⟩

/-- Whether some events are what the schedules of the first rounds of an update log, one after the
other. -/
def LogRounds (hash : TxHash) (during : List (List Command)) (s : State)
    (pieces : List (List Event)) : Prop :=
  ∀ i piece, pieces[i]? = some piece →
    (roundRun hash during s i).1.log = (roundStart hash during s i).log ++ piece

theorem logRounds_one {during : List (List Command)} {piece : List Event}
    (logged : (roundRun hash during s 0).1.log = s.log ++ piece) :
    LogRounds hash during s [piece] := by
  intro i piece' found
  cases i with
  | zero =>
    cases found
    exact logged
  | succ i => cases found

theorem logRounds_cons {cs : List Command} {during : List (List Command)} {piece : List Event}
    {pieces : List (List Event)} (logged : (runAll s cs).1.log = s.log ++ piece)
    (later : LogRounds hash during ((runAll s cs).1.logged [.updateRetried hash]) pieces) :
    LogRounds hash (cs :: during) s (piece :: pieces) := by
  intro i piece' found
  cases i with
  | zero =>
    cases found
    exact logged
  | succ i =>
    rw [roundRun_cons, roundStart_cons]
    exact later i piece' found

/-- What an update logs is what the schedules of its rounds log, and between any two of these that it
starts over. -/
theorem log_runRounds (s : State) (hash : TxHash) (edit : Record → Record) (base : Version)
    (during : List (List Command)) :
    ∃ pieces : List (List Event),
      pieces.length = (runRounds hash edit s base during).2.seen.length ∧
      (runRounds hash edit s base during).1.log =
        s.log ++ [Event.updateRetried hash].intercalate pieces ∧
      LogRounds hash during s pieces := by
  induction during generalizing s base with
  | nil =>
    have silent : LogRounds hash [] s [[]] := logRounds_one (List.append_nil _).symm
    rw [runRounds]
    cases s.store.commit hash base (edit base.record) with
    | published | gone | superseded =>
      exact ⟨[[]], rfl, (List.append_nil _).symm, silent⟩
  | cons cs during ih =>
    obtain ⟨piece, logged⟩ := log_runAll s cs
    have last : LogRounds hash (cs :: during) s [piece] := logRounds_one logged
    rw [runRounds_cons]
    cases (runAll s cs).1.store.commit hash base (edit base.record) with
    | published | gone =>
      refine ⟨[piece], rfl, ?_, last⟩
      rw [List.intercalate_singleton]
      exact logged
    | superseded latest =>
      obtain ⟨pieces, length, later, rounds⟩ :=
        ih ((runAll s cs).1.logged [.updateRetried hash]) latest
      have some : pieces ≠ [] := by
        rw [← List.length_pos_iff, length]
        exact length_seen_pos hash edit _ latest during
      refine ⟨piece :: pieces, congrArg Nat.succ length, ?_, logRounds_cons logged rounds⟩
      rw [List.intercalate_cons_of_ne_nil some, ← List.append_assoc, ← List.append_assoc, ← logged]
      exact later

/-! ## The main statement -/

/-- The events of a session stand one for one, and in order, for what was done in it: an error for a
response that blames the server and a warning for a lookup that failed, both with the whole wording of
the fault that was met, and an event for finding faults in requests for a lookup that found nothing, for a
segment that is no text and for a path that leads nowhere. A request that was answered with a fault has
logged the warning before the error. An update has started over once less than it called its edit, and
says so after what the schedule logged that made it start over. -/
theorem log_one_for_one (s : State) (cs : List Command) :
    (∃ events, (runAll s cs).1.log = s.log ++ events ∧
      (endedAll s cs).map Prod.snd = repliesEnded (runAll s cs).2 ∧
      Accounted s.faults events (endedAll s cs) ∧
      (events.filterMap Event.retried?).Perm ((endedAll s cs).flatMap retries)) ∧
    (∀ (now : State) (c : Command), c.isUpdate = false → ∃ events,
      (c.run now).1.log = now.log ++ events ∧
      ((c.run now).2.IsServerError → ∃ hash fault, c.LooksUp hash ∧
        now.faults.on hash = some fault ∧ events = [.lookupFailed fault, .faultAnswered fault]) ∧
      ((c.run now).2.status? = some 404 ∨ (c.run now).2.status? = some 405 ∨
          CameOut .found (c, (c.run now).2) →
        ∀ event ∈ events, event.level ≠ .warn ∧ event.level ≠ .error)) ∧
    ∀ now hash edit during after published seen rounds,
      (Command.update hash edit during).run now = (after, .updated published seen rounds) →
      ∃ pieces : List (List Event), pieces.length = seen.length ∧
        after.log = now.log ++ [Event.updateRetried hash].intercalate pieces ∧
        LogRounds hash during now pieces := by
  refine ⟨?_, ?_, ?_⟩
  · obtain ⟨replies, events, logged, accounted, retried⟩ := told_all s cs
    rw [List.append_nil] at retried
    exact ⟨events, logged, replies, accounted, retried⟩
  · intro now c single
    obtain ⟨events, logged, logs⟩ := logs_run single now
    exact ⟨events, logged, logs.of_isServerError, logs.calm⟩
  · intro now hash edit during after published seen rounds ran
    rw [Command.run] at ran
    cases there : now.store.get? hash with
    | none =>
      rw [there] at ran
      cases ran
      refine ⟨[], rfl, (List.append_nil _).symm, ?_⟩
      rintro i piece ⟨⟩
    | some base =>
      rw [there] at ran
      cases ran
      exact log_runRounds now hash edit base during

/-- An update starts over twice, the second time because of one that has started over itself; what is
looked up on the way and after it meets a fault, and two requests reach no lookup. -/
theorem log_one_for_one_overtaken :
    let a : TxHash := ⟨"a"⟩
    let s : State :=
      { store := Store.empty.writeAll [.upsert (Record.new a)]
        faults := { onHashes := [(⟨"x"⟩, .unavailable "down")] } }
    let again : Command := .upsert (Record.new a)
    let during : List (List Command) :=
      [[.lookup ⟨"b"⟩, again], [.update a id [[again]], .lookup ⟨"x"⟩]]
    let ask : Command := .request "GET" "/tx/x" [] ""
    let cs : List Command :=
      [.update a id during, .request "HEAD" "/tx/%FF" [] "", .request "OPTIONS" "/tx" [] "",
        .request "POST" "/tx" [] "", ask, .request "DELETE" "/tx/a" [] ""]
    (∃ events, (runAll s cs).1.log = events ∧ Accounted s.faults events (endedAll s cs) ∧
      (events.filterMap Event.retried?).Perm ((endedAll s cs).flatMap retries) ∧
      events.map Event.message =
        ["transaction not found", "record changed during update, retrying",
          "record changed during update, retrying", "transaction lookup failed",
          "record changed during update, retrying", "undecodable hash segment", "no route matched",
          "transaction lookup failed", "transaction index fault"]) ∧
    (ask.run s).2.IsServerError ∧
    (∃ events fault, (ask.run s).1.log = s.log ++ events ∧
      events = [.lookupFailed fault, .faultAnswered fault]) ∧
    ∃ pieces : List (List Event), pieces.length = 3 ∧
      ((Command.update a id during).run s).1.log =
        s.log ++ [Event.updateRetried a].intercalate pieces ∧ LogRounds a during s pieces := by
  intro a s again during ask cs
  obtain ⟨⟨events, logged, -, accounted, retried⟩, single, updates⟩ := log_one_for_one s cs
  have messages : (runAll s cs).1.log.map Event.message =
      ["transaction not found", "record changed during update, retrying",
        "record changed during update, retrying", "transaction lookup failed",
        "record changed during update, retrying", "undecodable hash segment", "no route matched",
        "transaction lookup failed", "transaction index fault"] := by decide +kernel
  have blamed : (ask.run s).2.IsServerError := ⟨503, by decide +kernel, by decide, by decide⟩
  obtain ⟨own, asked, faulted, -⟩ := single s ask rfl
  obtain ⟨hash, fault, -, -, both⟩ := faulted blamed
  have ran : (Command.update a id during).run s = (_, .updated true _ _) := rfl
  obtain ⟨pieces, length, separated, rounds⟩ := updates s a id during _ _ _ _ ran
  have whole : events = (runAll s cs).1.log := logged.symm
  refine ⟨⟨events, logged, accounted, retried, ?_⟩, blamed, ⟨own, fault, asked, both⟩, pieces,
    length, separated, rounds⟩
  rw [whole, messages]

end Session

end TransactionLookup
