import TransactionLookup.Proofs.Session.Counting
import TransactionLookup.Proofs.Store.Abreast

/-!
# Faults confined

What a client is told of a fault is whether the storage could be reached. Two sessions that start from
the same records and differ in no more than the other details of their faults are run side by side:
after each act their stores have the same contents and their counters are equal, and so all requests
in them, at whatever depth of a schedule, are answered alike (`faults_confined`).
-/

namespace TransactionLookup

/-- Whether two findings differ in no more than the details of a fault. -/
inductive Finding.Alike : Finding → Finding → Prop
  | shown (r : Option Record) : Alike (.ok r) (.ok r)
  | failed {fault fault' : Fault} (same : fault.isUnavailable = fault'.isUnavailable) :
      Alike (.error fault) (.error fault')

/-- Whether faults are met under the same hashes, and tell on both sides that the storage could not be
reached or on both that it failed. -/
def Faults.Alike (faults faults' : Faults) : Prop :=
  ∀ hash, (faults.on hash).map Fault.isUnavailable = (faults'.on hash).map Fault.isUnavailable

theorem Finding.Alike.outcome_eq {finding finding' : Finding}
    (alike : Finding.Alike finding finding') : finding.outcome = finding'.outcome := by
  cases alike with
  | shown r => rfl
  | failed same => rfl

theorem Store.find_alike {s s' : Store} {faults faults' : Faults} (mirrors : s.Mirrors s')
    (alike : faults.Alike faults') (hash : TxHash) :
    Finding.Alike (s.find faults hash) (s'.find faults' hash) := by
  have same := alike hash
  rw [find, find]
  cases met : faults.on hash with
  | none =>
    rw [met, Option.map_none] at same
    rw [Option.map_eq_none_iff.mp same.symm, mirrors.record?_eq hash]
    exact .shown _
  | some fault =>
    rw [met, Option.map_some] at same
    obtain ⟨fault', met', told⟩ := Option.map_eq_some_iff.mp same.symm
    rw [met']
    exact .failed told.symm

/-! ## Single requests -/

namespace Http.Exchange

theorem response_ofFinding_eq (hash : TxHash) {finding finding' : Finding}
    (alike : Finding.Alike finding finding') :
    (ofFinding hash finding).response = (ofFinding hash finding').response := by
  cases alike with
  | shown r => rfl
  | failed same =>
    simp only [ofFinding, ofRefusal, Refusal.status, Refusal.content, Refusal.body,
      Refusal.publicMessage, same]

variable {find find' : TxHash → Finding}

theorem response_transaction_eq (alike : ∀ hash, Finding.Alike (find hash) (find' hash))
    (segment : List Char) :
    (transaction find segment).response = (transaction find' segment).response := by
  rw [transaction, transaction]
  cases decodeText? segment with
  | none => rfl
  | some text => exact response_ofFinding_eq ⟨text⟩ (alike ⟨text⟩)

/-- The response to a request does not tell findings that are alike from each other. -/
theorem response_answer_eq (alike : ∀ hash, Finding.Alike (find hash) (find' hash)) (c : Counters)
    (r : Request) : (answer find c r).response = (answer find' c r).response := by
  have routed : (ofRoute find c r).response = (ofRoute find' c r).response := by
    rw [ofRoute, ofRoute]
    cases Route.ofPath r.path with
    | probe => rfl
    | nowhere => rfl
    | counters => rfl
    | transaction segment =>
      dsimp only
      split
      · exact response_transaction_eq alike segment
      · rfl
  rw [answer_eq, answer_eq]
  split
  · rfl
  · simp only [sentTo, routed]

end Http.Exchange

namespace Session

def Command.isRequest : Command → Bool
  | .request _ _ _ _ => true
  | _ => false

/-- The requests in a transcript, with what they got. -/
def requests (done : List (Command × Reply)) : List (Command × Reply) :=
  done.filter fun e => e.1.isRequest

/-- Whether two states differ in no more than serial numbers, the details of faults, the log and the
versions that are kept. -/
structure State.Alike (s s' : State) : Prop where
  store : s.store.Mirrors s'.store
  faults : s.faults.Alike s'.faults
  counters : s.counters = s'.counters

variable {s s' : State}

theorem State.Alike.find (alike : s.Alike s') (hash : TxHash) :
    Finding.Alike (s.find hash) (s'.find hash) :=
  Store.find_alike alike.store alike.faults hash

theorem reply_request_eq (alike : s.Alike s') {c : Command} (request : c.isRequest = true) :
    (c.run s).2 = (c.run s').2 := by
  cases c with
  | request method target headers body =>
    rw [Command.run, Command.run]
    cases made : Http.Request.of method target headers body with
    | error problem => rfl
    | ok r =>
      have response := Http.Exchange.response_answer_eq alike.find s.counters r
      -- both exchanges look up the same hash or none, so they read the store equally often
      have lookup := lookup_answer made s.find s.counters
      have lookup' := lookup_answer made s'.find s.counters
      simp only [State.answer, ← alike.counters, response, Http.Exchange.reads,
        Http.Exchange.asked_answer, lookup, lookup', Option.map_map, Function.comp_def]
  | _ => cases request

/-! ## Acts side by side -/

/-- Whether some acts on both sides lead from states that are alike to states that are alike, and answer
the same requests in the same way. -/
structure Beside (s s' : State) (acts acts' : List Act) : Prop where
  store : Store.Abreast s.store s'.store (s.performAll acts).store (s'.performAll acts').store
  faults : (s.performAll acts).faults.Alike (s'.performAll acts').faults
  counters : (s.performAll acts).counters = (s'.performAll acts').counters
  requests : requests (s.transcript acts) = requests (s'.transcript acts')

theorem State.Alike.beside_nil (alike : s.Alike s') : Beside s s' [] [] :=
  ⟨alike.store.abreast, alike.faults, alike.counters, rfl⟩

section Beside

variable {mid mid' : State} {before before' after after' : List Act}

theorem Beside.alike (first : Beside s s' before before') (left : s.performAll before = mid)
    (left' : s'.performAll before' = mid') : mid.Alike mid' := by
  subst left left'
  exact ⟨first.store.mirrors, first.faults, first.counters⟩

theorem Beside.append (first : Beside s s' before before') (left : s.performAll before = mid)
    (left' : s'.performAll before' = mid') (second : Beside mid mid' after after') :
    Beside s s' (before ++ after) (before' ++ after') := by
  subst left left'
  have early := first.requests
  have late := second.requests
  refine ⟨?_, ?_, ?_, ?_⟩
  · rw [State.performAll_append, State.performAll_append]
    exact first.store.trans second.store
  · rw [State.performAll_append, State.performAll_append]
    exact second.faults
  · rw [State.performAll_append, State.performAll_append]
    exact second.counters
  · rw [Session.requests, Session.requests] at early late ⊢
    rw [State.transcript_append, State.transcript_append, List.filter_append, List.filter_append,
      early, late]

end Beside

theorem faults_run {c : Command} (single : c.isUpdate = false) (s : State) :
    (c.run s).1.faults = s.faults := by
  obtain ⟨store, kept, left⟩ | ⟨hash, rfl⟩ | ⟨method, target, headers, body, r, rfl, made⟩ :=
    run_cases single s
  · rw [left]
  · rw [Command.run]
    rfl
  · rw [run_request made]
    rfl

theorem counters_run_eq (alike : s.Alike s') {c : Command} (single : c.isUpdate = false) :
    (c.run s).1.counters = (c.run s').1.counters := by
  cases looked : c.lookedUp? with
  | none =>
    -- nothing is counted on either side
    rw [counters_run_of_none single looked, counters_run_of_none single looked, alike.counters]
  | some hash =>
    -- one lookup is counted on each side, and both come out in the same way
    have looks := Command.lookedUp?_eq_some_iff.mp looked
    rw [(run_of_looksUp looks).1, (run_of_looksUp looks).1, alike.counters,
      (alike.find hash).outcome_eq]

/-- A command that is no update makes the same writes on both sides, and no commit among them. -/
theorem store_run_abreast (alike : s.Alike s') {c : Command} (single : c.isUpdate = false) :
    Store.Abreast s.store s'.store (c.run s).1.store (c.run s').1.store := by
  rw [Command.store_run, Command.store_run]
  cases c with
  | update hash edit during => cases single
  | insert | upsert | remove =>
    rw [Command.writes, Command.writes, Store.writeAll_cons, Store.writeAll_cons,
      Store.writeAll_nil, Store.writeAll_nil]
    exact alike.store.abreast_write rfl
  | unreadable | get | lookup | size | hold | held | request =>
    rw [Command.writes, Command.writes]
    exact alike.store.abreast

theorem State.Alike.beside_command (alike : s.Alike s') {c : Command} (single : c.isUpdate = false) :
    Beside s s' [.command c single] [.command c single] where
  store := store_run_abreast alike single
  faults := by
    rw [State.performAll_cons, State.performAll_cons, State.perform, State.perform,
      State.performAll_nil, State.performAll_nil, faults_run single, faults_run single]
    exact alike.faults
  counters := counters_run_eq alike single
  requests := by
    cases request : c.isRequest with
    | true => simp [Session.requests, State.transcript, reply_request_eq alike request]
    | false => simp [Session.requests, State.transcript, request]

/-- The ends of two rounds that come to the same. -/
theorem State.Alike.beside_commit (alike : s.Alike s') {hash : TxHash} {base base' : Version}
    {next : Record} (ends : s.store.EndsAlike s'.store (s.store.commit hash base next)
      (s'.store.commit hash base' next)) :
    Beside s s' [.commit hash base next] [.commit hash base' next] := by
  -- the end of a round is no request
  have same : requests (s.transcript [.commit hash base next]) =
      requests (s'.transcript [.commit hash base' next]) := rfl
  have after : Store.Abreast s.store s'.store (s.perform (.commit hash base next)).store
        (s'.perform (.commit hash base' next)).store ∧
      (s.perform (.commit hash base next)).faults.Alike
        (s'.perform (.commit hash base' next)).faults ∧
      (s.perform (.commit hash base next)).counters =
        (s'.perform (.commit hash base' next)).counters := by
    rw [State.perform, State.perform]
    generalize s.store.commit hash base next = ended at ends ⊢
    generalize s'.store.commit hash base' next = ended' at ends ⊢
    cases ends with
    | published abreast => exact ⟨abreast, alike.faults, alike.counters⟩
    | gone => exact ⟨alike.store.abreast, alike.faults, alike.counters⟩
    | superseded latest latest' => exact ⟨alike.store.abreast, alike.faults, alike.counters⟩
  exact ⟨after.1, after.2.1, after.2.2, same⟩

mutual

theorem Command.beside {s s' : State} (alike : s.Alike s') (c : Command) :
    Beside s s' (c.acts s) (c.acts s') := by
  match c with
  | .update hash edit during =>
    rw [Command.acts, Command.acts]
    cases there : s.store.get? hash with
    | none =>
      rw [alike.store.get?_eq_none_iff.mp there]
      exact alike.beside_nil
    | some base =>
      cases there' : s'.store.get? hash with
      | none =>
        -- the record is there on the one side, so it is on the other
        rw [alike.store.get?_eq_none_iff.mpr there'] at there
        cases there
      | some base' => exact beside_rounds alike there there' edit during
  | .unreadable _ | .insert _ | .upsert _ | .remove _ | .get _ | .lookup _ | .size | .hold _ _
  | .held _ | .request _ _ _ _ =>
    rw [Command.acts, Command.acts]
    exact alike.beside_command rfl

theorem beside_all {s s' : State} (alike : s.Alike s') (cs : List Command) :
    Beside s s' (actsAll s cs) (actsAll s' cs) := by
  match cs with
  | [] =>
    rw [actsAll, actsAll]
    exact alike.beside_nil
  | c :: cs =>
    have first := Command.beside alike c
    have left := (Command.comes s c).state
    have left' := (Command.comes s' c).state
    rw [actsAll, actsAll]
    exact first.append left left' (beside_all (first.alike left left') cs)

theorem beside_rounds {s s' : State} (alike : s.Alike s') {hash : TxHash} {base base' : Version}
    (there : s.store.get? hash = some base) (there' : s'.store.get? hash = some base')
    (edit : Record → Record) (during : List (List Command)) :
    Beside s s' (roundActs hash edit s base during) (roundActs hash edit s' base' during) := by
  have record : base.record = base'.record := alike.store.record_eq there there'
  match during with
  | [] =>
    rw [roundActs, roundActs, record]
    exact alike.beside_commit (alike.store.abreast.commit there there' _)
  | cs :: during =>
    have schedule := beside_all alike cs
    have left := (comes_all s cs).state
    have left' := (comes_all s' cs).state
    have ends := schedule.store.commit there there' (edit base.record)
    rw [left, left'] at ends
    have commit := (schedule.alike left left').beside_commit ends
    rw [roundActs, roundActs, ← record]
    generalize ended : (runAll s cs).1.store.commit hash base (edit base.record) = e at ends ⊢
    generalize ended' : (runAll s' cs).1.store.commit hash base' (edit base.record) = e' at ends ⊢
    cases ends with
    | published _ | gone => exact schedule.append left left' commit
    | superseded latest latest' =>
      -- the next round starts from what each side has now, which is one record
      have retried := perform_of_superseded ended
      have retried' := perform_of_superseded ended'
      have later := beside_rounds (commit.alike retried retried') (get?_of_superseded ended)
        (get?_of_superseded ended') edit during
      exact schedule.append left left' (commit.append retried retried' later)

end

/-! ## The main statement -/

/-- Two sessions of the same commands, from the same records and with faults that are alike, answer
their requests with the same responses, at whatever depth of a schedule they are made; and so is any
request that comes later. -/
theorem faults_confined (reached : s.store.Reached) (reached' : s'.store.Reached)
    (contents : ∀ hash, s.store.record? hash = s'.store.record? hash)
    (faults : s.faults.Alike s'.faults) (counters : s.counters = s'.counters) (cs : List Command) :
    requests (s.transcript (actsAll s cs)) = requests (s'.transcript (actsAll s' cs)) ∧
    (s.transcript (actsAll s cs)).map Prod.snd = leavesAll (runAll s cs).2 ∧
    (s'.transcript (actsAll s' cs)).map Prod.snd = leavesAll (runAll s' cs).2 ∧
    ∀ method target headers body,
      ((Command.request method target headers body).run (runAll s cs).1).2 =
        ((Command.request method target headers body).run (runAll s' cs).1).2 := by
  have ledger : s.store.ledger = s'.store.ledger := by
    apply Finmap.ext_lookup
    intro hash
    rw [Store.lookup_ledger, Store.lookup_ledger, contents]
  have alike : s.Alike s' := ⟨⟨reached.sound, reached'.sound, ledger⟩, faults, counters⟩
  have beside := beside_all alike cs
  obtain ⟨left, replies⟩ := comes_all s cs
  obtain ⟨left', replies'⟩ := comes_all s' cs
  refine ⟨beside.requests, replies, replies', ?_⟩
  intro method target headers body
  exact reply_request_eq (beside.alike left left') rfl

/-- Storage that has lost a file, and storage that holds one record twice: both say no more than that
they have failed, inside a schedule too. -/
theorem faults_confined_details :
    let r : Record := Record.new ⟨"a"⟩
    let s : State :=
      { store := Store.empty.writeAll [.upsert r]
        faults := { everywhere := some (.unreadable "/srv/seed" .missing)
                    onHashes := [(⟨"b"⟩, .unavailable "10.0.0.7 is down")] } }
    let s' : State :=
      { store := Store.empty.writeAll [.upsert r, .upsert r]
        faults := { everywhere := some (.duplicate ⟨"c"⟩)
                    onHashes := [(⟨"b"⟩, .unavailable "")] } }
    let cs : List Command :=
      [.update ⟨"a"⟩ id [[.request "GET" "/tx/a" [] "", .upsert r, .request "GET" "/tx/b" [] ""]],
        .request "GET" "/metrics" [] ""]
    s.store.Reached ∧ s'.store.Reached ∧ (∀ hash, s.store.record? hash = s'.store.record? hash) ∧
      s.faults.Alike s'.faults ∧
      (requests (s.transcript (actsAll s cs))).map (fun e => e.2.outcome?) =
        [some .error, some .error, some .found] ∧
      requests (s.transcript (actsAll s cs)) = requests (s'.transcript (actsAll s' cs)) := by
  intro r s s' cs
  have reached : s.store.Reached := ⟨_, _, .new, rfl⟩
  have reached' : s'.store.Reached := ⟨_, _, .new, rfl⟩
  have contents : ∀ hash, s.store.record? hash = s'.store.record? hash := by
    intro hash
    by_cases same : hash = ⟨"a"⟩
    · subst same
      decide
    · have once : s.store = Store.empty.publish ⟨"a"⟩ r := rfl
      have twice : s'.store = (Store.empty.publish ⟨"a"⟩ r).publish ⟨"a"⟩ r := rfl
      rw [once, twice, Store.record?_publish_of_ne same _ _, Store.record?_publish_of_ne same _ _,
        Store.record?_publish_of_ne same]
  have faults : s.faults.Alike s'.faults := by
    intro hash
    by_cases same : hash = ⟨"b"⟩
    · subst same
      decide
    · have apart : (hash == (⟨"b"⟩ : TxHash)) = false := by simp [same]
      simp [Faults.on, s, s', List.lookup_cons, apart, Fault.isUnavailable]
  exact ⟨reached, reached', contents, faults, by decide +kernel,
    (faults_confined reached reached' contents faults rfl cs).1⟩

end Session

end TransactionLookup
