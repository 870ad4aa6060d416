import TransactionLookup.Proofs.Clients.Linearizability
import TransactionLookup.Proofs.Http.Transaction
import TransactionLookup.Proofs.Session.Writes

/-!
# Keys and versions

Every record is stored under its own hash, whatever an edit makes of its copy, and a version belongs to
one hash as long as it is there and never comes back when it is gone. So a read by a hash gives a
record of that hash or none, in whatever way it is made.
-/

namespace TransactionLookup.Session

/-! ## Reads -/

variable {s : State}

/-- What a read finds is stored. -/
theorem find_record {hash : TxHash} {r : Record} (found : s.find hash = .ok (some r)) :
    s.store.record? hash = some r := by
  unfold State.find Store.find at found
  split at found
  · cases found
  · exact Except.ok.inj found

theorem run_get_read {hash : TxHash} {r : Record}
    (shown : ((Command.get hash).run s).2 = .read (some r)) : s.store.record? hash = some r := by
  rw [Command.run] at shown
  cases found : s.find hash with
  | error fault => simp [State.replyTo, found] at shown
  | ok finding =>
    simp only [State.replyTo, found, Reply.read.injEq] at shown
    subst shown
    exact find_record found

theorem run_lookup_looked {hash : TxHash} {r : Record}
    (shown : ((Command.lookup hash).run s).2 = .looked (some r)) :
    s.store.record? hash = some r := by
  rw [Command.run, State.lookup] at shown
  cases found : s.find hash with
  | error fault => simp [State.replyTo, found] at shown
  | ok finding =>
    simp only [State.replyTo, found, Reply.looked.injEq] at shown
    subst shown
    exact find_record found

/-- A request that gets a transaction has a record for its answer only if one is stored under the text
that the segment stands for, and then it has that. -/
theorem run_request_found {target body : String} {headers : List (String × String)}
    {segment : List Char} {response : Http.Response} {reads : Nat}
    (path : Http.pathOfTarget target.toList = .ok (Http.transactionPath segment))
    (single : Http.isSegment segment = true)
    (answered : ((Command.request "GET" target headers body).run s).2 = .response response reads)
    (fine : response.status = 200) :
    ∃ text r, Http.decodeText? segment = some text ∧ s.store.record? ⟨text⟩ = some r ∧
      response.body = String.ofList r.json := by
  rw [Command.run] at answered
  split at answered
  next request made =>
    -- a request is made only of a target that has a path, and keeps it
    have parts : request.method = "GET" ∧ request.path = Http.transactionPath segment := by
      obtain ⟨path', -, found, -, rfl⟩ := Http.Request.of_eq_ok_iff.mp made
      rw [path] at found
      cases found
      exact ⟨rfl, rfl⟩
    simp only [State.answer, Http.Exchange.answer_get parts.1 parts.2 single,
      Reply.response.injEq] at answered
    obtain ⟨rfl, -⟩ := answered
    obtain ⟨text, r, decoded, found, shown⟩ := Http.Exchange.transaction_found fine
    exact ⟨text, r, decoded, find_record found, shown⟩
  next => cases answered

/-! ## The main statement -/

/-- In every store that comes about, at whatever moment of a session or of clients that run at once, a
record is stored under its own hash alone, a version that is there at two moments has been there
under one hash all the time between them, and reads by a hash give records of that hash. -/
theorem stored_under_own_hash {start : Store} (initial : start.Initial) (writes : List Write) :
    let store := start.writeAll writes
    (∀ hash version, store.get? hash = some version → version.record.hash = hash) ∧
    (store.entries.map Prod.fst).Nodup ∧
    (∀ past between since hash hash' version version', writes = past ++ between ++ since →
      (start.writeAll past).get? hash = some version →
      store.get? hash' = some version' → version.serial = version'.serial →
      hash = hash' ∧ version = version' ∧
        (start.writeAll (past ++ between)).get? hash = some version) ∧
    (∀ (programs : Nat → List Clients.Operation) (schedule : List Nat), ∃ more,
      ((Clients.System.launch store programs).run schedule).store = store.writeAll more) ∧
    (∀ s : State, s.store = store →
      (∀ commands, (runAll s commands).1.store = store.writeAll (writesAll s commands)) ∧
      (∀ hash r, ((Command.get hash).run s).2 = .read (some r) → r.hash = hash) ∧
      (∀ hash r, ((Command.lookup hash).run s).2 = .looked (some r) → r.hash = hash) ∧
      ∀ target headers body segment response reads,
        Http.pathOfTarget target.toList = .ok (Http.transactionPath segment) →
        Http.isSegment segment = true →
        ((Command.request "GET" target headers body).run s).2 = .response response reads →
        response.status = 200 →
        ∃ text r, Http.decodeText? segment = some text ∧ r.hash = ⟨text⟩ ∧
          store.record? ⟨text⟩ = some r ∧ response.body = String.ofList r.json) := by
  intro store
  have sound : store.Sound := initial.sound.writeAll writes
  have own : ∀ {hash r}, store.record? hash = some r → r.hash = hash := by
    intro hash r found
    obtain ⟨version, there, rfl⟩ := Option.map_eq_some_iff.mp found
    exact sound.keyed there
  refine ⟨fun _ _ => sound.keyed, sound.single, ?_, ?_, ?_⟩
  · intro past between since hash hash' version version' split first last equal
    have sound' : (start.writeAll past).Sound := initial.sound.writeAll past
    -- from the moment of `past` on, the other two moments are `between` and its end
    have last' : ((start.writeAll past).writeAll (between ++ since)).get? hash' = some version' := by
      rw [← Store.writeAll_append, ← List.append_assoc, ← split]
      exact last
    rw [Store.writeAll_append]
    exact Store.get?_between sound' first last' equal
  · intro programs schedule
    exact (Clients.System.consistent_launch sound programs).store_run schedule
  · rintro s same
    refine ⟨?_, ?_, ?_, ?_⟩
    · intro commands
      rw [store_runAll, same]
    · intro hash r shown
      exact own (same ▸ run_get_read shown)
    · intro hash r shown
      exact own (same ▸ run_lookup_looked shown)
    · intro target headers body segment response reads path single answered fine
      obtain ⟨text, r, decoded, found, shown⟩ := run_request_found path single answered fine
      rw [same] at found
      exact ⟨text, r, decoded, own found, found, shown⟩

/-- An edit that takes the hash of another record for its copy is published under the hash that it
was made for. -/
theorem stored_under_own_hash_rekeyed :
    let start : Store := ⟨Store.numbered 0 [Record.new ⟨"a"⟩, Record.new ⟨"b"⟩], 2⟩
    let writes : List Write :=
      [.commit ⟨"a"⟩ ⟨Record.new ⟨"a"⟩, 0⟩ { Record.new ⟨"b"⟩ with amount := 7 }, .remove ⟨"b"⟩]
    start.Initial ∧ (start.writeAll writes).size = 1 ∧
      ((start.writeAll writes).get? ⟨"a"⟩).map Version.serial = some 2 ∧
      ∀ hash version, (start.writeAll writes).get? hash = some version →
        version.record.hash = hash := by
  have initial : Store.Initial ⟨Store.numbered 0 [Record.new ⟨"a"⟩, Record.new ⟨"b"⟩], 2⟩ :=
    .records (show Store.ofRecords [Record.new ⟨"a"⟩, Record.new ⟨"b"⟩] = _ from rfl)
  exact ⟨initial, by decide, by decide, (stored_under_own_hash initial _).1⟩

end TransactionLookup.Session
