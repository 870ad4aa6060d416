import TransactionLookup.Proofs.Http.Transaction
import TransactionLookup.Proofs.Lookup.Page
import TransactionLookup.Proofs.Session.Acts

/-!
# Lookups counted

A lookup is made by a command of its own, or by a request that reads a transaction whose segment is
text, and its reply shows how it came out. At every moment of a session the counters say how many of
the lookups so far came out in each way, and so does their page (`lookups_counted`).
-/

namespace TransactionLookup

namespace Session

/-- Whether a command looks up a hash. -/
inductive Command.LooksUp : Command → TxHash → Prop
  | direct (hash : TxHash) : LooksUp (.lookup hash) hash
  | request {method target body : String} {headers : List (String × String)} {r : Http.Request}
      {segment : List Char} {text : String}
      (made : Http.Request.of method target headers body = .ok r)
      (reading : method = "GET" ∨ method = "HEAD") (path : r.path = Http.transactionPath segment)
      (single : Http.isSegment segment = true) (decoded : Http.decodeText? segment = some text) :
      LooksUp (.request method target headers body) ⟨text⟩

/-- The hash that a command looks up, if it is a lookup. -/
def Command.lookedUp? : Command → Option TxHash
  | .lookup hash => some hash
  | .request method target headers body =>
    match Http.Request.of method target headers body with
    | .error _ => none
    | .ok r =>
      match Http.Route.ofPath r.path with
      | .transaction segment =>
        if r.isReading then (Http.decodeText? segment).map TxHash.mk else none
      | _ => none
  | _ => none

theorem Command.lookedUp?_eq_some_iff {c : Command} {hash : TxHash} :
    c.lookedUp? = some hash ↔ c.LooksUp hash := by
  constructor
  · intro looked
    cases c with
    | lookup hash =>
      cases looked
      exact .direct hash
    | request method target headers body =>
      rw [lookedUp?] at looked
      split at looked
      · cases looked
      next r made =>
        split at looked
        next segment routed =>
          split at looked
          next reading =>
            obtain ⟨text, decoded, rfl⟩ := Option.map_eq_some_iff.mp looked
            obtain ⟨path, single⟩ := Http.ofPath_eq_transaction_iff.mp routed
            have method := (Http.Request.isReading_iff made).mp reading
            exact .request made method path single decoded
          · cases looked
        · cases looked
    | _ => cases looked
  · intro looks
    cases looks with
    | direct => rfl
    | @request method _ _ _ r segment text made reading path single decoded =>
      have isReading : r.isReading = true := (Http.Request.isReading_iff made).mpr reading
      have routed := Http.ofPath_eq_transaction_iff.mpr ⟨path, single⟩
      simp only [lookedUp?, made, routed, if_pos isReading, decoded, Option.map_some]

/-- How a lookup came out, as its reply shows it: by what it gives, or by the status of a response. -/
def Reply.outcome? : Reply → Option Outcome
  | .looked (some _) => some .found
  | .looked none => some .notFound
  | .fault _ => some .error
  | .response answer _ =>
    match answer.status with
    | 200 => some .found
    | 404 => some .notFound
    | 500 | 503 => some .error
    | _ => none
  | _ => none

/-- The outcomes of the lookups in a transcript. -/
def outcomes (done : List (Command × Reply)) : List Outcome :=
  done.filterMap fun e => if e.1.lookedUp?.isSome then e.2.outcome? else none

theorem outcomes_cons_of_none {c : Command} {reply : Reply} {done : List (Command × Reply)}
    (other : c.lookedUp? = none) : outcomes ((c, reply) :: done) = outcomes done := by
  simp [outcomes, other]

theorem outcomes_cons_of_some {c : Command} {hash : TxHash} {reply : Reply} {o : Outcome}
    {done : List (Command × Reply)} (looked : c.lookedUp? = some hash)
    (shown : reply.outcome? = some o) : outcomes ((c, reply) :: done) = o :: outcomes done := by
  simp [outcomes, looked, shown]

/-! ## Single commands -/

variable {s : State} {c : Command} {hash : TxHash}

/-- What an exchange looks up is what its command looks up. -/
theorem lookup_answer {method target body : String} {headers : List (String × String)}
    {r : Http.Request} (made : Http.Request.of method target headers body = .ok r)
    (find : TxHash → Finding) (counters : Counters) :
    (Http.Exchange.answer find counters r).lookup =
      (Command.request method target headers body).lookedUp?.map fun hash => (hash, find hash) := by
  rw [Command.lookedUp?, made]
  rw [Http.Exchange.answer_eq]
  dsimp only
  split
  next options =>
    -- no request for the options of a path is one that reads
    have notReading : r.isReading = false := by simp [Http.Request.isReading, options]
    rw [notReading]
    split <;> rfl
  next =>
    unfold Http.Exchange.ofRoute
    cases routed : Http.Route.ofPath r.path with
    | probe => rfl
    | nowhere => rfl
    | counters =>
      dsimp only
      split <;> rfl
    | transaction segment =>
      dsimp only
      split
      · rw [Http.Exchange.transaction]
        cases Http.decodeText? segment <;> rfl
      · rfl

theorem outcome?_of_status {response : Http.Response} {reads : Nat} {finding : Finding}
    (status : response.status = Http.statusOf finding) :
    (Reply.response response reads).outcome? = some finding.outcome := by
  rw [Reply.outcome?, status]
  match finding with
  | .ok (some _) => rfl
  | .ok none => rfl
  | .error fault => cases fault <;> rfl

/-- A lookup is counted once, under the outcome that its reply shows. -/
theorem run_of_looksUp (looks : c.LooksUp hash) :
    (c.run s).1.counters = s.counters.count (s.find hash).outcome ∧
      (c.run s).2.outcome? = some (s.find hash).outcome := by
  cases looks with
  | direct =>
    rw [Command.run, State.lookup]
    refine ⟨rfl, ?_⟩
    cases s.find hash with
    | ok found => cases found <;> rfl
    | error fault => rfl
  | @request method target body headers r segment text made reading path single decoded =>
    -- the exchange says what it has looked up, and that is what is counted
    have looked := lookup_answer made s.find s.counters
    rw [Command.lookedUp?_eq_some_iff.mpr (.request made reading path single decoded),
      Option.map_some] at looked
    have isReading : r.isReading = true := (Http.Request.isReading_iff made).mpr reading
    -- the response has the status of what was found, and being sent does not change it
    have status : (Http.Exchange.answer s.find s.counters r).response.status =
        Http.statusOf (s.find ⟨text⟩) := by
      rw [Http.Exchange.answer_reading isReading path single, ← Http.Exchange.status_ofFinding ⟨text⟩]
      refine (Http.Exchange.status_sent _ _).trans ?_
      rw [Http.Exchange.transaction, decoded]
    rw [run_request made]
    constructor
    · simp only [State.answer, Http.Exchange.counters, looked]
    · exact outcome?_of_status status

/-- Nothing but a lookup is counted. -/
theorem counters_run_of_none (single : c.isUpdate = false) (other : c.lookedUp? = none) :
    (c.run s).1.counters = s.counters := by
  obtain ⟨store, kept, left⟩ | ⟨hash, rfl⟩ | ⟨method, target, headers, body, r, rfl, made⟩ :=
    run_cases single s
  · rw [left]
  · cases other
  · have looked := lookup_answer made s.find s.counters
    rw [other, Option.map_none] at looked
    simp only [run_request made, State.answer, Http.Exchange.counters, looked]

/-! ## Acts -/

theorem counters_commit (hash : TxHash) (base : Version) (next : Record) :
    (s.perform (.commit hash base next)).counters = s.counters := by
  rw [State.perform]
  split <;> rfl

theorem get_counters_performAll (s : State) (acts : List Act) (o : Outcome) :
    (s.performAll acts).counters.get o =
      s.counters.get o + (outcomes (s.transcript acts)).count o := by
  -- by induction on the acts: the first one counts once or not at all, the others from there on
  induction acts generalizing s with
  | nil => rfl
  | cons a acts ih =>
    rw [State.performAll_cons, ih]
    cases a with
    | commit hash base next =>
      -- the end of a round is in no transcript
      rw [counters_commit]
      rfl
    | command c single =>
      rw [State.transcript]
      cases looked : c.lookedUp? with
      | none =>
        have same : (s.perform (.command c single)).counters = s.counters :=
          counters_run_of_none single looked
        rw [same, outcomes_cons_of_none looked]
      | some hash =>
        obtain ⟨counted, shown⟩ := run_of_looksUp (s := s) (Command.lookedUp?_eq_some_iff.mp looked)
        have count : (s.perform (.command c single)).counters =
            s.counters.count (s.find hash).outcome := counted
        rw [count, outcomes_cons_of_some looked shown, Counters.get_count, List.count_cons,
          Nat.add_assoc, Nat.add_comm (List.count _ _)]
        simp only [beq_iff_eq]

/-- One who gets the page of the counters is shown it, without a read of the store. -/
theorem run_request_page {target body : String} {headers : List (String × String)}
    {r : Http.Request} (made : Http.Request.of "GET" target headers body = .ok r)
    (path : r.path = "/metrics".toList) :
    ∃ response, ((Command.request "GET" target headers body).run s).2 = .response response 0 ∧
      response.status = 200 ∧ response.body = s.counters.page := by
  have routed : Http.Route.ofPath r.path = .counters := by
    rw [path]
    decide
  have reading : r.isReading = true := (Http.Request.isReading_iff made).mpr (.inl rfl)
  have method : r.method = "GET" := Http.Request.method_eq made
  let shown := { (Http.Exchange.page s.counters).response with sharing := .shared }
  have answered : Http.Exchange.answer s.find s.counters r =
      { Http.Exchange.page s.counters with response := shown } := by
    simp [Http.Exchange.answer_eq, Http.Exchange.ofRoute, routed, reading, Http.Exchange.sentTo,
      Http.Exchange.sent, method, shown]
  refine ⟨shown, ?_, rfl, rfl⟩
  rw [run_request made]
  simp only [State.answer, answered]
  rfl

/-! ## The main statement -/

/-- A session is its acts, and after any of them each counter has grown by the number of lookups done
that came out so, as their replies show it. What the page of the counters tells is these numbers. -/
theorem lookups_counted (s : State) (cs : List Command) :
    (∀ c hash, Command.lookedUp? c = some hash ↔ c.LooksUp hash) ∧
    s.performAll (actsAll s cs) = (runAll s cs).1 ∧
    (s.transcript (actsAll s cs)).map Prod.snd = leavesAll (runAll s cs).2 ∧
    ∀ past rest, actsAll s cs = past ++ rest →
      let now := s.performAll past
      (∀ o, now.counters.get o =
        s.counters.get o + (outcomes (s.transcript past)).count o) ∧
      (∀ c hash, Command.LooksUp c hash →
        (c.run now).1.counters = now.counters.count (now.find hash).outcome ∧
        (c.run now).2.outcome? = some (now.find hash).outcome) ∧
      (∀ c, Command.isUpdate c = false → (∀ hash, ¬ c.LooksUp hash) →
        (c.run now).1.counters = now.counters) ∧
      ∀ target headers body r, Http.Request.of "GET" target headers body = .ok r →
        r.path = "/metrics".toList → ∃ response,
          ((Command.request "GET" target headers body).run now).2 = .response response 0 ∧
          response.status = 200 ∧
          readPage response.body =
            (Outcome.all.filter fun o => now.counters.get o ≠ 0).map
              fun o => (o.name, now.counters.get o) := by
  obtain ⟨state, replies⟩ := comes_all s cs
  refine ⟨fun _ _ => Command.lookedUp?_eq_some_iff, state, replies, ?_⟩
  intro past rest split now
  refine ⟨get_counters_performAll s past, fun _ _ => run_of_looksUp, ?_, ?_⟩
  · intro c single other
    refine counters_run_of_none single (Option.eq_none_iff_forall_ne_some.mpr ?_)
    intro hash looked
    exact other hash (Command.lookedUp?_eq_some_iff.mp looked)
  · intro target headers body r made path
    obtain ⟨response, replied, fine, shown⟩ := run_request_page (s := now) made path
    refine ⟨response, replied, fine, ?_⟩
    rw [shown]
    exact Counters.readPage_page now.counters

/-- What is looked up inside a schedule has been counted before the update ends, and the page tells it
then. A segment that is no text and a request for options come later and are not counted. -/
theorem lookups_counted_midway :
    let s : State :=
      { store := Store.empty.writeAll [.upsert (Record.new ⟨"a"⟩)]
        faults := { onHashes := [(⟨"x"⟩, .unavailable "down")] } }
    let cs : List Command :=
      [.update ⟨"a"⟩ id
          [[.lookup ⟨"a"⟩, .upsert (Record.new ⟨"a"⟩), .request "HEAD" "/tx/b%2F" [] ""]],
        .request "GET" "/tx/%FF" [] "", .request "OPTIONS" "/tx/a" [] "",
        .request "GET" "/tx/x" [] ""]
    let acts := actsAll s cs
    acts.length = 8 ∧ outcomes (s.transcript (acts.take 3)) = [.found, .notFound] ∧
      outcomes (s.transcript acts) = [.found, .notFound, .error] ∧
      (∀ o, (s.performAll acts).counters.get o = [Outcome.found, .notFound, .error].count o) ∧
      ∃ response,
        ((Command.request "GET" "/metrics" [] "").run (s.performAll (acts.take 3))).2 =
          .response response 0 ∧
        readPage response.body = [("found", 1), ("not_found", 1)] := by
  intro s cs acts
  have midway : outcomes (s.transcript (acts.take 3)) = [.found, .notFound] := by decide +kernel
  have whole : outcomes (s.transcript acts) = [.found, .notFound, .error] := by decide +kernel
  obtain ⟨-, -, -, moments⟩ := lookups_counted s cs
  obtain ⟨atEnd, -⟩ := moments acts [] (List.append_nil _).symm
  obtain ⟨-, -, -, page⟩ := moments (acts.take 3) (acts.drop 3) (List.take_append_drop _ _).symm
  obtain ⟨response, replied, -, read⟩ := page "/metrics" [] "" _ rfl rfl
  refine ⟨by decide +kernel, midway, whole, ?_, response, replied, ?_⟩
  · intro o
    have count := atEnd o
    rw [whole] at count
    have none : s.counters.get o = 0 := by cases o <;> rfl
    rw [count, none, Nat.zero_add]
  · rw [read]
    decide +kernel

end Session

end TransactionLookup
