import TransactionLookup.Proofs.Http.Dispatch
import TransactionLookup.Proofs.Session.Counting

/-!
# Requests dispatched

Every request that is accepted is answered, and its method and its path say how. A path is that of the
probe, that of the counters, that of one transaction, or it leads nowhere; only `GET` and `HEAD` for a
transaction read the store (`dispatch_exact`). The probe and the refusal of a path that leads nowhere are
the same for all methods, but for those whose answers come without a body (`any_method`).
-/

namespace TransactionLookup.Session

open Http

/-- Whether the store was not read for a reply, and nothing was counted. -/
def Untouched (s after : State) (reads : Nat) : Prop := reads = 0 ∧ after.counters = s.counters

/-- Whether a segment was looked up, under the text that it stands for. If it stands for none there is
nothing to look up. What was found is told to `GET`. -/
def LookedUp (s after : State) (method : String) (segment : List Char) (response : Response)
    (reads : Nat) : Prop :=
  match decodeText? segment with
  | none =>
    Untouched s after reads ∧ response.status = 404 ∧
      (method = "GET" →
        Refuses response 404 ("transaction " ++ String.ofList segment ++ " not found"))
  | some text =>
    reads = 1 ∧ after.counters = ((Command.lookup ⟨text⟩).run s).1.counters ∧
      response.status = statusOf (s.find ⟨text⟩) ∧
      (method = "GET" → Tells response text (s.find ⟨text⟩))

/-- What a request comes to, by its method and its path. -/
structure Dispatched (s : State) (method : String) (path : List Char) (after : State)
    (response : Response) (reads : Nat) : Prop where
  store : after.store = s.store
  probe : path = "/ping".toList →
    Untouched s after reads ∧ Brings response method 200 probeBody
  /-- What is read from the page is each count that is not zero. -/
  counters : path = "/metrics".toList → method = "GET" ∨ method = "HEAD" →
    Untouched s after reads ∧ Brings response method 200 s.counters.page ∧
      readPage s.counters.page =
        (Outcome.all.filter fun o => s.counters.get o ≠ 0).map fun o => (o.name, s.counters.get o)
  transaction : ∀ segment, isSegment segment = true → path = transactionPath segment →
    method = "GET" ∨ method = "HEAD" → LookedUp s after method segment response reads
  /-- The last two take no other methods. -/
  refused : (path = "/metrics".toList ∨
      ∃ segment, isSegment segment = true ∧ path = transactionPath segment) →
    method ≠ "GET" → method ≠ "HEAD" → Untouched s after reads ∧ RefusesMethod response
  nowhere : LeadsNowhere path →
    Untouched s after reads ∧ response.status = 404 ∧ (method = "HEAD" → response.body = "") ∧
      (method ≠ "HEAD" → Refuses response 404 ("no route for " ++ String.ofList path))
  read : reads ≠ 0 → (method = "GET" ∨ method = "HEAD") ∧
    ∃ segment, isSegment segment = true ∧ path = transactionPath segment

section Requests

variable {method target body : String} {headers : List (String × String)} {r : Request}
  (made : Request.of method target headers body = .ok r) {s : State}
include made

/-- Other requests of the method for the path are answered no differently. -/
theorem run_request_congr {target' body' : String} {headers' : List (String × String)} {r' : Request}
    (made' : Request.of method target' headers' body' = .ok r') (path : r'.path = r.path) (s : State) :
    (Command.request method target' headers' body').run s =
      (Command.request method target headers body).run s := by
  have method : r'.method = r.method := (Request.method_eq made').trans (Request.method_eq made).symm
  rw [run_request made, run_request made', State.answer, State.answer,
    Exchange.answer_congr method path]

/-- A reply without a read does not tell what is stored, or what faults are set. -/
theorem run_request_unread (unread : (Exchange.answer s.find s.counters r).reads = 0) (store : Store)
    (faults : Faults) :
    ((Command.request method target headers body).run { s with store, faults }).2 =
      ((Command.request method target headers body).run s).2 := by
  have same := Exchange.answer_unread (Exchange.reads_eq_zero_iff.mp unread)
    { s with store, faults }.find
  rw [run_request made, run_request made, State.answer, State.answer, same]

theorem request_get : Request.of "GET" target headers body = .ok { r with method := "GET" } := by
  obtain ⟨path, -, accepted, fine, rfl⟩ := Request.of_eq_ok_iff.mp made
  exact Request.of_eq_ok_iff.mpr ⟨path, by decide, accepted, fine, rfl⟩

/-- `HEAD` is replied to as `GET` is, without the body. -/
theorem run_head (head : method = "HEAD") (s : State) :
    ∃ after reads, ∃ full : Response,
      (Command.request "GET" target headers body).run s = (after, .response full reads) ∧
      (Command.request method target headers body).run s =
        (after, .response { full with body := "" } reads) := by
  refine ⟨_, _, _, run_request (request_get made) s, ?_⟩
  have isHead : r.method = "HEAD" := (Request.method_eq made).trans head
  rw [run_request made, State.answer, Exchange.answer_head isHead]
  rfl

/-- Only a reading of a transaction reads the store. -/
theorem reads_request (read : (Exchange.answer s.find s.counters r).reads ≠ 0) :
    (method = "GET" ∨ method = "HEAD") ∧
      ∃ segment, isSegment segment = true ∧ r.path = transactionPath segment := by
  have looked := lookup_answer made s.find s.counters
  cases found : (Command.request method target headers body).lookedUp? with
  | none =>
    rw [found] at looked
    exact absurd (Exchange.reads_eq_zero_iff.mpr looked) read
  | some hash =>
    cases Command.lookedUp?_eq_some_iff.mp found with
    | @request _ _ _ _ r' segment text made' reading path single decoded =>
      have same : r' = r := Except.ok.inj (made'.symm.trans made)
      exact ⟨reading, segment, single, same ▸ path⟩

end Requests

/-! ## By route -/

section Routes

variable {s : State} {r : Request}

theorem untouched_of_reads (unread : (Exchange.answer s.find s.counters r).reads = 0) :
    Untouched s (s.answer r).1 (Exchange.answer s.find s.counters r).reads := by
  refine ⟨unread, ?_⟩
  simp only [State.answer, Exchange.counters, Exchange.reads_eq_zero_iff.mp unread]

/-- A reading of a transaction runs the lookup of its text. -/
theorem lookedUp_answer {segment : List Char} (reading : r.isReading = true)
    (path : r.path = transactionPath segment) (single : isSegment segment = true) :
    LookedUp s (s.answer r).1 r.method segment (Exchange.answer s.find s.counters r).response
      (Exchange.answer s.find s.counters r).reads := by
  have answered := Exchange.answer_reading reading path single s.find s.counters
  unfold LookedUp
  cases decoded : decodeText? segment with
  | none =>
    dsimp only
    refine ⟨untouched_of_reads (Exchange.reads_eq_zero_iff.mpr ?_), ?_, ?_⟩
    · rw [answered, Exchange.transaction, decoded]
      rfl
    · rw [answered, Exchange.transaction, decoded]
      exact Exchange.status_sent _ _
    · intro get
      rw [Exchange.answer_undecodable get path single decoded]
      exact Exchange.refuses_ofRefusal (.noTransaction (String.ofList segment)) .shared
  | some text =>
    dsimp only
    have looked : (Exchange.answer s.find s.counters r).lookup = some (⟨text⟩, s.find ⟨text⟩) := by
      rw [answered, Exchange.transaction, decoded]
    refine ⟨?_, ?_, ?_, ?_⟩
    · rw [Exchange.reads, Exchange.asked_answer, looked]
      rfl
    · rw [Command.run, State.lookup]
      simp only [State.answer, Exchange.counters, looked]
    · rw [answered, ← Exchange.status_ofFinding ⟨text⟩, Exchange.transaction, decoded]
      exact Exchange.status_sent _ _
    · intro get
      exact Exchange.tells_answer get path single decoded s.find s.counters

/-- The probe answers all methods, but `OPTIONS` does not get to it. -/
theorem answered_probe (path : r.path = "/ping".toList) :
    let response := (Exchange.answer s.find s.counters r).response
    response.status = 200 ∧ (r.method ≠ "OPTIONS" →
      response.body = if r.method = "HEAD" ∨ r.method = "CONNECT" then "" else probeBody) := by
  intro response
  by_cases options : r.method = "OPTIONS"
  · refine ⟨?_, fun other => absurd options other⟩
    have answered : response = (Exchange.options (Route.ofPath r.path)).response :=
      congrArg Exchange.response (Exchange.answer_of_eq options s.find s.counters)
    rw [answered]
    rfl
  · have answered : response = (Exchange.probe.sentTo r.method).response := by
      rw [← Exchange.ofRoute_probe s.find s.counters path, ← Exchange.answer_of_ne options]
    rw [answered]
    refine ⟨Exchange.status_sentTo Exchange.probe, fun _ => ?_⟩
    by_cases connect : r.method = "CONNECT"
    · rw [connect]
      rfl
    · have brings := Exchange.brings_sentTo connect Exchange.probe
      rw [brings.body]
      simp only [connect, or_false]
      rfl

/-- A path that leads nowhere is named in the answer to all methods that are told of it. -/
theorem refused_nowhere (nowhere : LeadsNowhere r.path) (notOptions : r.method ≠ "OPTIONS") :
    let response := (Exchange.answer s.find s.counters r).response
    response.status = 404 ∧ (r.method = "HEAD" → response.body = "") ∧
      (r.method ≠ "HEAD" → Refuses response 404 ("no route for " ++ String.ofList r.path)) := by
  intro response
  have answered : response = ((Exchange.unrouted r.path).sentTo r.method).response := by
    rw [← Exchange.ofRoute_nowhere s.find s.counters nowhere, ← Exchange.answer_of_ne notOptions]
  rw [answered]
  refine ⟨Exchange.status_sentTo _, ?_, ?_⟩
  · intro head
    rw [Exchange.sentTo, Exchange.sent, if_pos head]
  · intro notHead
    exact Exchange.refuses_sentTo notHead (.noRoute (String.ofList r.path)) rfl

theorem dispatched_answer {method target body : String} {headers : List (String × String)}
    (made : Request.of method target headers body = .ok r) (notOptions : method ≠ "OPTIONS")
    (notConnect : method ≠ "CONNECT") :
    Dispatched s method r.path (s.answer r).1 (Exchange.answer s.find s.counters r).response
      (Exchange.answer s.find s.counters r).reads := by
  obtain rfl := Request.method_eq made
  have answered := Exchange.answer_of_ne notOptions s.find s.counters
  have reading := Request.isReading_iff made
  have untouched (other : ¬ ((r.method = "GET" ∨ r.method = "HEAD") ∧
      ∃ segment, isSegment segment = true ∧ r.path = transactionPath segment)) :
      Untouched s (s.answer r).1 (Exchange.answer s.find s.counters r).reads :=
    untouched_of_reads (by_contra fun read => other (reads_request made read))
  constructor
  case store => rfl
  case probe =>
    intro path
    refine ⟨untouched ?_, ?_⟩
    · rintro ⟨-, segment, -, other⟩
      cases path.symm.trans other
    · rw [answered, Exchange.ofRoute_probe _ _ path]
      exact Exchange.brings_sentTo notConnect Exchange.probe
  case counters =>
    intro path reads
    refine ⟨untouched ?_, ?_, s.counters.readPage_page⟩
    · rintro ⟨-, segment, -, other⟩
      cases path.symm.trans other
    · rw [answered, Exchange.ofRoute_counters _ _ path, if_pos (reading.mpr reads)]
      exact Exchange.brings_sentTo notConnect (Exchange.page s.counters)
  case transaction =>
    intro segment single path reads
    exact lookedUp_answer (reading.mpr reads) path single
  case refused =>
    intro path notGet notHead
    have notReading : ¬ r.isReading = true := by
      rw [reading]
      exact not_or.mpr ⟨notGet, notHead⟩
    refine ⟨untouched fun reads => notReading (reading.mpr reads.1), ?_⟩
    have routed : Exchange.ofRoute s.find s.counters r = Exchange.methodRefused := by
      obtain path | ⟨segment, single, path⟩ := path
      · rw [Exchange.ofRoute_counters _ _ path, if_neg notReading]
      · rw [Exchange.ofRoute_transaction _ _ path single, if_neg notReading]
    rw [answered, routed]
    exact Exchange.refusesMethod_sentTo r.method
  case nowhere =>
    intro nowhere
    refine ⟨untouched ?_, refused_nowhere nowhere notOptions⟩
    rintro ⟨-, segment, single, other⟩
    exact nowhere.notTransaction segment single other
  case read => exact reads_request made

end Routes

/-! ## The main statements -/

/-- A request that is accepted is answered as its method and its path say, and nothing else of it
matters. `HEAD` leaves the state of `GET` and has its status and its headers. A reply without a read of
the store is the same before every store and with all faults. -/
theorem dispatch_exact {method target body : String} {headers : List (String × String)} {r : Request}
    (made : Request.of method target headers body = .ok r) (notOptions : method ≠ "OPTIONS")
    (notConnect : method ≠ "CONNECT") (s : State) :
    ∃ after response reads,
      (Command.request method target headers body).run s = (after, .response response reads) ∧
      Dispatched s method r.path after response reads ∧
      (method = "HEAD" → ∃ full : Response,
        (Command.request "GET" target headers body).run s = (after, .response full reads) ∧
        response.status = full.status ∧ response.headers = full.headers ∧ response.body = "") ∧
      (reads = 0 → ∀ store faults,
        ((Command.request method target headers body).run { s with store, faults }).2 =
          .response response reads) ∧
      ∀ target' headers' body' r', Request.of method target' headers' body' = .ok r' →
        r'.path = r.path →
          (Command.request method target' headers' body').run s =
            (after, .response response reads) := by
  have ran := run_request made s
  refine ⟨_, _, _, ran, dispatched_answer made notOptions notConnect, ?_, ?_, ?_⟩
  · intro head
    obtain ⟨after, reads, full, got, headed⟩ := run_head made head s
    have same := ran.symm.trans headed
    rw [State.answer, Prod.mk.injEq, Reply.response.injEq] at same
    obtain ⟨rfl, response, rfl⟩ := same
    refine ⟨full, got, ?_⟩
    rw [response]
    exact ⟨rfl, rfl, rfl⟩
  · intro unread store faults
    rw [run_request_unread made unread, ran]
    rfl
  · intro target' headers' body' r' made' path
    rw [run_request_congr made made' path, ran]
    rfl

/-- A method of no standard, with a target that names a host, is refused; `HEAD` for a transaction whose
read meets a fault is sent the status of that, which is counted; and the page of the counters tells the
two that are not zero. -/
theorem dispatch_exact_refused :
    let s : State :=
      { store := Store.empty.writeAll [.upsert (Record.new ⟨"a"⟩)]
        faults := { onHashes := [(⟨"b"⟩, .unavailable "down")] }
        counters := { found := 2, notFound := 10 } }
    (∃ after response,
      (Command.request "PURGE" "http://host/tx/a?all" [("accept", "*")] "x").run s =
        (after, .response response 0) ∧ RefusesMethod response) ∧
    (∃ after response,
      (Command.request "HEAD" "/tx/b" [] "").run s = (after, .response response 1) ∧
        after.counters = { error := 1, found := 2, notFound := 10 } ∧ response.status = 503 ∧
        response.body = "") ∧
    ∃ after response,
      (Command.request "GET" "/metrics?all" [] "").run s = (after, .response response 0) ∧
        response.status = 200 ∧ readPage response.body = [("found", 2), ("not_found", 10)] := by
  intro s
  have purge : Request.of "PURGE" "http://host/tx/a?all" [("accept", "*")] "x" =
      .ok ⟨"PURGE", transactionPath ['a'], [("accept", "*")], "x"⟩ := rfl
  have head : Request.of "HEAD" "/tx/b" [] "" = .ok ⟨"HEAD", transactionPath ['b'], [], ""⟩ := rfl
  have page : Request.of "GET" "/metrics?all" [] "" = .ok ⟨"GET", "/metrics".toList, [], ""⟩ := rfl
  have decoded : decodeText? ['b'] = some "b" := by decide +kernel
  obtain ⟨after, response, reads, ran, dispatched, -⟩ :=
    dispatch_exact purge (by decide) (by decide) s
  obtain ⟨told, table, tableReads, shown, counts, -⟩ := dispatch_exact page (by decide) (by decide) s
  obtain ⟨after', response', reads', ran', dispatched', empty, -⟩ :=
    dispatch_exact head (by decide) (by decide) s
  obtain ⟨⟨unread, -⟩, refused⟩ :=
    dispatched.refused (.inr ⟨['a'], by decide, rfl⟩) (by decide) (by decide)
  have looked := dispatched'.transaction ['b'] (by decide) rfl (.inr rfl)
  simp only [LookedUp, decoded] at looked
  obtain ⟨once, counted, status, -⟩ := looked
  obtain ⟨full, -, -, -, body⟩ := empty rfl
  obtain ⟨⟨untold, -⟩, brings, read⟩ := counts.counters rfl (.inl rfl)
  subst unread once untold
  refine ⟨⟨after, response, ran, refused⟩, ⟨after', response', ran', ?_, ?_, body⟩, told, table,
    shown, brings.status, ?_⟩
  · rw [counted]
    decide +kernel
  · rw [status]
    decide +kernel
  · rw [brings.body, if_neg (by decide), read]
    decide

/-- Whatever the method, a request for the probe or for a path that leads nowhere reads nothing and
counts nothing. The probe tells all but three methods that it is there: `OPTIONS` is answered before any
route is asked, and `HEAD` and `CONNECT` are sent no body. To a path that leads nowhere, all but
`OPTIONS` get the refusal that names it, of which `HEAD` is sent no body. -/
theorem any_method {method target body : String} {headers : List (String × String)} {r : Request}
    (made : Request.of method target headers body = .ok r)
    (path : r.path = "/ping".toList ∨ LeadsNowhere r.path) (s : State) :
    ∃ after response,
      (Command.request method target headers body).run s = (after, .response response 0) ∧
      after.store = s.store ∧ after.counters = s.counters ∧
      (∀ store faults,
        ((Command.request method target headers body).run { s with store, faults }).2 =
          .response response 0) ∧
      (r.path = "/ping".toList → response.status = 200 ∧
        (method ≠ "OPTIONS" → response.body =
          if method = "HEAD" ∨ method = "CONNECT" then "" else probeBody)) ∧
      (LeadsNowhere r.path → method ≠ "OPTIONS" →
        response.status = 404 ∧ (method = "HEAD" → response.body = "") ∧
          (method ≠ "HEAD" → Refuses response 404 ("no route for " ++ String.ofList r.path))) := by
  obtain rfl := Request.method_eq made
  have unread : (Exchange.answer s.find s.counters r).reads = 0 := by
    by_contra read
    obtain ⟨-, segment, single, other⟩ := reads_request made read
    obtain path | nowhere := path
    · cases path.symm.trans other
    · exact nowhere.notTransaction segment single other
  have replied : (Command.request r.method target headers body).run s =
      ((s.answer r).1, .response (Exchange.answer s.find s.counters r).response 0) := by
    rw [run_request made, State.answer, unread]
  obtain ⟨-, counters⟩ := untouched_of_reads unread
  refine ⟨_, _, replied, rfl, counters, ?_, answered_probe, fun nowhere => refused_nowhere nowhere⟩
  intro store faults
  rw [run_request_unread made unread, replied]

/-- The probe before a store that cannot be reached, and a path with one slash too many. -/
theorem any_method_unreachable :
    let s : State :=
      { store := Store.empty, faults := { everywhere := some (.unavailable "down") } }
    LeadsNowhere "/ping/".toList ∧
    (∃ after response, (Command.request "LOCK" "/ping?" [] "").run s = (after, .response response 0) ∧
      response.status = 200 ∧ response.body = "\x7b\"ping\":\"pong\"\x7d") ∧
    ∃ after response, (Command.request "CONNECT" "/ping/" [] "").run s =
      (after, .response response 0) ∧ Refuses response 404 "no route for /ping/" := by
  intro s
  have lock : Request.of "LOCK" "/ping?" [] "" = .ok ⟨"LOCK", "/ping".toList, [], ""⟩ := rfl
  have connect : Request.of "CONNECT" "/ping/" [] "" = .ok ⟨"CONNECT", "/ping/".toList, [], ""⟩ := rfl
  have nowhere : LeadsNowhere "/ping/".toList := by
    refine ⟨by decide, by decide, ?_⟩
    rintro segment - path
    cases path
  obtain ⟨after, response, ran, -, -, -, probe, -⟩ := any_method lock (.inl rfl) s
  obtain ⟨after', response', ran', -, -, -, -, refused⟩ := any_method connect (.inr nowhere) s
  obtain ⟨fine, body⟩ := probe rfl
  obtain ⟨-, -, refuses⟩ := refused nowhere (by decide)
  exact ⟨nowhere, ⟨after, response, ran, fine, body (by decide)⟩, after', response', ran',
    refuses (by decide)⟩

/-- `OPTIONS` is not told by the probe that it is there, and not that a path leads nowhere. `CONNECT` is
sent no body by the probe. -/
theorem probe_told_in_part :
    let s : State := { store := Store.empty }
    LeadsNowhere "/nope".toList ∧
    (∃ after response, (Command.request "OPTIONS" "/ping" [] "").run s =
      (after, .response response 0) ∧ ¬ Brings response "OPTIONS" 200 probeBody) ∧
    (∃ after response, (Command.request "OPTIONS" "/nope" [] "").run s =
      (after, .response response 0) ∧ response.status = 200 ∧
        ¬ Refuses response 404 "no route for /nope") ∧
    ∃ after response, (Command.request "CONNECT" "/ping" [] "").run s =
      (after, .response response 0) ∧ ¬ Brings response "CONNECT" 200 probeBody := by
  intro s
  have nowhere : LeadsNowhere "/nope".toList := by
    refine ⟨by decide, by decide, ?_⟩
    rintro segment - path
    cases path
  refine ⟨nowhere, ⟨_, _, rfl, ?_⟩, ⟨_, _, rfl, rfl, ?_⟩, _, _, rfl, ?_⟩
  · intro brings
    exact absurd brings.body (by decide)
  · intro refuses
    exact absurd refuses.status (by decide)
  · intro brings
    exact absurd brings.body (by decide)

end TransactionLookup.Session
