import TransactionLookup.Proofs.Http.Outcome

/-!
# Where requests lead

Nothing of a request but its method and its path has an influence on the answer (`answer_congr`), and
what has not been looked up has none either (`answer_unread`). But for `OPTIONS`, which no route gets to
see, the answer is that of the route, made ready for the method: `HEAD` is answered as `GET` is, without
the body.
-/

namespace TransactionLookup.Http

/-- Whether a path is none of those that lead to a route. -/
structure LeadsNowhere (path : List Char) : Prop where
  notProbe : path ≠ "/ping".toList
  notCounters : path ≠ "/metrics".toList
  notTransaction : ∀ segment, isSegment segment = true → path ≠ transactionPath segment

theorem LeadsNowhere.ofPath {path : List Char} (nowhere : LeadsNowhere path) :
    Route.ofPath path = .nowhere := by
  unfold Route.ofPath
  rw [if_neg nowhere.notProbe, if_neg nowhere.notCounters]
  split
  next segment =>
    refine if_neg fun single => ?_
    exact nowhere.notTransaction segment single rfl
  · rfl

theorem ofPath_eq_nowhere_iff {path : List Char} :
    Route.ofPath path = .nowhere ↔ LeadsNowhere path := by
  constructor
  · intro routed
    refine ⟨?_, ?_, ?_⟩
    · rintro rfl
      cases routed
    · rintro rfl
      cases routed
    · rintro segment single rfl
      rw [ofPath_transactionPath single] at routed
      cases routed
  · exact LeadsNowhere.ofPath

/-- A segment that is empty or more than one leads nowhere, and neither does a fixed path that is spelled
otherwise. -/
example : ∀ path ∈ ["/tx/", "/tx/a/", "/tx/a/b", "/ping/", "/%70ing", "*", ""],
    Route.ofPath path.toList = .nowhere := by decide

/-- The body that the probe is answered with. -/
def probeBody : String := "\x7b\"ping\":\"pong\"\x7d"

/-- Whether a response has a status and a body, which `HEAD` is not sent. -/
structure Brings (response : Response) (method : String) (status : Nat) (body : String) : Prop where
  status : response.status = status
  body : response.body = if method = "HEAD" then "" else body

/-- Whether a response says that a path takes no methods but for reading, and nothing else. -/
structure RefusesMethod (response : Response) : Prop where
  status : response.status = 405
  allow : ("allow", "GET,HEAD") ∈ response.headers
  body : response.body = ""

namespace Exchange

theorem answer_of_ne {r : Request} (other : r.method ≠ "OPTIONS") (find : TxHash → Finding)
    (c : Counters) : answer find c r = (ofRoute find c r).sentTo r.method := by
  rw [answer_eq, if_neg other]

theorem answer_of_eq {r : Request} (same : r.method = "OPTIONS") (find : TxHash → Finding)
    (c : Counters) : answer find c r = options (Route.ofPath r.path) := by
  rw [answer_eq, if_pos same]

/-! ## Routes -/

section Routes

variable {r : Request} (find : TxHash → Finding) (c : Counters)

theorem ofRoute_probe (path : r.path = "/ping".toList) : ofRoute find c r = probe := by
  rw [ofRoute, path]
  rfl

theorem ofRoute_counters (path : r.path = "/metrics".toList) :
    ofRoute find c r = if r.isReading then page c else methodRefused := by
  rw [ofRoute, path]
  rfl

theorem ofRoute_transaction {segment : List Char} (path : r.path = transactionPath segment)
    (single : isSegment segment = true) :
    ofRoute find c r = if r.isReading then transaction find segment else methodRefused := by
  rw [ofRoute, path, ofPath_transactionPath single]

theorem ofRoute_nowhere (nowhere : LeadsNowhere r.path) : ofRoute find c r = unrouted r.path := by
  rw [ofRoute, nowhere.ofPath]

end Routes

/-! ## What has no influence -/

/-- A request is answered by its method and its path. -/
theorem answer_congr {r r' : Request} (method : r.method = r'.method) (path : r.path = r'.path)
    (find : TxHash → Finding) (c : Counters) : answer find c r = answer find c r' := by
  have routed : ofRoute find c r = ofRoute find c r' := by
    rw [ofRoute, ofRoute, Request.isReading, Request.isReading, method, path]
  rw [answer_eq, answer_eq, routed, method, path]

theorem transaction_unread {find : TxHash → Finding} {segment : List Char}
    (unread : (transaction find segment).lookup = none) (find' : TxHash → Finding) :
    transaction find' segment = transaction find segment := by
  cases decoded : decodeText? segment with
  | none => simp only [transaction, decoded]
  | some text =>
    simp only [transaction, decoded] at unread
    cases unread

/-- What is stored does not show in an answer that it was not looked up for. -/
theorem answer_unread {find : TxHash → Finding} {c : Counters} {r : Request}
    (unread : (answer find c r).lookup = none) (find' : TxHash → Finding) :
    answer find' c r = answer find c r := by
  by_cases same : r.method = "OPTIONS"
  · rw [answer_of_eq same, answer_of_eq same]
  · rw [answer_of_ne same] at unread
    rw [answer_of_ne same, answer_of_ne same]
    refine congrArg (sentTo r.method) ?_
    have routed : (ofRoute find c r).lookup = none := unread
    unfold ofRoute at routed ⊢
    -- only the route of a transaction can look at what is stored
    split
    · rfl
    · rfl
    · rfl
    next segment path =>
      rw [path] at routed
      dsimp only at routed
      split
      next reading =>
        rw [if_pos reading] at routed
        exact transaction_unread routed find'
      · rfl

/-! ## What is sent -/

section Sent

variable {method : String}

theorem status_sentTo (e : Exchange) : (e.sentTo method).response.status = e.response.status :=
  status_sent method e.response

theorem sent_of_ne (response : Response) (notHead : method ≠ "HEAD")
    (notConnect : method = "CONNECT" → response.status ≠ 200) : sent method response = response := by
  rw [sent, if_neg notHead, if_neg]
  rintro ⟨connect, fine⟩
  exact notConnect connect fine

theorem brings_sentTo (notConnect : method ≠ "CONNECT") (e : Exchange) :
    Brings (e.sentTo method).response method e.response.status e.response.body := by
  refine ⟨status_sentTo e, ?_⟩
  by_cases head : method = "HEAD"
  · rw [if_pos head, sentTo, sent, if_pos head]
  · rw [if_neg head, sentTo, sent_of_ne _ head fun connect => absurd connect notConnect]

/-- `HEAD` is answered as `GET` is, without the body. -/
theorem answer_head {r : Request} (head : r.method = "HEAD") (find : TxHash → Finding) (c : Counters) :
    let full := answer find c { r with method := "GET" }
    answer find c r = { full with response := { full.response with body := "" } } := by
  intro full
  have reading : r.isReading = true := by simp [Request.isReading, head]
  have routed : ofRoute find c r = ofRoute find c { r with method := "GET" } := by
    simp only [ofRoute, reading]
    rfl
  have notOptions : r.method ≠ "OPTIONS" := by
    rw [head]
    decide
  have got : full = (ofRoute find c { r with method := "GET" }).sentTo "GET" :=
    answer_of_ne (by simp) find c
  rw [answer_of_ne notOptions, routed, head, got]
  rfl

theorem refuses_sentTo (notHead : method ≠ "HEAD") (refusal : Refusal) {e : Exchange}
    (refused : e.response = (ofRefusal refusal).response) :
    Refuses (e.sentTo method).response refusal.status refusal.publicMessage := by
  have notFine : refusal.status ≠ 200 := by
    cases refusal with
    | noTransaction | noRoute => exact nofun
    | fault fault =>
      rw [Refusal.status]
      split <;> decide
  rw [sentTo, refused, sent_of_ne _ notHead fun _ => notFine]
  exact refuses_ofRefusal refusal .shared

theorem refusesMethod_sentTo (method : String) : RefusesMethod (methodRefused.sentTo method).response := by
  have sent : sent method .readingOnlyRefusal = .readingOnlyRefusal := by
    by_cases head : method = "HEAD"
    · rw [sent, if_pos head]
      rfl
    · exact sent_of_ne _ head fun _ => by decide
  rw [sentTo, methodRefused, sent]
  exact ⟨rfl, by decide, rfl⟩

end Sent

end Exchange

end TransactionLookup.Http
