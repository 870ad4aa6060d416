import TransactionLookup.Http.Exchange

/-!
# Requests for a transaction

What a path of `/tx/` and one more segment leads to, and when a request for it is answered with a
record: only if a record was found under the text that the segment stands for. Of the reader that
notes what it is asked for, answers are told as functions of what is found (`answer_eq`), so that it
can be said what was read for them.
-/

namespace TransactionLookup.Http

/-- The path of a transaction. -/
def transactionPath (segment : List Char) : List Char := '/' :: 't' :: 'x' :: '/' :: segment

theorem ofPath_transactionPath {segment : List Char} (single : isSegment segment = true) :
    Route.ofPath (transactionPath segment) = .transaction segment := by
  have notProbe : transactionPath segment ≠ "/ping".toList := by simp [transactionPath]
  have notCounters : transactionPath segment ≠ "/metrics".toList := by simp [transactionPath]
  unfold Route.ofPath
  rw [if_neg notProbe, if_neg notCounters]
  simp only [transactionPath, if_pos single]

theorem ofPath_eq_transaction_iff {path segment : List Char} :
    Route.ofPath path = .transaction segment ↔
      path = transactionPath segment ∧ isSegment segment = true := by
  constructor
  · intro routed
    unfold Route.ofPath at routed
    split at routed
    · cases routed
    · split at routed
      · cases routed
      · split at routed
        · split at routed
          next single =>
            cases routed
            exact ⟨rfl, single⟩
          · cases routed
        · cases routed
  · rintro ⟨rfl, single⟩
    exact ofPath_transactionPath single

/-- The status that tells what was found. -/
def statusOf : Finding → Nat
  | .ok (some _) => 200
  | .ok none => 404
  | .error fault => if fault.isUnavailable then 503 else 500

/-- A request is made of a method, a target with a path, and headers that are all well formed. -/
theorem Request.of_eq_ok_iff {method target body : String} {headers : List (String × String)}
    {r : Request} : Request.of method target headers body = .ok r ↔
      ∃ path, isToken method = true ∧ pathOfTarget target.toList = .ok path ∧
        headerProblem? headers = none ∧ r = ⟨method, path, headers, body⟩ := by
  unfold Request.of
  constructor
  · intro made
    split at made
    · cases made
    next token =>
      split at made
      · cases made
      next path found =>
        split at made
        · cases made
        next fine =>
          cases made
          exact ⟨path, by simpa using token, found, fine, rfl⟩
  · rintro ⟨path, token, found, fine, rfl⟩
    simp [token, found, fine]

theorem Request.method_eq {method target body : String} {headers : List (String × String)}
    {r : Request} (made : Request.of method target headers body = .ok r) : r.method = method := by
  obtain ⟨path, -, -, -, rfl⟩ := Request.of_eq_ok_iff.mp made
  rfl

theorem Request.isReading_iff {method target body : String} {headers : List (String × String)}
    {r : Request} (made : Request.of method target headers body = .ok r) :
    r.isReading = true ↔ method = "GET" ∨ method = "HEAD" := by
  simp [Request.isReading, Request.method_eq made]

namespace Exchange

/-! ## Answers as functions of what is found -/

/-- What a segment of a path is answered with. The store is read for the text that it stands for. -/
def transaction (find : TxHash → Finding) (segment : List Char) : Exchange :=
  match decodeText? segment with
  | none =>
    { ofRefusal (.noTransaction (String.ofList segment)) with
      events := [.undecodable (String.ofList segment)] }
  | some text =>
    { ofFinding ⟨text⟩ (find ⟨text⟩) with
      lookup := some (⟨text⟩, find ⟨text⟩)
      events := (find ⟨text⟩).events ++ (ofFinding ⟨text⟩ (find ⟨text⟩)).events
      asked := [⟨text⟩] }

/-- What a route answers with. -/
def ofRoute (find : TxHash → Finding) (c : Counters) (r : Request) : Exchange :=
  match Route.ofPath r.path with
  | .probe => probe
  | .nowhere => unrouted r.path
  | .counters => if r.isReading then page c else methodRefused
  | .transaction segment => if r.isReading then transaction find segment else methodRefused

/-- An exchange with its response as it is sent to a method, for pages of every origin. -/
def sentTo (method : String) (e : Exchange) : Exchange :=
  { e with response := { sent method e.response with sharing := .shared } }

theorem noted_askTransaction (find : TxHash → Finding) (segment : List Char) :
    noted (askTransaction (noting find) segment) = transaction find segment := by
  unfold askTransaction transaction
  cases decodeText? segment with
  | none => rfl
  | some text =>
    -- the reader is asked for the text, and for nothing after that
    cases find ⟨text⟩ <;> rfl

theorem noted_askRoute (find : TxHash → Finding) (c : Counters) (r : Request) :
    noted (askRoute (noting find) c r) = ofRoute find c r := by
  unfold askRoute ofRoute
  cases Route.ofPath r.path with
  | probe => rfl
  | nowhere => rfl
  | counters =>
    dsimp only
    split <;> rfl
  | transaction segment =>
    dsimp only
    split
    · exact noted_askTransaction find segment
    · rfl

/-- An answer is that of the route, as it is sent. -/
theorem answer_eq (find : TxHash → Finding) (c : Counters) (r : Request) :
    answer find c r =
      if r.method = "OPTIONS" then options (Route.ofPath r.path)
      else (ofRoute find c r).sentTo r.method := by
  rw [← noted_askRoute]
  unfold answer ask
  split <;> rfl

theorem asked_transaction (find : TxHash → Finding) (segment : List Char) :
    (transaction find segment).asked =
      ((transaction find segment).lookup.map Prod.fst).toList := by
  unfold transaction
  cases decodeText? segment <;> rfl

theorem asked_ofRoute (find : TxHash → Finding) (c : Counters) (r : Request) :
    (ofRoute find c r).asked = ((ofRoute find c r).lookup.map Prod.fst).toList := by
  unfold ofRoute
  cases Route.ofPath r.path with
  | probe => rfl
  | nowhere => rfl
  | counters =>
    dsimp only
    split <;> rfl
  | transaction segment =>
    dsimp only
    split
    · exact asked_transaction find segment
    · rfl

/-- What was read for an answer is what it has looked up: one hash, once, or nothing. -/
theorem asked_answer (find : TxHash → Finding) (c : Counters) (r : Request) :
    (answer find c r).asked = ((answer find c r).lookup.map Prod.fst).toList := by
  rw [answer_eq]
  split
  · rfl
  -- sending a response changes neither what was read for it nor what was looked up
  · exact asked_ofRoute find c r

theorem reads_eq_zero_iff {find : TxHash → Finding} {c : Counters} {r : Request} :
    (answer find c r).reads = 0 ↔ (answer find c r).lookup = none := by
  rw [reads, asked_answer]
  cases (answer find c r).lookup <;> simp

/-! ## Requests that read -/

/-- A request that reads a transaction is answered by its lookup, and shared with other origins. -/
theorem answer_reading {r : Request} {segment : List Char} (reading : r.isReading = true)
    (path : r.path = transactionPath segment) (single : isSegment segment = true)
    (find : TxHash → Finding) (c : Counters) :
    answer find c r =
      { transaction find segment with
        response :=
          { sent r.method (transaction find segment).response with sharing := .shared } } := by
  have routed : ofRoute find c r = transaction find segment := by
    simp only [ofRoute, path, ofPath_transactionPath single, if_pos reading]
  have notOptions : r.method ≠ "OPTIONS" := by
    intro same
    rw [Request.isReading, same] at reading
    exact absurd reading (by decide)
  rw [answer_eq, if_neg notOptions, routed]
  rfl

theorem answer_get {r : Request} {segment : List Char} (get : r.method = "GET")
    (path : r.path = transactionPath segment) (single : isSegment segment = true)
    (find : TxHash → Finding) (c : Counters) :
    answer find c r =
      { transaction find segment with
        response := { (transaction find segment).response with sharing := .shared } } := by
  have reading : r.isReading = true := by simp [Request.isReading, get]
  rw [answer_reading reading path single, get]
  rfl

theorem status_sent (method : String) (r : Response) : (sent method r).status = r.status := by
  unfold sent
  split
  · rfl
  · split <;> rfl

/-- What was found decides the status. -/
theorem status_ofFinding (hash : TxHash) (finding : Finding) :
    (ofFinding hash finding).response.status = statusOf finding := by
  match finding with
  | .ok (some _) | .ok none | .error _ => rfl

/-- The status 200 says that a record was found, and the body is that record. -/
theorem transaction_found {find : TxHash → Finding} {segment : List Char}
    (fine : (transaction find segment).response.status = 200) :
    ∃ text r, decodeText? segment = some text ∧ find ⟨text⟩ = .ok (some r) ∧
      (transaction find segment).response.body = String.ofList r.json := by
  cases decoded : decodeText? segment with
  | none =>
    simp only [transaction, decoded] at fine
    cases fine
  | some text =>
    have answered : (transaction find segment).response =
        (ofFinding ⟨text⟩ (find ⟨text⟩)).response := by simp only [transaction, decoded]
    rw [answered, status_ofFinding] at fine
    match found : find ⟨text⟩ with
    | .ok (some r) =>
      refine ⟨text, r, rfl, found, ?_⟩
      rw [answered, found]
      -- a record of the clock's time is no different in its body
      cases time : r.timestamp <;>
        simp only [ofFinding, ofContent, Response.withContent, Response.bare, Content.ofRecord,
          Content.of, time]
    | .ok none => simp [statusOf, found] at fine
    | .error fault =>
      simp only [statusOf, found] at fine
      split at fine <;> cases fine

end Exchange

end TransactionLookup.Http
