import TransactionLookup.Proofs.Http.Transaction
import TransactionLookup.Proofs.Transaction.Tree

/-!
# What a request for a transaction comes to

A segment that stands for no text is refused unseen, under the name that was sent. Any other is looked
up once, and what was found decides all of the answer: the record, a refusal that names the text, or
one of two refusals that tell nothing of the fault (`transaction_outcome`).
-/

namespace TransactionLookup.Http

/-- A document that tells an error. -/
def errorTree (message : String) : Json.Value := .map [("error", textTree message)]

theorem Refusal.value_body (r : Refusal) :
    Json.Value.read r.body.toList = .ok (errorTree r.publicMessage) := by
  have reads := @Json.reads_objectTree String 126 (fun message => Json.quote message.toList)
    textTree (fun _ => "error") [r.publicMessage] fun message _ => Json.reads_textTree _ message
  rw [Refusal.body, String.toList_ofList]
  exact reads.document

/-- Whether a response is an error with a message, and with nothing else in its body. -/
structure Refuses (response : Response) (status : Nat) (message : String) : Prop where
  status : response.status = status
  kind : response.kind = some jsonKind
  body : response.body =
    String.ofList (Json.objectText [("error", Json.quote message.toList)])
  read : Json.Value.read response.body.toList = .ok (errorTree message)

/-- Whether a response is a record. -/
structure Shows (response : Response) (r : Record) : Prop where
  status : response.status = 200
  kind : response.kind = some jsonKind
  body : response.body = String.ofList r.json
  read : Json.Value.read response.body.toList = .ok r.tree

/-- Whether a response tells what was found under a name. -/
def Tells (response : Response) (name : String) : Finding → Prop
  | .ok (some r) => Shows response r
  | .ok none => Refuses response 404 ("transaction " ++ name ++ " not found")
  | .error fault =>
    if fault.isUnavailable then Refuses response 503 "service unavailable"
    else Refuses response 500 "internal server error"

namespace Tells

variable {response : Response} {name : String} {finding : Finding}

/-- The status says what kind of finding it was. -/
theorem status (tells : Tells response name finding) : response.status = statusOf finding := by
  match finding with
  | .ok (some r) => exact Shows.status tells
  | .ok none => exact Refuses.status tells
  | .error fault =>
    simp only [Tells] at tells
    split at tells
    next unreachable => rw [tells.status, statusOf, if_pos unreachable]
    next reached => rw [tells.status, statusOf, if_neg reached]

/-- Each of the four kinds of finding has a status of its own. -/
theorem status_iff (tells : Tells response name finding) :
    (response.status = 200 ↔ ∃ r, finding = .ok (some r)) ∧
    (response.status = 404 ↔ finding = .ok none) ∧
    (response.status = 503 ↔ ∃ detail, finding = .error (.unavailable detail)) ∧
    (response.status = 500 ↔
      ∃ fault, finding = .error fault ∧ ∀ detail, fault ≠ .unavailable detail) := by
  rw [tells.status]
  match finding with
  | .ok (some r) => simp [statusOf]
  | .ok none => simp [statusOf]
  | .error fault => cases fault <;> simp [statusOf, Fault.isUnavailable]

theorem status_mem (tells : Tells response name finding) :
    response.status ∈ [200, 404, 500, 503] := by
  rw [tells.status]
  match finding with
  | .ok (some r) => simp [statusOf]
  | .ok none => simp [statusOf]
  | .error fault => cases fault <;> simp [statusOf, Fault.isUnavailable]

theorem document (tells : Tells response name finding) :
    ∃ value, Json.Value.read response.body.toList = .ok value := by
  match finding with
  | .ok (some r) => exact ⟨_, Shows.read tells⟩
  | .ok none => exact ⟨_, Refuses.read tells⟩
  | .error fault =>
    simp only [Tells] at tells
    split at tells
    · exact ⟨_, tells.read⟩
    · exact ⟨_, tells.read⟩

end Tells

namespace Exchange

theorem refuses_ofRefusal (r : Refusal) (sharing : Sharing) :
    Refuses { (ofRefusal r).response with sharing } r.status r.publicMessage :=
  ⟨rfl, rfl, rfl, r.value_body⟩

theorem shows_ofRecord (r : Record) (sharing : Sharing) :
    Shows { (ofContent (.ofRecord r)).response with sharing } r := by
  -- a record of the clock's time differs in nothing but the length that is told
  have same : (Content.ofRecord r).kind = jsonKind ∧
      (Content.ofRecord r).body = String.ofList r.json := by
    cases time : r.timestamp <;> simp [Content.ofRecord, Content.of, time]
  have body : (ofContent (.ofRecord r)).response.body = String.ofList r.json := same.2
  refine ⟨rfl, congrArg some same.1, body, ?_⟩
  rw [body, String.toList_ofList]
  exact r.value_json

theorem tells_ofFinding (hash : TxHash) (finding : Finding) (sharing : Sharing) :
    Tells { (ofFinding hash finding).response with sharing } hash.text finding := by
  match finding with
  | .ok (some r) => exact shows_ofRecord r sharing
  | .ok none => exact refuses_ofRefusal (.noTransaction hash.text) sharing
  | .error fault =>
    have refuses := refuses_ofRefusal (.fault fault) sharing
    simp only [Refusal.status, Refusal.publicMessage] at refuses
    simp only [Tells]
    split
    next unreachable =>
      rw [if_pos unreachable, if_pos unreachable] at refuses
      exact refuses
    next reached =>
      rw [if_neg reached, if_neg reached] at refuses
      exact refuses

section Get

variable {r : Request} {segment : List Char} {text : String}

/-- A segment that stands for no text is refused under the name that was sent, whatever is stored. -/
theorem answer_undecodable (get : r.method = "GET") (path : r.path = transactionPath segment)
    (single : isSegment segment = true) (undecodable : decodeText? segment = none)
    (find : TxHash → Finding) (c : Counters) :
    answer find c r =
      { ofRefusal (.noTransaction (String.ofList segment)) with
        response :=
          { (ofRefusal (.noTransaction (String.ofList segment))).response with sharing := .shared }
        events := [.undecodable (String.ofList segment)] } := by
  rw [answer_get get path single]
  simp only [transaction, undecodable]

/-- Any other is answered by what is found under the text that it stands for. -/
theorem answer_decoded (get : r.method = "GET") (path : r.path = transactionPath segment)
    (single : isSegment segment = true) (decoded : decodeText? segment = some text)
    (find : TxHash → Finding) (c : Counters) :
    answer find c r =
      { ofFinding ⟨text⟩ (find ⟨text⟩) with
        response := { (ofFinding ⟨text⟩ (find ⟨text⟩)).response with sharing := .shared }
        lookup := some (⟨text⟩, find ⟨text⟩)
        events := (find ⟨text⟩).events ++ (ofFinding ⟨text⟩ (find ⟨text⟩)).events
        asked := [⟨text⟩] } := by
  rw [answer_get get path single]
  simp only [transaction, decoded]

theorem tells_answer (get : r.method = "GET") (path : r.path = transactionPath segment)
    (single : isSegment segment = true) (decoded : decodeText? segment = some text)
    (find : TxHash → Finding) (c : Counters) :
    Tells (answer find c r).response text (find ⟨text⟩) := by
  rw [answer_decoded get path single decoded]
  exact tells_ofFinding ⟨text⟩ (find ⟨text⟩) .shared

/-! ## The main statement -/

/-- A segment that is no UTF-8 is refused as it was sent, and neither the store nor the counters are
touched. Any other is read under its text once and under nothing else, and the four kinds of finding
have the four statuses; so one text has one answer, however it is spelled. -/
theorem transaction_outcome {target body : String} {headers : List (String × String)}
    (made : Request.of "GET" target headers body = .ok r)
    (path : r.path = transactionPath segment) (single : isSegment segment = true)
    (find : TxHash → Finding) (c : Counters) :
    let e := answer find c r
    (decodeText? segment = none →
      Refuses e.response 404 ("transaction " ++ String.ofList segment ++ " not found") ∧
      e.lookup = none ∧ e.reads = 0 ∧ e.counters c = c ∧ ∀ find', answer find' c r = e) ∧
    (∀ text, decodeText? segment = some text →
      Tells e.response text (find ⟨text⟩) ∧
      e.lookup = some (⟨text⟩, find ⟨text⟩) ∧ e.reads = 1 ∧ e.asked = [⟨text⟩] ∧
      (∀ find', find' ⟨text⟩ = find ⟨text⟩ → answer find' c r = e) ∧
      (e.response.status = 200 ↔ ∃ record, find ⟨text⟩ = .ok (some record)) ∧
      (e.response.status = 404 ↔ find ⟨text⟩ = .ok none) ∧
      (e.response.status = 503 ↔ ∃ detail, find ⟨text⟩ = .error (.unavailable detail)) ∧
      (e.response.status = 500 ↔
        ∃ fault, find ⟨text⟩ = .error fault ∧ ∀ detail, fault ≠ .unavailable detail) ∧
      ∀ target' headers' body' r' segment',
        Request.of "GET" target' headers' body' = .ok r' → r'.path = transactionPath segment' →
        isSegment segment' = true → decodeText? segment' = some text → answer find c r' = e) ∧
    e.response.status ∈ [200, 404, 500, 503] ∧
    ∃ value, Json.Value.read e.response.body.toList = .ok value := by
  intro e
  obtain ⟨_, -, -, -, rfl⟩ := Request.of_eq_ok_iff.mp made
  cases decoded : decodeText? segment with
  | none =>
    have answered := answer_undecodable rfl path single decoded find c
    have refuses := refuses_ofRefusal (.noTransaction (String.ofList segment)) .shared
    have response : e.response =
        { (ofRefusal (.noTransaction (String.ofList segment))).response with sharing := .shared } :=
      congrArg Exchange.response answered
    rw [← response] at refuses
    refine ⟨fun _ => ⟨refuses, ?_, ?_, ?_, ?_⟩, nofun, ?_, _, refuses.read⟩
    · exact congrArg Exchange.lookup answered
    · exact congrArg Exchange.reads answered
    · exact congrArg (fun e => Exchange.counters e c) answered
    · intro find'
      -- the answer has been made without the store
      exact (answer_undecodable rfl path single decoded find' c).trans answered.symm
    · rw [refuses.status]
      exact List.mem_cons_of_mem _ List.mem_cons_self
  | some text =>
    have answered := answer_decoded rfl path single decoded find c
    have tells := tells_answer rfl path single decoded find c
    have looked : e.lookup = some (⟨text⟩, find ⟨text⟩) := congrArg Exchange.lookup answered
    have asked : e.asked = [⟨text⟩] := congrArg Exchange.asked answered
    refine ⟨nofun, ?_, tells.status_mem, tells.document⟩
    intro same equal
    cases equal
    obtain ⟨found, absent, unreachable, failed⟩ := tells.status_iff
    refine ⟨tells, looked, congrArg List.length asked, asked, ?_, found, absent, unreachable,
      failed, ?_⟩
    · intro find' agree
      have again := answer_decoded rfl path single decoded find' c
      rw [agree] at again
      exact again.trans answered.symm
    · intro target' headers' body' r' segment' made' path' single' decoded'
      obtain ⟨_, -, -, -, rfl⟩ := Request.of_eq_ok_iff.mp made'
      exact (answer_decoded rfl path' single' decoded' find c).trans answered.symm

/-- An escaped slash and digits of both cases, in front of a store that cannot be reached; and a text
that is cut off in the middle of a character. -/
theorem transaction_outcome_escapes :
    let find : TxHash → Finding := fun hash =>
      if hash = ⟨"a/é%"⟩ then .error (.unavailable "connection refused") else .ok none
    let whole : Request := ⟨"GET", transactionPath "a%2F%c3%A9%25".toList, [], ""⟩
    let cut : Request := ⟨"GET", transactionPath "a%2F%c3".toList, [], ""⟩
    Request.of "GET" "/tx/a%2F%c3%A9%25?q" [] "" = .ok whole ∧
      Request.of "GET" "/tx/a%2F%c3" [] "" = .ok cut ∧
      Refuses (answer find {} whole).response 503 "service unavailable" ∧
      Refuses (answer find {} cut).response 404 "transaction a%2F%c3 not found" := by
  intro find whole cut
  have made : Request.of "GET" "/tx/a%2F%c3%A9%25?q" [] "" = .ok whole := rfl
  have made' : Request.of "GET" "/tx/a%2F%c3" [] "" = .ok cut := rfl
  have decoded : decodeText? "a%2F%c3%A9%25".toList = some "a/é%" := by decide +kernel
  have undecodable : decodeText? "a%2F%c3".toList = none := by decide +kernel
  have first := transaction_outcome made rfl (by decide) find {}
  have second := transaction_outcome made' rfl (by decide) find {}
  exact ⟨made, made', (first.2.1 "a/é%" decoded).1, (second.1 undecodable).1⟩

end Get

end Exchange

end TransactionLookup.Http
