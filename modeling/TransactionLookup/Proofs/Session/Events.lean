import TransactionLookup.Proofs.Http.Dispatch
import TransactionLookup.Proofs.Session.Confinement

/-!
# The events of single commands

A command that is no update logs at most two events. What it asks for and how its reply came out decide
which ones (`logs_run`): a lookup logs how it came out unless it found something, a request whose
lookup failed also logs that it was answered with the fault, and a request that reaches no lookup logs
what kept it from one, unless it asked for something else.
-/

namespace TransactionLookup.Session

/-! ## What keeps requests from a lookup -/

/-- Whether a command reads a transaction by a segment that stands for no text. -/
inductive Command.Undecodable : Command → List Char → Prop
  | request {method target body : String} {headers : List (String × String)} {r : Http.Request}
      {segment : List Char} (made : Http.Request.of method target headers body = .ok r)
      (reading : method = "GET" ∨ method = "HEAD") (path : r.path = Http.transactionPath segment)
      (single : Http.isSegment segment = true) (undecoded : Http.decodeText? segment = none) :
      Undecodable (.request method target headers body) segment

/-- Whether a command is a request to a path that leads nowhere, and is not answered before that. -/
inductive Command.Unrouted : Command → List Char → Prop
  | request {method target body : String} {headers : List (String × String)} {r : Http.Request}
      {path : List Char} (made : Http.Request.of method target headers body = .ok r)
      (notOptions : method ≠ "OPTIONS") (own : r.path = path) (nowhere : Http.LeadsNowhere path) :
      Unrouted (.request method target headers body) path

/-- Whether a command is neither a lookup nor kept from one. -/
structure Command.Aside (c : Command) : Prop where
  noLookup : ∀ hash, ¬ c.LooksUp hash
  decodable : ∀ segment, ¬ c.Undecodable segment
  routed : ∀ path, ¬ c.Unrouted path

theorem Command.aside {c : Command} (noRequest : c.isRequest = false)
    (noLookup : ∀ hash, c ≠ .lookup hash) : c.Aside where
  noLookup := by
    rintro hash (_ | _)
    · exact noLookup hash rfl
    · cases noRequest
  decodable := by
    rintro segment ⟨⟩
    cases noRequest
  routed := by
    rintro path ⟨⟩
    cases noRequest

section Requests

variable {method target body : String} {headers : List (String × String)} {r : Http.Request}
  (made : Http.Request.of method target headers body = .ok r)

include made

theorem looksUp_request_iff {hash : TxHash} :
    (Command.request method target headers body).LooksUp hash ↔
      r.isReading = true ∧ ∃ segment text, Http.Route.ofPath r.path = .transaction segment ∧
        Http.decodeText? segment = some text ∧ hash = ⟨text⟩ := by
  rw [Http.Request.isReading_iff made]
  constructor
  · intro looks
    cases looks with
    | request made' reading path single decoded =>
      cases made.symm.trans made'
      exact ⟨reading, _, _, Http.ofPath_eq_transaction_iff.mpr ⟨path, single⟩, decoded, rfl⟩
  · rintro ⟨reading, segment, text, routed, decoded, rfl⟩
    obtain ⟨path, single⟩ := Http.ofPath_eq_transaction_iff.mp routed
    exact .request made reading path single decoded

theorem undecodable_request_iff {segment : List Char} :
    (Command.request method target headers body).Undecodable segment ↔
      r.isReading = true ∧ Http.Route.ofPath r.path = .transaction segment ∧
        Http.decodeText? segment = none := by
  rw [Http.Request.isReading_iff made, Http.ofPath_eq_transaction_iff]
  constructor
  · intro asks
    cases asks with
    | request made' reading path single undecoded =>
      cases made.symm.trans made'
      exact ⟨reading, ⟨path, single⟩, undecoded⟩
  · rintro ⟨reading, ⟨path, single⟩, undecoded⟩
    exact .request made reading path single undecoded

theorem unrouted_request_iff {path : List Char} :
    (Command.request method target headers body).Unrouted path ↔
      r.method ≠ "OPTIONS" ∧ r.path = path ∧ Http.Route.ofPath r.path = .nowhere := by
  rw [Http.Request.method_eq made, Http.ofPath_eq_nowhere_iff]
  constructor
  · intro asks
    cases asks with
    | request made' notOptions own nowhere =>
      cases made.symm.trans made'
      subst own
      exact ⟨notOptions, rfl, nowhere⟩
  · rintro ⟨notOptions, rfl, nowhere⟩
    exact .request made notOptions rfl nowhere

theorem aside_request
    (unread : r.isReading = false ∨ ∀ segment, Http.Route.ofPath r.path ≠ .transaction segment)
    (somewhere : r.method = "OPTIONS" ∨ Http.Route.ofPath r.path ≠ .nowhere) :
    (Command.request method target headers body).Aside where
  noLookup hash looks := by
    obtain ⟨reading, segment, _, routed, -⟩ := (looksUp_request_iff made).mp looks
    rcases unread with notReading | other
    · rw [notReading] at reading
      cases reading
    · exact other segment routed
  decodable segment asks := by
    obtain ⟨reading, routed, -⟩ := (undecodable_request_iff made).mp asks
    rcases unread with notReading | other
    · rw [notReading] at reading
      cases reading
    · exact other segment routed
  routed path asks := by
    obtain ⟨notOptions, -, nowhere⟩ := (unrouted_request_iff made).mp asks
    rcases somewhere with options | led
    · exact notOptions options
    · exact led nowhere

end Requests

variable {s : State} {c : Command} {reply : Reply} {faults : Faults} {events : List Event}
  {hash : TxHash} {segment path : List Char} {fault : Fault}

theorem Command.LooksUp.not_undecodable (looks : c.LooksUp hash) : ¬ c.Undecodable segment := by
  intro asks
  cases asks with
  | request made reading path single undecoded =>
    obtain ⟨-, segment', text, routed, decoded, -⟩ := (looksUp_request_iff made).mp looks
    rw [Http.ofPath_eq_transaction_iff.mpr ⟨path, single⟩] at routed
    cases routed
    rw [undecoded] at decoded
    cases decoded

theorem Command.Unrouted.not_looksUp (asks : c.Unrouted path) : ¬ c.LooksUp hash := by
  intro looks
  cases asks with
  | request made notOptions own nowhere =>
    obtain ⟨-, segment, text, routed, -⟩ := (looksUp_request_iff made).mp looks
    subst own
    rw [nowhere.ofPath] at routed
    cases routed

theorem Command.Unrouted.not_undecodable (asks : c.Unrouted path) : ¬ c.Undecodable segment := by
  intro other
  cases asks with
  | request made notOptions own nowhere =>
    obtain ⟨-, routed, -⟩ := (undecodable_request_iff made).mp other
    subst own
    rw [nowhere.ofPath] at routed
    cases routed

/-! ## Statuses -/

/-- The status of a reply that is a response. -/
def Reply.status? : Reply → Option Nat
  | .response answer _ => some answer.status
  | _ => none

/-- Whether a reply is a response that blames the server. -/
def Reply.IsServerError (reply : Reply) : Prop :=
  ∃ status, reply.status? = some status ∧ 500 ≤ status ∧ status < 600

theorem Reply.not_isServerError_of_status? {status : Nat} (shown : reply.status? = some status)
    (below : status < 500) : ¬ reply.IsServerError := by
  rintro ⟨status', shown', above, -⟩
  rw [shown] at shown'
  cases shown'
  exact Nat.not_lt.mpr above below

theorem Reply.not_isServerError_of_outcome? {o : Outcome} (shown : reply.outcome? = some o)
    (fine : o ≠ .error) : ¬ reply.IsServerError := by
  rintro ⟨status, own, above, -⟩
  cases reply with
  | response answer reads =>
    cases own
    simp only [outcome?] at shown
    -- the statuses of a lookup that came out well are below those of the server
    split at shown
    next same => simp [same] at above
    next same => simp [same] at above
    · exact fine (Option.some.inj shown).symm
    · exact fine (Option.some.inj shown).symm
    · cases shown
  | _ => cases own

/-! ## Outcomes -/

/-- Whether something done is a lookup that came out in a way. -/
def CameOut (o : Outcome) (e : Command × Reply) : Prop :=
  (∃ hash, e.1.LooksUp hash) ∧ e.2.outcome? = some o

theorem not_cameOut_of_none (noLookup : ∀ hash, ¬ c.LooksUp hash) (o : Outcome) :
    ¬ CameOut o (c, reply) := by
  rintro ⟨⟨hash, looks⟩, -⟩
  exact noLookup hash looks

theorem not_cameOut_of_ne {o o' : Outcome} (shown : reply.outcome? = some o) (ne : o ≠ o') :
    ¬ CameOut o' (c, reply) := by
  rintro ⟨-, shown'⟩
  exact ne (Option.some.inj (shown.symm.trans shown'))

/-! ## Events -/

/-- What a command that is no update logs with its reply. -/
inductive Logs (faults : Faults) (c : Command) (reply : Reply) : List Event → Prop
  | found {hash : TxHash} (looks : c.LooksUp hash) (shown : reply.outcome? = some .found) :
      Logs faults c reply []
  | absent {hash : TxHash} (looks : c.LooksUp hash) (shown : reply.outcome? = some .notFound) :
      Logs faults c reply [.nothingFound]
  | failed {hash : TxHash} {fault : Fault} (looks : c.LooksUp hash)
      (met : faults.on hash = some fault) (shown : reply = .fault fault) :
      Logs faults c reply [.lookupFailed fault]
  | answered {hash : TxHash} {fault : Fault} (looks : c.LooksUp hash)
      (met : faults.on hash = some fault) (shown : reply.outcome? = some .error)
      (blamed : reply.IsServerError) :
      Logs faults c reply [.lookupFailed fault, .faultAnswered fault]
  | undecodable {segment : List Char} (asks : c.Undecodable segment)
      (shown : reply.status? = some 404) :
      Logs faults c reply [.undecodable (String.ofList segment)]
  | unrouted {path : List Char} (asks : c.Unrouted path) (shown : reply.status? = some 404) :
      Logs faults c reply [.unrouted (String.ofList path)]
  | nothing (aside : c.Aside) (fine : ¬ reply.IsServerError) : Logs faults c reply []

theorem find_eq_error_iff : s.find hash = .error fault ↔ s.faults.on hash = some fault := by
  rw [State.find, Store.find]
  cases s.faults.on hash with
  | none => simp
  | some met => simp

theorem logs_lookup (s : State) (hash : TxHash) :
    Logs s.faults (.lookup hash) (State.replyTo .looked (s.find hash)) (s.find hash).events := by
  match found : s.find hash with
  | .ok (some r) => exact .found (.direct hash) rfl
  | .ok none => exact .absent (.direct hash) rfl
  | .error fault => exact .failed (.direct hash) (find_eq_error_iff.mp found) rfl

section Requests

variable {method target body : String} {headers : List (String × String)} {r : Http.Request}
  {reads : Nat}

open Http

/-- A request for a transaction logs how its lookup came out, and again that it met a fault. -/
theorem logs_finding (looks : c.LooksUp hash) {response : Response}
    (status : response.status = statusOf (s.find hash)) :
    Logs s.faults c (.response response reads)
      ((s.find hash).events ++ (Exchange.ofFinding hash (s.find hash)).events) := by
  have shown := @outcome?_of_status _ reads _ status
  match found : s.find hash with
  | .ok (some r) =>
    rw [found] at shown
    exact .found looks shown
  | .ok none =>
    rw [found] at shown
    exact .absent looks shown
  | .error fault =>
    rw [found] at shown status
    refine .answered looks (find_eq_error_iff.mp found) shown ⟨_, rfl, ?_⟩
    rw [status, statusOf]
    split <;> decide

/-- A response for which the server is not to blame, to a request that is no lookup, is not worth a
line. -/
theorem Logs.fine (aside : c.Aside) {response : Response} {status : Nat}
    (shown : response.status = status) (below : status < 500) :
    Logs faults c (.response response reads) [] :=
  .nothing aside (Reply.not_isServerError_of_status? (congrArg some shown) below)

theorem logs_route (made : Request.of method target headers body = .ok r)
    (notOptions : r.method ≠ "OPTIONS") {response : Response}
    (status : response.status = (Exchange.ofRoute s.find s.counters r).response.status) :
    Logs s.faults (.request method target headers body) (.response response reads)
      (Exchange.ofRoute s.find s.counters r).events := by
  rw [Exchange.ofRoute] at status ⊢
  cases routed : Route.ofPath r.path with
  | probe =>
    rw [routed] at status
    have aside := aside_request made (by simp [routed]) (.inr (by simp [routed]))
    have shown : response.status = 200 := status
    exact .fine aside shown (by decide)
  | nowhere =>
    rw [routed] at status
    exact .unrouted ((unrouted_request_iff made).mpr ⟨notOptions, rfl, routed⟩)
      (congrArg some status)
  | counters =>
    -- nothing is looked up for the page, nor for the refusal of a method
    have aside := aside_request made (by simp [routed]) (.inr (by simp [routed]))
    rw [routed] at status
    dsimp only at status ⊢
    cases reading : r.isReading with
    | false =>
      rw [reading] at status
      have shown : response.status = 405 := status
      exact .fine aside shown (by decide)
    | true =>
      rw [reading] at status
      have shown : response.status = 200 := status
      exact .fine aside shown (by decide)
  | transaction segment =>
    rw [routed] at status
    dsimp only at status ⊢
    cases reading : r.isReading with
    | false =>
      have aside := aside_request made (.inl reading) (.inr (by simp [routed]))
      rw [reading] at status
      have shown : response.status = 405 := status
      exact .fine aside shown (by decide)
    | true =>
      -- whether anything is looked up is for the segment to decide
      rw [reading, if_pos rfl, Exchange.transaction] at status
      rw [if_pos rfl, Exchange.transaction]
      cases decoded : decodeText? segment with
      | none =>
        rw [decoded] at status
        have asks := (undecodable_request_iff made).mpr ⟨reading, routed, decoded⟩
        exact .undecodable asks (congrArg some status)
      | some text =>
        rw [decoded] at status
        have asks := (looksUp_request_iff made).mpr ⟨reading, segment, text, routed, decoded, rfl⟩
        exact logs_finding asks (status.trans (Exchange.status_ofFinding _ _))

theorem logs_answer (made : Request.of method target headers body = .ok r) (s : State) :
    let e := Exchange.answer s.find s.counters r
    Logs s.faults (.request method target headers body) (.response e.response e.reads) e.events := by
  by_cases options : r.method = "OPTIONS"
  · have notReading : r.isReading = false := by simp [Request.isReading, options]
    have aside := aside_request made (.inl notReading) (.inl options)
    have answered : (Exchange.options (Route.ofPath r.path)).response.status = 200 := rfl
    rw [Exchange.answer_of_eq options]
    exact .fine aside answered (by decide)
  · rw [Exchange.answer_of_ne options]
    exact logs_route made options (Exchange.status_sentTo _)

end Requests

/-- What is neither a lookup nor a request, or no proper one, has nothing to log. -/
theorem logs_aside (aside : c.Aside) (same : (c.run s).1.log = s.log)
    (plain : (c.run s).2.status? = none) :
    ∃ events, (c.run s).1.log = s.log ++ events ∧ Logs s.faults c (c.run s).2 events := by
  refine ⟨[], by rw [same, List.append_nil], .nothing aside ?_⟩
  rintro ⟨status, shown, -⟩
  rw [plain] at shown
  cases shown

theorem logs_run (single : c.isUpdate = false) (s : State) :
    ∃ events, (c.run s).1.log = s.log ++ events ∧ Logs s.faults c (c.run s).2 events := by
  cases c with
  | update hash edit during => cases single
  | lookup hash =>
    rw [Command.run]
    exact ⟨_, rfl, logs_lookup s hash⟩
  | request method target headers body =>
    cases made : Http.Request.of method target headers body with
    | ok r =>
      rw [run_request made]
      exact ⟨_, rfl, logs_answer made s⟩
    | error problem =>
      -- all that is said of a command here is said of the request that it makes
      have unmade (r : Http.Request) : Http.Request.of method target headers body ≠ .ok r := by
        rw [made]
        rintro ⟨⟩
      refine logs_aside ⟨?_, ?_, ?_⟩ (by rw [Command.run, made]) (by rw [Command.run, made]; rfl)
      · rintro hash ⟨⟩
        exact unmade _ ‹_›
      · rintro segment ⟨⟩
        exact unmade _ ‹_›
      · rintro path ⟨⟩
        exact unmade _ ‹_›
  | unreadable | size | held =>
    refine logs_aside (Command.aside rfl (by simp)) (by rw [Command.run]) ?_
    rw [Command.run]
    rfl
  | upsert | remove =>
    refine logs_aside (Command.aside rfl (by simp)) ?_ ?_
    · rw [Command.run]
      rfl
    · rw [Command.run]
      rfl
  | insert r =>
    refine logs_aside (Command.aside rfl (by simp)) ?_ ?_
    · rw [Command.run, State.insert]
      split <;> rfl
    · rw [Command.run, State.insert]
      split <;> rfl
  | get hash =>
    refine logs_aside (Command.aside rfl (by simp)) (by rw [Command.run]) ?_
    rw [Command.run]
    cases s.find hash <;> rfl
  | hold hash name =>
    refine logs_aside (Command.aside rfl (by simp)) ?_ ?_
    · rw [Command.run, State.hold]
      split <;> rfl
    · rw [Command.run, State.hold]
      split <;> rfl

/-! ## What the events tell -/

/-- A response that blames the server comes after the fault of its lookup has been logged. -/
theorem Logs.of_isServerError (logs : Logs faults c reply events) (blamed : reply.IsServerError) :
    ∃ hash fault, c.LooksUp hash ∧ faults.on hash = some fault ∧
      events = [.lookupFailed fault, .faultAnswered fault] := by
  cases logs with
  | found looks shown =>
    exact absurd blamed (Reply.not_isServerError_of_outcome? shown (by decide))
  | absent looks shown =>
    exact absurd blamed (Reply.not_isServerError_of_outcome? shown (by decide))
  | failed looks met shown =>
    obtain ⟨status, own, -⟩ := blamed
    subst shown
    cases own
  | answered looks met shown blamed => exact ⟨_, _, looks, met, rfl⟩
  | undecodable asks shown =>
    exact absurd blamed (Reply.not_isServerError_of_status? shown (by decide))
  | unrouted asks shown =>
    exact absurd blamed (Reply.not_isServerError_of_status? shown (by decide))
  | nothing aside fine => exact absurd blamed fine

/-- Refusals for which the server is not to blame and lookups that find something are not worth a
warning. -/
theorem Logs.calm (logs : Logs faults c reply events)
    (fine : reply.status? = some 404 ∨ reply.status? = some 405 ∨ CameOut .found (c, reply)) :
    ∀ event ∈ events, event.level ≠ .warn ∧ event.level ≠ .error := by
  cases logs with
  | found | nothing => exact List.forall_mem_nil _
  | absent | undecodable | unrouted => simp [Event.level]
  | failed looks met shown =>
    subst shown
    obtain own | own | ⟨-, own⟩ := fine <;> cases own
  | answered looks met shown blamed =>
    obtain refused | refused | found := fine
    · exact absurd blamed (Reply.not_isServerError_of_status? refused (by decide))
    · exact absurd blamed (Reply.not_isServerError_of_status? refused (by decide))
    · exact absurd found (not_cameOut_of_ne shown (by decide))

end TransactionLookup.Session
