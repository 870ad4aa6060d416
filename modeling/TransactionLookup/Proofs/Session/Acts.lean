import TransactionLookup.Proofs.Session.Writes

/-!
# The acts of a session

A session taken apart into what is done at once: the commands that are no updates, at whatever depth of
a schedule they stand, and the ends of the rounds of updates. The acts, done one after the other, leave
the state that the session leaves, and the commands among them get the replies that stand in its
replies. What has been done at some moment of a session is a first part of its acts.
-/

namespace TransactionLookup.Session

def Command.isUpdate : Command → Bool
  | .update _ _ _ => true
  | _ => false

theorem run_request {method target body : String} {headers : List (String × String)}
    {r : Http.Request} (made : Http.Request.of method target headers body = .ok r) (s : State) :
    (Command.request method target headers body).run s = s.answer r := by
  rw [Command.run, made]

/-- A command that is no update changes what is stored and what is kept, unless it is a lookup or a
request that is answered. -/
theorem run_cases {c : Command} (single : c.isUpdate = false) (s : State) :
    (∃ store kept, (c.run s).1 = { s with store, kept }) ∨ (∃ hash, c = .lookup hash) ∨
      ∃ method target headers body r, c = .request method target headers body ∧
        Http.Request.of method target headers body = .ok r := by
  cases c with
  | update hash edit during => cases single
  | lookup hash => exact .inr (.inl ⟨hash, rfl⟩)
  | unreadable | get | size | held => exact .inl ⟨s.store, s.kept, by rw [Command.run]⟩
  | upsert | remove =>
    rw [Command.run]
    exact .inl ⟨_, s.kept, rfl⟩
  | insert r =>
    rw [Command.run, State.insert]
    cases s.store.insert r with
    | ok store => exact .inl ⟨store, s.kept, rfl⟩
    | error fault => exact .inl ⟨s.store, s.kept, rfl⟩
  | hold hash name =>
    rw [Command.run, State.hold]
    cases s.store.get? hash with
    | some version => exact .inl ⟨s.store, (name, version) :: s.kept, rfl⟩
    | none => exact .inl ⟨s.store, s.kept, rfl⟩
  | request method target headers body =>
    cases made : Http.Request.of method target headers body with
    | ok r => exact .inr (.inr ⟨method, target, headers, body, r, rfl, made⟩)
    | error problem => exact .inl ⟨s.store, s.kept, by rw [Command.run, made]⟩

/-- What is done at once. -/
inductive Act
  | command (c : Command) (single : c.isUpdate = false)
  /-- The end of a round of an update that started from the version `base`. -/
  | commit (hash : TxHash) (base : Version) (next : Record)

namespace State

/-- The state after an act. -/
def perform (s : State) : Act → State
  | .command c _ => (c.run s).1
  | .commit hash base next =>
    match s.store.commit hash base next with
    | .published store => s.withStore store
    | .gone => s
    | .superseded _ => s.logged [.updateRetried hash]

def performAll (s : State) (acts : List Act) : State := acts.foldl perform s

/-- The commands among some acts with the replies that they get. -/
def transcript (s : State) : List Act → List (Command × Reply)
  | [] => []
  | .command c single :: acts => (c, (c.run s).2) :: (s.perform (.command c single)).transcript acts
  | .commit hash base next :: acts => (s.perform (.commit hash base next)).transcript acts

@[simp] theorem performAll_nil (s : State) : s.performAll [] = s := rfl

@[simp] theorem performAll_cons (s : State) (a : Act) (acts : List Act) :
    s.performAll (a :: acts) = (s.perform a).performAll acts := rfl

theorem performAll_append (s : State) (before after : List Act) :
    s.performAll (before ++ after) = (s.performAll before).performAll after :=
  List.foldl_append

theorem transcript_append (s : State) (before after : List Act) :
    s.transcript (before ++ after) =
      s.transcript before ++ (s.performAll before).transcript after := by
  induction before generalizing s with
  | nil => rfl
  | cons a before ih =>
    cases a with
    | command c single => exact congrArg ((c, (c.run s).2) :: ·) (ih _)
    | commit hash base next => exact ih _

end State

/-! ## Sessions taken apart -/

mutual

/-- The acts of a command. -/
def Command.acts (s : State) : Command → List Act
  | .update hash edit during =>
    match s.store.get? hash with
    | none => []
    | some base => roundActs hash edit s base during
  | .unreadable report => [.command (.unreadable report) rfl]
  | .insert r => [.command (.insert r) rfl]
  | .upsert r => [.command (.upsert r) rfl]
  | .remove hash => [.command (.remove hash) rfl]
  | .get hash => [.command (.get hash) rfl]
  | .lookup hash => [.command (.lookup hash) rfl]
  | .size => [.command .size rfl]
  | .hold hash name => [.command (.hold hash name) rfl]
  | .held name => [.command (.held name) rfl]
  | .request method target headers body => [.command (.request method target headers body) rfl]

def actsAll (s : State) : List Command → List Act
  | [] => []
  | c :: cs => c.acts s ++ actsAll (c.run s).1 cs

/-- The acts of the rounds of an update: the schedule of a round comes before its end. -/
def roundActs (hash : TxHash) (edit : Record → Record) (s : State) (base : Version) :
    List (List Command) → List Act
  | [] => [.commit hash base (edit base.record)]
  | cs :: during =>
    let left := (runAll s cs).1
    actsAll s cs ++ .commit hash base (edit base.record) ::
      match left.store.commit hash base (edit base.record) with
      | .superseded latest => roundActs hash edit (left.logged [.updateRetried hash]) latest during
      | .published _ | .gone => []

end

mutual

/-- The replies to what was done at once, in the order in which it was done. -/
def Reply.leaves : Reply → List Reply
  | .updated _ _ during => leavesOfRounds during
  | reply => [reply]

def leavesAll : List Reply → List Reply
  | [] => []
  | reply :: replies => reply.leaves ++ leavesAll replies

def leavesOfRounds : List (List Reply) → List Reply
  | [] => []
  | replies :: during => leavesAll replies ++ leavesOfRounds during

end

/-- Whether some acts come to a state and to replies. -/
structure Comes (s : State) (acts : List Act) (final : State) (replies : List Reply) : Prop where
  state : s.performAll acts = final
  replies : (s.transcript acts).map Prod.snd = replies

theorem Comes.append {s mid final : State} {before after : List Act} {first later : List Reply}
    (start : Comes s before mid first) (more : Comes mid after final later) :
    Comes s (before ++ after) final (first ++ later) where
  state := by rw [State.performAll_append, start.state, more.state]
  replies := by
    rw [State.transcript_append, List.map_append, start.replies, start.state, more.replies]

def Reply.isUpdated : Reply → Bool
  | .updated _ _ _ => true
  | _ => false

/-- Only an update replies as one. -/
theorem isUpdated_run {c : Command} (single : c.isUpdate = false) (s : State) :
    (c.run s).2.isUpdated = false := by
  cases c with
  | update hash edit during => cases single
  | unreadable | upsert | remove | size | held =>
    rw [Command.run]
    rfl
  | insert r =>
    rw [Command.run, State.insert]
    split <;> rfl
  | get hash =>
    rw [Command.run]
    cases s.find hash <;> rfl
  | lookup hash =>
    rw [Command.run, State.lookup]
    cases s.find hash <;> rfl
  | hold hash name =>
    rw [Command.run, State.hold]
    split <;> rfl
  | request method target headers body =>
    rw [Command.run]
    split <;> rfl

theorem leaves_run {c : Command} (single : c.isUpdate = false) (s : State) :
    (c.run s).2.leaves = [(c.run s).2] := by
  have plain := isUpdated_run single s
  generalize (c.run s).2 = reply at plain ⊢
  cases reply with
  | updated => cases plain
  | _ => rfl

theorem comes_single (s : State) {c : Command} (single : c.isUpdate = false) :
    Comes s [.command c single] (c.run s).1 (c.run s).2.leaves :=
  ⟨rfl, (leaves_run single s).symm⟩

theorem get?_of_superseded {store : Store} {hash : TxHash} {base latest : Version} {next : Record}
    (late : store.commit hash base next = .superseded latest) : store.get? hash = some latest := by
  unfold Store.commit at late
  split at late
  · cases late
  next found =>
    split at late
    · cases late
    · cases late
      exact found

theorem perform_of_superseded {s : State} {hash : TxHash} {base latest : Version} {next : Record}
    (late : s.store.commit hash base next = .superseded latest) :
    s.perform (.commit hash base next) = s.logged [.updateRetried hash] := by
  simp only [State.perform, late]

mutual

theorem Command.comes (s : State) (c : Command) :
    Comes s (c.acts s) (c.run s).1 (c.run s).2.leaves := by
  match c with
  | .update hash edit during =>
    rw [Command.acts, Command.run]
    cases there : s.store.get? hash with
    | none => exact ⟨rfl, rfl⟩
    | some base => exact comes_rounds there edit during
  | .unreadable _ | .insert _ | .upsert _ | .remove _ | .get _ | .lookup _ | .size | .hold _ _
  | .held _ | .request _ _ _ _ =>
    rw [Command.acts]
    exact comes_single s rfl

theorem comes_all (s : State) (cs : List Command) :
    Comes s (actsAll s cs) (runAll s cs).1 (leavesAll (runAll s cs).2) := by
  match cs with
  | [] =>
    rw [actsAll, runAll]
    exact ⟨rfl, rfl⟩
  | c :: cs =>
    rw [actsAll, runAll]
    exact (Command.comes s c).append (comes_all (c.run s).1 cs)

theorem comes_rounds {s : State} {hash : TxHash} {base : Version}
    (there : s.store.get? hash = some base) (edit : Record → Record)
    (during : List (List Command)) :
    Comes s (roundActs hash edit s base during) (runRounds hash edit s base during).1
      (leavesOfRounds (runRounds hash edit s base during).2.during) := by
  match during with
  | [] =>
    -- nothing has come between, so the version is there still
    have kept : s.store.commit hash base (edit base.record) =
        .published (s.store.publish hash { edit base.record with hash }) :=
      Store.commit_of_get? there _
    rw [roundActs, runRounds, kept]
    refine ⟨?_, rfl⟩
    simp only [State.performAll_cons, State.perform, kept, State.performAll_nil]
  | cs :: during =>
    have schedule := comes_all s cs
    rw [roundActs, runRounds_cons]
    dsimp only
    cases ended : (runAll s cs).1.store.commit hash base (edit base.record) with
    | published store =>
      refine schedule.append ⟨?_, rfl⟩
      simp only [State.performAll_cons, State.perform, ended, State.performAll_nil]
    | gone =>
      refine schedule.append ⟨?_, rfl⟩
      simp only [State.performAll_cons, State.perform, ended, State.performAll_nil]
    | superseded latest =>
      have found : ((runAll s cs).1.logged [.updateRetried hash]).store.get? hash = some latest :=
        get?_of_superseded ended
      have later := comes_rounds found edit during
      -- the end of the round leaves the state that the next one starts from
      have retried := perform_of_superseded ended
      refine schedule.append ⟨?_, ?_⟩
      · rw [State.performAll_cons, retried]
        exact later.state
      · rw [State.transcript, retried]
        exact later.replies

end

end TransactionLookup.Session
