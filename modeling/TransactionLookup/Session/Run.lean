import TransactionLookup.Session.Command
import TransactionLookup.Session.State

/-!
# Running commands

Commands change what clients share one after the other.

An update takes a snapshot of the version under its hash and works on a copy. What its schedule says
for the round is done before the copy is committed. If the version is no longer there the update has
failed; if another version is there, the next round starts from that; else the copy is published. When
the schedule has run out nothing can come between, so the number of rounds is at most one more than
its length.
-/

namespace TransactionLookup.Session

/-- What the rounds of an update come to. -/
structure Rounds where
  published : Bool
  seen : List Record
  during : List (List Reply)

/-- The rounds with one more before them, in which something was done or not. -/
def Rounds.after (rounds : Rounds) (seen : Record) (during : List (List Reply)) : Rounds :=
  ⟨rounds.published, seen :: rounds.seen, during ++ rounds.during⟩

/-- The last round of an update. -/
def Rounds.last (published : Bool) (seen : Record) (during : List (List Reply)) : Rounds :=
  ⟨published, [seen], during⟩

def Rounds.reply (rounds : Rounds) : Reply :=
  .updated rounds.published rounds.seen rounds.during

mutual

def Command.run (s : State) : Command → State × Reply
  | .unreadable report => (s, .unreadable report)
  | .insert r => s.insert r
  | .upsert r => s.upsert r
  | .remove hash => s.remove hash
  | .get hash => (s, State.replyTo .read (s.find hash))
  | .lookup hash => s.lookup hash
  | .size => (s, .size s.store.size)
  | .hold hash name => s.hold hash name
  | .held name => (s, .version ((s.kept.lookup name).map Version.record))
  | .update hash edit during =>
    match s.store.get? hash with
    | none => (s, .updated false [] [])
    | some base =>
      let (s, rounds) := runRounds hash edit s base during
      (s, rounds.reply)
  | .request method target headers body =>
    match Http.Request.of method target headers body with
    | .ok r => s.answer r
    | .error problem => (s, .badRequest problem)

def runAll (s : State) : List Command → State × List Reply
  | [] => (s, [])
  | c :: cs =>
    let (s, reply) := c.run s
    let (s, replies) := runAll s cs
    (s, reply :: replies)

/-- Runs the rounds of an update, the first of which starts from the version `base`. -/
def runRounds (hash : TxHash) (edit : Record → Record) (s : State) (base : Version) :
    List (List Command) → State × Rounds
  | [] =>
    match s.store.commit hash base (edit base.record) with
    | .published store => (s.withStore store, .last true base.record [])
    -- nothing has come between since `base` was read, so neither of these comes about
    | .gone | .superseded _ => (s, .last false base.record [])
  | cs :: during =>
    let (s, replies) := runAll s cs
    match s.store.commit hash base (edit base.record) with
    | .published store => (s.withStore store, .last true base.record [replies])
    | .gone => (s, .last false base.record [replies])
    | .superseded latest =>
      let (s, rounds) := runRounds hash edit (s.logged [.updateRetried hash]) latest during
      (s, rounds.after base.record [replies])

end

end TransactionLookup.Session
