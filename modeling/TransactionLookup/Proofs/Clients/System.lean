import TransactionLookup.Proofs.Store.Ledger

/-!
# Clients of one store

Any number of clients run programs against one store. Each access to the store is one step, and the
steps of the clients come in any order. All operations but updates are over with their first access.
An update reads a version, works on a copy of it without the store, and then tries to commit; with
each attempt that finds another version it starts over from that.

A system keeps time by counting steps, and keeps the calls that are over with the times of their first
and their last access.
-/

namespace TransactionLookup.Clients

/-- What a client asks of the store. -/
inductive Operation
  | insert (r : Record)
  | upsert (r : Record)
  | update (hash : TxHash) (edit : Record → Record)
  | remove (hash : TxHash)
  | get (hash : TxHash)
  | size

/-- What an operation gives back. -/
inductive Answer
  | inserted
  | refused (fault : Fault)
  | replaced (old : Option Record)
  | updated (published : Bool)
  | removed (old : Option Record)
  | found (r : Option Record)
  | size (count : Nat)

/-! ## One access -/

/-- An update between two accesses, at work on a copy of the version `base`. -/
structure Work where
  hash : TxHash
  edit : Record → Record
  base : Version

def Work.operation (work : Work) : Operation := .update work.hash work.edit

/-- How far an operation has come with an access. -/
inductive Progress
  | ended (answer : Answer)
  | working (work : Work)

/-- The first access of an operation. -/
def Operation.begin (s : Store) : Operation → Store × Progress
  | .insert r =>
    match s.insert r with
    | .ok store => (store, .ended .inserted)
    | .error fault => (s, .ended (.refused fault))
  | .upsert r => ((s.upsert r).1, .ended (.replaced (s.upsert r).2))
  | .update hash edit =>
    match s.get? hash with
    | none => (s, .ended (.updated false))
    | some base => (s, .working ⟨hash, edit, base⟩)
  | .remove hash => ((s.remove hash).1, .ended (.removed (s.remove hash).2))
  | .get hash => (s, .ended (.found (s.record? hash)))
  | .size => (s, .ended (.size s.size))

/-- The access with which an update tries to commit its copy. -/
def Work.attempt (s : Store) (work : Work) : Store × Progress :=
  match s.commit work.hash work.base (work.edit work.base.record) with
  | .published store => (store, .ended (.updated true))
  | .gone => (s, .ended (.updated false))
  | .superseded latest => (s, .working { work with base := latest })

/-! ## All clients -/

variable {ι : Type} [DecidableEq ι]

/-- A client: the operations that it has not begun, and the update that it has not finished, with the
time when that began. -/
structure Client where
  rest : List Operation
  current : Option (Work × Nat) := none

/-- An operation that is over. -/
structure Call (ι : Type) where
  client : ι
  operation : Operation
  begun : Nat
  ended : Nat
  answer : Answer

/-- A store with its clients, the number of steps so far, and the calls in the order of their ends. -/
structure System (ι : Type) where
  store : Store
  clients : ι → Client
  clock : Nat := 0
  calls : List (Call ι) := []

namespace System

/-- The system in which no client has done anything. -/
def launch (store : Store) (programs : ι → List Operation) : System ι :=
  { store, clients := fun i => { rest := programs i } }

/-- The system after an access of a client for an operation that began at a given time. -/
def advance (s : System ι) (i : ι) (operation : Operation) (begun : Nat) (rest : List Operation)
    (access : Store × Progress) : System ι :=
  match access.2 with
  | .ended answer =>
    { store := access.1
      clients := Function.update s.clients i { rest }
      clock := s.clock + 1
      calls := s.calls ++ [⟨i, operation, begun, s.clock, answer⟩] }
  | .working work =>
    { s with
      store := access.1
      clients := Function.update s.clients i { rest, current := some (work, begun) }
      clock := s.clock + 1 }

/-- The system after the next access of a client, if it has anything left to do. -/
def step (s : System ι) (i : ι) : System ι :=
  match s.clients i with
  | ⟨rest, some (work, begun)⟩ =>
    s.advance i work.operation begun rest (work.attempt s.store)
  | ⟨operation :: rest, none⟩ =>
    s.advance i operation s.clock rest (operation.begin s.store)
  | ⟨[], none⟩ => s

/-- The system after accesses of clients in a given order. -/
def run (s : System ι) (schedule : List ι) : System ι := schedule.foldl step s

end System

/-! ## One operation at a time -/

/-- An operation as a single step on the contents of a store. -/
def Operation.atOnce (l : Ledger) : Operation → Ledger × Answer
  | .insert r =>
    match l.lookup r.hash with
    | none => (l.insert r.hash r, .inserted)
    | some _ => (l, .refused (.duplicate r.hash))
  | .upsert r => (l.insert r.hash r, .replaced (l.lookup r.hash))
  | .update hash edit =>
    match l.lookup hash with
    | none => (l, .updated false)
    | some r => (l.insert hash { edit r with hash }, .updated true)
  | .remove hash => (l.erase hash, .removed (l.lookup hash))
  | .get hash => (l, .found (l.lookup hash))
  | .size => (l, .size l.keys.card)

/-- Operations one after the other, each as a single step. -/
def oneByOne (l : Ledger) : List Operation → Ledger × List Answer
  | [] => (l, [])
  | operation :: operations =>
    let (l, answer) := operation.atOnce l
    let (l, answers) := oneByOne l operations
    (l, answer :: answers)

theorem oneByOne_append_one {l middle final : Ledger} {operations : List Operation}
    {operation : Operation} {answers : List Answer} {answer : Answer}
    (before : oneByOne l operations = (middle, answers))
    (last : operation.atOnce middle = (final, answer)) :
    oneByOne l (operations ++ [operation]) = (final, answers ++ [answer]) := by
  induction operations generalizing l answers with
  | nil =>
    cases before
    simp only [List.nil_append, oneByOne, last]
  | cons first operations ih =>
    simp only [oneByOne, Prod.mk.injEq] at before
    obtain ⟨rfl, rfl⟩ := before
    simp only [List.cons_append, oneByOne, ih rfl]

/-- Whether calls can be put into an order in which they give their answers, and lead from one ledger
to another, when each is a single step; and in which a call that was over before another began
comes first. -/
structure Linearizes (start : Ledger) (calls : List (Call ι)) (final : Ledger)
    (order : List (Call ι)) : Prop where
  all : order.Perm calls
  realTime : order.Pairwise fun first second => ¬ second.ended < first.begun
  sequential : oneByOne start (order.map Call.operation) = (final, order.map Call.answer)

end TransactionLookup.Clients
