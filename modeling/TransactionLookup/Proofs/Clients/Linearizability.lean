import TransactionLookup.Proofs.Clients.System

/-!
# Linearizability

Clients that share a store cannot tell it from one that serves them one at a time. Each call takes
effect with its last access: what an update commits was made from the version that is replaced, since
a serial number that is still there stands for a version that has never been away. So the calls in the
order of their ends, each as a single step, give their answers and lead to what the store shows.

Nothing else leaves a trace: what the store shows is what the calls that are over have done, each once.
-/

namespace TransactionLookup.Clients

/-! ## What an access does -/

/-- What an access does for an operation: it writes or does not; if the operation is over with it, it
was that operation as a single step; and if not, nothing has changed and a snapshot is taken. -/
structure Access (s : Store) (operation : Operation) (access : Store × Progress) : Prop where
  written : ∃ writes, access.1 = s.writeAll writes
  ended : ∀ {answer}, access.2 = .ended answer →
    operation.atOnce s.ledger = (access.1.ledger, answer)
  working : ∀ {work}, access.2 = .working work →
    access.1 = s ∧ work.operation = operation ∧ s.get? work.hash = some work.base

theorem Access.wrote {s store : Store} {operation : Operation} {answer : Answer} {w : Write}
    (written : s.write w = store)
    (single : operation.atOnce s.ledger = (store.ledger, answer)) :
    Access s operation (store, .ended answer) where
  written := ⟨[w], written.symm⟩
  ended := by
    rintro _ ⟨⟩
    exact single
  working := nofun

theorem Access.read {s : Store} {operation : Operation} {answer : Answer}
    (single : operation.atOnce s.ledger = (s.ledger, answer)) :
    Access s operation (s, .ended answer) where
  written := ⟨[], rfl⟩
  ended := by
    rintro _ ⟨⟩
    exact single
  working := nofun

theorem Access.started {s : Store} (work : Work) (found : s.get? work.hash = some work.base) :
    Access s work.operation (s, .working work) where
  written := ⟨[], rfl⟩
  ended := nofun
  working := by
    rintro _ ⟨⟩
    exact ⟨rfl, rfl, found⟩

theorem begin_access {s : Store} (sound : s.Sound) (operation : Operation) :
    Access s operation (operation.begin s) := by
  cases operation with
  | insert r =>
    cases found : s.get? r.hash with
    | none =>
      have written : s.write (.insert r) = s.publish r.hash r := by
        simp only [Store.write, Store.insert, found]
      simp only [Operation.begin, Store.insert, found]
      apply Access.wrote written
      simp only [Operation.atOnce, Store.lookup_ledger_of_none found, Store.ledger_publish]
    | some version =>
      simp only [Operation.begin, Store.insert, found]
      apply Access.read
      simp only [Operation.atOnce, Store.lookup_ledger_of_some found]
  | upsert r =>
    have written : s.write (.upsert r) = s.publish r.hash r := rfl
    apply Access.wrote written
    simp only [Operation.atOnce, Store.upsert, Store.ledger_publish, Store.lookup_ledger]
  | update hash edit =>
    cases found : s.get? hash with
    | none =>
      simp only [Operation.begin, found]
      apply Access.read
      simp only [Operation.atOnce, Store.lookup_ledger_of_none found]
    | some base =>
      simp only [Operation.begin, found]
      exact .started ⟨hash, edit, base⟩ found
  | remove hash =>
    have written : s.write (.remove hash) = s.erase hash := rfl
    apply Access.wrote written
    simp only [Operation.atOnce, Store.remove, Store.ledger_erase, Store.lookup_ledger]
  | get hash =>
    apply Access.read
    simp only [Operation.atOnce, Store.lookup_ledger]
  | size =>
    apply Access.read
    simp only [Operation.atOnce, Store.card_keys_ledger sound.single]

/-- An attempt to commit is an update as a single step if it is over with it, because the version that
is there then is the one that the copy was made from. -/
theorem attempt_access {s : Store} {work : Work} (taken : s.Snapshot work.hash work.base) :
    Access s work.operation (work.attempt s) := by
  have outcome := taken.commit_cases (work.edit work.base.record)
  rcases outcome with ⟨found, committed⟩ | ⟨found, committed⟩ | ⟨latest, -, found, committed⟩
  · -- what is stored is what the copy was made from, so its edit is the edit of what is stored
    have written : s.write (.commit work.hash work.base (work.edit work.base.record)) =
        s.publish work.hash { work.edit work.base.record with hash := work.hash } := by
      simp only [Store.write, committed]
    simp only [Work.attempt, committed]
    apply Access.wrote written
    simp only [Work.operation, Operation.atOnce, Store.lookup_ledger_of_some found,
      Store.ledger_publish]
  · simp only [Work.attempt, committed]
    apply Access.read
    simp only [Work.operation, Operation.atOnce, Store.lookup_ledger_of_none found]
  · simp only [Work.attempt, committed]
    exact .started { work with base := latest } found

/-! ## What every system keeps -/

variable {ι : Type} [DecidableEq ι]

namespace System

/-- The operations of a client that are over, the one that it is at, and those that it has not begun. -/
def course (s : System ι) (i : ι) : List Operation :=
  (s.calls.filter fun call => call.client = i).map Call.operation ++
    ((s.clients i).current.map fun current => current.1.operation).toList ++ (s.clients i).rest

/-- What holds of a system at all times. -/
structure Consistent (start : Ledger) (programs : ι → List Operation) (s : System ι) : Prop where
  sound : s.store.Sound
  /-- Copies are made from versions that were published. -/
  taken : ∀ {i work begun}, (s.clients i).current = some (work, begun) →
    s.store.Snapshot work.hash work.base ∧ begun < s.clock
  /-- What the store shows is what the calls do one at a time. -/
  sequential : oneByOne start (s.calls.map Call.operation) =
    (s.store.ledger, s.calls.map Call.answer)
  timed : ∀ call ∈ s.calls, call.begun ≤ call.ended ∧ call.ended < s.clock
  ordered : s.calls.Pairwise fun first second => first.ended < second.ended
  followed : ∀ i, s.course i = programs i

variable {start : Ledger} {programs : ι → List Operation}

theorem consistent_launch {store : Store} (sound : store.Sound) (programs : ι → List Operation) :
    Consistent store.ledger programs (launch store programs) where
  sound := sound
  taken current := by cases current
  sequential := rfl
  timed call member := by cases member
  ordered := .nil
  followed _ := rfl

theorem course_advance_of_ne {s : System ι} {i j : ι} (other : j ≠ i) (operation : Operation)
    (begun : Nat) (rest : List Operation) (access : Store × Progress) :
    (s.advance i operation begun rest access).course j = s.course j := by
  have apart : i ≠ j := Ne.symm other
  unfold advance course
  split <;> simp [Function.update_of_ne other, apart]

theorem course_advance {s : System ι} {i : ι} {operation : Operation} {begun : Nat}
    {rest : List Operation} {access : Store × Progress} (acts : Access s.store operation access) :
    (s.advance i operation begun rest access).course i =
      (s.calls.filter fun call => call.client = i).map Call.operation ++ operation :: rest := by
  obtain ⟨store, progress⟩ := access
  cases progress with
  | ended answer => simp [System.advance, course]
  | working work =>
    obtain ⟨-, same, -⟩ := acts.working rfl
    simp [System.advance, course, same]

namespace Consistent

variable {s : System ι} {i : ι} {operation : Operation} {begun : Nat} {rest : List Operation}

/-- What other clients have copied stays copied, whatever is written. -/
theorem taken_after (consistent : Consistent start programs s) {store : Store} {writes : List Write}
    (written : store = s.store.writeAll writes) {work : Work}
    (current : (s.clients i).current = some (work, begun)) :
    store.Snapshot work.hash work.base ∧ begun < s.clock + 1 := by
  obtain ⟨snapshot, earlier⟩ := consistent.taken current
  exact ⟨written ▸ snapshot.writeAll writes, Nat.lt_succ_of_lt earlier⟩

theorem followed_after (consistent : Consistent start programs s) {access : Store × Progress}
    (acts : Access s.store operation access)
    (next : programs i =
      (s.calls.filter fun call => call.client = i).map Call.operation ++ operation :: rest) (j : ι) :
    (s.advance i operation begun rest access).course j = programs j := by
  by_cases own : j = i
  · subst own
    rw [course_advance acts, next]
  · rw [course_advance_of_ne own]
    exact consistent.followed j

/-- A call that ends comes after all that have ended, and does then what it does as a single step. -/
theorem ended (consistent : Consistent start programs s) {store : Store} {answer : Answer}
    (acts : Access s.store operation (store, .ended answer)) (time : begun ≤ s.clock)
    (followed : ∀ j, (s.advance i operation begun rest (store, .ended answer)).course j =
      programs j) :
    Consistent start programs (s.advance i operation begun rest (store, .ended answer)) := by
  obtain ⟨writes, written⟩ : ∃ writes, store = s.store.writeAll writes := acts.written
  refine ⟨written ▸ consistent.sound.writeAll writes, ?_, ?_, ?_, ?_, followed⟩
  · intro j work began current
    by_cases own : j = i
    · -- the client itself is at work no more
      subst own
      simp [System.advance] at current
    · simp only [System.advance, Function.update_of_ne own] at current
      exact consistent.taken_after written current
  · simp only [System.advance, List.map_append, List.map_cons, List.map_nil]
    exact oneByOne_append_one consistent.sequential (acts.ended rfl)
  · intro call member
    rcases List.mem_append.mp member with earlier | last
    · have := consistent.timed call earlier
      exact ⟨this.1, Nat.lt_succ_of_lt this.2⟩
    · rw [List.mem_singleton] at last
      subst last
      exact ⟨time, Nat.lt_succ_self _⟩
  · apply List.pairwise_append.mpr
    refine ⟨consistent.ordered, List.pairwise_singleton _ _, ?_⟩
    intro call earlier last member
    rw [List.mem_singleton] at member
    subst member
    exact (consistent.timed call earlier).2

/-- An update that goes on has changed nothing, and has copied what is stored. -/
theorem working (consistent : Consistent start programs s) {store : Store} {work : Work}
    (acts : Access s.store operation (store, .working work)) (time : begun ≤ s.clock)
    (followed : ∀ j, (s.advance i operation begun rest (store, .working work)).course j =
      programs j) :
    Consistent start programs (s.advance i operation begun rest (store, .working work)) := by
  obtain ⟨rfl, -, found⟩ := acts.working rfl
  refine ⟨consistent.sound, ?_, consistent.sequential, ?_, consistent.ordered, followed⟩
  · intro j work' began current
    by_cases own : j = i
    · subst own
      simp only [System.advance, Function.update_self, Option.some.injEq, Prod.mk.injEq] at current
      obtain ⟨rfl, rfl⟩ := current
      exact ⟨consistent.sound.snapshot found, Nat.lt_succ_of_le time⟩
    · simp only [System.advance, Function.update_of_ne own] at current
      obtain ⟨snapshot, earlier⟩ := consistent.taken current
      exact ⟨snapshot, Nat.lt_succ_of_lt earlier⟩
  · intro call member
    have := consistent.timed call member
    exact ⟨this.1, Nat.lt_succ_of_lt this.2⟩

/-- An access keeps a system consistent. -/
theorem advance (consistent : Consistent start programs s) {access : Store × Progress}
    (acts : Access s.store operation access) (time : begun ≤ s.clock)
    (next : programs i =
      (s.calls.filter fun call => call.client = i).map Call.operation ++ operation :: rest) :
    Consistent start programs (s.advance i operation begun rest access) := by
  have followed : ∀ j, (s.advance i operation begun rest access).course j = programs j :=
    consistent.followed_after acts next
  obtain ⟨store, progress⟩ := access
  cases progress with
  | ended answer => exact consistent.ended acts time followed
  | working work => exact consistent.working acts time followed

end Consistent

theorem Consistent.step {s : System ι} (consistent : Consistent start programs s) (i : ι) :
    Consistent start programs (s.step i) := by
  have followed := consistent.followed i
  unfold System.step
  split
  next rest work begun client =>
    have current : (s.clients i).current = some (work, begun) := by rw [client]
    obtain ⟨snapshot, earlier⟩ := consistent.taken current
    apply consistent.advance (attempt_access snapshot) (Nat.le_of_lt earlier)
    simp [← followed, course, client]
  next operation rest client =>
    apply consistent.advance (begin_access consistent.sound operation) (Nat.le_refl _)
    simp [← followed, course, client]
  next => exact consistent

theorem Consistent.run {s : System ι} (consistent : Consistent start programs s)
    (schedule : List ι) : Consistent start programs (s.run schedule) := by
  induction schedule generalizing s with
  | nil => exact consistent
  | cons i schedule ih => exact ih (consistent.step i)

theorem Consistent.store_step {s : System ι} (consistent : Consistent start programs s) (i : ι) :
    ∃ writes, (s.step i).store = s.store.writeAll writes := by
  have advanced : ∀ {operation begun rest access}, Access s.store operation access →
      ∃ writes, (s.advance i operation begun rest access).store = s.store.writeAll writes := by
    intro operation begun rest access acts
    obtain ⟨writes, written⟩ := acts.written
    refine ⟨writes, ?_⟩
    unfold System.advance
    split <;> exact written
  unfold System.step
  split
  next rest work begun client =>
    have current : (s.clients i).current = some (work, begun) := by rw [client]
    exact advanced (attempt_access (consistent.taken current).1)
  next operation rest _ => exact advanced (begin_access consistent.sound operation)
  next => exact ⟨[], rfl⟩

/-- Whatever clients do to a store, they do it by writes. -/
theorem Consistent.store_run {s : System ι} (consistent : Consistent start programs s)
    (schedule : List ι) : ∃ writes, (s.run schedule).store = s.store.writeAll writes := by
  induction schedule generalizing s with
  | nil => exact ⟨[], rfl⟩
  | cons i schedule ih =>
    obtain ⟨first, stepped⟩ := consistent.store_step i
    obtain ⟨later, ran⟩ := ih (consistent.step i)
    refine ⟨first ++ later, ?_⟩
    rw [Store.writeAll_append, ← stepped]
    exact ran

end System

/-! ## The main statement -/

/-- Whatever the clients do and in whatever order they come, the calls that are over can be put into an
order that respects time, in which each as a single step gives its answer, and that leads to what the
store shows. What is over, at hand and still to come of a client's operations is its program. -/
theorem linearizable {store : Store} (reached : store.Reached) (programs : ι → List Operation)
    (schedule : List ι) :
    let final := (System.launch store programs).run schedule
    (∃ order, Linearizes store.ledger final.calls final.store.ledger order) ∧
      ∀ i, final.course i = programs i := by
  intro final
  have consistent : System.Consistent store.ledger programs final :=
    (System.consistent_launch reached.sound programs).run schedule
  -- the order of the ends: each call takes effect with its last access
  refine ⟨⟨final.calls, .refl _, ?_, consistent.sequential⟩, consistent.followed⟩
  apply consistent.ordered.imp_of_mem
  intro first second earlier _ before
  have := consistent.timed first earlier
  omega

/-- Two updates race, of which one is overtaken and starts over; a third never comes to its end. -/
theorem linearizable_racing_updates :
    let hash : TxHash := ⟨"a"⟩
    let add (n : UInt64) (r : Record) : Record := { r with amount := r.amount + n }
    let store := Store.empty.writeAll [.upsert (Record.new hash)]
    let programs : Nat → List Operation := fun
      | 0 => [.update hash (add 1), .size]
      | 1 => [.update hash (add 10)]
      | 2 => [.update hash (add 100), .remove hash]
      | _ => []
    let final := (System.launch store programs).run [0, 2, 1, 1, 0, 0]
    store.Reached ∧
      (∃ order, Linearizes store.ledger final.calls final.store.ledger order) ∧
      final.calls.map (fun call => (call.client, call.begun, call.ended)) = [(1, 2, 3), (0, 0, 5)] ∧
      (final.store.record? hash).map Record.amount = some 11 := by
  have reached : (Store.empty.writeAll [.upsert (Record.new ⟨"a"⟩)]).Reached :=
    ⟨_, _, .new, rfl⟩
  exact ⟨reached, (linearizable reached _ _).1, by decide, by decide⟩

end TransactionLookup.Clients
