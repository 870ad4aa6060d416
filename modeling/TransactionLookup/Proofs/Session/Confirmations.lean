import TransactionLookup.Proofs.Session.Serial
import TransactionLookup.Proofs.Transaction.Confirmation

/-!
# Racing confirmations

Updates of one record that each confirm an outbound transaction may overtake each other in any way, in
the schedules of a session or as clients at once. As long as nothing else publishes the record or takes
it away, all of them are published, and the record has each confirmation once, however often its edit
has been called (`confirmations_recorded`).
-/

namespace TransactionLookup

namespace Clients

/-- What an operation makes of the record under a hash, if it is an update of that. -/
def Operation.edit? (hash : TxHash) : Operation → Option (Record → Record)
  | .update key edit => if key = hash then some edit else none
  | .insert _ | .upsert _ | .remove _ | .get _ | .size => none

/-- Whether an operation puts something else in the place of what is stored under a hash. -/
def Operation.displaces (hash : TxHash) : Operation → Bool
  | .upsert r => r.hash = hash
  | .remove key => key = hash
  | .insert _ | .update _ _ | .get _ | .size => false

/-- Whether the updates of a hash among some operations are confirmations, one after the other, and
no other operation puts something in the place of what is stored there. -/
structure Confirms (hash : TxHash) (confirmations : List Confirmation)
    (operations : List Operation) : Prop where
  edits : operations.filterMap (Operation.edit? hash) = confirmations.map Confirmation.edit
  kept : ∀ operation ∈ operations, operation.displaces hash = false

variable {l final : Ledger} {hash : TxHash} {r : Record}

theorem Operation.eq_update_of_edit? {operation : Operation} {edit : Record → Record}
    (edits : operation.edit? hash = some edit) : operation = .update hash edit := by
  cases operation with
  | update key change =>
    rw [Operation.edit?] at edits
    split at edits
    next same =>
      cases edits
      rw [same]
    · cases edits
  | insert | upsert | remove | get | size => cases edits

/-- An update of a record that is there is published, and its record is the edited one. -/
theorem atOnce_update (stored : l.lookup hash = some r) (edit : Record → Record) :
    ((Operation.update hash edit).atOnce l).1.lookup hash = some ((edit r).keyed hash) ∧
      ((Operation.update hash edit).atOnce l).2 = .updated true := by
  simp only [Operation.atOnce, stored, Finmap.lookup_insert, Record.keyed, and_self]

/-- Any other operation leaves a record where it is, unless it puts something in its place. -/
theorem lookup_atOnce_of_edit?_eq_none (stored : l.lookup hash = some r) {operation : Operation}
    (other : operation.edit? hash = none) (kept : operation.displaces hash = false) :
    (operation.atOnce l).1.lookup hash = some r := by
  cases operation with
  | insert r' =>
    simp only [Operation.atOnce]
    cases free : l.lookup r'.hash with
    | none =>
      -- the hash of the new record is not the one that is taken
      have apart : hash ≠ r'.hash := by
        rintro rfl
        rw [free] at stored
        cases stored
      simp only [Finmap.lookup_insert_of_ne _ apart, stored]
    | some _ => exact stored
  | upsert r' =>
    have apart : hash ≠ r'.hash := fun same => by simp [Operation.displaces, same] at kept
    simp only [Operation.atOnce, Finmap.lookup_insert_of_ne _ apart, stored]
  | update key edit =>
    have apart : hash ≠ key := fun same => by simp [Operation.edit?, same] at other
    simp only [Operation.atOnce]
    cases l.lookup key with
    | none => exact stored
    | some r' => simp only [Finmap.lookup_insert_of_ne _ apart, stored]
  | remove key =>
    have apart : hash ≠ key := fun same => by simp [Operation.displaces, same] at kept
    simp only [Operation.atOnce, Finmap.lookup_erase_ne apart, stored]
  | get | size => exact stored

/-- A record under a hash where nothing is put in its place is edited by the updates one after the
other, all of which are published. -/
theorem Serial.edited {calls : List (Operation × Answer)} (serial : Serial l calls final)
    (stored : l.lookup hash = some r)
    (kept : ∀ operation ∈ calls.map Prod.fst, operation.displaces hash = false) :
    final.lookup hash = some (((calls.map Prod.fst).filterMap (Operation.edit? hash)).foldl
        (fun r change => (change r).keyed hash) r) ∧
      ∀ edit answer, (.update hash edit, answer) ∈ calls → answer = .updated true := by
  induction calls generalizing l r with
  | nil =>
    cases serial
    exact ⟨stored, fun _ _ member => absurd member List.not_mem_nil⟩
  | cons call calls ih =>
    obtain ⟨operation, answer⟩ := call
    obtain ⟨middle, single, later⟩ := serial_cons_iff.mp serial
    have keptLater : ∀ operation ∈ calls.map Prod.fst, operation.displaces hash = false :=
      fun operation member => kept operation (List.mem_cons_of_mem _ member)
    cases edits : operation.edit? hash with
    | none =>
      have same := lookup_atOnce_of_edit?_eq_none stored edits (kept operation List.mem_cons_self)
      rw [single] at same
      obtain ⟨shown, published⟩ := ih later same keptLater
      refine ⟨?_, ?_⟩
      · rw [List.map_cons, List.filterMap_cons_none edits]
        exact shown
      · intro edit answer' member
        rcases List.mem_cons.mp member with own | after
        · cases own
          simp [Operation.edit?] at edits
        · exact published edit answer' after
    | some edit =>
      -- only an update of the hash edits what is stored there
      obtain rfl := Operation.eq_update_of_edit? edits
      have updated := atOnce_update stored edit
      rw [single] at updated
      obtain ⟨shown, published⟩ := ih later updated.1 keptLater
      refine ⟨?_, ?_⟩
      · rw [List.map_cons, List.filterMap_cons_some edits, List.foldl_cons]
        exact shown
      · intro edit' answer' member
        rcases List.mem_cons.mp member with own | after
        · cases own
          exact updated.2
        · exact published edit' answer' after

/-- What confirmations make of a record that waits for them. -/
theorem Serial.confirmed {calls : List (Operation × Answer)} (serial : Serial l calls final)
    (stored : l.lookup hash = some r) (own : r.hash = hash) (waiting : r.outHashes = [])
    {confirmations : List Confirmation} (confirms : Confirms hash confirmations (calls.map Prod.fst)) :
    (∃ r', final.lookup hash = some r' ∧ Confirmed r confirmations r') ∧
      ∀ edit answer, (.update hash edit, answer) ∈ calls → answer = .updated true := by
  obtain ⟨shown, published⟩ := serial.edited stored confirms.kept
  rw [confirms.edits, ← own] at shown
  rw [← own]
  exact ⟨⟨_, shown, .foldl waiting confirmations⟩, own ▸ published⟩

end Clients

namespace Session

open Clients

/-- The operation and the answer of a command and a reply that have them. -/
theorem mem_calls {ended : List (Command × Reply)} {c : Command} {reply : Reply}
    (member : (c, reply) ∈ ended) {operation : Operation} {answer : Answer}
    (asks : c.operation? = some operation) (answers : reply.answer? = some answer) :
    (operation, answer) ∈ calls ended :=
  List.mem_filterMap.mpr ⟨(c, reply), member, by simp [asks, answers]⟩

theorem run_update_reply (hash : TxHash) (edit : Record → Record) (during : List (List Command))
    (s : State) : ∃ published seen replies,
      ((Command.update hash edit during).run s).2 = .updated published seen replies := by
  rw [Command.run]
  cases s.store.get? hash with
  | none => exact ⟨false, [], [], rfl⟩
  | some base => exact ⟨_, _, _, rfl⟩

/-! ## The main statement -/

/-- Updates that confirm, nested in the rounds of each other in any way or made by clients whose
accesses come in any order, are all published. What is stored in the end has each transaction that was
confirmed once, all that they add, and is done if these are as many as it expects; and for all of this
but the order of the transactions the order of the updates does not matter. -/
theorem confirmations_recorded {ι : Type} [DecidableEq ι] {store : Store} (reached : store.Reached)
    {hash : TxHash} {r : Record} (stored : store.record? hash = some r)
    (waiting : r.outHashes = []) (incomplete : r.status = .incomplete) :
    (∀ (s : State) (cs : List Command) (confirmations : List Confirmation), s.store = store →
      Confirms hash confirmations ((calls (endedAll s cs)).map Prod.fst) →
      (endedAll s cs).map Prod.snd = repliesEnded (runAll s cs).2 ∧
      (∀ edit during reply, (.update hash edit during, reply) ∈ endedAll s cs →
        ∃ seen replies, reply = .updated true seen replies) ∧
      ∃ r', (runAll s cs).1.store.record? hash = some r' ∧ Confirmed r confirmations r' ∧
        (r'.status = .done ↔ max r.numOuts.toNat 1 ≤ Confirmation.distinct confirmations)) ∧
    (∀ (programs : ι → List Operation) (schedule : List ι) (confirmations : List Confirmation),
      let final := (System.launch store programs).run schedule
      Confirms hash confirmations (final.calls.map Call.operation) →
      (∀ call ∈ final.calls, ∀ edit, call.operation = .update hash edit →
        call.answer = .updated true) ∧
      ∃ r', final.store.record? hash = some r' ∧ Confirmed r confirmations r' ∧
        (r'.status = .done ↔ max r.numOuts.toNat 1 ≤ Confirmation.distinct confirmations)) ∧
    ∀ confirmations confirmations' r' r'', Confirmed r confirmations r' →
      Confirmed r confirmations' r'' → confirmations.Perm confirmations' →
      r'.status = r''.status ∧ r'.amount = r''.amount ∧ r'.outHashes.Perm r''.outHashes := by
  have own : r.hash = hash := reached.sound.hash_eq stored
  have shown : store.ledger.lookup hash = some r := by rw [Store.lookup_ledger, stored]
  refine ⟨?_, ?_, fun _ _ _ _ first second => first.of_perm second⟩
  · rintro s cs confirmations rfl confirms
    obtain ⟨serial, replies, replied⟩ := ends_all reached.sound cs
    obtain ⟨⟨r', final, confirmed⟩, published⟩ := serial.confirmed shown own waiting confirms
    rw [Store.lookup_ledger] at final
    refine ⟨replies, ?_, r', final, confirmed, confirmed.status_iff incomplete⟩
    intro edit during reply member
    obtain ⟨moment, got⟩ := replied _ member
    obtain ⟨flag, seen, rounds, updated⟩ := run_update_reply hash edit during moment
    obtain rfl : reply = .updated flag seen rounds := got.symm.trans updated
    obtain ⟨rfl⟩ := published edit _ (mem_calls member rfl rfl)
    exact ⟨seen, rounds, rfl⟩
  · intro programs schedule confirmations final confirms
    have consistent : System.Consistent store.ledger programs final :=
      (System.consistent_launch reached.sound programs).run schedule
    have serial : Serial store.ledger (final.calls.map fun call => (call.operation, call.answer))
        final.store.ledger := by
      rw [Serial, List.map_map, List.map_map]
      exact consistent.sequential
    have confirms' : Confirms hash confirmations
        ((final.calls.map fun call => (call.operation, call.answer)).map Prod.fst) := by
      rw [List.map_map]
      exact confirms
    obtain ⟨⟨r', last, confirmed⟩, published⟩ := serial.confirmed shown own waiting confirms'
    rw [Store.lookup_ledger] at last
    refine ⟨?_, r', last, confirmed, confirmed.status_iff incomplete⟩
    intro call member edit updates
    exact published edit call.answer (List.mem_map.mpr ⟨call, member, by rw [updates]⟩)

/-- A confirmation is overtaken by another, and that by a third of the same transaction as the first; a
record of the same hash is refused meanwhile. The third transaction is one more than expected. -/
theorem confirmations_recorded_overtaken :
    let hash : TxHash := ⟨"in"⟩
    let r : Record := { Record.new hash with numOuts := 2, amount := 18446744073709551615 }
    let store := Store.empty.writeAll [.upsert r]
    let s : State := { store }
    let confirm (out : String) (amount : UInt64) (during : List (List Command)) : Command :=
      .update hash (Confirmation.edit ⟨⟨out⟩, amount⟩) during
    let cs := [confirm "x" 5
      [[confirm "y" 7 [[confirm "x" 1 []], [.insert r]], .lookup hash],
        [.upsert (Record.new ⟨"other"⟩), confirm "z" 0 []]]]
    let confirmations : List Confirmation := [⟨⟨"x"⟩, 1⟩, ⟨⟨"y"⟩, 7⟩, ⟨⟨"z"⟩, 0⟩, ⟨⟨"x"⟩, 5⟩]
    store.Reached ∧ store.record? hash = some r ∧
      Confirms hash confirmations ((calls (endedAll s cs)).map Prod.fst) ∧
      (∃ r', (runAll s cs).1.store.record? hash = some r' ∧ Confirmed r confirmations r' ∧
        (r'.status = .done ↔ max r.numOuts.toNat 1 ≤ Confirmation.distinct confirmations)) ∧
      (runAll s cs).1.store.record? hash =
        some { r with outHashes := [⟨"x"⟩, ⟨"y"⟩, ⟨"z"⟩], amount := 12, status := .done } := by
  intro hash r store s confirm cs confirmations
  have reached : store.Reached := ⟨_, _, .new, rfl⟩
  have stored : store.record? hash = some r := by decide
  have confirms : Confirms hash confirmations ((calls (endedAll s cs)).map Prod.fst) :=
    ⟨by cbv, by decide +kernel⟩
  have recorded := (confirmations_recorded (ι := Nat) reached stored rfl rfl).1 s cs confirmations rfl
    confirms
  exact ⟨reached, stored, confirms, recorded.2.2, by decide +kernel⟩

end Session

end TransactionLookup
