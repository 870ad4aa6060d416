import TransactionLookup.Proofs.Session.Reads
import TransactionLookup.Proofs.Store.Renumbered

/-!
# Steps on different hashes

Two steps that are keyed by different hashes, those in their schedules included, can change places: each
gives the same reply, and the same is stored in the end (`steps_commute`). What an edit writes into the
hash of its copy does not matter, and an update is not overtaken by what is done under other hashes.

The two orders do not leave the same store, since they give out their serial numbers differently. Under
the hashes of one step the store that it meets later is that which it meets first, renumbered.
-/

namespace TransactionLookup.Session

/-- Whether a command is a step on the store that is keyed by some hashes only, at any depth of its
schedule. -/
inductive Command.Within (hashes : Set TxHash) : Command → Prop
  | insert {r : Record} (own : r.hash ∈ hashes) : Within hashes (.insert r)
  | upsert {r : Record} (own : r.hash ∈ hashes) : Within hashes (.upsert r)
  | remove {hash : TxHash} (own : hash ∈ hashes) : Within hashes (.remove hash)
  | get {hash : TxHash} (own : hash ∈ hashes) : Within hashes (.get hash)
  | update {hash : TxHash} {edit : Record → Record} {during : List (List Command)}
      (own : hash ∈ hashes) (schedule : ∀ cs ∈ during, ∀ c ∈ cs, Within hashes c) :
      Within hashes (.update hash edit during)

variable {hashes : Set TxHash}

/-! ## What is left alone -/

mutual

theorem Command.Within.key_mem (s : State) {c : Command} (within : c.Within hashes) :
    ∀ w ∈ c.writes s, w.key ∈ hashes := by
  match c with
  | .insert r =>
    cases within with
    | insert own =>
      rw [Command.writes]
      exact List.forall_mem_singleton.mpr own
  | .upsert r =>
    cases within with
    | upsert own =>
      rw [Command.writes]
      exact List.forall_mem_singleton.mpr own
  | .remove hash =>
    cases within with
    | remove own =>
      rw [Command.writes]
      exact List.forall_mem_singleton.mpr own
  | .get hash =>
    cases within with
    | get own =>
      rw [Command.writes]
      exact List.forall_mem_nil _
  | .update hash edit during =>
    cases within with
    | update own schedule =>
      rw [Command.writes]
      cases s.store.get? hash with
      | none => exact List.forall_mem_nil _
      | some base => exact key_mem_rounds edit s base own schedule
  | .unreadable _ | .lookup _ | .size | .hold _ _ | .held _ | .request _ _ _ _ => cases within

theorem key_mem_all (s : State) {cs : List Command} (within : ∀ c ∈ cs, c.Within hashes) :
    ∀ w ∈ writesAll s cs, w.key ∈ hashes := by
  match cs with
  | [] =>
    rw [writesAll]
    exact List.forall_mem_nil _
  | c :: cs =>
    obtain ⟨here, later⟩ := List.forall_mem_cons.mp within
    rw [writesAll]
    exact List.forall_mem_append.mpr ⟨here.key_mem s, key_mem_all (c.run s).1 later⟩

theorem key_mem_rounds {hash : TxHash} (edit : Record → Record) (s : State) (base : Version)
    {during : List (List Command)} (own : hash ∈ hashes)
    (schedule : ∀ cs ∈ during, ∀ c ∈ cs, c.Within hashes) :
    ∀ w ∈ roundWrites hash edit s base during, w.key ∈ hashes := by
  match during with
  | [] =>
    rw [roundWrites]
    exact List.forall_mem_singleton.mpr own
  | cs :: during =>
    obtain ⟨here, later⟩ := List.forall_mem_cons.mp schedule
    rw [roundWrites]
    refine List.forall_mem_append.mpr ⟨key_mem_all s here, List.forall_mem_cons.mpr ⟨own, ?_⟩⟩
    cases (runAll s cs).1.store.commit hash base (edit base.record) with
    | published store => exact List.forall_mem_nil _
    | gone => exact List.forall_mem_nil _
    | superseded latest => exact key_mem_rounds edit _ latest own later

end

section Frame

variable {hash : TxHash}

/-- A step changes nothing under hashes that it is not keyed by. -/
theorem Command.Within.get?_run {c : Command} (within : c.Within hashes) (s : State)
    (other : hash ∉ hashes) : (c.run s).1.store.get? hash = s.store.get? hash := by
  rw [Command.store_run]
  exact Store.get?_writeAll_of_ne fun w member same =>
    other (same ▸ within.key_mem s w member)

theorem get?_runAll_of_within {cs : List Command} (within : ∀ c ∈ cs, c.Within hashes) (s : State)
    (other : hash ∉ hashes) : (runAll s cs).1.store.get? hash = s.store.get? hash := by
  rw [store_runAll]
  exact Store.get?_writeAll_of_ne fun w member same =>
    other (same ▸ key_mem_all s within w member)

end Frame

/-! ## What is the same -/

section Renumbered

variable {start shift : Nat} {s s' : State}

/-- Whether two states are the same to steps that are keyed by some hashes. -/
structure State.Renumbered (start shift : Nat) (hashes : Set TxHash) (s s' : State) : Prop where
  store : s.store.Renumbered start shift hashes s'.store
  faults : s.faults = s'.faults

/-- Whether two runs have left states that are the same to steps keyed by some hashes, and have given
the same replies. -/
structure SameReplies {ρ : Type} (start shift : Nat) (hashes : Set TxHash) (run run' : State × ρ) :
    Prop where
  left : run.1.Renumbered start shift hashes run'.1
  replies : run.2 = run'.2

theorem State.Renumbered.find_eq {hash : TxHash} (renumbered : s.Renumbered start shift hashes s')
    (own : hash ∈ hashes) : s.find hash = s'.find hash := by
  rw [State.find, State.find, Store.find, Store.find, renumbered.faults,
    renumbered.store.record?_eq own]

theorem State.Renumbered.publish (renumbered : s.Renumbered start shift hashes s') (hash : TxHash)
    (r : Record) :
    State.Renumbered start shift hashes { s with store := s.store.publish hash r }
      { s' with store := s'.store.publish hash r } :=
  ⟨renumbered.store.publish hash r, renumbered.faults⟩

end Renumbered

section Run

variable {start shift : Nat}

mutual

theorem Command.Within.run {s s' : State} {c : Command} (within : c.Within hashes)
    (renumbered : s.Renumbered start shift hashes s') :
    SameReplies start shift hashes (c.run s) (c.run s') := by
  match c with
  | .insert r =>
    cases within with
    | insert own =>
      have free := renumbered.store.get?_eq_none_iff own
      rw [Command.run, Command.run, State.insert, State.insert, Store.insert, Store.insert]
      cases there : s.store.get? r.hash with
      | none =>
        rw [free.mpr there]
        exact ⟨renumbered.publish r.hash r, rfl⟩
      | some version =>
        obtain ⟨version', there'⟩ : ∃ version', s'.store.get? r.hash = some version' :=
          Option.ne_none_iff_exists'.mp fun absent => by simp [free.mp absent] at there
        rw [there']
        exact ⟨renumbered, rfl⟩
  | .upsert r =>
    cases within with
    | upsert own =>
      rw [Command.run, Command.run, State.upsert, State.upsert, Store.upsert, Store.upsert,
        renumbered.store.record?_eq own]
      exact ⟨renumbered.publish r.hash r, rfl⟩
  | .remove hash =>
    cases within with
    | remove own =>
      rw [Command.run, Command.run, State.remove, State.remove, Store.remove, Store.remove,
        renumbered.store.record?_eq own]
      exact ⟨⟨renumbered.store.erase hash, renumbered.faults⟩, rfl⟩
  | .get hash =>
    cases within with
    | get own =>
      rw [Command.run, Command.run, renumbered.find_eq own]
      exact ⟨renumbered, rfl⟩
  | .update hash edit during =>
    cases within with
    | update own schedule =>
      rw [Command.run, Command.run, renumbered.store.found hash own]
      cases s.store.get? hash with
      | none => exact ⟨renumbered, rfl⟩
      | some base =>
        have rounds := run_rounds_within edit base renumbered own schedule
        exact ⟨rounds.left, congrArg Rounds.reply rounds.replies⟩
  | .unreadable _ | .lookup _ | .size | .hold _ _ | .held _ | .request _ _ _ _ => cases within

theorem run_all_within {s s' : State} {cs : List Command} (within : ∀ c ∈ cs, c.Within hashes)
    (renumbered : s.Renumbered start shift hashes s') :
    SameReplies start shift hashes (runAll s cs) (runAll s' cs) := by
  match cs with
  | [] =>
    rw [runAll, runAll]
    exact ⟨renumbered, rfl⟩
  | c :: cs =>
    obtain ⟨here, later⟩ := List.forall_mem_cons.mp within
    have first := here.run renumbered
    have rest := run_all_within later first.left
    rw [runAll, runAll]
    refine ⟨rest.left, ?_⟩
    dsimp only
    rw [first.replies, rest.replies]

theorem run_rounds_within {s s' : State} {hash : TxHash} (edit : Record → Record) (base : Version)
    {during : List (List Command)} (renumbered : s.Renumbered start shift hashes s')
    (own : hash ∈ hashes) (schedule : ∀ cs ∈ during, ∀ c ∈ cs, c.Within hashes) :
    SameReplies start shift hashes (runRounds hash edit s base during)
      (runRounds hash edit s' (base.renumber start shift) during) := by
  match during with
  | [] =>
    have ends := renumbered.store.commit own base (edit base.record)
    rw [runRounds, runRounds, Version.record_renumber]
    generalize s.store.commit hash base (edit base.record) = ended at ends ⊢
    generalize s'.store.commit hash (base.renumber start shift) (edit base.record) = ended' at ends ⊢
    cases ends with
    | published store => exact ⟨⟨store, renumbered.faults⟩, rfl⟩
    | gone => exact ⟨renumbered, rfl⟩
    | superseded latest => exact ⟨renumbered, rfl⟩
  | cs :: during =>
    obtain ⟨here, later⟩ := List.forall_mem_cons.mp schedule
    have first := run_all_within here renumbered
    -- the version that the copy was made of is known by its old number in the one run only
    have ends := first.left.store.commit own base (edit base.record)
    rw [runRounds_cons, runRounds_cons, Version.record_renumber, first.replies]
    generalize (runAll s cs).1.store.commit hash base (edit base.record) = ended at ends ⊢
    generalize (runAll s' cs).1.store.commit hash (base.renumber start shift) (edit base.record) =
      ended' at ends ⊢
    cases ends with
    | published store => exact ⟨⟨store, first.left.faults⟩, rfl⟩
    | gone => exact ⟨first.left, rfl⟩
    | superseded latest =>
      have logged : ((runAll s cs).1.logged [.updateRetried hash]).Renumbered start shift hashes
          ((runAll s' cs).1.logged [.updateRetried hash]) :=
        ⟨first.left.store, first.left.faults⟩
      have rounds := run_rounds_within edit latest logged own later
      refine ⟨rounds.left, ?_⟩
      dsimp only
      rw [rounds.replies]

end

end Run

/-! ## One step and another -/

section Apart

variable {others : Set TxHash} {s : State} {a b : Command}

theorem nextSerial_run_le (s : State) (c : Command) :
    s.store.nextSerial ≤ (c.run s).1.store.nextSerial := by
  rw [Command.store_run]
  exact Store.nextSerial_writeAll_le s.store _

/-- A step has the reply and the effect under its own hashes that it would have without one before it
that is keyed by others. -/
theorem Command.Within.run_after (sound : s.store.Sound) (apart : ∀ hash ∈ hashes, hash ∉ others)
    (own : a.Within hashes) (foreign : b.Within others) :
    (a.run (b.run s).1).2 = (a.run s).2 ∧
      ∀ hash ∈ hashes, (a.run (b.run s).1).1.store.record? hash = (a.run s).1.store.record? hash := by
  have same : ∀ hash ∈ hashes, (b.run s).1.store.get? hash = s.store.get? hash :=
    fun hash member => foreign.get?_run s (apart hash member)
  have faults : s.faults = (b.run s).1.faults := by
    rw [← (Command.comes s b).state, faults_performAll]
  have renumbered := sound.renumbered (nextSerial_run_le s b) same
  have both := own.run ⟨renumbered, faults⟩
  exact ⟨both.replies.symm, fun hash member => both.left.store.record?_eq member⟩

theorem record?_run_comm (sound : s.store.Sound) (apart : ∀ hash ∈ hashes, hash ∉ others)
    (own : a.Within hashes) (foreign : b.Within others) (hash : TxHash) :
    (b.run (a.run s).1).1.store.record? hash = (a.run (b.run s).1).1.store.record? hash := by
  by_cases member : hash ∈ hashes
  · -- the second step in the one order leaves alone what the first has done
    rw [(own.run_after sound apart foreign).2 hash member, Store.record?, Store.record?,
      foreign.get?_run _ (apart hash member)]
  · by_cases member' : hash ∈ others
    · have apart' : ∀ hash ∈ others, hash ∉ hashes := fun hash there here => apart hash here there
      rw [(foreign.run_after sound apart' own).2 hash member', Store.record?, Store.record?,
        own.get?_run _ member]
    · rw [Store.record?, Store.record?, foreign.get?_run _ member', own.get?_run _ member,
        own.get?_run _ member, foreign.get?_run _ member']

/-- An update whose schedule has left its record alone publishes in its first round. -/
theorem run_update_undisturbed {hash : TxHash} {base : Version}
    (there : s.store.get? hash = some base) (edit : Record → Record)
    (during : List (List Command))
    (left : (runAll s (during.headD [])).1.store.get? hash = some base) :
    (Command.update hash edit during).run s =
      (((Command.update hash edit []).run (runAll s (during.headD [])).1).1,
        .updated true [base.record] ((during.take 1).map fun cs => (runAll s cs).2)) := by
  have published := Store.commit_of_get? left (edit base.record)
  rw [Command.run, Command.run, there, left]
  dsimp only
  cases during with
  | nil =>
    rw [List.headD_nil, runAll] at published ⊢
    rw [runRounds, published]
    rfl
  | cons cs during =>
    rw [List.headD_cons] at published ⊢
    rw [runRounds_cons, runRounds, published]
    rfl

end Apart

/-! ## The main statement -/

/-- Two steps keyed by different hashes give the same replies in either order, and the same is stored
after both. An update of a stored record whose schedule is keyed by other hashes calls its edit once,
and does what it would do undisturbed after the first round of its schedule. -/
theorem steps_commute {s : State} (reached : s.store.Reached) :
    (∀ (hashes others : Set TxHash) (a b : Command), (∀ hash ∈ hashes, hash ∉ others) →
      a.Within hashes → b.Within others →
      (a.run (b.run s).1).2 = (a.run s).2 ∧ (b.run (a.run s).1).2 = (b.run s).2 ∧
      (b.run (a.run s).1).1.store.ledger = (a.run (b.run s).1).1.store.ledger ∧
      (b.run (a.run s).1).1.store.size = (a.run (b.run s).1).1.store.size) ∧
    ∀ hash edit during r, s.store.record? hash = some r →
      (∀ cs ∈ during, ∀ c ∈ cs, Command.Within {hash}ᶜ c) →
      let first := runAll s (during.headD [])
      let undisturbed := (Command.update hash edit []).run first.1
      undisturbed.2 = .updated true [r] [] ∧
      (Command.update hash edit during).run s =
        (undisturbed.1, .updated true [r] ((during.take 1).map fun _ => first.2)) := by
  have sound := reached.sound
  refine ⟨?_, ?_⟩
  · intro hashes others a b apart own foreign
    have ledger : (b.run (a.run s).1).1.store.ledger = (a.run (b.run s).1).1.store.ledger := by
      apply Finmap.ext_lookup
      intro hash
      rw [Store.lookup_ledger, Store.lookup_ledger, record?_run_comm sound apart own foreign]
    have sound' (c d : Command) : (d.run (c.run s).1).1.store.Sound := by
      rw [Command.store_run, Command.store_run]
      exact (sound.writeAll _).writeAll _
    have apart' : ∀ hash ∈ others, hash ∉ hashes := fun hash there here => apart hash here there
    refine ⟨(own.run_after sound apart foreign).1, (foreign.run_after sound apart' own).1,
      ledger, ?_⟩
    rw [← Store.card_keys_ledger (sound' a b).single, ← Store.card_keys_ledger (sound' b a).single,
      ledger]
  · intro hash edit during r stored schedule first undisturbed
    obtain ⟨base, there, rfl⟩ := Option.map_eq_some_iff.mp stored
    have within : ∀ c ∈ during.headD [], Command.Within {hash}ᶜ c := by
      cases during with
      | nil => exact List.forall_mem_nil _
      | cons cs during => exact (List.forall_mem_cons.mp schedule).1
    have left : first.1.store.get? hash = some base := by
      rw [get?_runAll_of_within within s (not_not_intro rfl), there]
    constructor
    · have nothing : (runAll first.1 []).1.store.get? hash = some base := by
        rw [runAll]
        exact left
      exact congrArg Prod.snd (run_update_undisturbed left edit [] nothing)
    · rw [run_update_undisturbed there edit during left]
      cases during <;> rfl

/-- Two updates that give their copies the hash of each other, one of them overtaken twice; and an update
while whose copy is made other records are removed, stored and updated. -/
theorem steps_commute_rekeyed :
    let a : TxHash := ⟨"a"⟩
    let b : TxHash := ⟨"b"⟩
    let rekey (hash : TxHash) (r : Record) : Record := { r with hash, amount := r.amount + 1 }
    let s : State :=
      { store := Store.empty.writeAll [.upsert (Record.new a), .upsert (Record.new b)] }
    let first : Command :=
      .update a (rekey b) [[.upsert (Record.new a), .get a], [.remove a, .insert (Record.new a)]]
    let second : Command := .update b (rekey a) [[.update b (rekey a) []]]
    s.store.Reached ∧
      (first.run (second.run s).1).2 = (first.run s).2 ∧
      (second.run (first.run s).1).2 = (second.run s).2 ∧
      (second.run (first.run s).1).1.store.ledger = (first.run (second.run s).1).1.store.ledger ∧
      ((second.run (first.run s).1).1.store.record? b).map Record.amount = some 2 ∧
      ((Command.update a (rekey b) [[second, .remove b], [.get b]]).run s).2 =
        .updated true [Record.new a] [(runAll s [second, .remove b]).2] := by
  intro a b rekey s first second
  have reached : s.store.Reached := ⟨_, _, .new, rfl⟩
  have own : first.Within {a} := by
    refine .update rfl ?_
    simp only [List.forall_mem_cons]
    exact ⟨⟨.upsert rfl, .get rfl, List.forall_mem_nil _⟩,
      ⟨.remove rfl, .insert rfl, List.forall_mem_nil _⟩, List.forall_mem_nil _⟩
  have foreign : second.Within {b} := by
    refine .update rfl ?_
    simp only [List.forall_mem_cons]
    exact ⟨⟨.update rfl (List.forall_mem_nil _), List.forall_mem_nil _⟩, List.forall_mem_nil _⟩
  have apart : ∀ hash ∈ ({a} : Set TxHash), hash ∉ ({b} : Set TxHash) := by simp [a, b]
  obtain ⟨commute, undisturbed⟩ := steps_commute reached
  obtain ⟨reply, reply', ledger, -⟩ := commute {a} {b} first second apart own foreign
  refine ⟨reached, reply, reply', ledger, by decide +kernel, ?_⟩
  have other : b ∈ ({a} : Set TxHash)ᶜ := show b ≠ a by decide
  have schedule : ∀ cs ∈ [[second, .remove b], [.get b]], ∀ c ∈ cs, Command.Within {a}ᶜ c := by
    simp only [List.forall_mem_cons]
    refine ⟨⟨.update other ?_, .remove other, List.forall_mem_nil _⟩,
      ⟨.get other, List.forall_mem_nil _⟩, List.forall_mem_nil _⟩
    simp only [List.forall_mem_cons]
    exact ⟨⟨.update other (List.forall_mem_nil _), List.forall_mem_nil _⟩, List.forall_mem_nil _⟩
  exact congrArg Prod.snd
    (undisturbed a (rekey b) [[second, .remove b], [.get b]] (Record.new a) rfl schedule).2

end TransactionLookup.Session
