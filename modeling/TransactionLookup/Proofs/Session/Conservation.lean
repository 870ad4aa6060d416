import TransactionLookup.Proofs.Session.Acts
import TransactionLookup.Proofs.Session.Update
import TransactionLookup.Proofs.Store.Ledger

/-!
# The number of records

At every moment of a session as many hashes are stored as there were at first, and one more for each
record that has been brought in under a free hash since, and one less for each that has been taken away
(`size_conserved`). Updates add none and take none away: a copy is published in the place of the version
that it was made from, and only as long as that version has been there all the time.
-/

namespace TransactionLookup

namespace Store

variable {s : Store} {hash : TxHash} {r : Record}

theorem Sound.card_keys (sound : s.Sound) : s.ledger.keys.card = s.size :=
  card_keys_ledger sound.single

/-- A record under a free hash is one more, and one in the place of another is not. -/
theorem Sound.size_publish (sound : s.Sound) (own : r.hash = hash) :
    (s.publish hash r).size = s.size + if s.get? hash = none then 1 else 0 := by
  rw [← sound.card_keys, ← (sound.publish own).card_keys, keys_ledger_publish]
  split
  next free =>
    exact Finset.card_insert_of_notMem fun member => mem_keys_ledger_iff_get?.mp member free
  next taken =>
    rw [Finset.insert_eq_of_mem (mem_keys_ledger_iff_get?.mpr taken), Nat.add_zero]

theorem Sound.size_erase (sound : s.Sound) (hash : TxHash) :
    (s.erase hash).size + (if s.get? hash = none then 0 else 1) = s.size := by
  split
  next absent => rw [erase_of_absent absent, Nat.add_zero]
  next present =>
    rw [← sound.card_keys, ← (sound.erase hash).card_keys, keys_ledger_erase]
    exact Finset.card_erase_add_one (mem_keys_ledger_iff_get?.mpr present)

/-- The end of an update changes nothing in what hashes are stored. -/
theorem get?_write_commit_eq_none_iff (s : Store) (hash : TxHash) (base : Version) (next : Record)
    (other : TxHash) :
    (s.write (.commit hash base next)).get? other = none ↔ s.get? other = none := by
  by_cases admitted : s.Admits (.commit hash base next)
  · obtain ⟨latest, there, same⟩ := admitted
    simp only [write, commit, there, if_pos same]
    by_cases own : other = hash
    · simp [own, get?_publish_self, there]
    · rw [get?_publish_of_ne own]
  · rw [write_of_not_admits admitted]

theorem Sound.size_write_commit (sound : s.Sound) (hash : TxHash) (base : Version) (next : Record) :
    (s.write (.commit hash base next)).size = s.size := by
  rw [← sound.card_keys, ← (sound.write _).card_keys]
  congr 1
  ext other
  rw [mem_keys_ledger_iff_get?, mem_keys_ledger_iff_get?, ne_eq, get?_write_commit_eq_none_iff]

end Store

namespace Session

variable {s : State} {c : Command}

/-! ## Acts and writes -/

theorem store_perform_commit (s : State) (hash : TxHash) (base : Version) (next : Record) :
    (s.perform (.commit hash base next)).store = s.store.write (.commit hash base next) := by
  rw [State.perform, Store.write]
  cases s.store.commit hash base next <;> rfl

theorem store_performAll (s : State) (acts : List Act) :
    ∃ writes, (s.performAll acts).store = s.store.writeAll writes := by
  induction acts generalizing s with
  | nil => exact ⟨[], rfl⟩
  | cons a acts ih =>
    obtain ⟨later, left⟩ := ih (s.perform a)
    cases a with
    | command c single =>
      refine ⟨c.writes s ++ later, ?_⟩
      rw [State.performAll_cons, left, Store.writeAll_append, ← Command.store_run]
      rfl
    | commit hash base next =>
      refine ⟨.commit hash base next :: later, ?_⟩
      rw [State.performAll_cons, left, store_perform_commit]
      rfl

theorem sound_performAll (sound : s.store.Sound) (acts : List Act) :
    (s.performAll acts).store.Sound := by
  obtain ⟨writes, left⟩ := store_performAll s acts
  rw [left]
  exact sound.writeAll writes

/-! ## Counting -/

/-- Whether a record has been inserted. -/
def inserts : Command × Reply → Bool
  | (.insert _, .inserted) => true
  | _ => false

/-- Whether a record has been stored in the place of none. -/
def creates : Command × Reply → Bool
  | (.upsert _, .replaced none) => true
  | _ => false

/-- Whether a record has been taken away. -/
def takesAway : Command × Reply → Bool
  | (.remove _, .removed (some _)) => true
  | _ => false

/-- A command changes the number of records by what its reply tells. -/
theorem size_run (sound : s.store.Sound) (single : c.isUpdate = false) :
    (c.run s).1.store.size + (if takesAway (c, (c.run s).2) then 1 else 0) =
      s.store.size + (if inserts (c, (c.run s).2) then 1 else 0) +
        if creates (c, (c.run s).2) then 1 else 0 := by
  cases c with
  | update hash edit during => cases single
  | insert r =>
    rw [Command.run, State.insert, Store.insert]
    cases free : s.store.get? r.hash with
    | none => simp [takesAway, inserts, creates, sound.size_publish rfl, free]
    | some version => simp [takesAway, inserts, creates]
  | upsert r =>
    rw [Command.run, State.upsert, Store.upsert, Store.record?]
    cases free : s.store.get? r.hash with
    | none => simp [takesAway, inserts, creates, sound.size_publish rfl, free]
    | some version => simp [takesAway, inserts, creates, sound.size_publish rfl, free]
  | remove hash =>
    have size := sound.size_erase hash
    rw [Command.run, State.remove, Store.remove, Store.record?]
    cases there : s.store.get? hash with
    | none => simpa [takesAway, inserts, creates, there] using size
    | some version => simpa [takesAway, inserts, creates, there] using size
  | unreadable | get | lookup | size | hold | held | request =>
    rw [Command.store_run]
    rfl

/-- So do acts one after the other, of which those that end a round of an update change nothing. -/
theorem size_performAll (sound : s.store.Sound) (acts : List Act) :
    (s.performAll acts).store.size + (s.transcript acts).countP takesAway =
      s.store.size + (s.transcript acts).countP inserts + (s.transcript acts).countP creates := by
  induction acts generalizing s with
  | nil => rfl
  | cons a acts ih =>
    have later := ih (sound_performAll sound [a])
    cases a with
    | command c single =>
      have first := size_run sound single
      simp only [State.performAll_cons, State.performAll_nil, State.transcript, State.perform,
        List.countP_cons] at later ⊢
      omega
    | commit hash base next =>
      have first : (s.perform (.commit hash base next)).store.size = s.store.size := by
        rw [store_perform_commit, sound.size_write_commit]
      simp only [State.performAll_cons, State.performAll_nil, State.transcript] at later ⊢
      omega

theorem run_get_faultless (s : State) (hash : TxHash) :
    ((Command.get hash).run { s with faults := {} }).2 = .read (s.store.record? hash) := rfl

/-! ## Copies in the making -/

/-- What is stored under a hash before and after some acts is stored there all the time between. -/
theorem get?_performAll_between (sound : s.store.Sound) {hash : TxHash} {version : Version}
    {before since : List Act} (first : s.store.get? hash = some version)
    (last : (s.performAll (before ++ since)).store.get? hash = some version) :
    (s.performAll before).store.get? hash = some version := by
  obtain ⟨early, toBefore⟩ := store_performAll s before
  obtain ⟨late, toLast⟩ := store_performAll (s.performAll before) since
  rw [State.performAll_append, toLast, toBefore, ← Store.writeAll_append] at last
  rw [toBefore]
  exact (Store.get?_between sound first last rfl).2.2

/-- A copy is published only if the version that it is of has been there as long as it was made. -/
theorem kept_of_published (sound : s.store.Sound) {hash : TxHash} {edit : Record → Record}
    {during : List (List Command)} {seen : List Record} {rounds : List (List Reply)}
    (published : ((Command.update hash edit during).run s).2 = .updated true seen rounds) :
    ∃ last base, seen.length = last + 1 ∧ seen[last]? = some base.record ∧
      ∀ before since,
        actsAll (roundStart hash during s last) (during.getD last []) = before ++ since →
        ((roundStart hash during s last).performAll before).store.get? hash = some base := by
  rw [Command.run] at published
  cases there : s.store.get? hash with
  | none =>
    simp only [there] at published
    cases published
  | some base =>
    simp only [there, Rounds.reply, Reply.updated.injEq] at published
    obtain ⟨success, rfl, -⟩ := published
    obtain ⟨last, versions, went⟩ := runRounds_went sound there edit during
    cases found : (roundRun hash during s last).1.store.get? hash with
    | none =>
      rw [(went.gone found).1] at success
      cases success
    | some version =>
      obtain ⟨-, lastSeen, -⟩ := went.published found
      -- the round is the last one, and not because the record is gone
      have start : (roundStart hash during s last).store.get? hash = some version := by
        rcases went.ends with gone | kept
        · rw [gone] at found
          cases found
        · rw [← kept, found]
      have sound' : (roundStart hash during s last).store.Sound := by
        obtain ⟨writes, left⟩ := store_roundStart hash during s last
        rw [left]
        exact sound.writeAll writes
      refine ⟨last, version, ?_, ?_, ?_⟩
      · rw [went.shown, List.length_map, went.counted]
      · rw [went.shown, List.getElem?_map, lastSeen]
        rfl
      · intro before since split
        have afterwards : ((roundStart hash during s last).performAll
            (before ++ since)).store.get? hash = some version := by
          rw [← split, (comes_all _ _).state]
          exact found
        exact get?_performAll_between sound' start afterwards

/-! ## The main statement -/

/-- At every moment of a session the number of records is that of the hashes under which one is found,
and it has grown by the records that were inserted or were stored in the place of none, and shrunk by
those that were taken away, as the replies tell. The end of a round of an update changes nothing in what
hashes are stored; and an update is published only if, as long as its last copy was made, the version
that the copy is of was there at every moment. -/
theorem size_conserved (reached : s.store.Reached) (cs : List Command) :
    s.performAll (actsAll s cs) = (runAll s cs).1 ∧
    (s.transcript (actsAll s cs)).map Prod.snd = leavesAll (runAll s cs).2 ∧
    (∀ past rest, actsAll s cs = past ++ rest →
      let now := s.performAll past
      let done := s.transcript past
      now.store.size + done.countP takesAway =
        s.store.size + done.countP inserts + done.countP creates ∧
      (Command.size.run now).2 = .size now.store.size ∧
      (∃ hashes : Finset TxHash, hashes.card = now.store.size ∧
        ∀ hash, hash ∈ hashes ↔
          ∃ r, ((Command.get hash).run { now with faults := {} }).2 = .read (some r)) ∧
      ∀ hash base next later, rest = .commit hash base next :: later →
        let after := now.perform (.commit hash base next)
        after.store.size = now.store.size ∧
        ∀ other, after.store.get? other = none ↔ now.store.get? other = none) ∧
    ∀ (moment : State) (hash : TxHash) (edit : Record → Record) (during : List (List Command))
      (seen : List Record) (rounds : List (List Reply)), moment.store.Reached →
      ((Command.update hash edit during).run moment).2 = .updated true seen rounds →
      ∃ last base, seen.length = last + 1 ∧ seen[last]? = some base.record ∧
        ∀ before since,
          actsAll (roundStart hash during moment last) (during.getD last []) = before ++ since →
          ((roundStart hash during moment last).performAll before).store.get? hash = some base := by
  have sound := reached.sound
  obtain ⟨state, replies⟩ := comes_all s cs
  refine ⟨state, replies, ?_, ?_⟩
  · intro past rest split now done
    have sound' : now.store.Sound := sound_performAll sound past
    refine ⟨size_performAll sound past, by rw [Command.run], ⟨now.store.ledger.keys,
      sound'.card_keys, ?_⟩, ?_⟩
    · intro hash
      simp [Store.mem_keys_ledger_iff, run_get_faultless]
    · rintro hash base next later rfl after
      have left : after.store = now.store.write (.commit hash base next) :=
        store_perform_commit now hash base next
      constructor
      · rw [left, sound'.size_write_commit]
      · intro other
        rw [left]
        exact Store.get?_write_commit_eq_none_iff now.store hash base next other
  · intro moment hash edit during seen rounds reached' published
    exact kept_of_published reached'.sound published

/-- A record is taken away and inserted again while a copy of it is made, and then taken away for good:
the update fails, and one record fewer is left. Another one has come in its place, and an update that is
overtaken once is published. -/
theorem size_conserved_removed :
    let a : TxHash := ⟨"a"⟩
    let b : TxHash := ⟨"b"⟩
    let s : State :=
      { store := Store.empty.writeAll [.upsert (Record.new a), .upsert (Record.new b)] }
    let cs : List Command :=
      [.update a id [[.remove a, .insert (Record.new a)], [.remove a]],
        .upsert (Record.new ⟨"c"⟩), .insert (Record.new b)]
    let done := s.transcript (actsAll s cs)
    s.store.Reached ∧ done.countP takesAway = 2 ∧ done.countP inserts = 1 ∧
      done.countP creates = 1 ∧ (runAll s cs).1.store.size + 2 = s.store.size + 1 + 1 ∧
      ∃ last base, last = 1 ∧ base.record = Record.new b ∧
        ((roundStart b [[.upsert (Record.new b)], [.size]] s last).performAll
          [.command .size rfl]).store.get? b = some base := by
  intro a b s cs done
  have reached : s.store.Reached := ⟨_, _, .new, rfl⟩
  have taken : done.countP takesAway = 2 := by decide
  have inserted : done.countP inserts = 1 := by decide
  have created : done.countP creates = 1 := by decide
  obtain ⟨state, -, moments, copies⟩ := size_conserved reached cs
  obtain ⟨size, -⟩ := moments (actsAll s cs) [] (List.append_nil _).symm
  rw [state, taken, inserted, created] at size
  have published : ((Command.update b id [[.upsert (Record.new b)], [.size]]).run s).2 =
      .updated true [Record.new b, Record.new b] [[.replaced (some (Record.new b))], [.size 2]] := by
    rfl
  obtain ⟨last, base, rounds, seen, kept⟩ := copies s b id _ _ _ reached published
  obtain rfl : last = 1 := (Nat.succ.inj rounds).symm
  refine ⟨reached, taken, inserted, created, size, 1, base, rfl, (Option.some.inj seen).symm, ?_⟩
  exact kept [.command .size rfl] [] rfl

end Session

end TransactionLookup
