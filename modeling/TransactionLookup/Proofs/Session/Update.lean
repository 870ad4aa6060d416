import TransactionLookup.Proofs.Session.Writes

/-!
# The course of an update

An update that finds a record goes through rounds. What the schedule says for a round is done while the
update works on its copy. The first round after whose schedule the record is gone, or is still the
very version that the round started from, is the last (`update_run`). Which round that is, what the
rounds start from and what is done in them does not depend on the edit: only what is published at the
end does, and it is made from the version that the last round started from.
-/

namespace TransactionLookup.Session

/-! ## Rounds -/

/-- The state in which a round of an update starts if there is one after each of those before it. -/
def roundStart (hash : TxHash) (during : List (List Command)) (s : State) : Nat → State
  | 0 => s
  | i + 1 =>
    (runAll (roundStart hash during s i) (during.getD i [])).1.logged [.updateRetried hash]

/-- What comes of the schedule of a round: nothing is done in a round beyond its end. -/
def roundRun (hash : TxHash) (during : List (List Command)) (s : State) (i : Nat) :
    State × List Reply :=
  runAll (roundStart hash during s i) (during.getD i [])

/-- Whether a round is followed by no other: the record is gone after its schedule, or it is the
version that the round started from. An equal record in another version does not count. -/
def EndsAt (hash : TxHash) (during : List (List Command)) (s : State) (i : Nat) : Prop :=
  (roundRun hash during s i).1.store.get? hash = none ∨
    (roundRun hash during s i).1.store.get? hash = (roundStart hash during s i).store.get? hash

/-- Whether rounds that leave a state behind have gone as the schedule has it: `last` is the last of
them, and they started from the versions `seen`. -/
structure Went (hash : TxHash) (edit : Record → Record) (during : List (List Command)) (s : State)
    (last : Nat) (seen : List Version) (rounds : Rounds) (final : State) : Prop where
  bounded : last ≤ during.length
  counted : seen.length = last + 1
  started : s.store.get? hash = seen[0]?
  next : ∀ i < last, (roundRun hash during s i).1.store.get? hash = seen[i + 1]?
  ends : EndsAt hash during s last
  first : ∀ i < last, ¬ EndsAt hash during s i
  shown : rounds.seen = seen.map Version.record
  done : rounds.during =
    (List.range (min (last + 1) during.length)).map fun i => (roundRun hash during s i).2
  /-- If the record is gone, nothing is published. -/
  gone : (roundRun hash during s last).1.store.get? hash = none →
    rounds.published = false ∧ final = (roundRun hash during s last).1
  /-- Else the edited copy of the last version seen is, and nothing but that changes. -/
  published : ∀ {version}, (roundRun hash during s last).1.store.get? hash = some version →
    rounds.published = true ∧ seen[last]? = some version ∧
    final = (roundRun hash during s last).1.withStore final.store ∧
    final.store.record? hash = some { edit version.record with hash } ∧
    ∀ other ≠ hash,
      final.store.get? other = (roundRun hash during s last).1.store.get? other

variable {hash : TxHash} {edit : Record → Record} {s : State} {base : Version}
  {cs : List Command} {during : List (List Command)}

@[simp] theorem roundRun_zero (hash : TxHash) (cs : List Command) (during : List (List Command))
    (s : State) : roundRun hash (cs :: during) s 0 = runAll s cs := rfl

theorem roundStart_cons (hash : TxHash) (cs : List Command) (during : List (List Command))
    (s : State) (i : Nat) : roundStart hash (cs :: during) s (i + 1) =
      roundStart hash during ((runAll s cs).1.logged [.updateRetried hash]) i := by
  induction i with
  | zero => rfl
  | succ i ih =>
    rw [roundStart, ih]
    rfl

theorem roundRun_cons (hash : TxHash) (cs : List Command) (during : List (List Command))
    (s : State) (i : Nat) : roundRun hash (cs :: during) s (i + 1) =
      roundRun hash during ((runAll s cs).1.logged [.updateRetried hash]) i := by
  rw [roundRun, roundStart_cons]
  rfl

theorem endsAt_cons (hash : TxHash) (cs : List Command) (during : List (List Command))
    (s : State) (i : Nat) : EndsAt hash (cs :: during) s (i + 1) ↔
      EndsAt hash during ((runAll s cs).1.logged [.updateRetried hash]) i := by
  rw [EndsAt, EndsAt, roundRun_cons, roundStart_cons]

/-! ## The three ends of a round -/

/-- A round after whose schedule its version is still there publishes, and is the last. -/
theorem went_of_kept (edit : Record → Record) (during : List (List Command))
    (there : s.store.get? hash = some base)
    (kept : (roundRun hash during s 0).1.store.get? hash = some base) :
    let left := (roundRun hash during s 0).1
    Went hash edit during s 0 [base]
      (.last true base.record
        ((List.range (min 1 during.length)).map fun i => (roundRun hash during s i).2))
      (left.withStore (left.store.publish hash { edit base.record with hash })) where
  bounded := Nat.zero_le _
  counted := rfl
  started := there
  next := nofun
  ends := .inr (kept.trans there.symm)
  first := nofun
  shown := rfl
  done := rfl
  gone absent := by
    rw [kept] at absent
    cases absent
  published found := by
    rw [kept] at found
    cases found
    refine ⟨rfl, rfl, rfl, ?_, ?_⟩
    · rw [State.store_withStore, Store.record?, Store.get?_publish_self]
      rfl
    · intro other different
      rw [State.store_withStore, Store.get?_publish_of_ne different]

/-- A round after whose schedule the record is gone publishes nothing, and is the last. -/
theorem went_of_gone (edit : Record → Record) (during : List (List Command))
    (there : s.store.get? hash = some base)
    (absent : (roundRun hash during s 0).1.store.get? hash = none) :
    Went hash edit during s 0 [base]
      (.last false base.record
        ((List.range (min 1 during.length)).map fun i => (roundRun hash during s i).2))
      (roundRun hash during s 0).1 where
  bounded := Nat.zero_le _
  counted := rfl
  started := there
  next := nofun
  ends := .inl absent
  first := nofun
  shown := rfl
  done := rfl
  gone _ := ⟨rfl, rfl⟩
  published found := by
    rw [absent] at found
    cases found

/-- A round after whose schedule another version is there is followed by one that starts from that. -/
theorem went_of_superseded {latest : Version} {last : Nat} {seen : List Version} {rounds : Rounds}
    {final : State} (there : s.store.get? hash = some base)
    (found : (runAll s cs).1.store.get? hash = some latest) (other : latest ≠ base)
    (later : Went hash edit during ((runAll s cs).1.logged [.updateRetried hash]) last seen rounds
      final) :
    Went hash edit (cs :: during) s (last + 1) (base :: seen)
      (rounds.after base.record [(runAll s cs).2]) final where
  bounded := Nat.succ_le_succ later.bounded
  counted := congrArg Nat.succ later.counted
  started := there
  next i lt := by
    cases i with
    | zero => exact later.started
    | succ i =>
      rw [roundRun_cons]
      exact later.next i (Nat.lt_of_succ_lt_succ lt)
  ends := (endsAt_cons hash cs during s last).mpr later.ends
  first i lt := by
    cases i with
    | zero =>
      have now : (roundRun hash (cs :: during) s 0).1.store.get? hash = some latest := found
      have before : (roundStart hash (cs :: during) s 0).store.get? hash = some base := there
      rintro (absent | same)
      · rw [now] at absent
        cases absent
      · rw [now, before, Option.some.injEq] at same
        exact other same
    | succ i =>
      rw [endsAt_cons]
      exact later.first i (Nat.lt_of_succ_lt_succ lt)
  shown := congrArg (base.record :: ·) later.shown
  done := by
    rw [List.length_cons, Nat.succ_min_succ, List.range_succ_eq_map]
    simp only [Rounds.after, later.done, List.map_cons, List.map_map, List.singleton_append]
    -- a round of the rest is the next round of the whole
    congr 1
    apply List.map_congr_left
    intro i _
    exact (congrArg Prod.snd (roundRun_cons hash cs during s i)).symm
  gone := by
    rw [roundRun_cons]
    exact later.gone
  published := by
    rw [roundRun_cons]
    exact later.published

/-- The rounds of an update go as the schedule has it. -/
theorem runRounds_went (sound : s.store.Sound) (there : s.store.get? hash = some base)
    (edit : Record → Record) (during : List (List Command)) :
    ∃ last seen, Went hash edit during s last seen (runRounds hash edit s base during).2
      (runRounds hash edit s base during).1 := by
  induction during generalizing s base with
  | nil =>
    have kept : (roundRun hash [] s 0).1.store.get? hash = some base := there
    have outcome := (sound.snapshot there).commit_cases (edit base.record)
    rw [there] at outcome
    rcases outcome with ⟨-, committed⟩ | ⟨absent, -⟩ | ⟨latest, other, found, -⟩
    · refine ⟨0, [base], ?_⟩
      rw [runRounds, committed]
      exact went_of_kept edit [] there kept
    -- nothing comes between the last start and its commit
    · cases absent
    · exact absurd (Option.some.inj found).symm other
  | cons cs during ih =>
    -- the snapshot outlives whatever the schedule does
    have taken : (runAll s cs).1.store.Snapshot hash base := by
      rw [store_runAll]
      exact (sound.snapshot there).writeAll _
    have outcome := taken.commit_cases (edit base.record)
    rcases outcome with ⟨kept, committed⟩ | ⟨absent, committed⟩ | ⟨latest, other, found, committed⟩
    · refine ⟨0, [base], ?_⟩
      rw [runRounds_cons, committed]
      have went := went_of_kept edit (cs :: during) there kept
      simpa using went
    · refine ⟨0, [base], ?_⟩
      rw [runRounds_cons, committed]
      have went := went_of_gone edit (cs :: during) there absent
      simpa using went
    · have later : ((runAll s cs).1.logged [.updateRetried hash]).store.Sound := by
        rw [State.store_logged, store_runAll]
        exact sound.writeAll _
      obtain ⟨last, seen, went⟩ := ih later found
      refine ⟨last + 1, base :: seen, ?_⟩
      rw [runRounds_cons, committed]
      exact went_of_superseded there found other went

/-! ## What does not matter, and what does -/

/-- What becomes of a commit, the published store apart, does not depend on what is committed. -/
theorem runRounds_edit (hash : TxHash) (edit edit' : Record → Record) (s : State) (base : Version)
    (during : List (List Command)) :
    (runRounds hash edit s base during).2 = (runRounds hash edit' s base during).2 := by
  induction during generalizing s base with
  | nil =>
    rw [runRounds, runRounds, Store.commit, Store.commit]
    cases s.store.get? hash with
    | none => rfl
    | some latest =>
      by_cases same : latest.serial = base.serial
      · simp only [if_pos same]
      · simp only [if_neg same]
  | cons cs during ih =>
    rw [runRounds_cons, runRounds_cons, Store.commit, Store.commit]
    cases (runAll s cs).1.store.get? hash with
    | none => rfl
    | some latest =>
      by_cases same : latest.serial = base.serial
      · simp only [if_pos same]
      · simp only [if_neg same, ih]

theorem store_roundStart (hash : TxHash) (during : List (List Command)) (s : State) (i : Nat) :
    ∃ writes, (roundStart hash during s i).store = s.store.writeAll writes := by
  induction i with
  | zero => exact ⟨[], rfl⟩
  | succ i ih =>
    obtain ⟨writes, before⟩ := ih
    refine ⟨writes ++ writesAll (roundStart hash during s i) (during.getD i []), ?_⟩
    rw [Store.writeAll_append, ← before, ← store_runAll]
    rfl

/-- A version is still there after the schedule of a round exactly if nothing was published under its
hash and nothing taken away there, at any depth of the schedule and whatever records were equal. -/
theorem get?_roundRun_iff {i : Nat} (sound : s.store.Sound)
    (there : (roundStart hash during s i).store.get? hash = some base) :
    (roundRun hash during s i).1.store.get? hash = some base ↔
      (roundStart hash during s i).store.Untouched hash
        (writesAll (roundStart hash during s i) (during.getD i [])) := by
  obtain ⟨writes, same⟩ := store_roundStart hash during s i
  have sound' : (roundStart hash during s i).store.Sound := same ▸ sound.writeAll writes
  rw [roundRun, store_runAll]
  exact Store.get?_writeAll_eq_iff sound' there _

/-! ## The main statement -/

/-- An update without a record answers so and does nothing. One with a record ends with the first
round that ends, as the schedule alone decides, so that it calls its edit at most once more than
the schedule has rounds. A round in which something is published under the hash or taken away there
is never one that publishes. -/
theorem update_run (reached : s.store.Reached) (hash : TxHash) (edit : Record → Record)
    (during : List (List Command)) :
    (s.store.get? hash = none →
      (Command.update hash edit during).run s = (s, .updated false [] [])) ∧
    (s.store.get? hash ≠ none → ∃ last seen rounds,
      Went hash edit during s last seen rounds ((Command.update hash edit during).run s).1 ∧
      ((Command.update hash edit during).run s).2 = rounds.reply) ∧
    (∀ edit', ((Command.update hash edit' during).run s).2 =
      ((Command.update hash edit during).run s).2) ∧
    ∀ i base, (roundStart hash during s i).store.get? hash = some base →
      ((roundRun hash during s i).1.store.get? hash = some base ↔
        (roundStart hash during s i).store.Untouched hash
          (writesAll (roundStart hash during s i) (during.getD i []))) := by
  refine ⟨?_, ?_, ?_, fun i base there => get?_roundRun_iff reached.sound there⟩
  · intro absent
    rw [Command.run, absent]
  · intro present
    obtain ⟨base, there⟩ := Option.ne_none_iff_exists'.mp present
    obtain ⟨last, seen, went⟩ := runRounds_went reached.sound there edit during
    refine ⟨last, seen, (runRounds hash edit s base during).2, ?_, ?_⟩
    · rw [Command.run, there]
      exact went
    · rw [Command.run, there]
  · intro edit'
    rw [Command.run, Command.run]
    cases s.store.get? hash with
    | none => rfl
    | some base => exact congrArg Rounds.reply (runRounds_edit hash edit' edit s base during)

/-- An equal record is published, the record is taken away and stored again, and another update comes
between: three rounds are overtaken, and the fourth publishes. -/
theorem update_run_overtaken :
    let hash : TxHash := ⟨"a"⟩
    let add (n : UInt64) (r : Record) : Record := { r with amount := r.amount + n }
    let s : State := { store := Store.empty.writeAll [.upsert (Record.new hash)] }
    let during : List (List Command) :=
      [[.upsert (Record.new hash)], [.remove hash, .insert (Record.new hash)],
        [.update hash (add 10) [[.update hash (add 100) []]]]]
    s.store.Reached ∧
      (∃ last seen rounds,
        Went hash (add 1) during s last seen rounds
          ((Command.update hash (add 1) during).run s).1 ∧
        ((Command.update hash (add 1) during).run s).2 = rounds.reply) ∧
      (((Command.update hash (add 1) during).run s).1.store.get? hash) =
        some ⟨{ Record.new hash with amount := 111 }, 5⟩ := by
  have reached : (Store.empty.writeAll [.upsert (Record.new ⟨"a"⟩)]).Reached :=
    ⟨_, _, .new, rfl⟩
  exact ⟨reached, (update_run reached _ _ _).2.1 (by decide), by decide⟩

end TransactionLookup.Session
