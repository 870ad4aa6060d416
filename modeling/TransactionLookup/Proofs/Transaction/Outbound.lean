import Mathlib.Data.List.Induction
import Mathlib.Data.List.Nodup
import TransactionLookup.Transaction.Record

/-!
# Recorded outbound transactions

What becomes of a record in which outbound transactions are recorded one after the other
(`outs_recorded`). Of the recordings of one transaction only the first counts. It puts the transaction
behind those that are recorded, and if there are enough of them then, it sets the status: the status is
that of the last recording of this kind.
-/

namespace TransactionLookup

/-- The recording of an outbound transaction, with the status that it is to bring. -/
structure Recording where
  status : Status
  out : TxHash
  deriving DecidableEq, Repr

/-- The change that a recording makes. -/
def Recording.edit (c : Recording) : Edit := .addOut c.status c.out

/-- The recording that a change is, if it is one. A mark is a recording with a status of its own. -/
def Edit.recording? : Edit → Option Recording
  | .addOut status hash => some ⟨status, hash⟩
  | .markDone hash => some ⟨.done, hash⟩
  | .markReverted hash => some ⟨.reverted, hash⟩
  | _ => none

/-- The transactions of some recordings that are not known before, each once, in the order in which they
come up first. -/
def newOuts (known : List TxHash) (recordings : List Recording) : List TxHash :=
  ((recordings.map Recording.out).filter (· ∉ known)).eraseDups

theorem mem_newOuts_iff {known : List TxHash} {recordings : List Recording} {hash : TxHash} :
    hash ∈ newOuts known recordings ↔ hash ∉ known ∧ ∃ c ∈ recordings, c.out = hash := by
  simp [newOuts, and_comm]

/-- A recording brings something new if its transaction is neither known nor recorded before it. -/
theorem newOuts_append_one (known : List TxHash) (recordings : List Recording) (c : Recording) :
    newOuts known (recordings ++ [c]) =
      if c.out ∈ known ++ newOuts known recordings then newOuts known recordings
      else newOuts known recordings ++ [c.out] := by
  by_cases old : c.out ∈ known
  · simp [newOuts, old]
  · by_cases recorded : ∃ d ∈ recordings, d.out = c.out
    · have again : c.out ∈ newOuts known recordings := mem_newOuts_iff.mpr ⟨old, recorded⟩
      rw [if_pos (List.mem_append_right _ again)]
      simp [newOuts, List.eraseDups_append, List.removeAll, old, recorded]
    · have unknown : c.out ∉ known ++ newOuts known recordings := by
        simp [mem_newOuts_iff, old, recorded]
      rw [if_neg unknown]
      simp [newOuts, List.eraseDups_append, List.removeAll, List.eraseDups_cons, old, recorded]

theorem nodup_newOuts (known : List TxHash) (recordings : List Recording) :
    (newOuts known recordings).Nodup := by
  induction recordings using List.reverseRecOn with
  | nil => simp [newOuts]
  | append_singleton recordings c ih =>
    rw [newOuts_append_one]
    split
    · exact ih
    next unknown =>
      have apart : c.out ∉ newOuts known recordings := mt (List.mem_append_right known) unknown
      refine List.nodup_append.mpr ⟨ih, List.nodup_singleton _, ?_⟩
      rintro hash member other here rfl
      exact apart (List.mem_singleton.mp here ▸ member)

namespace Record

/-! ## One recording -/

variable {r : Record} {status : Status} {hash : TxHash}

theorem addOut_of_mem (known : hash ∈ r.outHashes) : r.addOut status hash = r := if_pos known

theorem addOut_of_notMem (unknown : hash ∉ r.outHashes) :
    r.addOut status hash =
      { r with
        outHashes := r.outHashes ++ [hash]
        status := if r.numOuts.toNat ≤ r.outHashes.length + 1 then status else r.status } := by
  simp [addOut, unknown]

/-- Whether a record is incomplete just as long as nothing or too little is recorded in it. -/
def Waits (r : Record) : Prop :=
  r.status = .incomplete ↔ r.outHashes = [] ∨ r.outHashes.length < r.numOuts.toNat

theorem Waits.addOut (waits : r.Waits) (terminal : status ≠ .incomplete) (hash : TxHash) :
    (r.addOut status hash).Waits := by
  by_cases known : hash ∈ r.outHashes
  · rw [addOut_of_mem known]
    exact waits
  · rw [addOut_of_notMem known]
    simp only [Waits, List.append_eq_nil_iff, List.cons_ne_nil, and_false, false_or,
      List.length_append, List.length_singleton]
    split
    next enough => exact iff_of_false terminal (Nat.not_lt.mpr enough)
    next few =>
      -- with one transaction fewer there were too few as well
      have before : r.status = .incomplete := waits.mpr (.inr (by omega))
      exact iff_of_true before (Nat.not_le.mp few)

theorem numOuts_addOut (status : Status) (hash : TxHash) (r : Record) :
    (r.addOut status hash).numOuts = r.numOuts := by
  by_cases known : hash ∈ r.outHashes
  · rw [addOut_of_mem known]
  · rw [addOut_of_notMem known]

/-- Marks are recordings with a status of their own, which is never that of a record that waits. -/
theorem waits_marks {marks : List (Record → Record)}
    (only : ∀ mark ∈ marks, ∃ hash, mark = markDone hash ∨ mark = markReverted hash)
    (waits : r.Waits) :
    (marks.foldl (fun r mark => mark r) r).Waits ∧
      (marks.foldl (fun r mark => mark r) r).numOuts = r.numOuts := by
  induction marks generalizing r with
  | nil => exact ⟨waits, rfl⟩
  | cons mark marks ih =>
    obtain ⟨first, later⟩ := List.forall_mem_cons.mp only
    have step : (mark r).Waits ∧ (mark r).numOuts = r.numOuts := by
      obtain ⟨hash, rfl | rfl⟩ := first
      · exact ⟨waits.addOut (by decide) hash, numOuts_addOut .done hash r⟩
      · exact ⟨waits.addOut (by decide) hash, numOuts_addOut .reverted hash r⟩
    obtain ⟨still, expected⟩ := ih later step.1
    exact ⟨still, expected.trans step.2⟩

/-! ## Recordings one after the other -/

/-- A record with some recordings. -/
def recorded (r : Record) (recordings : List Recording) : Record :=
  Edit.applyAll (recordings.map Recording.edit) r

theorem recorded_append (r : Record) (before after : List Recording) :
    r.recorded (before ++ after) = (r.recorded before).recorded after := by
  simp [recorded, Edit.applyAll]

theorem recorded_cons (r : Record) (c : Recording) (recordings : List Recording) :
    r.recorded (c :: recordings) = (r.addOut c.status c.out).recorded recordings := rfl

theorem recorded_append_one (r : Record) (recordings : List Recording) (c : Recording) :
    r.recorded (recordings ++ [c]) = (r.recorded recordings).addOut c.status c.out := by
  rw [recorded_append]
  rfl

theorem apply_of_recording {e : Edit} {c : Recording} (recording : e.recording? = some c)
    (r : Record) : e.apply r = r.addOut c.status c.out := by
  cases e with
  | addOut | markDone | markReverted =>
    cases recording
    rfl
  -- no other change is a recording
  | _ => cases recording

/-- It does not matter whether a recording is made as such or as a mark. -/
theorem applyAll_of_recordings {calls : List Edit} {recordings : List Recording}
    (made : calls.map Edit.recording? = recordings.map some) (r : Record) :
    Edit.applyAll calls r = r.recorded recordings := by
  -- by induction on the calls, each of which makes the first of the recordings that are left
  induction calls generalizing recordings r with
  | nil =>
    obtain rfl := List.map_eq_nil_iff.mp made.symm
    rfl
  | cons e calls ih =>
    obtain ⟨c, more, rfl, first, later⟩ := List.map_eq_cons_iff.mp made.symm
    rw [recorded_cons, ← apply_of_recording first.symm, ← ih later.symm]
    rfl

/-- Recordings touch nothing but the recorded transactions and the status. -/
theorem others_recorded (r : Record) (recordings : List Recording) :
    r.recorded recordings =
      { r with
        outHashes := (r.recorded recordings).outHashes
        status := (r.recorded recordings).status } := by
  induction recordings using List.reverseRecOn with
  | nil => rfl
  | append_singleton recordings c ih =>
    rw [recorded_append_one]
    by_cases known : c.out ∈ (r.recorded recordings).outHashes
    · rw [addOut_of_mem known]
      exact ih
    · rw [addOut_of_notMem known, ih]

theorem outHashes_recorded (r : Record) (recordings : List Recording) :
    (r.recorded recordings).outHashes = r.outHashes ++ newOuts r.outHashes recordings := by
  induction recordings using List.reverseRecOn with
  | nil => simp [recorded, Edit.applyAll, newOuts]
  | append_singleton recordings c ih =>
    rw [recorded_append_one, newOuts_append_one]
    by_cases known : c.out ∈ r.outHashes ++ newOuts r.outHashes recordings
    · rw [if_pos known, addOut_of_mem (ih ▸ known), ih]
    · rw [if_neg known, addOut_of_notMem (ih ▸ known), ih, List.append_assoc]

theorem mem_outHashes_recorded_iff {recordings : List Recording} :
    hash ∈ (r.recorded recordings).outHashes ↔
      hash ∈ r.outHashes ∨ ∃ c ∈ recordings, c.out = hash := by
  rw [outHashes_recorded, List.mem_append, mem_newOuts_iff]
  by_cases known : hash ∈ r.outHashes <;> simp [known]

/-! ## The status -/

/-- Whether the recording at a place is the first of its transaction, and with it there are as many
transactions as the record expects, or more. -/
structure Completes (r : Record) (recordings : List Recording) (place : Nat) (c : Recording) :
    Prop where
  here : recordings[place]? = some c
  unknown : c.out ∉ r.outHashes
  first : ∀ earlier ∈ recordings.take place, earlier.out ≠ c.out
  enough : r.numOuts.toNat ≤
    r.outHashes.length + (newOuts r.outHashes (recordings.take (place + 1))).length

/-- What comes later does not matter. -/
theorem completes_append_iff {before after : List Recording} {place : Nat} {c : Recording}
    (within : place < before.length) :
    Completes r (before ++ after) place c ↔ Completes r before place c := by
  have here : (before ++ after)[place]? = before[place]? := List.getElem?_append_left within
  have earlier : (before ++ after).take place = before.take place :=
    List.take_append_of_le_length (Nat.le_of_lt within)
  have now : (before ++ after).take (place + 1) = before.take (place + 1) :=
    List.take_append_of_le_length within
  constructor
  · rintro ⟨h, unknown, first, enough⟩
    exact ⟨here ▸ h, unknown, earlier ▸ first, now ▸ enough⟩
  · rintro ⟨h, unknown, first, enough⟩
    exact ⟨here ▸ h, unknown, earlier ▸ first, now ▸ enough⟩

theorem completes_last_iff {recordings : List Recording} {c d : Recording} :
    Completes r (recordings ++ [c]) recordings.length d ↔
      d = c ∧ c.out ∉ (r.recorded recordings).outHashes ∧
        r.numOuts.toNat ≤ (r.recorded (recordings ++ [c])).outHashes.length := by
  have now : (recordings ++ [c]).take (recordings.length + 1) = recordings ++ [c] :=
    List.take_of_length_le (by simp)
  rw [mem_outHashes_recorded_iff, outHashes_recorded, List.length_append]
  constructor
  · rintro ⟨here, unknown, first, enough⟩
    obtain rfl : c = d := by simpa using here
    rw [List.take_left] at first
    rw [now] at enough
    exact ⟨rfl, by simpa [unknown] using first, enough⟩
  · rintro ⟨rfl, unknown, enough⟩
    obtain ⟨unknown, first⟩ := not_or.mp unknown
    refine ⟨by simp, unknown, ?_, by rwa [now]⟩
    rw [List.take_left]
    exact fun earlier member same => first ⟨earlier, member, same⟩

theorem Completes.lt {recordings : List Recording} {place : Nat} {c : Recording}
    (completes : Completes r recordings place c) : place < recordings.length :=
  (List.getElem?_eq_some_iff.mp completes.here).1

/-- Whether a status is that of the last recording that completes the record, or is the record's own if
there is none. -/
def Settles (r : Record) (recordings : List Recording) (status : Status) : Prop :=
  (∃ place c, Completes r recordings place c ∧
    (∀ later d, Completes r recordings later d → later ≤ place) ∧ status = c.status) ∨
  ((∀ place c, ¬ Completes r recordings place c) ∧ status = r.status)

/-- A recording that completes nothing leaves the status as it is settled. -/
theorem Settles.append_one {recordings : List Recording} (settles : Settles r recordings status)
    {c : Recording} (idle : ∀ d, ¬ Completes r (recordings ++ [c]) recordings.length d) :
    Settles r (recordings ++ [c]) status := by
  -- what completes with the new recording there did so without it
  have before : ∀ {place d}, Completes r (recordings ++ [c]) place d →
      Completes r recordings place d := by
    intro place d completes
    have bound := completes.lt
    rw [List.length_append, List.length_singleton] at bound
    rcases Nat.lt_succ_iff_lt_or_eq.mp bound with within | rfl
    · exact (completes_append_iff within).mp completes
    · exact absurd completes (idle d)
  rcases settles with ⟨place, d, completes, last, same⟩ | ⟨none, same⟩
  · left
    refine ⟨place, d, (completes_append_iff completes.lt).mpr completes, ?_, same⟩
    exact fun later e completes => last later e (before completes)
  · right
    exact ⟨fun place d completes => none place d (before completes), same⟩

theorem settles_recorded (r : Record) (recordings : List Recording) :
    Settles r recordings (r.recorded recordings).status := by
  -- by induction on the number of recordings, of which the last one may be what settles the status
  induction recordings using List.reverseRecOn with
  | nil =>
    right
    exact ⟨fun place c completes => absurd completes.lt (Nat.not_lt_zero _), rfl⟩
  | append_singleton recordings c ih =>
    by_cases known : c.out ∈ (r.recorded recordings).outHashes
    · rw [recorded_append_one, addOut_of_mem known]
      exact ih.append_one fun d completes => (completes_last_iff.mp completes).2.1 known
    · have numOuts : (r.recorded recordings).numOuts = r.numOuts := by rw [others_recorded]
      have last := recorded_append_one r recordings c
      rw [addOut_of_notMem known, numOuts] at last
      have length : (r.recorded (recordings ++ [c])).outHashes.length =
          (r.recorded recordings).outHashes.length + 1 := by rw [last]; simp
      rw [last]
      dsimp only
      split
      next enough =>
        left
        refine ⟨recordings.length, c, completes_last_iff.mpr ⟨rfl, known, length ▸ enough⟩, ?_, rfl⟩
        intro later d completes
        have bound := completes.lt
        rw [List.length_append, List.length_singleton] at bound
        omega
      next few =>
        refine ih.append_one fun d completes => few ?_
        exact length ▸ (completes_last_iff.mp completes).2.2

/-! ## The main statement -/

/-- After some recordings a record has the transactions that it had, and behind them the new ones in
their order. Its status is that of the last recording by which it was complete. A transaction that is
recorded already changes nothing, whatever its status; so none is there twice, and a record that has
only been marked is incomplete as long as nothing or too little is recorded. All this holds of marks as
well, each of which is the recording with its status. -/
theorem outs_recorded (r : Record) (recordings : List Recording) :
    (r.recorded recordings).outHashes = r.outHashes ++ newOuts r.outHashes recordings ∧
    Settles r recordings (r.recorded recordings).status ∧
    r.recorded recordings =
      { r with
        outHashes := (r.recorded recordings).outHashes
        status := (r.recorded recordings).status } ∧
    (∀ before c after, recordings = before ++ c :: after →
      (c.out ∈ r.outHashes ∨ ∃ d ∈ before, d.out = c.out) →
      r.recorded recordings = r.recorded (before ++ after)) ∧
    (newOuts r.outHashes recordings).Nodup ∧
    (r.outHashes.Nodup → (r.recorded recordings).outHashes.Nodup) ∧
    (∀ calls : List Edit, calls.map Edit.recording? = recordings.map some →
      Edit.applyAll calls r = r.recorded recordings) ∧
    ∀ marks : List (Record → Record),
      (∀ mark ∈ marks, ∃ hash, mark = markDone hash ∨ mark = markReverted hash) →
      r.status = .incomplete → r.outHashes = [] →
      let marked := marks.foldl (fun r mark => mark r) r
      (marked.status = .incomplete ↔
        marked.outHashes = [] ∨ marked.outHashes.length < r.numOuts.toNat) := by
  have outs := outHashes_recorded r recordings
  have once := nodup_newOuts r.outHashes recordings
  refine ⟨outs, settles_recorded r recordings, others_recorded r recordings, ?_, once, ?_,
    fun calls made => applyAll_of_recordings made r, ?_⟩
  · rintro before c after rfl known
    have recorded : c.out ∈ (r.recorded before).outHashes := mem_outHashes_recorded_iff.mpr known
    rw [recorded_append, recorded_append, recorded_cons, addOut_of_mem recorded]
  · intro distinct
    rw [outs]
    refine List.nodup_append.mpr ⟨distinct, once, ?_⟩
    rintro hash known other new rfl
    exact (mem_newOuts_iff.mp new).1 known
  · intro marks only incomplete none
    obtain ⟨waits, expected⟩ := waits_marks only (iff_of_true incomplete (.inl none))
    rw [Waits, expected] at waits
    exact waits

/-- A transaction that is recorded already does not complete the record, one that comes late changes the
status again, and a repetition in between makes no difference. Two marks of one transaction leave a
record that expects two incomplete. -/
theorem outs_recorded_late :
    let r : Record := { hash := ⟨"in"⟩, numOuts := 2, outHashes := [⟨"x"⟩] }
    let before : List Recording := [⟨.reverted, ⟨"x"⟩⟩, ⟨.done, ⟨"a"⟩⟩]
    let again : Recording := ⟨.incomplete, ⟨"a"⟩⟩
    let after : List Recording := [⟨.reverted, ⟨"b"⟩⟩]
    let new : Record := { hash := ⟨"in"⟩, numOuts := 2 }
    (r.recorded (before ++ again :: after)).outHashes = [⟨"x"⟩, ⟨"a"⟩, ⟨"b"⟩] ∧
      (r.recorded (before ++ again :: after)).outHashes.Nodup ∧
      Settles r (before ++ again :: after) .reverted ∧
      r.recorded (before ++ again :: after) = r.recorded (before ++ after) ∧
      Edit.applyAll [.markReverted ⟨"x"⟩, .markDone ⟨"a"⟩, .addOut .incomplete ⟨"a"⟩,
        .markReverted ⟨"b"⟩] r = r.recorded (before ++ again :: after) ∧
      ((markDone ⟨"a"⟩ (markReverted ⟨"a"⟩ new)).status = .incomplete ↔
        (markDone ⟨"a"⟩ (markReverted ⟨"a"⟩ new)).outHashes = [] ∨
          (markDone ⟨"a"⟩ (markReverted ⟨"a"⟩ new)).outHashes.length < 2) := by
  intro r before again after new
  obtain ⟨outs, settles, -, repeated, -, distinct, called, -⟩ := outs_recorded r (before ++ again :: after)
  have only : ∀ mark ∈ [markReverted ⟨"a"⟩, markDone ⟨"a"⟩],
      ∃ hash, mark = markDone hash ∨ mark = markReverted hash :=
    List.forall_mem_cons.mpr ⟨⟨_, .inr rfl⟩, List.forall_mem_singleton.mpr ⟨_, .inl rfl⟩⟩
  obtain ⟨-, -, -, -, -, -, -, marks⟩ := outs_recorded new []
  have marked := marks _ only rfl rfl
  exact ⟨outs.trans (by decide), distinct (by decide), settles,
    repeated before again after rfl (.inr ⟨⟨.done, ⟨"a"⟩⟩, by decide, rfl⟩),
    called _ rfl, marked⟩

end Record

end TransactionLookup
