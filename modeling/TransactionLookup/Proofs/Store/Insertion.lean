import TransactionLookup.Proofs.Store.Loading

/-!
# Stores made by insertion

A store can be made from a list of records at once, or by inserting them one after the other. Both come
to the same contents or to the same fault (`made_by_insertion`), although the one looks for repeated
hashes in the list before anything is stored, and the other meets them in what is stored already.
-/

namespace TransactionLookup.Store

/-- Inserts records one after the other, up to the first that is refused. -/
def insertAll (s : Store) (records : List Record) : Except Fault Store := records.foldlM insert s

variable {s s' : Store} {r : Record} {records : List Record} {seen : List TxHash} {hash : TxHash}

@[simp] theorem insertAll_nil (s : Store) : s.insertAll [] = .ok s := rfl

theorem insertAll_cons (s : Store) (r : Record) (records : List Record) :
    s.insertAll (r :: records) =
      match s.insert r with
      | .error fault => .error fault
      | .ok s => s.insertAll records := by
  rw [insertAll, List.foldlM_cons]
  cases s.insert r <;> rfl

theorem insert_of_free (free : s.get? r.hash = none) : s.insert r = .ok (s.publish r.hash r) := by
  simp only [insert, free]

theorem insert_of_taken (taken : s.get? r.hash ≠ none) : s.insert r = .error (.duplicate r.hash) := by
  obtain ⟨version, there⟩ := Option.ne_none_iff_exists'.mp taken
  simp only [insert, there]

/-! ## One after the other -/

/-- Whether some hashes are those under which something is stored. -/
def KeyedBy (s : Store) (seen : List TxHash) : Prop := ∀ hash, hash ∈ seen ↔ s.get? hash ≠ none

theorem KeyedBy.publish (keyed : s.KeyedBy seen) (r : Record) :
    (s.publish r.hash r).KeyedBy (r.hash :: seen) := by
  intro hash
  by_cases same : hash = r.hash
  · subst same
    simp [get?_publish_self]
  · rw [get?_publish_of_ne same, ← keyed hash, List.mem_cons, or_iff_right same]

/-- The first hash that is there again is the one that is refused. -/
theorem insertAll_of_repeated (keyed : s.KeyedBy seen)
    (repeated : firstRepeated? seen records = some hash) :
    s.insertAll records = .error (.duplicate hash) := by
  induction records generalizing s seen with
  | nil => cases repeated
  | cons r records ih =>
    rw [firstRepeated?] at repeated
    rw [insertAll_cons]
    by_cases old : r.hash ∈ seen
    · rw [if_pos old, Option.some.injEq] at repeated
      rw [insert_of_taken ((keyed r.hash).mp old), repeated]
    · rw [if_neg old] at repeated
      have free : s.get? r.hash = none := Classical.not_not.mp (mt (keyed r.hash).mpr old)
      rw [insert_of_free free]
      exact ih (keyed.publish r) repeated

/-- Records with new hashes that are all different are inserted, each as it is. -/
theorem insertAll_of_unrepeated (keyed : s.KeyedBy seen)
    (unrepeated : firstRepeated? seen records = none) :
    ∃ s', s.insertAll records = .ok s' ∧ s'.size = s.size + records.length ∧
      ∀ hash, s'.record? hash =
        (records.find? fun r => r.hash == hash).or (s.record? hash) := by
  induction records generalizing s seen with
  | nil => exact ⟨s, rfl, rfl, fun hash => rfl⟩
  | cons r records ih =>
    rw [firstRepeated?] at unrepeated
    by_cases old : r.hash ∈ seen
    · rw [if_pos old] at unrepeated
      cases unrepeated
    · rw [if_neg old] at unrepeated
      have free : s.get? r.hash = none := Classical.not_not.mp (mt (keyed r.hash).mpr old)
      obtain ⟨s', made, grown, contents⟩ := ih (keyed.publish r) unrepeated
      refine ⟨s', ?_, ?_, ?_⟩
      · rw [insertAll_cons, insert_of_free free]
        exact made
      · -- nothing makes way for a record with a new hash
        have more : (s.publish r.hash r).size = s.size + 1 := by
          simp only [publish, size, List.length_cons, without_of_lookup_none free]
        rw [grown, more, List.length_cons]
        omega
      · intro hash
        rw [contents, List.find?_cons]
        by_cases same : hash = r.hash
        · subst same
          -- no later record has the hash of this one
          have later : (records.find? fun r' => r'.hash == r.hash) = none := by
            have different := ((firstRepeated?_eq_none_iff _ _).mp unrepeated).1
            rw [List.find?_eq_none]
            intro r' member equal
            exact different r' member (eq_of_beq equal ▸ List.mem_cons_self)
          rw [later, record?_publish_self, beq_self_eq_true]
          rfl
        · rw [record?_publish_of_ne same, beq_eq_false_iff_ne.mpr (Ne.symm same)]

/-! ## At once and one after the other -/

theorem keyedBy_nil : empty.KeyedBy [] := by
  intro hash
  simp [get?, empty]

/-- Making a store at once and by insertion fails alike, and gives the same contents. -/
theorem map_ledger_ofRecords (records : List Record) :
    (ofRecords records).map ledger = (empty.insertAll records).map ledger := by
  rw [ofRecords]
  cases repeated : firstRepeated? [] records with
  | some hash => rw [insertAll_of_repeated keyedBy_nil repeated]
  | none =>
    obtain ⟨s', made, -, contents⟩ := insertAll_of_unrepeated keyedBy_nil repeated
    rw [made]
    refine congrArg Except.ok (Finmap.ext_lookup fun hash => ?_)
    rw [lookup_ledger, lookup_ledger, contents, record?, get?, map_record_lookup_numbered]
    exact (Option.or_none).symm

/-- The first record that is refused, with those before it. -/
theorem exists_refused (repeated : FirstRepeat records hash) :
    ∃ before r after s, records = before ++ r :: after ∧ r.hash = hash ∧
      empty.insertAll before = .ok s ∧ s.insert r = .error (.duplicate hash) := by
  obtain ⟨before, r, after, split, rfl, known, distinct⟩ := repeated
  have unrepeated : firstRepeated? [] before = none :=
    (firstRepeated?_eq_none_iff [] before).mpr ⟨fun _ _ => List.not_mem_nil, distinct⟩
  obtain ⟨s, made, -, contents⟩ := insertAll_of_unrepeated keyedBy_nil unrepeated
  refine ⟨before, r, after, s, split, rfl, made, insert_of_taken ?_⟩
  -- a record before has the hash, so something is stored under it
  obtain ⟨r', member, same⟩ := List.mem_map.mp known
  have found : (before.find? fun r' => r'.hash == r.hash).isSome :=
    List.find?_isSome.mpr ⟨r', member, by simpa using same⟩
  intro absent
  have none := contents r.hash
  rw [record?, absent, Option.map_none, eq_comm, Option.or_eq_none_iff] at none
  rw [none.1] at found
  cases found

/-! ## The main statement -/

/-- A store is made of a list of records exactly if they can be inserted one after the other, which is if
no two have one hash; both ways lead to the same contents, with one entry for each record, in whatever
order they stand. Otherwise both report the hash of the first record that cannot be inserted after those
before it, which is the first whose hash has occurred, whatever comes later. -/
theorem made_by_insertion (records : List Record) :
    (ofRecords records).map ledger = (empty.insertAll records).map ledger ∧
    ((∃ s, ofRecords records = .ok s) ↔ (records.map Record.hash).Nodup) ∧
    (∀ s s', ofRecords records = .ok s → empty.insertAll records = .ok s' →
      s.size = records.length ∧ s'.size = records.length ∧
      (∀ hash r, s.record? hash = some r ↔ r ∈ records ∧ r.hash = hash) ∧
      ∀ records', records'.Perm records →
        ∃ t, ofRecords records' = .ok t ∧ t.ledger = s.ledger) ∧
    (∀ fault, ofRecords records = .error fault ↔
      ∃ hash, FirstRepeat records hash ∧ fault = .duplicate hash) ∧
    ∀ hash, FirstRepeat records hash →
      ∃ before r after s, records = before ++ r :: after ∧ r.hash = hash ∧
        empty.insertAll before = .ok s ∧ s.insert r = .error (.duplicate hash) := by
  refine ⟨map_ledger_ofRecords records, exists_ofRecords_iff, ?_, fun _ => ofRecords_eq_error_iff,
    fun _ => exists_refused⟩
  intro s s' made made'
  refine ⟨size_ofRecords made, ?_, record?_ofRecords made, ?_⟩
  · have unrepeated : firstRepeated? [] records = none :=
      (firstRepeated?_eq_none_iff [] records).mpr
        ⟨fun _ _ => List.not_mem_nil, exists_ofRecords_iff.mp ⟨s, made⟩⟩
    obtain ⟨t, inserted, size, -⟩ := insertAll_of_unrepeated keyedBy_nil unrepeated
    rw [inserted] at made'
    cases made'
    rw [size]
    exact Nat.zero_add _
  · intro records' same
    have distinct : (records'.map Record.hash).Nodup :=
      (same.map Record.hash).nodup_iff.mpr (exists_ofRecords_iff.mp ⟨s, made⟩)
    obtain ⟨t, made'⟩ := exists_ofRecords_iff.mpr distinct
    exact ⟨t, made', ledger_ofRecords_of_perm same made' made⟩

/-- Two orders of three records; and a list in which the second hash to occur twice is the first to occur
again. -/
theorem made_by_insertion_repeated :
    let r (text : String) (amount : UInt64) : Record := { hash := ⟨text⟩, amount }
    let records := [r "a" 1, r "b" 2, r "c" 3]
    let repeated := [r "a" 1, r "b" 2, r "b" 3, r "a" 4, r "c" 5]
    (∃ s t, ofRecords records = .ok s ∧ ofRecords [r "c" 3, r "a" 1, r "b" 2] = .ok t ∧
      t.ledger = s.ledger ∧ s.size = 3 ∧ s.record? ⟨"b"⟩ = some (r "b" 2)) ∧
    ofRecords repeated = .error (.duplicate ⟨"b"⟩) ∧
    ∃ before r' after s, repeated = before ++ r' :: after ∧ r'.hash = ⟨"b"⟩ ∧
      empty.insertAll before = .ok s ∧ s.insert r' = .error (.duplicate ⟨"b"⟩) := by
  intro r records repeated
  obtain ⟨-, made, contents, -, -⟩ := made_by_insertion records
  obtain ⟨-, -, -, faults, refused⟩ := made_by_insertion repeated
  have first : FirstRepeat repeated ⟨"b"⟩ :=
    ⟨[r "a" 1, r "b" 2], r "b" 3, [r "a" 4, r "c" 5], rfl, rfl, by decide, by decide⟩
  refine ⟨?_, (faults _).mpr ⟨_, first, rfl⟩, refused _ first⟩
  obtain ⟨s, once⟩ := made.mpr (by decide)
  obtain ⟨size, -, found, turned⟩ := contents s _ once rfl
  have rotated : [r "c" 3, r "a" 1, r "b" 2].Perm [r "a" 1, r "b" 2, r "c" 3] :=
    (List.perm_append_singleton (r "c" 3) [r "a" 1, r "b" 2]).symm
  obtain ⟨t, made', same⟩ := turned [r "c" 3, r "a" 1, r "b" 2] rotated
  exact ⟨s, t, once, made', same, size, (found _ _).mpr ⟨by simp [records], rfl⟩⟩

end TransactionLookup.Store
