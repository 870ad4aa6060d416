import TransactionLookup.Store.Basic

/-!
# Writes

All that ever changes a store is one of four writes, each made by one who has the store to himself. An
update is no write: it ends in one, a commit, and before that only reads.

A write leaves the store alone, publishes one record under its own hash, or takes one away
(`write_cases`). It changes nothing under other keys than its own, and nothing at all unless it is
admitted.
-/

namespace TransactionLookup

/-- What is done to a store in one go. -/
inductive Write
  | insert (r : Record)
  | upsert (r : Record)
  | remove (hash : TxHash)
  /-- The end of a round of an update that started from the version `base`. -/
  | commit (hash : TxHash) (base : Version) (next : Record)

/-- The hash under which a write may change something. -/
def Write.key : Write → TxHash
  | .insert r | .upsert r => r.hash
  | .remove hash | .commit hash _ _ => hash

namespace Store

/-- The store after a write. One that fails leaves it as it is. -/
def write (s : Store) : Write → Store
  | .insert r =>
    match s.insert r with
    | .ok store => store
    | .error _ => s
  | .upsert r => (s.upsert r).1
  | .remove hash => (s.remove hash).1
  | .commit hash base next =>
    match s.commit hash base next with
    | .published store => store
    | .gone | .superseded _ => s

/-- The store after writes one after the other. -/
def writeAll (s : Store) (writes : List Write) : Store := writes.foldl write s

/-- Whether a write has an effect: a new hash is given, something is there to be taken away, or the
version to be replaced is still there. -/
def Admits (s : Store) : Write → Prop
  | .insert r => s.get? r.hash = none
  | .upsert _ => True
  | .remove hash => s.get? hash ≠ none
  | .commit hash base _ => ∃ latest, s.get? hash = some latest ∧ latest.serial = base.serial

/-- Whether none of some writes has an effect under a hash. -/
def Untouched (s : Store) (hash : TxHash) (writes : List Write) : Prop :=
  ∀ before w after, writes = before ++ w :: after → w.key = hash →
    ¬ (s.writeAll before).Admits w

@[simp] theorem writeAll_nil (s : Store) : s.writeAll [] = s := rfl

@[simp] theorem writeAll_cons (s : Store) (w : Write) (writes : List Write) :
    s.writeAll (w :: writes) = (s.write w).writeAll writes := rfl

theorem writeAll_append (s : Store) (before after : List Write) :
    s.writeAll (before ++ after) = (s.writeAll before).writeAll after :=
  List.foldl_append

/-! ## What a write does -/

theorem without_of_lookup_none {hash : TxHash} {entries : List (TxHash × Version)}
    (absent : entries.lookup hash = none) : without hash entries = entries := by
  induction entries with
  | nil => rfl
  | cons e entries ih =>
    obtain ⟨key, version⟩ := e
    rw [List.lookup_cons] at absent
    cases same : hash == key with
    | true => simp [same] at absent
    | false =>
      simp only [same] at absent
      -- the entry has another key, so it stays
      have other : key ≠ hash := fun equal => by simp [equal] at same
      have tail := ih absent
      simp only [without] at tail ⊢
      rw [List.filter_cons_of_pos (by simpa using other), tail]

/-- Taking away what is not there changes nothing. -/
theorem erase_of_absent {s : Store} {hash : TxHash} (absent : s.get? hash = none) :
    s.erase hash = s := by
  simp only [erase, without_of_lookup_none absent]

/-- A write that is not admitted changes nothing. -/
theorem write_of_not_admits {s : Store} {w : Write} (refused : ¬ s.Admits w) : s.write w = s := by
  cases w with
  | insert r =>
    obtain ⟨version, there⟩ := Option.ne_none_iff_exists'.mp refused
    simp only [write, insert, there]
  | upsert r => exact absurd trivial refused
  | remove hash => exact erase_of_absent (Classical.not_not.mp refused)
  | commit hash base next =>
    -- either nothing is stored, or a version with another serial number
    simp only [Admits, not_exists, not_and] at refused
    cases found : s.get? hash with
    | none => simp only [write, commit, found]
    | some latest => simp only [write, commit, found, if_neg (refused latest found)]

/-- A write that is admitted publishes a record under its hash, or takes one away. -/
theorem write_of_admits {s : Store} {w : Write} (admitted : s.Admits w) :
    (∃ r, r.hash = w.key ∧ s.write w = s.publish w.key r) ∨
    (s.get? w.key ≠ none ∧ s.write w = s.erase w.key) := by
  cases w with
  | insert r =>
    have free : s.get? r.hash = none := admitted
    exact .inl ⟨r, rfl, by simp only [write, insert, free, Write.key]⟩
  | upsert r => exact .inl ⟨r, rfl, rfl⟩
  | remove hash => exact .inr ⟨admitted, rfl⟩
  | commit hash base next =>
    obtain ⟨latest, there, same⟩ := admitted
    exact .inl ⟨{ next with hash }, rfl, by simp only [write, commit, there, if_pos same, Write.key]⟩

/-- All that a write can do. -/
theorem write_cases (s : Store) (w : Write) :
    s.write w = s ∨ (∃ r, r.hash = w.key ∧ s.write w = s.publish w.key r) ∨
      (s.get? w.key ≠ none ∧ s.write w = s.erase w.key) := by
  by_cases admitted : s.Admits w
  · exact .inr (write_of_admits admitted)
  · exact .inl (write_of_not_admits admitted)

/-- A write changes nothing under other hashes than its own. -/
theorem get?_write_of_ne {s : Store} {w : Write} {other : TxHash} (different : other ≠ w.key) :
    (s.write w).get? other = s.get? other := by
  rcases write_cases s w with same | ⟨r, -, published⟩ | ⟨-, erased⟩
  · rw [same]
  · rw [published, get?_publish_of_ne different]
  · rw [erased, get?_erase_of_ne different]

/-- Nor do several. -/
theorem get?_writeAll_of_ne {s : Store} {writes : List Write} {other : TxHash}
    (different : ∀ w ∈ writes, other ≠ w.key) : (s.writeAll writes).get? other = s.get? other := by
  induction writes generalizing s with
  | nil => rfl
  | cons w writes ih =>
    obtain ⟨here, later⟩ := List.forall_mem_cons.mp different
    rw [writeAll_cons, ih later, get?_write_of_ne here]

theorem nextSerial_write_le (s : Store) (w : Write) : s.nextSerial ≤ (s.write w).nextSerial := by
  rcases write_cases s w with same | ⟨r, -, published⟩ | ⟨-, erased⟩
  · exact Nat.le_of_eq (congrArg nextSerial same.symm)
  · exact published ▸ Nat.le_succ s.nextSerial
  · exact erased ▸ Nat.le_refl s.nextSerial

theorem nextSerial_writeAll_le (s : Store) (writes : List Write) :
    s.nextSerial ≤ (s.writeAll writes).nextSerial := by
  induction writes generalizing s with
  | nil => exact Nat.le_refl _
  | cons w writes ih => exact Nat.le_trans (nextSerial_write_le s w) (ih (s.write w))

/-- Under the hash of a write there is afterwards what was there before, a version with a new serial
number, or nothing. -/
theorem get?_write_key (s : Store) (w : Write) {version : Version}
    (found : (s.write w).get? w.key = some version) :
    s.get? w.key = some version ∨ (version.serial = s.nextSerial ∧ version.record.hash = w.key ∧
      (s.write w).nextSerial = s.nextSerial + 1) := by
  rcases write_cases s w with same | ⟨r, keyed, published⟩ | ⟨-, erased⟩
  · rw [same] at found
    exact .inl found
  · rw [published, get?_publish_self] at found
    cases found
    exact .inr ⟨rfl, keyed, by rw [published]; rfl⟩
  · rw [erased, get?_erase_self] at found
    cases found

end Store

end TransactionLookup
