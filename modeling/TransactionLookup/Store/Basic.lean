import TransactionLookup.Store.Fault
import TransactionLookup.Transaction.Record

/-!
# The store

Records under their hashes. A record is published as a whole, as a version with a serial number of its
own, so that two versions can be told apart even where their records are equal. A record is changed by
taking a snapshot of its version, making the next record from it, and committing that: the commit is
refused when another version has been published meanwhile, or the record has been removed.
-/

namespace TransactionLookup

/-- A published record. No two publications have one serial number. -/
structure Version where
  record : Record
  serial : Nat
  deriving DecidableEq, Repr

/-- The published records, and the serial number of the next publication. -/
structure Store where
  entries : List (TxHash × Version)
  nextSerial : Nat
  deriving DecidableEq, Repr

/-- What becomes of a commit. -/
inductive Commit
  | published (store : Store)
  /-- The record is no longer there. -/
  | gone
  /-- Another version is there now. -/
  | superseded (latest : Version)

namespace Store

def empty : Store := ⟨[], 0⟩

def size (s : Store) : Nat := s.entries.length

def get? (s : Store) (hash : TxHash) : Option Version := s.entries.lookup hash

def record? (s : Store) (hash : TxHash) : Option Record := (s.get? hash).map Version.record

/-- The entries without that of a hash. -/
def without (hash : TxHash) (entries : List (TxHash × Version)) : List (TxHash × Version) :=
  entries.filter fun e => e.1 ≠ hash

/-- Publishes a record under a hash, in the place of what was there. -/
def publish (s : Store) (hash : TxHash) (r : Record) : Store :=
  ⟨(hash, ⟨r, s.nextSerial⟩) :: without hash s.entries, s.nextSerial + 1⟩

def erase (s : Store) (hash : TxHash) : Store := { s with entries := without hash s.entries }

def insert (s : Store) (r : Record) : Except Fault Store :=
  match s.get? r.hash with
  | some _ => .error (.duplicate r.hash)
  | none => .ok (s.publish r.hash r)

/-- Stores a record, and gives the one whose place it takes. -/
def upsert (s : Store) (r : Record) : Store × Option Record :=
  (s.publish r.hash r, s.record? r.hash)

/-- Takes a record away, and gives it. -/
def remove (s : Store) (hash : TxHash) : Store × Option Record := (s.erase hash, s.record? hash)

/-- Publishes a record made from a version, if that version is still there. The record keeps the hash
under which it is stored. -/
def commit (s : Store) (hash : TxHash) (base : Version) (next : Record) : Commit :=
  match s.get? hash with
  | none => .gone
  | some latest =>
    -- an equal record published since is another version
    if latest.serial = base.serial then .published (s.publish hash { next with hash })
    else .superseded latest

/-- The first hash of a list of records that occurred before it, or among hashes already seen. -/
def firstRepeated? (seen : List TxHash) : List Record → Option TxHash
  | [] => none
  | r :: records =>
    if r.hash ∈ seen then some r.hash else firstRepeated? (r.hash :: seen) records

/-- Records with serial numbers in their order. -/
def numbered (serial : Nat) : List Record → List (TxHash × Version)
  | [] => []
  | r :: records => (r.hash, ⟨r, serial⟩) :: numbered (serial + 1) records

/-- The store of the given records, which have to have different hashes. -/
def ofRecords (records : List Record) : Except Fault Store :=
  match firstRepeated? [] records with
  | some hash => .error (.duplicate hash)
  | none => .ok ⟨numbered 0 records, records.length⟩

theorem lookup_without_self (hash : TxHash) (entries : List (TxHash × Version)) :
    (without hash entries).lookup hash = none := by
  induction entries with
  | nil => rfl
  | cons e entries ih =>
    obtain ⟨key, version⟩ := e
    by_cases same : key = hash
    · simpa [without, same] using ih
    · have other : (hash == key) = false := by simp [Ne.symm same]
      simpa [without, same, List.lookup_cons, other] using ih

theorem lookup_without_of_ne {hash other : TxHash} (different : other ≠ hash)
    (entries : List (TxHash × Version)) :
    (without hash entries).lookup other = entries.lookup other := by
  induction entries with
  | nil => rfl
  | cons e entries ih =>
    obtain ⟨key, version⟩ := e
    by_cases same : key = hash
    · have apart : (other == hash) = false := by simp [different]
      simpa [without, same, List.lookup_cons, apart] using ih
    · cases apart : other == key with
      | true => simp [without, same, List.lookup_cons, apart]
      | false => simpa [without, same, List.lookup_cons, apart] using ih

theorem get?_publish_self (s : Store) (hash : TxHash) (r : Record) :
    (s.publish hash r).get? hash = some ⟨r, s.nextSerial⟩ := by
  simp [publish, get?]

theorem get?_publish_of_ne {hash other : TxHash} (different : other ≠ hash) (s : Store)
    (r : Record) : (s.publish hash r).get? other = s.get? other := by
  have apart : (other == hash) = false := by simp [different]
  simp only [publish, get?, List.lookup_cons, apart]
  exact lookup_without_of_ne different s.entries

theorem get?_erase_self (s : Store) (hash : TxHash) : (s.erase hash).get? hash = none :=
  lookup_without_self hash s.entries

theorem get?_erase_of_ne {hash other : TxHash} (different : other ≠ hash) (s : Store) :
    (s.erase hash).get? other = s.get? other :=
  lookup_without_of_ne different s.entries

end Store

end TransactionLookup
