import TransactionLookup.Proofs.Store.Identity
import Mathlib.Data.Finmap

/-!
# What a store shows

The contents of a store as a finite map from hashes to records, without serial numbers and without an
order. Publishing is insertion into this map and taking away is removal from it.
-/

namespace TransactionLookup

/-- Records under their hashes. -/
abbrev Ledger := Finmap fun _ : TxHash => Record

namespace Store

/-- The contents of a store. -/
def ledger (s : Store) : Ledger :=
  (s.entries.map fun e => (⟨e.1, e.2.record⟩ : Sigma fun _ : TxHash => Record)).toFinmap

theorem lookup_ledger (s : Store) (hash : TxHash) : s.ledger.lookup hash = s.record? hash := by
  rw [ledger, Finmap.dlookup_list_toFinmap, record?, get?]
  induction s.entries with
  | nil => rfl
  | cons e entries ih =>
    obtain ⟨key, version⟩ := e
    rw [List.map_cons, List.lookup_cons]
    by_cases same : hash = key
    · subst same
      rw [List.dlookup_cons_eq, beq_self_eq_true]
      rfl
    · rw [List.dlookup_cons_ne _ _ same, ih, beq_eq_false_iff_ne.mpr same]

theorem lookup_ledger_of_some {s : Store} {hash : TxHash} {version : Version}
    (found : s.get? hash = some version) : s.ledger.lookup hash = some version.record := by
  rw [lookup_ledger, record?, found, Option.map_some]

theorem lookup_ledger_of_none {s : Store} {hash : TxHash} (absent : s.get? hash = none) :
    s.ledger.lookup hash = none := by
  rw [lookup_ledger, record?, absent, Option.map_none]

theorem record?_publish_self (s : Store) (hash : TxHash) (r : Record) :
    (s.publish hash r).record? hash = some r := by
  rw [record?, get?_publish_self]
  rfl

theorem record?_publish_of_ne {hash other : TxHash} (different : other ≠ hash) (s : Store)
    (r : Record) : (s.publish hash r).record? other = s.record? other := by
  rw [record?, record?, get?_publish_of_ne different]

theorem ledger_publish (s : Store) (hash : TxHash) (r : Record) :
    (s.publish hash r).ledger = s.ledger.insert hash r := by
  apply Finmap.ext_lookup
  intro other
  rw [lookup_ledger]
  by_cases same : other = hash
  · subst same
    rw [Finmap.lookup_insert, record?_publish_self]
  · rw [Finmap.lookup_insert_of_ne _ same, lookup_ledger, record?_publish_of_ne same]

theorem ledger_erase (s : Store) (hash : TxHash) :
    (s.erase hash).ledger = s.ledger.erase hash := by
  apply Finmap.ext_lookup
  intro other
  rw [lookup_ledger, record?]
  by_cases same : other = hash
  · subst same
    rw [Finmap.lookup_erase, get?_erase_self]
    rfl
  · rw [Finmap.lookup_erase_ne same, lookup_ledger, get?_erase_of_ne same, record?]

/-! ## The hashes that are stored -/

theorem mem_keys_ledger_iff {s : Store} {hash : TxHash} :
    hash ∈ s.ledger.keys ↔ ∃ r, s.record? hash = some r := by
  rw [Finmap.mem_keys, Finmap.mem_iff]
  simp only [lookup_ledger]

theorem mem_keys_ledger_iff_get? {s : Store} {hash : TxHash} :
    hash ∈ s.ledger.keys ↔ s.get? hash ≠ none := by
  simp [mem_keys_ledger_iff, record?, Option.ne_none_iff_exists']

theorem keys_ledger_publish (s : Store) (hash : TxHash) (r : Record) :
    (s.publish hash r).ledger.keys = Insert.insert hash s.ledger.keys := by
  ext other
  simp [ledger_publish, Finmap.mem_keys, Finmap.mem_insert, eq_comm]

theorem keys_ledger_erase (s : Store) (hash : TxHash) :
    (s.erase hash).ledger.keys = s.ledger.keys.erase hash := by
  rw [ledger_erase, Finmap.keys_erase]

/-- A store that has one entry at most for a hash has as many as there are records in its ledger. -/
theorem card_keys_ledger {s : Store} (single : (s.entries.map Prod.fst).Nodup) :
    s.ledger.keys.card = s.size := by
  -- the keys of the ledger are those of the entries, of which none is there twice
  have same : s.ledger.keys = (s.entries.map Prod.fst).toFinset := by
    ext hash
    rw [Finmap.mem_keys, ledger, Finmap.mem_list_toFinmap]
    simp
  rw [same, List.toFinset_card_of_nodup single, List.length_map, size]

end Store

end TransactionLookup
