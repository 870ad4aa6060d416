import Mathlib
import TransactionLookup.Transaction.Record

/-!
# Confirmations

A confirmation records an outbound transaction as sent and adds to the amount of the record. What a
record that waits for all its outbound transactions has become after some confirmations (`Confirmed`)
does not depend on their order, but for that of the recorded hashes.
-/

namespace TransactionLookup

/-- A record as it is stored under a hash. -/
def Record.keyed (hash : TxHash) (r : Record) : Record := { r with hash }

theorem Record.keyed_self {hash : TxHash} {r : Record} (own : r.hash = hash) : r.keyed hash = r := by
  rw [keyed, ← own]

/-- An outbound transaction that has been sent, and what it adds to the amount. -/
structure Confirmation where
  out : TxHash
  amount : UInt64
  deriving DecidableEq, Repr

namespace Confirmation

/-- The change that a confirmation makes. -/
def edit (c : Confirmation) : Record → Record :=
  Edit.applyAll [.markDone c.out, .addAmount c.amount]

/-- The number of different transactions that are confirmed. -/
def distinct (confirmations : List Confirmation) : Nat :=
  (confirmations.map Confirmation.out).toFinset.card

variable {c : Confirmation} {r : Record}

theorem edit_of_mem (known : c.out ∈ r.outHashes) :
    c.edit r = { r with amount := r.amount + c.amount } := by
  simp only [edit, Edit.applyAll, List.foldl_cons, List.foldl_nil, Edit.apply, Record.markDone,
    Record.addOut, if_pos known]

theorem edit_of_notMem (unknown : c.out ∉ r.outHashes) :
    c.edit r =
      { r with
        outHashes := r.outHashes ++ [c.out]
        status := if r.numOuts.toNat ≤ r.outHashes.length + 1 then .done else r.status
        amount := r.amount + c.amount } := by
  simp only [edit, Edit.applyAll, List.foldl_cons, List.foldl_nil, Edit.apply, Record.markDone,
    Record.addOut, if_neg unknown, List.length_append, List.length_cons, List.length_nil,
    Nat.zero_add]

theorem mem_outHashes_edit {hash : TxHash} :
    hash ∈ (c.edit r).outHashes ↔ hash ∈ r.outHashes ∨ c.out = hash := by
  by_cases known : c.out ∈ r.outHashes
  · rw [edit_of_mem known]
    refine ⟨.inl, ?_⟩
    rintro (old | rfl)
    · exact old
    · exact known
  · rw [edit_of_notMem known, List.mem_append, List.mem_singleton, eq_comm (a := hash)]

theorem nodup_outHashes_edit (once : r.outHashes.Nodup) : (c.edit r).outHashes.Nodup := by
  by_cases known : c.out ∈ r.outHashes
  · rw [edit_of_mem known]
    exact once
  · rw [edit_of_notMem known]
    exact List.nodup_append.mpr ⟨once, List.nodup_singleton _, by grind⟩

theorem amount_edit (c : Confirmation) (r : Record) : (c.edit r).amount = r.amount + c.amount := by
  by_cases known : c.out ∈ r.outHashes
  · rw [edit_of_mem known]
  · rw [edit_of_notMem known]

theorem others_edit (c : Confirmation) (r : Record) :
    c.edit r =
      { r with
        status := (c.edit r).status
        amount := (c.edit r).amount
        outHashes := (c.edit r).outHashes } := by
  by_cases known : c.out ∈ r.outHashes
  · rw [edit_of_mem known]
  · rw [edit_of_notMem known]

end Confirmation

open Confirmation

/-- Whether a record with no outbound transaction has become another by some confirmations. -/
structure Confirmed (r : Record) (confirmations : List Confirmation) (r' : Record) : Prop where
  once : r'.outHashes.Nodup
  recorded : ∀ hash, hash ∈ r'.outHashes ↔ ∃ c ∈ confirmations, c.out = hash
  /-- The sum is modulo 2^64. -/
  amount : r'.amount.toNat =
    (r.amount.toNat + (confirmations.map fun c => c.amount.toNat).sum) % UInt64.size
  /-- A record that expects none is done with its first. -/
  status : r'.status = if max r.numOuts.toNat 1 ≤ distinct confirmations then .done else r.status
  others : r' =
    { r with status := r'.status, amount := r'.amount, outHashes := r'.outHashes }

/-- As many transactions are recorded as different ones have been confirmed. -/
theorem length_eq_distinct {outs : List TxHash} {confirmations : List Confirmation}
    (once : outs.Nodup) (recorded : ∀ hash, hash ∈ outs ↔ ∃ c ∈ confirmations, c.out = hash) :
    outs.length = distinct confirmations := by
  have same : outs.toFinset = (confirmations.map Confirmation.out).toFinset := by
    ext hash
    simp [recorded]
  rw [distinct, ← same, List.toFinset_card_of_nodup once]

namespace Confirmed

variable {r r' r'' : Record} {confirmations confirmations' : List Confirmation}

theorem nil (waiting : r.outHashes = []) : Confirmed r [] r where
  once := by simp [waiting]
  recorded hash := by simp [waiting]
  amount := by simp [Nat.mod_eq_of_lt r.amount.toNat_lt_size]
  status := by simp [distinct]
  others := rfl

theorem hash_eq (confirmed : Confirmed r confirmations r') : r'.hash = r.hash := by
  rw [confirmed.others]

theorem status_iff (confirmed : Confirmed r confirmations r') (incomplete : r.status = .incomplete) :
    r'.status = .done ↔ max r.numOuts.toNat 1 ≤ distinct confirmations := by
  rw [confirmed.status, incomplete]
  split
  next enough => exact iff_of_true rfl enough
  next few => exact iff_of_false nofun few

/-- One more confirmation. -/
theorem next (confirmed : Confirmed r confirmations r') (c : Confirmation) :
    Confirmed r (confirmations ++ [c]) (c.edit r') := by
  have once := nodup_outHashes_edit (c := c) confirmed.once
  have recorded : ∀ hash, hash ∈ (c.edit r').outHashes ↔
      ∃ other ∈ confirmations ++ [c], other.out = hash := by
    intro hash
    rw [mem_outHashes_edit, confirmed.recorded]
    simp [or_and_right, exists_or]
  have numOuts : r'.numOuts = r.numOuts := by rw [confirmed.others]
  refine ⟨once, recorded, ?_, ?_, ?_⟩
  · have sum : ((confirmations ++ [c]).map fun c => c.amount.toNat).sum =
        (confirmations.map fun c => c.amount.toNat).sum + c.amount.toNat := by simp
    rw [amount_edit, UInt64.toNat_add, confirmed.amount, sum, ← Nat.add_assoc]
    exact Nat.mod_add_mod _ _ _
  · have before := length_eq_distinct confirmed.once confirmed.recorded
    have after := length_eq_distinct once recorded
    have status := confirmed.status
    by_cases known : c.out ∈ r'.outHashes
    · rw [edit_of_mem known] at after ⊢
      rw [← after, before]
      exact status
    · rw [edit_of_notMem known, List.length_append, List.length_singleton] at after
      rw [edit_of_notMem known, ← after, numOuts]
      dsimp only
      split
      next enough => rw [if_pos (by omega)]
      next few =>
        -- a record that still waits has been waiting all the time
        rw [status, if_neg (by omega), if_neg (by omega)]
  · rw [others_edit c r', confirmed.others]

/-- A record with confirmations one after the other, stored each time. -/
theorem foldl (waiting : r.outHashes = []) (confirmations : List Confirmation) :
    Confirmed r confirmations
      ((confirmations.map edit).foldl (fun r' change => (change r').keyed r.hash) r) := by
  induction confirmations using List.reverseRecOn with
  | nil => exact nil waiting
  | append_singleton confirmations c ih =>
    have later := ih.next c
    simp only [List.map_append, List.foldl_append, List.map_cons, List.map_nil, List.foldl_cons,
      List.foldl_nil]
    -- a confirmation does not touch the hash, so storing the record changes nothing in it
    rw [Record.keyed_self later.hash_eq]
    exact later

/-- The order of confirmations shows in nothing but the order of the recorded hashes. -/
theorem of_perm (first : Confirmed r confirmations r') (second : Confirmed r confirmations' r'')
    (same : confirmations.Perm confirmations') :
    r'.status = r''.status ∧ r'.amount = r''.amount ∧ r'.outHashes.Perm r''.outHashes := by
  have outs : r'.outHashes.Perm r''.outHashes := by
    refine (List.perm_ext_iff_of_nodup first.once second.once).mpr ?_
    intro hash
    rw [first.recorded, second.recorded]
    simp only [same.mem_iff]
  refine ⟨?_, ?_, outs⟩
  · have length := outs.length_eq
    rw [length_eq_distinct first.once first.recorded,
      length_eq_distinct second.once second.recorded] at length
    rw [first.status, second.status, length]
  · apply UInt64.toNat_inj.mp
    rw [first.amount, second.amount, (same.map _).sum_eq]

end Confirmed

end TransactionLookup
