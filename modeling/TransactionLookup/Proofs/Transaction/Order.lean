import Mathlib.Data.List.Dedup
import TransactionLookup.Proofs.Text.CodePoint
import TransactionLookup.Proofs.Transaction.RoundTrip

/-!
# The order of hashes

Hashes are told apart, written and compared by their texts alone (`identity_and_order`). Their order is
total; it is that of the bytes of the texts, and so of the code points. The hashes of a list can be put
in this order, each once, in one way only, however they are sorted and whatever their order was.
-/

namespace TransactionLookup.TxHash

variable {a b h k : TxHash} {hashes ks others : List TxHash}

/-! ## Identity -/

theorem eq_iff_text : a = b ↔ a.text = b.text := by
  cases a
  cases b
  rw [mk.injEq]

/-- No two hashes are written alike, since what is escaped can be told from what is not. -/
theorem json_eq_iff : a.json = b.json ↔ a = b := by
  constructor
  · intro same
    exact eq_iff_text.mpr (String.toList_injective (Json.quote_injective same))
  · rintro rfl
    rfl

theorem document_json (h : TxHash) : reader.document h.json = .ok h := h.reads.document

theorem order_eq_iff : a.order b = .eq ↔ a = b := by
  rw [order, Text.compareUtf8_eq_iff, eq_iff_text]

instance : Std.TransCmp order where
  eq_swap := Text.compareUtf8_swap _ _
  isLE_trans := Text.compareUtf8_isLE_trans

instance : Std.LawfulEqCmp order where
  compare_self := order_eq_iff.mpr rfl
  eq_of_compare := order_eq_iff.mp

theorem order_antisymm (forth : (a.order b).isLE) (back : (b.order a).isLE) : a = b :=
  order_eq_iff.mp (Std.OrientedCmp.isLE_antisymm forth back)

theorem order_total (a b : TxHash) : (a.order b).isLE ∨ (b.order a).isLE := by
  have turned : b.order a = (a.order b).swap := Std.OrientedCmp.eq_swap
  rw [turned]
  cases a.order b <;> simp

/-! ## Hashes in their order -/

/-- Whether hashes stand in their order, each once. -/
def Ascending (hashes : List TxHash) : Prop := hashes.Pairwise fun a b => a.order b = .lt

theorem insertSorted_of_lt (before : h.order k = .lt) : insertSorted h (k :: ks) = h :: k :: ks := by
  simp only [insertSorted, before]

theorem insertSorted_self : insertSorted h (h :: ks) = h :: ks := by
  simp only [insertSorted, order_eq_iff.mpr]

theorem insertSorted_of_gt (behind : h.order k = .gt) :
    insertSorted h (k :: ks) = k :: insertSorted h ks := by
  simp only [insertSorted, behind]

theorem mem_insertSorted : a ∈ insertSorted h ks ↔ a = h ∨ a ∈ ks := by
  induction ks with
  | nil => simp [insertSorted]
  | cons k ks ih =>
    cases place : h.order k with
    | lt => rw [insertSorted_of_lt place, List.mem_cons]
    | eq =>
      obtain rfl := order_eq_iff.mp place
      simp [insertSorted_self]
    | gt => rw [insertSorted_of_gt place, List.mem_cons, List.mem_cons, ih, or_left_comm]

/-- A hash that is put in its place leaves the others in their order. -/
theorem Ascending.insertSorted (ascending : Ascending ks) (h : TxHash) :
    Ascending (insertSorted h ks) := by
  induction ks with
  | nil => exact List.pairwise_singleton _ _
  | cons k ks ih =>
    obtain ⟨first, later⟩ := List.pairwise_cons.mp ascending
    cases place : h.order k with
    | lt =>
      rw [insertSorted_of_lt place]
      refine List.pairwise_cons.mpr ⟨?_, ascending⟩
      intro other member
      obtain rfl | behind := List.mem_cons.mp member
      · exact place
      · exact Std.TransCmp.lt_trans place (first other behind)
    | eq =>
      obtain rfl := order_eq_iff.mp place
      rw [insertSorted_self]
      exact ascending
    | gt =>
      -- the first one stays in front of the new one, as it was of all others
      rw [insertSorted_of_gt place]
      refine List.pairwise_cons.mpr ⟨?_, ih later⟩
      intro other member
      obtain rfl | behind := mem_insertSorted.mp member
      · exact Std.OrientedCmp.gt_iff_lt.mp place
      · exact first other behind

theorem mem_sorted : h ∈ sorted hashes ↔ h ∈ hashes := by
  induction hashes with
  | nil => exact Iff.rfl
  | cons k hashes ih =>
    rw [sorted, List.foldr_cons, ← sorted, mem_insertSorted, ih, List.mem_cons]

theorem ascending_sorted (hashes : List TxHash) : Ascending (sorted hashes) := by
  induction hashes with
  | nil => exact .nil
  | cons k hashes ih => exact ih.insertSorted k

theorem Ascending.nodup (ascending : Ascending hashes) : hashes.Nodup := by
  apply List.Pairwise.imp _ ascending
  rintro a b before rfl
  rw [order_eq_iff.mpr rfl] at before
  cases before

/-- Hashes can be put in their order in one way only. -/
theorem Ascending.unique (first : Ascending hashes) (second : Ascending others)
    (same : ∀ h, h ∈ hashes ↔ h ∈ others) : hashes = others := by
  have perm := (List.perm_ext_iff_of_nodup first.nodup second.nodup).mpr same
  apply perm.eq_of_pairwise _ first second
  intro a b _ _ before behind
  rw [Std.OrientedCmp.gt_iff_lt.mpr before] at behind
  cases behind

theorem sorted_of_ascending (ascending : Ascending others) (same : ∀ h, h ∈ others ↔ h ∈ hashes) :
    others = sorted hashes :=
  ascending.unique (ascending_sorted hashes) fun h => (same h).trans mem_sorted.symm

theorem sorted_of_perm (perm : others.Perm hashes) : sorted others = sorted hashes := by
  apply sorted_of_ascending (ascending_sorted others)
  intro h
  rw [mem_sorted, perm.mem_iff]

/-- Of hashes in their order the repeated ones can be left out afterwards. -/
theorem ascending_dedup (inOrder : hashes.Pairwise fun a b => (a.order b).isLE) :
    Ascending hashes.dedup := by
  have apart := (inOrder.sublist (List.dedup_sublist hashes)).and (List.nodup_dedup hashes)
  apply List.Pairwise.imp _ apart
  rintro a b ⟨notBehind, different⟩
  cases place : a.order b with
  | lt => rfl
  | eq => exact absurd (order_eq_iff.mp place) different
  | gt =>
    rw [place] at notBehind
    cases notBehind

theorem dedup_eq_sorted (perm : others.Perm hashes)
    (inOrder : others.Pairwise fun a b => (a.order b).isLE) : others.dedup = sorted hashes := by
  apply sorted_of_ascending (ascending_dedup inOrder)
  intro h
  rw [List.mem_dedup, perm.mem_iff]

/-! ## The main statement -/

/-- Hashes are the same exactly if their texts are, if they are written alike, and if they compare as
equal; how one is written it is read back. Their order is total, and goes by the bytes of the texts and
just so by their code points. The hashes of a list, sorted and each once, ascend strictly and are those
of the list. No other list of them does so, whence neither the order in which they were given nor the
way in which they are sorted, before the repeated ones are left out, makes a difference. -/
theorem identity_and_order :
    (∀ a b : TxHash,
      (a = b ↔ a.text = b.text) ∧ (a.text = b.text ↔ a.json = b.json) ∧
      (a.json = b.json ↔ a.order b = .eq) ∧ reader.document a.json = .ok a ∧
      (a.order b = .lt ↔
        List.Lex (· < ·) (Text.utf8 a.text.toList) (Text.utf8 b.text.toList)) ∧
      (a.order b = .lt ↔
        List.Lex (· < ·) (Text.codePoints a.text.toList) (Text.codePoints b.text.toList)) ∧
      a.order b = (b.order a).swap ∧ ((a.order b).isLE ∨ (b.order a).isLE) ∧
      ((a.order b).isLE → (b.order a).isLE → a = b) ∧
      ∀ c : TxHash, (a.order b).isLE → (b.order c).isLE → (a.order c).isLE) ∧
    ∀ hashes : List TxHash,
      Ascending (sorted hashes) ∧ (∀ h, h ∈ sorted hashes ↔ h ∈ hashes) ∧
      (∀ others : List TxHash, others.Perm hashes → sorted others = sorted hashes) ∧
      (∀ others, Ascending others → (∀ h, h ∈ others ↔ h ∈ hashes) → others = sorted hashes) ∧
      ∀ arranged : List TxHash, arranged.Perm hashes →
        (arranged.Pairwise fun a b => (a.order b).isLE) → arranged.dedup = sorted hashes := by
  constructor
  · intro a b
    refine ⟨eq_iff_text, ?_, ?_, document_json a, Text.compareUtf8_lt_iff_bytes,
      Text.compareUtf8_lt_iff_codePoints, Std.OrientedCmp.eq_swap, order_total a b,
      order_antisymm, ?_⟩
    · rw [json_eq_iff, eq_iff_text]
    · rw [json_eq_iff, order_eq_iff]
    · intro c first second
      exact Std.TransCmp.isLE_trans first second
  · intro hashes
    exact ⟨ascending_sorted hashes, fun h => mem_sorted, fun others => sorted_of_perm,
      fun others => sorted_of_ascending, fun arranged => dedup_eq_sorted⟩

/-- A character of four bytes behind one of three, which two units of sixteen bits would put before it;
and a list out of order in which one hash is repeated. -/
theorem identity_and_order_wide :
    let wide : TxHash := ⟨"😀"⟩
    let narrow : TxHash := ⟨"\uff61"⟩
    narrow.order wide = .lt ∧ narrow.json ≠ wide.json ∧
      sorted [wide, ⟨"z"⟩, narrow, ⟨"Z"⟩, wide] = [⟨"Z"⟩, ⟨"z"⟩, narrow, wide] := by
  intro wide narrow
  obtain ⟨pairs, lists⟩ := identity_and_order
  obtain ⟨-, written, -, -, -, points, -⟩ := pairs narrow wide
  obtain ⟨-, -, -, -, arranged⟩ := lists [wide, ⟨"z"⟩, narrow, ⟨"Z"⟩, wide]
  have first : Text.codePoints narrow.text.toList = [0xFF61] := by decide
  have second : Text.codePoints wide.text.toList = [0x1F600] := by decide
  refine ⟨points.mpr ?_, mt written.mpr (by decide), ?_⟩
  · rw [first, second]
    exact .rel (by decide)
  · exact (arranged [⟨"Z"⟩, ⟨"z"⟩, narrow, wide, wide] (by decide) (by decide +kernel)).symm

end TransactionLookup.TxHash
