import TransactionLookup.Text.Utf8

/-!
# The order of texts

Comparing texts by their bytes is a total order, in which only equal texts are equal.
-/

namespace TransactionLookup.Text

theorem utf8_injective {a b : String} (same : utf8 a.toList = utf8 b.toList) : a = b := by
  have first := ofUtf8?_eq_some_iff.mpr same
  rw [ofUtf8?_eq_some_iff.mpr rfl] at first
  exact (Option.some.inj first).symm

theorem compareUtf8_eq_iff {a b : String} : compareUtf8 a b = .eq ↔ a = b := by
  rw [compareUtf8, Std.LawfulEqCmp.compare_eq_iff_eq]
  exact ⟨utf8_injective, fun same => by rw [same]⟩

theorem compareUtf8_swap (a b : String) : compareUtf8 a b = (compareUtf8 b a).swap := by
  unfold compareUtf8
  exact Std.OrientedCmp.eq_swap

theorem compareUtf8_self (a : String) : compareUtf8 a a = .eq := compareUtf8_eq_iff.mpr rfl

theorem compareUtf8_lt_trans {a b c : String} (first : compareUtf8 a b = .lt)
    (second : compareUtf8 b c = .lt) : compareUtf8 a c = .lt := by
  unfold compareUtf8 at *
  exact Std.TransCmp.lt_trans first second

theorem compareUtf8_isLE_trans {a b c : String} (first : (compareUtf8 a b).isLE)
    (second : (compareUtf8 b c).isLE) : (compareUtf8 a c).isLE := by
  unfold compareUtf8 at *
  exact Std.TransCmp.isLE_trans first second

theorem compareUtf8_gt_iff {a b : String} : compareUtf8 a b = .gt ↔ compareUtf8 b a = .lt := by
  rw [compareUtf8_swap a b, Ordering.swap_eq_gt]

end TransactionLookup.Text
