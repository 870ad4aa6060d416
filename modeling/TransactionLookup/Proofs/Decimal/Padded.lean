import TransactionLookup.Decimal.Natural

/-!
# Padded numbers

Leading zeros change no number. A number that fits a width is padded to just that width, so that it
can be told from digits that follow it.
-/

namespace TransactionLookup.Decimal

theorem le_valueFrom (start : Nat) (ds : List Char) : start ≤ valueFrom start ds := by
  induction ds generalizing start with
  | nil => exact Nat.le_refl start
  | cons d ds ih =>
    have next := ih (10 * start + digitValue d)
    simp only [valueFrom, List.foldl_cons] at next ⊢
    omega

theorem valueFrom_zeros (count : Nat) : valueFrom 0 (List.replicate count '0') = 0 := by
  induction count with
  | zero => rfl
  | succ count ih => simpa [valueFrom, List.replicate_succ, digitValue] using ih

theorem value_padded (width n : Nat) : value (padded width n) = n := by
  rw [padded, value, valueFrom_append, valueFrom_zeros]
  exact value_digits n

theorem isDigit_of_mem_padded {width n : Nat} {c : Char} (member : c ∈ padded width n) :
    c.isDigit = true := by
  rcases List.mem_append.mp member with zeros | rest
  · rw [List.eq_of_mem_replicate zeros]
    decide
  · exact isDigit_of_mem_digits rest

theorem padded_ne_nil (width n : Nat) : padded width n ≠ [] := by
  intro empty
  exact digits_ne_nil n (List.append_eq_nil_iff.mp empty).2

theorem length_digits_le {width n : Nat} (positive : 0 < width) (small : n < Nat.pow 10 width) :
    (digits n).length ≤ width := by
  induction width generalizing n with
  | zero => exact absurd positive (Nat.lt_irrefl 0)
  | succ width ih =>
    rw [digits]
    split
    · exact Nat.succ_le_succ (Nat.zero_le width)
    next large =>
      -- a number of two digits or more does not fit the width one
      have more : 0 < width := by
        rcases Nat.eq_zero_or_pos width with rfl | more
        · exact absurd small large
        · exact more
      have shorter : n / 10 < Nat.pow 10 width := by
        rw [show Nat.pow 10 (width + 1) = Nat.pow 10 width * 10 from rfl] at small
        omega
      have bound := ih more shorter
      rw [List.length_append, List.length_singleton]
      omega

theorem length_padded {width n : Nat} (positive : 0 < width) (small : n < Nat.pow 10 width) :
    (padded width n).length = width := by
  have bound := length_digits_le positive small
  rw [padded, List.length_append, List.length_replicate]
  omega

/-- Zero alone is written with a zero in front. -/
theorem eq_zero_of_digits {n : Nat} {ds : List Char} (leading : digits n = '0' :: ds) :
    n = 0 ∧ ds = [] := by
  induction n using Nat.strongRecOn generalizing ds with
  | ind n ih =>
    rw [digits] at leading
    split at leading
    next small =>
      obtain ⟨first, rfl⟩ := List.cons.inj leading
      have zero := congrArg digitValue first
      rw [digitValue_digitChar small] at zero
      exact ⟨zero, rfl⟩
    next large =>
      cases front : digits (n / 10) with
      | nil => exact absurd front (digits_ne_nil _)
      | cons d rest =>
        rw [front, List.cons_append] at leading
        obtain ⟨rfl, -⟩ := List.cons.inj leading
        -- then the number without its last digit would be zero
        have := (ih (n / 10) (by omega) front).1
        omega

end TransactionLookup.Decimal
