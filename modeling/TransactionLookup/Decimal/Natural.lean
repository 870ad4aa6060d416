/-!
# Natural numbers in decimal

Writing a natural number with decimal digits and reading digits back. Reading what was written
gives the number again.
-/

namespace TransactionLookup.Decimal

def digitChar (d : Nat) : Char := Char.ofNat (48 + d)

def digitValue (c : Char) : Nat := c.toNat - 48

/-- The decimal digits of a number, without leading zeros. -/
def digits (n : Nat) : List Char :=
  if n < 10 then [digitChar n] else digits (n / 10) ++ [digitChar (n % 10)]
termination_by n

/-- The number that digits extend `start` to. -/
def valueFrom (start : Nat) (ds : List Char) : Nat :=
  ds.foldl (fun n c => 10 * n + digitValue c) start

/-- The number that digits stand for. -/
def value (ds : List Char) : Nat := valueFrom 0 ds

/-- The digits of a number with leading zeros up to a width. -/
def padded (width n : Nat) : List Char :=
  List.replicate (width - (digits n).length) '0' ++ digits n

theorem digitValue_digitChar {d : Nat} (small : d < 10) : digitValue (digitChar d) = d := by
  match d, small with
  | 0, _ | 1, _ | 2, _ | 3, _ | 4, _ | 5, _ | 6, _ | 7, _ | 8, _ | 9, _ => decide

theorem isDigit_digitChar {d : Nat} (small : d < 10) : (digitChar d).isDigit = true := by
  match d, small with
  | 0, _ | 1, _ | 2, _ | 3, _ | 4, _ | 5, _ | 6, _ | 7, _ | 8, _ | 9, _ => decide

theorem valueFrom_append (start : Nat) (a b : List Char) :
    valueFrom start (a ++ b) = valueFrom (valueFrom start a) b := by
  simp [valueFrom]

theorem value_digits (n : Nat) : value (digits n) = n := by
  induction n using Nat.strongRecOn with
  | ind n ih =>
    rw [digits]
    split
    next small => simp [value, valueFrom, digitValue_digitChar small]
    next large =>
      have shorter := ih (n / 10) (by omega)
      rw [value] at shorter ⊢
      rw [valueFrom_append, shorter]
      simp only [valueFrom, List.foldl_cons, List.foldl_nil,
        digitValue_digitChar (show n % 10 < 10 by omega)]
      omega

theorem isDigit_of_mem_digits {n : Nat} {c : Char} (member : c ∈ digits n) :
    c.isDigit = true := by
  induction n using Nat.strongRecOn with
  | ind n ih =>
    rw [digits] at member
    split at member
    next small =>
      rw [List.mem_singleton] at member
      rw [member]
      exact isDigit_digitChar small
    next large =>
      rcases List.mem_append.mp member with front | last
      · exact ih (n / 10) (by omega) front
      · rw [List.mem_singleton] at last
        rw [last]
        exact isDigit_digitChar (by omega)

theorem digits_ne_nil (n : Nat) : digits n ≠ [] := by
  rw [digits]
  split <;> simp

end TransactionLookup.Decimal
