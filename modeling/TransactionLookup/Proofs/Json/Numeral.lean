import TransactionLookup.Json.Reader
import TransactionLookup.Proofs.Decimal.Padded

/-!
# Natural numbers read back

The digits of a natural number of 64 bits are read as that number, as long as nothing follows them
that could be a part of a numeral.
-/

namespace TransactionLookup.Json

/-- What may come after a value in a document: nothing, space, a comma or a closing bracket. -/
def Follows : List Char → Prop
  | [] => True
  | c :: _ => isSpace c = true ∨ c = ',' ∨ c = ']' ∨ c = '}'

/-- Whether a text does not go on with a digit. -/
def NoDigit (text : List Char) : Prop := ∀ c ∈ text.head?, c.isDigit = false

namespace Follows

theorem comma (rest : List Char) : Follows (',' :: rest) := .inr (.inl rfl)

theorem bracket (rest : List Char) : Follows (']' :: rest) := .inr (.inr (.inl rfl))

theorem brace (rest : List Char) : Follows ('}' :: rest) := .inr (.inr (.inr rfl))

variable {c : Char} {rest : List Char}

theorem cases (follows : Follows (c :: rest)) :
    c = ' ' ∨ c = '\n' ∨ c = '\t' ∨ c = '\r' ∨ c = ',' ∨ c = ']' ∨ c = '}' := by
  simpa [Follows, isSpace, or_assoc] using follows

theorem not_digit (follows : Follows (c :: rest)) : c.isDigit = false := by
  rcases follows.cases with rfl | rfl | rfl | rfl | rfl | rfl | rfl <;> rfl

theorem noDigit (follows : Follows rest) : NoDigit rest := by
  cases rest with
  | nil => simp [NoDigit]
  | cons c rest => simpa [NoDigit] using follows.not_digit

theorem no_fraction (atEnd : Problem) (follows : Follows rest) :
    readFraction atEnd rest = .ok (none, rest) := by
  unfold readFraction
  split
  next tail => rcases follows.cases with h | h | h | h | h | h | h <;> exact absurd h (by decide)
  · rfl

theorem no_exponent (atEnd : Problem) (follows : Follows rest) :
    readExponent atEnd rest = .ok (none, rest) := by
  unfold readExponent
  split
  next c tail =>
    rw [if_neg]
    rcases follows.cases with rfl | rfl | rfl | rfl | rfl | rfl | rfl <;> decide
  · rfl

end Follows

variable {rest : List Char}

theorem spanDigits_of_noDigit {ds : List Char} (all : ∀ d ∈ ds, d.isDigit = true)
    (stop : NoDigit rest) : spanDigits (ds ++ rest) = (ds, rest) := by
  unfold spanDigits
  rw [List.takeWhile_append_of_pos all, List.dropWhile_append_of_pos all]
  cases rest with
  | nil => simp
  | cons c tail =>
    have other : c.isDigit = false := stop c rfl
    simp [other]

theorem readWhole_digits (atEnd : Problem) (n : Nat) (follows : Follows rest) :
    readWhole atEnd (Decimal.digits n ++ rest) = .ok (Decimal.digits n, rest) := by
  cases written : Decimal.digits n with
  | nil => exact absurd written (Decimal.digits_ne_nil n)
  | cons d ds =>
    have all : ∀ c ∈ d :: ds, c.isDigit = true :=
      fun c member => Decimal.isDigit_of_mem_digits (written ▸ member)
    rw [List.cons_append]
    unfold readWhole
    split
    next tail same =>
      -- the number is zero, whose digit no other may follow
      obtain ⟨rfl, rfl⟩ := List.cons.inj same
      obtain ⟨-, rfl⟩ := Decimal.eq_zero_of_digits written
      rw [List.nil_append]
      split
      next c tail => rw [follows.not_digit]; rfl
      · rfl
    next =>
      rw [readDigits, if_pos (all d List.mem_cons_self), ← List.cons_append,
        spanDigits_of_noDigit all follows.noDigit]

theorem Numeral.read_digits (atEnd : Problem) (n : Nat) (follows : Follows rest) :
    Numeral.read atEnd (Decimal.digits n ++ rest) =
      .ok (⟨false, Decimal.digits n, none, none⟩, rest) := by
  have unsigned : readUnsigned atEnd false (Decimal.digits n ++ rest) =
      .ok (⟨false, Decimal.digits n, none, none⟩, rest) := by
    unfold readUnsigned
    simp only [readWhole_digits atEnd n follows, follows.no_fraction, follows.no_exponent]
  unfold Numeral.read
  split
  next tail minus =>
    cases written : Decimal.digits n with
    | nil => exact absurd written (Decimal.digits_ne_nil n)
    | cons d ds =>
      rw [written, List.cons_append] at minus
      -- a minus is no digit
      have digit : d.isDigit = true := Decimal.isDigit_of_mem_digits (written ▸ List.mem_cons_self)
      rw [(List.cons.inj minus).1] at digit
      exact absurd digit (by decide)
  · exact unsigned

theorem absorb_of_lt {limit start : Nat} {ds : List Char}
    (small : Decimal.valueFrom start ds < limit) :
    absorb limit start ds = (Decimal.valueFrom start ds, []) := by
  induction ds generalizing start with
  | nil => rfl
  | cons d ds ih =>
    have step : Decimal.valueFrom start (d :: ds) =
        Decimal.valueFrom (10 * start + Decimal.digitValue d) ds := rfl
    rw [step] at small ⊢
    have below := Decimal.le_valueFrom (10 * start + Decimal.digitValue d) ds
    rw [absorb, if_pos (by omega), ih small]

theorem Numeral.number_digits (n : UInt64) :
    Numeral.number ⟨false, Decimal.digits n.toNat, none, none⟩ = .ok (.natural n) := by
  have value : Decimal.valueFrom 0 (Decimal.digits n.toNat) = n.toNat := Decimal.value_digits n.toNat
  have absorbed : absorb wordLimit 0 (Decimal.digits n.toNat) = (n.toNat, []) := by
    -- 64 bits are enough, so that no digit is dropped
    rw [absorb_of_lt, value]
    rw [value]
    exact n.toNat_lt
  simp [Numeral.number, absorbed]

theorem Number.read_digits (n : UInt64) (follows : Follows rest) :
    Number.read (Decimal.digits n.toNat ++ rest) = .ok (.natural n, rest) := by
  unfold Number.read
  simp only [Numeral.read_digits .endInValue n.toNat follows, Numeral.number_digits]

end TransactionLookup.Json
