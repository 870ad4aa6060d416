import TransactionLookup.Json.Quoted

/-!
# Quoted texts read back

Reading a quoted text gives back the text that was quoted, whatever characters it has, and leaves
what follows the closing quote. So no two texts are quoted alike.
-/

namespace TransactionLookup.Json

theorem hexValue?_hexDigit : ∀ d < 16, hexValue? (Text.hexDigit d) = some d := by decide

theorem length_le_utf8Length (text : List Char) : text.length ≤ Text.utf8Length text := by
  induction text with
  | nil => exact Nat.le_refl 0
  | cons c rest ih =>
    have size : 1 ≤ c.utf8Size := c.utf8Size_pos
    simp only [Text.utf8Length, List.foldr_cons, List.length_cons] at ih ⊢
    omega

/-- Four hexadecimal digits are read as their number, the two high ones being zero. -/
theorem readUnit_hexDigits {n : Nat} (small : n < 256) (rest : List Char) :
    readUnit ('0' :: '0' :: Text.hexDigit (n / 16) :: Text.hexDigit (n % 16) :: rest) =
      .ok (n, rest) := by
  have high := hexValue?_hexDigit (n / 16) (by omega)
  have low := hexValue?_hexDigit (n % 16) (by omega)
  have zero : hexValue? '0' = some 0 := by decide
  have long := length_le_utf8Length ['0', '0', Text.hexDigit (n / 16), Text.hexDigit (n % 16)]
  have number : hexNumber? ['0', '0', Text.hexDigit (n / 16), Text.hexDigit (n % 16)] = some n := by
    simp [hexNumber?, zero, high, low]
    omega
  unfold readUnit
  simp only [List.take_succ_cons, List.take_zero, List.drop_succ_cons, List.drop_zero, number]
  exact if_neg (Nat.not_lt.mpr long)

/-! ## Escapes -/

section Escapes

variable {text rest : List Char} {c : Char}

theorem readPairMark_iff {mark : Char} : readPairMark mark text = .ok rest ↔ text = mark :: rest := by
  constructor
  · intro read
    unfold readPairMark at read
    split at read
    · cases read
    · split at read
      next same =>
        cases read
        rw [same]
      · cases read
  · rintro rfl
    rw [readPairMark, if_pos rfl]

/-- A character given by number has one number, or two that are the surrogates of a pair. -/
theorem readNumbered_iff : readNumbered text = .ok (c, rest) ↔
    ∃ n between, readUnit text = .ok (n, between) ∧ isLowSurrogate n = false ∧
      (isHighSurrogate n = false ∧ c = Char.ofNat n ∧ rest = between ∨
        isHighSurrogate n = true ∧ ∃ low after, between = '\\' :: 'u' :: after ∧
          readUnit after = .ok (low, rest) ∧ isLowSurrogate low = true ∧ c = pairedChar n low) := by
  constructor
  · intro read
    unfold readNumbered at read
    split at read
    · cases read
    next n between first =>
      split at read
      · cases read
      next notLow =>
        refine ⟨n, between, first, Bool.not_eq_true _ ▸ notLow, ?_⟩
        split at read
        next high =>
          split at read
          · cases read
          next slash =>
            split at read
            · cases read
            next mark =>
              split at read
              · cases read
              next low _ second =>
                split at read
                next isLow =>
                  simp only [Except.ok.injEq, Prod.mk.injEq] at read
                  rw [readPairMark_iff.mp slash, readPairMark_iff.mp mark]
                  exact .inr ⟨high, low, _, rfl, read.2 ▸ second, isLow, read.1.symm⟩
                · cases read
        next plain =>
          cases read
          exact .inl ⟨Bool.not_eq_true _ ▸ plain, rfl, rfl⟩
  · rintro ⟨n, between, first, notLow, ⟨plain, meant, rfl⟩ |
      ⟨high, low, after, rfl, second, isLow, meant⟩⟩
    · simp only [readNumbered, first, notLow, plain, meant, Bool.false_eq_true, if_false]
    · have slash := readPairMark_iff.mpr (Eq.refl ('\\' :: 'u' :: after))
      have mark := readPairMark_iff.mpr (Eq.refl ('u' :: after))
      simp only [readNumbered, first, notLow, high, slash, mark, second, isLow, meant,
        Bool.false_eq_true, if_false, if_true]

/-- An escape is a number or a letter. -/
theorem readEscape_iff : readEscape text = .ok (c, rest) ↔
    (∃ tail, text = 'u' :: tail ∧ readNumbered tail = .ok (c, rest)) ∨
      ∃ letter, letter ≠ 'u' ∧ text = letter :: rest ∧ escaped? letter = some c := by
  constructor
  · intro read
    unfold readEscape at read
    split at read
    · cases read
    next letter tail =>
      split at read
      next numbered =>
        subst numbered
        exact .inl ⟨tail, rfl, read⟩
      next other =>
        split at read
        next meant =>
          cases read
          exact .inr ⟨letter, other, rfl, meant⟩
        · cases read
  · rintro (⟨tail, rfl, read⟩ | ⟨letter, other, rfl, meant⟩)
    · rw [readEscape, if_pos rfl, read]
    · simp only [readEscape, if_neg other, meant]

end Escapes

/-- A control character given by its number is no surrogate. -/
theorem readEscape_control {c : Char} (control : c.toNat < 0x20) (rest : List Char) :
    readEscape ('u' :: '0' :: '0' :: Text.hexDigit (c.toNat / 16) ::
      Text.hexDigit (c.toNat % 16) :: rest) = .ok (c, rest) := by
  have unit := readUnit_hexDigits (show c.toNat < 256 by omega) rest
  have notLow : isLowSurrogate c.toNat = false := by simp [isLowSurrogate]; omega
  have notHigh : isHighSurrogate c.toNat = false := by simp [isHighSurrogate]; omega
  simp [readEscape, readNumbered, unit, notLow, notHigh, Char.ofNat_toNat]

theorem readQuoted_of_escape {text rest cs left : List Char} {c : Char}
    (first : readEscape text = .ok (c, rest)) (inner : readQuoted rest = .ok (cs, left)) :
    readQuoted ('\\' :: text) = .ok (c :: cs, left) := by
  rw [readQuoted]
  split
  next failed => rw [first] at failed; cases failed
  next found =>
    rw [first] at found
    cases found
    rw [inner]

theorem readQuoted_of_plain {rest cs left : List Char} {c : Char} (notQuote : c ≠ '"')
    (notBackslash : c ≠ '\\') (visible : 0x20 ≤ c.toNat) (inner : readQuoted rest = .ok (cs, left)) :
    readQuoted (c :: rest) = .ok (c :: cs, left) := by
  rw [readQuoted]
  · rw [if_neg (Nat.not_lt.mpr visible), inner]
  · exact notQuote
  · exact notBackslash

/-- A written character is read as itself, whichever way it is written. -/
theorem readQuoted_escape {rest cs left : List Char} (c : Char)
    (inner : readQuoted rest = .ok (cs, left)) :
    readQuoted (escape c ++ rest) = .ok (c :: cs, left) := by
  unfold escape
  split
  case h_8 notQuote notBackslash _ _ _ _ _ =>
    split
    -- what has no letter is given by its number, and all else stands for itself
    next control => exact readQuoted_of_escape (readEscape_control control rest) inner
    next visible => exact readQuoted_of_plain notQuote notBackslash (by omega) inner
  -- the seven characters with a letter of their own
  all_goals exact readQuoted_of_escape (by simp [readEscape, escaped?]) inner

theorem readQuoted_escaped (text rest : List Char) :
    readQuoted (text.flatMap escape ++ '"' :: rest) = .ok (text, rest) := by
  induction text with
  | nil => simp [readQuoted]
  | cons c text ih =>
    rw [List.flatMap_cons, List.append_assoc]
    exact readQuoted_escape c ih

theorem quote_injective {a b : List Char} (same : quote a = quote b) : a = b := by
  have first := readQuoted_escaped a []
  have second := readQuoted_escaped b []
  simp only [quote, List.cons_append, List.cons.injEq, true_and] at same
  rw [same, second] at first
  simpa using first.symm

end TransactionLookup.Json
