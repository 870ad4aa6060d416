/-!
# Blank characters

The characters with the Unicode property `White_Space`.
-/

namespace TransactionLookup.Text

def isBlank (c : Char) : Bool :=
  let n := c.toNat
  (0x9 ≤ n && n ≤ 0xD) || n == 0x20 || n == 0x85 || n == 0xA0 || n == 0x1680 ||
    (0x2000 ≤ n && n ≤ 0x200A) || n == 0x2028 || n == 0x2029 || n == 0x202F || n == 0x205F ||
    n == 0x3000

def dropBlanks (text : List Char) : List Char := text.dropWhile isBlank

theorem isBlank_of_isWhitespace {c : Char} (space : c.isWhitespace = true) : isBlank c = true := by
  simp only [Char.isWhitespace, Bool.or_eq_true, decide_eq_true_eq] at space
  rcases space with ((rfl | rfl) | rfl) | rfl <;> decide

theorem dropBlanks_idem (text : List Char) : dropBlanks (dropBlanks text) = dropBlanks text := by
  induction text with
  | nil => rfl
  | cons c rest ih => by_cases h : isBlank c <;> simp_all [dropBlanks]

end TransactionLookup.Text
