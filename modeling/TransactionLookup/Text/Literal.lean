import TransactionLookup.Text.Printable

/-!
# Quoted literals

A text between double quotes in which every character is visible: a quote and a backslash follow a
backslash, and what has no form of its own is named, or given by its number.
-/

namespace TransactionLookup.Text

/-- The lowercase hexadecimal digit of a number below sixteen. -/
def hexDigit (d : Nat) : Char := if d < 10 then Char.ofNat (48 + d) else Char.ofNat (87 + d)

/-- The hexadecimal digits of a number, without leading zeros. -/
def hexDigits (n : Nat) : List Char :=
  if n < 16 then [hexDigit n] else hexDigits (n / 16) ++ [hexDigit (n % 16)]
termination_by n

/-- A character as it stands in a quoted literal. -/
def literalChar (c : Char) : List Char :=
  match c with
  | '\x00' => ['\\', '0']
  | '\t' => ['\\', 't']
  | '\n' => ['\\', 'n']
  | '\r' => ['\\', 'r']
  | '"' => ['\\', '"']
  | '\\' => ['\\', '\\']
  | c =>
    if isPrintable c then [c]
    else '\\' :: 'u' :: '\x7b' :: hexDigits c.toNat ++ ['\x7d']

def literal (text : List Char) : List Char := '"' :: text.flatMap literalChar ++ ['"']

end TransactionLookup.Text
