import TransactionLookup.Json.Problem

/-!
# Quoted texts

A text between double quotes, in which quotes, backslashes and control characters are escaped.
Writing escapes nothing else. Reading takes every escape, and joins two escaped surrogates to the
character that they stand for. A text that is skipped has its escapes checked for their form only,
so that surrogates may stand alone in it.
-/

namespace TransactionLookup.Json

/-- A character as it is written in a quoted text. -/
def escape (c : Char) : List Char :=
  match c with
  | '"' => ['\\', '"']
  | '\\' => ['\\', '\\']
  | '\x08' => ['\\', 'b']
  | '\x0c' => ['\\', 'f']
  | '\n' => ['\\', 'n']
  | '\r' => ['\\', 'r']
  | '\t' => ['\\', 't']
  | c =>
    if c.toNat < 0x20 then
      ['\\', 'u', '0', '0', Text.hexDigit (c.toNat / 16), Text.hexDigit (c.toNat % 16)]
    else [c]

def quote (text : List Char) : List Char := '"' :: text.flatMap escape ++ ['"']

/-- The value of a hexadecimal digit of either case. -/
def hexValue? (c : Char) : Option Nat :=
  let n := c.toNat
  if 48 ≤ n ∧ n ≤ 57 then some (n - 48)
  else if 65 ≤ n ∧ n ≤ 70 then some (n - 55)
  else if 97 ≤ n ∧ n ≤ 102 then some (n - 87)
  else none

/-- The number that hexadecimal digits stand for. -/
def hexNumber? (ds : List Char) : Option Nat :=
  ds.foldlM (fun n c => (hexValue? c).map fun d => 16 * n + d) 0

/-- The number given by four hexadecimal digits. A text of less than four bytes ends early, and the
four bytes are passed before a wrong one is noticed. -/
def readUnit (text : List Char) : Except Failure (Nat × List Char) :=
  if Text.utf8Length (text.take 4) < 4 then .error (.here .endInString [])
  else
    match hexNumber? (text.take 4) with
    | some n => .ok (n, text.drop 4)
    | none => .error ⟨.invalidEscape, text, 4⟩

def isHighSurrogate (n : Nat) : Bool := 0xD800 ≤ n && n ≤ 0xDBFF

def isLowSurrogate (n : Nat) : Bool := 0xDC00 ≤ n && n ≤ 0xDFFF

def pairedChar (high low : Nat) : Char :=
  Char.ofNat (0x10000 + (high - 0xD800) * 0x400 + (low - 0xDC00))

/-- A given character of a pair of escapes. -/
def readPairMark (mark : Char) (text : List Char) : Except Failure (List Char) :=
  match text with
  | [] => .error (.here .endInString [])
  | c :: rest => if c = mark then .ok rest else .error (.next .unpairedSurrogate text)

/-- The character given by number, its mark already read, with a second number for the second
surrogate. -/
def readNumbered (text : List Char) : Except Failure (Char × List Char) :=
  match readUnit text with
  | .error e => .error e
  | .ok (n, rest) =>
    if isLowSurrogate n then .error (.here .loneSurrogate rest)
    else if isHighSurrogate n then
      -- the second surrogate has to follow as an escape of its own
      match readPairMark '\\' rest with
      | .error e => .error e
      | .ok rest =>
        match readPairMark 'u' rest with
        | .error e => .error e
        | .ok rest =>
          match readUnit rest with
          | .error e => .error e
          | .ok (low, rest) =>
            if isLowSurrogate low then .ok (pairedChar n low, rest)
            else .error (.here .loneSurrogate rest)
    else .ok (Char.ofNat n, rest)

/-- The character that a letter after a backslash stands for. -/
def escaped? (c : Char) : Option Char :=
  match c with
  | '"' => some '"'
  | '\\' => some '\\'
  | '/' => some '/'
  | 'b' => some '\x08'
  | 'f' => some '\x0c'
  | 'n' => some '\n'
  | 'r' => some '\r'
  | 't' => some '\t'
  | _ => none

/-- The character of an escape whose backslash is already read. -/
def readEscape (text : List Char) : Except Failure (Char × List Char) :=
  match text with
  | [] => .error (.here .endInString [])
  | c :: rest =>
    if c = 'u' then readNumbered rest
    else
      match escaped? c with
      | some e => .ok (e, rest)
      | none => .error (.next .invalidEscape text)

/-- Passes an escape whose backslash is already read. -/
def skipEscape (text : List Char) : Except Failure (List Char) :=
  match text with
  | [] => .error (.here .endInString [])
  | c :: rest =>
    if c = 'u' then
      match readUnit rest with
      | .error e => .error e
      | .ok (_, rest) => .ok rest
    else
      match escaped? c with
      | some _ => .ok rest
      | none => .error (.next .invalidEscape text)

theorem readUnit_le {text rest : List Char} {n : Nat} (read : readUnit text = .ok (n, rest)) :
    rest.length ≤ text.length := by
  unfold readUnit at read
  split at read
  · cases read
  · split at read
    · cases read
      simp
    · cases read

theorem readPairMark_le {mark : Char} {text rest : List Char}
    (read : readPairMark mark text = .ok rest) : rest.length ≤ text.length := by
  unfold readPairMark at read
  split at read
  · cases read
  · split at read
    · cases read; simp
    · cases read

theorem readNumbered_le {text rest : List Char} {c : Char}
    (read : readNumbered text = .ok (c, rest)) : rest.length ≤ text.length := by
  unfold readNumbered at read
  split at read
  · cases read
  next first =>
    have := readUnit_le first
    split at read
    · cases read
    · split at read
      · split at read
        · cases read
        next slash =>
          have := readPairMark_le slash
          split at read
          · cases read
          next letter =>
            have := readPairMark_le letter
            split at read
            · cases read
            next second =>
              have := readUnit_le second
              split at read
              · simp only [Except.ok.injEq, Prod.mk.injEq] at read
                rw [← read.2]
                omega
              · cases read
      · cases read
        omega

theorem readEscape_shrinks {text rest : List Char} {c : Char}
    (read : readEscape text = .ok (c, rest)) : rest.length < text.length := by
  unfold readEscape at read
  split at read
  · cases read
  · split at read
    · have := readNumbered_le read
      simp only [List.length_cons]
      omega
    · split at read
      · cases read; simp
      · cases read

theorem skipEscape_shrinks {text rest : List Char} (skip : skipEscape text = .ok rest) :
    rest.length < text.length := by
  unfold skipEscape at skip
  split at skip
  · cases skip
  · split at skip
    · split at skip
      · cases skip
      next found =>
        have := readUnit_le found
        cases skip
        simp only [List.length_cons]
        omega
    · split at skip
      · cases skip; simp
      · cases skip

/-- The text up to the closing quote, the opening one already read. A control character is noticed
after it is passed. -/
def readQuoted (text : List Char) : Except Failure (List Char × List Char) :=
  match text with
  | [] => .error (.here .endInString [])
  | '"' :: rest => .ok ([], rest)
  | '\\' :: rest =>
    match read : readEscape rest with
    | .error e => .error e
    | .ok (c, rest') =>
      have := readEscape_shrinks read
      match readQuoted rest' with
      | .error e => .error e
      | .ok (cs, left) => .ok (c :: cs, left)
  | c :: rest =>
    if c.toNat < 0x20 then .error (.here .controlCharacter rest)
    else
      match readQuoted rest with
      | .error e => .error e
      | .ok (cs, left) => .ok (c :: cs, left)
termination_by text.length

/-- Passes a text up to its closing quote, the opening one already read. A control character is
noticed before it is passed. -/
def skipQuoted (text : List Char) : Except Failure (List Char) :=
  match text with
  | [] => .error (.here .endInString [])
  | '"' :: rest => .ok rest
  | '\\' :: rest =>
    match skip : skipEscape rest with
    | .error e => .error e
    | .ok rest' =>
      have := skipEscape_shrinks skip
      skipQuoted rest'
  | c :: rest => if c.toNat < 0x20 then .error (.here .controlCharacter text) else skipQuoted rest
termination_by text.length

theorem readQuoted_shrinks {text cs rest : List Char} (read : readQuoted text = .ok (cs, rest)) :
    rest.length < text.length := by
  fun_induction readQuoted text generalizing cs rest with
  | case1 => cases read
  | case2 tail => cases read; simp
  | case3 => cases read
  | case4 => cases read
  | case5 tail c rest' found _ _ _ inner ih =>
    have := readEscape_shrinks found
    have := ih inner
    cases read
    simp only [List.length_cons]
    omega
  | case6 => cases read
  | case7 => cases read
  | case8 c tail _ _ _ _ _ inner ih =>
    have := ih inner
    cases read
    simp only [List.length_cons]
    omega

theorem skipQuoted_shrinks {text rest : List Char} (skip : skipQuoted text = .ok rest) :
    rest.length < text.length := by
  fun_induction skipQuoted text with
  | case1 => cases skip
  | case2 tail => cases skip; simp
  | case3 => cases skip
  | case4 tail rest' found _ ih =>
    have := skipEscape_shrinks found
    have := ih skip
    simp only [List.length_cons]
    omega
  | case5 => cases skip
  | case6 c tail _ _ _ ih =>
    have := ih skip
    simp only [List.length_cons]
    omega

end TransactionLookup.Json
