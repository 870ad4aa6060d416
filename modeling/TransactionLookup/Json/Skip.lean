import TransactionLookup.Json.Reader

/-!
# Skipping values

A value that nobody asked for is passed with a stack of its open brackets, so that it may be nested
as deep as it likes. Its form is checked, but no number is computed and no text is put together:
the range of a number and the pairing of surrogates do not matter.
-/

namespace TransactionLookup.Json

/-- A bracket that is open. -/
inductive Bracket
  | list
  | object
  deriving DecidableEq, Repr

def Bracket.closing : Bracket → Char
  | .list => ']'
  | .object => '}'

/-- The text ends inside the bracket. -/
def Bracket.endProblem : Bracket → Problem
  | .list => .endInList
  | .object => .endInObject

/-- A member of the bracket is followed by neither a comma nor the closing bracket. -/
def Bracket.separatorProblem : Bracket → Problem
  | .list => .listEndExpected
  | .object => .objectEndExpected

/-- The start of a value: a scalar, all of it, or an opening bracket. -/
inductive Opening
  | scalar
  | bracket (b : Bracket)

def skipWord (word text : List Char) : Except Failure (Opening × List Char) :=
  match readWord word text with
  | .error e => .error e
  | .ok rest => .ok (.scalar, rest)

def skipOpening (text : List Char) : Except Failure (Opening × List Char) :=
  match dropSpace text with
  | [] => .error (.next .endInValue [])
  | 'n' :: rest => skipWord ['u', 'l', 'l'] rest
  | 't' :: rest => skipWord ['r', 'u', 'e'] rest
  | 'f' :: rest => skipWord ['a', 'l', 's', 'e'] rest
  | '"' :: rest =>
    match skipQuoted rest with
    | .error e => .error e
    | .ok rest => .ok (.scalar, rest)
  | '[' :: rest => .ok (.bracket .list, rest)
  | '{' :: rest => .ok (.bracket .object, rest)
  | c :: rest =>
    if c = '-' ∨ c.isDigit then
      match Numeral.read .invalidNumber (c :: rest) with
      | .error e => .error e
      | .ok (_, rest) => .ok (.scalar, rest)
    else .error (.next .valueExpected (c :: rest))

/-- Passes what stands before the value of a member: nothing in a list, a key in an object. -/
def skipKey (bracket : Bracket) (text : List Char) : Except Failure (List Char) :=
  match bracket with
  | .list => .ok text
  | .object =>
    match dropSpace text with
    | [] => .error (.next .endInObject [])
    | '"' :: rest =>
      match skipQuoted rest with
      | .error e => .error e
      | .ok rest => readColon rest
    | text => .error (.next .keyNotText text)

/-- Where a skipper stands: past the value, or before a value inside open brackets. -/
inductive Progress
  | done (rest : List Char)
  | within (stack : List Bracket) (rest : List Char)

/-- Goes on to the value of a member. -/
def skipMember (bracket : Bracket) (stack : List Bracket) (text : List Char) :
    Except Failure Progress :=
  match skipKey bracket text with
  | .error e => .error e
  | .ok rest => .ok (.within (bracket :: stack) rest)

/-- Goes on after a value inside open brackets, and closes those that end there. -/
def skipAfter (stack : List Bracket) (text : List Char) : Except Failure Progress :=
  match stack with
  | [] => .ok (.done text)
  | bracket :: stack =>
    match dropSpace text with
    | [] => .error (.next bracket.endProblem [])
    | c :: rest =>
      -- the stack is gone down only when its top bracket closes
      if c = ',' then skipMember bracket stack rest
      else if c = bracket.closing then skipAfter stack rest
      else .error (.next bracket.separatorProblem (c :: rest))

/-- Goes on after an opening bracket. -/
def skipOpened (bracket : Bracket) (stack : List Bracket) (text : List Char) :
    Except Failure Progress :=
  match dropSpace text with
  | [] => .error (.next bracket.endProblem [])
  | c :: rest =>
    if c = bracket.closing then skipAfter stack rest else skipMember bracket stack (c :: rest)

/-- Goes on after the start of a value. -/
def skipOn (opening : Opening) (stack : List Bracket) (text : List Char) :
    Except Failure Progress :=
  match opening with
  | .scalar => skipAfter stack text
  | .bracket b => skipOpened b stack text

def Progress.rest : Progress → List Char
  | .done rest => rest
  | .within _ rest => rest

theorem skipWord_le {word text rest : List Char} {opening : Opening}
    (skip : skipWord word text = .ok (opening, rest)) : rest.length ≤ text.length := by
  unfold skipWord at skip
  split at skip
  · cases skip
  next found =>
    cases skip
    exact readWord_le found

theorem skipOpening_shrinks {text rest : List Char} {opening : Opening}
    (skip : skipOpening text = .ok (opening, rest)) : rest.length < text.length := by
  unfold skipOpening at skip
  split at skip
  · cases skip
  next start => exact Nat.lt_of_le_of_lt (skipWord_le skip) (length_lt_of_dropSpace start)
  next start => exact Nat.lt_of_le_of_lt (skipWord_le skip) (length_lt_of_dropSpace start)
  next start => exact Nat.lt_of_le_of_lt (skipWord_le skip) (length_lt_of_dropSpace start)
  next start =>
    split at skip
    · cases skip
    next found =>
      cases skip
      exact Nat.lt_trans (skipQuoted_shrinks found) (length_lt_of_dropSpace start)
  next start =>
    cases skip
    exact length_lt_of_dropSpace start
  next start =>
    cases skip
    exact length_lt_of_dropSpace start
  next start =>
    split at skip
    · split at skip
      · cases skip
      next found =>
        cases skip
        exact Nat.lt_of_lt_of_le (Numeral.read_shrinks found) (start ▸ length_dropSpace_le text)
    · cases skip

theorem skipKey_le {bracket : Bracket} {text rest : List Char}
    (skip : skipKey bracket text = .ok rest) : rest.length ≤ text.length := by
  unfold skipKey at skip
  split at skip
  · simp at skip; simp [skip]
  · split at skip
    · cases skip
    next start =>
      split at skip
      · cases skip
      next found =>
        have := length_lt_of_dropSpace start
        have := skipQuoted_shrinks found
        have := readColon_shrinks skip
        omega
    · cases skip

theorem skipMember_le {bracket : Bracket} {stack : List Bracket} {text : List Char}
    {progress : Progress} (skip : skipMember bracket stack text = .ok progress) :
    progress.rest.length ≤ text.length := by
  unfold skipMember at skip
  split at skip
  · cases skip
  next found =>
    cases skip
    exact skipKey_le found

theorem skipAfter_le {stack : List Bracket} {text : List Char} {progress : Progress}
    (skip : skipAfter stack text = .ok progress) : progress.rest.length ≤ text.length := by
  induction stack generalizing text with
  | nil => simp [skipAfter] at skip; simp [← skip, Progress.rest]
  | cons bracket stack ih =>
    unfold skipAfter at skip
    split at skip
    · cases skip
    next start =>
      have := length_lt_of_dropSpace start
      split at skip
      · have := skipMember_le skip
        omega
      · split at skip
        · have := ih skip
          omega
        · cases skip

theorem skipOn_le {opening : Opening} {stack : List Bracket} {text : List Char}
    {progress : Progress} (skip : skipOn opening stack text = .ok progress) :
    progress.rest.length ≤ text.length := by
  unfold skipOn at skip
  split at skip
  · exact skipAfter_le skip
  · unfold skipOpened at skip
    split at skip
    · cases skip
    next start =>
      have := length_lt_of_dropSpace start
      split at skip
      · have := skipAfter_le skip
        omega
      · have := skipMember_le skip
        simp only [List.length_cons] at this
        omega

/-- Passes the value at the start of a text and all that is left of the open brackets around it. -/
def skipWithin (stack : List Bracket) (text : List Char) : Except Failure (List Char) :=
  match start : skipOpening text with
  | .error e => .error e
  | .ok (opening, rest) =>
    match goOn : skipOn opening stack rest with
    | .error e => .error e
    | .ok (.done left) => .ok left
    | .ok (.within stack left) =>
      have := skipOpening_shrinks start
      have := skipOn_le goOn
      skipWithin stack left
termination_by text.length
decreasing_by simp only [Progress.rest] at *; omega

theorem skipWithin_shrinks {stack : List Bracket} {text rest : List Char}
    (skip : skipWithin stack text = .ok rest) : rest.length < text.length := by
  fun_induction skipWithin stack text with
  | case1 => cases skip
  | case2 => cases skip
  | case3 _ _ _ _ start _ goOn =>
    have := skipOpening_shrinks start
    have := skipOn_le goOn
    cases skip
    simp only [Progress.rest] at this
    omega
  | case4 _ _ _ _ start _ _ goOn _ _ ih =>
    have := skipOpening_shrinks start
    have := skipOn_le goOn
    have := ih skip
    simp only [Progress.rest] at *
    omega

def skipReader : Reader Unit where
  read text :=
    match skipWithin [] text with
    | .error e => .error e
    | .ok rest => .ok ((), rest)
  shrinks {text rest a} read := by
    split at read
    · cases read
    next found =>
      cases read
      exact skipWithin_shrinks found

end TransactionLookup.Json
