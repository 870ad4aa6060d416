import TransactionLookup.Json.Container
import TransactionLookup.Json.Skip
import TransactionLookup.Proofs.Json.Written

/-!
# The grammar of documents

Which texts are values, said without a reader: a word, a number, a quoted text, or a container whose
parts are values, with space wherever it may stand. The numbers may have any size, an escaped surrogate
may stand alone, and containers may be nested to any depth. A scalar of the grammar is passed whole by
one who skips it.
-/

namespace TransactionLookup.Json

/-- Space, or nothing. -/
def Blank (text : List Char) : Prop := ∀ c ∈ text, isSpace c = true

/-- A text with space around it. -/
def Spaced (core text : List Char) : Prop :=
  ∃ before after, Blank before ∧ Blank after ∧ text = before ++ (core ++ after)

/-! ## Scalars -/

/-- What may stand between quotes. -/
inductive Quotable : List Char → Prop
  | nil : Quotable []
  | plain {c : Char} {cs : List Char} (notQuote : c ≠ '"') (notBackslash : c ≠ '\\')
      (visible : 0x20 ≤ c.toNat) (more : Quotable cs) : Quotable (c :: cs)
  | escaped {c : Char} {cs : List Char} (letter : c ∈ ['"', '\\', '/', 'b', 'f', 'n', 'r', 't'])
      (more : Quotable cs) : Quotable ('\\' :: c :: cs)
  | numbered {a b c d : Char} {cs : List Char}
      (hex : ∀ digit ∈ [a, b, c, d], digit ∈ "0123456789abcdefABCDEF".toList)
      (more : Quotable cs) : Quotable ('\\' :: 'u' :: a :: b :: c :: d :: cs)

def IsQuoted (text : List Char) : Prop := ∃ cs, Quotable cs ∧ text = '"' :: (cs ++ ['"'])

def IsDigits (text : List Char) : Prop := text ≠ [] ∧ ∀ c ∈ text, c.isDigit = true

/-- Digits, of which a leading zero stands alone. -/
def IsWhole (text : List Char) : Prop := text = ['0'] ∨ IsDigits text ∧ text.head? ≠ some '0'

def IsFraction (text : List Char) : Prop := text = [] ∨ ∃ ds, IsDigits ds ∧ text = '.' :: ds

def IsExponent (text : List Char) : Prop :=
  text = [] ∨ ∃ letter sign ds, letter ∈ ['e', 'E'] ∧ sign ∈ [[], ['+'], ['-']] ∧ IsDigits ds ∧
    text = letter :: (sign ++ ds)

def IsNumber (text : List Char) : Prop :=
  ∃ sign whole fraction exponent, sign ∈ [[], ['-']] ∧ IsWhole whole ∧ IsFraction fraction ∧
    IsExponent exponent ∧ text = sign ++ (whole ++ (fraction ++ exponent))

def IsWord (text : List Char) : Prop :=
  text ∈ [['n', 'u', 'l', 'l'], ['t', 'r', 'u', 'e'], ['f', 'a', 'l', 's', 'e']]

def IsScalar (text : List Char) : Prop := IsWord text ∨ IsNumber text ∨ IsQuoted text

/-! ## Containers -/

/-- Parts with a comma between two, or space in the place of none. -/
def Encloses (parts : List (List Char)) (inner : List Char) : Prop :=
  inner = separated parts ∨ parts = [] ∧ Blank inner

def Bracket.opening : Bracket → Char
  | .list => '['
  | .object => '{'

/-- Parts between brackets, with space around them. -/
def Bracketed (bracket : Bracket) (parts : List (List Char)) (text : List Char) : Prop :=
  ∃ inner, Encloses parts inner ∧ Spaced (bracket.opening :: (inner ++ [bracket.closing])) text

/-- A key and a value as they are written, space included. -/
structure Pair where
  key : List Char
  value : List Char

def Pair.text (pair : Pair) : List Char := pair.key ++ ':' :: pair.value

def IsList (items : List (List Char)) (text : List Char) : Prop := Bracketed .list items text

def IsObject (pairs : List Pair) (text : List Char) : Prop :=
  Bracketed .object (pairs.map Pair.text) text

/-- The texts that are values. -/
inductive WellFormed : List Char → Prop
  | scalar {core text : List Char} (isScalar : IsScalar core) (spaced : Spaced core text) :
      WellFormed text
  | list {items : List (List Char)} {text : List Char} (formed : ∀ item ∈ items, WellFormed item)
      (isList : IsList items text) : WellFormed text
  | object {pairs : List Pair} {text : List Char}
      (quoted : ∀ pair ∈ pairs, ∃ core, IsQuoted core ∧ Spaced core pair.key)
      (formed : ∀ pair ∈ pairs, WellFormed pair.value) (isObject : IsObject pairs text) :
      WellFormed text

/-! ## Space -/

variable {text rest before : List Char}

theorem Blank.nil : Blank [] := by simp [Blank]

theorem Blank.dropSpace_append (blank : Blank before) (text : List Char) :
    dropSpace (before ++ text) = dropSpace text :=
  List.dropWhile_append_of_pos blank

theorem dropSpace_eq_nil_iff : dropSpace text = [] ↔ Blank text := by
  induction text with
  | nil => simp [dropSpace, Blank]
  | cons c text ih =>
    cases space : isSpace c with
    | true =>
      have skipped : dropSpace (c :: text) = dropSpace text := by simp [dropSpace, space]
      have blank : Blank (c :: text) ↔ Blank text := by simp [Blank, space]
      rw [skipped, blank, ih]
    | false => simp [dropSpace, Blank, space]

theorem Blank.follows (blank : Blank before) (follows : Follows rest) : Follows (before ++ rest) := by
  cases before with
  | nil => exact follows
  | cons c before => exact .inl (blank c List.mem_cons_self)

/-- Passing space twice is passing it once. -/
theorem dropSpace_dropSpace (text : List Char) : dropSpace (dropSpace text) = dropSpace text := by
  cases start : dropSpace text with
  | nil => rfl
  | cons c rest =>
    refine dropSpace_of_not_space ?_ rest
    have stops := List.head?_dropWhile_not isSpace text
    rw [dropSpace] at start
    rw [start] at stops
    simpa using stops

theorem dropSpace_eq_cons_of_spaced {core : List Char} {c : Char} (spaced : Spaced (c :: core) text)
    (visible : isSpace c = false) (rest : List Char) :
    ∃ after, Blank after ∧ dropSpace (text ++ rest) = c :: (core ++ (after ++ rest)) := by
  obtain ⟨before, after, leading, trailing, rfl⟩ := spaced
  refine ⟨after, trailing, ?_⟩
  rw [List.append_assoc, leading.dropSpace_append]
  simpa using dropSpace_of_not_space visible (core ++ (after ++ rest))

/-! ## Quoted texts -/

theorem hexValue?_of_mem : ∀ c ∈ "0123456789abcdefABCDEF".toList, (hexValue? c).isSome = true :=
  List.all_eq_true.mp (by decide)

theorem escaped?_of_mem :
    ∀ c ∈ ['"', '\\', '/', 'b', 'f', 'n', 'r', 't'], (escaped? c).isSome = true :=
  List.all_eq_true.mp (by decide)

theorem readUnit_of_hex {a b c d : Char}
    (hex : ∀ digit ∈ [a, b, c, d], digit ∈ "0123456789abcdefABCDEF".toList) (rest : List Char) :
    ∃ n, readUnit (a :: b :: c :: d :: rest) = .ok (n, rest) := by
  have value (digit : Char) (member : digit ∈ [a, b, c, d]) : ∃ n, hexValue? digit = some n :=
    Option.isSome_iff_exists.mp (hexValue?_of_mem digit (hex digit member))
  obtain ⟨na, ha⟩ := value a (by simp)
  obtain ⟨nb, hb⟩ := value b (by simp)
  obtain ⟨nc, hc⟩ := value c (by simp)
  obtain ⟨nd, hd⟩ := value d (by simp)
  have long := length_le_utf8Length [a, b, c, d]
  have number : ∃ n, hexNumber? [a, b, c, d] = some n := by simp [hexNumber?, ha, hb, hc, hd]
  obtain ⟨n, number⟩ := number
  refine ⟨n, ?_⟩
  unfold readUnit
  simp only [List.take_succ_cons, List.take_zero, List.drop_succ_cons, List.drop_zero, number]
  exact if_neg (Nat.not_lt.mpr long)

theorem skipQuoted_of_escape (first : skipEscape text = .ok rest) :
    skipQuoted ('\\' :: text) = skipQuoted rest := by
  rw [skipQuoted]
  split
  next failed => rw [first] at failed; cases failed
  next found =>
    rw [first] at found
    cases found
    rfl

theorem skipQuoted_of_plain {c : Char} (notQuote : c ≠ '"') (notBackslash : c ≠ '\\')
    (visible : 0x20 ≤ c.toNat) (rest : List Char) : skipQuoted (c :: rest) = skipQuoted rest := by
  rw [skipQuoted]
  · exact if_neg (Nat.not_lt.mpr visible)
  · exact notQuote
  · exact notBackslash

theorem Quotable.skip {cs : List Char} (quotable : Quotable cs) (rest : List Char) :
    skipQuoted (cs ++ '"' :: rest) = .ok rest := by
  induction quotable with
  | nil => rw [List.nil_append, skipQuoted]
  | plain notQuote notBackslash visible _ ih =>
    rw [List.cons_append, skipQuoted_of_plain notQuote notBackslash visible, ih]
  | @escaped c cs letter _ ih =>
    obtain ⟨e, meant⟩ := Option.isSome_iff_exists.mp (escaped?_of_mem c letter)
    have other : c ≠ 'u' := by
      rintro rfl
      cases meant
    have skip : skipEscape (c :: (cs ++ '"' :: rest)) = .ok (cs ++ '"' :: rest) := by
      simp only [skipEscape, if_neg other, meant]
    exact (skipQuoted_of_escape skip).trans ih
  | @numbered a b c d cs hex _ ih =>
    obtain ⟨n, unit⟩ := readUnit_of_hex hex (cs ++ '"' :: rest)
    have skip : skipEscape ('u' :: a :: b :: c :: d :: (cs ++ '"' :: rest)) =
        .ok (cs ++ '"' :: rest) := by
      simp only [skipEscape, if_pos, unit]
    exact (skipQuoted_of_escape skip).trans ih

theorem hexDigit_mem : ∀ d < 16, Text.hexDigit d ∈ "0123456789abcdefABCDEF".toList := by decide

theorem quotable_escape_append {cs : List Char} (c : Char) (more : Quotable cs) :
    Quotable (escape c ++ cs) := by
  unfold escape
  split
  case h_8 notQuote notBackslash _ _ _ _ _ =>
    split
    next control =>
      refine .numbered ?_ more
      have high := hexDigit_mem (c.toNat / 16) (by omega)
      have low := hexDigit_mem (c.toNat % 16) (by omega)
      simp only [List.forall_mem_cons]
      exact ⟨by decide, by decide, high, low, List.forall_mem_nil _⟩
    next visible => exact .plain notQuote notBackslash (Nat.not_lt.mp visible) more
  all_goals exact .escaped (by decide) more

/-- Any text can stand between quotes as it is written. -/
theorem isQuoted_quote (text : List Char) : IsQuoted (quote text) := by
  refine ⟨text.flatMap escape, ?_, rfl⟩
  induction text with
  | nil => exact .nil
  | cons c text ih =>
    rw [List.flatMap_cons]
    exact quotable_escape_append c ih

/-! ## Numbers -/

section Numbers

variable (atEnd : Problem) {ds : List Char}

theorem IsDigits.read (digits : IsDigits ds) (stop : NoDigit rest) :
    readDigits atEnd (ds ++ rest) = .ok (ds, rest) := by
  obtain ⟨written, all⟩ := digits
  cases ds with
  | nil => exact absurd rfl written
  | cons d ds =>
    rw [List.cons_append, readDigits, if_pos (all d List.mem_cons_self), ← List.cons_append,
      spanDigits_of_noDigit all stop]

theorem IsWhole.read {whole : List Char} (isWhole : IsWhole whole) (stop : NoDigit rest) :
    readWhole atEnd (whole ++ rest) = .ok (whole, rest) := by
  rcases isWhole with rfl | ⟨digits, other⟩
  · cases rest with
    | nil => rfl
    | cons c rest =>
      have other : c.isDigit = false := stop c rfl
      simp [readWhole, other]
  · have read := digits.read atEnd stop
    obtain ⟨written, -⟩ := digits
    cases whole with
    | nil => exact absurd rfl written
    | cons d ds =>
      unfold readWhole
      split
      next same => exact absurd (congrArg some (List.cons.inj same).1) other
      · exact read

theorem IsDigits.head {c : Char} (digits : IsDigits (c :: ds)) : c.isDigit = true :=
  digits.2 c List.mem_cons_self

theorem IsFraction.read {fraction : List Char} (isFraction : IsFraction fraction)
    (noPoint : ∀ c ∈ rest.head?, c.isDigit = false ∧ c ≠ '.') :
    ∃ found, readFraction atEnd (fraction ++ rest) = .ok (found, rest) := by
  rcases isFraction with rfl | ⟨ds, digits, rfl⟩
  · refine ⟨none, ?_⟩
    rw [List.nil_append]
    unfold readFraction
    split
    next tail => exact absurd rfl (noPoint '.' rfl).2
    · rfl
  · refine ⟨some ds, ?_⟩
    have read := digits.read atEnd fun c member => (noPoint c member).1
    rw [List.cons_append, readFraction, read]

theorem readSign_of_digit {c : Char} (digit : c.isDigit = true) (rest : List Char) :
    readSign (c :: rest) = (false, c :: rest) := by
  unfold readSign
  split
  next same =>
    obtain ⟨rfl, -⟩ := List.cons.inj same
    cases digit
  next same =>
    obtain ⟨rfl, -⟩ := List.cons.inj same
    cases digit
  · rfl

theorem readSign_append_digits {sign : List Char} (isSign : sign ∈ [[], ['+'], ['-']])
    (digits : IsDigits ds) (rest : List Char) :
    (readSign (sign ++ (ds ++ rest))).2 = ds ++ rest := by
  cases ds with
  | nil => exact absurd rfl digits.1
  | cons d ds =>
    simp only [List.mem_cons, List.not_mem_nil, or_false] at isSign
    rcases isSign with rfl | rfl | rfl
    · rw [List.nil_append, List.cons_append, readSign_of_digit digits.head]
    · rfl
    · rfl

theorem IsExponent.read {exponent : List Char} (isExponent : IsExponent exponent)
    (follows : Follows rest) :
    ∃ found, readExponent atEnd (exponent ++ rest) = .ok (found, rest) := by
  rcases isExponent with rfl | ⟨letter, sign, ds, isLetter, isSign, digits, rfl⟩
  · exact ⟨none, follows.no_exponent atEnd⟩
  · refine ⟨some ((readSign (sign ++ (ds ++ rest))).1, ds), ?_⟩
    have marked : letter = 'e' ∨ letter = 'E' := by simpa using isLetter
    simp only [List.cons_append, List.append_assoc, readExponent, if_pos marked,
      readSign_append_digits isSign digits, digits.read atEnd follows.noDigit]

/-- Neither a power of ten nor what follows a value begins as a fraction or goes on with a digit. -/
theorem IsExponent.no_point {exponent : List Char} (isExponent : IsExponent exponent)
    (follows : Follows rest) : ∀ c ∈ (exponent ++ rest).head?, c.isDigit = false ∧ c ≠ '.' := by
  rcases isExponent with rfl | ⟨letter, sign, ds, isLetter, -, -, rfl⟩
  · cases rest with
    | nil => simp
    | cons c rest =>
      rcases follows.cases with rfl | rfl | rfl | rfl | rfl | rfl | rfl <;> simp
  · have marked : letter = 'e' ∨ letter = 'E' := by simpa using isLetter
    rcases marked with rfl | rfl <;> simp

theorem IsFraction.noDigit {fraction : List Char} (isFraction : IsFraction fraction)
    (stop : NoDigit rest) : NoDigit (fraction ++ rest) := by
  rcases isFraction with rfl | ⟨ds, -, rfl⟩
  · exact stop
  · simp [NoDigit]

theorem IsWhole.head {whole : List Char} (isWhole : IsWhole whole) :
    ∃ d ds, whole = d :: ds ∧ d.isDigit = true := by
  rcases isWhole with rfl | ⟨digits, -⟩
  · exact ⟨'0', [], rfl, rfl⟩
  · cases whole with
    | nil => exact absurd rfl digits.1
    | cons d ds => exact ⟨d, ds, rfl, digits.head⟩

theorem IsNumber.head (isNumber : IsNumber text) :
    ∃ c tail, text = c :: tail ∧ (c = '-' ∨ c.isDigit = true) := by
  obtain ⟨sign, whole, fraction, exponent, isSign, isWhole, -, -, rfl⟩ := isNumber
  obtain ⟨d, ds, rfl, digit⟩ := isWhole.head
  have marked : sign = [] ∨ sign = ['-'] := by simpa using isSign
  rcases marked with rfl | rfl
  · exact ⟨d, _, rfl, .inr digit⟩
  · exact ⟨'-', _, rfl, .inl rfl⟩

theorem IsNumber.read (isNumber : IsNumber text) (follows : Follows rest) :
    ∃ n, Numeral.read atEnd (text ++ rest) = .ok (n, rest) := by
  obtain ⟨sign, whole, fraction, exponent, isSign, isWhole, isFraction, isExponent, rfl⟩ := isNumber
  have stop := isExponent.no_point follows
  obtain ⟨fractionFound, readsFraction⟩ := isFraction.read atEnd stop
  obtain ⟨exponentFound, readsExponent⟩ := isExponent.read atEnd follows
  have readsWhole := isWhole.read atEnd
    (isFraction.noDigit fun c member => (stop c member).1)
  have unsigned (negative : Bool) :
      readUnsigned atEnd negative (whole ++ (fraction ++ (exponent ++ rest))) =
        .ok (⟨negative, whole, fractionFound, exponentFound⟩, rest) := by
    simp only [readUnsigned, readsWhole, readsFraction, readsExponent]
  have marked : sign = [] ∨ sign = ['-'] := by simpa using isSign
  simp only [List.append_assoc]
  rcases marked with rfl | rfl
  · refine ⟨⟨false, whole, fractionFound, exponentFound⟩, ?_⟩
    rw [List.nil_append, Numeral.read]
    · exact unsigned false
    · -- a minus is no digit
      obtain ⟨d, ds, rfl, digit⟩ := isWhole.head
      intro tail same
      rw [(List.cons.inj same).1] at digit
      cases digit
  · exact ⟨_, unsigned true⟩

end Numbers

/-! ## Scalars passed -/

theorem skipOpening_of_numeral {c : Char} (start : dropSpace text = c :: rest)
    (numeral : c = '-' ∨ c.isDigit = true) :
    skipOpening text =
      match Numeral.read .invalidNumber (c :: rest) with
      | .error e => .error e
      | .ok (_, rest) => .ok (.scalar, rest) := by
  rw [skipOpening, start]
  split
  case h_8 same =>
    obtain ⟨rfl, rfl⟩ := List.cons.inj same
    exact if_pos numeral
  all_goals next same => cases same <;> exact absurd numeral (by decide)

theorem not_space_of_numeral {c : Char} (numeral : c = '-' ∨ c.isDigit = true) :
    isSpace c = false := by
  rcases numeral with rfl | digit
  · rfl
  · exact not_space_of_isDigit digit

theorem IsWord.cases (word : IsWord text) :
    text = ['n', 'u', 'l', 'l'] ∨ text = ['t', 'r', 'u', 'e'] ∨ text = ['f', 'a', 'l', 's', 'e'] := by
  simpa [IsWord] using word

theorem IsScalar.skip {core : List Char} (isScalar : IsScalar core) (follows : Follows rest) :
    skipOpening (core ++ rest) = .ok (.scalar, rest) := by
  rcases isScalar with word | number | ⟨cs, quotable, rfl⟩
  · rcases word.cases with rfl | rfl | rfl <;> rfl
  · obtain ⟨n, read⟩ := number.read .invalidNumber follows
    obtain ⟨c, tail, rfl, numeral⟩ := number.head
    have start := dropSpace_of_not_space (not_space_of_numeral numeral) (tail ++ rest)
    rw [List.cons_append, skipOpening_of_numeral start numeral, ← List.cons_append, read]
  · rw [List.cons_append, List.append_assoc, List.singleton_append, skipOpening,
      dropSpace_of_not_space rfl]
    simp only [quotable.skip]

/-- A scalar begins as a value does. -/
theorem IsScalar.opens {core : List Char} (isScalar : IsScalar core) : Opens core := by
  rcases isScalar with word | number | ⟨cs, -, rfl⟩
  · rcases word.cases with rfl | rfl | rfl <;> exact ⟨_, _, rfl, rfl, by decide⟩
  · obtain ⟨c, tail, rfl, numeral⟩ := number.head
    refine ⟨c, tail, rfl, not_space_of_numeral numeral, ?_⟩
    rintro rfl
    exact absurd numeral (by decide)
  · exact ⟨'"', _, rfl, rfl, by decide⟩

theorem Opens.append (opens : Opens text) (rest : List Char) : Opens (text ++ rest) := by
  obtain ⟨c, tail, rfl, visible, notBracket⟩ := opens
  exact ⟨c, tail ++ rest, rfl, visible, notBracket⟩

/-- After its space, a value begins as a value does. -/
theorem WellFormed.opens (formed : WellFormed text) (rest : List Char) :
    Opens (dropSpace (text ++ rest)) := by
  have spaced {core : List Char} (opens : Opens core) (around : Spaced core text) :
      Opens (dropSpace (text ++ rest)) := by
    obtain ⟨before, after, leading, -, rfl⟩ := around
    rw [List.append_assoc, leading.dropSpace_append, List.append_assoc, opens.dropSpace_append]
    exact opens.append _
  cases formed with
  | scalar isScalar around => exact spaced isScalar.opens around
  | list _ isList =>
    obtain ⟨inner, -, around⟩ := isList
    exact spaced ⟨'[', _, rfl, rfl, by decide⟩ around
  | object _ _ isObject =>
    obtain ⟨inner, -, around⟩ := isObject
    exact spaced ⟨'{', _, rfl, rfl, by decide⟩ around

end TransactionLookup.Json
