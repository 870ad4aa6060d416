import TransactionLookup.Proofs.Json.Spelled

/-!
# Values by themselves

What a reader takes from the start of a text depends on nothing behind it: if more text is put
behind and all of that is left, then the same is read without it (`Reader.Confined`). So a value of
the grammar is read inside a container if and only if it is read as a document of its own, and the
comma or bracket behind it makes no difference (`read_iff_document`).
-/

namespace TransactionLookup.Json

variable {text more left : List Char}

/-- Whether a reader looks at nothing behind what it takes. -/
def Reader.Confined {α : Type} (reader : Reader α) : Prop :=
  ∀ {text more left : List Char} {a : α}, reader.read (text ++ more) = .ok (a, left) →
    more.length ≤ left.length → ∃ rest, left = rest ++ more ∧ reader.read text = .ok (a, rest)

/-- A character in front of all that was put behind a text is one of the text. -/
theorem exists_cons_of_append {c : Char} (start : text ++ more = c :: left)
    (long : more.length ≤ left.length) : ∃ rest, left = rest ++ more ∧ text = c :: rest := by
  cases text with
  | nil =>
    rw [List.nil_append] at start
    rw [start, List.length_cons] at long
    omega
  | cons d text =>
    obtain ⟨rfl, rfl⟩ := List.cons.inj start
    exact ⟨text, rfl, rfl⟩

theorem dropSpace_confined {c : Char} (start : dropSpace (text ++ more) = c :: left)
    (long : more.length ≤ left.length) :
    ∃ rest, left = rest ++ more ∧ dropSpace text = c :: rest := by
  cases inner : dropSpace text with
  | nil =>
    -- there is nothing but space in the text, and so the character comes after it
    rw [(dropSpace_eq_nil_iff.mp inner).dropSpace_append] at start
    have := length_lt_of_dropSpace start
    omega
  | cons d rest =>
    rw [dropSpace_append_of_cons inner] at start
    obtain ⟨rfl, rfl⟩ := List.cons.inj start
    exact ⟨rest, rfl, rfl⟩

/-! ## Numbers -/

section Numbers

variable {atEnd : Problem}

theorem spanDigits_confined {ds : List Char} (span : spanDigits (text ++ more) = (ds, left))
    (long : more.length ≤ left.length) :
    ∃ rest, left = rest ++ more ∧ spanDigits text = (ds, rest) := by
  induction text generalizing ds with
  | nil =>
    have whole := spanDigits_append more
    rw [List.nil_append] at span
    rw [span] at whole
    have lengths := congrArg List.length whole
    simp only [List.length_append] at lengths
    -- all is left, and so there are no digits
    obtain rfl : ds = [] := List.eq_nil_of_length_eq_zero (by omega)
    exact ⟨[], whole, rfl⟩
  | cons c text ih =>
    cases digit : c.isDigit with
    | false =>
      simp only [spanDigits, List.cons_append, List.takeWhile_cons, List.dropWhile_cons, digit,
        Bool.false_eq_true, if_false, Prod.mk.injEq] at span ⊢
      exact ⟨c :: text, span.2.symm, span.1, rfl⟩
    | true =>
      simp only [spanDigits, List.cons_append, List.takeWhile_cons, List.dropWhile_cons, digit,
        if_true, Prod.mk.injEq] at span ih ⊢
      obtain ⟨rfl, rest⟩ := span
      obtain ⟨rest, same, digits, behind⟩ := ih ⟨rfl, rest⟩
      exact ⟨rest, same, congrArg (c :: ·) digits, behind⟩

theorem readDigits_confined {ds : List Char}
    (read : readDigits atEnd (text ++ more) = .ok (ds, left)) (long : more.length ≤ left.length) :
    ∃ rest, left = rest ++ more ∧ readDigits atEnd text = .ok (ds, rest) := by
  cases text with
  | nil =>
    have := readDigits_shrinks read
    rw [List.nil_append] at this
    omega
  | cons c text =>
    rw [List.cons_append, readDigits] at read
    rw [readDigits]
    split at read
    next digit =>
      rw [← List.cons_append] at read
      obtain ⟨rest, rfl, span⟩ := spanDigits_confined (Except.ok.inj read) long
      exact ⟨rest, rfl, by rw [if_pos digit, span]⟩
    · cases read

theorem readWhole_confined {ds : List Char} (read : readWhole atEnd (text ++ more) = .ok (ds, left))
    (long : more.length ≤ left.length) :
    ∃ rest, left = rest ++ more ∧ readWhole atEnd text = .ok (ds, rest) := by
  cases text with
  | nil =>
    have := readWhole_shrinks read
    rw [List.nil_append] at this
    omega
  | cons c text =>
    by_cases zero : c = '0'
    · subst zero
      rw [List.cons_append, readWhole_zero] at read
      rw [readWhole_zero]
      have alone : ds = ['0'] ∧ text ++ more = left := by
        split at read
        · split at read
          · cases read
          · cases read
            exact ⟨rfl, rfl⟩
        next empty =>
          cases read
          exact ⟨rfl, empty⟩
      obtain ⟨rfl, rfl⟩ := alone
      refine ⟨text, rfl, ?_⟩
      cases text with
      | nil => rfl
      | cons d text =>
        dsimp only [List.cons_append] at read ⊢
        split at read
        · cases read
        next other => rw [if_neg other]
    · rw [List.cons_append, readWhole_of_ne_zero zero] at read
      rw [readWhole_of_ne_zero zero]
      exact readDigits_confined read long

theorem readFraction_confined {ds : Option (List Char)}
    (read : readFraction atEnd (text ++ more) = .ok (ds, left)) (long : more.length ≤ left.length) :
    ∃ rest, left = rest ++ more ∧ readFraction atEnd text = .ok (ds, rest) := by
  cases text with
  | nil =>
    unfold readFraction at read
    rw [List.nil_append] at read
    split at read
    next tail =>
      split at read
      · cases read
      next found =>
        have := readDigits_shrinks found
        cases read
        rw [List.length_cons] at long
        omega
    · cases read
      exact ⟨[], rfl, rfl⟩
  | cons c text =>
    by_cases point : c = '.'
    · subst point
      rw [List.cons_append, readFraction] at read
      rw [readFraction]
      split at read
      · cases read
      next found =>
        cases read
        obtain ⟨rest, rfl, digits⟩ := readDigits_confined found long
        exact ⟨rest, rfl, by rw [digits]⟩
    · rw [List.cons_append, readFraction_of_ne_point point] at read
      cases read
      exact ⟨c :: text, rfl, readFraction_of_ne_point point text⟩

theorem readExponent_confined {e : Option (Bool × List Char)}
    (read : readExponent atEnd (text ++ more) = .ok (e, left)) (long : more.length ≤ left.length) :
    ∃ rest, left = rest ++ more ∧ readExponent atEnd text = .ok (e, rest) := by
  -- the digits of a power of ten do not begin in what was put behind the text
  have digits {tail ds : List Char} (inside : tail.length ≤ more.length)
      (found : readDigits atEnd (readSign tail).2 = .ok (ds, left)) : False := by
    have := readDigits_shrinks found
    have := length_readSign_le tail
    omega
  cases text with
  | nil =>
    rw [List.nil_append] at read
    cases more with
    | nil =>
      cases read
      exact ⟨[], rfl, rfl⟩
    | cons c tail =>
      rw [readExponent] at read
      split at read
      · split at read
        · cases read
        next found =>
          cases read
          exact absurd found (digits (Nat.le_succ _))
      · cases read
        exact ⟨[], rfl, rfl⟩
  | cons c text =>
    rw [List.cons_append, readExponent] at read
    rw [readExponent]
    split at read
    next letter =>
      rw [if_pos letter]
      split at read
      · cases read
      next found =>
        cases read
        cases text with
        | nil => exact absurd found (digits (Nat.le_refl _))
        | cons d text =>
          rw [readSign_append] at found
          obtain ⟨rest, rfl, power⟩ := readDigits_confined found long
          exact ⟨rest, rfl, by rw [power, readSign_append]⟩
    next other =>
      rw [if_neg other]
      cases read
      exact ⟨c :: text, rfl, rfl⟩

theorem readUnsigned_confined {negative : Bool} {n : Numeral}
    (read : readUnsigned atEnd negative (text ++ more) = .ok (n, left))
    (long : more.length ≤ left.length) :
    ∃ rest, left = rest ++ more ∧ readUnsigned atEnd negative text = .ok (n, rest) := by
  unfold readUnsigned at read
  split at read
  · cases read
  next whole =>
    split at read
    · cases read
    next fraction =>
      split at read
      · cases read
      next exponent =>
        cases read
        have := readFraction_le fraction
        have := readExponent_le exponent
        obtain ⟨_, rfl, whole'⟩ := readWhole_confined whole (by omega)
        obtain ⟨_, rfl, fraction'⟩ := readFraction_confined fraction (by omega)
        obtain ⟨rest, rfl, exponent'⟩ := readExponent_confined exponent long
        exact ⟨rest, rfl, by simp only [readUnsigned, whole', fraction', exponent']⟩

theorem Numeral.read_confined {n : Numeral}
    (read : Numeral.read atEnd (text ++ more) = .ok (n, left)) (long : more.length ≤ left.length) :
    ∃ rest, left = rest ++ more ∧ Numeral.read atEnd text = .ok (n, rest) := by
  unfold Numeral.read at read
  split at read
  next tail minus =>
    have := readUnsigned_shrinks read
    obtain ⟨_, rfl, rfl⟩ := exists_cons_of_append minus (by omega)
    obtain ⟨rest, rfl, unsigned⟩ := readUnsigned_confined read long
    exact ⟨rest, rfl, unsigned⟩
  next other =>
    obtain ⟨rest, rfl, unsigned⟩ := readUnsigned_confined read long
    refine ⟨rest, rfl, ?_⟩
    unfold Numeral.read
    split
    next tail => exact absurd rfl (other (tail ++ more))
    · exact unsigned

theorem Number.read_confined {n : Number} (read : Number.read (text ++ more) = .ok (n, left))
    (long : more.length ≤ left.length) :
    ∃ rest, left = rest ++ more ∧ Number.read text = .ok (n, rest) := by
  unfold Number.read at read ⊢
  split at read
  · cases read
  next found =>
    split at read
    next meant =>
      cases read
      obtain ⟨rest, rfl, numeral⟩ := Numeral.read_confined found long
      exact ⟨rest, rfl, by simp only [numeral, meant]⟩
    · cases read

end Numbers

/-! ## Texts -/

theorem readUnit_confined {n : Nat} (read : readUnit (text ++ more) = .ok (n, left))
    (long : more.length ≤ left.length) :
    ∃ rest, left = rest ++ more ∧ readUnit text = .ok (n, rest) := by
  unfold readUnit at read
  split at read
  · cases read
  next wide =>
    split at read
    next number =>
      cases read
      rw [utf8Length_of_hexNumber? number, List.length_take, List.length_append] at wide
      rw [List.length_drop, List.length_append] at long
      -- the four digits are there, and more than all the rest is left behind them
      have four : 4 ≤ text.length := by omega
      rw [List.take_append_of_le_length four] at number
      refine ⟨text.drop 4, List.drop_append_of_le_length four, ?_⟩
      have size := utf8Length_of_hexNumber? number
      rw [List.length_take, Nat.min_eq_left four] at size
      rw [readUnit, size, if_neg (Nat.lt_irrefl 4), number]
    · cases read

theorem readNumbered_confined {c : Char} (read : readNumbered (text ++ more) = .ok (c, left))
    (long : more.length ≤ left.length) :
    ∃ rest, left = rest ++ more ∧ readNumbered text = .ok (c, rest) := by
  obtain ⟨n, between, first, notLow, alone | pair⟩ := readNumbered_iff.mp read
  · obtain ⟨plain, meant, rfl⟩ := alone
    obtain ⟨rest, rfl, unit⟩ := readUnit_confined first long
    exact ⟨rest, rfl, readNumbered_iff.mpr ⟨n, rest, unit, notLow, .inl ⟨plain, meant, rfl⟩⟩⟩
  · obtain ⟨high, low, after, rfl, second, paired⟩ := pair
    have := readUnit_le second
    obtain ⟨_, slash, unit⟩ := readUnit_confined first (by simp only [List.length_cons]; omega)
    obtain ⟨_, mark, rfl⟩ :=
      exists_cons_of_append slash.symm (by simp only [List.length_cons]; omega)
    obtain ⟨_, rfl, rfl⟩ := exists_cons_of_append mark.symm (by omega)
    obtain ⟨rest, rfl, unit'⟩ := readUnit_confined second long
    exact ⟨rest, rfl, readNumbered_iff.mpr
      ⟨n, _, unit, notLow, .inr ⟨high, low, _, rfl, unit', paired⟩⟩⟩

theorem readEscape_confined {c : Char} (read : readEscape (text ++ more) = .ok (c, left))
    (long : more.length ≤ left.length) :
    ∃ rest, left = rest ++ more ∧ readEscape text = .ok (c, rest) := by
  obtain ⟨tail, start, numbered⟩ | ⟨letter, other, start, meant⟩ := readEscape_iff.mp read
  · have := readNumbered_le numbered
    obtain ⟨_, rfl, rfl⟩ := exists_cons_of_append start (by omega)
    obtain ⟨rest, rfl, alone⟩ := readNumbered_confined numbered long
    exact ⟨rest, rfl, readEscape_iff.mpr (.inl ⟨_, rfl, alone⟩)⟩
  · obtain ⟨rest, rfl, rfl⟩ := exists_cons_of_append start long
    exact ⟨rest, rfl, readEscape_iff.mpr (.inr ⟨letter, other, rfl, meant⟩)⟩

theorem readQuoted_confined {cs : List Char} (read : readQuoted (text ++ more) = .ok (cs, left))
    (long : more.length ≤ left.length) :
    ∃ rest, left = rest ++ more ∧ readQuoted text = .ok (cs, rest) := by
  generalize whole : text ++ more = all at read
  fun_induction readQuoted all generalizing text cs left with
  | case1 => cases read
  | case2 tail =>
    cases read
    obtain ⟨rest, rfl, rfl⟩ := exists_cons_of_append whole long
    exact ⟨rest, rfl, by rw [readQuoted]⟩
  | case3 => cases read
  | case4 => cases read
  | case5 tail c between found _ cs left' inner ih =>
    cases read
    -- what is left is left by the escape already
    have := readQuoted_shrinks inner
    have := readEscape_shrinks found
    obtain ⟨_, rfl, rfl⟩ := exists_cons_of_append whole (by omega)
    obtain ⟨_, rfl, escape⟩ := readEscape_confined found (by omega)
    obtain ⟨rest, rfl, quoted⟩ := ih long rfl inner
    exact ⟨rest, rfl, readQuoted_of_escape escape quoted⟩
  | case6 => cases read
  | case7 => cases read
  | case8 c tail notQuote notBackslash visible cs left' inner ih =>
    cases read
    have := readQuoted_shrinks inner
    obtain ⟨_, rfl, rfl⟩ := exists_cons_of_append whole (by omega)
    obtain ⟨rest, rfl, quoted⟩ := ih long rfl inner
    exact ⟨rest, rfl,
      readQuoted_of_plain notQuote notBackslash (Nat.not_lt.mp visible) quoted⟩

/-! ## Plain values -/

theorem readWord_confined {word : List Char} (read : readWord word (text ++ more) = .ok left)
    (long : more.length ≤ left.length) :
    ∃ rest, left = rest ++ more ∧ readWord word text = .ok rest := by
  induction word generalizing text with
  | nil =>
    rw [readWord] at read
    cases read
    exact ⟨text, rfl, by rw [readWord]⟩
  | cons w word ih =>
    cases start : text ++ more with
    | nil =>
      rw [start, readWord] at read
      cases read
    | cons c tail =>
      rw [start, readWord] at read
      split at read
      next same =>
        have := readWord_le read
        obtain ⟨_, rfl, rfl⟩ := exists_cons_of_append start (by omega)
        obtain ⟨rest, rfl, word⟩ := ih read
        exact ⟨rest, rfl, by rw [readWord, if_pos same, word]⟩
      · cases read

theorem readNamed_confined {scalar : Scalar} {word : List Char} {shape : Shape}
    (read : readNamed scalar word (text ++ more) = .ok (shape, left))
    (long : more.length ≤ left.length) :
    ∃ rest, left = rest ++ more ∧ readNamed scalar word text = .ok (shape, rest) := by
  unfold readNamed at read
  split at read
  · cases read
  next found =>
    cases read
    obtain ⟨rest, rfl, word⟩ := readWord_confined found long
    exact ⟨rest, rfl, by rw [readNamed, word]⟩

theorem readShape_confined {shape : Shape} (read : readShape (text ++ more) = .ok (shape, left))
    (long : more.length ≤ left.length) :
    ∃ rest, left = rest ++ more ∧ readShape text = .ok (shape, rest) := by
  unfold readShape at read
  rw [readShape.eq_def]
  split at read
  · cases read
  next start =>
    obtain ⟨_, rfl, start'⟩ := dropSpace_confined start (Nat.le_trans long (readNamed_le read))
    rw [start']
    exact readNamed_confined read long
  next start =>
    obtain ⟨_, rfl, start'⟩ := dropSpace_confined start (Nat.le_trans long (readNamed_le read))
    rw [start']
    exact readNamed_confined read long
  next start =>
    obtain ⟨_, rfl, start'⟩ := dropSpace_confined start (Nat.le_trans long (readNamed_le read))
    rw [start']
    exact readNamed_confined read long
  next start =>
    split at read
    · cases read
    next found =>
      cases read
      have := readQuoted_shrinks found
      obtain ⟨_, rfl, start'⟩ := dropSpace_confined start (by omega)
      obtain ⟨rest, rfl, quoted⟩ := readQuoted_confined found long
      exact ⟨rest, rfl, by simp only [start', quoted]⟩
  next start =>
    cases read
    obtain ⟨rest, rfl, start'⟩ := dropSpace_confined start long
    exact ⟨rest, rfl, by simp only [start']⟩
  next start =>
    cases read
    obtain ⟨rest, rfl, start'⟩ := dropSpace_confined start long
    exact ⟨rest, rfl, by simp only [start']⟩
  next start =>
    split at read
    next numeral =>
      split at read
      · cases read
      next found =>
        cases read
        -- a number has a digit, so that its first character is one of the text
        have := Number.read_shrinks found
        rw [List.length_cons] at this
        obtain ⟨tail, rfl, start'⟩ := dropSpace_confined start (by omega)
        rw [← List.cons_append] at found
        obtain ⟨rest, rfl, number⟩ := Number.read_confined found long
        refine ⟨rest, rfl, ?_⟩
        rw [← readShape.eq_def, readShape_of_numeral start' numeral, number]
    · cases read

theorem Leaf.confined {α : Type} (leaf : Leaf α) : leaf.reader.Confined := by
  intro text more left a read long
  obtain ⟨s, found, meant⟩ := Leaf.reader_read_iff.mp read
  obtain ⟨rest, rfl, shape⟩ := readShape_confined found long
  exact ⟨rest, rfl, Leaf.reader_read_iff.mpr ⟨s, shape, meant⟩⟩

theorem Reader.Confined.map {α β : Type} {reader : Reader α} (confined : reader.Confined)
    (f : α → β) : (reader.map f).Confined := by
  intro text more left b read long
  obtain ⟨a, taken, rfl⟩ := Reader.map_read_iff.mp read
  obtain ⟨rest, rfl, alone⟩ := confined taken long
  exact ⟨rest, rfl, Reader.map_read_iff.mpr ⟨a, alone, rfl⟩⟩

/-! ## Containers -/

theorem PartAt.confined {first : Bool} {part : List Char} (at_ : PartAt first (text ++ more) part)
    (long : more.length ≤ part.length) :
    ∃ inner, part = inner ++ more ∧ PartAt first text inner := by
  cases at_ with
  | first => exact ⟨text, rfl, .first text⟩
  | later comma =>
    obtain ⟨inner, rfl, comma'⟩ := dropSpace_confined comma long
    exact ⟨inner, rfl, .later comma'⟩

/-- An element that goes on beyond what was put behind a text begins in the text. -/
theorem nextElement_confined {first : Bool} {start : List Char}
    (next : nextElement first (text ++ more) = .ok (.member () start))
    (long : more.length < start.length) :
    ∃ inner, start = inner ++ more ∧ nextElement first text = .ok (.member () inner) := by
  obtain ⟨part, c, tail, at_, found, notBracket, rfl⟩ := nextElement_member_iff.mp next
  rw [List.length_cons] at long
  have := length_lt_of_dropSpace found
  obtain ⟨inner, rfl, inside⟩ := at_.confined (by omega)
  obtain ⟨rest, rfl, start⟩ := dropSpace_confined found (by omega)
  exact ⟨c :: rest, rfl,
    nextElement_member_iff.mpr ⟨inner, c, rest, inside, start, notBracket, rfl⟩⟩

theorem nextKey_confined {first : Bool} {start : List Char} {name : String}
    (next : nextKey first (text ++ more) = .ok (.member name start))
    (long : more.length ≤ start.length) :
    ∃ inner, start = inner ++ more ∧ nextKey first text = .ok (.member name inner) := by
  obtain ⟨part, tail, cs, at_, found, read, named⟩ := nextKey_member_iff.mp next
  have := length_lt_of_dropSpace found
  have := readQuoted_shrinks read
  obtain ⟨inner, rfl, inside⟩ := at_.confined (by omega)
  obtain ⟨_, rfl, start⟩ := dropSpace_confined found (by omega)
  obtain ⟨rest, rfl, quoted⟩ := readQuoted_confined read long
  exact ⟨rest, rfl, nextKey_member_iff.mpr ⟨inner, _, cs, inside, start, quoted, named⟩⟩

theorem Reader.Confined.afterColon {α : Type} {reader : Reader α} (confined : reader.Confined) :
    (afterColon reader).Confined := by
  intro text more left a read long
  obtain ⟨behind, colon, read⟩ := afterColon_read_iff.mp read
  have := reader.shrinks read
  obtain ⟨_, rfl, start⟩ := dropSpace_confined (readColon_iff.mp colon) (by omega)
  obtain ⟨rest, rfl, alone⟩ := confined read long
  exact ⟨rest, rfl, afterColon_read_iff.mpr ⟨_, readColon_iff.mpr start, alone⟩⟩

theorem readElements_confined {α : Type} {item : Reader α} (confined : item.Confined) {first : Bool}
    {as : List α} (read : readElements item first (text ++ more) = .ok (as, left))
    (long : more.length ≤ left.length) :
    ∃ rest, left = rest ++ more ∧ readElements item first text = .ok (as, rest) := by
  generalize whole : text ++ more = all at read
  fun_induction readElements item first all generalizing text as left with
  | case1 => cases read
  | case2 first all closed next =>
    cases read
    subst whole
    obtain ⟨rest, rfl, start⟩ := dropSpace_confined (nextElement_close_iff.mp next) long
    exact ⟨rest, rfl, readElements_of_close (nextElement_close_iff.mpr start)⟩
  | case3 => cases read
  | case4 => cases read
  | case5 first all start next a between found _ _ as left' inner ih =>
    cases read
    subst whole
    have := readElements_shrinks inner
    have := item.shrinks found
    obtain ⟨_, rfl, next'⟩ := nextElement_confined next (by omega)
    obtain ⟨_, rfl, found'⟩ := confined found (by omega)
    obtain ⟨rest, rfl, inner'⟩ := ih long rfl inner
    exact ⟨rest, rfl, readElements_member next' found' inner'⟩

theorem listReader_confined {α : Type} {item : Reader α} (confined : item.Confined) :
    (listReader item).Confined := by
  intro text more left as read long
  simp only [listReader] at read
  split at read
  · cases read
  next found =>
    have := readElements_shrinks read
    obtain ⟨_, rfl, shape⟩ := readShape_confined found (by omega)
    obtain ⟨rest, rfl, elements⟩ := readElements_confined confined read long
    exact ⟨rest, rfl, by simp only [listReader, shape, elements]⟩
  · cases read

/-- Whether parts stand in a text from the first on or from a later one on, up to the bracket that
closes them and what is behind it. After each part there may be space. -/
inductive Lined (closing : Char) (rest : List Char) : Bool → List Char → List (List Char) → Prop
  | done {first : Bool} {text : List Char} (closed : dropSpace text = closing :: rest) :
      Lined closing rest first text []
  | part {first : Bool} {text part tail : List Char} {parts : List (List Char)}
      (follows : Follows tail) (at_ : PartAt first text (part ++ tail))
      (more : ∀ {blank : List Char}, Blank blank → Lined closing rest false (blank ++ tail) parts) :
      Lined closing rest first text (part :: parts)

theorem lined_later (bracket : Bracket) (parts : List (List Char)) {blank : List Char}
    (space : Blank blank) (rest : List Char) :
    Lined bracket.closing rest false (blank ++ (afterFirst parts ++ bracket.closing :: rest))
      parts := by
  induction parts generalizing blank with
  | nil =>
    apply Lined.done
    exact (space.dropSpace_append _).trans (dropSpace_of_not_space bracket.closing_not_space rest)
  | cons part parts ih =>
    rw [afterFirst_cons_append]
    exact .part (follows_afterFirst parts (follows_closing bracket rest))
      (partAt_blank_comma space _) ih

theorem Encloses.lined {parts : List (List Char)} {inner : List Char}
    (encloses : Encloses parts inner) (bracket : Bracket) (rest : List Char) :
    Lined bracket.closing rest true (inner ++ bracket.closing :: rest) parts := by
  have empty {blank : List Char} (space : Blank blank) :
      Lined bracket.closing rest true (blank ++ bracket.closing :: rest) [] :=
    .done ((space.dropSpace_append _).trans (dropSpace_of_not_space bracket.closing_not_space rest))
  rcases encloses with rfl | ⟨rfl, space⟩
  · cases parts with
    | nil => exact empty .nil
    | cons part parts =>
      rw [separated_cons_append]
      exact .part (follows_afterFirst parts (follows_closing bracket rest)) (.first _)
        fun space => lined_later bracket parts space rest
  · exact empty space

/-! ## Space before values -/

/-- Whether space before a value does not matter to a reader. -/
def Reader.IgnoresSpace {α : Type} (reader : Reader α) : Prop :=
  ∀ text, reader.read (dropSpace text) = reader.read text

theorem readShape_dropSpace (text : List Char) : readShape (dropSpace text) = readShape text := by
  rw [readShape, dropSpace_dropSpace, readShape]

theorem Leaf.ignoresSpace {α : Type} (leaf : Leaf α) : leaf.reader.IgnoresSpace := by
  intro text
  simp only [Leaf.reader, readShape_dropSpace]

theorem Reader.IgnoresSpace.map {α β : Type} {reader : Reader α} (ignores : reader.IgnoresSpace)
    (f : α → β) : (reader.map f).IgnoresSpace := by
  intro text
  simp only [Reader.map, ignores text]

theorem listReader_ignoresSpace {α : Type} (item : Reader α) : (listReader item).IgnoresSpace := by
  intro text
  simp only [listReader, readShape_dropSpace]

/-! ## Documents -/

/-- A value is read inside a container just as it is read alone, and all that reads it leaves the
same. -/
theorem WellFormed.read_iff_document (formed : WellFormed text) {rest : List Char}
    (follows : Follows rest) :
    ∃ after, Blank after ∧ ∀ {α : Type} {reader : Reader α}, reader.Local → reader.Passing →
      reader.Confined → ∀ {a : α} {left : List Char},
        reader.read (text ++ rest) = .ok (a, left) ↔
          reader.document text = .ok a ∧ left = after ++ rest := by
  obtain ⟨after, blank, passes⟩ := formed.passes follows
  refine ⟨after, blank, fun {α reader} sound passing confined a left => ?_⟩
  constructor
  · intro read
    obtain rfl := (passing read).unique passes
    obtain ⟨between, same, alone⟩ := confined read (by simp)
    obtain rfl := List.append_cancel_right same
    exact ⟨document_ok_iff.mpr ⟨after, alone, blank⟩, rfl⟩
  · rintro ⟨document, rfl⟩
    obtain ⟨between, -, read⟩ := Reader.Local.takes sound document follows
    rw [read, (passing read).unique passes]

end TransactionLookup.Json
