import TransactionLookup.Proofs.Json.Parts
import TransactionLookup.Proofs.Json.Written

/-!
# Values in context

A reader that takes a value from the start of a text takes the same value when more text is put behind
what it leaves, as long as that is something that may follow a value. So what is read from a text alone is
read from it wherever it stands in a document (`Local`).
-/

namespace TransactionLookup.Json

variable {text rest more : List Char}

/-- Whether a reader leaves alone what may follow a value. -/
def Reader.Local {α : Type} (reader : Reader α) : Prop :=
  ∀ {text rest : List Char} {a : α} {more : List Char}, Follows more →
    reader.read text = .ok (a, rest) → reader.read (text ++ more) = .ok (a, rest ++ more)

theorem dropSpace_append_of_cons {c : Char} (start : dropSpace text = c :: rest)
    (more : List Char) : dropSpace (text ++ more) = c :: (rest ++ more) := by
  have visible : (dropSpace text).isEmpty = false := by rw [start]; rfl
  rw [dropSpace] at visible start ⊢
  rw [List.dropWhile_append, if_neg (by simp [visible]), start, List.cons_append]

/-! ## Numbers -/

section Numbers

variable {atEnd : Problem}

theorem spanDigits_append_of_follows (text : List Char) (follows : Follows more) :
    spanDigits (text ++ more) = ((spanDigits text).1, (spanDigits text).2 ++ more) := by
  induction text with
  | nil =>
    cases more with
    | nil => rfl
    | cons c more => simp [spanDigits, follows.not_digit]
  | cons c text ih =>
    cases digit : c.isDigit with
    | true => simpa [spanDigits, digit] using ih
    | false => simp [spanDigits, digit]

theorem readDigits_append {ds : List Char} (follows : Follows more)
    (read : readDigits atEnd text = .ok (ds, rest)) :
    readDigits atEnd (text ++ more) = .ok (ds, rest ++ more) := by
  cases text with
  | nil => cases read
  | cons c text =>
    rw [readDigits] at read
    rw [List.cons_append, readDigits, ← List.cons_append, spanDigits_append_of_follows _ follows]
    split at read
    next digit =>
      rw [if_pos digit]
      cases read
      rfl
    · cases read

theorem readWhole_zero (tail : List Char) : readWhole atEnd ('0' :: tail) =
    match tail with
    | c :: _ => if c.isDigit then .error (.next .invalidNumber tail) else .ok (['0'], tail)
    | [] => .ok (['0'], []) := rfl

theorem readWhole_of_ne_zero {c : Char} (other : c ≠ '0') (tail : List Char) :
    readWhole atEnd (c :: tail) = readDigits atEnd (c :: tail) := by
  unfold readWhole
  split
  next same => exact absurd (List.cons.inj same).1 other
  · rfl

theorem readWhole_append {ds : List Char} (follows : Follows more)
    (read : readWhole atEnd text = .ok (ds, rest)) :
    readWhole atEnd (text ++ more) = .ok (ds, rest ++ more) := by
  cases text with
  | nil => cases read
  | cons c text =>
    by_cases zero : c = '0'
    · subst zero
      rw [readWhole_zero] at read
      rw [List.cons_append, readWhole_zero]
      cases text with
      | nil =>
        cases read
        -- the zero stands at the end of the text, and no digit follows
        cases more with
        | nil => rfl
        | cons c more => simp [follows.not_digit]
      | cons d text =>
        dsimp only [List.cons_append] at read ⊢
        split at read
        · cases read
        next other =>
          rw [if_neg other]
          cases read
          rfl
    · rw [readWhole_of_ne_zero zero] at read
      rw [List.cons_append, readWhole_of_ne_zero zero]
      exact readDigits_append follows read

theorem readFraction_of_ne_point {c : Char} (other : c ≠ '.') (tail : List Char) :
    readFraction atEnd (c :: tail) = .ok (none, c :: tail) := by
  unfold readFraction
  split
  next same => exact absurd (List.cons.inj same).1 other
  · rfl

theorem readFraction_append {ds : Option (List Char)} (follows : Follows more)
    (read : readFraction atEnd text = .ok (ds, rest)) :
    readFraction atEnd (text ++ more) = .ok (ds, rest ++ more) := by
  cases text with
  | nil =>
    cases read
    exact follows.no_fraction atEnd
  | cons c text =>
    by_cases point : c = '.'
    · subst point
      rw [readFraction] at read
      rw [List.cons_append, readFraction]
      split at read
      · cases read
      next found =>
        rw [readDigits_append follows found]
        cases read
        rfl
    · rw [readFraction_of_ne_point point] at read
      cases read
      exact readFraction_of_ne_point point (text ++ more)

theorem readSign_append (c : Char) (text more : List Char) :
    readSign (c :: text ++ more) = ((readSign (c :: text)).1, (readSign (c :: text)).2 ++ more) := by
  rw [List.cons_append, readSign.eq_def, readSign.eq_def]
  split
  next same =>
    obtain ⟨rfl, rfl⟩ := List.cons.inj same
    rfl
  next same =>
    obtain ⟨rfl, rfl⟩ := List.cons.inj same
    rfl
  next plus minus =>
    split
    next same => exact absurd (by rw [(List.cons.inj same).1]) (plus (text ++ more))
    next same => exact absurd (by rw [(List.cons.inj same).1]) (minus (text ++ more))
    · rfl

theorem readExponent_append {e : Option (Bool × List Char)} (follows : Follows more)
    (read : readExponent atEnd text = .ok (e, rest)) :
    readExponent atEnd (text ++ more) = .ok (e, rest ++ more) := by
  cases text with
  | nil =>
    cases read
    exact follows.no_exponent atEnd
  | cons c text =>
    rw [readExponent] at read
    rw [List.cons_append, readExponent]
    split at read
    next letter =>
      rw [if_pos letter]
      cases text with
      | nil => simp [readSign, readDigits] at read
      | cons d text =>
        rw [readSign_append]
        split at read
        · cases read
        next found =>
          rw [readDigits_append follows found]
          cases read
          rfl
    next other =>
      rw [if_neg other]
      cases read
      rfl

theorem readUnsigned_append {negative : Bool} {n : Numeral} (follows : Follows more)
    (read : readUnsigned atEnd negative text = .ok (n, rest)) :
    readUnsigned atEnd negative (text ++ more) = .ok (n, rest ++ more) := by
  unfold readUnsigned at read ⊢
  split at read
  · cases read
  next whole =>
    split at read
    · cases read
    next fraction =>
      split at read
      · cases read
      next exponent =>
        cases read
        simp only [readWhole_append follows whole, readFraction_append follows fraction,
          readExponent_append follows exponent]

theorem Numeral.read_append {n : Numeral} (follows : Follows more)
    (read : Numeral.read atEnd text = .ok (n, rest)) :
    Numeral.read atEnd (text ++ more) = .ok (n, rest ++ more) := by
  unfold Numeral.read at read
  split at read
  · exact readUnsigned_append follows read
  next other =>
    have longer := readUnsigned_append follows read
    unfold Numeral.read
    split
    next tail minus =>
      cases text with
      | nil => simp [readUnsigned, readWhole, readDigits] at read
      | cons c text =>
        obtain ⟨rfl, -⟩ := List.cons.inj minus
        exact absurd rfl (other text)
    · exact longer

theorem Number.read_append {n : Number} (follows : Follows more)
    (read : Number.read text = .ok (n, rest)) :
    Number.read (text ++ more) = .ok (n, rest ++ more) := by
  unfold Number.read at read ⊢
  split at read
  · cases read
  next found =>
    rw [Numeral.read_append follows found]
    dsimp only
    split at read
    · cases read
      rfl
    · cases read

end Numbers

/-! ## Texts -/

theorem utf8Size_of_hexValue? {c : Char} {d : Nat} (digit : hexValue? c = some d) :
    c.utf8Size = 1 := by
  have small : c.toNat ≤ 102 := by
    simp only [hexValue?] at digit
    split at digit
    · omega
    · split at digit
      · omega
      · split at digit
        · omega
        · cases digit
  rw [Char.utf8Size_eq_one_iff]
  exact Nat.le_trans small (by decide)

/-- Hexadecimal digits take one byte each. -/
theorem utf8Length_of_hexNumber? {ds : List Char} {n : Nat} (number : hexNumber? ds = some n) :
    Text.utf8Length ds = ds.length := by
  unfold hexNumber? at number
  generalize 0 = start at number
  induction ds generalizing start with
  | nil => rfl
  | cons c ds ih =>
    rw [List.foldlM_cons] at number
    obtain ⟨next, value, later⟩ := Option.bind_eq_some_iff.mp number
    obtain ⟨d, digit, -⟩ := Option.map_eq_some_iff.mp value
    have tail := ih next later
    simp only [Text.utf8Length, List.foldr_cons, List.length_cons] at tail ⊢
    rw [utf8Size_of_hexValue? digit, tail, Nat.add_comm]

theorem readUnit_append {n : Nat} (read : readUnit text = .ok (n, rest)) (more : List Char) :
    readUnit (text ++ more) = .ok (n, rest ++ more) := by
  unfold readUnit at read
  split at read
  · cases read
  next long =>
    split at read
    next number =>
      cases read
      have size := utf8Length_of_hexNumber? number
      have four : 4 ≤ text.length := by
        rw [size, List.length_take] at long
        omega
      have take : (text ++ more).take 4 = text.take 4 := List.take_append_of_le_length four
      have drop : (text ++ more).drop 4 = text.drop 4 ++ more := List.drop_append_of_le_length four
      rw [readUnit, take, drop, if_neg long, number]
    · cases read

theorem readNumbered_append {c : Char} (read : readNumbered text = .ok (c, rest))
    (more : List Char) : readNumbered (text ++ more) = .ok (c, rest ++ more) := by
  obtain ⟨n, between, first, notLow, single | ⟨high, low, after, rfl, second, paired⟩⟩ :=
    readNumbered_iff.mp read
  · refine readNumbered_iff.mpr ⟨n, _, readUnit_append first more, notLow, .inl ?_⟩
    exact ⟨single.1, single.2.1, congrArg (· ++ more) single.2.2⟩
  · exact readNumbered_iff.mpr ⟨n, _, readUnit_append first more, notLow,
      .inr ⟨high, low, after ++ more, rfl, readUnit_append second more, paired⟩⟩

theorem readEscape_append {c : Char} (read : readEscape text = .ok (c, rest)) (more : List Char) :
    readEscape (text ++ more) = .ok (c, rest ++ more) := by
  obtain ⟨tail, rfl, numbered⟩ | ⟨letter, other, rfl, meant⟩ := readEscape_iff.mp read
  · exact readEscape_iff.mpr (.inl ⟨_, rfl, readNumbered_append numbered more⟩)
  · exact readEscape_iff.mpr (.inr ⟨letter, other, rfl, meant⟩)

theorem readQuoted_append {cs : List Char} (read : readQuoted text = .ok (cs, rest))
    (more : List Char) : readQuoted (text ++ more) = .ok (cs, rest ++ more) := by
  fun_induction readQuoted text generalizing cs rest with
  | case1 => cases read
  | case2 tail =>
    cases read
    rw [List.cons_append, readQuoted]
  | case3 => cases read
  | case4 => cases read
  | case5 tail c rest' found _ _ _ inner ih =>
    cases read
    exact readQuoted_of_escape (readEscape_append found more) (ih inner)
  | case6 => cases read
  | case7 => cases read
  | case8 c tail notQuote notBackslash visible _ _ inner ih =>
    cases read
    exact readQuoted_of_plain notQuote notBackslash (Nat.not_lt.mp visible) (ih inner)

/-! ## Plain values -/

theorem readWord_append {word : List Char} (read : readWord word text = .ok rest)
    (more : List Char) : readWord word (text ++ more) = .ok (rest ++ more) := by
  fun_induction readWord word text with
  | case1 text =>
    cases read
    rfl
  | case2 => cases read
  | case3 w word tail ih =>
    rw [List.cons_append, readWord, if_pos rfl]
    exact ih read
  | case4 => cases read

theorem readNamed_append {scalar : Scalar} {word : List Char} {shape : Shape}
    (read : readNamed scalar word text = .ok (shape, rest)) (more : List Char) :
    readNamed scalar word (text ++ more) = .ok (shape, rest ++ more) := by
  unfold readNamed at read ⊢
  split at read
  · cases read
  next found =>
    cases read
    rw [readWord_append found]

theorem readShape_of_numeral {c : Char} (start : dropSpace text = c :: rest)
    (numeral : c = '-' ∨ c.isDigit = true) :
    readShape text =
      match Number.read (c :: rest) with
      | .error e => .error e
      | .ok (n, rest) => .ok (.scalar (.number n), rest) := by
  rw [readShape, start]
  split
  case h_8 same =>
    obtain ⟨rfl, rfl⟩ := List.cons.inj same
    exact if_pos numeral
  -- no other value starts with a digit or a minus
  all_goals next same => cases same <;> exact absurd numeral (by decide)

theorem readShape_append {shape : Shape} (follows : Follows more)
    (read : readShape text = .ok (shape, rest)) :
    readShape (text ++ more) = .ok (shape, rest ++ more) := by
  unfold readShape at read
  rw [readShape.eq_def]
  split at read
  · cases read
  next start =>
    rw [dropSpace_append_of_cons start]
    exact readNamed_append read more
  next start =>
    rw [dropSpace_append_of_cons start]
    exact readNamed_append read more
  next start =>
    rw [dropSpace_append_of_cons start]
    exact readNamed_append read more
  next start =>
    rw [dropSpace_append_of_cons start]
    split at read
    · cases read
    next found =>
      cases read
      simp only [readQuoted_append found]
  next start =>
    rw [dropSpace_append_of_cons start]
    cases read
    rfl
  next start =>
    rw [dropSpace_append_of_cons start]
    cases read
    rfl
  next start =>
    split at read
    next numeral =>
      split at read
      · cases read
      next found =>
        have longer := Number.read_append follows found
        rw [← readShape.eq_def, readShape_of_numeral (dropSpace_append_of_cons start more) numeral,
          ← List.cons_append, longer]
        cases read
        rfl
    · cases read

theorem Leaf.local_reader {α : Type} (leaf : Leaf α) : leaf.reader.Local := by
  intro text rest a more follows read
  obtain ⟨s, shape, meant⟩ := Leaf.reader_read_iff.mp read
  exact Leaf.reader_read_iff.mpr ⟨s, readShape_append follows shape, meant⟩

theorem Reader.Local.map {α β : Type} {reader : Reader α} (sound : reader.Local) (f : α → β) :
    (reader.map f).Local := by
  intro text rest b more follows read
  obtain ⟨a, read, same⟩ := Reader.map_read_iff.mp read
  exact Reader.map_read_iff.mpr ⟨a, sound follows read, same⟩

/-! ## Lists -/

theorem PartAt.append {first : Bool} {part : List Char} (at_ : PartAt first text part)
    (more : List Char) : PartAt first (text ++ more) (part ++ more) := by
  cases at_ with
  | first => exact .first _
  | later comma => exact .later (dropSpace_append_of_cons comma more)

theorem nextElement_append_member {first : Bool} {start : List Char}
    (next : nextElement first text = .ok (.member () start)) (more : List Char) :
    nextElement first (text ++ more) = .ok (.member () (start ++ more)) := by
  obtain ⟨part, c, tail, at_, found, notBracket, rfl⟩ := nextElement_member_iff.mp next
  exact nextElement_member_iff.mpr ⟨part ++ more, c, tail ++ more, at_.append more,
    dropSpace_append_of_cons found more, notBracket, rfl⟩

theorem nextElement_append_close {first : Bool} (next : nextElement first text = .ok (.close rest))
    (more : List Char) : nextElement first (text ++ more) = .ok (.close (rest ++ more)) :=
  nextElement_close_iff.mpr (dropSpace_append_of_cons (nextElement_close_iff.mp next) more)

theorem nextKey_append_member {first : Bool} {start : List Char} {name : String}
    (next : nextKey first text = .ok (.member name start)) (more : List Char) :
    nextKey first (text ++ more) = .ok (.member name (start ++ more)) := by
  obtain ⟨part, tail, cs, at_, found, read, named⟩ := nextKey_member_iff.mp next
  exact nextKey_member_iff.mpr ⟨part ++ more, tail ++ more, cs, at_.append more,
    dropSpace_append_of_cons found more, readQuoted_append read more, named⟩

theorem readColon_append (colon : readColon text = .ok rest) (more : List Char) :
    readColon (text ++ more) = .ok (rest ++ more) :=
  readColon_iff.mpr (dropSpace_append_of_cons (readColon_iff.mp colon) more)

theorem Reader.Local.afterColon {α : Type} {reader : Reader α} (sound : reader.Local) :
    (afterColon reader).Local := by
  intro text rest a more follows read
  obtain ⟨behind, colon, read⟩ := afterColon_read_iff.mp read
  exact afterColon_read_iff.mpr ⟨behind ++ more, readColon_append colon more, sound follows read⟩

theorem readElements_append {α : Type} {item : Reader α} (sound : item.Local) {first : Bool}
    {as : List α} (follows : Follows more) (read : readElements item first text = .ok (as, rest)) :
    readElements item first (text ++ more) = .ok (as, rest ++ more) := by
  fun_induction readElements item first text generalizing as rest with
  | case1 => cases read
  | case2 first text rest next =>
    cases read
    exact readElements_of_close (nextElement_append_close next more)
  | case3 => cases read
  | case4 => cases read
  | case5 first text start next a rest' found _ _ as left inner ih =>
    cases read
    exact readElements_member (nextElement_append_member next more) (sound follows found) (ih inner)

theorem local_listReader {α : Type} {item : Reader α} (sound : item.Local) :
    (listReader item).Local := by
  intro text rest as more follows read
  simp only [listReader] at read ⊢
  split at read
  · cases read
  next found =>
    simp only [readShape_append follows found]
    exact readElements_append sound follows read
  · cases read

end TransactionLookup.Json
