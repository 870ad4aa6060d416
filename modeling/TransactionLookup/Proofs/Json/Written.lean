import TransactionLookup.Json.Container
import TransactionLookup.Proofs.Json.Numeral
import TransactionLookup.Proofs.Json.Parts
import TransactionLookup.Proofs.Json.Quoted

/-!
# Written values read back

A reader takes a text for a value when it reads the value from it whatever follows, and leaves just
that. This is so of the plain values as they are written; of a written list, if it is so of the
elements; and of a written object, if the members take the state that they change from one to
another in their order.
-/

namespace TransactionLookup.Json

variable {α β σ : Type} {text rest : List Char}

/-- Whether a text begins as a value does: not with space, and not by closing a list. -/
def Opens (text : List Char) : Prop := ∃ c tail, text = c :: tail ∧ isSpace c = false ∧ c ≠ ']'

/-- Whether a reader takes a text for a value, whatever follows the text. -/
structure Reads (reader : Reader α) (text : List Char) (a : α) : Prop where
  opens : Opens text
  read : ∀ rest, Follows rest → reader.read (text ++ rest) = .ok (a, rest)

theorem dropSpace_of_not_space {c : Char} (visible : isSpace c = false) (rest : List Char) :
    dropSpace (c :: rest) = c :: rest := by
  simp [dropSpace, visible]

theorem Opens.dropSpace_append (opens : Opens text) (rest : List Char) :
    dropSpace (text ++ rest) = text ++ rest := by
  obtain ⟨c, tail, rfl, visible, -⟩ := opens
  exact dropSpace_of_not_space visible (tail ++ rest)

namespace Reads

variable {reader : Reader α} {a : α}

theorem map (f : α → β) (reads : Reads reader text a) : Reads (reader.map f) text (f a) where
  opens := reads.opens
  read rest follows := Reader.map_read_iff.mpr ⟨a, reads.read rest follows, rfl⟩

theorem document (reads : Reads reader text a) : reader.document text = .ok a := by
  have read := reads.read [] trivial
  rw [List.append_nil] at read
  simp only [Reader.document, read]
  rfl

end Reads

/-! ## Plain values -/

theorem quote_append (text rest : List Char) :
    quote text ++ rest = '"' :: (text.flatMap escape ++ '"' :: rest) := by
  simp [quote]

theorem readShape_quote (text rest : List Char) :
    readShape (quote text ++ rest) = .ok (.scalar (.text (String.ofList text)), rest) := by
  rw [quote_append, readShape, dropSpace_of_not_space rfl]
  simp only [readQuoted_escaped]

theorem opens_quote (text : List Char) : Opens (quote text) :=
  ⟨'"', _, rfl, rfl, by decide⟩

theorem not_space_of_isDigit {c : Char} (digit : c.isDigit = true) : isSpace c = false := by
  cases space : isSpace c with
  | false => rfl
  | true =>
    have named : c = ' ' ∨ c = '\n' ∨ c = '\t' ∨ c = '\r' := by
      simpa [isSpace, or_assoc] using space
    rcases named with rfl | rfl | rfl | rfl <;> cases digit

theorem readShape_of_isDigit {c : Char} (digit : c.isDigit = true) (rest : List Char) :
    readShape (c :: rest) =
      match Number.read (c :: rest) with
      | .error e => .error e
      | .ok (n, rest) => .ok (.scalar (.number n), rest) := by
  rw [readShape, dropSpace_of_not_space (not_space_of_isDigit digit)]
  split
  case h_8 same =>
    obtain ⟨rfl, rfl⟩ := List.cons.inj same
    exact if_pos (.inr digit)
  -- no other value starts with a digit
  all_goals next same => cases same <;> cases digit

theorem readShape_digits (n : UInt64) (follows : Follows rest) :
    readShape (Decimal.digits n.toNat ++ rest) = .ok (.scalar (.number (.natural n)), rest) := by
  have read := Number.read_digits n follows
  cases written : Decimal.digits n.toNat with
  | nil => exact absurd written (Decimal.digits_ne_nil _)
  | cons d ds =>
    have digit : d.isDigit = true := Decimal.isDigit_of_mem_digits (written ▸ List.mem_cons_self)
    rw [written, List.cons_append] at read
    rw [List.cons_append, readShape_of_isDigit digit, read]

theorem opens_digits (n : Nat) : Opens (Decimal.digits n) := by
  cases written : Decimal.digits n with
  | nil => exact absurd written (Decimal.digits_ne_nil _)
  | cons d ds =>
    have digit : d.isDigit = true := Decimal.isDigit_of_mem_digits (written ▸ List.mem_cons_self)
    refine ⟨d, ds, rfl, not_space_of_isDigit digit, ?_⟩
    rintro rfl
    cases digit

theorem Leaf.reads_quote {leaf : Leaf α} {a : α} {text : List Char}
    (meant : leaf.interpret (.text (String.ofList text)) = .ok a) :
    Reads leaf.reader (quote text) a where
  opens := opens_quote text
  read rest _ := by simp only [Leaf.reader, readShape_quote, Leaf.ofShape, meant]

theorem reads_text (s : String) : Reads textLeaf.reader (quote s.toList) s :=
  Leaf.reads_quote (by rw [String.ofList_toList]; rfl)

theorem reads_natural (n : UInt64) : Reads naturalLeaf.reader (Decimal.digits n.toNat) n where
  opens := opens_digits n.toNat
  read rest follows := by
    simp only [Leaf.reader, readShape_digits n follows, Leaf.ofShape, naturalLeaf]

/-! ## Lists -/

/-- What follows the first part of a container: the later parts, each behind a comma. -/
def afterFirst (parts : List (List Char)) : List Char := parts.flatMap fun part => ',' :: part

theorem afterFirst_cons_append (part : List Char) (parts : List (List Char)) (rest : List Char) :
    afterFirst (part :: parts) ++ rest = ',' :: (part ++ (afterFirst parts ++ rest)) := by
  simp [afterFirst]

theorem separated_cons_append (part : List Char) (parts : List (List Char)) (rest : List Char) :
    separated (part :: parts) ++ rest = part ++ (afterFirst parts ++ rest) := by
  simp [separated, afterFirst]

theorem follows_afterFirst (parts : List (List Char)) (follows : Follows rest) :
    Follows (afterFirst parts ++ rest) := by
  cases parts with
  | nil => exact follows
  | cons part parts =>
    rw [afterFirst_cons_append]
    exact .comma _

theorem nextElement_bracket (first : Bool) (rest : List Char) :
    nextElement first (']' :: rest) = .ok (.close rest) :=
  nextElement_close_iff.mpr (dropSpace_of_not_space rfl rest)

theorem PartAt.nextElement {first : Bool} {before : List Char} (at_ : PartAt first before (text ++ rest))
    (opens : Opens text) : nextElement first before = .ok (.member () (text ++ rest)) := by
  obtain ⟨c, tail, rfl, visible, notBracket⟩ := opens
  exact nextElement_member_iff.mpr
    ⟨_, c, tail ++ rest, at_, dropSpace_of_not_space visible _, notBracket, rfl⟩

theorem partAt_comma (rest : List Char) : PartAt false (',' :: rest) rest :=
  .later (dropSpace_of_not_space rfl rest)

section Elements

variable {item : Reader α}

theorem readElements_member {first : Bool} {start : List Char} {a : α} {as : List α}
    {left : List Char} (next : nextElement first text = .ok (.member () start))
    (read : item.read start = .ok (a, rest)) (more : readElements item false rest = .ok (as, left)) :
    readElements item first text = .ok (a :: as, left) :=
  (readElements_member_iff next).mpr ⟨a, rest, as, read, more, rfl⟩

theorem readElements_close (first : Bool) (rest : List Char) :
    readElements item first (']' :: rest) = .ok ([], rest) :=
  readElements_of_close (nextElement_bracket first rest)

variable {write : β → List Char}

theorem readElements_afterFirst {bs : List β} (value : β → α)
    (reads : ∀ b ∈ bs, Reads item (write b) (value b)) (rest : List Char) :
    readElements item false (afterFirst (bs.map write) ++ ']' :: rest) =
      .ok (bs.map value, rest) := by
  induction bs with
  | nil => exact readElements_close false rest
  | cons b bs ih =>
    -- what follows the element is a comma or the bracket, so it is read whatever else there is
    obtain ⟨here, later⟩ := List.forall_mem_cons.mp reads
    rw [List.map_cons, afterFirst_cons_append]
    exact readElements_member ((partAt_comma _).nextElement here.opens)
      (here.read _ (follows_afterFirst _ (.bracket rest))) (ih later)

/-- Written elements are read for the values that they are written for. -/
theorem readElements_separated {bs : List β} (value : β → α)
    (reads : ∀ b ∈ bs, Reads item (write b) (value b)) (rest : List Char) :
    readElements item true (separated (bs.map write) ++ ']' :: rest) =
      .ok (bs.map value, rest) := by
  cases bs with
  | nil => exact readElements_close true rest
  | cons b bs =>
    obtain ⟨here, later⟩ := List.forall_mem_cons.mp reads
    rw [List.map_cons, separated_cons_append]
    exact readElements_member ((PartAt.first _).nextElement here.opens)
      (here.read _ (follows_afterFirst _ (.bracket rest)))
      (readElements_afterFirst value later rest)

theorem readShape_list (items : List (List Char)) (rest : List Char) :
    readShape (listText items ++ rest) = .ok (.sequence, separated items ++ ']' :: rest) := by
  simp [listText, readShape, dropSpace_of_not_space (c := '[') rfl]

theorem opens_list (items : List (List Char)) : Opens (listText items) :=
  ⟨'[', _, rfl, rfl, by decide⟩

/-- A written list is read back if its elements are. -/
theorem reads_list {write : α → List Char} {as : List α}
    (reads : ∀ a ∈ as, Reads item (write a) a) :
    Reads (listReader item) (listText (as.map write)) as where
  opens := opens_list _
  read rest _ := by
    have elements := readElements_separated id reads rest
    rw [List.map_id] at elements
    simp only [listReader, readShape_list, elements]

end Elements

/-! ## Objects -/

/-- Members, each a key with its written value, that take the state of an object from one to
another. -/
inductive Steps (step : String → σ → Reader σ) : σ → List (String × List Char) → σ → Prop
  | none (state : σ) : Steps step state [] state
  | member {state next final : σ} {name : String} {text : List Char}
      {members : List (String × List Char)}
      (reads : ∀ rest, Follows rest → (step name state).read (':' :: text ++ rest) = .ok (next, rest))
      (more : Steps step next members final) :
      Steps step state ((name, text) :: members) final

theorem afterColon_read {reader : Reader α} {a : α} (reads : Reads reader text a)
    (follows : Follows rest) : (afterColon reader).read (':' :: text ++ rest) = .ok (a, rest) :=
  afterColon_read_iff.mpr
    ⟨_, readColon_iff.mpr (dropSpace_of_not_space rfl _), reads.read rest follows⟩

theorem nextKey_brace (first : Bool) (rest : List Char) :
    nextKey first ('}' :: rest) = .ok (.close rest) :=
  nextKey_close_iff.mpr (dropSpace_of_not_space rfl rest)

theorem PartAt.nextKey {first : Bool} {name : String}
    (at_ : PartAt first text (quote name.toList ++ rest)) :
    nextKey first text = .ok (.member name rest) := by
  rw [quote_append] at at_
  exact nextKey_member_iff.mpr ⟨_, _, name.toList, at_, dropSpace_of_not_space rfl _,
    readQuoted_escaped name.toList rest, String.ofList_toList.symm⟩

section Members

variable {step : String → σ → Reader σ} {state final : σ} {members : List (String × List Char)}

theorem readMembers_member {first : Bool} {next : σ} {name : String} {start left : List Char}
    (key : nextKey first text = .ok (.member name start))
    (read : (step name state).read start = .ok (next, rest))
    (more : readMembers step false next rest = .ok (final, left)) :
    readMembers step first state text = .ok (final, left) :=
  (readMembers_member_iff key).mpr ⟨next, rest, read, more⟩

theorem readMembers_close (first : Bool) (state : σ) (rest : List Char) :
    readMembers step first state ('}' :: rest) = .ok (state, rest) :=
  readMembers_of_close state (nextKey_brace first rest)

theorem memberText_append (name : String) (text rest : List Char) :
    memberText (name, text) ++ rest = quote name.toList ++ (':' :: text ++ rest) := by
  simp [memberText]

theorem readMembers_afterFirst (steps : Steps step state members final) (rest : List Char) :
    readMembers step false state (afterFirst (members.map memberText) ++ '}' :: rest) =
      .ok (final, rest) := by
  induction steps with
  | none state => exact readMembers_close false state rest
  | member reads more ih =>
    rw [List.map_cons, afterFirst_cons_append, memberText_append]
    exact readMembers_member (partAt_comma _).nextKey
      (reads _ (follows_afterFirst _ (.brace rest))) ih

/-- A written object is read by the steps that its members take. -/
theorem readMembers_separated (steps : Steps step state members final) (rest : List Char) :
    readMembers step true state (separated (members.map memberText) ++ '}' :: rest) =
      .ok (final, rest) := by
  cases steps with
  | none => exact readMembers_close true state rest
  | member reads more =>
    rw [List.map_cons, separated_cons_append, memberText_append]
    exact readMembers_member (PartAt.first _).nextKey
      (reads _ (follows_afterFirst _ (.brace rest))) (readMembers_afterFirst more rest)

theorem readShape_object (members : List (String × List Char)) (rest : List Char) :
    readShape (objectText members ++ rest) =
      .ok (.map, separated (members.map memberText) ++ '}' :: rest) := by
  simp [objectText, readShape, dropSpace_of_not_space (c := '{') rfl]

theorem opens_object (members : List (String × List Char)) : Opens (objectText members) :=
  ⟨'{', _, rfl, rfl, by decide⟩

end Members

end TransactionLookup.Json
