import TransactionLookup.Proofs.Json.Spelled
import TransactionLookup.Proofs.Transaction.RoundTrip

/-!
# The readers of fields

What the content of a field is read from, wherever it stands, and where it ends. A status is a name,
or an object with the name for its one key and null for its value.
-/

namespace TransactionLookup

open Json (Follows dropSpace_append_of_cons)

variable {text rest more : List Char}

/-! ## Statuses -/

namespace Status

variable {s : Status}

theorem readName_iff : readName text = .ok (s, rest) ↔
    ∃ cs, Json.readQuoted text = .ok (cs, rest) ∧ ofName (String.ofList cs) = .ok s := by
  constructor
  · intro read
    unfold readName at read
    split at read
    · cases read
    next quoted =>
      split at read
      · cases read
      next named =>
        cases read
        exact ⟨_, quoted, named⟩
  · rintro ⟨cs, quoted, named⟩
    simp only [readName, quoted, named]

theorem readNull_iff : readNull text = .ok rest ↔
    ∃ between, (Json.afterColon Json.unitLeaf.reader).read text = .ok ((), between) ∧
      Json.dropSpace between = '\x7d' :: rest := by
  constructor
  · intro read
    unfold readNull at read
    split at read
    · cases read
    next null =>
      split at read
      · cases read
      next start =>
        cases read
        exact ⟨_, null, start⟩
      · cases read
  · rintro ⟨between, null, start⟩
    simp only [readNull, null, start]

theorem readObject_iff : readObject text = .ok (s, rest) ↔
    ∃ name behind, Json.nextKey true text = .ok (.member name behind) ∧ ofName name = .ok s ∧
      readNull behind = .ok rest := by
  constructor
  · intro read
    unfold readObject at read
    split at read
    · cases read
    next start =>
      split at read
      · cases read
      next found =>
        split at read
        · cases read
        next null =>
          cases read
          obtain ⟨cs, quoted, named⟩ := readName_iff.mp found
          exact ⟨_, _, Json.nextKey_member_iff.mpr ⟨text, _, cs, .first text, start, quoted, rfl⟩,
            named, null⟩
    · cases read
    · cases read
  · rintro ⟨name, behind, key, named, null⟩
    obtain ⟨part, tail, cs, at_, start, quoted, rfl⟩ := Json.nextKey_member_iff.mp key
    cases at_
    have found := readName_iff.mpr ⟨cs, quoted, named⟩
    simp only [readObject, start, found, null]

/-- A status is a text that is a name, or an object that has a name for its key. -/
theorem read_iff : read text = .ok (s, rest) ↔
    (∃ name, Json.readShape text = .ok (.scalar (.text name), rest) ∧ ofName name = .ok s) ∨
      ∃ start, Json.readShape text = .ok (.map, start) ∧ readObject start = .ok (s, rest) := by
  constructor
  · intro found
    unfold read at found
    split at found
    · cases found
    next start =>
      obtain ⟨cs, quoted, named⟩ := readName_iff.mp found
      exact .inl ⟨_, Json.readShape_text_iff.mpr ⟨_, cs, start, quoted, rfl⟩, named⟩
    next start => exact .inr ⟨_, Json.readShape_map_iff.mpr start, found⟩
    · cases found
  · rintro (⟨name, shape, named⟩ | ⟨start, shape, found⟩)
    · obtain ⟨tail, cs, start, quoted, rfl⟩ := Json.readShape_text_iff.mp shape
      have found := readName_iff.mpr ⟨cs, quoted, named⟩
      simp only [read, start, found]
    · simp only [read, Json.readShape_map_iff.mp shape, found]

theorem readNull_append (follows : Follows more) (found : readNull text = .ok rest) :
    readNull (text ++ more) = .ok (rest ++ more) := by
  obtain ⟨between, null, start⟩ := readNull_iff.mp found
  exact readNull_iff.mpr ⟨between ++ more,
    Json.Reader.Local.afterColon Json.unitLeaf.local_reader follows null,
    dropSpace_append_of_cons start more⟩

theorem readObject_append (follows : Follows more) (found : readObject text = .ok (s, rest)) :
    readObject (text ++ more) = .ok (s, rest ++ more) := by
  obtain ⟨name, behind, key, named, null⟩ := readObject_iff.mp found
  exact readObject_iff.mpr
    ⟨name, behind ++ more, Json.nextKey_append_member key more, named, readNull_append follows null⟩

theorem local_reader : Status.reader.Local := by
  intro text rest s more follows found
  rcases read_iff.mp found with ⟨name, shape, named⟩ | ⟨start, shape, object⟩
  · exact read_iff.mpr (.inl ⟨name, Json.readShape_append follows shape, named⟩)
  · exact read_iff.mpr (.inr
      ⟨start ++ more, Json.readShape_append follows shape, readObject_append follows object⟩)

theorem passing : Status.reader.Passing := by
  intro text rest s found
  rcases read_iff.mp found with ⟨name, shape, -⟩ | ⟨start, shape, object⟩
  · exact Json.passes_of_scalar shape
  · obtain ⟨name, behind, key, -, null⟩ := readObject_iff.mp object
    obtain ⟨between, unit, close⟩ := readNull_iff.mp null
    obtain ⟨value, colon, passes⟩ := Json.Reader.Passing.afterColon Json.unitLeaf.passing unit
    intro stack
    -- past the name comes the null, and past the null the end of the object
    rw [Json.skipWithin_eq, Json.skipOpening_of_readShape shape]
    have member := Json.skipInside_of_nextKey key colon stack
    rw [passes] at member
    have closed : Json.skipInside false .object stack between = Json.skipAfter stack rest :=
      Json.skipInside_of_close close stack
    exact member.trans (congrArg Json.proceed closed)

end Status

/-! ## All fields -/

theorem TxHash.local_reader : TxHash.reader.Local :=
  Json.Reader.Local.map Json.textLeaf.local_reader TxHash.mk

theorem TxHash.passing : TxHash.reader.Passing :=
  Json.Reader.Passing.map Json.textLeaf.passing TxHash.mk

namespace Field

/-- The content of a field is read from its text wherever that stands in a document. -/
theorem local_reader (f : Field) : f.reader.Local := by
  cases f with
  | hash => exact TxHash.local_reader
  | status => exact Status.local_reader
  | chain | sender | receiver | asset | memo => exact Json.textLeaf.local_reader
  | amount | blockHeight | numOuts => exact Json.naturalLeaf.local_reader
  | outHashes => exact Json.local_listReader TxHash.local_reader
  | timestamp => exact Json.Reader.Local.map Json.instantLeaf.local_reader Timestamp.given

theorem passing (f : Field) : f.reader.Passing := by
  cases f with
  | hash => exact TxHash.passing
  | status => exact Status.passing
  | chain | sender | receiver | asset | memo => exact Json.textLeaf.passing
  | amount | blockHeight | numOuts => exact Json.naturalLeaf.passing
  | outHashes => exact Json.listReader_passing TxHash.passing
  | timestamp => exact Json.Reader.Passing.map Json.instantLeaf.passing Timestamp.given

theorem ofName?_eq_some_iff {name : String} {f : Field} : ofName? name = some f ↔ f.name = name := by
  constructor
  · intro found
    have named := List.find?_some found
    exact beq_iff_eq.mp named
  · rintro rfl
    exact ofName?_name f

theorem ofName?_eq_none_iff {name : String} : ofName? name = none ↔ ∀ f : Field, f.name ≠ name := by
  rw [Option.eq_none_iff_forall_ne_some]
  exact forall_congr' fun f => not_congr ofName?_eq_some_iff

theorem name_injective {f g : Field} (same : f.name = g.name) : f = g := by
  have found := ofName?_name g
  rw [← same, ofName?_name] at found
  exact Option.some.inj found

end Field

/-! ## Members -/

section Members

variable {f : Field} {draft next : Draft} {name : String} {start : List Char}

theorem otherReader_read_iff : (otherReader draft).read start = .ok (next, rest) ↔
    next = draft ∧ (Json.afterColon Json.skipReader).read start = .ok ((), rest) := by
  rw [otherReader, Json.Reader.map_read_iff]
  constructor
  · rintro ⟨⟨⟩, read, same⟩
    exact ⟨same, read⟩
  · rintro ⟨same, read⟩
    exact ⟨(), read, same⟩

theorem fieldReader_read_iff : (fieldReader f draft).read start = .ok (next, rest) ↔
    ∃ content, next = draft.put f content ∧
      (Json.afterColon f.reader).read start = .ok (content, rest) := by
  rw [fieldReader, Json.Reader.map_read_iff]
  exact exists_congr fun content => and_comm

/-- What a member does that is read: nothing if it is no field, else it gives the field its content,
which was not known before. -/
theorem memberReader_read_iff : (memberReader name draft).read start = .ok (next, rest) ↔
    (Field.ofName? name = none ∧ next = draft ∧
      (Json.afterColon Json.skipReader).read start = .ok ((), rest)) ∨
    ∃ (f : Field) (content : f.Content), Field.ofName? name = some f ∧ draft f = none ∧
      next = draft.put f content ∧
      (Json.afterColon f.reader).read start = .ok (content, rest) := by
  unfold memberReader
  split
  next unknown => simp [otherReader_read_iff, unknown]
  next f named =>
    simp only [named, reduceCtorEq, false_and, false_or, Option.some.injEq]
    split
    next unknown =>
      rw [fieldReader_read_iff]
      constructor
      · rintro ⟨content, same, found⟩
        exact ⟨f, content, rfl, unknown, same, found⟩
      · rintro ⟨_, content, rfl, -, same, found⟩
        exact ⟨content, same, found⟩
    next known =>
      simp only [repeatedReader, reduceCtorEq, false_iff]
      rintro ⟨_, content, rfl, unknown, -⟩
      rw [known] at unknown
      cases unknown

end Members

theorem memberReader_passing : Json.PassingMembers memberReader := by
  intro name draft next start rest read
  rcases memberReader_read_iff.mp read with ⟨-, -, skipped⟩ | ⟨f, content, -, -, -, found⟩
  · exact Json.Reader.Passing.afterColon Json.skipReader_passing skipped
  · exact Json.Reader.Passing.afterColon f.passing found

end TransactionLookup
