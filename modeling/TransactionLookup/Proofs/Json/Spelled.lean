import TransactionLookup.Proofs.Json.Context
import TransactionLookup.Proofs.Json.Extent

/-!
# Objects of the grammar read

What a reader makes of an object of the grammar, whatever space stands in it: the members change the
state one after the other, as long as each key is a text and each value is taken with what follows it.
-/

namespace TransactionLookup.Json

variable {α β σ : Type} {text rest key : List Char} {name : String}

theorem document_ok_iff {reader : Reader α} {a : α} :
    reader.document text = .ok a ↔ ∃ rest, reader.read text = .ok (a, rest) ∧ Blank rest := by
  unfold Reader.document
  split
  next failed => simp [failed]
  next b rest found =>
    simp only [found, Except.ok.injEq, Prod.mk.injEq]
    split
    next ended =>
      have blank := dropSpace_eq_nil_iff.mp ended
      constructor
      · intro same
        exact ⟨rest, ⟨Except.ok.inj same, rfl⟩, blank⟩
      · rintro ⟨_, ⟨rfl, -⟩, -⟩
        rfl
    next more =>
      constructor
      · intro failed
        cases failed
      · rintro ⟨_, ⟨-, rfl⟩, blank⟩
        exact absurd (dropSpace_eq_nil_iff.mpr blank) more

/-- Whether a reader takes a text for a value, up to space behind it. -/
def Takes (reader : Reader α) (text : List Char) (a : α) : Prop :=
  ∀ {rest : List Char}, Follows rest →
    ∃ after, Blank after ∧ reader.read (text ++ rest) = .ok (a, after ++ rest)

/-- What is a document for a reader is taken by it wherever it stands. -/
theorem Reader.Local.takes {reader : Reader α} {a : α} (sound : reader.Local)
    (document : reader.document text = .ok a) : Takes reader text a := by
  obtain ⟨after, read, blank⟩ := document_ok_iff.mp document
  intro rest follows
  exact ⟨after, blank, sound follows read⟩

theorem WellFormed.takes (formed : WellFormed text) : Takes skipReader text () := by
  intro rest follows
  obtain ⟨after, blank, passes⟩ := formed.passes follows
  exact ⟨after, blank, by simp only [skipReader, passes.skip]⟩

/-! ## Members -/

theorem textLeaf_read {s : String} (read : textLeaf.reader.read text = .ok (s, rest)) :
    readShape text = .ok (.scalar (.text s), rest) := by
  obtain ⟨scalar, shape, meant⟩ := Leaf.reader_read_iff.mp read
  rw [shape]
  cases scalar with
  | text => cases meant; rfl
  | null => cases meant
  | boolean => cases meant
  | number => cases meant

/-- A key that is a text is read as such wherever a member may stand. -/
theorem nextKey_of_document {first : Bool} (document : textLeaf.reader.document key = .ok name)
    (at_ : PartAt first text (key ++ rest)) :
    ∃ after, Blank after ∧ nextKey first text = .ok (.member name (after ++ rest)) := by
  obtain ⟨after, read, blank⟩ := document_ok_iff.mp document
  obtain ⟨tail, cs, start, quoted, rfl⟩ := readShape_text_iff.mp (textLeaf_read read)
  refine ⟨after, blank, nextKey_member_iff.mpr ?_⟩
  exact ⟨_, _, cs, at_, dropSpace_append_of_cons start rest, readQuoted_append quoted rest, rfl⟩

/-- Pairs of a key and a value that take the state of an object from one to another. -/
inductive Spells (step : String → σ → Reader σ) : σ → List Pair → σ → Prop
  | done (state : σ) : Spells step state [] state
  | pair {state next final : σ} {pair : Pair} {pairs : List Pair} {name : String}
      (named : textLeaf.reader.document pair.key = .ok name)
      (takes : ∀ {start rest : List Char}, Follows rest →
        readColon start = .ok (pair.value ++ rest) →
          ∃ after, Blank after ∧ (step name state).read start = .ok (next, after ++ rest))
      (more : Spells step next pairs final) : Spells step state (pair :: pairs) final

theorem Takes.afterColon {reader : Reader α} {a : α} {start : List Char}
    (takes : Takes reader text a) (follows : Follows rest)
    (colon : readColon start = .ok (text ++ rest)) :
    ∃ after, Blank after ∧ (afterColon reader).read start = .ok (a, after ++ rest) := by
  obtain ⟨after, blank, read⟩ := takes follows
  exact ⟨after, blank, afterColon_read_iff.mpr ⟨_, colon, read⟩⟩

section Members

variable {step : String → σ → Reader σ} {state final : σ} {pairs : List Pair}

theorem readColon_blank {blank : List Char} (space : Blank blank) (rest : List Char) :
    readColon (blank ++ ':' :: rest) = .ok rest := by
  rw [readColon_iff, space.dropSpace_append, dropSpace_of_not_space rfl]

theorem partAt_blank_comma {blank : List Char} (space : Blank blank) (rest : List Char) :
    PartAt false (blank ++ ',' :: rest) rest :=
  .later (by rw [space.dropSpace_append, dropSpace_of_not_space rfl])

theorem nextKey_blank {first : Bool} {blank : List Char} (space : Blank blank)
    (rest : List Char) : nextKey first (blank ++ '}' :: rest) = .ok (.close rest) :=
  nextKey_close_iff.mpr (by rw [space.dropSpace_append, dropSpace_of_not_space rfl])

theorem readMembers_later (spells : Spells step state pairs final) {blank : List Char}
    (space : Blank blank) (rest : List Char) :
    readMembers step false state
      (blank ++ (afterFirst (pairs.map Pair.text) ++ '}' :: rest)) = .ok (final, rest) := by
  induction spells generalizing blank with
  | done state => exact readMembers_of_close state (nextKey_blank space rest)
  | @pair state next final pair pairs name named takes more ih =>
    rw [List.map_cons, afterFirst_cons_append, Pair.text, List.append_assoc]
    obtain ⟨behindKey, blankKey, key⟩ := nextKey_of_document named (partAt_blank_comma space _)
    obtain ⟨after, trailing, read⟩ := takes
      (follows_afterFirst (pairs.map Pair.text) (.brace rest)) (readColon_blank blankKey _)
    exact readMembers_member key read (ih trailing)

/-- An object is read by the steps that its members take. -/
theorem readMembers_of_spells (spells : Spells step state pairs final) {inner : List Char}
    (encloses : Encloses (pairs.map Pair.text) inner) (rest : List Char) :
    readMembers step true state (inner ++ '}' :: rest) = .ok (final, rest) := by
  rcases encloses with rfl | ⟨none, space⟩
  · cases spells with
    | done => exact readMembers_close true state rest
    | @pair state next final pair pairs name named takes more =>
      rw [List.map_cons, separated_cons_append, Pair.text, List.append_assoc]
      obtain ⟨behindKey, blankKey, key⟩ := nextKey_of_document named (.first _)
      obtain ⟨after, trailing, read⟩ := takes
        (follows_afterFirst (pairs.map Pair.text) (.brace rest)) (readColon_blank blankKey _)
      exact readMembers_member key read (readMembers_later more trailing rest)
  · obtain rfl := List.map_eq_nil_iff.mp none
    cases spells
    exact readMembers_of_close state (nextKey_blank space rest)

end Members

theorem IsObject.readShape {pairs : List Pair} (isObject : IsObject pairs text) :
    ∃ inner after, Encloses (pairs.map Pair.text) inner ∧ Blank after ∧
      readShape text = .ok (.map, inner ++ '}' :: after) := by
  obtain ⟨inner, encloses, spaced⟩ := isObject
  obtain ⟨after, trailing, start⟩ := dropSpace_eq_cons_of_spaced spaced rfl []
  refine ⟨inner, after, encloses, trailing, ?_⟩
  rw [List.append_nil, List.append_nil, List.append_assoc] at start
  rw [Json.readShape, start]
  rfl

theorem IsList.readShape {items : List (List Char)} (isList : IsList items text) :
    ∃ inner after, Encloses items inner ∧ Blank after ∧
      readShape text = .ok (.sequence, inner ++ ']' :: after) := by
  obtain ⟨inner, encloses, spaced⟩ := isList
  obtain ⟨after, trailing, start⟩ := dropSpace_eq_cons_of_spaced spaced rfl []
  refine ⟨inner, after, encloses, trailing, ?_⟩
  rw [List.append_nil, List.append_nil, List.append_assoc] at start
  rw [Json.readShape, start]
  rfl

/-! ## Names -/

/-- The names of the members of an object as they are written, with any values. -/
inductive Named : List Pair → List String → Prop
  | nil : Named [] []
  | cons {pair : Pair} {pairs : List Pair} {name : String} {names : List String}
      (named : textLeaf.reader.document pair.key = .ok name) (formed : WellFormed pair.value)
      (more : Named pairs names) : Named (pair :: pairs) (name :: names)

theorem Named.spells {pairs : List Pair} {names : List String} (named : Named pairs names)
    (earlier : List String) : Spells nameReader earlier pairs (names.reverse ++ earlier) := by
  induction named generalizing earlier with
  | nil => exact .done earlier
  | @cons pair pairs name names named formed more ih =>
    rw [List.reverse_cons, List.append_assoc]
    refine .pair named ?_ (ih (name :: earlier))
    intro start rest follows colon
    obtain ⟨after, blank, passes⟩ := formed.passes follows
    exact ⟨after, blank, nameReader_read colon passes name earlier⟩

/-- An object that is read at all is read by its members, one after the other. -/
theorem Named.course {step : String → σ → Reader σ} (passing : PassingMembers step)
    {pairs : List Pair} {names : List String} (named : Named pairs names) {inner after : List Char}
    (encloses : Encloses (pairs.map Pair.text) inner) {state final : σ}
    (read : readMembers step true state (inner ++ '}' :: after) = .ok (final, rest)) :
    Course step state names final := by
  obtain ⟨seen, course, skipped⟩ := course_of_readMembers passing read []
  have all := readMembers_of_spells (named.spells []) encloses after
  rw [skipped] at all
  simp only [Except.ok.injEq, Prod.mk.injEq, List.append_nil, List.reverse_inj] at all
  rw [← all.1]
  exact course

end TransactionLookup.Json
