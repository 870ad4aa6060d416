import Mathlib.Data.List.Perm.Basic
import TransactionLookup.Proofs.Json.Confined
import TransactionLookup.Proofs.Transaction.Agreement

/-!
# Records by position and by name

A list of values and an object that gives the same values to the first fields are read alike,
whatever the values are: each is read for its field as if it stood alone, so that neither the
neighbours nor the kind of container matter. A list of more values than there are fields is no
record (`positional_read`).
-/

namespace TransactionLookup

open Json (Pair WellFormed IsList IsObject Blank Follows PartAt)

variable {text rest left value : List Char} {draft final : Draft}

/-! ## Fields alone -/

theorem Status.readNull_confined {more : List Char} (read : readNull (text ++ more) = .ok left)
    (long : more.length ≤ left.length) :
    ∃ rest, left = rest ++ more ∧ readNull text = .ok rest := by
  obtain ⟨between, null, start⟩ := readNull_iff.mp read
  have := Json.length_lt_of_dropSpace start
  obtain ⟨_, rfl, null'⟩ :=
    Json.Reader.Confined.afterColon Json.unitLeaf.confined null (by omega)
  obtain ⟨rest, rfl, start'⟩ := Json.dropSpace_confined start long
  exact ⟨rest, rfl, readNull_iff.mpr ⟨_, null', start'⟩⟩

theorem Status.confined : Status.reader.Confined := by
  intro text more left s read long
  rcases read_iff.mp read with ⟨name, shape, named⟩ | ⟨start, shape, object⟩
  · obtain ⟨rest, rfl, shape'⟩ := Json.readShape_confined shape long
    exact ⟨rest, rfl, read_iff.mpr (.inl ⟨name, shape', named⟩)⟩
  · obtain ⟨name, behind, key, named, null⟩ := readObject_iff.mp object
    have := Json.nextKey_shrinks key
    have := readNull_shrinks null
    obtain ⟨_, rfl, shape'⟩ := Json.readShape_confined shape (by omega)
    obtain ⟨_, rfl, key'⟩ := Json.nextKey_confined key (by omega)
    obtain ⟨rest, rfl, null'⟩ := readNull_confined null long
    have object := readObject_iff.mpr ⟨name, _, key', named, null'⟩
    exact ⟨rest, rfl, read_iff.mpr (.inr ⟨_, shape', object⟩)⟩

theorem Status.ignoresSpace : Status.reader.IgnoresSpace := by
  intro text
  simp only [Status.reader]
  rw [read, Json.dropSpace_dropSpace, read]

theorem TxHash.confined : TxHash.reader.Confined :=
  Json.Reader.Confined.map Json.textLeaf.confined TxHash.mk

namespace Field

/-- The content of a field is read from its own text alone. -/
theorem confined (f : Field) : f.reader.Confined := by
  cases f with
  | hash => exact TxHash.confined
  | status => exact Status.confined
  | chain | sender | receiver | asset | memo => exact Json.textLeaf.confined
  | amount | blockHeight | numOuts => exact Json.naturalLeaf.confined
  | outHashes => exact Json.listReader_confined TxHash.confined
  | timestamp => exact Json.Reader.Confined.map Json.instantLeaf.confined Timestamp.given

theorem ignoresSpace (f : Field) : f.reader.IgnoresSpace := by
  cases f with
  | hash => exact Json.Reader.IgnoresSpace.map Json.textLeaf.ignoresSpace TxHash.mk
  | status => exact Status.ignoresSpace
  | chain | sender | receiver | asset | memo => exact Json.textLeaf.ignoresSpace
  | amount | blockHeight | numOuts => exact Json.naturalLeaf.ignoresSpace
  | outHashes => exact Json.listReader_ignoresSpace TxHash.reader
  | timestamp => exact Json.Reader.IgnoresSpace.map Json.instantLeaf.ignoresSpace Timestamp.given

/-- What reads a value for a field inside a container reads it as a document, and all fields leave
the same. -/
theorem read_iff_document (formed : WellFormed value) (follows : Follows rest) :
    ∃ after, Blank after ∧ ∀ {f : Field} {content : f.Content} {left : List Char},
      f.reader.read (value ++ rest) = .ok (content, left) ↔
        f.reader.document value = .ok content ∧ left = after ++ rest := by
  obtain ⟨after, blank, same⟩ := formed.read_iff_document follows
  exact ⟨after, blank, fun {f} => same f.local_reader f.passing f.confined⟩

end Field

/-! ## Values for fields -/

/-- Whether something given is the content of the field that a value is for, read from the value. -/
def IsContent (assigned : Field × List Char) (given : Given) : Prop :=
  given.1 = assigned.1 ∧ given.1.reader.document assigned.2 = .ok given.2

/-- Whether all values are valid for their fields, with these contents. -/
def Contents (assigned : List (Field × List Char)) (contents : List Given) : Prop :=
  List.Forall₂ IsContent assigned contents

section Contents

variable {assigned others : List (Field × List Char)} {contents : List Given} {f : Field}

theorem contents_nil_iff : Contents [] contents ↔ contents = [] := List.forall₂_nil_left_iff

theorem contents_cons_iff : Contents ((f, value) :: assigned) contents ↔
    ∃ content more, f.reader.document value = .ok content ∧ Contents assigned more ∧
      contents = ⟨f, content⟩ :: more := by
  constructor
  · intro all
    obtain ⟨⟨_, content⟩, more, ⟨rfl, valid⟩, later, rfl⟩ := List.forall₂_cons_left_iff.mp all
    exact ⟨content, more, valid, later, rfl⟩
  · rintro ⟨content, more, valid, later, rfl⟩
    exact .cons ⟨rfl, valid⟩ later

theorem Contents.fields (all : Contents assigned contents) :
    fieldsOf contents = assigned.map Prod.fst := by
  induction all with
  | nil => rfl
  | cons here _ ih => rw [fieldsOf, List.map_cons, List.map_cons, here.1, ← ih, fieldsOf]

theorem Contents.mem (all : Contents assigned contents) (member : (f, value) ∈ assigned) :
    ∃ content, f.reader.document value = .ok content ∧ (⟨f, content⟩ : Given) ∈ contents := by
  induction all with
  | nil => cases member
  | @cons first given assigned contents here later ih =>
    rcases List.mem_cons.mp member with rfl | member
    · obtain ⟨_, content⟩ := given
      obtain ⟨rfl, valid⟩ := here
      exact ⟨content, valid, List.mem_cons_self⟩
    · obtain ⟨content, valid, among⟩ := ih member
      exact ⟨content, valid, List.mem_cons_of_mem given among⟩

/-- The record that values for fields make, if they are all valid and there is a hash among them. -/
def Makes (assigned : List (Field × List Char)) (r : Record) : Prop :=
  ∃ contents, Contents assigned contents ∧ (Draft.empty.fill contents).record? = some r

/-- In what order the values stand does not matter. -/
theorem makes_of_perm (distinct : (assigned.map Prod.fst).Nodup) (perm : others.Perm assigned)
    {r : Record} (makes : Makes assigned r) : Makes others r := by
  obtain ⟨contents, all, made⟩ := makes
  -- put into the order of the values, the contents fill the same fields
  obtain ⟨ordered, allToo, permToo⟩ := List.perm_comp_forall₂ perm all
  refine ⟨ordered, allToo, ?_⟩
  rw [Draft.fill_perm (all.fields ▸ distinct) permToo, made]

theorem Makes.fields {r : Record} (makes : Makes assigned r)
    (distinct : (assigned.map Prod.fst).Nodup) :
    (∀ f value, (f, value) ∈ assigned → f.reader.document value = .ok (f.get r)) ∧
      ∀ f ∉ assigned.map Prod.fst, f.get r = f.get (Record.new r.hash) := by
  obtain ⟨contents, all, made⟩ := makes
  have distinct : (fieldsOf contents).Nodup := all.fields ▸ distinct
  cases known : Draft.empty.fill contents .hash with
  | none =>
    rw [Draft.record?_eq_none_iff.mpr known] at made
    cases made
  | some hash =>
    obtain ⟨_, again, fields⟩ := Draft.record?_of_hash known
    rw [made] at again
    cases again
    have own : r.hash = hash := by
      have first := fields .hash
      rw [known] at first
      exact first
    constructor
    · intro f value member
      obtain ⟨content, valid, among⟩ := all.mem member
      rw [fields, Draft.fill_of_mem distinct among, Option.getD_some, valid]
    · intro f absent
      rw [← all.fields] at absent
      rw [fields, Draft.fill_of_not_mem absent, own]
      rfl

/-- What values for fields make of a draft. -/
def MakesFrom (assigned : List (Field × List Char)) (draft final : Draft) : Prop :=
  ∃ contents, Contents assigned contents ∧ final = draft.fill contents

theorem makesFrom_nil_iff : MakesFrom [] draft final ↔ final = draft := by
  simp [MakesFrom, contents_nil_iff, Draft.fill]

theorem makesFrom_cons_iff : MakesFrom ((f, value) :: assigned) draft final ↔
    ∃ content, f.reader.document value = .ok content ∧
      MakesFrom assigned (draft.put f content) final := by
  simp only [MakesFrom, contents_cons_iff]
  constructor
  · rintro ⟨_, ⟨content, more, valid, all, rfl⟩, filled⟩
    exact ⟨content, valid, more, all, filled⟩
  · rintro ⟨content, valid, more, all, filled⟩
    exact ⟨_, ⟨content, more, valid, all, rfl⟩, filled⟩

theorem fields_zip (fields : List Field) (values : List (List Char)) :
    (fields.zip values).map Prod.fst = fields.take values.length := by
  induction fields generalizing values with
  | nil => simp
  | cons f fields ih =>
    cases values with
    | nil => rfl
    | cons value values => simp [ih]

theorem nodup_fields_zip (values : List (List Char)) :
    ((Field.all.zip values).map Prod.fst).Nodup := by
  rw [fields_zip]
  exact (by decide : Field.all.Nodup).sublist (List.take_sublist _ _)

end Contents

/-! ## Elements -/

section Elements

variable {f : Field} {fields : List Field} {values : List (List Char)} {first : Bool}
  {start : List Char}

theorem nextElement_of_formed (formed : WellFormed value) (at_ : PartAt first text (value ++ rest)) :
    Json.nextElement first text = .ok (.member () (Json.dropSpace (value ++ rest))) := by
  obtain ⟨c, tail, start, -, notBracket⟩ := formed.opens rest
  exact Json.nextElement_member_iff.mpr ⟨_, c, tail, at_, start, notBracket, start⟩

theorem readElements_nil_iff :
    readElements [] first draft text = .ok (final, left) ↔
      Json.dropSpace text = ']' :: left ∧ final = draft := by
  rw [readElements, ← readListEnd_iff]
  cases readListEnd text with
  | error e => simp
  | ok rest => simp [eq_comm, and_comm]

theorem readElements_member_iff (next : Json.nextElement first text = .ok (.member () start)) :
    readElements (f :: fields) first draft text = .ok (final, left) ↔ ∃ content between,
      f.reader.read start = .ok (content, between) ∧
        readElements fields false (draft.put f content) between = .ok (final, left) := by
  simp only [readElements, next]
  cases f.reader.read start with
  | error e => simp
  | ok result => simp [Prod.ext_iff]

theorem readElements_nil_of_formed (formed : WellFormed value)
    (at_ : PartAt first text (value ++ rest)) :
    readElements [] first draft text ≠ .ok (final, left) := by
  -- where an element stands, the list does not end
  intro read
  have closed : Json.nextElement first text = .ok (.close left) :=
    Json.nextElement_close_iff.mpr (readElements_nil_iff.mp read).1
  rw [nextElement_of_formed formed at_] at closed
  cases closed

/-- A value among the elements is read as a document of the field that it stands for. -/
theorem readElements_value_iff (formed : WellFormed value) (follows : Follows rest)
    (at_ : PartAt first text (value ++ rest)) :
    ∃ after, Blank after ∧ ∀ {f : Field} {fields : List Field} {draft final : Draft}
      {left : List Char}, readElements (f :: fields) first draft text = .ok (final, left) ↔
        ∃ content, f.reader.document value = .ok content ∧
          readElements fields false (draft.put f content) (after ++ rest) = .ok (final, left) := by
  obtain ⟨after, blank, same⟩ := Field.read_iff_document formed follows
  refine ⟨after, blank, fun {f _ _ _ _} => ?_⟩
  simp only [readElements_member_iff (nextElement_of_formed formed at_),
    f.ignoresSpace (value ++ rest), same]
  constructor
  · rintro ⟨content, _, ⟨valid, rfl⟩, more⟩
    exact ⟨content, valid, more⟩
  · rintro ⟨content, valid, more⟩
    exact ⟨content, _, ⟨valid, rfl⟩, more⟩

/-- A list is read by its values, from any of them on: each counts for the field in its place, and
there are no more of them than fields. -/
theorem readElements_iff (formed : ∀ value ∈ values, WellFormed value)
    (lined : Json.Lined ']' rest first text values) :
    readElements fields first draft text = .ok (final, left) ↔
      (values.length ≤ fields.length ∧ MakesFrom (fields.zip values) draft final) ∧ left = rest := by
  induction values generalizing fields draft first text with
  | nil =>
    obtain ⟨closed⟩ := lined
    simp only [List.length_nil, Nat.zero_le, List.zip_nil_right, makesFrom_nil_iff, true_and]
    cases fields with
    | nil =>
      rw [readElements_nil_iff, closed]
      simp [eq_comm, and_comm]
    | cons f fields => simp [readElements, Json.nextElement_close_iff.mpr closed, eq_comm]
  | cons value values ih =>
    obtain ⟨here, later⟩ := List.forall_mem_cons.mp formed
    obtain - | ⟨follows, at_, more⟩ := lined
    cases fields with
    | nil => simp [readElements_nil_of_formed here at_]
    | cons f fields =>
      obtain ⟨after, blank, step⟩ := readElements_value_iff here follows at_
      simp only [step, List.length_cons, Nat.succ_le_succ_iff, List.zip_cons_cons,
        makesFrom_cons_iff, ih later (more blank)]
      constructor
      · rintro ⟨content, valid, ⟨few, made⟩, behind⟩
        exact ⟨⟨few, content, valid, made⟩, behind⟩
      · rintro ⟨⟨few, content, valid, made⟩, behind⟩
        exact ⟨content, valid, ⟨few, made⟩, behind⟩

end Elements

/-! ## Members -/

/-- A pair that gives a value to a field, by what it is for. -/
def assigned (member : Field × Pair) : Field × List Char := (member.1, member.2.value)

/-- Whether the members of an object have the names of the fields that they are for, each another
one, and any values. -/
structure Assigns (members : List (Field × Pair)) : Prop where
  named : ∀ member ∈ members, Json.textLeaf.reader.document member.2.key = .ok member.1.name
  formed : ∀ member ∈ members, WellFormed member.2.value
  distinct : (members.map Prod.fst).Nodup

section Members

variable {members : List (Field × Pair)} {member : Field × Pair} {first : Bool}

theorem Assigns.tail (assigns : Assigns (member :: members)) : Assigns members where
  named m among := assigns.named m (List.mem_cons_of_mem member among)
  formed m among := assigns.formed m (List.mem_cons_of_mem member among)
  distinct := (List.nodup_cons.mp assigns.distinct).2

/-- A member of a field that is not known yet is read as a document of that field. -/
theorem readMembers_field_iff (assigns : Assigns (member :: members)) (follows : Follows rest)
    (at_ : PartAt first text (member.2.text ++ rest)) :
    ∃ after, Blank after ∧ ∀ {draft final : Draft} {left : List Char}, draft member.1 = none →
      (Json.readMembers memberReader first draft text = .ok (final, left) ↔
        ∃ content, member.1.reader.document member.2.value = .ok content ∧
          Json.readMembers memberReader false (draft.put member.1 content) (after ++ rest) =
            .ok (final, left)) := by
  obtain ⟨f, pair⟩ := member
  have named := assigns.named _ List.mem_cons_self
  obtain ⟨after, blank, same⟩ :=
    Field.read_iff_document (assigns.formed _ List.mem_cons_self) follows
  refine ⟨after, blank, fun {draft final left} unknown => ?_⟩
  rw [Pair.text, List.append_assoc] at at_
  obtain ⟨behind, space, key⟩ := Json.nextKey_of_document named at_
  have colon := Json.readColon_blank space (pair.value ++ rest)
  rw [Json.readMembers_member_iff key]
  constructor
  · rintro ⟨next, between, read, more⟩
    -- the name is that of this field and of no other one
    rcases memberReader_read_iff.mp read with ⟨noField, -, -⟩ | ⟨g, content, known, -, rfl, found⟩
    · exact absurd rfl (Field.ofName?_eq_none_iff.mp noField f)
    · obtain rfl := Field.name_injective (Field.ofName?_eq_some_iff.mp known)
      obtain ⟨_, colon', found⟩ := Json.afterColon_read_iff.mp found
      rw [List.cons_append, colon] at colon'
      cases colon'
      obtain ⟨valid, rfl⟩ := same.mp found
      exact ⟨content, valid, more⟩
  · rintro ⟨content, valid, more⟩
    refine ⟨draft.put f content, after ++ rest, memberReader_read_iff.mpr (.inr ?_), more⟩
    exact ⟨f, content, f.ofName?_name, unknown, rfl,
      Json.afterColon_read_iff.mpr ⟨_, colon, same.mpr ⟨valid, rfl⟩⟩⟩

/-- Fields that are other than one that has become known are as unknown as before. -/
theorem Assigns.unknown_put (assigns : Assigns (member :: members))
    (unknown : ∀ m ∈ member :: members, draft m.1 = none) (content : member.1.Content) :
    ∀ m ∈ members, draft.put member.1 content m.1 = none := by
  intro m among
  have apart := (List.nodup_cons.mp assigns.distinct).1
  have other : member.1 ≠ m.1 := fun same => apart (same ▸ List.mem_map_of_mem among)
  rw [draft.put_of_ne content other]
  exact unknown m (List.mem_cons_of_mem member among)

/-- An object is read by its members, from any of them on. -/
theorem readMembers_iff (assigns : Assigns members) (unknown : ∀ m ∈ members, draft m.1 = none)
    (lined : Json.Lined '}' rest first text ((members.map Prod.snd).map Pair.text)) :
    Json.readMembers memberReader first draft text = .ok (final, left) ↔
      MakesFrom (members.map assigned) draft final ∧ left = rest := by
  induction members generalizing draft first text with
  | nil =>
    obtain ⟨closed⟩ := lined
    rw [List.map_nil, makesFrom_nil_iff,
      Json.readMembers_of_close draft (Json.nextKey_close_iff.mpr closed)]
    simp [eq_comm]
  | cons member members ih =>
    obtain - | ⟨follows, at_, more⟩ := lined
    obtain ⟨after, blank, step⟩ := readMembers_field_iff assigns follows at_
    rw [step (unknown member List.mem_cons_self), List.map_cons, assigned, makesFrom_cons_iff,
      ← exists_and_right]
    refine exists_congr fun content => ?_
    rw [ih assigns.tail (assigns.unknown_put unknown content) (more blank), and_assoc]

end Members

/-! ## Records -/

namespace Record

variable {values : List (List Char)} {members : List (Field × Pair)} {r : Record}

theorem read_list_iff (formed : ∀ value ∈ values, WellFormed value) (isList : IsList values text) :
    read text = .ok r ↔ values.length ≤ 12 ∧ Makes (Field.all.zip values) r := by
  obtain ⟨inner, after, encloses, trailing, shape⟩ := isList.readShape
  have lined : Json.Lined ']' after true (inner ++ ']' :: after) values :=
    encloses.lined .list after
  rw [read, Json.document_ok_iff]
  simp only [reader_sequence_iff shape, readElements_iff formed lined]
  constructor
  · rintro ⟨_, ⟨draft, ⟨⟨few, contents, all, rfl⟩, rfl⟩, made⟩, -⟩
    exact ⟨few, contents, all, made⟩
  · rintro ⟨few, contents, all, made⟩
    exact ⟨after, ⟨_, ⟨⟨few, contents, all, rfl⟩, rfl⟩, made⟩, trailing⟩

theorem read_object_iff (assigns : Assigns members)
    (isObject : IsObject (members.map Prod.snd) text) :
    read text = .ok r ↔ Makes (members.map assigned) r := by
  obtain ⟨inner, after, encloses, trailing, shape⟩ := isObject.readShape
  have lined : Json.Lined '}' after true (inner ++ '}' :: after)
      ((members.map Prod.snd).map Pair.text) := encloses.lined .object after
  have unknown : ∀ m ∈ members, Draft.empty m.1 = none := fun _ _ => rfl
  rw [read, Json.document_ok_iff]
  simp only [reader_map_iff shape, readMembers_iff assigns unknown lined]
  constructor
  · rintro ⟨_, ⟨draft, ⟨⟨contents, all, rfl⟩, rfl⟩, made⟩, -⟩
    exact ⟨contents, all, made⟩
  · rintro ⟨contents, all, made⟩
    exact ⟨after, ⟨_, ⟨⟨contents, all, rfl⟩, rfl⟩, made⟩, trailing⟩

/-- A list of values is read just as an object that gives them to the first fields, in any order: if
one is a record then so is the other, and it is the same, with each value for its field and the
defaults for the fields behind. A list of more than twelve values is no record. -/
theorem positional_read (formed : ∀ value ∈ values, WellFormed value) {listed : List Char}
    (isList : IsList values listed) :
    (12 < values.length → ∀ r, read listed ≠ .ok r) ∧
    (∀ r, read listed = .ok r →
      (∀ f value, (f, value) ∈ Field.all.zip values → f.reader.document value = .ok (f.get r)) ∧
        ∀ f ∉ Field.all.take values.length, f.get r = f.get
          { hash := r.hash, status := .incomplete, chain := "", sender := "", receiver := ""
            asset := "", amount := 0, memo := "", blockHeight := 0, numOuts := 0, outHashes := []
            timestamp := .clock }) ∧
    ∀ {members : List (Field × Pair)} {named : List Char}, values.length ≤ 12 → Assigns members →
      (members.map assigned).Perm (Field.all.zip values) →
      IsObject (members.map Prod.snd) named → ∀ r, read listed = .ok r ↔ read named = .ok r := by
  have distinct := nodup_fields_zip values
  refine ⟨?_, ?_, ?_⟩
  · intro many r found
    have few := ((read_list_iff formed isList).mp found).1
    omega
  · intro r found
    have fields := ((read_list_iff formed isList).mp found).2.fields distinct
    rw [fields_zip] at fields
    exact fields
  · intro members named few assigns perm isObject r
    rw [read_list_iff formed isList, read_object_iff assigns isObject]
    constructor
    · rintro ⟨-, makes⟩
      exact makes_of_perm distinct perm makes
    · intro makes
      -- in the order of the members, too, each field has one value
      have distinctToo : ((members.map assigned).map Prod.fst).Nodup :=
        (perm.map Prod.fst).nodup_iff.mpr distinct
      exact ⟨few, makes_of_perm distinctToo perm.symm makes⟩

/-- Three values with space around them, the middle one an object, and an object that gives them to
the same fields in another order, one key with an escape; and a list that is too long. -/
theorem positional_read_reordered :
    let r : Record := { hash := ⟨"a"⟩, status := .done, chain := "x" }
    let listed := "[ \"a\" ,\x7b\"done\": null\x7d,\"x\"]".toList
    let named :=
      "\x7b\"chain\":\"x\",\"h\\u0061sh\": \"a\" ,\"status\":\x7b\"done\": null\x7d\x7d".toList
    read listed = .ok r ∧ read named = .ok r ∧
      Status.reader.document "\x7b\"done\": null\x7d".toList = .ok .done ∧
      ∀ r, read (Json.listText (List.replicate 13 "null".toList)) ≠ .ok r := by
  intro r listed named
  let values := [" \"a\" ".toList, "\x7b\"done\": null\x7d".toList, "\"x\"".toList]
  let members : List (Field × Pair) := [(.chain, ⟨"\"chain\"".toList, "\"x\"".toList⟩),
    (.hash, ⟨"\"h\\u0061sh\"".toList, " \"a\" ".toList⟩),
    (.status, ⟨"\"status\"".toList, "\x7b\"done\": null\x7d".toList⟩)]
  have space : Blank [' '] := List.all_eq_true.mp rfl
  have word : Json.IsScalar "null".toList := .inl List.mem_cons_self
  have null : WellFormed "null".toList := .scalar word ⟨[], [], .nil, .nil, rfl⟩
  have spaced : WellFormed " null".toList := .scalar word ⟨[' '], [], space, .nil, rfl⟩
  have a : WellFormed " \"a\" ".toList :=
    .scalar (.inr (.inr (Json.isQuoted_quote ['a']))) ⟨[' '], [' '], space, space, rfl⟩
  have x : WellFormed "\"x\"".toList :=
    .scalar (.inr (.inr (Json.isQuoted_quote ['x']))) ⟨[], [], .nil, .nil, rfl⟩
  have key : Json.IsQuoted "\"done\"".toList := Json.isQuoted_quote "done".toList
  have pair : IsObject [⟨"\"done\"".toList, " null".toList⟩] "\x7b\"done\": null\x7d".toList :=
    ⟨_, .inl rfl, [], [], .nil, .nil, rfl⟩
  have done : WellFormed "\x7b\"done\": null\x7d".toList :=
    .object (List.forall_mem_singleton.mpr ⟨_, key, [], [], .nil, .nil, rfl⟩)
      (List.forall_mem_singleton.mpr spaced) pair
  have formed : ∀ value ∈ values, WellFormed value := by
    simp only [values, List.forall_mem_cons]
    exact ⟨a, done, x, List.forall_mem_nil _⟩
  have assigns : Assigns members := by
    refine ⟨?_, ?_, by decide⟩
    · simp only [members, List.forall_mem_cons]
      exact ⟨eq_ok_of_toOption (by decide +kernel), eq_ok_of_toOption (by decide +kernel),
        eq_ok_of_toOption (by decide +kernel), List.forall_mem_nil _⟩
    · simp only [members, List.forall_mem_cons]
      exact ⟨x, a, done, List.forall_mem_nil _⟩
  have isList : IsList values listed := ⟨_, .inl rfl, [], [], .nil, .nil, rfl⟩
  have isObject : IsObject (members.map Prod.snd) named := ⟨_, .inl rfl, [], [], .nil, .nil, rfl⟩
  have tooLong : IsList (List.replicate 13 "null".toList)
      (Json.listText (List.replicate 13 "null".toList)) :=
    ⟨_, .inl rfl, [], [], .nil, .nil, by decide⟩
  have nulls : ∀ value ∈ List.replicate 13 "null".toList, WellFormed value :=
    fun value member => List.eq_of_mem_replicate member ▸ null
  obtain ⟨-, fields, agree⟩ := positional_read formed isList
  have found : read listed = .ok r := eq_ok_of_toOption (by decide +kernel)
  exact ⟨found, (agree (by decide) assigns (by decide) isObject r).mp found,
    (fields r found).1 .status _ (by decide), (positional_read nulls tooLong).1 (by decide)⟩

end Record

end TransactionLookup
