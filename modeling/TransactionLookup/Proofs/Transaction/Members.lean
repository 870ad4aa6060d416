import TransactionLookup.Proofs.Transaction.Fields

/-!
# The members of a record

An object that gives a hash and other fields their contents, each once, is read as the record with
just these contents, whatever space there is, in whatever order the members stand, and whatever other
members stand among them. An object without a hash is no record.
-/

namespace TransactionLookup

open Json (Pair WellFormed IsObject Spells Named Course)

/-- The content of a field, with the field. -/
abbrev Given : Type := (f : Field) × f.Content

/-- What the members of an object give, as they are written: each is a field with a valid content, or
any value that has the name of no field. -/
inductive Gives : List Pair → List Given → Prop
  | nil : Gives [] []
  | field {f : Field} {content : f.Content} {pair : Pair} {pairs : List Pair} {contents : List Given}
      (named : Json.textLeaf.reader.document pair.key = .ok f.name)
      (valid : f.reader.document pair.value = .ok content) (more : Gives pairs contents) :
      Gives (pair :: pairs) (⟨f, content⟩ :: contents)
  | other {name : String} {pair : Pair} {pairs : List Pair} {contents : List Given}
      (named : Json.textLeaf.reader.document pair.key = .ok name)
      (noField : ∀ f : Field, f.name ≠ name) (formed : WellFormed pair.value)
      (more : Gives pairs contents) : Gives (pair :: pairs) contents

def fieldsOf (contents : List Given) : List Field := contents.map Sigma.fst

/-! ## Drafts -/

namespace Draft

/-- The draft with contents for some fields. -/
def fill (d : Draft) (contents : List Given) : Draft :=
  contents.foldl (fun d given => d.put given.1 given.2) d

@[simp] theorem put_self (d : Draft) (f : Field) (content : f.Content) :
    d.put f content f = some content := dif_pos rfl

theorem fill_of_not_mem {contents : List Given} {f : Field} (absent : f ∉ fieldsOf contents)
    (d : Draft) : d.fill contents f = d f := by
  induction contents generalizing d with
  | nil => rfl
  | cons given contents ih =>
    simp only [fieldsOf, List.map_cons, List.mem_cons, not_or] at absent
    exact (ih absent.2 _).trans (d.put_of_ne given.2 (Ne.symm absent.1))

theorem fill_of_mem {contents : List Given} (distinct : (fieldsOf contents).Nodup) {f : Field}
    {content : f.Content} (given : ⟨f, content⟩ ∈ contents) (d : Draft) :
    d.fill contents f = some content := by
  induction contents generalizing d with
  | nil => cases given
  | cons first contents ih =>
    obtain ⟨apart, distinct⟩ := List.nodup_cons.mp distinct
    rcases List.mem_cons.mp given with rfl | later
    · exact (fill_of_not_mem apart _).trans (d.put_self f content)
    · exact ih distinct later _

/-- The order of the contents of distinct fields does not matter. -/
theorem fill_perm {contents others : List Given} (distinct : (fieldsOf contents).Nodup)
    (perm : others.Perm contents) (d : Draft) : d.fill others = d.fill contents := by
  have distinctToo : (fieldsOf others).Nodup := (perm.map Sigma.fst).nodup_iff.mpr distinct
  funext f
  by_cases known : f ∈ fieldsOf contents
  · obtain ⟨⟨_, content⟩, given, rfl⟩ := List.mem_map.mp known
    rw [fill_of_mem distinct given, fill_of_mem distinctToo (perm.mem_iff.mpr given)]
  · have absent : f ∉ fieldsOf others := fun given => known ((perm.map Sigma.fst).mem_iff.mp given)
    rw [fill_of_not_mem known, fill_of_not_mem absent]

theorem record?_of_hash {d : Draft} {hash : TxHash} (known : d .hash = some hash) :
    ∃ r, d.record? = some r ∧ ∀ f, f.get r = (d f).getD (f.get (Record.new hash)) := by
  simp only [record?, known, Option.map_some]
  refine ⟨_, rfl, fun f => ?_⟩
  cases f with
  | hash => exact (congrArg (fun content => Option.getD content hash) known).symm
  | _ => rfl

theorem record?_eq_none_iff {d : Draft} : d.record? = none ↔ d .hash = none :=
  Option.map_eq_none_iff

end Draft

/-! ## Objects -/

/-- What an object gives is what the reader of records makes of it. -/
theorem Gives.spells {pairs : List Pair} {contents : List Given} (gives : Gives pairs contents)
    (distinct : (fieldsOf contents).Nodup) {d : Draft}
    (unknown : ∀ f ∈ fieldsOf contents, d f = none) :
    Spells memberReader d pairs (d.fill contents) := by
  induction gives generalizing d with
  | nil => exact .done d
  | @field f content pair pairs contents named valid more ih =>
    obtain ⟨apart, distinct⟩ := List.nodup_cons.mp distinct
    obtain ⟨here, later⟩ := List.forall_mem_cons.mp unknown
    refine .pair named ?_ (ih distinct ?_)
    · intro start rest follows colon
      obtain ⟨after, blank, read⟩ :=
        Json.Takes.afterColon (Json.Reader.Local.takes f.local_reader valid) follows colon
      exact ⟨after, blank, memberReader_read_iff.mpr
        (.inr ⟨f, content, f.ofName?_name, here, rfl, read⟩)⟩
    · -- the later fields are others, and so as unknown as before
      intro g member
      have other : f ≠ g := fun same => apart (same ▸ member)
      exact (d.put_of_ne content other).trans (later g member)
  | @other name pair pairs contents named noField formed more ih =>
    refine .pair named ?_ (ih distinct unknown)
    intro start rest follows colon
    obtain ⟨after, blank, read⟩ := Json.Takes.afterColon formed.takes follows colon
    exact ⟨after, blank, memberReader_read_iff.mpr
      (.inl ⟨Field.ofName?_eq_none_iff.mpr noField, rfl, read⟩)⟩

section Courses

variable {d final : Draft} {names : List String} {f : Field}

/-- Members with other names leave a field alone. -/
theorem course_of_not_mem (course : Course memberReader d names final) (other : f.name ∉ names) :
    final f = d f := by
  induction course with
  | done => rfl
  | @member d next final name names start rest read more ih =>
    simp only [List.mem_cons, not_or] at other
    refine (ih other.2).trans ?_
    rcases memberReader_read_iff.mp read with ⟨-, rfl, -⟩ | ⟨g, content, named, -, rfl, -⟩
    · rfl
    · refine d.put_of_ne content ?_
      rintro rfl
      exact other.1 (Field.ofName?_eq_some_iff.mp named)

/-- A field that is known is not given again. -/
theorem not_mem_of_course (course : Course memberReader d names final) (known : d f ≠ none) :
    f.name ∉ names := by
  induction course with
  | done => exact List.not_mem_nil
  | @member d next final name names start rest read more ih =>
    rcases memberReader_read_iff.mp read with ⟨noField, rfl, -⟩ | ⟨g, content, named, unknown, rfl, -⟩
    · rw [List.mem_cons, not_or]
      exact ⟨Field.ofName?_eq_none_iff.mp noField f, ih known⟩
    · have other : g ≠ f := by
        rintro rfl
        exact known unknown
      rw [List.mem_cons, not_or]
      refine ⟨?_, ih (by rwa [d.put_of_ne content other])⟩
      intro same
      exact other (Field.name_injective ((Field.ofName?_eq_some_iff.mp named).trans same.symm))

/-- No field is given twice in an object that is read. -/
theorem count_le_of_course (course : Course memberReader d names final) (f : Field) :
    names.count f.name ≤ 1 := by
  induction course with
  | done => simp
  | @member d next final name names start rest read more ih =>
    rw [List.count_cons]
    split
    next same =>
      rcases memberReader_read_iff.mp read with ⟨noField, -, -⟩ | ⟨g, content, named, -, rfl, -⟩
      · exact absurd (beq_iff_eq.mp same).symm (Field.ofName?_eq_none_iff.mp noField f)
      · obtain rfl : g = f := Field.name_injective
          ((Field.ofName?_eq_some_iff.mp named).trans (beq_iff_eq.mp same))
        have once : g.name ∉ names := not_mem_of_course more (by simp)
        have none : names.count g.name = 0 := List.count_eq_zero_of_not_mem once
        omega
    next => exact ih

end Courses

namespace Record

/-- Reading a record from an object is reading a draft from its members. -/
theorem reader_map_iff {text start rest : List Char}
    (shape : Json.readShape text = .ok (.map, start)) {r : Record} :
    reader.read text = .ok (r, rest) ↔ ∃ draft,
      Json.readMembers memberReader true .empty start = .ok (draft, rest) ∧
        draft.record? = some r := by
  rw [reader_read_iff]
  simp only [readDraft, shape]
  cases Json.readMembers memberReader true Draft.empty start with
  | error e => simp
  | ok result =>
    obtain ⟨draft, left⟩ := result
    simp

/-- The record of an object is that of the draft that its members make. -/
theorem read_of_spells {pairs : List Pair} {text : List Char} {draft : Draft}
    (isObject : IsObject pairs text) (spells : Spells memberReader .empty pairs draft) (r : Record) :
    read text = .ok r ↔ draft.record? = some r := by
  obtain ⟨inner, after, encloses, trailing, shape⟩ := isObject.readShape
  have members := Json.readMembers_of_spells spells encloses after
  rw [read, Json.document_ok_iff]
  constructor
  · rintro ⟨rest, found, -⟩
    obtain ⟨other, again, made⟩ := (reader_map_iff shape).mp found
    rw [members] at again
    cases again
    exact made
  · intro made
    exact ⟨after, (reader_map_iff shape).mpr ⟨draft, members, made⟩, trailing⟩

theorem read_of_spells_missing {pairs : List Pair} {text : List Char} {draft : Draft}
    (isObject : IsObject pairs text) (spells : Spells memberReader .empty pairs draft)
    (missing : draft.record? = none) : ∃ place, read text = .error ⟨hashMissing, place⟩ := by
  obtain ⟨inner, after, encloses, trailing, shape⟩ := isObject.readShape
  have members := Json.readMembers_of_spells spells encloses after
  refine ⟨some (.ofOffset text ((Json.Failure.here hashMissing after).offset text)), ?_⟩
  simp only [read, Json.Reader.document, reader, readDraft, shape, members, Draft.record, missing]
  rfl

theorem course_of_read {pairs : List Pair} {names : List String} {text : List Char}
    (isObject : IsObject pairs text) (named : Named pairs names) {r : Record}
    (found : read text = .ok r) :
    ∃ draft, Course memberReader .empty names draft ∧ draft.record? = some r := by
  obtain ⟨inner, after, encloses, -, shape⟩ := isObject.readShape
  obtain ⟨rest, found, -⟩ := Json.document_ok_iff.mp found
  obtain ⟨draft, members, made⟩ := (reader_map_iff shape).mp found
  exact ⟨draft, named.course memberReader_passing encloses members, made⟩

/-- An object with no hash gives no record, whatever else is in it. -/
theorem read_of_no_hash {pairs : List Pair} {names : List String} {text : List Char}
    (isObject : IsObject pairs text) (named : Named pairs names)
    (absent : Field.hash.name ∉ names) (r : Record) : read text ≠ .ok r := by
  intro found
  obtain ⟨draft, course, made⟩ := course_of_read isObject named found
  have missing : draft.record? = none :=
    Draft.record?_eq_none_iff.mpr (course_of_not_mem course absent)
  rw [missing] at made
  cases made

/-- An object that gives a field twice gives no record, whatever else is in it. -/
theorem read_of_repeated {pairs : List Pair} {names : List String} {text : List Char}
    (isObject : IsObject pairs text) (named : Named pairs names) {f : Field}
    (repeated : 2 ≤ names.count f.name) (r : Record) : read text ≠ .ok r := by
  intro found
  obtain ⟨draft, course, -⟩ := course_of_read isObject named found
  have once := count_le_of_course course f
  omega

/-- Of an object only its fields count. If it gives the contents of distinct fields, the hash among
them, it is read as the record with these contents and with the defaults for all other fields. Without
a hash it is no record. Two objects that give the same in any order, with any members between them that
are no fields and with any space, are read alike. -/
theorem object_read {pairs : List Pair} {contents : List Given} {text : List Char}
    (gives : Gives pairs contents) (distinct : (fieldsOf contents).Nodup)
    (isObject : IsObject pairs text) :
    (∀ hash, (⟨.hash, hash⟩ : Given) ∈ contents →
      ∃ r, read text = .ok r ∧ (∀ given ∈ contents, given.1.get r = given.2) ∧
        ∀ f ∉ fieldsOf contents, f.get r = f.get
          { hash, status := .incomplete, chain := "", sender := "", receiver := "", asset := ""
            amount := 0, memo := "", blockHeight := 0, numOuts := 0, outHashes := []
            timestamp := .clock }) ∧
      (Field.hash ∉ fieldsOf contents → ∃ place, read text = .error ⟨hashMissing, place⟩) ∧
      (∀ {written : List Pair} {names : List String} {whole : List Char},
        IsObject written whole → Named written names → Field.hash.name ∉ names →
          ∀ r, read whole ≠ .ok r) ∧
      ∀ {others : List Pair} {same : List Given} {respelled : List Char},
        Gives others same → same.Perm contents → IsObject others respelled →
          ∀ r, read respelled = .ok r ↔ read text = .ok r := by
  have spells : Spells memberReader .empty pairs (Draft.empty.fill contents) :=
    gives.spells distinct fun _ _ => rfl
  refine ⟨?_, ?_, read_of_no_hash, ?_⟩
  · intro hash given
    obtain ⟨r, made, fields⟩ := Draft.record?_of_hash (Draft.fill_of_mem distinct given .empty)
    refine ⟨r, (read_of_spells isObject spells r).mpr made, ?_, ?_⟩
    · intro given member
      rw [fields, Draft.fill_of_mem distinct member, Option.getD_some]
    · intro f absent
      rw [fields, Draft.fill_of_not_mem absent]
      rfl
  · intro absent
    refine read_of_spells_missing isObject spells (Draft.record?_eq_none_iff.mpr ?_)
    exact Draft.fill_of_not_mem absent .empty
  · intro others same respelled givesToo perm isObjectToo r
    have distinctToo : (fieldsOf same).Nodup := (perm.map Sigma.fst).nodup_iff.mpr distinct
    have spellsToo : Spells memberReader .empty others (Draft.empty.fill same) :=
      givesToo.spells distinctToo fun _ _ => rfl
    rw [read_of_spells isObjectToo spellsToo, read_of_spells isObject spells,
      Draft.fill_perm distinct perm]

/-- An amount, and a hash whose key has an escape, among members that are no fields: a list with a number
out of range, and an empty object of the same name. -/
theorem object_read_scattered :
    ∃ r, read ("\n\x7b \"x\" : [1e999 ] ,\"amount\":\t5,\"h\\u0061sh\": \"a\"," ++
        "\"x\":\x7b \x7d\x7d ").toList = .ok r ∧
      r.hash = ⟨"a"⟩ ∧ r.amount = 5 ∧ r.memo = "" := by
  have other : Json.textLeaf.reader.document " \"x\" ".toList = .ok "x" :=
    eq_ok_of_toOption (by decide +kernel)
  have again : Json.textLeaf.reader.document "\"x\"".toList = .ok "x" :=
    eq_ok_of_toOption (by decide +kernel)
  have amountKey : Json.textLeaf.reader.document "\"amount\"".toList = .ok Field.amount.name :=
    eq_ok_of_toOption (by decide +kernel)
  have hashKey : Json.textLeaf.reader.document "\"h\\u0061sh\"".toList = .ok Field.hash.name :=
    eq_ok_of_toOption (by decide +kernel)
  have amount : Json.naturalLeaf.reader.document "\t5".toList = .ok 5 :=
    eq_ok_of_toOption (by decide +kernel)
  have hash : TxHash.reader.document " \"a\"".toList = .ok ⟨"a"⟩ :=
    eq_ok_of_toOption (by decide +kernel)
  have noField : ∀ f : Field, f.name ≠ "x" := by
    intro f
    cases f <;> decide
  have exponent : Json.IsExponent "e999".toList :=
    .inr ⟨'e', [], "999".toList, by simp, by simp, ⟨by simp, List.all_eq_true.mp rfl⟩, rfl⟩
  have number : WellFormed "1e999 ".toList :=
    .scalar (.inr (.inl ⟨[], ['1'], [], "e999".toList, by simp,
      .inr ⟨⟨by simp, List.all_eq_true.mp rfl⟩, by decide⟩, .inl rfl, exponent, rfl⟩))
      ⟨[], [' '], .nil, List.all_eq_true.mp rfl, rfl⟩
  have list : WellFormed " [1e999 ] ".toList :=
    .list (List.forall_mem_singleton.mpr number)
      ⟨_, .inl rfl, [' '], [' '], List.all_eq_true.mp rfl, List.all_eq_true.mp rfl, by rfl⟩
  have object : WellFormed "\x7b \x7d".toList :=
    .object (List.forall_mem_nil _) (List.forall_mem_nil _)
      ⟨[' '], .inr ⟨rfl, List.all_eq_true.mp rfl⟩, [], [], .nil, .nil, rfl⟩
  let pairs : List Pair := [⟨" \"x\" ".toList, " [1e999 ] ".toList⟩,
    ⟨"\"amount\"".toList, "\t5".toList⟩, ⟨"\"h\\u0061sh\"".toList, " \"a\"".toList⟩,
    ⟨"\"x\"".toList, "\x7b \x7d".toList⟩]
  have gives : Gives pairs [⟨.amount, (5 : UInt64)⟩, ⟨.hash, TxHash.mk "a"⟩] :=
    .other other noField list (.field amountKey amount (.field hashKey hash
      (.other again noField object .nil)))
  obtain ⟨r, found, given, absent⟩ := (object_read gives (by decide)
    ⟨_, .inl rfl, ['\n'], [' '], List.all_eq_true.mp rfl, List.all_eq_true.mp rfl, rfl⟩).1
      ⟨"a"⟩ (by simp)
  exact ⟨r, found, given ⟨.hash, TxHash.mk "a"⟩ (by simp), given ⟨.amount, (5 : UInt64)⟩ (by simp),
    absent .memo (by decide)⟩

end Record

end TransactionLookup
