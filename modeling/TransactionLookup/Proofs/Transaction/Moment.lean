import TransactionLookup.Proofs.Calendar.Offset
import TransactionLookup.Proofs.Transaction.Positional

/-!
# Timestamps as instants

A timestamp is an instant and not a text. Of a record it does not matter by which clock its time is
written, and two that differ in that alone are the same record with the same text. The text has the
time in universal time, and no two regular instants have one text (`timestamp_denotes`).
-/

namespace TransactionLookup

open Json (Pair WellFormed IsList IsObject)

/-! ## Values for fields in a document -/

/-- Whether a document gives just these values to fields, as a list or as an object. -/
inductive Holds : List Char → List (Field × List Char) → Prop
  | list {values : List (List Char)} {text : List Char}
      (formed : ∀ value ∈ values, WellFormed value) (few : values.length ≤ 12)
      (isList : IsList values text) : Holds text (Field.all.zip values)
  | object {members : List (Field × Pair)} {text : List Char} (assigns : Assigns members)
      (isObject : IsObject (members.map Prod.snd) text) : Holds text (members.map assigned)

section Values

variable {text value : List Char} {assigned before after : List (Field × List Char)}
  {contents : List Given} {f : Field} {r : Record}

theorem Holds.read_iff (holds : Holds text assigned) :
    Record.read text = .ok r ↔ Makes assigned r := by
  cases holds with
  | list formed few isList => simp [Record.read_list_iff formed isList, few]
  | object assigns isObject => exact Record.read_object_iff assigns isObject

theorem Holds.distinct (holds : Holds text assigned) : (assigned.map Prod.fst).Nodup := by
  cases holds with
  | list formed few isList => exact nodup_fields_zip _
  | object assigns isObject =>
    rw [List.map_map]
    exact assigns.distinct

/-- Values that are all valid, a hash among them, make a record. -/
theorem makes_of_valid (valid : ∀ f value, (f, value) ∈ assigned →
      ∃ content, f.reader.document value = .ok content)
    (distinct : (assigned.map Prod.fst).Nodup) (hash : Field.hash ∈ assigned.map Prod.fst) :
    ∃ r, Makes assigned r := by
  -- the other two hypotheses are about all of the values, and would be carried along
  have all : ∃ contents, Contents assigned contents := by
    clear distinct hash
    induction assigned with
    | nil => exact ⟨[], .nil⟩
    | cons first assigned ih =>
      obtain ⟨content, read⟩ := valid first.1 first.2 List.mem_cons_self
      obtain ⟨contents, later⟩ := ih fun f value member =>
        valid f value (List.mem_cons_of_mem first member)
      exact ⟨⟨first.1, content⟩ :: contents, .cons ⟨rfl, read⟩ later⟩
  obtain ⟨contents, all⟩ := all
  obtain ⟨⟨_, value⟩, member, rfl⟩ := List.mem_map.mp hash
  obtain ⟨content, -, given⟩ := all.mem member
  have known := Draft.fill_of_mem (all.fields ▸ distinct) given .empty
  obtain ⟨r, made, -⟩ := Draft.record?_of_hash known
  exact ⟨r, contents, all, made⟩

/-- A value that is read alike for its field can stand in the place of another. -/
theorem Contents.respelled {respelling : List Char}
    (alike : ∀ content, f.reader.document value = .ok content →
      f.reader.document respelling = .ok content)
    (all : Contents (before ++ (f, value) :: after) contents) :
    Contents (before ++ (f, respelling) :: after) contents := by
  induction before generalizing contents with
  | nil =>
    obtain ⟨content, more, valid, later, rfl⟩ := contents_cons_iff.mp all
    exact contents_cons_iff.mpr ⟨content, more, alike content valid, later, rfl⟩
  | cons first before ih =>
    obtain ⟨content, more, valid, later, rfl⟩ := contents_cons_iff.mp all
    exact contents_cons_iff.mpr ⟨content, more, valid, ih later, rfl⟩

end Values

/-! ## Instants in a document -/

/-- Whether a value of a document is a text that is an instant, written for a clock that is some
minutes ahead of universal time. -/
def Dates (t : Calendar.Instant) (minutes : Int) (value : List Char) : Prop :=
  ∃ text, t.Written minutes text ∧ Json.textLeaf.reader.document value = .ok (String.ofList text)

theorem Dates.document {t : Calendar.Instant} {minutes : Int} {value : List Char}
    (dates : Dates t minutes value) : Field.timestamp.reader.document value = .ok (.given t) := by
  obtain ⟨text, written, document⟩ := dates
  obtain ⟨rest, read, blank⟩ := Json.document_ok_iff.mp document
  have shape := Json.textLeaf_read read
  have meant : Json.instantLeaf.interpret (.text (String.ofList text)) = .ok t := by
    simp only [Json.instantLeaf, String.toList_ofList, written.read]
    rfl
  have instant := Json.Leaf.reader_read_iff.mpr ⟨_, shape, meant⟩
  exact Json.document_ok_iff.mpr ⟨rest, Json.Reader.map_read_iff.mpr ⟨t, instant, rfl⟩, blank⟩

namespace Record

variable {t u : Calendar.Instant} {minutes minutes' : Int}
  {text text' value value' : List Char} {before after : List (Field × List Char)}

/-- A record with an instant for its timestamp has that instant, however it is written. -/
theorem read_dated (dates : Dates t minutes value)
    (holds : Holds text (before ++ (.timestamp, value) :: after))
    (valid : ∀ f other, (f, other) ∈ before ++ after →
      ∃ content, f.reader.document other = .ok content)
    (hash : Field.hash ∈ (before ++ after).map Prod.fst) :
    ∃ r, read text = .ok r ∧ r.timestamp = .given t ∧
      (∀ f other, (f, other) ∈ before ++ after → f.reader.document other = .ok (f.get r)) ∧
      ∀ f, f ≠ .timestamp → f ∉ (before ++ after).map Prod.fst → f.get r = f.get (new r.hash) := by
  have cases_mem {assigned : Field × List Char} :
      assigned ∈ before ++ (.timestamp, value) :: after ↔
        assigned = (.timestamp, value) ∨ assigned ∈ before ++ after := by
    simp only [List.mem_append, List.mem_cons]
    exact or_left_comm
  have all : ∀ f other, (f, other) ∈ before ++ (.timestamp, value) :: after →
      ∃ content, f.reader.document other = .ok content := by
    intro f other member
    rcases cases_mem.mp member with same | member
    · cases same
      exact ⟨_, dates.document⟩
    · exact valid f other member
  have known : Field.hash ∈ (before ++ (.timestamp, value) :: after).map Prod.fst := by
    obtain ⟨assigned, member, same⟩ := List.mem_map.mp hash
    exact List.mem_map.mpr ⟨assigned, cases_mem.mpr (.inr member), same⟩
  obtain ⟨r, makes⟩ := makes_of_valid all holds.distinct known
  obtain ⟨given, absent⟩ := makes.fields holds.distinct
  refine ⟨r, holds.read_iff.mpr makes, ?_, ?_, ?_⟩
  · have own := given .timestamp value (cases_mem.mpr (.inl rfl))
    rw [dates.document] at own
    exact (Except.ok.inj own).symm
  · intro f other member
    exact given f other (cases_mem.mpr (.inr member))
  · intro f different unknown
    apply absent
    intro known
    obtain ⟨assigned, among, rfl⟩ := List.mem_map.mp known
    rcases cases_mem.mp among with rfl | among
    · exact different rfl
    · exact unknown (List.mem_map_of_mem among)

/-- It does not matter for which clock the instant of a record is written. -/
theorem read_redated (dates : Dates t minutes value) (dates' : Dates t minutes' value')
    (holds : Holds text (before ++ (.timestamp, value) :: after))
    (holds' : Holds text' (before ++ (.timestamp, value') :: after)) {r : Record}
    (found : read text = .ok r) : read text' = .ok r := by
  obtain ⟨contents, all, made⟩ := holds.read_iff.mp found
  refine holds'.read_iff.mpr ⟨contents, all.respelled ?_, made⟩
  intro content read
  rw [dates.document] at read
  rw [dates'.document, read]

theorem json_ne_of_given (regular : t.Regular) (regular' : u.Regular) {r other : Record}
    (dated : r.timestamp = .given t) (dated' : other.timestamp = .given u) (apart : u ≠ t) :
    r.json ≠ other.json := by
  intro same
  have records := json_injective ⟨t, dated, regular⟩ ⟨u, dated', regular'⟩ same
  rw [records, dated'] at dated
  exact apart (Timestamp.given.inj dated)

/-- A regular instant can be written for every clock that is less than a day ahead of universal time or
behind it, as long as the clock's date is in range. A record with such a text for its timestamp is
read as the record with that instant, whatever clock it is written for; it is shown in universal
time, with the fewest of 0, 3, 6 or 9 digits that are exact; and different regular instants are shown
differently. -/
theorem timestamp_denotes (t : Calendar.Instant) (regular : t.Regular) :
    (∀ minutes, -1440 < minutes → minutes < 1440 →
      Calendar.firstSecond ≤ t.seconds + 60 * minutes →
      t.seconds + 60 * minutes ≤ Calendar.lastSecond → ∃ text, t.Written minutes text) ∧
    (∀ {minutes value before after text}, Dates t minutes value →
      Holds text (before ++ (.timestamp, value) :: after) →
      (∀ f other, (f, other) ∈ before ++ after → ∃ content, f.reader.document other = .ok content) →
      Field.hash ∈ (before ++ after).map Prod.fst →
      ∃ r, read text = .ok r ∧ r.timestamp = .given t ∧
        (∀ f other, (f, other) ∈ before ++ after → f.reader.document other = .ok (f.get r)) ∧
        ∀ f, f ≠ .timestamp → f ∉ (before ++ after).map Prod.fst → f.get r = f.get
          { hash := r.hash, status := .incomplete, chain := "", sender := "", receiver := ""
            asset := "", amount := 0, memo := "", blockHeight := 0, numOuts := 0
            outHashes := [] }) ∧
    (∀ {minutes minutes' value value' before after text text'}, Dates t minutes value →
      Dates t minutes' value' → Holds text (before ++ (.timestamp, value) :: after) →
      Holds text' (before ++ (.timestamp, value') :: after) →
      (∀ r, read text = .ok r ↔ read text' = .ok r) ∧
      ∀ r r', read text = .ok r → read text' = .ok r' → r = r' ∧ r.json = r'.json) ∧
    (∃ ds, (Timestamp.given t).json = Json.quote (t.parts.clock 'T' ++ (Calendar.pointed ds ++ ['Z'])) ∧
      Calendar.IsFraction t.parts.nanos ds ∧ ds.length ∈ [0, 3, 6, 9] ∧
      ∀ {others}, Calendar.IsFraction t.parts.nanos others → others.length ∈ [0, 3, 6, 9] →
        ds.length ≤ others.length) ∧
    ∀ {u : Calendar.Instant}, u.Regular → u ≠ t → u.text ≠ t.text ∧ ∀ {r other : Record},
      r.timestamp = .given t → other.timestamp = .given u → r.json ≠ other.json := by
  refine ⟨?_, ?_, ?_, ?_, ?_⟩
  · intro minutes least most started ended
    exact Calendar.Instant.exists_written least most
      ((Calendar.Instant.onClock?_isSome_iff regular).mpr ⟨started, ended⟩)
  · intro minutes value before after text
    exact read_dated
  · intro minutes minutes' value value' before after text text' dates dates' holds holds'
    constructor
    · intro r
      exact ⟨read_redated dates dates' holds holds', read_redated dates' dates holds' holds⟩
    · intro r r' found found'
      have same : r = r' := by
        rw [read_redated dates dates' holds holds' found] at found'
        exact Except.ok.inj found'
      exact ⟨same, congrArg json same⟩
  · obtain ⟨ds, same, fraction, used, fewest⟩ := t.text_eq_clock
    exact ⟨ds, congrArg Json.quote same, fraction, used, fewest⟩
  · intro u regular' apart
    refine ⟨?_, fun dated dated' => json_ne_of_given regular regular' dated dated' apart⟩
    intro same
    exact apart (Calendar.Instant.text_injective regular' regular same)

/-- A leap second at the end of a year, for a clock that shows another day and year, with four
digits in its fraction, and for one of universal time. -/
theorem timestamp_denotes_leap :
    let t : Calendar.Instant :=
      ⟨1483228799, 1250000000, by decide, by decide, by decide⟩
    let text := "\x7b\"hash\":\"a\",\"timestamp\":\"2017-01-01t05:29:60.2500+05:30\"\x7d".toList
    let text' := "\x7b\"hash\":\"a\",\"timestamp\":\"2016-12-31T23:59:60.25Z\"\x7d".toList
    ∃ r, read text = .ok r ∧ read text' = .ok r ∧ r.timestamp = .given t ∧ r.hash = ⟨"a"⟩ ∧
      r.memo = "" := by
  intro t text text'
  let wall : Calendar.Instant :=
    ⟨1483248599, 1250000000, by decide, by decide, by decide⟩
  have shows : t.onClock? 330 = some wall :=
    Calendar.Instant.onClock?_eq_some_iff.mpr ⟨rfl, rfl, by decide⟩
  have shows' : t.onClock? 0 = some t :=
    Calendar.Instant.onClock?_eq_some_iff.mpr ⟨rfl, rfl, by decide⟩
  have written : t.Written 330 "2017-01-01t05:29:60.2500+05:30".toList := by
    refine ⟨wall, 't', "2500".toList, _, shows, .inr (.inl rfl),
      ⟨List.all_eq_true.mp rfl, by decide⟩, .ahead (by decide), ?_⟩
    decide +kernel
  have universal : t.Written 0 "2016-12-31T23:59:60.25Z".toList := by
    refine ⟨t, 'T', "25".toList, _, shows', .inl rfl, ⟨List.all_eq_true.mp rfl, by decide⟩,
      .universal, ?_⟩
    decide +kernel
  have quoted (cs : List Char) : WellFormed (Json.quote cs) :=
    .scalar (.inr (.inr (Json.isQuoted_quote cs))) ⟨[], [], .nil, .nil, (List.append_nil _).symm⟩
  have dates {minutes : Int} {time : List Char} (written : t.Written minutes time) :
      Dates t minutes (Json.quote time) :=
    ⟨time, written, by simpa using (Json.reads_text (String.ofList time)).document⟩
  let members (time : List Char) : List (Field × Pair) :=
    [(.hash, ⟨Json.quote "hash".toList, Json.quote ['a']⟩),
      (.timestamp, ⟨Json.quote "timestamp".toList, Json.quote time⟩)]
  have assigns (time : List Char) : Assigns (members time) := by
    refine ⟨?_, ?_, (by decide : [Field.hash, Field.timestamp].Nodup)⟩
    · simp only [members, List.forall_mem_cons]
      exact ⟨eq_ok_of_toOption (by decide +kernel), eq_ok_of_toOption (by decide +kernel),
        List.forall_mem_nil _⟩
    · simp only [members, List.forall_mem_cons]
      exact ⟨quoted _, quoted _, List.forall_mem_nil _⟩
  have holds : Holds text ([(.hash, Json.quote ['a'])] ++ (.timestamp, Json.quote _) :: []) :=
    .object (assigns "2017-01-01t05:29:60.2500+05:30".toList)
      ⟨_, .inl rfl, [], [], .nil, .nil, by decide +kernel⟩
  have holds' : Holds text' ([(.hash, Json.quote ['a'])] ++ (.timestamp, Json.quote _) :: []) :=
    .object (assigns "2016-12-31T23:59:60.25Z".toList)
      ⟨_, .inl rfl, [], [], .nil, .nil, by decide +kernel⟩
  have hash : TxHash.reader.document (Json.quote ['a']) = .ok ⟨"a"⟩ :=
    eq_ok_of_toOption (by decide +kernel)
  have valid : ∀ (f : Field) (other : List Char),
      (f, other) ∈ [(Field.hash, Json.quote ['a'])] ++ [] →
        ∃ content, f.reader.document other = .ok content := by
    simp only [List.append_nil, List.mem_singleton, Prod.mk.injEq]
    rintro f other ⟨rfl, rfl⟩
    exact ⟨_, hash⟩
  obtain ⟨-, decodes, redated, -⟩ := timestamp_denotes t (by decide)
  obtain ⟨r, found, dated, given, absent⟩ := decodes (dates written) holds valid (by decide)
  have own : TxHash.reader.document (Json.quote ['a']) = .ok r.hash :=
    given .hash (Json.quote ['a']) (by simp)
  rw [hash] at own
  exact ⟨r, found, ((redated (dates written) (dates universal) holds holds').1 r).mp found, dated,
    (Except.ok.inj own).symm, absent .memo (by decide) (by decide)⟩

end Record

end TransactionLookup
