import TransactionLookup.Proofs.Calendar.Text
import TransactionLookup.Proofs.Json.Spelled
import TransactionLookup.Transaction.Reading

/-!
# Records read back

A record with a given time, written as an object and read again, is the same record, and so is a
list of them. What is written is thus never the same for two records. A record that was read can be
written and read any number of times, whatever its text was like at first.

All of this holds of regular times. A leap second inside a minute is written as the second after it, and
so the record that is read then has that for its time (`reads_settled`).
-/

namespace TransactionLookup

open Json (Reads Steps Follows)

theorem eq_ok_of_toOption {ε α : Type} {result : Except ε α} {a : α}
    (found : result.toOption = some a) : result = .ok a := by
  cases result with
  | error e => cases found
  | ok b => exact congrArg Except.ok (Option.some.inj found)

/-! ## The contents of fields -/

theorem TxHash.reads (h : TxHash) : Reads TxHash.reader h.json h :=
  (Json.reads_text h.text).map TxHash.mk

theorem Status.ofName_name (s : Status) : Status.ofName (String.ofList s.name.toList) = .ok s := by
  rw [String.ofList_toList]
  cases s <;> rfl

theorem Status.reads (s : Status) : Reads Status.reader s.json s where
  opens := Json.opens_quote s.name.toList
  read rest _ := by
    have name : Status.readName (s.name.toList.flatMap Json.escape ++ '"' :: rest) =
        .ok (s, rest) := by
      simp only [Status.readName, Json.readQuoted_escaped, Status.ofName_name]
    simp only [Status.reader, Status.json, Json.quote_append, Status.read,
      Json.dropSpace_of_not_space (c := '"') rfl]
    exact name

theorem Timestamp.reads {t : Calendar.Instant} (regular : t.Regular) :
    Reads Timestamp.reader (Timestamp.given t).json (.given t) := by
  have instant : Reads Json.instantLeaf.reader (Json.quote t.text) t := by
    apply Json.Leaf.reads_quote
    simp only [Json.instantLeaf, String.toList_ofList, Calendar.Instant.read_text regular]
    rfl
  exact instant.map Timestamp.given

/-- Whether a record has a time that was given, and that is in no leap second inside a minute. -/
def Record.Regular (r : Record) : Prop := ∃ t, r.timestamp = .given t ∧ t.Regular

namespace Field

theorem ofName?_name (f : Field) : ofName? f.name = some f := by
  cases f <;> decide

/-- What a regular record holds in a field is read back by the reader of the field. -/
theorem reads {r : Record} (regular : r.Regular) (f : Field) :
    Reads f.reader (f.json (f.get r)) (f.get r) := by
  obtain ⟨t, dated, settled⟩ := regular
  cases f with
  | hash => exact TxHash.reads r.hash
  | status => exact Status.reads r.status
  | chain => exact Json.reads_text r.chain
  | sender => exact Json.reads_text r.sender
  | receiver => exact Json.reads_text r.receiver
  | asset => exact Json.reads_text r.asset
  | memo => exact Json.reads_text r.memo
  | amount => exact Json.reads_natural r.amount
  | blockHeight => exact Json.reads_natural r.blockHeight
  | numOuts => exact Json.reads_natural r.numOuts
  | outHashes => exact Json.reads_list fun h _ => TxHash.reads h
  | timestamp =>
    have time : get r timestamp = .given t := dated
    rw [time]
    exact Timestamp.reads settled

end Field

/-! ## The members of a record -/

namespace Draft

theorem put_of_ne (d : Draft) {f g : Field} (content : f.Content) (other : f ≠ g) :
    d.put f content g = d g := dif_neg other

/-- The draft with what a record holds in some fields. -/
def putAll (r : Record) (d : Draft) (fields : List Field) : Draft :=
  fields.foldl (fun d f => d.put f (f.get r)) d

theorem record?_putAll (r : Record) : (Draft.empty.putAll r Field.all).record? = some r := rfl

end Draft

theorem memberReader_of_none {d : Draft} {f : Field} (unknown : d f = none) :
    memberReader f.name d = fieldReader f d := by
  simp only [memberReader, Field.ofName?_name, unknown]

/-- The members of distinct fields fill a draft, as long as none of the fields is known before. -/
theorem steps_putAll {r : Record} {fields : List Field} (distinct : fields.Nodup)
    (reads : ∀ f ∈ fields, Reads f.reader (f.json (f.get r)) (f.get r)) {d : Draft}
    (unknown : ∀ f ∈ fields, d f = none) :
    Steps memberReader d (fields.map fun f => (f.name, f.json (f.get r))) (d.putAll r fields) := by
  induction fields generalizing d with
  | nil => exact .none d
  | cons f fields ih =>
    obtain ⟨apart, distinct⟩ := List.nodup_cons.mp distinct
    obtain ⟨here, later⟩ := List.forall_mem_cons.mp reads
    obtain ⟨first, others⟩ := List.forall_mem_cons.mp unknown
    -- a field that is not known yet is read, and its content put into the draft
    have step : ∀ rest, Follows rest →
        (memberReader f.name d).read (':' :: f.json (f.get r) ++ rest) =
          .ok (d.put f (f.get r), rest) := by
      intro rest follows
      rw [memberReader_of_none first]
      simp only [fieldReader, Json.Reader.map, Json.afterColon_read here follows]
    -- the later fields are others, and so as unknown as before
    have unknown : ∀ g ∈ fields, d.put f (f.get r) g = none := by
      intro g member
      have other : f ≠ g := fun same => apart (same ▸ member)
      rw [Draft.put_of_ne d _ other]
      exact others g member
    exact .member step (ih distinct later unknown)

/-! ## Written records -/

namespace Record

variable {r other : Record} {t now : Calendar.Instant}

theorem readDraft_json (regular : r.Regular) (rest : List Char) :
    readDraft (r.json ++ rest) = .ok ((Draft.empty.putAll r Field.all, hashMissing), rest) := by
  have steps : Steps memberReader Draft.empty
      (Field.all.map fun f => (f.name, f.json (f.get r))) (Draft.empty.putAll r Field.all) :=
    steps_putAll (by decide) (fun f _ => Field.reads regular f) (fun _ _ => rfl)
  simp only [readDraft, json, Json.readShape_object, Json.readMembers_separated steps]

theorem reads (regular : r.Regular) : Reads reader r.json r where
  opens := ⟨'{', _, rfl, rfl, by decide⟩
  read rest _ := by
    simp only [reader, readDraft_json regular, Draft.record, Draft.record?_putAll]

/-- The record that is written like the given one, with a regular time. -/
def settled (r : Record) : Record :=
  match r.timestamp with
  | .clock => r
  | .given t => { r with timestamp := .given t.settled }

theorem settled_of_dated (dated : r.timestamp = .given t) :
    r.settled = { r with timestamp := .given t.settled } := by
  simp only [settled, dated]

theorem regular_settled (dated : r.timestamp = .given t) : r.settled.Regular := by
  rw [settled_of_dated dated]
  exact ⟨t.settled, rfl, t.regular_settled⟩

theorem settled_of_regular (regular : r.Regular) : r.settled = r := by
  obtain ⟨t, dated, regular⟩ := regular
  rw [settled_of_dated dated, Calendar.Instant.settled_of_regular regular, ← dated]

end Record

/-! ## What is read has a regular time -/

/-- Whether each content of a draft is what the reader of its field gives for some text. -/
def Draft.Legible (d : Draft) : Prop :=
  ∀ f content, d f = some content → ∃ text rest, f.reader.read text = .ok (content, rest)

namespace Draft

variable {d next : Draft} {text rest : List Char}

theorem legible_empty : Legible empty := by
  intro f content known
  cases known

theorem Legible.put {f : Field} {content : f.Content} (legible : d.Legible)
    (read : f.reader.read text = .ok (content, rest)) : (d.put f content).Legible := by
  intro g content' known
  unfold Draft.put at known
  split at known
  next same =>
    -- the field that was put holds what was just read
    cases same
    cases known
    exact ⟨text, rest, read⟩
  · exact legible g content' known

/-- A member that is read leaves a draft legible, whether it is a field or not. -/
theorem Legible.member {name : String} (legible : d.Legible)
    (read : (memberReader name d).read text = .ok (next, rest)) : next.Legible := by
  unfold memberReader at read
  split at read
  · obtain ⟨-, -, rfl⟩ := Json.Reader.map_read_iff.mp read
    exact legible
  next f _ =>
    split at read
    · obtain ⟨content, found, rfl⟩ := Json.Reader.map_read_iff.mp read
      obtain ⟨behind, -, found⟩ := Json.afterColon_read_iff.mp found
      exact legible.put found
    · cases read

theorem Legible.members {first : Bool} (legible : d.Legible)
    (read : Json.readMembers memberReader first d text = .ok (next, rest)) : next.Legible := by
  -- by induction on the members, each of which leaves the draft legible to those after it
  fun_induction Json.readMembers memberReader first d text with
  | case1 => cases read
  | case2 =>
    cases read
    exact legible
  | case3 => cases read
  | case4 _ _ _ _ _ _ _ _ found _ _ ih => exact ih (legible.member found) read

theorem Legible.elements {fields : List Field} {first : Bool} (legible : d.Legible)
    (read : readElements fields first d text = .ok (next, rest)) : next.Legible := by
  fun_induction readElements fields first d text with
  | case1 => cases read
  | case2 =>
    cases read
    exact legible
  | case3 => cases read
  | case4 =>
    cases read
    exact legible
  | case5 => cases read
  | case6 _ _ _ _ _ _ _ _ _ found ih => exact ih (legible.put found) read

theorem legible_of_readDraft {missing : Json.Problem}
    (read : readDraft text = .ok ((d, missing), rest)) : d.Legible := by
  unfold readDraft at read
  split at read
  · cases read
  · split at read
    · cases read
    next members =>
      cases read
      exact legible_empty.members members
  · split at read
    · cases read
    next elements =>
      cases read
      exact legible_empty.elements elements
  · cases read

end Draft

/-- A text that is read as a time is that of a regular instant; no other scalar is read as one. -/
theorem Timestamp.regular_of_read {text rest : List Char} {t : Calendar.Instant}
    (found : Timestamp.reader.read text = .ok (.given t, rest)) : t.Regular := by
  obtain ⟨u, instant, same⟩ := Json.Reader.map_read_iff.mp found
  cases same
  obtain ⟨scalar, -, meant⟩ := Json.Leaf.reader_read_iff.mp instant
  cases scalar with
  | text s =>
    have meant : (Calendar.Instant.read s.toList).mapError Json.Problem.unreadableTime = .ok t :=
      meant
    cases read : Calendar.Instant.read s.toList with
    | error problem =>
      rw [read] at meant
      cases meant
    | ok u =>
      rw [read] at meant
      cases meant
      exact Calendar.Instant.regular_of_read read
  | null => cases meant
  | boolean => cases meant
  | number => cases meant

/-- A given time is none that was left out. -/
theorem Timestamp.eq_some_of_getD {content : Option Timestamp} {t : Calendar.Instant}
    (time : content.getD .clock = .given t) : content = some (.given t) := by
  cases content with
  | none => cases time
  | some u => exact congrArg some time

namespace Record

variable {r other : Record} {t now : Calendar.Instant}

theorem reader_read_iff {text rest : List Char} {r : Record} :
    reader.read text = .ok (r, rest) ↔ ∃ draft missing,
      readDraft text = .ok ((draft, missing), rest) ∧ draft.record? = some r := by
  simp only [reader]
  cases found : readDraft text with
  | error e => simp
  | ok result =>
    obtain ⟨⟨draft, missing⟩, left⟩ := result
    simp only [Draft.record]
    cases made : draft.record? with
    | none => simp [made]
    | some other =>
      simp only [Except.ok.injEq, Prod.mk.injEq]
      constructor
      · rintro ⟨rfl, rfl⟩
        exact ⟨draft, missing, ⟨⟨rfl, rfl⟩, rfl⟩, made⟩
      · rintro ⟨_, _, ⟨⟨rfl, rfl⟩, rfl⟩, again⟩
        rw [made] at again
        exact ⟨Option.some.inj again, rfl⟩

/-- A time that is read is regular, in whatever form the record is given. -/
theorem regular_of_read {text : List Char} (found : read text = .ok r)
    (dated : r.timestamp = .given t) : t.Regular := by
  obtain ⟨rest, whole, -⟩ := Json.document_ok_iff.mp found
  obtain ⟨draft, missing, drafted, made⟩ := reader_read_iff.mp whole
  obtain ⟨hash, -, rfl⟩ := Option.map_eq_some_iff.mp made
  -- without a time in the draft the record would have that of the clock
  have known := Timestamp.eq_some_of_getD dated
  obtain ⟨text, rest, time⟩ := Draft.legible_of_readDraft drafted .timestamp _ known
  exact Timestamp.regular_of_read time

/-! ## Readings of the clock -/

theorem read_json (regular : r.Regular) : read r.json = .ok r := (reads regular).document

theorem json_injective (regular : r.Regular) (regular' : other.Regular)
    (same : r.json = other.json) : r = other := by
  have first := read_json regular
  rw [same, read_json regular'] at first
  exact (Except.ok.inj first).symm

end Record

end TransactionLookup
