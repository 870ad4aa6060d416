import TransactionLookup.Proofs.Json.Agreement
import TransactionLookup.Proofs.Json.Settled
import TransactionLookup.Proofs.Transaction.Members
import TransactionLookup.Proofs.Transaction.Tree

/-!
# Records from texts and from trees

A record is read from a text in the order in which its members stand, and from a tree in the order of
their keys. The two ways agree on every text that has a tree and in which no object repeats a key. When an
object gives a field twice, the first way refuses it, and the second takes the last.
-/

namespace TransactionLookup

open Json (Agrees MembersAt IsObject Named Reads)

/-! ## Statuses -/

namespace Status

variable {s : Status}

theorem ofMembers_settled_iff {members : List (String × Json.Value)}
    (distinct : (members.map Prod.fst).Nodup) :
    ofMembers (Json.settled members) = .ok s ↔ ∃ name value, members = [(name, value)] ∧
      ofName name = .ok s ∧ Json.unitLeaf.ofValue value = .ok () := by
  constructor
  · intro made
    unfold ofMembers at made
    split at made
    next name value single =>
      have perm := Json.settled_perm distinct
      rw [single] at perm
      split at made
      · cases made
      next named =>
        split at made
        · cases made
        next unit =>
          cases made
          exact ⟨name, value, List.singleton_perm.mp perm |>.symm, named, unit⟩
    · cases made
  · rintro ⟨name, value, rfl, named, unit⟩
    have single : Json.settled [(name, value)] = [(name, value)] := rfl
    rw [single]
    simp only [ofMembers, named, unit]

theorem readObject_agrees {depth : Nat} {start rest : List Char}
    {members : List (String × Json.Value)}
    (members_at : MembersAt (Json.valueReader depth) true start members rest)
    (keys : (members.map Prod.fst).Nodup) (distinct : ∀ member ∈ members, member.2.Distinct)
    (left : List Char) :
    readObject start = .ok (s, left) ↔
      ofMembers (Json.settled members) = .ok s ∧ left = rest := by
  rw [readObject_iff, ofMembers_settled_iff keys]
  constructor
  · rintro ⟨name, behind, key, named, null⟩
    obtain ⟨between, unit, close⟩ := readNull_iff.mp null
    obtain ⟨inside, colon, unit⟩ := Json.afterColon_read_iff.mp unit
    cases members_at with
    | close next =>
      rw [key] at next
      cases next
    | member key_too colon_too read more =>
      rw [key] at key_too
      cases key_too
      rw [colon] at colon_too
      cases colon_too
      obtain ⟨meant, rfl⟩ :=
        (Json.unitLeaf.agrees read (distinct _ List.mem_cons_self) () _).mp unit
      have last : Json.nextKey false between = .ok (.close left) := Json.nextKey_close_iff.mpr close
      cases more with
      | close next =>
        rw [last] at next
        cases next
        exact ⟨⟨_, _, rfl, named, meant⟩, rfl⟩
      | member key =>
        rw [last] at key
        cases key
  · rintro ⟨⟨name, value, rfl, named, meant⟩, rfl⟩
    cases members_at with
    | member key colon read more =>
      cases more with
      | close next =>
        refine ⟨name, _, key, named, readNull_iff.mpr ⟨_, ?_, Json.nextKey_close_iff.mp next⟩⟩
        have unit := Json.unitLeaf.agrees read (distinct _ List.mem_cons_self) ()
        exact Json.afterColon_read_iff.mpr ⟨_, colon, (unit _).mpr ⟨meant, rfl⟩⟩

theorem agrees : Agrees Status.reader Status.ofValue := by
  intro depth text rest value read distinct s left
  show Status.read text = .ok (s, left) ↔ _
  rw [read_iff]
  cases Json.valueAt_of_read read with
  | @scalar _ _ scalar shape =>
    cases scalar with
    | text name =>
      simp only [shape, ofValue, Except.ok.injEq, Prod.mk.injEq, reduceCtorEq, false_and,
        exists_false, or_false]
      constructor
      · rintro ⟨_, ⟨⟨⟩, rfl⟩, named⟩
        exact ⟨named, rfl⟩
      · rintro ⟨named, rfl⟩
        exact ⟨name, ⟨rfl, rfl⟩, named⟩
    | null => simp [shape, ofValue]
    | boolean b => simp [shape, ofValue]
    | number n => simp [shape, ofValue]
  | sequence shape => simp [shape, ofValue]
  | map shape members_at =>
    cases distinct with
    | map keys values =>
      simp only [shape, ofValue, Except.ok.injEq, Prod.mk.injEq, reduceCtorEq, false_and,
        exists_false, false_or, true_and]
      rw [← readObject_agrees members_at keys values]
      constructor
      · rintro ⟨_, rfl, found⟩
        exact found
      · intro found
        exact ⟨_, rfl, found⟩

end Status

namespace Field

theorem hash_agrees : Agrees TxHash.reader hashOfValue :=
  Json.Agrees.map Json.textLeaf.agrees TxHash.mk

theorem hashes_agree : Agrees (Json.listReader TxHash.reader) hashesOfValue := by
  refine Json.listReader_agrees hash_agrees (fun _ => rfl) ?_
  intro value hashes made
  cases value with
  | sequence items => rfl
  | scalar s => cases made
  | map members => cases made

/-- The content of a field is the same, whether it is taken from a text or from a tree. -/
theorem agrees (f : Field) : Agrees f.reader f.ofValue := by
  cases f with
  | hash => exact hash_agrees
  | status => exact Status.agrees
  | chain | sender | receiver | asset | memo => exact Json.textLeaf.agrees
  | amount | blockHeight | numOuts => exact Json.naturalLeaf.agrees
  | outHashes => exact hashes_agree
  | timestamp => exact Json.Agrees.map Json.instantLeaf.agrees Timestamp.given

end Field

/-! ## Objects -/

namespace Draft

variable {d next final : Draft} {name : String} {value : Json.Value}
  {members others : List (String × Json.Value)}

theorem putMember_iff : d.putMember name value = .ok next ↔
    (Field.ofName? name = none ∧ next = d) ∨ ∃ (f : Field) (content : f.Content),
      Field.ofName? name = some f ∧ f.ofValue value = .ok content ∧ next = d.put f content := by
  unfold putMember
  split
  next unknown => simp [unknown, eq_comm]
  next f named =>
    simp only [named, reduceCtorEq, false_and, false_or, Option.some.injEq]
    split
    next failed =>
      constructor
      · intro same
        cases same
      · rintro ⟨_, content, rfl, valid, -⟩
        rw [failed] at valid
        cases valid
    next content valid =>
      constructor
      · intro same
        exact ⟨f, content, rfl, valid, (Except.ok.inj same).symm⟩
      · rintro ⟨_, other, rfl, again, rfl⟩
        rw [valid] at again
        rw [Except.ok.inj again]

theorem putMember_of_ne {f : Field} (put : d.putMember name value = .ok next)
    (other : f.name ≠ name) : next f = d f := by
  rcases putMember_iff.mp put with ⟨-, rfl⟩ | ⟨g, content, named, -, rfl⟩
  · rfl
  · refine d.put_of_ne content ?_
    rintro rfl
    exact other (Field.ofName?_eq_some_iff.mp named)

theorem putMembers_cons_iff : d.putMembers ((name, value) :: members) = .ok final ↔
    ∃ next, d.putMember name value = .ok next ∧ next.putMembers members = .ok final := by
  rw [putMembers]
  split
  next failed => simp [failed]
  next put => simp [put]

theorem put_comm {f g : Field} (apart : f ≠ g) (a : f.Content) (b : g.Content) (d : Draft) :
    (d.put f a).put g b = (d.put g b).put f a := by
  funext h
  by_cases first : f = h
  · subst first
    rw [put_of_ne _ b (Ne.symm apart), put_self, put_self]
  · by_cases second : g = h
    · subst second
      rw [put_of_ne _ a apart, put_self, put_self]
    · rw [put_of_ne _ b second, put_of_ne _ a first, put_of_ne _ a first, put_of_ne _ b second]

/-- Members with different names can be put in either order. -/
theorem putMember_comm {other : String} {held : Json.Value} (apart : name ≠ other)
    (first : d.putMember name value = .ok next) (second : next.putMember other held = .ok final) :
    ∃ between, d.putMember other held = .ok between ∧ between.putMember name value = .ok final := by
  rcases putMember_iff.mp first with ⟨unknown, rfl⟩ | ⟨f, a, named, valid, rfl⟩
  · exact ⟨final, second, putMember_iff.mpr (.inl ⟨unknown, rfl⟩)⟩
  · rcases putMember_iff.mp second with ⟨unknown, rfl⟩ | ⟨g, b, named_too, valid_too, rfl⟩
    · exact ⟨d, putMember_iff.mpr (.inl ⟨unknown, rfl⟩), first⟩
    · have fields : f ≠ g := by
        rintro rfl
        rw [Field.ofName?_eq_some_iff] at named named_too
        exact apart (named.symm.trans named_too)
      refine ⟨d.put g b, putMember_iff.mpr (.inr ⟨g, b, named_too, valid_too, rfl⟩), ?_⟩
      exact putMember_iff.mpr (.inr ⟨f, a, named, valid, put_comm fields a b d⟩)

theorem putMembers_of_perm (perm : members.Perm others) (keys : (members.map Prod.fst).Nodup)
    (made : d.putMembers members = .ok final) : d.putMembers others = .ok final := by
  induction perm generalizing d with
  | nil => exact made
  | cons member _ ih =>
    obtain ⟨next, put, more⟩ := putMembers_cons_iff.mp made
    exact putMembers_cons_iff.mpr ⟨next, put, ih (List.nodup_cons.mp keys).2 more⟩
  | swap first second members =>
    obtain ⟨next, put, more⟩ := putMembers_cons_iff.mp made
    obtain ⟨last, put_too, more⟩ := putMembers_cons_iff.mp more
    have apart : second.1 ≠ first.1 := fun same =>
      (List.nodup_cons.mp keys).1 (same ▸ List.mem_cons_self)
    obtain ⟨between, early, late⟩ := putMember_comm apart put put_too
    exact putMembers_cons_iff.mpr ⟨between, early, putMembers_cons_iff.mpr ⟨last, late, more⟩⟩
  | trans first second ih ih_too =>
    exact ih_too ((first.map Prod.fst).nodup_iff.mp keys) (ih keys made)

/-- If no key is repeated, the order of the members does not matter. -/
theorem putMembers_settled_iff (keys : (members.map Prod.fst).Nodup) :
    d.putMembers (Json.settled members) = .ok final ↔ d.putMembers members = .ok final := by
  have perm := Json.settled_perm keys
  exact ⟨putMembers_of_perm perm ((perm.map Prod.fst).nodup_iff.mpr keys),
    putMembers_of_perm perm.symm keys⟩

end Draft

section Objects

variable {depth : Nat} {d : Draft} {text rest : List Char}

/-- A field that is not known is read for what is put for it. -/
theorem memberReader_agrees {start behind between : List Char} {name : String} {value : Json.Value}
    (colon : Json.readColon start = .ok behind)
    (read : (Json.valueReader depth).read behind = .ok (value, between)) (distinct : value.Distinct)
    (unknown : ∀ f : Field, f.name = name → d f = none) (next : Draft) (left : List Char) :
    (memberReader name d).read start = .ok (next, left) ↔
      d.putMember name value = .ok next ∧ left = between := by
  rw [memberReader_read_iff, Draft.putMember_iff]
  constructor
  · rintro (⟨noField, rfl, skipped⟩ | ⟨f, content, named, -, rfl, found⟩)
    · have passed := Json.Agrees.afterColon Json.skipReader_agrees colon read distinct () left
      exact ⟨.inl ⟨noField, rfl⟩, (passed.mp skipped).2⟩
    · have same := Json.Agrees.afterColon f.agrees colon read distinct content left
      obtain ⟨valid, rfl⟩ := same.mp found
      exact ⟨.inr ⟨f, content, named, valid, rfl⟩, rfl⟩
  · rintro ⟨⟨noField, rfl⟩ | ⟨f, content, named, valid, rfl⟩, rfl⟩
    · have passed := Json.Agrees.afterColon Json.skipReader_agrees colon read distinct () left
      exact .inl ⟨noField, rfl, passed.mpr ⟨rfl, rfl⟩⟩
    · have same := Json.Agrees.afterColon f.agrees colon read distinct content left
      have new := unknown f (Field.ofName?_eq_some_iff.mp named)
      exact .inr ⟨f, content, named, new, rfl, same.mpr ⟨valid, rfl⟩⟩

/-- Members are read in the order of the text as they are put in that order. -/
theorem readMembers_agrees {first : Bool} {members : List (String × Json.Value)}
    (members_at : MembersAt (Json.valueReader depth) first text members rest)
    (keys : (members.map Prod.fst).Nodup) (distinct : ∀ member ∈ members, member.2.Distinct)
    (unknown : ∀ f : Field, f.name ∈ members.map Prod.fst → d f = none) (final : Draft)
    (left : List Char) :
    Json.readMembers memberReader first d text = .ok (final, left) ↔
      d.putMembers members = .ok final ∧ left = rest := by
  induction members_at generalizing d with
  | close next =>
    rw [Json.readMembers_of_close d next]
    simp [Draft.putMembers, eq_comm]
  | @member first text start behind between rest name value members key colon read more ih =>
    obtain ⟨here, later⟩ := List.forall_mem_cons.mp distinct
    obtain ⟨apart, keys⟩ := List.nodup_cons.mp keys
    have step := memberReader_agrees colon read here
      fun f named => unknown f (named ▸ List.mem_cons_self)
    -- no later member has this key, so what this one gives is not asked of them
    have unknown_after {next : Draft} (put : d.putMember name value = .ok next) :
        ∀ f : Field, f.name ∈ members.map Prod.fst → next f = none := by
      intro f member
      have other : f.name ≠ name := fun same => apart (same ▸ member)
      rw [Draft.putMember_of_ne put other]
      exact unknown f (List.mem_cons_of_mem _ member)
    rw [Json.readMembers_member_iff key, Draft.putMembers_cons_iff]
    constructor
    · rintro ⟨next, behind, found, inner⟩
      obtain ⟨put, rfl⟩ := (step next behind).mp found
      obtain ⟨made, rfl⟩ := (ih keys later (unknown_after put)).mp inner
      exact ⟨⟨next, put, made⟩, rfl⟩
    · rintro ⟨⟨next, put, made⟩, rfl⟩
      exact ⟨next, between, (step next between).mpr ⟨put, rfl⟩,
        (ih keys later (unknown_after put)).mpr ⟨made, rfl⟩⟩

end Objects

/-! ## Lists -/

section Lists

variable {depth : Nat} {d : Draft} {text rest : List Char}

theorem readListEnd_iff : readListEnd text = .ok rest ↔ Json.dropSpace text = ']' :: rest := by
  constructor
  · intro read
    unfold readListEnd at read
    split at read
    · cases read
    next start =>
      cases read
      exact start
    · split at read <;> cases read
    · cases read
  · intro start
    simp only [readListEnd, start]

/-- Elements are read for the fields in their order, and there are no more of them than fields. -/
theorem readElements_agrees {fields : List Field} {first : Bool} {items : List Json.Value}
    (read : Json.readElements (Json.valueReader depth) first text = .ok (items, rest))
    (distinct : ∀ item ∈ items, item.Distinct) (final : Draft) (left : List Char) :
    readElements fields first d text = .ok (final, left) ↔
      d.putElements fields items = .ok (final, []) ∧ left = rest := by
  fun_induction Json.readElements (Json.valueReader depth) first text
    generalizing d fields items rest with
  | case1 => cases read
  | case2 first text behind next =>
    cases read
    cases fields with
    | nil =>
      have ended := readListEnd_iff.mpr (Json.nextElement_close_iff.mp next)
      simp [readElements, Draft.putElements, ended, eq_comm]
    | cons f fields => simp [readElements, Draft.putElements, next, eq_comm]
  | case3 => cases read
  | case4 => cases read
  | case5 first text start next item between found _ _ items behind inner ih =>
    cases read
    obtain ⟨here, later⟩ := List.forall_mem_cons.mp distinct
    cases fields with
    | nil =>
      -- where an element stands, the list does not end
      have more (end_ : List Char) : readListEnd text ≠ .ok end_ := by
        intro ended
        have closed : Json.nextElement first text = .ok (.close end_) :=
          Json.nextElement_close_iff.mpr (readListEnd_iff.mp ended)
        rw [next] at closed
        cases closed
      cases ended : readListEnd text with
      | error e => simp [readElements, Draft.putElements, ended]
      | ok end_ => exact absurd ended (more end_)
    | cons f fields =>
      have agree := f.agrees found here
      simp only [readElements, Draft.putElements, next]
      cases made : f.ofValue item with
      | ok content =>
        rw [(agree content between).mpr ⟨made, rfl⟩]
        exact ih inner later
      | error p =>
        cases taken : f.reader.read start with
        | error e => simp
        | ok result =>
          obtain ⟨same, -⟩ := (agree result.1 result.2).mp taken
          rw [made] at same
          cases same

end Lists

namespace Record

variable {r : Record}

theorem ofValue_map_iff {members : List (String × Json.Value)} :
    ofValue (.map members) = .ok r ↔ ∃ draft,
      Draft.empty.putMembers (Json.settled members) = .ok draft ∧ draft.record? = some r := by
  simp only [ofValue]
  cases Draft.empty.putMembers (Json.settled members) with
  | error p => simp
  | ok draft =>
    simp only [Draft.record]
    cases made : draft.record? with
    | none => simp [made]
    | some other => simp [made]

theorem ofValue_sequence_iff {items : List Json.Value} :
    ofValue (.sequence items) = .ok r ↔ ∃ draft,
      Draft.empty.putElements Field.all items = .ok (draft, []) ∧ draft.record? = some r := by
  simp only [ofValue]
  cases Draft.empty.putElements Field.all items with
  | error p => simp
  | ok result =>
    obtain ⟨draft, left⟩ := result
    simp only [Draft.record]
    simp only [Except.ok.injEq, Prod.mk.injEq]
    cases made : draft.record? with
    | none =>
      constructor
      · intro same
        cases same
      · rintro ⟨_, ⟨rfl, -⟩, again⟩
        rw [made] at again
        cases again
    | some other =>
      dsimp only
      split
      next all =>
        constructor
        · intro same
          cases same
          exact ⟨draft, ⟨rfl, all⟩, made⟩
        · rintro ⟨_, ⟨rfl, -⟩, again⟩
          rw [made] at again
          rw [Option.some.inj again]
      next more =>
        constructor
        · intro same
          cases same
        · rintro ⟨_, ⟨-, all⟩, -⟩
          exact absurd all more

theorem reader_sequence_iff {text start rest : List Char}
    (shape : Json.readShape text = .ok (.sequence, start)) :
    reader.read text = .ok (r, rest) ↔ ∃ draft,
      readElements Field.all true .empty start = .ok (draft, rest) ∧ draft.record? = some r := by
  rw [reader_read_iff]
  simp only [readDraft, shape]
  cases readElements Field.all true Draft.empty start with
  | error e => simp
  | ok result =>
    obtain ⟨draft, left⟩ := result
    simp

theorem agrees : Agrees Record.reader Record.ofValue := by
  intro depth text rest value read distinct r left
  cases Json.valueAt_of_read read with
  | scalar shape => simp [reader_read_iff, readDraft, shape, ofValue]
  | sequence shape elements =>
    cases distinct with
    | sequence distinct =>
      simp only [reader_sequence_iff shape, ofValue_sequence_iff,
        readElements_agrees elements distinct]
      constructor
      · rintro ⟨draft, ⟨put, rfl⟩, made⟩
        exact ⟨⟨draft, put, made⟩, rfl⟩
      · rintro ⟨⟨draft, put, made⟩, rfl⟩
        exact ⟨draft, ⟨put, rfl⟩, made⟩
  | map shape members_at =>
    cases distinct with
    | map keys values =>
      have members := readMembers_agrees (d := .empty) members_at keys values fun _ _ => rfl
      simp only [reader_map_iff shape, ofValue_map_iff, Draft.putMembers_settled_iff keys, members]
      constructor
      · rintro ⟨draft, ⟨put, rfl⟩, made⟩
        exact ⟨⟨draft, put, made⟩, rfl⟩
      · rintro ⟨⟨draft, put, made⟩, rfl⟩
        exact ⟨draft, ⟨put, rfl⟩, made⟩

theorem read_of_tree {text : List Char} {value : Json.Value}
    (parsed : Json.Value.read text = .ok value) (distinct : value.Distinct) (r : Record) :
    read text = .ok r ↔ ofValue value = .ok r := by
  obtain ⟨rest, parsed, blank⟩ := Json.document_ok_iff.mp parsed
  have same := agrees parsed distinct r
  rw [read, Json.document_ok_iff]
  constructor
  · rintro ⟨left, found, -⟩
    exact ((same left).mp found).1
  · intro made
    exact ⟨rest, (same rest).mpr ⟨made, rfl⟩, blank⟩

/-- An object whose tree has a field twice gives no record. -/
theorem read_of_repeated_key {text : List Char} {members : List (String × Json.Value)}
    (parsed : Json.Value.read text = .ok (.map members)) {f : Field}
    (repeated : 2 ≤ (members.map Prod.fst).count f.name) (r : Record) : read text ≠ .ok r := by
  intro found
  obtain ⟨rest, parsed, -⟩ := Json.document_ok_iff.mp parsed
  obtain ⟨left, found, -⟩ := Json.document_ok_iff.mp found
  cases Json.valueAt_of_read parsed with
  | @map depth _ start _ _ shape members_at =>
    obtain ⟨draft, filled, -⟩ := (reader_map_iff shape).mp found
    obtain ⟨names, course, seen⟩ := Json.course_of_readMembers memberReader_passing filled []
    rw [members_at.names (Json.valueReader_passing depth) []] at seen
    simp only [Except.ok.injEq, Prod.mk.injEq, List.append_nil, List.reverse_inj] at seen
    have once := count_le_of_course course f
    rw [← seen.1] at once
    omega

theorem ofValue_lastMembers (members : List (String × Json.Value)) :
    ofValue (.map (Json.lastMembers members)) = ofValue (.map members) := by
  simp only [ofValue, Json.settled_lastMembers]

/-- A record is read from a text just if it is made from the tree of the text, and is the same, as long
as no object in the text repeats a key. An object that gives a field twice is never read, wherever the
two stand and whatever their values are, while of its tree the last member with each key is taken. -/
theorem read_agrees :
    (∀ {text : List Char} {value : Json.Value}, Json.Value.read text = .ok value →
      value.Distinct → ∀ r, read text = .ok r ↔ ofValue value = .ok r) ∧
    (∀ {text : List Char} {members : List (String × Json.Value)},
      Json.Value.read text = .ok (.map members) →
        ∀ f : Field, 2 ≤ (members.map Prod.fst).count f.name →
          (∀ r, read text ≠ .ok r) ∧
            ofValue (.map members) = ofValue (.map (Json.lastMembers members))) ∧
    ∀ {text : List Char} {pairs : List Json.Pair} {names : List String}, IsObject pairs text →
      Named pairs names → ∀ f : Field, 2 ≤ names.count f.name → ∀ r, read text ≠ .ok r := by
  refine ⟨read_of_tree, ?_, ?_⟩
  · intro text members parsed f repeated
    exact ⟨read_of_repeated_key parsed repeated, (ofValue_lastMembers members).symm⟩
  · intro text pairs names isObject named f repeated
    exact read_of_repeated isObject named repeated

/-- A status in its object form before the hash, and a hash that is given twice. -/
theorem read_agrees_spelled :
    (∃ r, read "\x7b\"status\":\x7b\"done\":null\x7d,\"hash\":\"a\"\x7d".toList = .ok r ∧
      r.status = .done) ∧
    ∃ members, Json.Value.read "\x7b\"hash\":\"a\",\"hash\":\"b\"\x7d".toList = .ok (.map members) ∧
      (∀ r, read "\x7b\"hash\":\"a\",\"hash\":\"b\"\x7d".toList ≠ .ok r) ∧
        ofValue (.map members) = .ok (new ⟨"b"⟩) := by
  constructor
  · have null : Reads (Json.valueReader 125) "null".toList (.scalar .null) :=
      Json.reads_scalar ⟨'n', _, rfl, rfl, by decide⟩ (fun _ _ => rfl) 125
    have named : Reads (Json.valueReader 126)
        (Json.objectText ([()].map fun _ => ("done", "null".toList)))
        (.map ([()].map fun _ => ("done", .scalar .null))) :=
      Json.reads_objectTree (fun _ => "done") fun _ _ => null
    have hash : Reads (Json.valueReader 126) (Json.quote "a".toList) (textTree "a") :=
      Json.reads_textTree 126 "a"
    let parts : List (String × List Char × Json.Value) :=
      [("status", "\x7b\"done\":null\x7d".toList, .map [("done", .scalar .null)]),
        ("hash", "\"a\"".toList, textTree "a")]
    have reads : Reads (Json.valueReader 127)
        (Json.objectText (parts.map fun part => (part.1, part.2.1)))
        (.map (parts.map fun part => (part.1, part.2.2))) := by
      refine Json.reads_objectTree Prod.fst ?_
      exact List.forall_mem_cons.mpr ⟨named, List.forall_mem_singleton.mpr hash⟩
    have distinct : Json.Value.Distinct (.map (parts.map fun part => (part.1, part.2.2))) :=
      .map (by decide) (List.forall_mem_cons.mpr ⟨.map (by decide)
        (List.forall_mem_singleton.mpr (.scalar .null)),
          List.forall_mem_singleton.mpr (.scalar _)⟩)
    exact ⟨{ hash := ⟨"a"⟩, status := .done },
      (read_agrees.1 reads.document distinct _).mpr rfl, rfl⟩
  · have reads : Reads (Json.valueReader 127)
        (Json.objectText (["a", "b"].map fun s => ("hash", Json.quote s.toList)))
        (.map (["a", "b"].map fun s => ("hash", textTree s))) :=
      Json.reads_objectTree (fun _ => "hash") fun s _ => Json.reads_textTree 126 s
    obtain ⟨refused, last⟩ := read_agrees.2.1 reads.document .hash (by decide)
    exact ⟨_, reads.document, refused, last.trans rfl⟩

end Record

end TransactionLookup
