import TransactionLookup.Proofs.Json.Extent

/-!
# Readers and trees

A value can be taken from its text at once, or from the tree that is read from the text first. The two
ways agree (`Agrees`) for plain values and for lists of values for which they agree, as long as no object
repeats a key.
-/

namespace TransactionLookup.Json

variable {α β : Type} {text rest : List Char}

/-- Whether no object within a value repeats a key. -/
inductive Value.Distinct : Value → Prop
  | scalar (s : Scalar) : Distinct (.scalar s)
  | sequence {items : List Value} (items_distinct : ∀ item ∈ items, Distinct item) :
      Distinct (.sequence items)
  | map {members : List (String × Value)} (keys : (members.map Prod.fst).Nodup)
      (values : ∀ member ∈ members, Distinct member.2) : Distinct (.map members)

/-! ## What a tree was read from -/

/-- Members of an object up to its end, each read for a tree. -/
inductive MembersAt (inner : Reader Value) :
    Bool → List Char → List (String × Value) → List Char → Prop
  | close {first : Bool} {text rest : List Char} (next : nextKey first text = .ok (.close rest)) :
      MembersAt inner first text [] rest
  | member {first : Bool} {text start behind between rest : List Char} {name : String}
      {value : Value} {members : List (String × Value)}
      (key : nextKey first text = .ok (.member name start)) (colon : readColon start = .ok behind)
      (read : inner.read behind = .ok (value, between))
      (more : MembersAt inner false between members rest) :
      MembersAt inner first text ((name, value) :: members) rest

/-- A value at the start of a text. -/
inductive ValueAt : List Char → Value → List Char → Prop
  | scalar {text rest : List Char} {s : Scalar} (shape : readShape text = .ok (.scalar s, rest)) :
      ValueAt text (.scalar s) rest
  | sequence {depth : Nat} {text start rest : List Char} {items : List Value}
      (shape : readShape text = .ok (.sequence, start))
      (elements : readElements (valueReader depth) true start = .ok (items, rest)) :
      ValueAt text (.sequence items) rest
  | map {depth : Nat} {text start rest : List Char} {members : List (String × Value)}
      (shape : readShape text = .ok (.map, start))
      (members_at : MembersAt (valueReader depth) true start members rest) :
      ValueAt text (.map members) rest

theorem membersAt_of_read {inner : Reader Value} {first : Bool}
    {earlier final : List (String × Value)}
    (read : readMembers (memberReader inner) first earlier text = .ok (final, rest)) :
    ∃ members, final = members.reverse ++ earlier ∧ MembersAt inner first text members rest := by
  fun_induction readMembers (memberReader inner) first earlier text with
  | case1 => cases read
  | case2 _ _ _ _ next =>
    cases read
    exact ⟨[], rfl, .close next⟩
  | case3 => cases read
  | case4 first earlier text name start next later between found _ _ ih =>
    obtain ⟨members, rfl, more⟩ := ih read
    obtain ⟨value, taken, rfl⟩ := Reader.map_read_iff.mp found
    obtain ⟨behind, colon, inside⟩ := afterColon_read_iff.mp taken
    refine ⟨(name, value) :: members, ?_, .member next colon inside more⟩
    rw [List.reverse_cons, List.append_assoc]
    rfl

theorem valueAt_of_read {depth : Nat} {value : Value}
    (read : (valueReader depth).read text = .ok (value, rest)) : ValueAt text value rest := by
  cases depth with
  | zero =>
    simp only [valueReader, scalarReader] at read
    split at read
    · cases read
    next found =>
      cases read
      exact .scalar found
    · cases read
  | succ depth =>
    simp only [valueReader, nestedReader] at read
    split at read
    · cases read
    next shape start found =>
      unfold readMembersOf at read
      split at read
      · cases read
        exact .scalar found
      · split at read
        · cases read
        next elements =>
          cases read
          exact .sequence found elements
      · split at read
        · cases read
        next members =>
          cases read
          obtain ⟨members, rfl, members_at⟩ := membersAt_of_read members
          rw [List.append_nil, List.reverse_reverse]
          exact .map found members_at

/-- The keys of a tree are the names that one sees who skips the members. -/
theorem MembersAt.names {inner : Reader Value} (passing : inner.Passing) {first : Bool}
    {members : List (String × Value)} (members_at : MembersAt inner first text members rest)
    (earlier : List String) :
    readMembers nameReader first earlier text =
      .ok ((members.map Prod.fst).reverse ++ earlier, rest) := by
  induction members_at generalizing earlier with
  | close next => exact readMembers_of_close earlier next
  | @member first text start behind between rest name value members key colon read more ih =>
    rw [List.map_cons, List.reverse_cons, List.append_assoc]
    exact readMembers_member key (nameReader_read colon (passing read) name earlier) (ih _)

/-! ## Agreement -/

/-- Whether a reader makes of each text what is made of the value that the text holds. -/
def Agrees (reader : Reader α) (ofValue : Value → Except Problem α) : Prop :=
  ∀ {depth : Nat} {text rest : List Char} {value : Value},
    (valueReader depth).read text = .ok (value, rest) → value.Distinct → ∀ a left,
      reader.read text = .ok (a, left) ↔ ofValue value = .ok a ∧ left = rest

theorem Leaf.agrees (leaf : Leaf α) : Agrees leaf.reader leaf.ofValue := by
  intro depth text rest value read _ a left
  cases valueAt_of_read read with
  | @scalar _ _ s shape =>
    simp only [Leaf.reader, Leaf.ofValue, Value.shape, shape]
    split
    next failed => simp [failed]
    next meant =>
      simp only [meant, Except.ok.injEq, Prod.mk.injEq]
      exact and_congr_right fun _ => eq_comm
  | sequence shape => simp [Leaf.reader, Leaf.ofValue, Value.shape, shape, Leaf.ofShape]
  | map shape => simp [Leaf.reader, Leaf.ofValue, Value.shape, shape, Leaf.ofShape]

theorem map_eq_ok_iff {ε : Type} {result : Except ε α} {f : α → β} {b : β} :
    result.map f = .ok b ↔ ∃ a, result = .ok a ∧ b = f a := by
  cases result <;> simp [Except.map, eq_comm]

theorem Agrees.map {reader : Reader α} {ofValue : Value → Except Problem α}
    (agrees : Agrees reader ofValue) (f : α → β) :
    Agrees (reader.map f) fun value => (ofValue value).map f := by
  intro depth text rest value read distinct b left
  rw [Reader.map_read_iff, map_eq_ok_iff]
  constructor
  · rintro ⟨a, found, rfl⟩
    obtain ⟨same, rfl⟩ := (agrees read distinct a left).mp found
    exact ⟨⟨a, same, rfl⟩, rfl⟩
  · rintro ⟨⟨a, same, rfl⟩, rfl⟩
    exact ⟨a, (agrees read distinct a left).mpr ⟨same, rfl⟩, rfl⟩

theorem Agrees.afterColon {reader : Reader α} {ofValue : Value → Except Problem α}
    (agrees : Agrees reader ofValue) {depth : Nat} {start behind between : List Char} {value : Value}
    (colon : readColon start = .ok behind)
    (read : (valueReader depth).read behind = .ok (value, between)) (distinct : value.Distinct)
    (a : α) (left : List Char) :
    (afterColon reader).read start = .ok (a, left) ↔ ofValue value = .ok a ∧ left = between := by
  rw [afterColon_read_iff, ← agrees read distinct a left, colon]
  simp

theorem mapM_cons_eq_ok_iff {ε : Type} {f : α → Except ε β} {a : α} {as : List α} {bs : List β} :
    (a :: as).mapM f = .ok bs ↔ ∃ b more, f a = .ok b ∧ as.mapM f = .ok more ∧ bs = b :: more := by
  rw [List.mapM_cons]
  cases f a with
  | error e => simp [bind, Except.bind]
  | ok b => cases as.mapM f <;> simp [bind, Except.bind, pure, Except.pure, eq_comm]

theorem readElements_agrees {item : Reader α} {ofValue : Value → Except Problem α}
    (agrees : Agrees item ofValue) {depth : Nat} {first : Bool} {values : List Value}
    (read : readElements (valueReader depth) first text = .ok (values, rest))
    (distinct : ∀ value ∈ values, value.Distinct) (as : List α) (left : List Char) :
    readElements item first text = .ok (as, left) ↔ values.mapM ofValue = .ok as ∧ left = rest := by
  fun_induction readElements (valueReader depth) first text generalizing values rest as with
  | case1 => cases read
  | case2 first text end_ next =>
    cases read
    rw [readElements_of_close next]
    simp [pure, Except.pure, eq_comm]
  | case3 => cases read
  | case4 => cases read
  | case5 first text start next value between found _ _ values end_ inner ih =>
    cases read
    obtain ⟨here, later⟩ := List.forall_mem_cons.mp distinct
    rw [readElements_member_iff next, mapM_cons_eq_ok_iff]
    constructor
    · rintro ⟨a, behind, more, taken, others, rfl⟩
      obtain ⟨same, rfl⟩ := (agrees found here a behind).mp taken
      obtain ⟨rest_same, ended⟩ := (ih inner later more).mp others
      exact ⟨⟨a, more, same, rest_same, rfl⟩, ended⟩
    · rintro ⟨⟨a, more, same, rest_same, rfl⟩, ended⟩
      exact ⟨a, between, more, (agrees found here a between).mpr ⟨same, rfl⟩,
        (ih inner later more).mpr ⟨rest_same, ended⟩, rfl⟩

theorem listReader_agrees {item : Reader α} {ofValue : Value → Except Problem α}
    {ofList : Value → Except Problem (List α)} (agrees : Agrees item ofValue)
    (sequence : ∀ items, ofList (.sequence items) = items.mapM ofValue)
    (others : ∀ value as, ofList value = .ok as → value.shape = .sequence) :
    Agrees (listReader item) ofList := by
  intro depth text rest value read distinct as left
  have refused (other : value.shape ≠ .sequence) : ofList value ≠ .ok as :=
    fun made => other (others value as made)
  cases valueAt_of_read read with
  | scalar shape =>
    have none := refused (by simp [Value.shape])
    simp [listReader, shape, none]
  | map shape =>
    have none := refused (by simp [Value.shape])
    simp [listReader, shape, none]
  | sequence shape elements =>
    cases distinct with
    | sequence distinct =>
      simp only [listReader, shape, sequence]
      exact readElements_agrees agrees elements distinct as left

/-- A value that is skipped is of no matter. -/
theorem skipReader_agrees : Agrees skipReader fun _ => .ok () := by
  intro depth text rest value read _ a left
  have skip := (valueReader_passing depth read).skip
  simp [skipReader, skip, eq_comm]

end TransactionLookup.Json
