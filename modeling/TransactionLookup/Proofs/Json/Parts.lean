import TransactionLookup.Json.Value

/-!
# The parts of containers

Where the next part of a list or an object stands, when there is none, and what is read from a part and
from those after it.
-/

namespace TransactionLookup.Json

variable {first : Bool} {text rest start : List Char}

/-- Where the next part of a container stands: the first at once, a later one behind a comma. -/
inductive PartAt : Bool → List Char → List Char → Prop
  | first (text : List Char) : PartAt true text text
  | later {text part : List Char} (comma : dropSpace text = ',' :: part) : PartAt false text part

theorem nextElement_close_iff :
    nextElement first text = .ok (.close rest) ↔ dropSpace text = ']' :: rest := by
  constructor
  · intro next
    unfold nextElement at next
    split at next
    · cases next
    next found =>
      cases next
      exact found
    · split at next
      · cases next
      · split at next
        · split at next <;> cases next
        · cases next
  · intro found
    rw [nextElement, found]
    rfl

theorem nextElement_member_iff :
    nextElement first text = .ok (.member () start) ↔
      ∃ part c tail, PartAt first text part ∧ dropSpace part = c :: tail ∧ c ≠ ']' ∧
        start = c :: tail := by
  constructor
  · intro next
    unfold nextElement at next
    split at next
    · cases next
    · cases next
    next c tail notBracket found =>
      split at next
      next isFirst =>
        cases next
        rw [isFirst]
        exact ⟨text, c, tail, .first text, found, notBracket, rfl⟩
      next later =>
        split at next
        next comma =>
          subst comma
          rw [eq_false_of_ne_true later]
          split at next
          · cases next
          · cases next
          next notEnd notClose =>
            cases next
            cases behind : dropSpace tail with
            | nil => exact absurd behind notEnd
            | cons d left =>
              refine ⟨tail, d, left, .later found, behind, ?_, rfl⟩
              rintro rfl
              exact notClose left behind
        · cases next
  · rintro ⟨part, c, tail, at_, found, notBracket, rfl⟩
    cases at_ with
    | first =>
      rw [nextElement, found]
      split
      next same => cases same
      next same => exact absurd (List.cons.inj same).1 notBracket
      next same => rw [if_pos rfl, same]
    | later comma =>
      rw [nextElement, comma]
      split
      next same => cases same
      next same => exact absurd (List.cons.inj same).1 (by decide)
      next same =>
        obtain ⟨rfl, rfl⟩ := List.cons.inj same
        rw [if_neg Bool.false_ne_true, if_pos rfl, found]
        split
        next same => cases same
        next same => exact absurd (List.cons.inj same).1 notBracket
        · rfl

theorem nextKey_close_iff :
    nextKey first text = .ok (.close rest) ↔ dropSpace text = '\x7d' :: rest := by
  constructor
  · intro next
    unfold nextKey at next
    split at next
    · cases next
    next found =>
      cases next
      exact found
    · split at next
      · exact absurd next readKey_ne_close
      · split at next
        · split at next
          · cases next
          · cases next
          · exact absurd next readKey_ne_close
        · cases next
  · intro found
    rw [nextKey, found]
    rfl

theorem readKey_member_iff {name : String} :
    readKey text = .ok (.member name start) ↔
      ∃ tail cs, text = '"' :: tail ∧ readQuoted tail = .ok (cs, start) ∧
        name = String.ofList cs := by
  constructor
  · intro key
    unfold readKey at key
    split at key
    · split at key
      · cases key
      next found =>
        simp only [Except.ok.injEq, Next.member.injEq] at key
        obtain ⟨rfl, rfl⟩ := key
        exact ⟨_, _, rfl, found, rfl⟩
    · cases key
  · rintro ⟨tail, cs, rfl, found, rfl⟩
    simp only [readKey, found]

theorem nextKey_member_iff {name : String} :
    nextKey first text = .ok (.member name start) ↔
      ∃ part tail cs, PartAt first text part ∧ dropSpace part = '"' :: tail ∧
        readQuoted tail = .ok (cs, start) ∧ name = String.ofList cs := by
  constructor
  · intro next
    unfold nextKey at next
    split at next
    · cases next
    · cases next
    next c tail notBrace found =>
      split at next
      next isFirst =>
        obtain ⟨tail, cs, same, read, named⟩ := readKey_member_iff.mp next
        rw [isFirst]
        exact ⟨text, tail, cs, .first text, found.trans same, read, named⟩
      next later =>
        split at next
        next comma =>
          subst comma
          rw [eq_false_of_ne_true later]
          split at next
          · cases next
          · cases next
          · obtain ⟨inner, cs, same, read, named⟩ := readKey_member_iff.mp next
            exact ⟨tail, inner, cs, .later found, same, read, named⟩
        · cases next
  · rintro ⟨part, tail, cs, at_, found, read, named⟩
    have key := readKey_member_iff.mpr ⟨tail, cs, rfl, read, named⟩
    cases at_ with
    | first =>
      rw [nextKey, found]
      exact key
    | later comma =>
      rw [nextKey, comma]
      split
      next same => cases same
      next same => exact absurd (List.cons.inj same).1 (by decide)
      next same =>
        obtain ⟨rfl, rfl⟩ := List.cons.inj same
        rw [if_neg Bool.false_ne_true, if_pos rfl, found]
        exact key

theorem readColon_iff : readColon text = .ok rest ↔ dropSpace text = ':' :: rest := by
  constructor
  · intro colon
    unfold readColon at colon
    split at colon
    · cases colon
    next found =>
      cases colon
      exact found
    · cases colon
  · intro found
    rw [readColon, found]
    rfl

/-! ## Shapes -/

theorem readShape_text_iff {s : String} :
    readShape text = .ok (.scalar (.text s), rest) ↔
      ∃ tail cs, dropSpace text = '"' :: tail ∧ readQuoted tail = .ok (cs, rest) ∧
        s = String.ofList cs := by
  constructor
  · intro read
    have named {scalar : Scalar} {word tail : List Char} (other : ∀ s, scalar ≠ .text s) :
        readNamed scalar word tail ≠ .ok (.scalar (.text s), rest) := by
      unfold readNamed
      split
      · simp
      · simpa using fun same => absurd same (other s)
    unfold readShape at read
    split at read
    · cases read
    · exact absurd read (named (by simp))
    · exact absurd read (named (by simp))
    · exact absurd read (named (by simp))
    next start =>
      split at read
      · cases read
      next found =>
        cases read
        exact ⟨_, _, start, found, rfl⟩
    · cases read
    · cases read
    · split at read
      · split at read
        · cases read
        · cases read
      · cases read
  · rintro ⟨tail, cs, start, found, rfl⟩
    simp only [readShape, start, found]

theorem readShape_map_iff : readShape text = .ok (.map, rest) ↔ dropSpace text = '\x7b' :: rest := by
  constructor
  · intro read
    have named {scalar : Scalar} {word tail : List Char} :
        readNamed scalar word tail ≠ .ok (.map, rest) := by
      unfold readNamed
      split
      · simp
      · simp
    unfold readShape at read
    split at read
    · cases read
    · exact absurd read named
    · exact absurd read named
    · exact absurd read named
    · split at read
      · cases read
      · cases read
    · cases read
    next start =>
      cases read
      exact start
    · split at read
      · split at read
        · cases read
        · cases read
      · cases read
  · intro start
    simp only [readShape, start]

/-! ## What is read from parts -/

section Readers

variable {α β σ : Type} {left : List Char}

theorem Reader.map_read_iff {reader : Reader α} {f : α → β} {b : β} :
    (reader.map f).read text = .ok (b, rest) ↔
      ∃ a, reader.read text = .ok (a, rest) ∧ b = f a := by
  simp only [Reader.map]
  split
  next failed => simp [failed]
  next a between found =>
    simp only [found, Except.ok.injEq, Prod.mk.injEq]
    constructor
    · rintro ⟨rfl, rfl⟩
      exact ⟨a, ⟨rfl, rfl⟩, rfl⟩
    · rintro ⟨_, ⟨rfl, rfl⟩, rfl⟩
      exact ⟨rfl, rfl⟩

/-- What a leaf is read from is a scalar that it makes sense of. -/
theorem Leaf.reader_read_iff {leaf : Leaf α} {a : α} : leaf.reader.read text = .ok (a, rest) ↔
    ∃ s, readShape text = .ok (.scalar s, rest) ∧ leaf.interpret s = .ok a := by
  simp only [Leaf.reader]
  split
  next failed => simp [failed]
  next shape between found =>
    cases shape with
    | sequence => simp [Leaf.ofShape, found]
    | map => simp [Leaf.ofShape, found]
    | scalar s =>
      simp only [Leaf.ofShape, found]
      cases meant : leaf.interpret s with
      | error problem =>
        simp only [reduceCtorEq, false_iff]
        rintro ⟨_, same, again⟩
        cases same
        rw [meant] at again
        cases again
      | ok b =>
        constructor
        · intro same
          cases same
          exact ⟨s, rfl, meant⟩
        · rintro ⟨_, same, again⟩
          cases same
          rw [meant] at again
          cases again
          rfl

theorem afterColon_read_iff {reader : Reader α} {a : α} :
    (afterColon reader).read text = .ok (a, rest) ↔
      ∃ behind, readColon text = .ok behind ∧ reader.read behind = .ok (a, rest) := by
  simp only [afterColon]
  split
  next failed => simp [failed]
  next colon => simp [colon]

theorem readElements_of_close {item : Reader α} (next : nextElement first text = .ok (.close rest)) :
    readElements item first text = .ok ([], rest) := by
  rw [readElements]
  split
  next failed => rw [next] at failed; cases failed
  next closed => rw [next] at closed; cases closed; rfl
  next found => rw [next] at found; cases found

theorem readElements_member_iff {item : Reader α} {as : List α}
    (next : nextElement first text = .ok (.member () start)) :
    readElements item first text = .ok (as, left) ↔ ∃ a between more,
      item.read start = .ok (a, between) ∧ readElements item false between = .ok (more, left) ∧
        as = a :: more := by
  rw [readElements]
  split
  next failed => rw [next] at failed; cases failed
  next closed => rw [next] at closed; cases closed
  next found =>
    rw [next] at found
    cases found
    split
    next failed => simp [failed]
    next read =>
      simp only [read, Except.ok.injEq, Prod.mk.injEq]
      split
      next failed =>
        constructor
        · rintro ⟨⟩
        · rintro ⟨_, _, _, ⟨rfl, rfl⟩, inner, -⟩
          rw [failed] at inner
          cases inner
      next inner =>
        constructor
        · intro same
          cases same
          exact ⟨_, _, _, ⟨rfl, rfl⟩, inner, rfl⟩
        · rintro ⟨_, _, _, ⟨rfl, rfl⟩, again, rfl⟩
          rw [inner] at again
          cases again
          rfl

theorem readMembers_of_close {step : String → σ → Reader σ} (state : σ)
    (next : nextKey first text = .ok (.close rest)) :
    readMembers step first state text = .ok (state, rest) := by
  rw [readMembers]
  split
  next failed => rw [next] at failed; cases failed
  next closed => rw [next] at closed; cases closed; rfl
  next found => rw [next] at found; cases found

theorem readMembers_member_iff {step : String → σ → Reader σ} {state final : σ} {name : String}
    (key : nextKey first text = .ok (.member name start)) :
    readMembers step first state text = .ok (final, left) ↔ ∃ next between,
      (step name state).read start = .ok (next, between) ∧
        readMembers step false next between = .ok (final, left) := by
  rw [readMembers]
  split
  next failed => rw [key] at failed; cases failed
  next closed => rw [key] at closed; cases closed
  next found =>
    rw [key] at found
    cases found
    split
    next failed => simp [failed]
    next read =>
      simp only [read, Except.ok.injEq, Prod.mk.injEq]
      constructor
      · intro more
        exact ⟨_, _, ⟨rfl, rfl⟩, more⟩
      · rintro ⟨_, _, ⟨rfl, rfl⟩, more⟩
        exact more

end Readers

end TransactionLookup.Json
