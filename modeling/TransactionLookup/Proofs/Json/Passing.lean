import TransactionLookup.Proofs.Json.Grammar

/-!
# Values passed

One who skips a value keeps no more of it than the brackets that are open. When the value ends, all that
is open stands as it stood before, so that the value is passed and nothing else (`Passes`). This holds of
every value of the grammar, however deep, and of every value that a reader takes: both leave the same text
behind.
-/

namespace TransactionLookup.Json

variable {text rest : List Char}

/-- Goes on from where a skipper stands, up to the end of the value that it skips. -/
def proceed : Except Failure Progress → Except Failure (List Char)
  | .error e => .error e
  | .ok (.done left) => .ok left
  | .ok (.within stack left) => skipWithin stack left

theorem skipWithin_eq (stack : List Bracket) (text : List Char) :
    skipWithin stack text =
      match skipOpening text with
      | .error e => .error e
      | .ok (opening, rest) => proceed (skipOn opening stack rest) := by
  rw [skipWithin]
  split
  next start => simp only [start]
  next start =>
    simp only [start]
    split
    next goOn => rw [goOn, proceed]
    next goOn => rw [goOn, proceed]
    next goOn => rw [goOn, proceed]

/-- Whether a text has a value at its start, and what is left behind it. -/
def Passes (text rest : List Char) : Prop :=
  ∀ stack, skipWithin stack text = proceed (skipAfter stack rest)

theorem Passes.skip (passes : Passes text rest) : skipWithin [] text = .ok rest := passes []

/-- One value stands at the start of a text. -/
theorem Passes.unique {other : List Char} (passes : Passes text rest) (again : Passes text other) :
    rest = other :=
  Except.ok.inj (passes.skip.symm.trans again.skip)

/-! ## Space -/

theorem skipOpening_dropSpace (text : List Char) :
    skipOpening (dropSpace text) = skipOpening text := by
  rw [skipOpening, dropSpace_dropSpace, skipOpening]

theorem skipWithin_dropSpace (stack : List Bracket) (text : List Char) :
    skipWithin stack (dropSpace text) = skipWithin stack text := by
  rw [skipWithin_eq, skipOpening_dropSpace, ← skipWithin_eq]

theorem skipMember_dropSpace (bracket : Bracket) (stack : List Bracket) (text : List Char) :
    proceed (skipMember bracket stack (dropSpace text)) =
      proceed (skipMember bracket stack text) := by
  cases bracket with
  | list => exact skipWithin_dropSpace (.list :: stack) text
  | object => simp only [skipMember, skipKey, dropSpace_dropSpace]

theorem Passes.of_dropSpace (passes : Passes (dropSpace text) rest) : Passes text rest := by
  intro stack
  rw [← skipWithin_dropSpace, passes stack]

/-! ## Values of the grammar -/

theorem Spaced.passes_scalar {core : List Char} (spaced : Spaced core text)
    (isScalar : IsScalar core) (follows : Follows rest) :
    ∃ after, Blank after ∧ Passes (text ++ rest) (after ++ rest) := by
  obtain ⟨before, after, leading, trailing, rfl⟩ := spaced
  refine ⟨after, trailing, .of_dropSpace ?_⟩
  intro stack
  rw [List.append_assoc, leading.dropSpace_append, List.append_assoc,
    isScalar.opens.dropSpace_append, skipWithin_eq, isScalar.skip (trailing.follows follows)]
  rfl

/-- Whether a part of a container holds a value, so that the value's end is the part's. -/
def Holds (bracket : Bracket) (part : List Char) : Prop :=
  ∀ stack rest, Follows rest → ∃ after, Blank after ∧
    proceed (skipMember bracket stack (part ++ rest)) =
      proceed (skipAfter (bracket :: stack) (after ++ rest))

variable {bracket : Bracket} {parts : List (List Char)}

theorem follows_closing (bracket : Bracket) (rest : List Char) :
    Follows (bracket.closing :: rest) := by
  cases bracket with
  | list => exact .bracket rest
  | object => exact .brace rest

theorem Bracket.closing_not_space (bracket : Bracket) : isSpace bracket.closing = false := by
  cases bracket <;> rfl

theorem Bracket.closing_ne_comma (bracket : Bracket) : bracket.closing ≠ ',' := by
  cases bracket <;> decide

theorem skipAfter_closing (bracket : Bracket) (stack : List Bracket) {blank : List Char}
    (space : Blank blank) (rest : List Char) :
    skipAfter (bracket :: stack) (blank ++ bracket.closing :: rest) = skipAfter stack rest := by
  rw [skipAfter, space.dropSpace_append, dropSpace_of_not_space bracket.closing_not_space]
  dsimp only
  rw [if_neg bracket.closing_ne_comma, if_pos rfl]

theorem skipAfter_comma (bracket : Bracket) (stack : List Bracket) {blank : List Char}
    (space : Blank blank) (rest : List Char) :
    skipAfter (bracket :: stack) (blank ++ ',' :: rest) = skipMember bracket stack rest := by
  rw [skipAfter, space.dropSpace_append, dropSpace_of_not_space rfl]
  exact if_pos rfl

/-- The later parts of a container are passed up to the bracket that closes it. -/
theorem skipAfter_afterFirst (holds : ∀ part ∈ parts, Holds bracket part) (stack : List Bracket)
    {blank : List Char} (space : Blank blank) (rest : List Char) :
    proceed (skipAfter (bracket :: stack) (blank ++ (afterFirst parts ++ bracket.closing :: rest))) =
      proceed (skipAfter stack rest) := by
  induction parts generalizing blank with
  | nil => exact congrArg proceed (skipAfter_closing bracket stack space rest)
  | cons part parts ih =>
    obtain ⟨here, later⟩ := List.forall_mem_cons.mp holds
    obtain ⟨after, trailing, passed⟩ :=
      here stack _ (follows_afterFirst parts (follows_closing bracket rest))
    rw [afterFirst_cons_append, skipAfter_comma bracket stack space, passed]
    exact ih later trailing

theorem skipOpened_of_encloses {inner : List Char} (encloses : Encloses parts inner)
    (holds : ∀ part ∈ parts, Holds bracket part)
    (opens : ∀ part ∈ parts, ∀ rest, ∃ c tail,
      dropSpace (part ++ rest) = c :: tail ∧ c ≠ bracket.closing)
    (stack : List Bracket) (rest : List Char) :
    proceed (skipOpened bracket stack (inner ++ bracket.closing :: rest)) =
      proceed (skipAfter stack rest) := by
  have empty {blank : List Char} (space : Blank blank) :
      skipOpened bracket stack (blank ++ bracket.closing :: rest) = skipAfter stack rest := by
    rw [skipOpened, space.dropSpace_append, dropSpace_of_not_space bracket.closing_not_space]
    exact if_pos rfl
  rcases encloses with rfl | ⟨rfl, space⟩
  · cases parts with
    | nil => exact congrArg proceed (empty .nil)
    | cons part parts =>
      obtain ⟨here, later⟩ := List.forall_mem_cons.mp holds
      obtain ⟨after, trailing, passed⟩ :=
        here stack _ (follows_afterFirst parts (follows_closing bracket rest))
      rw [separated_cons_append]
      obtain ⟨c, tail, start, notClosing⟩ := opens part List.mem_cons_self
        (afterFirst parts ++ bracket.closing :: rest)
      rw [skipOpened, start]
      dsimp only
      rw [if_neg notClosing, ← start, skipMember_dropSpace, passed]
      exact skipAfter_afterFirst later stack trailing rest
  · exact congrArg proceed (empty space)

theorem Spaced.skipOpening {inner : List Char}
    (spaced : Spaced (bracket.opening :: (inner ++ [bracket.closing])) text) (rest : List Char) :
    ∃ after, Blank after ∧
      skipOpening (text ++ rest) =
        .ok (.bracket bracket, inner ++ bracket.closing :: (after ++ rest)) := by
  have visible : isSpace bracket.opening = false := by cases bracket <;> rfl
  obtain ⟨after, trailing, start⟩ := dropSpace_eq_cons_of_spaced spaced visible rest
  refine ⟨after, trailing, ?_⟩
  rw [List.append_assoc, List.singleton_append] at start
  rw [Json.skipOpening, start]
  cases bracket <;> rfl

theorem Spaced.skipKey {core key : List Char} (isQuoted : IsQuoted core) (spaced : Spaced core key)
    (rest : List Char) : skipKey .object (key ++ ':' :: rest) = .ok rest := by
  obtain ⟨cs, quotable, rfl⟩ := isQuoted
  obtain ⟨after, trailing, start⟩ := dropSpace_eq_cons_of_spaced spaced rfl (':' :: rest)
  rw [List.append_assoc, List.singleton_append] at start
  rw [Json.skipKey, start]
  simp only [quotable.skip]
  rw [readColon, trailing.dropSpace_append, dropSpace_of_not_space rfl]
  rfl

/-- A value of the grammar is passed, up to space behind it. -/
theorem WellFormed.passes (formed : WellFormed text) (follows : Follows rest) :
    ∃ after, Blank after ∧ Passes (text ++ rest) (after ++ rest) := by
  induction formed generalizing rest with
  | scalar isScalar spaced => exact spaced.passes_scalar isScalar follows
  | @list items text formed isList ih =>
    obtain ⟨inner, encloses, spaced⟩ := isList
    obtain ⟨after, trailing, opening⟩ := spaced.skipOpening rest
    refine ⟨after, trailing, fun stack => ?_⟩
    rw [skipWithin_eq, opening]
    refine skipOpened_of_encloses encloses ?_ ?_ stack (after ++ rest)
    · -- an element is passed with the bracket of the list below it
      intro item member stack rest follows
      obtain ⟨after, trailing, passes⟩ := ih item member follows
      exact ⟨after, trailing, passes (.list :: stack)⟩
    · intro item member rest
      obtain ⟨c, tail, start, -, notBracket⟩ := (formed item member).opens rest
      exact ⟨c, tail, start, notBracket⟩
  | @object pairs text quoted formed isObject ih =>
    obtain ⟨inner, encloses, spaced⟩ := isObject
    obtain ⟨after, trailing, opening⟩ := spaced.skipOpening rest
    refine ⟨after, trailing, fun stack => ?_⟩
    rw [skipWithin_eq, opening]
    refine skipOpened_of_encloses encloses ?_ ?_ stack (after ++ rest)
    · intro part member stack rest follows
      obtain ⟨pair, among, rfl⟩ := List.mem_map.mp member
      obtain ⟨core, isQuoted, around⟩ := quoted pair among
      obtain ⟨after, trailing, passes⟩ := ih pair among follows
      refine ⟨after, trailing, ?_⟩
      -- the key is gone before the value is looked at, and then it is as in a list
      rw [Pair.text, List.append_assoc, List.cons_append, skipMember, around.skipKey isQuoted]
      exact passes (.object :: stack)
    · intro part member rest
      obtain ⟨pair, among, rfl⟩ := List.mem_map.mp member
      obtain ⟨core, ⟨cs, -, rfl⟩, around⟩ := quoted pair among
      obtain ⟨after, -, start⟩ := dropSpace_eq_cons_of_spaced around rfl (':' :: pair.value ++ rest)
      rw [Pair.text, List.append_assoc, start]
      exact ⟨_, _, rfl, by decide⟩

end TransactionLookup.Json
