import TransactionLookup.Json.Value
import TransactionLookup.Proofs.Json.Parts
import TransactionLookup.Proofs.Json.Passing

/-!
# The extent of what is read

A reader leaves what one who skips the value leaves, whatever it makes of the value. So two readers
that both take a value agree about where it ends, and two that both take an object agree about the names
of its members.
-/

namespace TransactionLookup.Json

variable {text rest : List Char}

/-! ## Plain values -/

theorem skipEscape_of_readUnit {n : Nat} (read : readUnit text = .ok (n, rest)) :
    skipEscape ('u' :: text) = .ok rest := by
  simp only [skipEscape, if_pos, read]

/-- An escape that is read is passed, in two steps if it is a pair of surrogates. -/
theorem skipQuoted_of_readEscape {c : Char} (read : readEscape text = .ok (c, rest)) :
    skipQuoted ('\\' :: text) = skipQuoted rest := by
  obtain ⟨tail, rfl, numbered⟩ | ⟨letter, other, rfl, meant⟩ := readEscape_iff.mp read
  · obtain ⟨n, between, first, -, ⟨-, -, rfl⟩ | ⟨-, low, after, rfl, second, -⟩⟩ :=
      readNumbered_iff.mp numbered
    · exact skipQuoted_of_escape (skipEscape_of_readUnit first)
    · exact (skipQuoted_of_escape (skipEscape_of_readUnit first)).trans
        (skipQuoted_of_escape (skipEscape_of_readUnit second))
  · exact skipQuoted_of_escape (by simp only [skipEscape, if_neg other, meant])

theorem skipQuoted_of_readQuoted {cs : List Char} (read : readQuoted text = .ok (cs, rest)) :
    skipQuoted text = .ok rest := by
  fun_induction readQuoted text generalizing cs rest with
  | case1 => cases read
  | case2 tail =>
    cases read
    rw [skipQuoted]
  | case3 => cases read
  | case4 => cases read
  | case5 tail c rest' found _ _ _ inner ih =>
    cases read
    exact (skipQuoted_of_readEscape found).trans (ih inner)
  | case6 => cases read
  | case7 => cases read
  | case8 c tail notQuote notBackslash visible _ _ inner ih =>
    cases read
    exact (skipQuoted_of_plain notQuote notBackslash (Nat.not_lt.mp visible) tail).trans (ih inner)

section Numbers

variable {atEnd : Problem} (other : Problem)

theorem readDigits_whatever {ds : List Char} (read : readDigits atEnd text = .ok (ds, rest)) :
    readDigits other text = .ok (ds, rest) := by
  cases text with
  | nil => cases read
  | cons c text => exact read

theorem readWhole_whatever {ds : List Char} (read : readWhole atEnd text = .ok (ds, rest)) :
    readWhole other text = .ok (ds, rest) := by
  unfold readWhole at read ⊢
  split at read
  · exact read
  · exact readDigits_whatever other read

theorem readFraction_whatever {ds : Option (List Char)}
    (read : readFraction atEnd text = .ok (ds, rest)) :
    readFraction other text = .ok (ds, rest) := by
  unfold readFraction at read ⊢
  split at read
  · split at read
    · cases read
    next found =>
      rw [readDigits_whatever other found]
      exact read
  · exact read

theorem readExponent_whatever {e : Option (Bool × List Char)}
    (read : readExponent atEnd text = .ok (e, rest)) :
    readExponent other text = .ok (e, rest) := by
  unfold readExponent at read ⊢
  split at read
  · split at read
    next marked =>
      rw [if_pos marked]
      split at read
      · cases read
      next found =>
        rw [readDigits_whatever other found]
        exact read
    next unmarked =>
      rw [if_neg unmarked]
      exact read
  · exact read

theorem readUnsigned_whatever {negative : Bool} {n : Numeral}
    (read : readUnsigned atEnd negative text = .ok (n, rest)) :
    readUnsigned other negative text = .ok (n, rest) := by
  unfold readUnsigned at read ⊢
  split at read
  · cases read
  next whole =>
    split at read
    · cases read
    next fraction =>
      split at read
      · cases read
      next exponent =>
        simp only [readWhole_whatever other whole, readFraction_whatever other fraction,
          readExponent_whatever other exponent]
        exact read

/-- The problem that a text has if it ends within a numeral is no matter when it does not. -/
theorem Numeral.read_whatever {n : Numeral} (read : Numeral.read atEnd text = .ok (n, rest)) :
    Numeral.read other text = .ok (n, rest) := by
  unfold Numeral.read at read ⊢
  split at read
  · exact readUnsigned_whatever other read
  · exact readUnsigned_whatever other read

end Numbers

def Shape.opening : Shape → Opening
  | .scalar _ => .scalar
  | .sequence => .bracket .list
  | .map => .bracket .object

theorem skipOpening_of_readShape {shape : Shape} (read : readShape text = .ok (shape, rest)) :
    skipOpening text = .ok (shape.opening, rest) := by
  have word {scalar : Scalar} {word tail : List Char}
      (found : readNamed scalar word tail = .ok (shape, rest)) :
      skipWord word tail = .ok (shape.opening, rest) := by
    unfold readNamed at found
    split at found
    · cases found
    next passed =>
      cases found
      rw [skipWord, passed]
      rfl
  unfold readShape at read
  split at read
  · cases read
  next start =>
    rw [skipOpening, start]
    exact word read
  next start =>
    rw [skipOpening, start]
    exact word read
  next start =>
    rw [skipOpening, start]
    exact word read
  next start =>
    split at read
    · cases read
    next found =>
      cases read
      simp only [skipOpening, start, skipQuoted_of_readQuoted found]
      rfl
  next start =>
    cases read
    rw [skipOpening, start]
    rfl
  next start =>
    cases read
    rw [skipOpening, start]
    rfl
  next start =>
    split at read
    next numeral =>
      split at read
      · cases read
      next found =>
        cases read
        unfold Number.read at found
        split at found
        · cases found
        next written =>
          split at found
          · cases found
            rw [skipOpening_of_numeral start numeral,
              Numeral.read_whatever .invalidNumber written]
            rfl
          · cases found
    · cases read

/-! ## Readers -/

variable {α β σ : Type}

/-- Whether a reader leaves what stands behind the value that it takes. -/
def Reader.Passing (reader : Reader α) : Prop :=
  ∀ {text rest : List Char} {a : α}, reader.read text = .ok (a, rest) → Passes text rest

theorem passes_of_scalar {s : Scalar} (read : readShape text = .ok (.scalar s, rest)) :
    Passes text rest := by
  intro stack
  rw [skipWithin_eq, skipOpening_of_readShape read]
  rfl

theorem Leaf.passing (leaf : Leaf α) : leaf.reader.Passing := by
  intro text rest a read
  obtain ⟨s, shape, -⟩ := Leaf.reader_read_iff.mp read
  exact passes_of_scalar shape

theorem Reader.Passing.map {reader : Reader α} (passing : reader.Passing) (f : α → β) :
    (reader.map f).Passing := by
  intro text rest b read
  obtain ⟨a, read, -⟩ := Reader.map_read_iff.mp read
  exact passing read

/-! ## Skipped values -/

/-- Where a skipper stands when more brackets are open around the value than it knew. -/
def Progress.onTop (below : List Bracket) : Progress → Except Failure Progress
  | .done rest => skipAfter below rest
  | .within stack rest => .ok (.within (stack ++ below) rest)

section Deeper

variable {stack : List Bracket} {progress : Progress} (below : List Bracket)

theorem skipMember_append {bracket : Bracket}
    (skip : skipMember bracket stack text = .ok progress) :
    skipMember bracket (stack ++ below) text = progress.onTop below := by
  unfold skipMember at skip ⊢
  split at skip
  · cases skip
  next key =>
    cases skip
    rfl

theorem skipAfter_append (skip : skipAfter stack text = .ok progress) :
    skipAfter (stack ++ below) text = progress.onTop below := by
  induction stack generalizing text with
  | nil =>
    cases skip
    rfl
  | cons bracket stack ih =>
    rw [skipAfter] at skip
    rw [List.cons_append, skipAfter]
    split at skip
    · cases skip
    next start =>
      split at skip
      next comma =>
        rw [if_pos comma]
        exact skipMember_append below skip
      next other =>
        rw [if_neg other]
        split at skip
        next closing =>
          rw [if_pos closing]
          exact ih skip
        · cases skip

theorem skipOn_append {opening : Opening} (skip : skipOn opening stack text = .ok progress) :
    skipOn opening (stack ++ below) text = progress.onTop below := by
  cases opening with
  | scalar => exact skipAfter_append below skip
  | bracket b =>
    rw [skipOn, skipOpened] at skip ⊢
    split at skip
    · cases skip
    next start =>
      split at skip
      next closing =>
        rw [if_pos closing]
        exact skipAfter_append below skip
      next other =>
        rw [if_neg other]
        exact skipMember_append below skip

/-- Brackets below the stack of a skipper are left alone until its own are closed. -/
theorem skipWithin_append (skip : skipWithin stack text = .ok rest) :
    skipWithin (stack ++ below) text = proceed (skipAfter below rest) := by
  fun_induction skipWithin stack text with
  | case1 => cases skip
  | case2 => cases skip
  | case3 stack text opening between start left goOn =>
    cases skip
    rw [skipWithin_eq, start]
    exact congrArg proceed (skipOn_append below goOn)
  | case4 stack text opening between start inner left goOn _ _ ih =>
    -- the value is not at its end, so the brackets below are still those of `ih`
    rw [skipWithin_eq, start]
    exact (congrArg proceed (skipOn_append below goOn)).trans (ih skip)

end Deeper

theorem skipReader_passing : skipReader.Passing := by
  intro text rest _ read below
  simp only [skipReader] at read
  split at read
  · cases read
  next skip =>
    cases read
    exact skipWithin_append below skip

/-! ## Containers -/

/-- Goes on inside a bracket: after it, or after a part that is not the first. -/
def skipInside (first : Bool) (bracket : Bracket) (stack : List Bracket) (text : List Char) :
    Except Failure Progress :=
  if first then skipOpened bracket stack text else skipAfter (bracket :: stack) text

theorem skipInside_of_close {first : Bool} {bracket : Bracket}
    (start : dropSpace text = bracket.closing :: rest) (stack : List Bracket) :
    skipInside first bracket stack text = skipAfter stack rest := by
  cases first with
  | true =>
    rw [skipInside, if_pos rfl, skipOpened, start]
    exact if_pos rfl
  | false =>
    rw [skipInside, if_neg Bool.false_ne_true, skipAfter, start]
    dsimp only
    rw [if_neg bracket.closing_ne_comma, if_pos rfl]

/-- The first part follows the bracket. -/
theorem skipInside_first {bracket : Bracket} {c : Char} (start : dropSpace text = c :: rest)
    (notClosing : c ≠ bracket.closing) (stack : List Bracket) :
    proceed (skipInside true bracket stack text) = proceed (skipMember bracket stack text) := by
  rw [skipInside, if_pos rfl, skipOpened, start]
  dsimp only
  rw [if_neg notClosing, ← start, skipMember_dropSpace]

/-- A later part follows a comma. -/
theorem skipInside_comma {bracket : Bracket} (start : dropSpace text = ',' :: rest)
    (stack : List Bracket) : skipInside false bracket stack text = skipMember bracket stack rest := by
  rw [skipInside, if_neg Bool.false_ne_true, skipAfter, start]
  exact if_pos rfl

theorem skipInside_of_part {first : Bool} {bracket : Bracket} {part tail : List Char} {c : Char}
    (at_ : PartAt first text part) (start : dropSpace part = c :: tail)
    (notClosing : c ≠ bracket.closing) (stack : List Bracket) :
    proceed (skipInside first bracket stack text) = proceed (skipMember bracket stack part) := by
  cases at_ with
  | first => exact skipInside_first start notClosing stack
  | later comma => rw [skipInside_comma comma]

theorem skipInside_of_nextElement {first : Bool} {start : List Char}
    (next : nextElement first text = .ok (.member () start)) (stack : List Bracket) :
    proceed (skipInside first .list stack text) = skipWithin (.list :: stack) start := by
  obtain ⟨part, c, tail, at_, found, notBracket, rfl⟩ := nextElement_member_iff.mp next
  have inside := skipInside_of_part at_ found (show c ≠ Bracket.list.closing from notBracket) stack
  rw [inside, ← found, skipWithin_dropSpace]
  rfl

theorem skipInside_of_nextKey {first : Bool} {name : String} {start behind : List Char}
    (next : nextKey first text = .ok (.member name start)) (colon : readColon start = .ok behind)
    (stack : List Bracket) :
    proceed (skipInside first .object stack text) = skipWithin (.object :: stack) behind := by
  obtain ⟨part, tail, cs, at_, found, read, -⟩ := nextKey_member_iff.mp next
  rw [skipInside_of_part at_ found (by decide), skipMember, skipKey, found]
  simp only [skipQuoted_of_readQuoted read, colon]
  rfl

/-- The elements of a list are passed up to its end. -/
theorem skipInside_of_readElements {item : Reader α} (passing : item.Passing) {first : Bool}
    {as : List α} (read : readElements item first text = .ok (as, rest)) (stack : List Bracket) :
    proceed (skipInside first .list stack text) = proceed (skipAfter stack rest) := by
  fun_induction readElements item first text generalizing as rest with
  | case1 => cases read
  | case2 first text rest next =>
    cases read
    rw [skipInside_of_close (nextElement_close_iff.mp next)]
  | case3 => cases read
  | case4 => cases read
  | case5 first text start next a rest' found _ _ as left inner ih =>
    cases read
    rw [skipInside_of_nextElement next, passing found]
    exact ih inner

theorem listReader_passing {item : Reader α} (passing : item.Passing) :
    (listReader item).Passing := by
  intro text rest as read
  simp only [listReader] at read
  split at read
  · cases read
  next found =>
    intro stack
    rw [skipWithin_eq, skipOpening_of_readShape found]
    exact skipInside_of_readElements passing read stack
  · cases read

/-- Whether the readers of members leave what stands behind the colon and the value after it. -/
def PassingMembers (step : String → σ → Reader σ) : Prop :=
  ∀ {name : String} {state next : σ} {start rest : List Char},
    (step name state).read start = .ok (next, rest) →
      ∃ behind, readColon start = .ok behind ∧ Passes behind rest

theorem Reader.Passing.afterColon {reader : Reader α} (passing : reader.Passing) {a : α}
    (read : (afterColon reader).read text = .ok (a, rest)) :
    ∃ behind, readColon text = .ok behind ∧ Passes behind rest := by
  obtain ⟨behind, colon, read⟩ := afterColon_read_iff.mp read
  exact ⟨behind, colon, passing read⟩

/-- The members of an object are passed up to its end. -/
theorem skipInside_of_readMembers {step : String → σ → Reader σ} (passing : PassingMembers step)
    {first : Bool} {state final : σ}
    (read : readMembers step first state text = .ok (final, rest)) (stack : List Bracket) :
    proceed (skipInside first .object stack text) = proceed (skipAfter stack rest) := by
  fun_induction readMembers step first state text with
  | case1 => cases read
  | case2 _ _ _ _ next =>
    cases read
    rw [skipInside_of_close (nextKey_close_iff.mp next)]
  | case3 => cases read
  | case4 _ _ _ _ _ next _ _ found _ _ ih =>
    obtain ⟨behind, colon, passes⟩ := passing found
    rw [skipInside_of_nextKey next colon, passes]
    exact ih read

/-! ## Trees -/

theorem memberReader_passing {inner : Reader Value} (passing : inner.Passing) :
    PassingMembers (memberReader inner) := by
  intro name state next start rest read
  obtain ⟨value, read, -⟩ := Reader.map_read_iff.mp read
  exact passing.afterColon read

theorem nestedReader_passing {inner : Reader Value} (passing : inner.Passing) :
    (nestedReader inner).Passing := by
  intro text rest value read
  simp only [nestedReader] at read
  split at read
  · cases read
  next shape between found =>
    unfold readMembersOf at read
    split at read
    next s =>
      cases read
      exact passes_of_scalar found
    · split at read
      · cases read
      next elements =>
        cases read
        intro stack
        rw [skipWithin_eq, skipOpening_of_readShape found]
        exact skipInside_of_readElements passing elements stack
    · split at read
      · cases read
      next members =>
        cases read
        intro stack
        rw [skipWithin_eq, skipOpening_of_readShape found]
        exact skipInside_of_readMembers (memberReader_passing passing) members stack

theorem valueReader_passing (depth : Nat) : (valueReader depth).Passing := by
  induction depth with
  | zero =>
    intro text rest value read
    simp only [valueReader, scalarReader] at read
    split at read
    · cases read
    next found =>
      cases read
      exact passes_of_scalar found
    · cases read
  | succ depth ih => exact nestedReader_passing ih

/-! ## The names of the members of an object -/

/-- The reader of a member that keeps its name alone. -/
def nameReader (name : String) (names : List String) : Reader (List String) :=
  (afterColon skipReader).map fun _ => name :: names

/-- States that the members of an object with some names make one from another. -/
inductive Course (step : String → σ → Reader σ) : σ → List String → σ → Prop
  | done (state : σ) : Course step state [] state
  | member {state next final : σ} {name : String} {names : List String} {start rest : List Char}
      (read : (step name state).read start = .ok (next, rest)) (more : Course step next names final) :
      Course step state (name :: names) final

theorem nameReader_read {start behind : List Char} (colon : readColon start = .ok behind)
    (passes : Passes behind rest) (name : String) (names : List String) :
    (nameReader name names).read start = .ok (name :: names, rest) := by
  refine Reader.map_read_iff.mpr ⟨(), afterColon_read_iff.mpr ⟨behind, colon, ?_⟩, rfl⟩
  simp only [skipReader, passes.skip]

/-- Whatever the members of an object are read for, their names are those that one sees who skips
them. -/
theorem course_of_readMembers {step : String → σ → Reader σ} (passing : PassingMembers step)
    {first : Bool} {state final : σ}
    (read : readMembers step first state text = .ok (final, rest)) (earlier : List String) :
    ∃ names, Course step state names final ∧
      readMembers nameReader first earlier text = .ok (names.reverse ++ earlier, rest) := by
  fun_induction readMembers step first state text generalizing earlier with
  | case1 => cases read
  | case2 first state text rest next =>
    cases read
    exact ⟨[], .done _, readMembers_of_close earlier next⟩
  | case3 => cases read
  | case4 first state text name start next state' rest' found _ _ ih =>
    obtain ⟨behind, colon, passes⟩ := passing found
    obtain ⟨names, course, more⟩ := ih read (name :: earlier)
    refine ⟨name :: names, .member found course, ?_⟩
    rw [List.reverse_cons, List.append_assoc]
    exact readMembers_member next (nameReader_read colon passes name earlier) more

end TransactionLookup.Json
