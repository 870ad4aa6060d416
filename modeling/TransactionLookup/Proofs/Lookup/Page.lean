import TransactionLookup.Lookup.Counters

/-!
# The page of the counters read back

A reader of the page takes it line by line, and a line for a sample if it is the name of the counter
with an outcome in its label, a space and a number. It finds a sample for each outcome that has come
up, with the number of times, and no other.
-/

namespace TransactionLookup

/-- The start of a sample line, up to the outcome. -/
def sampleStart : String := "tx_lookups_total\x7boutcome=\""

/-- The end of a sample line, the outcome already read. -/
def readCount (name line : List Char) : Option (String × Nat) :=
  match line with
  | '"' :: '}' :: ' ' :: ds =>
    if ds ≠ [] ∧ ds.all Char.isDigit then some (String.ofList name, Decimal.value ds) else none
  | _ => none

/-- The outcome and the number that a line tells, if it is a sample line. -/
def readSample (line : List Char) : Option (String × Nat) :=
  if sampleStart.toList.isPrefixOf line then
    let rest := line.drop sampleStart.toList.length
    readCount (rest.takeWhile (· ≠ '"')) (rest.dropWhile (· ≠ '"'))
  else none

/-- The samples of a page. -/
def readPage (page : String) : List (String × Nat) :=
  (page.toList.splitOn '\n').filterMap readSample

namespace Counters

/-- A sample line without its end. -/
def sampleText (o : Outcome) (count : Nat) : List Char :=
  sampleStart.toList ++ (o.name.toList ++ '"' :: '}' :: ' ' :: Decimal.digits count)

theorem toList_sampleLine (o : Outcome) (count : Nat) :
    (sampleLine o count).toList = sampleText o count ++ ['\n'] := by
  have line : sampleLine o count =
      sampleStart ++ o.name ++ "\"\x7d " ++ String.ofList (Decimal.digits count) ++ "\n" := rfl
  have middle : "\"\x7d ".toList = ['"', '}', ' '] := rfl
  have newline : "\n".toList = ['\n'] := rfl
  rw [line, String.toList_append, String.toList_append, String.toList_append, String.toList_append,
    middle, newline, String.toList_ofList]
  simp only [sampleText, List.append_assoc, List.cons_append, List.nil_append]

theorem isDigit_digits (n : Nat) : (Decimal.digits n).all Char.isDigit = true :=
  List.all_eq_true.mpr fun _ member => Decimal.isDigit_of_mem_digits member

/-- The label of a sample line holds no quote, so that it ends where it should. -/
theorem name_unquoted (o : Outcome) : ∀ c ∈ o.name.toList, c ≠ '"' := by
  have absent : '"' ∉ o.name.toList := by cases o <;> decide
  intro c member same
  exact absent (same ▸ member)

theorem readSample_sampleText (o : Outcome) (count : Nat) :
    readSample (sampleText o count) = some (o.name, count) := by
  have unquoted : ∀ c ∈ o.name.toList, decide (c ≠ '"') = true := by
    simpa using name_unquoted o
  have start : sampleStart.toList.isPrefixOf (sampleText o count) = true := by
    rw [List.isPrefixOf_iff_prefix]
    exact List.prefix_append _ _
  have rest : (sampleText o count).drop sampleStart.toList.length =
      o.name.toList ++ '"' :: '}' :: ' ' :: Decimal.digits count := List.drop_left
  rw [readSample, if_pos start, rest]
  dsimp only
  rw [List.takeWhile_append_of_pos unquoted, List.dropWhile_append_of_pos unquoted]
  simp only [List.takeWhile_cons, List.dropWhile_cons, ne_eq, not_true_eq_false, decide_false,
    Bool.false_eq_true, if_false, List.append_nil, readCount, Decimal.digits_ne_nil,
    not_false_eq_true, isDigit_digits, and_self, if_true, String.ofList_toList,
    Decimal.value_digits]

theorem newline_notMem_sampleText (o : Outcome) (count : Nat) : '\n' ∉ sampleText o count := by
  have start : '\n' ∉ sampleStart.toList := by decide
  have label : '\n' ∉ o.name.toList := by cases o <;> decide
  have number : '\n' ∉ Decimal.digits count := fun member =>
    absurd (Decimal.isDigit_of_mem_digits member) (by decide)
  simp [sampleText, start, label, number]

/-- Lines that hold no line end are told apart where they end. -/
theorem splitOn_lines {lines : List (List Char)} (whole : ∀ line ∈ lines, '\n' ∉ line)
    (rest : List Char) :
    ((lines.flatMap fun line => line ++ ['\n']) ++ rest).splitOn '\n' =
      lines ++ rest.splitOn '\n' := by
  induction lines with
  | nil => rfl
  | cons line lines ih =>
    obtain ⟨here, later⟩ := List.forall_mem_cons.mp whole
    rw [List.flatMap_cons, List.append_assoc, List.append_assoc, List.singleton_append,
      List.splitOn_append_cons_self_of_not_mem here, ih later]
    rfl

/-- The line in front of the samples. -/
def typeLine : String := "# TYPE tx_lookups_total counter"

theorem toList_page {c : Counters} {outcomes : List Outcome}
    (counted : (Outcome.all.filter fun o => c.get o ≠ 0) = outcomes) (any : outcomes ≠ []) :
    c.page.toList =
      ((typeLine.toList :: outcomes.map fun o => sampleText o (c.get o)).flatMap
        fun line => line ++ ['\n']) ++ ['\n'] := by
  have lines : c.sampleLines = outcomes.map fun o => sampleLine o (c.get o) := by
    rw [sampleLines, counted]
  have shown : c.page = typeLine ++ "\n" ++ String.join c.sampleLines ++ "\n" := by
    unfold page
    split
    next empty =>
      rw [lines, List.map_eq_nil_iff] at empty
      exact absurd empty any
    · rfl
  have newline : "\n".toList = ['\n'] := rfl
  rw [shown, String.toList_append, String.toList_append, String.toList_append, newline,
    String.toList_join, lines, List.flatMap_cons, List.flatMap_map, List.flatMap_map]
  simp only [toList_sampleLine]

/-- The page holds a sample for each outcome that has come up, with its count, and no other. -/
theorem readPage_page (c : Counters) :
    readPage c.page = (Outcome.all.filter fun o => c.get o ≠ 0).map fun o => (o.name, c.get o) := by
  generalize counted : (Outcome.all.filter fun o => c.get o ≠ 0) = outcomes
  cases outcomes with
  | nil =>
    have empty : c.page = "" := by
      simp only [page, sampleLines, counted, List.map_nil]
    rw [empty]
    rfl
  | cons o outcomes =>
    have whole : ∀ line ∈ typeLine.toList :: (o :: outcomes).map fun o => sampleText o (c.get o),
        '\n' ∉ line := by
      refine List.forall_mem_cons.mpr ⟨by decide, ?_⟩
      intro line member
      obtain ⟨o, -, rfl⟩ := List.mem_map.mp member
      exact newline_notMem_sampleText o (c.get o)
    have noSample : readSample typeLine.toList = none ∧ readSample [] = none := by decide
    have last : ['\n'].splitOn '\n' = [[], []] := rfl
    rw [readPage, toList_page counted (List.cons_ne_nil _ _), splitOn_lines whole, last,
      List.filterMap_append, List.filterMap_cons, noSample.1, List.filterMap_map]
    -- the samples are read one by one, and the two ends of the page are none
    have samples : (readSample ∘ fun o => sampleText o (c.get o)) =
        fun o => some (o.name, c.get o) := by
      funext o
      exact readSample_sampleText o (c.get o)
    simp only [samples, List.filterMap_eq_map', List.filterMap_cons, noSample.2, List.filterMap_nil,
      List.append_nil, List.map_cons]

end Counters

end TransactionLookup
