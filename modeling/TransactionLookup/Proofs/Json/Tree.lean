import TransactionLookup.Proofs.Json.Written

/-!
# Written trees read back

A written text, natural number, list or object is read as the tree of what was written, as long as
its containers are not nested deeper than is allowed. A container takes one level of nesting.
-/

namespace TransactionLookup.Json

variable {α : Type}

/-- A scalar stands at any depth. -/
theorem reads_scalar {text : List Char} {s : Scalar} (opens : Opens text)
    (shape : ∀ rest, Follows rest → readShape (text ++ rest) = .ok (.scalar s, rest)) (depth : Nat) :
    Reads (valueReader depth) text (.scalar s) where
  opens := opens
  read rest follows := by
    cases depth with
    | zero => simp only [valueReader, scalarReader, shape rest follows]
    | succ depth => simp only [valueReader, nestedReader, shape rest follows, readMembersOf]

theorem reads_textTree (depth : Nat) (s : String) :
    Reads (valueReader depth) (quote s.toList) (.scalar (.text s)) := by
  apply reads_scalar (opens_quote s.toList)
  intro rest _
  rw [readShape_quote, String.ofList_toList]

theorem reads_naturalTree (depth : Nat) (n : UInt64) :
    Reads (valueReader depth) (Decimal.digits n.toNat) (.scalar (.number (.natural n))) :=
  reads_scalar (opens_digits n.toNat) (fun _ follows => readShape_digits n follows) depth

section Containers

variable {depth : Nat} {write : α → List Char} {value : α → Value}

theorem reads_listTree {as : List α}
    (reads : ∀ a ∈ as, Reads (valueReader depth) (write a) (value a)) :
    Reads (valueReader (depth + 1)) (listText (as.map write)) (.sequence (as.map value)) where
  opens := opens_list _
  read rest _ := by
    have elements := readElements_separated value reads rest
    simp only [valueReader, nestedReader, readShape_list, readMembersOf, elements]

/-- Each member of an object is put before those that are read already. -/
theorem steps_memberReader (name : α → String) {as : List α}
    (reads : ∀ a ∈ as, Reads (valueReader depth) (write a) (value a))
    (found : List (String × Value)) :
    Steps (memberReader (valueReader depth)) found (as.map fun a => (name a, write a))
      ((as.map fun a => (name a, value a)).reverse ++ found) := by
  induction as generalizing found with
  | nil => exact .none found
  | cons a as ih =>
    obtain ⟨here, later⟩ := List.forall_mem_cons.mp reads
    rw [List.map_cons, List.map_cons, List.reverse_cons, List.append_assoc]
    refine .member ?_ (ih later _)
    intro rest follows
    simp only [memberReader, Reader.map, afterColon_read here follows]
    rfl

theorem reads_objectTree (name : α → String) {as : List α}
    (reads : ∀ a ∈ as, Reads (valueReader depth) (write a) (value a)) :
    Reads (valueReader (depth + 1)) (objectText (as.map fun a => (name a, write a)))
      (.map (as.map fun a => (name a, value a))) where
  opens := opens_object _
  read rest _ := by
    have members := readMembers_separated (steps_memberReader name reads []) rest
    rw [List.append_nil] at members
    simp only [valueReader, nestedReader, readShape_object, readMembersOf, members,
      List.reverse_reverse]

end Containers

end TransactionLookup.Json
