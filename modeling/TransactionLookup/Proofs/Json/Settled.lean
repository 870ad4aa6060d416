import TransactionLookup.Json.Value
import TransactionLookup.Proofs.Text.Order

/-!
# The members that count

Of several members of an object with one key the last counts, and those that count are told apart by
their keys. So an object without the others has the same members, and one in which no key is repeated
has all of its own.
-/

namespace TransactionLookup.Json

open Text (compareUtf8_self compareUtf8_eq_iff compareUtf8_lt_trans compareUtf8_gt_iff)

variable {members : List (String × Value)}

/-- The last of the members with each key. -/
def lastMembers : List (String × Value) → List (String × Value)
  | [] => []
  | member :: members =>
    if member.1 ∈ members.map Prod.fst then lastMembers members
    else member :: lastMembers members

section Insertion

variable {name other : String} {value held : Value}

theorem insertMember_of_lt (before : Text.compareUtf8 name other = .lt) :
    insertMember name value ((other, held) :: members) =
      (name, value) :: (other, held) :: members := by
  simp only [insertMember, before]

theorem insertMember_self :
    insertMember name value ((name, held) :: members) = (name, value) :: members := by
  simp only [insertMember, compareUtf8_self]

theorem insertMember_of_gt (behind : Text.compareUtf8 name other = .gt) :
    insertMember name value ((other, held) :: members) =
      (other, held) :: insertMember name value members := by
  simp only [insertMember, behind]

end Insertion

/-- A later member takes the place of one with its key. -/
theorem insertMember_again (name : String) (old value : Value) (members : List (String × Value)) :
    insertMember name value (insertMember name old members) = insertMember name value members := by
  induction members with
  | nil => exact insertMember_self
  | cons member members ih =>
    obtain ⟨other, held⟩ := member
    cases order : Text.compareUtf8 name other with
    | lt => rw [insertMember_of_lt order, insertMember_of_lt order, insertMember_self]
    | eq =>
      obtain rfl := compareUtf8_eq_iff.mp order
      rw [insertMember_self, insertMember_self, insertMember_self]
    | gt =>
      rw [insertMember_of_gt order, insertMember_of_gt order, insertMember_of_gt order, ih]

theorem insertMember_comm_of_lt {a b : String} (before : Text.compareUtf8 a b = .lt) (x y : Value)
    (members : List (String × Value)) :
    insertMember a x (insertMember b y members) = insertMember b y (insertMember a x members) := by
  have behind : Text.compareUtf8 b a = .gt := compareUtf8_gt_iff.mpr before
  induction members with
  | nil =>
    simp only [insertMember, before, behind]
  | cons member members ih =>
    obtain ⟨c, z⟩ := member
    cases order : Text.compareUtf8 b c with
    | lt =>
      have first := compareUtf8_lt_trans before order
      rw [insertMember_of_lt order, insertMember_of_lt first, insertMember_of_lt before,
        insertMember_of_gt behind, insertMember_of_lt order]
    | eq =>
      obtain rfl := compareUtf8_eq_iff.mp order
      rw [insertMember_self, insertMember_of_lt before, insertMember_of_lt before,
        insertMember_of_gt behind, insertMember_self]
    | gt =>
      rw [insertMember_of_gt order]
      cases place : Text.compareUtf8 a c with
      | lt =>
        rw [insertMember_of_lt place, insertMember_of_lt place, insertMember_of_gt behind,
          insertMember_of_gt order]
      | eq =>
        obtain rfl := compareUtf8_eq_iff.mp place
        rw [insertMember_self, insertMember_self, insertMember_of_gt behind]
      | gt =>
        rw [insertMember_of_gt place, insertMember_of_gt place, insertMember_of_gt order, ih]

/-- Members with different keys are put in their places in either order. -/
theorem insertMember_comm {a b : String} (apart : a ≠ b) (x y : Value)
    (members : List (String × Value)) :
    insertMember a x (insertMember b y members) = insertMember b y (insertMember a x members) := by
  cases order : Text.compareUtf8 a b with
  | lt => exact insertMember_comm_of_lt order x y members
  | eq => exact absurd (compareUtf8_eq_iff.mp order) apart
  | gt => exact (insertMember_comm_of_lt (compareUtf8_gt_iff.mp order) y x members).symm

theorem insertMember_perm {name : String} (new : name ∉ members.map Prod.fst) (value : Value) :
    (insertMember name value members).Perm ((name, value) :: members) := by
  induction members with
  | nil => exact .refl _
  | cons member members ih =>
    obtain ⟨other, held⟩ := member
    simp only [List.map_cons, List.mem_cons, not_or] at new
    unfold insertMember
    cases order : Text.compareUtf8 name other with
    | lt => exact .refl _
    | eq => exact absurd (compareUtf8_eq_iff.mp order) new.1
    | gt => exact ((ih new.2).cons _).trans (.swap _ _ _)

theorem foldl_insertMember_perm {found : List (String × Value)}
    (distinct : ((members ++ found).map Prod.fst).Nodup) :
    (members.foldl (fun found member => insertMember member.1 member.2 found) found).Perm
      (members ++ found) := by
  induction members generalizing found with
  | nil => exact .refl _
  | cons member members ih =>
    have moved : (member :: members ++ found).Perm (members ++ member :: found) :=
      List.perm_middle.symm
    have distinctToo := (moved.map Prod.fst).nodup_iff.mp distinct
    have new : member.1 ∉ found.map Prod.fst := by
      rw [List.map_append, List.map_cons] at distinctToo
      exact (List.nodup_cons.mp (List.nodup_append.mp distinctToo).2.1).1
    have placed := (insertMember_perm new member.2).append_left members
    exact (ih ((placed.map Prod.fst).nodup_iff.mpr distinctToo)).trans (placed.trans moved.symm)

/-- If no key is repeated, all members count. -/
theorem settled_perm (distinct : (members.map Prod.fst).Nodup) :
    (settled members).Perm members := by
  have distinctToo : ((members ++ []).map Prod.fst).Nodup := by rwa [List.append_nil]
  have perm := foldl_insertMember_perm distinctToo
  rwa [List.append_nil] at perm

/-- A member with the key of a later one does not count. -/
theorem foldl_insertMember_later {name : String} (later : name ∈ members.map Prod.fst)
    (value : Value) (found : List (String × Value)) :
    members.foldl (fun found member => insertMember member.1 member.2 found)
        (insertMember name value found) =
      members.foldl (fun found member => insertMember member.1 member.2 found) found := by
  induction members generalizing found with
  | nil => cases later
  | cons member members ih =>
    rw [List.foldl_cons, List.foldl_cons]
    by_cases here : member.1 = name
    · rw [here, insertMember_again]
    · rw [insertMember_comm here]
      rw [List.map_cons, List.mem_cons] at later
      exact ih (later.resolve_left (Ne.symm here)) _

theorem foldl_insertMember_lastMembers (members found : List (String × Value)) :
    (lastMembers members).foldl (fun found member => insertMember member.1 member.2 found) found =
      members.foldl (fun found member => insertMember member.1 member.2 found) found := by
  induction members generalizing found with
  | nil => rfl
  | cons member members ih =>
    rw [lastMembers]
    split
    next later => rw [ih, List.foldl_cons, foldl_insertMember_later later]
    next => exact ih _

/-- An object counts for what it is without the members that a later one replaces. -/
theorem settled_lastMembers (members : List (String × Value)) :
    settled (lastMembers members) = settled members :=
  foldl_insertMember_lastMembers members []

end TransactionLookup.Json
