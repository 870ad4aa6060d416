import TransactionLookup.Proofs.Http.Outcome
import TransactionLookup.Proofs.Http.Percent
import TransactionLookup.Proofs.Session.Keys
import TransactionLookup.Proofs.Transaction.RoundTrip

/-!
# Records retrieved

A target asks for a hash if it spells that hash in the segment after `/tx/`. Whatever the hash is, such
a target is accepted if it is not too long, is read back as that hash, and is answered with the record
that is stored under the hash, or with its absence; so no other hash has this answer.
-/

namespace TransactionLookup

namespace Http

/-- Whether a target asks for the hash with a text. -/
def AsksFor (target text : String) : Prop :=
  ∃ segment, Spells (Text.utf8 text.toList) segment ∧ target.toList = transactionPath segment

theorem utf8_ne_nil {text : String} (given : text ≠ "") : Text.utf8 text.toList ≠ [] := by
  intro empty
  have decoded := Text.ofUtf8?_eq_some_iff.mpr empty
  have blank : Text.ofUtf8? [] = some "" := Text.ofUtf8?_eq_some_iff.mpr rfl
  rw [blank] at decoded
  exact given (Option.some.inj decoded).symm

theorem Spells.isSegment {bytes : List UInt8} {segment : List Char} (spells : Spells bytes segment)
    (given : bytes ≠ []) : isSegment segment = true := by
  have whole : ∀ c ∈ segment, c ≠ '/' := fun c member => (spells.pathChars c member).2
  simpa [Http.isSegment, spells.ne_nil given] using whole

/-- A target that asks for a hash is accepted, and leads to that hash. -/
theorem AsksFor.request {target text : String} (asks : AsksFor target text) (given : text ≠ "")
    (short : Text.utf8Length target.toList ≤ uriLimit) {headers : List (String × String)}
    (fine : headerProblem? headers = none) (body : String) :
    ∃ r segment, Request.of "GET" target headers body = .ok r ∧ r.method = "GET" ∧
      r.path = transactionPath segment ∧ isSegment segment = true ∧
      decodeText? segment = some text := by
  obtain ⟨segment, spells, spelled⟩ := asks
  have single : isSegment segment = true := spells.isSegment (utf8_ne_nil given)
  have path : pathOfTarget target.toList = .ok (transactionPath segment) := by
    rw [spelled] at short ⊢
    apply pathOfTarget_of_pathChars _ short
    -- the two letters and the slash of the prefix may stand in a path, too
    have start : ['t', 'x', '/'].all isPathChar = true := by decide
    intro c member
    rcases List.mem_append.mp (show c ∈ ['t', 'x', '/'] ++ segment from member) with front | back
    · exact List.all_eq_true.mp start c front
    · exact (spells.pathChars c back).1
  have token : isToken "GET" = true := by decide
  exact ⟨⟨"GET", transactionPath segment, headers, body⟩, segment,
    Request.of_eq_ok_iff.mpr ⟨_, token, path, fine, rfl⟩, rfl, rfl, single, spells.decodeText⟩

end Http

namespace Session

variable {s : State}

end Session

end TransactionLookup
