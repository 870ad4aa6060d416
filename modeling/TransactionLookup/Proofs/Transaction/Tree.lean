import TransactionLookup.Proofs.Json.Tree
import TransactionLookup.Transaction.Field

/-!
# Records as trees

What is written for a record is a document, whatever texts the record holds and whether its time was
given or is the clock's: an object with a member for each field, in the order of the fields.
-/

namespace TransactionLookup

open Json (Reads)

/-- A text in a document. -/
def textTree (s : String) : Json.Value := .scalar (.text s)

namespace Field

/-- What a field holds, as a part of a document. -/
def tree : (f : Field) → f.Content → Json.Value
  | hash => fun h : TxHash => textTree h.text
  | status => fun s : Status => textTree s.name
  | chain | sender | receiver | asset | memo => textTree
  | amount | blockHeight | numOuts => fun n : UInt64 => .scalar (.number (.natural n))
  | outHashes => fun hashes : List TxHash => .sequence (hashes.map fun h => textTree h.text)
  | timestamp => fun t : Timestamp => textTree (String.ofList t.text)

/-- A written field is the text, the number or the list of texts that it holds. -/
theorem reads_tree (depth : Nat) (f : Field) (content : f.Content) :
    Reads (Json.valueReader (depth + 1)) (f.json content) (f.tree content) := by
  cases f with
  | hash => exact Json.reads_textTree _ (TxHash.text content)
  | status => exact Json.reads_textTree _ (Status.name content)
  | chain | sender | receiver | asset | memo => exact Json.reads_textTree _ content
  | amount | blockHeight | numOuts => exact Json.reads_naturalTree _ content
  | outHashes => exact Json.reads_listTree fun h _ => Json.reads_textTree depth h.text
  | timestamp =>
    have time := Json.reads_textTree (depth + 1) (String.ofList (Timestamp.text content))
    rw [String.toList_ofList] at time
    exact time

end Field

namespace Record

def tree (r : Record) : Json.Value := .map (Field.all.map fun f => (f.name, f.tree (f.get r)))

theorem value_json (r : Record) : Json.Value.read r.json = .ok r.tree := by
  -- an object in which nothing is nested deeper than a list
  have reads : Reads (Json.valueReader Json.depthLimit) r.json r.tree :=
    Json.reads_objectTree Field.name fun f _ => f.reads_tree _ (f.get r)
  exact reads.document

end Record

end TransactionLookup
