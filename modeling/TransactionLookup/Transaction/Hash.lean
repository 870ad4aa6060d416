import TransactionLookup.Json.Reader
import TransactionLookup.Text.Utf8

/-!
# Transaction hashes

A hash names a transaction. No form is asked of it and no two spellings are taken for one: a hash is
its text. Hashes are ordered by the bytes of their texts.
-/

namespace TransactionLookup

/-- The name of a transaction. -/
structure TxHash where
  text : String
  deriving DecidableEq, Repr

namespace TxHash

def isEmpty (h : TxHash) : Bool := h.text == ""

def byteLength (h : TxHash) : Nat := Text.utf8Length h.text.toList

/-- The order of hashes. -/
def order (a b : TxHash) : Ordering := Text.compareUtf8 a.text b.text

def json (h : TxHash) : List Char := Json.quote h.text.toList

def reader : Json.Reader TxHash := Json.textLeaf.reader.map TxHash.mk

/-- Puts a hash in its place among others, unless it is there. -/
def insertSorted (h : TxHash) : List TxHash → List TxHash
  | [] => [h]
  | k :: ks =>
    match order h k with
    | .lt => h :: k :: ks
    | .eq => k :: ks
    | .gt => k :: insertSorted h ks

/-- The hashes of a list in their order, each once. -/
def sorted (hashes : List TxHash) : List TxHash := hashes.foldr insertSorted []

end TxHash

end TransactionLookup
