import TransactionLookup.Json.Container
import TransactionLookup.Transaction.Record

/-!
# Fields of a record

The twelve fields in the order in which they are written, each with the type of its content, its name
in a document, its readers, and what it holds when it is left out. Only the hash cannot be left out.
-/

namespace TransactionLookup

inductive Field
  | hash
  | status
  | chain
  | sender
  | receiver
  | asset
  | amount
  | memo
  | blockHeight
  | numOuts
  | outHashes
  | timestamp
  deriving DecidableEq, Repr

namespace Field

def all : List Field :=
  [hash, status, chain, sender, receiver, asset, amount, memo, blockHeight, numOuts, outHashes,
    timestamp]

def name : Field → String
  | hash => "hash"
  | status => "status"
  | chain => "chain"
  | sender => "sender"
  | receiver => "receiver"
  | asset => "asset"
  | amount => "amount"
  | memo => "memo"
  | blockHeight => "block_height"
  | numOuts => "num_outs"
  | outHashes => "out_hashes"
  | timestamp => "timestamp"

def ofName? (name : String) : Option Field := all.find? fun f => f.name == name

/-- What a field holds. -/
def Content : Field → Type
  | hash => TxHash
  | status => Status
  | chain | sender | receiver | asset | memo => String
  | amount | blockHeight | numOuts => UInt64
  | outHashes => List TxHash
  | timestamp => Timestamp

def get (r : Record) : (f : Field) → f.Content
  | hash => r.hash
  | status => r.status
  | chain => r.chain
  | sender => r.sender
  | receiver => r.receiver
  | asset => r.asset
  | amount => r.amount
  | memo => r.memo
  | blockHeight => r.blockHeight
  | numOuts => r.numOuts
  | outHashes => r.outHashes
  | timestamp => r.timestamp

def reader : (f : Field) → Json.Reader f.Content
  | hash => TxHash.reader
  | status => Status.reader
  | chain | sender | receiver | asset | memo => Json.textLeaf.reader
  | amount | blockHeight | numOuts => Json.naturalLeaf.reader
  | outHashes => Json.listReader TxHash.reader
  | timestamp => Timestamp.reader

def hashOfValue (value : Json.Value) : Except Json.Problem TxHash :=
  (Json.textLeaf.ofValue value).map TxHash.mk

def hashesOfValue (value : Json.Value) : Except Json.Problem (List TxHash) :=
  match value with
  | .sequence items => items.mapM hashOfValue
  | value => .error (.wrongType value.shape .sequence)

def ofValue : (f : Field) → Json.Value → Except Json.Problem f.Content
  | hash => hashOfValue
  | status => Status.ofValue
  | chain | sender | receiver | asset | memo => Json.textLeaf.ofValue
  | amount | blockHeight | numOuts => Json.naturalLeaf.ofValue
  | outHashes => hashesOfValue
  | timestamp => Timestamp.ofValue

def json : (f : Field) → f.Content → List Char
  | hash => TxHash.json
  | status => Status.json
  | chain | sender | receiver | asset | memo => fun s : String => Json.quote s.toList
  | amount | blockHeight | numOuts => fun n : UInt64 => Decimal.digits n.toNat
  | outHashes => fun hashes : List TxHash => Json.listText (hashes.map TxHash.json)
  | timestamp => Timestamp.json

end Field

/-- A record in the making: the contents of the fields that are known so far. -/
def Draft : Type := (f : Field) → Option f.Content

namespace Draft

def empty : Draft := fun _ => none

/-- The draft with the content of one more field. -/
def put (d : Draft) (f : Field) (content : f.Content) : Draft := fun g =>
  if same : f = g then some (same ▸ content) else d g

/-- The record of a draft, in which a field that is not known is left as in a new record. There is
none without a hash. -/
def record? (d : Draft) : Option Record :=
  (d .hash).map fun hash =>
    let new := Record.new hash
    { hash
      status := (d .status).getD new.status
      chain := (d .chain).getD new.chain
      sender := (d .sender).getD new.sender
      receiver := (d .receiver).getD new.receiver
      asset := (d .asset).getD new.asset
      amount := (d .amount).getD new.amount
      memo := (d .memo).getD new.memo
      blockHeight := (d .blockHeight).getD new.blockHeight
      numOuts := (d .numOuts).getD new.numOuts
      outHashes := (d .outHashes).getD new.outHashes
      timestamp := (d .timestamp).getD new.timestamp }

end Draft

namespace Record

/-- A record in a document: an object with all fields in their order. -/
def json (r : Record) : List Char :=
  Json.objectText (Field.all.map fun f => (f.name, f.json (f.get r)))

end Record

end TransactionLookup
