import TransactionLookup.Transaction.Hash
import TransactionLookup.Transaction.Status
import TransactionLookup.Transaction.Timestamp

/-!
# Records

What is known of an inbound transaction. The hashes of the outbound transactions that it caused are
recorded as they are seen, each once; when there are as many as expected, its status changes.
-/

namespace TransactionLookup

/-- An observed inbound transaction. -/
structure Record where
  hash : TxHash
  status : Status := .initial
  chain : String := ""
  sender : String := ""
  receiver : String := ""
  asset : String := ""
  amount : UInt64 := 0
  memo : String := ""
  blockHeight : UInt64 := 0
  /-- How many outbound transactions are expected. -/
  numOuts : UInt64 := 0
  outHashes : List TxHash := []
  timestamp : Timestamp := .clock
  deriving DecidableEq, Repr

namespace Record

/-- The record of a transaction of which only the hash is known. -/
def new (hash : TxHash) : Record := { hash }

/-- Records an outbound transaction. One that is recorded already changes nothing; a new one that
makes up the expected number changes the status. -/
def addOut (status : Status) (hash : TxHash) (r : Record) : Record :=
  if hash ∈ r.outHashes then r
  else
    let outs := r.outHashes ++ [hash]
    { r with
      outHashes := outs
      -- a record that expects none changes with its first
      status := if r.numOuts.toNat ≤ outs.length then status else r.status }

def markDone (hash : TxHash) (r : Record) : Record := r.addOut .done hash

def markReverted (hash : TxHash) (r : Record) : Record := r.addOut .reverted hash

/-- The record with what the clock read in the place of the clock. -/
def stamp (now : Calendar.Instant) (r : Record) : Record :=
  { r with timestamp := r.timestamp.stamp now }

end Record

/-- A change of one record. -/
inductive Edit
  | addOut (status : Status) (hash : TxHash)
  | markDone (hash : TxHash)
  | markReverted (hash : TxHash)
  | setHash (hash : TxHash)
  | setStatus (status : Status)
  | setChain (chain : String)
  | setSender (sender : String)
  | setReceiver (receiver : String)
  | setCoin (asset : String) (amount : UInt64)
  | setAmount (amount : UInt64)
  /-- Adds modulo 2^64. -/
  | addAmount (amount : UInt64)
  | setMemo (memo : String)
  | setBlockHeight (height : UInt64)
  | setNumOuts (count : UInt64)
  | clearOuts
  | setTimestamp (t : Calendar.Instant)
  deriving DecidableEq, Repr

namespace Edit

def apply (r : Record) : Edit → Record
  | addOut status hash => r.addOut status hash
  | markDone hash => r.markDone hash
  | markReverted hash => r.markReverted hash
  | setHash hash => { r with hash }
  | setStatus status => { r with status }
  | setChain chain => { r with chain }
  | setSender sender => { r with sender }
  | setReceiver receiver => { r with receiver }
  | setCoin asset amount => { r with asset, amount }
  | setAmount amount => { r with amount }
  | addAmount amount => { r with amount := r.amount + amount }
  | setMemo memo => { r with memo }
  | setBlockHeight blockHeight => { r with blockHeight }
  | setNumOuts numOuts => { r with numOuts }
  | clearOuts => { r with outHashes := [] }
  | setTimestamp t => { r with timestamp := .given t }

def applyAll (edits : List Edit) (r : Record) : Record := edits.foldl apply r

/-- The records before, between and after changes. -/
def history (r : Record) : List Edit → List Record
  | [] => [r]
  | e :: edits => r :: history (apply r e) edits

end Edit

end TransactionLookup
