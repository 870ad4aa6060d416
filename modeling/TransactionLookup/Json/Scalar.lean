import TransactionLookup.Decimal.Shortest
import TransactionLookup.Text.Literal

/-!
# Scalars and the shapes of values

A value of a document is a scalar or one of the two containers. The shape of a value is the scalar
itself, or the kind of container without what is in it: all that a reader of one plain value has to
know, and all that a complaint about a value of the wrong type names.
-/

namespace TransactionLookup.Json

/-- A number: a whole one of at most 64 bits, a negative one of at most 63, or any other. -/
inductive Number
  | natural (n : UInt64)
  /-- The number `-(n + 1)`. -/
  | negative (n : Nat)
  | real (x : Float)

/-- A value that holds no other values. -/
inductive Scalar
  | null
  | boolean (b : Bool)
  | number (n : Number)
  | text (s : String)

/-- What a value is, without the members of a container. -/
inductive Shape
  | scalar (s : Scalar)
  | sequence
  | map

/-- Numbers between 0.00001 and ten million milliards are written without a power of ten. -/
def numberStyle : Decimal.Style := ⟨-5, 15⟩

def Number.describe : Number → String
  | .natural n => "integer `" ++ String.ofList (Decimal.digits n.toNat) ++ "`"
  | .negative n => "integer `-" ++ String.ofList (Decimal.digits (n + 1)) ++ "`"
  | .real x => "floating point `" ++ String.ofList (Decimal.textOfDouble numberStyle x) ++ "`"

def Scalar.describe : Scalar → String
  | .null => "null"
  | .boolean b => "boolean `" ++ (if b then "true" else "false") ++ "`"
  | .number n => n.describe
  | .text s => "string " ++ String.ofList (Text.literal s.toList)

def Shape.describe : Shape → String
  | .scalar s => s.describe
  | .sequence => "sequence"
  | .map => "map"

end TransactionLookup.Json
