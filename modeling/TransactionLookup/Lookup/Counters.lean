import TransactionLookup.Decimal.Natural
import TransactionLookup.Lookup.Finding

/-!
# Lookup counters

How often each outcome of a lookup has come up, and the page on which that is published: a line for
each outcome that has come up at all. The exporter of the page leaves the order of the samples open;
that they stand in the order of their names is a choice made here.
-/

namespace TransactionLookup

/-- The number of lookups with each outcome. -/
structure Counters where
  error : Nat := 0
  found : Nat := 0
  notFound : Nat := 0
  deriving DecidableEq, Repr

namespace Counters

def get (c : Counters) : Outcome → Nat
  | .error => c.error
  | .found => c.found
  | .notFound => c.notFound

def count (c : Counters) : Outcome → Counters
  | .error => { c with error := c.error + 1 }
  | .found => { c with found := c.found + 1 }
  | .notFound => { c with notFound := c.notFound + 1 }

theorem get_count (c : Counters) (a b : Outcome) :
    (c.count a).get b = c.get b + if a = b then 1 else 0 := by
  cases a <;> cases b <;> rfl

def sampleLine (outcome : Outcome) (count : Nat) : String :=
  "tx_lookups_total\x7boutcome=\"" ++ outcome.name ++ "\"\x7d " ++
    String.ofList (Decimal.digits count) ++ "\n"

/-- The lines of the outcomes that have come up. -/
def sampleLines (c : Counters) : List String :=
  (Outcome.all.filter fun o => c.get o ≠ 0).map fun o => sampleLine o (c.get o)

/-- The page of the counters: empty as long as nothing has been counted. -/
def page (c : Counters) : String :=
  match c.sampleLines with
  | [] => ""
  | lines => "# TYPE tx_lookups_total counter\n" ++ String.join lines ++ "\n"

end Counters

end TransactionLookup
