import TransactionLookup.Decimal.Natural
import TransactionLookup.Text.Utf8

/-!
# Settings

What a server is started with, taken from four environment variables. One that is unset, is no text,
or cannot be understood leaves its setting as it is by default.
-/

namespace TransactionLookup

structure Settings where
  host : String := "0.0.0.0"
  port : UInt16 := 3000
  logLevel : String := "info"
  /-- The path of the file with the first records. -/
  seedFile : Option String := none
  deriving DecidableEq, Repr

/-- The environment variables that settings come from, as bytes. -/
structure Environment where
  host : Option (List UInt8) := none
  port : Option (List UInt8) := none
  logLevel : Option (List UInt8) := none
  seedFile : Option (List UInt8) := none
  deriving DecidableEq, Repr

def variableText? (value : Option (List UInt8)) : Option String := value.bind Text.ofUtf8?

/-- A port: digits, with a plus sign before them or not, whose number is small enough. -/
def readPort? (text : List Char) : Option UInt16 :=
  let ds :=
    match text with
    | '+' :: rest => rest
    | _ => text
  if ds ≠ [] ∧ ds.all Char.isDigit ∧ Decimal.value ds ≤ 65535 then
    some (UInt16.ofNat (Decimal.value ds))
  else none

namespace Settings

def ofEnvironment (env : Environment) : Settings :=
  let base : Settings := {}
  { host := (variableText? env.host).getD base.host
    port := ((variableText? env.port).bind fun text => readPort? text.toList).getD base.port
    logLevel := (variableText? env.logLevel).getD base.logLevel
    seedFile := (variableText? env.seedFile).filter (· ≠ "") }

def address (s : Settings) : String :=
  s.host ++ ":" ++ String.ofList (Decimal.digits s.port.toNat)

end Settings

end TransactionLookup
