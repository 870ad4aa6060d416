import TransactionLookup.Json.Quoted

/-!
# Percent escapes

A path is sent as characters, some of them as bytes given by a percent sign and two hexadecimal
digits of either case. A percent sign without two digits stands for itself.
-/

namespace TransactionLookup.Http

/-- The byte of two hexadecimal digits. -/
def byteOfHex? (high low : Char) : Option UInt8 :=
  match Json.hexValue? high, Json.hexValue? low with
  | some h, some l => some (UInt8.ofNat (16 * h + l))
  | _, _ => none

/-- The bytes that a path stands for. -/
def percentDecode : List Char → List UInt8
  | [] => []
  | [c] => String.utf8EncodeChar c
  | [c, d] => String.utf8EncodeChar c ++ String.utf8EncodeChar d
  | c :: high :: low :: rest =>
    if c = '%' then
      match byteOfHex? high low with
      | some b => b :: percentDecode rest
      | none => String.utf8EncodeChar c ++ percentDecode (high :: low :: rest)
    else String.utf8EncodeChar c ++ percentDecode (high :: low :: rest)

def decodeText? (path : List Char) : Option String := Text.ofUtf8? (percentDecode path)

end TransactionLookup.Http
