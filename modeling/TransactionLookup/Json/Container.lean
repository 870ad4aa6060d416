import TransactionLookup.Json.Quoted

/-!
# Written containers

A list and an object as they are written: with nothing but commas and colons between their parts.
-/

namespace TransactionLookup.Json

/-- Texts with a comma between two. -/
def separated : List (List Char) → List Char
  | [] => []
  | item :: items => item ++ items.flatMap fun next => ',' :: next

def listText (items : List (List Char)) : List Char := '[' :: separated items ++ [']']

/-- A written value with its key. -/
def memberText (member : String × List Char) : List Char :=
  quote member.1.toList ++ ':' :: member.2

def objectText (members : List (String × List Char)) : List Char :=
  '{' :: separated (members.map memberText) ++ ['}']

end TransactionLookup.Json
