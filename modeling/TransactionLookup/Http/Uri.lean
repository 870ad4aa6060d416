import TransactionLookup.Text.Utf8

/-!
# Request targets

The target of a request is a path with a query, an asterisk, an authority alone, or a whole URI with a
scheme. Only the path matters here, but all parts have to be well formed, and the first fault that is
met is the one that counts.
-/

namespace TransactionLookup.Http

/-- Why a text is no request target. -/
inductive UriProblem
  | tooLong
  | empty
  | invalidChar
  | invalidAuthority
  | invalidFormat
  | schemeTooLong
  deriving DecidableEq, Repr

def UriProblem.message : UriProblem → String
  | .tooLong => "uri too long"
  | .empty => "empty string"
  | .invalidChar => "invalid uri character"
  | .invalidAuthority => "invalid authority"
  | .invalidFormat => "invalid format"
  | .schemeTooLong => "scheme too long"

/-- The greatest length of a target, in bytes. -/
def uriLimit : Nat := 65534

/-- The greatest length of a scheme other than the two usual ones. -/
def schemeLimit : Nat := 64

/-- Whether the number of a character lies between two others. -/
def between (low high : Nat) (c : Char) : Bool := low ≤ c.toNat && c.toNat ≤ high

/-- Whether a character lies beyond ASCII. `U+007F` does not, and stands in no path and no query. -/
def isWide (c : Char) : Bool := 0x80 ≤ c.toNat

def isPathChar (c : Char) : Bool :=
  c == '!' || c == '"' || between 0x24 0x3B c || c == '=' || between 0x40 0x5F c ||
    between 0x61 0x7C c || c == '\x7d' || c == '~' || isWide c

def isQueryChar (c : Char) : Bool :=
  c == '!' || between 0x24 0x3B c || c == '=' || between 0x3F 0x7E c || isWide c

def isSchemeChar (c : Char) : Bool :=
  c.isAlphanum || c == '+' || c == '-' || c == '.' || c == '~'

/-- Whether a character may stand in a URI without an escape. -/
def isUriChar (c : Char) : Bool :=
  c.isAlphanum || c ∈ "!#$&'()*+,-./:;=?@[]_~".toList

/-- The path of a text with a path, a query and a fragment. A fragment is cut off unseen. -/
def readPath (text : List Char) : Except UriProblem (List Char) :=
  let path := text.takeWhile fun c => c != '?' && c != '#'
  let query := ((text.drop path.length).takeWhile (· != '#')).drop 1
  if path.all isPathChar && query.all isQueryChar then .ok path else .error .invalidChar

/-- What has been seen of an authority. -/
structure Seen where
  colons : Nat := 0
  opened : Bool := false
  closed : Bool := false
  percent : Bool := false
  /-- Whether the character before is an at sign. -/
  atSign : Bool := false

/-- Passes one character of an authority. An at sign or a closing bracket makes the colons and the
percent signs before it part of something else than a host. -/
def Seen.pass (seen : Seen) (c : Char) : Except UriProblem Seen :=
  let seen := { seen with atSign := false }
  if c = ':' then
    if 8 ≤ seen.colons then .error .invalidAuthority
    else .ok { seen with colons := seen.colons + 1 }
  else if c = '[' then
    if seen.percent || seen.opened then .error .invalidAuthority
    else .ok { seen with opened := true }
  else if c = ']' then
    if !seen.opened || seen.closed then .error .invalidAuthority
    else .ok { seen with closed := true, colons := 0, percent := false }
  else if c = '@' then .ok { seen with colons := 0, percent := false, atSign := true }
  else if c = '%' then .ok { seen with percent := true }
  else if isUriChar c then .ok seen
  else .error .invalidChar

/-- Passes an authority, which ends before a path, a query or a fragment, and leaves the rest. -/
def passAuthority (seen : Seen) (text : List Char) : Except UriProblem (Seen × List Char) :=
  match text with
  | [] => .ok (seen, [])
  | c :: rest =>
    if c = '/' ∨ c = '?' ∨ c = '#' then .ok (seen, c :: rest)
    else
      match seen.pass c with
      | .error e => .error e
      | .ok seen => passAuthority seen rest

/-- The text after the authority at its start. -/
def readAuthority (text : List Char) : Except UriProblem (List Char) :=
  match passAuthority {} text with
  | .error e => .error e
  | .ok (seen, rest) =>
    if seen.opened != seen.closed || 1 < seen.colons || seen.atSign || seen.percent then
      .error .invalidAuthority
    else .ok rest

/-- A text without the given start, whose letters may be of either case. -/
def dropIgnoringCase? (start text : List Char) : Option (List Char) :=
  if (text.take start.length).map Char.toLower = start then some (text.drop start.length) else none

/-- The text after the scheme at its start, if it has one. -/
def readScheme (text : List Char) : Except UriProblem (Option (List Char)) :=
  match dropIgnoringCase? "http://".toList text, dropIgnoringCase? "https://".toList text with
  | some rest, _ | none, some rest => .ok (some rest)
  | none, none =>
    let scheme := text.takeWhile isSchemeChar
    match text.drop scheme.length with
    | ':' :: '/' :: '/' :: rest =>
      if Text.utf8Length text ≤ 3 then .ok none
      else if schemeLimit < scheme.length then .error .schemeTooLong
      else .ok (some rest)
    | _ => .ok none

/-- The path of a target that does not start with its path. Without a scheme it is an authority alone,
and has no path; with one it has the path `/` if it gives none. -/
def readAbsolute (text : List Char) : Except UriProblem (List Char) :=
  match readScheme text with
  | .error e => .error e
  | .ok none =>
    match readAuthority text with
    | .error e => .error e
    | .ok rest => if rest = [] then .ok [] else .error .invalidFormat
  | .ok (some text) =>
    if text = [] then .error .empty
    else
      match readAuthority text with
      | .error e => .error e
      | .ok rest =>
        if rest.length = text.length then .error .invalidFormat
        else
          match readPath rest with
          | .error e => .error e
          | .ok path => .ok (if path = [] then ['/'] else path)

/-- The path of a target of one character that is neither a slash nor an asterisk. -/
def readSingle (c : Char) : Except UriProblem (List Char) :=
  match readAuthority [c] with
  | .error e => .error e
  | .ok rest => if rest = [] then .ok [] else .error .invalidChar

/-- The path of a request target, as it is sent. -/
def pathOfTarget (target : List Char) : Except UriProblem (List Char) :=
  if uriLimit < Text.utf8Length target then .error .tooLong
  else
    match target with
    | [] => .error .empty
    | ['*'] => .ok ['*']
    | '/' :: rest => readPath ('/' :: rest)
    | [c] => readSingle c
    | text => readAbsolute text

end TransactionLookup.Http
