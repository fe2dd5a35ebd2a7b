import PeerGateway.Text.Blank
import PeerGateway.Text.Bytes

/-!
# HTTP messages

Requests and responses with their header fields and bodies. A request asks for a target
(`Target`): a path with a query, or more. Bodies are arrays of bytes, for they may be
large.
-/

namespace PeerGateway.Http

/-- Header fields in order. Names are in lower case. -/
abbrev Headers := List (String × String)

namespace Headers

/-- Whether a field of a name is there. -/
def has (h : Headers) (name : String) : Bool := h.any fun f => f.1 = name

/-- The fields of other names. -/
def without (h : Headers) (names : List String) : Headers := h.filter fun f => !names.contains f.1

/-- The fields with one more. -/
def add (h : Headers) (name value : String) : Headers := h ++ [(name, value)]

/-- The fields with one in the place of all of its name. -/
def set (h : Headers) (name value : String) : Headers := (h.without [name]).add name value

/-- Whether a text can be the value of a field: it has no control character but tabs. -/
def isValue (s : String) : Bool :=
  s.toList.all fun c => c = '\t' || (0x20 ≤ c.toNat && c.toNat ≠ 0x7F)

end Headers

/-- What a request asks for. -/
structure Target where
  /-- The scheme and the host, if they are named. -/
  origin : String := ""
  path : String
  query : Option String := none
  deriving DecidableEq, Repr

namespace Target

/-- A path and what follows its question mark, if it has one. -/
def splitQuery (s : List Char) : String × Option String :=
  let path := String.ofList (s.takeWhile (· ≠ '?'))
  match s.dropWhile (· ≠ '?') with
  | [] => (path, none)
  | _ :: query => (path, some (String.ofList query))

/-- How many characters in front are a scheme with two slashes and a host; none where the
text starts with its path. -/
def originLength (s : List Char) : Nat :=
  let scheme := (s.takeWhile (· ≠ '/')).length
  if s.head? = some '/' || s.head? = some '*' then 0
  else scheme + 2 + ((s.drop (scheme + 2)).takeWhile fun c => c ≠ '/' && c ≠ '?').length

/-- The schemes that are known in either case. -/
def knownSchemes : List (List Char) := ["http://".toList, "https://".toList]

/-- A scheme and a host, the scheme in lower case if it is a known one. -/
def originText (s : List Char) : String :=
  let lowered := s.map Char.toLower
  match knownSchemes.find? fun scheme => scheme.isPrefixOf lowered with
  | some scheme => String.ofList (scheme ++ s.drop scheme.length)
  | none => String.ofList s

/-- The target that a text names. What follows a number sign does not count. -/
def parse (s : String) : Target :=
  let cs := s.toList.takeWhile (· ≠ '#')
  let n := originLength cs
  let (path, query) := splitQuery (cs.drop n)
  { origin := originText (cs.take n), path, query }

/-- The query with its question mark. -/
def queryText (t : Target) : String :=
  match t.query with
  | some q => "?" ++ q
  | none => ""

/-- The path alone. One that is empty is the root, but a host without a scheme has none. -/
def pathText (t : Target) : String :=
  if t.path.isEmpty && (t.origin.isEmpty || t.origin.toList.contains '/') then "/" else t.path

/-- The path and the query. -/
def pathAndQuery (t : Target) : String :=
  let text := t.path ++ t.queryText
  if text.isEmpty then "/" else text

/-- The whole target. -/
def text (t : Target) : String := t.origin ++ t.pathText ++ t.queryText

end Target

/-- A request. -/
structure Request where
  method : String := "GET"
  target : Target
  headers : Headers := []
  body : ByteArray := .empty

/-- The answer to a request. -/
structure Response where
  status : Nat
  headers : Headers := []
  body : ByteArray := .empty

namespace Response

/-- An answer of plain text. -/
def ofText (status : Nat) (text : String) : Response where
  status
  headers := [("content-type", "text/plain; charset=utf-8")]
  body := text.toUTF8

/-- An answer of JSON text. -/
def ofJson (text : Bytes) : Response where
  status := 200
  headers := [("content-type", "application/json")]
  body := ⟨text.toArray⟩

/-- Whether the answer says that the request failed. -/
def isError (r : Response) : Bool := 400 ≤ r.status

/-- Whether the answer says that the request succeeded. -/
def isSuccess (r : Response) : Bool := 200 ≤ r.status && r.status < 300

end Response

end PeerGateway.Http
