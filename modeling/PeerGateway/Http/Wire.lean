import PeerGateway.Http.Url

/-!
# HTTP on a connection

The bytes of a request on a connection that serves it alone (`Request.bytes`), and the
response that the bytes of the other direction are once the connection is closed
(`Response.ofBytes?`). A body comes in chunks, or with its length, or ends with the
connection.
-/

namespace PeerGateway.Http

/-- The end of a line. -/
def lineEnd : String := "\r\n"

/-- The text of a host in a request. -/
def Host.text : Host → String
  | .name text => text
  | .ip (.v4 a b c d) => Ip.v4Text a b c d
  | .ip address => "[" ++ address.text ++ "]"

/-- The host and port of an address in a request; the usual port goes without saying. -/
def Url.hostText (u : Url) : String :=
  if u.port = 80 then u.host.text else u.host.text ++ ":" ++ toString u.port

/-- The bytes of a request to the host of an address. -/
def Request.bytes (r : Request) (u : Url) : ByteArray :=
  let line (f : String × String) : String := f.1 ++ ": " ++ f.2 ++ lineEnd
  let length := if r.body.isEmpty then [] else [("content-length", toString r.body.size)]
  let fields := [("host", u.hostText), ("connection", "close")] ++ length ++ r.headers
  let head := r.method ++ " " ++ r.target.text ++ " HTTP/1.1" ++ lineEnd ++
    String.join (fields.map line) ++ lineEnd
  head.toUTF8 ++ r.body

/-- Takes a line off the front, without its end. -/
def takeLine : Bytes → Option (Bytes × Bytes)
  | [] => none
  | 13 :: 10 :: rest => some ([], rest)
  | b :: rest => (takeLine rest).map fun (line, rest) => (b :: line, rest)

/-- Takes lines off the front up to an empty one, as many as `limit` at most. -/
def takeHead : Nat → Bytes → Option (List Bytes × Bytes)
  | 0, _ => none
  | limit + 1, s =>
    match takeLine s with
    | none => none
    | some ([], rest) => some ([], rest)
    | some (line, rest) => (takeHead limit rest).map fun (lines, rest) => (line :: lines, rest)

/-- The field of a line: a name, a colon and a value. -/
def field? (line : Bytes) : Option (String × String) := do
  let cs := (← Bytes.text? line).toList
  let name := cs.takeWhile (· ≠ ':')
  let value := (cs.dropWhile (· ≠ ':')).drop 1
  return (String.ofList (name.map Char.toLower), String.ofList (trimmed value))

/-- The status in the first line of a response. -/
def status? (line : Bytes) : Option Nat := do
  match splitAtChar ' ' (← Bytes.text? line).toList with
  | _ :: code :: _ => (String.ofList code).toNat?
  | _ => none

/-- The body that chunks make up, as many as `limit` at most. -/
def unchunked : Nat → Bytes → Option Bytes
  | 0, _ => none
  | limit + 1, s => do
    let (line, rest) ← takeLine s
    let digits := line.takeWhile fun b => (Bytes.hexValue? b).isSome
    let size := digits.foldl (fun n b => n * 16 + (Bytes.hexValue? b).getD 0) 0
    if digits.isEmpty || rest.length < size then none
    else if size = 0 then some []
    else return rest.take size ++ (← unchunked limit (rest.drop (size + 2)))

/-- The body of a response with given fields. -/
def bodyOf? (fields : Headers) (s : Bytes) : Option Bytes :=
  if fields.any fun f => f.1 = "transfer-encoding" && f.2.toLower = "chunked" then
    unchunked (s.length + 1) s
  else
    match (fields.lookup "content-length").bind String.toNat? with
    | some n => if s.length < n then none else some (s.take n)
    | none => some s

/-- The response that the bytes of a connection are. -/
def Response.ofBytes? (s : Bytes) : Option Response := do
  match ← takeHead (s.length + 1) s with
  | (first :: lines, rest) =>
    let headers := lines.filterMap field?
    let body ← bodyOf? headers rest
    return { status := ← status? first, headers, body := ⟨body.toArray⟩ }
  | _ => none

end PeerGateway.Http
