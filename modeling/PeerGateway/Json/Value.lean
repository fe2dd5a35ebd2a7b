import PeerGateway.Json.Container

/-!
# JSON values

The type of JSON values, their compact text and their reader. An object keeps its
members in order, a repeated name included; `Json.member?` finds the last of a name.
A value opens at most a given number of containers inside each other.
-/

namespace PeerGateway

/-- A JSON value. -/
inductive Json
  | null
  | flag (b : Bool)
  | number (n : Json.Number)
  | text (s : String)
  | list (elements : List Json)
  | object (members : List (String × Json))

namespace Json

instance : Inhabited Json := ⟨.null⟩

/-! ## Text -/

/-- The bytes that stand for a character inside a string. -/
def escaped (c : Char) : Bytes :=
  let short (letter : Char) : Bytes := [Bytes.ascii '\\', Bytes.ascii letter]
  if c = '"' then short '"'
  else if c = '\\' then short '\\'
  else if c.toNat = 0x08 then short 'b'
  else if c.toNat = 0x0C then short 'f'
  else if c.toNat = 0x0A then short 'n'
  else if c.toNat = 0x0D then short 'r'
  else if c.toNat = 0x09 then short 't'
  else if c.toNat < 0x20 then
    Bytes.ofString "\\u00" ++ Bytes.ofChars (Bytes.hexPair (UInt8.ofNat c.toNat))
  else String.utf8EncodeChar c

/-- A string in quotes. -/
def quoted (s : String) : Bytes :=
  Bytes.ascii '"' :: s.toList.flatMap escaped ++ [Bytes.ascii '"']

/-- A natural number in decimal. -/
def decimal (n : Nat) : Bytes := Bytes.ofChars (Nat.toDigits 10 n)

/-- A truth value. -/
def flagText (b : Bool) : Bytes := Bytes.ofString (if b then "true" else "false")

/-- The null value. -/
def nullText : Bytes := Bytes.ofString "null"

/-- A binary64 number; `null` if the word stands for none or for an infinity. -/
def realText (x : Binary64) : Bytes :=
  match x.text? with
  | some t => Bytes.ofString t
  | none => nullText

/-- Pieces with a comma between any two. -/
def separated : List Bytes → Bytes
  | [] => []
  | [p] => p
  | p :: q :: rest => p ++ Bytes.ascii ',' :: separated (q :: rest)

/-- A list of written elements. -/
def bracketed (elements : List Bytes) : Bytes :=
  Bytes.ascii '[' :: separated elements ++ [Bytes.ascii ']']

/-- A member from its name and written value. -/
def memberText (name : String) (value : Bytes) : Bytes := quoted name ++ Bytes.ascii ':' :: value

/-- An object of written members. -/
def braced (members : List Bytes) : Bytes :=
  Bytes.ascii '{' :: separated members ++ [Bytes.ascii '}']

/-- A number in decimal. -/
def Number.text : Number → Bytes
  | .whole n => decimal n.toNat
  | .negative i => if i < 0 then Bytes.ascii '-' :: decimal i.natAbs else decimal i.natAbs
  | .real x => realText x

mutual

/-- The compact text of a value. -/
def bytes : Json → Bytes
  | .null => nullText
  | .flag b => flagText b
  | .number n => n.text
  | .text s => quoted s
  | .list es => bracketed (elementBytes es)
  | .object ms => braced (memberBytes ms)

def elementBytes : List Json → List Bytes
  | [] => []
  | e :: es => e.bytes :: elementBytes es

def memberBytes : List (String × Json) → List Bytes
  | [] => []
  | (name, v) :: ms => memberText name v.bytes :: memberBytes ms

end

/-! ## Reading -/

/-- Reads a number whose first byte, a digit or a minus sign, is given. -/
def readNumber (b : UInt8) (rest : Bytes) : Except Fault (Number × Bytes) :=
  if b = Bytes.ascii '-' then numberRest true rest else numberRest false (b :: rest)

/-- Reads the members of an object after its opening brace, and the closing one. -/
def readMembers (bound : Nat) (value : Bytes → Except Fault (Json × Bytes)) :
    Nat → Bool → List (String × Json) → Bytes → Except Fault (List (String × Json) × Bytes)
  | 0, _, _, _ => .error .malformed
  | fuel + 1, first, read, s =>
    match nextMember bound first s with
    | .error f => .error f
    | .ok none =>
      match closeObject s with
      | .error f => .error f
      | .ok s => .ok (read.reverse, s)
    | .ok (some (name, s)) =>
      match colon s with
      | .error f => .error f
      | .ok s =>
        match value s with
        | .error f => .error f
        | .ok (v, s) => readMembers bound value fuel false ((name, v) :: read) s

/-- Reads a value that opens at most `depth` containers inside each other. -/
def read (bound : Nat) (depth : Nat) (s : Bytes) : Except Fault (Json × Bytes) :=
  let literal (v : Json) (letters : String) (rest : Bytes) : Except Fault (Json × Bytes) :=
    match literalRest (Bytes.ofString letters) rest with
    | .error f => .error f
    | .ok s => .ok (v, s)
  match skipBlank s with
  | [] => .error .ended
  | b :: rest =>
    if b = Bytes.ascii 'n' then literal .null "ull" rest
    else if b = Bytes.ascii 't' then literal (.flag true) "rue" rest
    else if b = Bytes.ascii 'f' then literal (.flag false) "alse" rest
    else if b = Bytes.ascii '-' || Bytes.isDigit b then
      match readNumber b rest with
      | .error f => .error f
      | .ok (n, s) => .ok (.number n, s)
    else if b = Bytes.ascii '"' then
      match stringRest bound rest with
      | .error f => .error f
      | .ok (t, s) => .ok (.text t, s)
    else if b = Bytes.ascii '[' then
      match depth with
      | 0 => .error .malformed
      | depth + 1 =>
        match elements (read bound depth) (bound + 1) true [] rest with
        | .error f => .error f
        | .ok (es, s) => .ok (.list es, s)
    else if b = Bytes.ascii '{' then
      match depth with
      | 0 => .error .malformed
      | depth + 1 =>
        match readMembers bound (read bound depth) (bound + 1) true [] rest with
        | .error f => .error f
        | .ok (ms, s) => .ok (.object ms, s)
    else .error .malformed

/-- Only blanks are left. -/
def atEnd (s : Bytes) : Bool := (skipBlank s).isEmpty

/-- The greatest number of containers inside each other in a text that is read. -/
def depthLimit : Nat := 127

/-- Reads a whole text with a reader for its one value. -/
def whole {α : Type} (value : Bytes → Except Fault (α × Bytes)) (s : Bytes) : Except Fault α :=
  match value s with
  | .error f => .error f
  | .ok (a, s) => if atEnd s then .ok a else .error .malformed

/-- Reads a whole text as a value. -/
def parse (s : Bytes) : Except Fault Json := whole (read s.length depthLimit) s

/-! ## Access -/

/-- The last member of a name in an object. -/
def member? (name : String) : Json → Option Json
  | .object ms => (ms.reverse.find? (·.1 = name)).map (·.2)
  | _ => none

/-- The string that a value is. -/
def text? : Json → Option String
  | .text s => some s
  | _ => none

end Json

end PeerGateway
