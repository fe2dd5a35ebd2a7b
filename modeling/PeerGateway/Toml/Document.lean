import PeerGateway.Toml.Scalar

/-!
# TOML documents

A document is a sequence of statements: headers, which say the table that is current, and
settings of keys in the current table. `Toml.parse?` reads a document into its table.
-/

namespace PeerGateway

namespace Toml

/-! ## Values -/

/-- Reads the elements of a list after its bracket, with commas between and perhaps one
more at the end. -/
def takeElements? (value : List Char → Option (Toml × List Char)) :
    Nat → List Toml → List Char → Option (List Toml × List Char)
  | 0, _, _ => none
  | fuel + 1, read, s =>
    match skipLines true false s with
    | ']' :: rest => some (read.reverse, rest)
    | s =>
      match value s with
      | none => none
      | some (v, s) =>
        match skipLines true false s with
        | ',' :: rest => takeElements? value fuel (v :: read) rest
        | ']' :: rest => some ((v :: read).reverse, rest)
        | _ => none

/-- Reads the members of a table after its brace, at least one. -/
def takeMembers? (value : List Char → Option (Toml × List Char)) :
    Nat → Members → List Char → Option (Members × List Char)
  | 0, _, _ => none
  | fuel + 1, read, s =>
    match takeKey? s with
    | some ((above, key), '=' :: rest) =>
      match value (skipSpaces rest) with
      | none => none
      | some (v, s) =>
        match read.put above key v .braces with
        | none => none
        | some read =>
          match skipSpaces s with
          | ',' :: rest => takeMembers? value fuel read rest
          | '}' :: rest => some (read, rest)
          | _ => none
    | _ => none

/-- Reads a value in which at most `room` lists and tables lie one in the other. -/
def takeValue? : Nat → List Char → Option (Toml × List Char)
  | _, '"' :: rest => (takeString? ('"' :: rest)).map fun (v, s) => (.text v, s)
  | _, '\'' :: rest => (takeString? ('\'' :: rest)).map fun (v, s) => (.text v, s)
  | 0, '[' :: _ => none
  | 0, '{' :: _ => none
  | room + 1, '[' :: rest =>
    (takeElements? (takeValue? room) (rest.length + 1) [] rest).map fun (es, s) => (.list es, s)
  | room + 1, '{' :: rest =>
    match skipSpaces rest with
    | '}' :: rest => some (.table .braces [], rest)
    | s =>
      (takeMembers? (takeValue? room) (s.length + 1) [] s).map fun (ms, s) =>
        (.table .braces ms, s)
  | _, s => takeWord? s

/-! ## Statements -/

/-- A line of a document, or the lines of one value. Keys are given as the parts above
the last one, and that. -/
inductive Statement
  /-- The header of a table. -/
  | table (above : List String) (key : String)
  /-- The header of an element of a list of tables. -/
  | element (above : List String) (key : String)
  /-- A key and its value. -/
  | setting (above : List String) (key : String) (value : Toml)

/-- Reads a statement without the end of its line. -/
def Statement.take? : List Char → Option (Statement × List Char)
  | '[' :: '[' :: rest =>
    match takeKey? rest with
    | some ((above, key), ']' :: ']' :: s) => some (.element above key, s)
    | _ => none
  | '[' :: rest =>
    match takeKey? rest with
    | some ((above, key), ']' :: s) => some (.table above key, s)
    | _ => none
  | s =>
    match takeKey? s with
    | some ((above, key), '=' :: rest) =>
      (takeValue? nestingLimit (skipSpaces rest)).map fun (v, s) => (.setting above key v, s)
    | _ => none

/-- Reads all statements. -/
def Statement.takeAll? : Nat → List Statement → List Char → Option (List Statement)
  | 0, _, _ => none
  | fuel + 1, read, s =>
    match skipLines true false s with
    | [] => some read.reverse
    | s =>
      match Statement.take? s with
      | none => none
      | some (statement, s) =>
        match takeLineEnd? s with
        | none => none
        | some s => takeAll? fuel (statement :: read) s

/-- The table of the statements so far and the path of the current table in it. -/
structure Draft where
  members : Members := []
  current : List String := []

/-- Adds a statement, if it may follow those before it. -/
def Draft.add (d : Draft) : Statement → Option Draft
  | .table above key =>
    (d.members.openTable above key).map fun ms => ⟨ms, above ++ [key]⟩
  | .element above key =>
    (d.members.openElement above key).map fun ms => ⟨ms, above ++ [key]⟩
  | .setting above key v =>
    (Members.amend .passed (fun origin ms => ms.put above key v origin) d.current .header
      d.members).map fun ms => { d with members := ms }

/-- The byte order mark, which a text may start with. -/
def byteOrderMark : Char := '\uFEFF'

/-- The table that a document is. -/
def parse? (text : String) : Option Toml := do
  let s := match text.toList with
    | c :: rest => if c = byteOrderMark then rest else c :: rest
    | [] => []
  let statements ← Statement.takeAll? (s.length + 1) [] s
  let d ← statements.foldlM Draft.add {}
  return .table .header d.members

end Toml

end PeerGateway
