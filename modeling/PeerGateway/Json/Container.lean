import PeerGateway.Json.Lexeme

/-!
# Lists and objects of JSON

The marks between elements and members, the loop over a list's elements, and the
skipping of a whole value of any depth with an explicit stack of open containers.

Loops take a bound on their number of steps. Each step reads at least one byte, so any
bound from the length of the text on is never reached.
-/

namespace PeerGateway

namespace Json

/-- Moves to the next element of a list, past the comma before any but the first. There
is none if the list closes here; its bracket is then left in place. -/
def nextElement (first : Bool) (s : Bytes) : Except Fault (Option Bytes) :=
  match skipBlank s with
  | [] => .error .ended
  | b :: rest =>
    if b = Bytes.ascii ']' then .ok none
    else if first then .ok (some (b :: rest))
    else if b = Bytes.ascii ',' then
      match skipBlank rest with
      | [] => .error .ended
      | c :: after => if c = Bytes.ascii ']' then .error .malformed else .ok (some (c :: after))
    else .error .malformed

/-- Closes a list. -/
def closeList (s : Bytes) : Except Fault Bytes :=
  match skipBlank s with
  | [] => .error .ended
  | b :: rest => if b = Bytes.ascii ']' then .ok rest else .error .malformed

/-- Moves to the next member of an object, past the comma before any but the first, and
reads its name. There is none if the object closes here; its brace is then left. -/
def nextMember (bound : Nat) (first : Bool) (s : Bytes) :
    Except Fault (Option (String × Bytes)) :=
  let name (s : Bytes) : Except Fault (Option (String × Bytes)) :=
    match stringRest bound s with
    | .error f => .error f
    | .ok (t, s) => .ok (some (t, s))
  match skipBlank s with
  | [] => .error .ended
  | b :: rest =>
    if b = Bytes.ascii '}' then .ok none
    else if first then
      if b = Bytes.ascii '"' then name rest else .error .malformed
    else if b = Bytes.ascii ',' then
      match skipBlank rest with
      | [] => .error .ended
      | c :: after => if c = Bytes.ascii '"' then name after else .error .malformed
    else .error .malformed

/-- Closes an object. -/
def closeObject (s : Bytes) : Except Fault Bytes :=
  match skipBlank s with
  | [] => .error .ended
  | b :: rest => if b = Bytes.ascii '}' then .ok rest else .error .malformed

/-- Reads the colon after a member's name. -/
def colon (s : Bytes) : Except Fault Bytes :=
  match skipBlank s with
  | [] => .error .ended
  | b :: rest => if b = Bytes.ascii ':' then .ok rest else .error .malformed

/-- Reads the elements of a list after its opening bracket, and the closing one. `read`
holds the elements read, last first. -/
def elements {α : Type} (element : Bytes → Except Fault (α × Bytes)) :
    Nat → Bool → List α → Bytes → Except Fault (List α × Bytes)
  | 0, _, _, _ => .error .malformed
  | fuel + 1, first, read, s =>
    match nextElement first s with
    | .error f => .error f
    | .ok none =>
      match closeList s with
      | .error f => .error f
      | .ok s => .ok (read.reverse, s)
    | .ok (some s) =>
      match element s with
      | .error f => .error f
      | .ok (a, s) => elements element fuel false (a :: read) s

/-! ## Skipping -/

/-- An open container. -/
inductive Open
  | list
  | object
  deriving DecidableEq

/-- Skips a member's name and colon. -/
def skipName (bound : Nat) (s : Bytes) : Except Fault Bytes :=
  match skipBlank s with
  | [] => .error .ended
  | b :: rest =>
    if b = Bytes.ascii '"' then
      match skipString (bound + 1) rest with
      | .error f => .error f
      | .ok s => colon s
    else .error .malformed

/-- Where the skipping of a value stands. -/
inductive Skipping
  /-- A value is due. -/
  | value
  /-- A container was just opened; it may close at once. -/
  | opened (c : Open)
  /-- A value inside the innermost open container is done. -/
  | done

/-- Skips the start of a value: a whole scalar, or the mark that opens a container. -/
def skipStart (bound : Nat) (s : Bytes) : Except Fault (Option Open × Bytes) :=
  let scalar (r : Except Fault Bytes) : Except Fault (Option Open × Bytes) :=
    match r with
    | .error f => .error f
    | .ok s => .ok (none, s)
  match skipBlank s with
  | [] => .error .ended
  | b :: rest =>
    if b = Bytes.ascii 'n' then scalar (literalRest (Bytes.ofString "ull") rest)
    else if b = Bytes.ascii 't' then scalar (literalRest (Bytes.ofString "rue") rest)
    else if b = Bytes.ascii 'f' then scalar (literalRest (Bytes.ofString "alse") rest)
    else if b = Bytes.ascii '-' then scalar (skipNumber rest)
    else if Bytes.isDigit b then scalar (skipNumber (b :: rest))
    else if b = Bytes.ascii '"' then scalar (skipString (bound + 1) rest)
    else if b = Bytes.ascii '[' then .ok (some .list, rest)
    else if b = Bytes.ascii '{' then .ok (some .object, rest)
    else .error .malformed

/-- The mark that closes a container. -/
def Open.mark : Open → UInt8
  | .list => Bytes.ascii ']'
  | .object => Bytes.ascii '}'

/-- Skips to the end of the outermost value, with the open containers innermost first. -/
def skipSteps (bound : Nat) : Nat → List Open → Skipping → Bytes → Except Fault Bytes
  | 0, _, _, _ => .error .malformed
  | fuel + 1, stack, .value, s =>
    match skipStart bound s with
    | .error f => .error f
    | .ok (none, s) => skipSteps bound fuel stack .done s
    | .ok (some c, s) => skipSteps bound fuel stack (.opened c) s
  | fuel + 1, stack, .opened c, s =>
    match skipBlank s with
    | [] => .error .ended
    | b :: rest =>
      if b = c.mark then skipSteps bound fuel stack .done rest
      else
        match c with
        | .list => skipSteps bound fuel (c :: stack) .value s
        | .object =>
          match skipName bound s with
          | .error f => .error f
          | .ok s => skipSteps bound fuel (c :: stack) .value s
  | _ + 1, [], .done, s => .ok s
  | fuel + 1, c :: stack, .done, s =>
    match skipBlank s with
    | [] => .error .ended
    | b :: rest =>
      if b = c.mark then skipSteps bound fuel stack .done rest
      else if b = Bytes.ascii ',' then
        match c with
        | .list => skipSteps bound fuel (c :: stack) .value rest
        | .object =>
          match skipName bound rest with
          | .error f => .error f
          | .ok s => skipSteps bound fuel (c :: stack) .value s
      else .error .malformed

/-- Skips a value. Every byte takes at most two steps. -/
def skipValue (bound : Nat) (s : Bytes) : Except Fault Bytes :=
  skipSteps bound (2 * bound + 2) [] .value s

end Json

end PeerGateway
