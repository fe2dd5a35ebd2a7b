import PeerGateway.Text.Digit
import PeerGateway.Toml.Basic

/-!
# Scalars of TOML

Readers of strings, keys, numbers and times. Each takes characters off the front and
gives back the rest. A number or time is first taken as a whole word (`takeWord?`), for
nothing but a delimiter may follow it.
-/

namespace PeerGateway

namespace Toml

/-- A space or a tab. -/
def isSpace (c : Char) : Bool := c == ' ' || c == '\t'

/-- A character that may stand in a comment: a tab, or any but the control characters. -/
def isPrintable (c : Char) : Bool := c == '\t' || (decide (' ' ≤ c) && c != '\x7f')

/-- Leaves out spaces and tabs. -/
def skipSpaces (s : List Char) : List Char := s.dropWhile isSpace

/-- Takes the end of a line. -/
def takeNewline? : List Char → Option (List Char)
  | '\n' :: rest => some rest
  | '\r' :: '\n' :: rest => some rest
  | _ => none

/-- Leaves out spaces, ends of lines and, if there may be any, comments. -/
def skipLines (comments : Bool) : Bool → List Char → List Char
  | _, [] => []
  | within, c :: rest =>
    if c = '\n' then skipLines comments false rest
    else if c = '\r' then
      if rest.head? = some '\n' then skipLines comments false rest else c :: rest
    else if within then
      if isPrintable c then skipLines comments true rest else c :: rest
    else if isSpace c then skipLines comments false rest
    else if comments && c = '#' then skipLines comments true rest
    else c :: rest

/-- Takes the rest of a line that may only hold a comment. -/
def takeLineEnd? (s : List Char) : Option (List Char) :=
  let s := match skipSpaces s with
    | '#' :: rest => rest.dropWhile isPrintable
    | s => s
  if s.isEmpty then some [] else takeNewline? s

/-! ## Strings and keys -/

/-- The character of exactly `count` hexadecimal digits in front. -/
def takeCode? (count : Nat) (s : List Char) : Option (Char × List Char) := do
  if (s.take count).length = count then
    let code ← numberIn? 16 (s.take count)
    return (← charOf? code, s.drop count)
  else none

/-- The character that a backslash and what follows it stand for. -/
def takeEscape? : List Char → Option (Char × List Char)
  | 'b' :: rest => some ('\x08', rest)
  | 't' :: rest => some ('\t', rest)
  | 'n' :: rest => some ('\n', rest)
  | 'f' :: rest => some ('\x0c', rest)
  | 'r' :: rest => some ('\r', rest)
  | '"' :: rest => some ('"', rest)
  | '\\' :: rest => some ('\\', rest)
  | 'u' :: rest => takeCode? 4 rest
  | 'U' :: rest => takeCode? 8 rest
  | _ => none

/-- Reads the rest of a string up to its closing quotes. A `long` one runs over lines and
closes with three quotes, up to two more of which belong to it; backslashes have a
meaning only between double quotes. -/
def stringRest (quote : Char) (long : Bool) :
    Nat → List Char → List Char → Option (String × List Char)
  | 0, _, _ => none
  | _ + 1, _, [] => none
  | fuel + 1, read, c :: rest =>
    if c = quote then
      if long then
        let count := ((c :: rest).takeWhile (· = quote)).length
        let after := (c :: rest).drop count
        if count < 3 then stringRest quote long fuel (List.replicate count quote ++ read) after
        else if count < 6 then
          some (String.ofList (List.replicate (count - 3) quote ++ read).reverse, after)
        else none
      else some (String.ofList read.reverse, rest)
    else if c = '\\' && quote = '"' then
      match takeEscape? rest with
      | some (d, rest) => stringRest quote long fuel (d :: read) rest
      | none =>
        match takeNewline? (skipSpaces rest) with
        | some rest =>
          if long then stringRest quote long fuel read (skipLines false false rest) else none
        | none => none
    else if isPrintable c then stringRest quote long fuel (c :: read) rest
    else
      match takeNewline? (c :: rest) with
      | some rest => if long then stringRest quote long fuel ('\n' :: read) rest else none
      | none => none

/-- Reads a string on one line. -/
def takeShort? : List Char → Option (String × List Char)
  | '"' :: rest => stringRest '"' false (rest.length + 1) [] rest
  | '\'' :: rest => stringRest '\'' false (rest.length + 1) [] rest
  | _ => none

/-- Reads a string, on one line or on many; the latter may start on a new line. -/
def takeString? (s : List Char) : Option (String × List Char) :=
  let long (quote : Char) (rest : List Char) : Option (String × List Char) :=
    stringRest quote true (rest.length + 1) [] ((takeNewline? rest).getD rest)
  match s with
  | '"' :: '"' :: '"' :: rest => long '"' rest
  | '\'' :: '\'' :: '\'' :: rest => long '\'' rest
  | s => takeShort? s

/-- A character of a key without quotes. -/
def isKeyChar (c : Char) : Bool := c.isAlphanum || c == '-' || c == '_'

/-- Reads one part of a key. -/
def takeKeyPart? (s : List Char) : Option (String × List Char) :=
  match takeShort? s with
  | some r => some r
  | none =>
    let word := s.takeWhile isKeyChar
    if word.isEmpty then none else some (String.ofList word, s.dropWhile isKeyChar)

/-- Reads the parts of a key, with points between, and the spaces around them. -/
def takeKeyParts? : Nat → List Char → Option (List String × List Char)
  | 0, _ => none
  | fuel + 1, s => do
    let (part, s) ← takeKeyPart? (skipSpaces s)
    match skipSpaces s with
    | '.' :: rest =>
      let (parts, s) ← takeKeyParts? fuel rest
      return (part :: parts, s)
    | s => return ([part], s)

/-- How deep keys and values may be nested, less one. -/
def nestingLimit : Nat := 79

/-- Reads a key: the parts above the last one, and that. -/
def takeKey? (s : List Char) : Option ((List String × String) × List Char) := do
  let (parts, s) ← takeKeyParts? nestingLimit s
  let last ← parts.getLast?
  return ((parts.dropLast, last), s)

/-! ## Numbers -/

/-- The digits of a number; there may be single underscores between them. -/
def grouped? (digit : Char → Bool) : List Char → Option (List Char)
  | [] => none
  | [c] => if digit c then some [c] else none
  | c :: '_' :: rest => if digit c then (grouped? digit rest).map (c :: ·) else none
  | c :: rest => if digit c then (grouped? digit rest).map (c :: ·) else none

/-- The digits of a decimal number without leading zeros. -/
def plainDigits? (cs : List Char) : Option (List Char) :=
  (grouped? Binary64.isDigit cs).filter fun ds => ds.length = 1 || ds.head? != some '0'

/-- A sign, plus if there is none, and the rest. -/
def signed : List Char → Bool × List Char
  | '-' :: rest => (true, rest)
  | '+' :: rest => (false, rest)
  | cs => (false, cs)

/-- The number that digits in a base are. -/
def valueIn? (base : Nat) (cs : List Char) : Option Int :=
  (grouped? (fun c => (digitIn? base c).isSome) cs).bind fun ds =>
    (numberIn? base ds).map Int.ofNat

/-- The whole number that a word is: decimal with a sign or without, or without a sign in
the base that its start says. It must be a signed 64-bit word. -/
def whole? (word : List Char) : Option Int :=
  let value := match word with
    | '0' :: 'x' :: cs => valueIn? 16 cs
    | '0' :: 'o' :: cs => valueIn? 8 cs
    | '0' :: 'b' :: cs => valueIn? 2 cs
    | cs =>
      let (minus, cs) := signed cs
      (plainDigits? cs).map fun ds =>
        let n : Int := Binary64.digitsValue ds
        if minus then -n else n
  value.filter fun n => -0x8000000000000000 ≤ n && n < 0x8000000000000000

/-- A character that starts the exponent of a number. -/
def isExponentMark (c : Char) : Bool := c == 'e' || c == 'E'

/-- The digits of an exponent with its sign. -/
def exponent? : List Char → Option (List Char)
  | '-' :: cs => (grouped? Binary64.isDigit cs).map ('-' :: ·)
  | '+' :: cs => grouped? Binary64.isDigit cs
  | cs => grouped? Binary64.isDigit cs

/-- The number that a word is: decimal with a fraction, an exponent or both, an infinity
or the word for no number. A decimal too great is refused, unless it is negative. -/
def real? (word : List Char) : Option Binary64 :=
  let (minus, cs) := signed word
  if cs = "inf".toList then some (.make minus Binary64.infiniteMagnitude)
  else if cs = "nan".toList then some (.quietNaN minus)
  else do
    let front := cs.takeWhile fun c => !isExponentMark c
    let tail := cs.dropWhile fun c => !isExponentMark c
    let whole ← plainDigits? (front.takeWhile (· ≠ '.'))
    let fraction ← match front.dropWhile (· ≠ '.') with
      | [] => some []
      | _ :: ds => (grouped? Binary64.isDigit ds).map ('.' :: ·)
    let exponent ← match tail with
      | [] => some []
      | _ :: ds => (exponent? ds).map ('e' :: ·)
    if fraction.isEmpty && exponent.isEmpty then none
    else
      let x ← Binary64.parseUnsigned? minus (whole ++ fraction ++ exponent)
      if x.isInfinite && !x.negative then none else some x

/-! ## Times -/

/-- The number of exactly two digits in front, if it is from one bound to the other. -/
def takePair? (least most : Nat) : List Char → Option (List Char)
  | a :: b :: rest =>
    let n := Binary64.digitsValue [a, b]
    if Binary64.isDigit a && Binary64.isDigit b && decide (least ≤ n ∧ n ≤ most) then some rest
    else none
  | _ => none

/-- Takes a given character. -/
def takeMark? (c : Char) : List Char → Option (List Char)
  | [] => none
  | d :: rest => if d = c then some rest else none

/-- Takes a time of day. -/
def takeTime? (s : List Char) : Option (List Char) := do
  let s ← takeMark? ':' (← takePair? 0 23 s)
  let s ← takeMark? ':' (← takePair? 0 59 s)
  match ← takePair? 0 60 s with
  | '.' :: rest =>
    let after := rest.dropWhile Binary64.isDigit
    if after.length < rest.length then some after else none
  | s => some s

/-- Takes the offset of a time from universal time, if there is one. -/
def takeOffset? : List Char → Option (List Char)
  | 'Z' :: rest => some rest
  | 'z' :: rest => some rest
  | '+' :: rest => takeHourMinute rest
  | '-' :: rest => takeHourMinute rest
  | s => some s
where
  /-- Takes hours and minutes. -/
  takeHourMinute (s : List Char) : Option (List Char) := do
    takePair? 0 59 (← takeMark? ':' (← takePair? 0 23 s))

/-- The number of days of a month. -/
def daysIn (year month : Nat) : Nat :=
  if month = 2 then
    if year % 4 = 0 ∧ (year % 100 ≠ 0 ∨ year % 400 = 0) then 29 else 28
  else if month = 4 ∨ month = 6 ∨ month = 9 ∨ month = 11 then 30
  else 31

/-- Takes a date that there is. -/
def takeDate? (s : List Char) : Option (List Char) := do
  let year := s.take 4
  if year.length = 4 && year.all Binary64.isDigit then
    let months ← takeMark? '-' (s.drop 4)
    let days ← takeMark? '-' (← takePair? 1 12 months)
    takePair? 1 (daysIn (Binary64.digitsValue year) (Binary64.digitsValue (months.take 2))) days
  else none

/-- A character of a number or a time. -/
def isScalarChar (c : Char) : Bool :=
  c.isAlphanum || c == '-' || c == '_' || c == '+' || c == '.' || c == ':'

/-- What a word followed by `rest` leaves of it, if it is a time of day, a date or both; a
time may follow its date after a space. -/
def takeMoment? (word rest : List Char) : Option (List Char) :=
  if takeTime? word = some [] then some rest
  else do
    let ended (s : List Char) : Bool := (takeTime? s).bind takeOffset? = some []
    match ← takeDate? word with
    | [] =>
      match rest with
      | ' ' :: c :: more =>
        if Binary64.isDigit c then
          if ended ((c :: more).takeWhile isScalarChar) then
            some ((c :: more).dropWhile isScalarChar)
          else none
        else some rest
      | _ => some rest
    | c :: clock => if (c = 'T' || c = 't') && ended clock then some rest else none

/-- Reads a value that is no string, list or table. -/
def takeWord? (s : List Char) : Option (Toml × List Char) :=
  let word := s.takeWhile isScalarChar
  let rest := s.dropWhile isScalarChar
  if word = "true".toList then some (.flag true, rest)
  else if word = "false".toList then some (.flag false, rest)
  else
    match whole? word with
    | some i => some (.whole i, rest)
    | none =>
      match real? word with
      | some x => some (.real x, rest)
      | none => (takeMoment? word rest).map fun rest => (.time, rest)

end Toml

end PeerGateway
