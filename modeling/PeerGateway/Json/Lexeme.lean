import PeerGateway.Text.Bytes
import PeerGateway.Binary64.Decimal

/-!
# The lexemes of JSON

Reading is from the front of a byte sequence and stops at the first fault. There are
three kinds of fault (`Json.Fault`): the text ended early, the text is no JSON, or the
text is JSON so far but not what was asked for.

A lexeme is read in one of two ways. One that is *kept* is checked in full: a string
must be UTF-8 with its surrogates in pairs, a number must be in range. One that is
*skipped* is only measured.
-/

namespace PeerGateway

namespace Json

/-- Why a text was not read. -/
inductive Fault
  /-- The text ended early. -/
  | ended
  /-- The text is no JSON, or a number is out of range, or nesting is too deep. -/
  | malformed
  /-- The text is JSON so far, but of a wrong type, or with a member missing or twice. -/
  | mismatched
  deriving DecidableEq, Repr

/-- The bytes after leading blanks. -/
def skipBlank : Bytes → Bytes
  | [] => []
  | b :: rest =>
    if b = 0x20 || b = 0x0A || b = 0x09 || b = 0x0D then skipBlank rest else b :: rest

/-- Reads the remaining letters of a literal name. -/
def literalRest : Bytes → Bytes → Except Fault Bytes
  | [], s => .ok s
  | _ :: _, [] => .error .ended
  | c :: cs, b :: rest => if b = c then literalRest cs rest else .error .malformed

/-! ## Strings -/

/-- Reads four hexadecimal digits. Too few bytes are an early end, whatever they are. -/
def hexQuad : Bytes → Except Fault (Nat × Bytes)
  | a :: b :: c :: d :: rest =>
    match Bytes.hexValue? a, Bytes.hexValue? b, Bytes.hexValue? c, Bytes.hexValue? d with
    | some a, some b, some c, some d => .ok (((a * 16 + b) * 16 + c) * 16 + d, rest)
    | _, _, _, _ => .error .malformed
  | _ => .error .ended

/-- The character that a one-letter escape stands for. -/
def shortEscape? (b : UInt8) : Option UInt8 :=
  if b = Bytes.ascii '"' then some 0x22
  else if b = Bytes.ascii '\\' then some 0x5C
  else if b = Bytes.ascii '/' then some 0x2F
  else if b = Bytes.ascii 'b' then some 0x08
  else if b = Bytes.ascii 'f' then some 0x0C
  else if b = Bytes.ascii 'n' then some 0x0A
  else if b = Bytes.ascii 'r' then some 0x0D
  else if b = Bytes.ascii 't' then some 0x09
  else none

/-- Reads the trailing surrogate that must follow a leading one. -/
def trailingSurrogate (lead : Nat) : Bytes → Except Fault (Char × Bytes)
  | [] => .error .ended
  | b :: s =>
    if b = Bytes.ascii '\\' then
      match s with
      | [] => .error .ended
      | u :: s =>
        if u = Bytes.ascii 'u' then
          match hexQuad s with
          | .error f => .error f
          | .ok (trail, s) =>
            if 0xDC00 ≤ trail ∧ trail ≤ 0xDFFF then
              .ok (Char.ofNat (0x10000 + (lead - 0xD800) * 0x400 + (trail - 0xDC00)), s)
            else .error .malformed
        else .error .malformed
    else .error .malformed

/-- Reads the digits of a character's escape, and those of its second surrogate. -/
def unicodeEscape (s : Bytes) : Except Fault (Char × Bytes) :=
  match hexQuad s with
  | .error f => .error f
  | .ok (unit, s) =>
    if 0xDC00 ≤ unit ∧ unit ≤ 0xDFFF then .error .malformed
    else if 0xD800 ≤ unit ∧ unit ≤ 0xDBFF then trailingSurrogate unit s
    else .ok (Char.ofNat unit, s)

/-- Reads what follows a backslash as UTF-8 bytes. -/
def escape : Bytes → Except Fault (Bytes × Bytes)
  | [] => .error .ended
  | b :: s =>
    if b = Bytes.ascii 'u' then
      match unicodeEscape s with
      | .error f => .error f
      | .ok (c, s) => .ok (String.utf8EncodeChar c, s)
    else
      match shortEscape? b with
      | some c => .ok ([c], s)
      | none => .error .malformed

/-- Reads a string's content up to its closing quote. `read` holds what was read, last
byte first; `fuel` bounds the number of steps. -/
def stringContent : Nat → Bytes → Bytes → Except Fault (Bytes × Bytes)
  | 0, _, _ => .error .ended
  | _ + 1, _, [] => .error .ended
  | fuel + 1, read, b :: s =>
    if b = Bytes.ascii '"' then .ok (read.reverse, s)
    else if b = Bytes.ascii '\\' then
      match escape s with
      | .error f => .error f
      | .ok (c, s) => stringContent fuel (c.reverseAux read) s
    else if b < 0x20 then .error .malformed
    else stringContent fuel (b :: read) s

/-- Reads the rest of a kept string, after its opening quote. -/
def stringRest (bound : Nat) (s : Bytes) : Except Fault (String × Bytes) :=
  match stringContent (bound + 1) [] s with
  | .error f => .error f
  | .ok (content, s) =>
    match Bytes.text? content with
    | some t => .ok (t, s)
    | none => .error .malformed

/-- Skips the rest of a string, after its opening quote. -/
def skipString : Nat → Bytes → Except Fault Bytes
  | 0, _ => .error .ended
  | _ + 1, [] => .error .ended
  | fuel + 1, b :: s =>
    if b = Bytes.ascii '"' then .ok s
    else if b = Bytes.ascii '\\' then
      match s with
      | [] => .error .ended
      | e :: s =>
        if e = Bytes.ascii 'u' then
          match hexQuad s with
          | .error f => .error f
          | .ok (_, s) => skipString fuel s
        else
          match shortEscape? e with
          | some _ => skipString fuel s
          | none => .error .malformed
    else if b < 0x20 then .error .malformed
    else skipString fuel s

/-! ## Numbers -/

/-- A number as read: an integer that a signed or an unsigned 64-bit word holds, or a
binary64 number. -/
inductive Number
  | whole (n : UInt64)
  | negative (i : Int)
  | real (x : Binary64)
  deriving DecidableEq

/-- Digits gathered into a 64-bit word: its value, how many digits it holds, how many
more were left out since the word was full. -/
structure Digits where
  value : Nat
  held : Nat := 0
  omitted : Nat := 0

/-- The word takes one more digit. -/
def Digits.fits (d : Digits) (digit : Nat) : Bool :=
  d.omitted == 0 && decide (d.value * 10 + digit < UInt64.size)

/-- Gathers digits; once one does not fit, it and all after it are left out. -/
def gatherDigits (d : Digits) : Bytes → Digits × Bytes
  | [] => (d, [])
  | b :: s =>
    if Bytes.isDigit b then
      let digit := b.toNat - 48
      if d.fits digit then
        gatherDigits { d with value := d.value * 10 + digit, held := d.held + 1 } s
      else gatherDigits { d with omitted := d.omitted + 1 } s
    else (d, b :: s)

/-- The greatest power of ten by which a number is scaled in one step. -/
def scaleStep : Nat := 308

/-- Scales by a power of ten: one multiplication or division by a power of at most
`scaleStep`, after as many divisions by that power as the exponent is too small by.
Each step rounds. A number that grows to infinity is out of range. -/
def scaled (x : Binary64) (exponent : Int) : Nat → Except Fault Binary64
  | 0 => .ok x
  | fuel + 1 =>
    if exponent.natAbs ≤ scaleStep then
      let power := Binary64.ofDecimal false 1 exponent.natAbs
      if 0 ≤ exponent then
        let y := x * power
        if y.isInfinite then .error .malformed else .ok y
      else .ok (x / power)
    else if x.isZero then .ok x
    else if 0 ≤ exponent then .error .malformed
    else scaled (x / Binary64.ofDecimal false 1 scaleStep) (exponent + scaleStep) fuel

/-- The number of a significand and a decimal exponent. Four divisions bring every
64-bit significand to zero. -/
def realOf (neg : Bool) (significand : Nat) (exponent : Int) : Except Fault Number :=
  match scaled (.ofNat significand) exponent 4 with
  | .error f => .error f
  | .ok x => .ok (.real (if neg then -x else x))

/-- Greatest exponent that is counted. -/
def exponentLimit : Nat := 0x7FFFFFFF

/-- A sum of exponents, kept among the signed 32-bit integers. -/
def clampExponent (e : Int) : Int := max (-(exponentLimit : Int) - 1) (min e exponentLimit)

/-- The sign of an exponent, whether it is a minus, and the bytes after it. -/
def exponentSign : Bytes → Bool × Bytes
  | [] => (false, [])
  | b :: rest =>
    if b = Bytes.ascii '-' then (true, rest)
    else if b = Bytes.ascii '+' then (false, rest)
    else (false, b :: rest)

/-- Reads an exponent after its sign and finishes the number. -/
def exponentDigits (neg : Bool) (significand : Nat) (start : Int) (down : Bool) (s : Bytes) :
    Except Fault (Number × Bytes) :=
  match s with
  | [] => .error .ended
  | b :: _ =>
    if Bytes.isDigit b then
      let digits := s.takeWhile Bytes.isDigit
      let rest := s.dropWhile Bytes.isDigit
      let value := digits.foldl
        (fun n d => if exponentLimit < n then n else n * 10 + (d.toNat - 48)) 0
      if exponentLimit < value then
        if significand ≠ 0 ∧ !down then .error .malformed
        else .ok (.real (if neg then -0 else 0), rest)
      else
        let exponent := clampExponent (if down then start - value else start + value)
        match realOf neg significand exponent with
        | .error f => .error f
        | .ok n => .ok (n, rest)
    else .error .malformed

/-- Reads an exponent after its letter and finishes the number. -/
def exponentRest (neg : Bool) (significand : Nat) (start : Int) (s : Bytes) :
    Except Fault (Number × Bytes) :=
  let (down, s) := exponentSign s
  exponentDigits neg significand start down s

/-- Finishes a number whose digits before the point are read. -/
def exponentOrEnd (neg : Bool) (significand : Nat) (exponent : Int) (s : Bytes) :
    Except Fault (Number × Bytes) :=
  match s with
  | b :: rest =>
    if b = Bytes.ascii 'e' || b = Bytes.ascii 'E' then
      exponentRest neg significand exponent rest
    else
      match realOf neg significand exponent with
      | .error f => .error f
      | .ok n => .ok (n, s)
  | [] =>
    match realOf neg significand exponent with
    | .error f => .error f
    | .ok n => .ok (n, [])

/-- Reads digits after a point and finishes the number. -/
def fractionRest (neg : Bool) (significand : Nat) (exponent : Int) (s : Bytes) :
    Except Fault (Number × Bytes) :=
  let (d, rest) := gatherDigits { value := significand } s
  if d.held = 0 ∧ d.omitted = 0 then
    if rest.isEmpty then .error .ended else .error .malformed
  else exponentOrEnd neg d.value (exponent - d.held) rest

/-- The number that is an integer without point and exponent. -/
def wholeNumber (neg : Bool) (significand : Nat) : Number :=
  if neg then
    if 1 ≤ significand ∧ significand ≤ 0x8000000000000000 then .negative (-(significand : Int))
    else .real (-(Binary64.ofNat significand))
  else .whole (UInt64.ofNat significand)

/-- Finishes a number whose digits before a point are gathered. -/
def numberEnd (neg : Bool) (d : Digits) (rest : Bytes) : Except Fault (Number × Bytes) :=
  match rest with
  | c :: tail =>
    if c = Bytes.ascii '.' then fractionRest neg d.value d.omitted tail
    else if c = Bytes.ascii 'e' || c = Bytes.ascii 'E' then
      exponentRest neg d.value d.omitted tail
    else if d.omitted = 0 then .ok (wholeNumber neg d.value, c :: tail)
    else exponentOrEnd neg d.value d.omitted (c :: tail)
  | [] =>
    if d.omitted = 0 then .ok (wholeNumber neg d.value, [])
    else exponentOrEnd neg d.value d.omitted []

/-- Reads a number after its sign. -/
def numberRest (neg : Bool) (s : Bytes) : Except Fault (Number × Bytes) :=
  match s with
  | [] => .error .ended
  | b :: rest =>
    if !Bytes.isDigit b then .error .malformed
    else if b = Bytes.ascii '0' && (rest.head?.any Bytes.isDigit) then .error .malformed
    else
      let (d, rest) := gatherDigits { value := 0 } s
      numberEnd neg d rest

/-- Skips an exponent after its letter. -/
def skipExponent (s : Bytes) : Except Fault Bytes :=
  let s := match s with
    | b :: rest => if b = Bytes.ascii '-' || b = Bytes.ascii '+' then rest else s
    | [] => []
  if s.head?.any Bytes.isDigit then .ok (s.dropWhile Bytes.isDigit) else .error .malformed

/-- Skips a number after its sign. Unlike one that is kept, it may not end early: an end
where a digit must stand is malformed. -/
def skipNumber (s : Bytes) : Except Fault Bytes :=
  match s with
  | [] => .error .malformed
  | b :: rest =>
    if !Bytes.isDigit b then .error .malformed
    else if b = Bytes.ascii '0' && rest.head?.any Bytes.isDigit then .error .malformed
    else
      match rest.dropWhile Bytes.isDigit with
      | c :: tail =>
        if c = Bytes.ascii '.' then
          if tail.head?.any Bytes.isDigit then
            match tail.dropWhile Bytes.isDigit with
            | e :: after =>
              if e = Bytes.ascii 'e' || e = Bytes.ascii 'E' then skipExponent after
              else .ok (e :: after)
            | [] => .ok []
          else .error .malformed
        else if c = Bytes.ascii 'e' || c = Bytes.ascii 'E' then skipExponent tail
        else .ok (c :: tail)
      | [] => .ok []

end Json

end PeerGateway
