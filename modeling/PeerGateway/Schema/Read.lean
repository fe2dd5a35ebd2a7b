import PeerGateway.Schema.Basic

/-!
# Reading a value of a schema from a text

`Schema.read` reads the text from front to back and gives the first fault it meets. A
member whose name the schema does not know is skipped. A value of a wrong type is a
mismatch, but a scalar of a wrong type is read in full first, so that a malformed one is
malformed.
-/

namespace PeerGateway

open Json

namespace Schema

/-- The fault of a value of a wrong type, from its first byte on. -/
def mismatchAt (bound : Nat) (s : Bytes) : Fault :=
  let after {α : Type} (r : Except Fault α) : Fault :=
    match r with
    | .error f => f
    | .ok _ => .mismatched
  match s with
  | [] => .malformed
  | b :: rest =>
    if b = Bytes.ascii 'n' then after (literalRest (Bytes.ofString "ull") rest)
    else if b = Bytes.ascii 't' then after (literalRest (Bytes.ofString "rue") rest)
    else if b = Bytes.ascii 'f' then after (literalRest (Bytes.ofString "alse") rest)
    else if b = Bytes.ascii '-' || Bytes.isDigit b then after (readNumber b rest)
    else if b = Bytes.ascii '"' then after (stringRest bound rest)
    else if b = Bytes.ascii '[' || b = Bytes.ascii '{' then .mismatched
    else .malformed

/-- Reads a string. -/
def readText (bound : Nat) (s : Bytes) : Except Fault (String × Bytes) :=
  match skipBlank s with
  | [] => .error .ended
  | b :: rest =>
    if b = Bytes.ascii '"' then stringRest bound rest
    else .error (mismatchAt bound (b :: rest))

/-- Reads a truth value. -/
def readFlag (bound : Nat) (s : Bytes) : Except Fault (Bool × Bytes) :=
  let literal (v : Bool) (letters : String) (rest : Bytes) : Except Fault (Bool × Bytes) :=
    match literalRest (Bytes.ofString letters) rest with
    | .error f => .error f
    | .ok s => .ok (v, s)
  match skipBlank s with
  | [] => .error .ended
  | b :: rest =>
    if b = Bytes.ascii 't' then literal true "rue" rest
    else if b = Bytes.ascii 'f' then literal false "alse" rest
    else .error (mismatchAt bound (b :: rest))

/-- Reads a number and takes it as `convert` does, if it does. -/
def readNumberAs {α : Type} (convert : Number → Option α) (bound : Nat) (s : Bytes) :
    Except Fault (α × Bytes) :=
  match skipBlank s with
  | [] => .error .ended
  | b :: rest =>
    if b = Bytes.ascii '-' || Bytes.isDigit b then
      match readNumber b rest with
      | .error f => .error f
      | .ok (n, s) =>
        match convert n with
        | some a => .ok (a, s)
        | none => .error .mismatched
    else .error (mismatchAt bound (b :: rest))

end Schema

/-- The 64-bit word that a number is. -/
def Json.Number.word64? : Number → Option UInt64
  | .whole n => some n
  | _ => none

/-- The 16-bit word that a number is. -/
def Json.Number.word16? : Number → Option UInt16
  | .whole n => if n.toNat < UInt16.size then some (UInt16.ofNat n.toNat) else none
  | _ => none

/-- The binary64 number nearest to a number. -/
def Json.Number.real? : Number → Option Binary64
  | .whole n => some (.ofNat n.toNat)
  | .negative i => some (.ofInt i)
  | .real x => some x

namespace Schema

/-- Reads `null`. -/
def readNull (bound : Nat) (s : Bytes) : Except Fault Bytes :=
  match skipBlank s with
  | [] => .error .ended
  | b :: rest =>
    if b = Bytes.ascii 'n' then literalRest (Bytes.ofString "ull") rest
    else .error (mismatchAt bound (b :: rest))

/-- Reads one of some names: a string, or an object of one member of that name whose
value is `null`. -/
def readChoice (names : List String) (bound : Nat) (s : Bytes) :
    Except Fault (Fin names.length × Bytes) :=
  match skipBlank s with
  | [] => .error .ended
  | b :: rest =>
    if b = Bytes.ascii '"' || b = Bytes.ascii '{' then
      match readText bound (if b = Bytes.ascii '"' then b :: rest else rest) with
      | .error f => .error f
      | .ok (name, s) =>
        match names.finIdxOf? name with
        | none => .error .mismatched
        | some i =>
          if b = Bytes.ascii '"' then .ok (i, s)
          else
            match colon s with
            | .error f => .error f
            | .ok s =>
              match readNull bound s with
              | .error f => .error f
              | .ok s =>
                match closeObject s with
                | .error f => .error f
                | .ok s => .ok (i, s)
    else .error .malformed

end Schema

/-- Reads a field that is there. -/
def Presence.read {α : Type} (value : Bytes → Except Fault (α × Bytes)) :
    (p : Presence) → Bytes → Except Fault (p.Wrap α × Bytes)
  | .required, s => value s
  | .nullable, s =>
    match skipBlank s with
    | [] => .error .ended
    | b :: rest =>
      if b = Bytes.ascii 'n' then
        match literalRest (Bytes.ofString "ull") rest with
        | .error f => .error f
        | .ok s => .ok (none, s)
      else
        match value (b :: rest) with
        | .error f => .error f
        | .ok (a, s) => .ok (some a, s)
  | .defaulted, s =>
    match value s with
    | .error f => .error f
    | .ok (a, s) => .ok (some a, s)

/-- What a field missing at the end of a list stands for, if it may be missing there. -/
def Presence.absentFromList? : (p : Presence) → (α : Type) → Option (p.Wrap α)
  | .required, _ => none
  | .nullable, _ => none
  | .defaulted, _ => some none

/-- Reads an object's members after its opening brace, and the closing one. `known` reads
the colon and value of a member that it knows; others are skipped. -/
def Fields.readObject {δ : Type}
    (known : String → δ → Bytes → Option (Except Fault (δ × Bytes))) (bound : Nat) :
    Nat → Bool → δ → Bytes → Except Fault (δ × Bytes)
  | 0, _, _, _ => .error .malformed
  | fuel + 1, first, draft, s =>
    match nextMember bound first s with
    | .error f => .error f
    | .ok none =>
      match closeObject s with
      | .error f => .error f
      | .ok s => .ok (draft, s)
    | .ok (some (name, s)) =>
      match known name draft s with
      | some (.error f) => .error f
      | some (.ok (draft, s)) => readObject known bound fuel false draft s
      | none =>
        match colon s with
        | .error f => .error f
        | .ok s =>
          match skipValue bound s with
          | .error f => .error f
          | .ok s => readObject known bound fuel false draft s

mutual

/-- Reads a value of a schema from the front of a text. -/
def Schema.read (bound : Nat) : (s : Schema) → Bytes → Except Fault (s.Value × Bytes)
  | .text, t => Schema.readText bound t
  | .flag, t => Schema.readFlag bound t
  | .word16, t => Schema.readNumberAs Number.word16? bound t
  | .word64, t => Schema.readNumberAs Number.word64? bound t
  | .real, t => Schema.readNumberAs Number.real? bound t
  | .choice names, t => Schema.readChoice names bound t
  | .list element, t =>
    match skipBlank t with
    | [] => .error .ended
    | b :: rest =>
      if b = Bytes.ascii '[' then elements (element.read bound) (bound + 1) true [] rest
      else .error (Schema.mismatchAt bound (b :: rest))
  | .record listed fields, t =>
    match skipBlank t with
    | [] => .error .ended
    | b :: rest =>
      if b = Bytes.ascii '[' && listed then
        match fields.readElements bound true rest with
        | .error f => .error f
        | .ok (v, t) =>
          match closeList t with
          | .error f => .error f
          | .ok t => .ok (v, t)
      else if b = Bytes.ascii '{' then
        match Fields.readObject (fields.readMember bound) bound (bound + 1) true fields.blank
          rest with
        | .error f => .error f
        | .ok (draft, t) =>
          match fields.finish? draft with
          | some v => .ok (v, t)
          | none => .error .mismatched
      else .error (Schema.mismatchAt bound (b :: rest))

/-- Reads the colon and value of the member of a given name into its slot; `none` if no
field has the name. A field that was read already may not come again. -/
def Fields.readMember (bound : Nat) :
    (fs : Fields) → String → fs.Draft → Bytes → Option (Except Fault (fs.Draft × Bytes))
  | .empty, _, _, _ => none
  | .field name presence schema more, key, (slot, slots), t =>
    if key = name then
      some <|
        if slot.isSome then .error .mismatched
        else
          match colon t with
          | .error f => .error f
          | .ok t =>
            match presence.read (schema.read bound) t with
            | .error f => .error f
            | .ok (v, t) => .ok ((some v, slots), t)
    else
      match more.readMember bound key slots t with
      | none => none
      | some (.error f) => some (.error f)
      | some (.ok (slots, t)) => some (.ok ((slot, slots), t))

/-- Reads the fields in order from the elements of a list. -/
def Fields.readElements (bound : Nat) :
    (fs : Fields) → Bool → Bytes → Except Fault (fs.Value × Bytes)
  | .empty, _, t => .ok ((), t)
  | .field _ presence schema more, first, t =>
    match nextElement first t with
    | .error f => .error f
    | .ok none =>
      match presence.absentFromList? schema.Value, more.readElements bound first t with
      | none, _ => .error .mismatched
      | some _, .error f => .error f
      | some v, .ok (vs, t) => .ok ((v, vs), t)
    | .ok (some t) =>
      match presence.read (schema.read bound) t with
      | .error f => .error f
      | .ok (v, t) =>
        match more.readElements bound false t with
        | .error f => .error f
        | .ok (vs, t) => .ok ((v, vs), t)

end

/-- Reads a whole text as a value of a schema. -/
def Schema.parse (s : Schema) (t : Bytes) : Except Fault s.Value := whole (s.read t.length) t

end PeerGateway
