import PeerGateway.Json.Value

/-!
# Schemas

A schema describes the JSON texts of one type of value, and `Schema.Value` is that type.
A record's fields are read in any order from an object, or in their own order from a
list; `Presence` says which may be left out. What is read of a record before all of it
is known is its `Fields.Draft`.

`Schema.bytes` writes a value. Its reader from a text is in `Schema.Read` and the one
from a JSON value in `Schema.Kept`.
-/

namespace PeerGateway

/-- Whether a field of a record may be missing. -/
inductive Presence
  /-- The field must be there. -/
  | required
  /-- The field may be `null`, and may be missing from an object. -/
  | nullable
  /-- The field may be missing; if it is there it has a value. -/
  | defaulted
  deriving DecidableEq

/-- What is known of a field: its value, or that there is none. -/
@[reducible] def Presence.Wrap : Presence → Type → Type
  | .required, α => α
  | .nullable, α => Option α
  | .defaulted, α => Option α

mutual

/-- The shape of a JSON text. -/
inductive Schema
  /-- A string. -/
  | text
  /-- A truth value. -/
  | flag
  /-- A natural number of at most sixteen bits. -/
  | word16
  /-- A natural number of at most sixty-four bits. -/
  | word64
  /-- A number. -/
  | real
  /-- One of some names. -/
  | choice (names : List String)
  /-- A list of elements of one shape. -/
  | list (element : Schema)
  /-- An object of named fields; where `listed`, also a list of them in order. -/
  | record (listed : Bool) (fields : Fields)

/-- The fields of a record, in order. -/
inductive Fields
  | empty
  | field (name : String) (presence : Presence) (schema : Schema) (more : Fields)

end

mutual

/-- The values that a schema describes. -/
@[reducible] def Schema.Value : Schema → Type
  | .text => String
  | .flag => Bool
  | .word16 => UInt16
  | .word64 => UInt64
  | .real => Binary64
  | .choice names => Fin names.length
  | .list element => List element.Value
  | .record _ fields => fields.Value

/-- The values of all fields. -/
@[reducible] def Fields.Value : Fields → Type
  | .empty => Unit
  | .field _ presence schema more => presence.Wrap schema.Value × more.Value

end

/-- The fields read so far: one slot for each. -/
@[reducible] def Fields.Draft : Fields → Type
  | .empty => Unit
  | .field _ presence schema more => Option (presence.Wrap schema.Value) × more.Draft

/-- No field is read. -/
def Fields.blank : (fs : Fields) → fs.Draft
  | .empty => ()
  | .field _ _ _ more => (none, more.blank)

/-- What a field that is missing from an object stands for, if it may be missing. -/
def Presence.absent? : (p : Presence) → (α : Type) → Option (p.Wrap α)
  | .required, _ => none
  | .nullable, _ => some none
  | .defaulted, _ => some none

/-- The record of a draft, unless a field that must be there is missing. -/
def Fields.finish? : (fs : Fields) → fs.Draft → Option fs.Value
  | .empty, () => some ()
  | .field _ presence schema more, (slot, slots) =>
    match slot.or (presence.absent? schema.Value), more.finish? slots with
    | some v, some vs => some (v, vs)
    | _, _ => none

/-! ## Writing -/

mutual

/-- The compact JSON text of a value. -/
def Schema.bytes : (s : Schema) → s.Value → Bytes
  | .text, v => Json.quoted v
  | .flag, v => Json.flagText v
  | .word16, v => Json.decimal v.toNat
  | .word64, v => Json.decimal v.toNat
  | .real, v => Json.realText v
  | .choice names, v => Json.quoted (names.get v)
  | .list element, v => Json.bracketed (v.map element.bytes)
  | .record _ fields, v => Json.braced (fields.memberBytes v)

/-- The members of a record's object. A defaulted field without a value is left out, a
nullable one is `null`. -/
def Fields.memberBytes : (fs : Fields) → fs.Value → List Bytes
  | .empty, () => []
  | .field name .required schema more, (v, vs) =>
    Json.memberText name (schema.bytes v) :: more.memberBytes vs
  | .field name .nullable schema more, (v, vs) =>
    Json.memberText name (match v with | some v => schema.bytes v | none => Json.nullText)
      :: more.memberBytes vs
  | .field name .defaulted schema more, (v, vs) =>
    match v with
    | some v => Json.memberText name (schema.bytes v) :: more.memberBytes vs
    | none => more.memberBytes vs

end

end PeerGateway
