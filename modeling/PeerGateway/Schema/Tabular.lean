import PeerGateway.Schema.Basic
import PeerGateway.Toml.Basic

/-!
# A value of a schema from a TOML value

A record is a table, or a list of its fields in order; members that no field has the name
of are left out, and so are surplus elements. A whole number is also a number.
-/

namespace PeerGateway

/-- What a field stands for that a table or a list does not have. -/
def Presence.missing? : (p : Presence) → (α : Type) → Option (p.Wrap α)
  | .required, _ => none
  | .nullable, _ => some none
  | .defaulted, _ => some none

/-- A field that is there. -/
def Presence.given {α : Type} : (p : Presence) → α → p.Wrap α
  | .required, a => a
  | .nullable, a => some a
  | .defaulted, a => some a

mutual

/-- The value of a schema that a TOML value is. -/
def Schema.ofToml? : (s : Schema) → Toml → Option s.Value
  | .text, v => match v with
    | .text t => some t
    | _ => none
  | .flag, v => match v with
    | .flag b => some b
    | _ => none
  | .word16, v => match v with
    | .whole i => if 0 ≤ i ∧ i < UInt16.size then some (UInt16.ofNat i.toNat) else none
    | _ => none
  | .word64, v => match v with
    | .whole i => if 0 ≤ i then some (UInt64.ofNat i.toNat) else none
    | _ => none
  | .real, v => match v with
    | .real x => some x
    | .whole i => some (.ofInt i)
    | _ => none
  | .choice names, v => match v with
    | .text t => names.finIdxOf? t
    | _ => none
  | .list element, v => v.elements?.bind fun es => es.mapM element.ofToml?
  | .record _ fields, v =>
    match v.members? with
    | some ms => fields.ofMembers? ms
    | none => v.elements?.bind fun es => fields.ofSequence? es

/-- The fields from the members of a table. -/
def Fields.ofMembers? : (fs : Fields) → Toml.Members → Option fs.Value
  | .empty, _ => some ()
  | .field name presence schema more, ms =>
    let value := match ms.lookup name with
      | none => presence.missing? schema.Value
      | some v => (schema.ofToml? v).map presence.given
    match value, more.ofMembers? ms with
    | some v, some vs => some (v, vs)
    | _, _ => none

/-- The fields in order from the elements of a list. -/
def Fields.ofSequence? : (fs : Fields) → List Toml → Option fs.Value
  | .empty, _ => some ()
  | .field _ presence schema more, es =>
    let value := match es with
      | [] => presence.missing? schema.Value
      | e :: _ => (schema.ofToml? e).map presence.given
    match value, more.ofSequence? es.tail with
    | some v, some vs => some (v, vs)
    | _, _ => none

end

end PeerGateway
