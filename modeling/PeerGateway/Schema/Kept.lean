import PeerGateway.Schema.Read

/-!
# A value of a schema from a JSON value

A part of a text whose schema is not known yet is kept as a JSON value; `Schema.ofJson?`
then takes it as a value of its schema. Whatever does not fit is a mismatch, an element
too many in a list of fields included. As a name's value an empty object stands for
`null` here.
-/

namespace PeerGateway

open Json

namespace Schema

/-- The one of some names that a JSON value is. -/
def choiceOf? (names : List String) : Json → Option (Fin names.length)
  | .text name => names.finIdxOf? name
  | .object [(name, .null)] => names.finIdxOf? name
  | .object [(name, .object [])] => names.finIdxOf? name
  | _ => none

end Schema

/-- A field from its JSON value. -/
def Presence.ofJson? {α : Type} (value : Json → Option α) :
    (p : Presence) → Json → Option (p.Wrap α)
  | .required, j => value j
  | .nullable, .null => some none
  | .nullable, j => (value j).map some
  | .defaulted, j => (value j).map some

mutual

/-- The value of a schema that a JSON value is. -/
def Schema.ofJson? : (s : Schema) → Json → Option s.Value
  | .text, j => j.text?
  | .flag, j => match j with
    | .flag b => some b
    | _ => none
  | .word16, j => match j with
    | .number n => n.word16?
    | _ => none
  | .word64, j => match j with
    | .number n => n.word64?
    | _ => none
  | .real, j => match j with
    | .number n => n.real?
    | _ => none
  | .choice names, j => Schema.choiceOf? names j
  | .list element, j => match j with
    | .list es => es.mapM element.ofJson?
    | _ => none
  | .record listed fields, j => match j with
    | .object ms =>
      match ms.foldlM (fun draft m => fields.setMember? m.1 m.2 draft) fields.blank with
      | some draft => fields.finish? draft
      | none => none
    | .list es => if listed then fields.ofElements? es else none
    | _ => none

/-- Puts a member into the slot of its name, if it is a value of it and the slot is
free. A member that no field has the name of is left out. -/
def Fields.setMember? : (fs : Fields) → String → Json → fs.Draft → Option fs.Draft
  | .empty, _, _, d => some d
  | .field name presence schema more, key, j, (slot, slots) =>
    if key = name then
      if slot.isSome then none
      else (presence.ofJson? schema.ofJson? j).map fun v => (some v, slots)
    else (more.setMember? key j slots).map fun slots => (slot, slots)

/-- The fields in order from the elements of a list. -/
def Fields.ofElements? : (fs : Fields) → List Json → Option fs.Value
  | .empty, [] => some ()
  | .empty, _ :: _ => none
  | .field _ presence schema more, [] =>
    match presence.absentFromList? schema.Value, more.ofElements? [] with
    | some v, some vs => some (v, vs)
    | _, _ => none
  | .field _ presence schema more, e :: es =>
    match presence.ofJson? schema.ofJson? e, more.ofElements? es with
    | some v, some vs => some (v, vs)
    | _, _ => none

end

end PeerGateway
