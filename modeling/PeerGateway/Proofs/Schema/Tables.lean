import PeerGateway.Schema.Tabular
import Mathlib.Data.Option.Defs

/-!
# Partial tables

A record whose fields may all be missing is read from a table that has any of them. A `Schema.Path`
leads through such records to a value somewhere below. It leads through a table to what stands at
its place there (`Schema.Path.part?`), and through the record that was read of the table to a value
or to none (`Schema.Path.get?`). Both agree (`Schema.Path.readsPart_of_ofToml?`): the record has a
value at a place just if the table has something there, which is then read as that value.
-/

namespace PeerGateway

/-! ## Fields of a record -/

/-- A field that may be missing, of some fields: the first of them or one behind it. -/
inductive Fields.Slot : Fields → Schema → Type
  | here {name : String} {s : Schema} {more : Fields} : Slot (.field name .defaulted s more) s
  | there {name : String} {p : Presence} {t s : Schema} {more : Fields} (slot : Slot more s) :
    Slot (.field name p t more) s

namespace Fields.Slot

/-- The name of the field. -/
def name : {fs : Fields} → {s : Schema} → Slot fs s → String
  | .field name _ _ _, _, here => name
  | _, _, there slot => slot.name

/-- How many fields are in front of it. -/
def place : {fs : Fields} → {s : Schema} → Slot fs s → Nat
  | _, _, here => 0
  | _, _, there slot => slot.place + 1

/-- The value of the field, if it has one. -/
def get? : {fs : Fields} → {s : Schema} → Slot fs s → fs.Value → Option s.Value
  | _, _, here, (v, _) => v
  | _, _, there slot, (_, vs) => slot.get? vs

end Fields.Slot

/-- A value of a schema is what something is read as, or there is neither. -/
def Schema.ReadsPart (s : Schema) : Option Toml → Option s.Value → Prop :=
  Option.Rel fun v x => s.ofToml? v = some x

theorem Schema.ReadsPart.bind {s t : Schema} {found : Option Toml} {value : Option s.Value}
    {f : Toml → Option Toml} {g : s.Value → Option t.Value} (h : s.ReadsPart found value)
    (hfg : ∀ {v x}, s.ofToml? v = some x → t.ReadsPart (f v) (g x)) :
    t.ReadsPart (found.bind f) (value.bind g) := by
  cases h with
  | none => exact .none
  | some hx => exact hfg hx

/-- What a field is read as, from what there is of it. -/
def Presence.ofFound? (p : Presence) (s : Schema) (found : Option Toml) : Option (p.Wrap s.Value) :=
  match found with
  | none => p.missing? s.Value
  | some v => (s.ofToml? v).map p.given

theorem Presence.readsPart_of_ofFound? {s : Schema} {found : Option Toml} {x : Option s.Value}
    (h : Presence.defaulted.ofFound? s found = some x) : s.ReadsPart found x := by
  cases found with
  | none =>
    obtain rfl := Option.some.inj h
    exact .none
  | some v =>
    obtain ⟨y, hy, rfl⟩ := Option.map_eq_some_iff.mp h
    exact .some hy

namespace Fields

variable {name : String} {p : Presence} {fs : Fields} {s : Schema}

theorem ofMembers?_field {ms : Toml.Members} {vs : (field name p s fs).Value}
    (h : (field name p s fs).ofMembers? ms = some vs) :
    p.ofFound? s (ms.lookup name) = some vs.1 ∧ fs.ofMembers? ms = some vs.2 := by
  rw [ofMembers?] at h
  split at h
  case h_1 v vs hv hvs =>
    obtain rfl := Option.some.inj h
    exact ⟨hv, hvs⟩
  case h_2 => cases h

theorem ofSequence?_field {es : List Toml} {vs : (field name p s fs).Value}
    (h : (field name p s fs).ofSequence? es = some vs) :
    p.ofFound? s es[0]? = some vs.1 ∧ fs.ofSequence? es.tail = some vs.2 := by
  rw [ofSequence?.eq_def] at h
  dsimp only at h
  split at h
  case h_1 v vs hv hvs =>
    obtain rfl := Option.some.inj h
    refine ⟨?_, hvs⟩
    cases es <;> exact hv
  case h_2 => cases h

variable {vs : fs.Value}

/-- The fields of a table are read from the members of their names. -/
theorem readsPart_ofMembers? {ms : Toml.Members} (h : fs.ofMembers? ms = some vs)
    (slot : Slot fs s) : s.ReadsPart (ms.lookup slot.name) (slot.get? vs) := by
  induction slot with
  | here => exact Presence.readsPart_of_ofFound? (ofMembers?_field h).1
  | there slot ih => exact ih (ofMembers?_field h).2

/-- The fields of a list are read from the elements in their places. -/
theorem readsPart_ofSequence? {es : List Toml} (h : fs.ofSequence? es = some vs)
    (slot : Slot fs s) : s.ReadsPart es[slot.place]? (slot.get? vs) := by
  induction slot generalizing es with
  | here => exact Presence.readsPart_of_ofFound? (ofSequence?_field h).1
  | there slot ih =>
    have hmore := ih (ofSequence?_field h).2
    rwa [List.getElem?_tail] at hmore

end Fields

/-! ## Places below a record -/

/-- What stands in a value for a field with a name and a place: a member of a table or an element of
a list. -/
def Toml.part? (name : String) (place : Nat) (v : Toml) : Option Toml :=
  match v.members? with
  | some ms => ms.lookup name
  | none => v.elements?.bind fun es => es[place]?

/-- The way from a record to something below it, by fields that may be missing. -/
inductive Schema.Path : Schema → Schema → Type
  | here {s : Schema} : Path s s
  | under {listed : Bool} {fs : Fields} {s t : Schema} (slot : fs.Slot s) (path : Path s t) :
    Path (.record listed fs) t

namespace Schema.Path

/-- What stands in a table at the end of the way. -/
def part? : {s t : Schema} → Path s t → Toml → Option Toml
  | _, _, here, v => some v
  | _, _, under slot path, v => (v.part? slot.name slot.place).bind path.part?

/-- The value at the end of the way, if the record has one there. -/
def get? : {s t : Schema} → Path s t → s.Value → Option t.Value
  | _, _, here, x => some x
  | _, _, under slot path, vs => (slot.get? vs).bind path.get?

variable {s t : Schema}

/-- A record has a value at a place just if the table that it was read of has something there, and
that is read as this value. -/
theorem readsPart_of_ofToml? {v : Toml} {x : s.Value} (h : s.ofToml? v = some x) (path : Path s t) :
    t.ReadsPart (path.part? v) (path.get? x) := by
  -- On the way: each step is from a record to one of its fields.
  induction path generalizing v with
  | here => exact .some h
  | @under listed fs s t slot path ih =>
    have hslot : s.ReadsPart (v.part? slot.name slot.place) (slot.get? x) := by
      rw [Schema.ofToml?] at h
      unfold Toml.part?
      cases hms : v.members? with
      | some ms =>
        rw [hms] at h
        exact Fields.readsPart_ofMembers? h slot
      | none =>
        rw [hms] at h
        obtain ⟨es, hes, hvs⟩ := Option.bind_eq_some_iff.mp h
        rw [hes]
        exact Fields.readsPart_ofSequence? hvs slot
    rw [part?, get?]
    exact hslot.bind ih

end Schema.Path

end PeerGateway
