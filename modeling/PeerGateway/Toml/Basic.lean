import PeerGateway.Binary64.Decimal

/-!
# TOML values

A TOML text is a table of values under keys. Every table remembers its `Origin`, for how
it was written decides whether a later line may add to it: one that a header or braces
wrote is closed to dotted keys, and one in braces is closed to headers too.
-/

namespace PeerGateway

namespace Toml

/-- How a table came to be written. -/
inductive Origin
  /-- It has a header of its own, or is the whole text. -/
  | header
  /-- It stands in the header of another table. -/
  | passed
  /-- It stands in a dotted key. -/
  | dotted
  /-- It is written in braces. -/
  | braces
  deriving DecidableEq, Repr

/-- Whether a table of one origin may be entered on the way to a place written in
another way. -/
def Origin.enteredFrom : Origin → Origin → Bool
  | .braces, _ => false
  | .header, way => way != .dotted
  | _, _ => true

end Toml

/-- A TOML value. Times are told apart from other values, but not from each other. -/
inductive Toml
  | text (v : String)
  | whole (v : Int)
  | real (v : Binary64)
  | flag (v : Bool)
  | time
  | list (elements : List Toml)
  /-- A list of tables that were written with headers. -/
  | tables (elements : List (List (String × Toml)))
  | table (origin : Toml.Origin) (members : List (String × Toml))
  deriving Inhabited

namespace Toml

/-- The values of a table under their keys. -/
abbrev Members := List (String × Toml)

namespace Members

/-- The value of a key replaced. -/
def replace (key : String) (v : Toml) (ms : Members) : Members :=
  ms.map fun m => if m.1 = key then (key, v) else m

/-- Changes the table at a path below a table; tables that are missing on the way are
made, with the origin `way`. -/
def amend (way : Origin) (change : Origin → Members → Option Members) :
    List String → Origin → Members → Option Members
  | [], origin, ms => change origin ms
  | key :: path, _, ms =>
    match ms.lookup key with
    | none => (amend way change path way []).map fun inner => ms ++ [(key, .table way inner)]
    | some (.table origin inner) =>
      if origin.enteredFrom way then
        (amend way change path origin inner).map fun inner =>
          ms.replace key (.table origin inner)
      else none
    | some (.tables elements) =>
      match elements.reverse with
      | [] => none
      | last :: earlier =>
        (amend way change path .header last).map fun last =>
          ms.replace key (.tables (last :: earlier).reverse)
    | some _ => none

/-- A table with a value put under a dotted key: tables in between are made or entered,
and the key itself must be new. The last table must be one that dotted keys write, unless
the key has no dots. -/
def put (above : List String) (key : String) (v : Toml) (origin : Origin) (ms : Members) :
    Option Members :=
  amend .dotted
    (fun origin ms =>
      if decide (origin = .dotted) = above.isEmpty then none
      else if (ms.lookup key).isSome then none
      else some (ms ++ [(key, v)]))
    above origin ms

/-- A table with a new table below it, which may only have stood in other headers. -/
def openTable (above : List String) (key : String) (ms : Members) : Option Members :=
  amend .passed
    (fun _ ms =>
      match ms.lookup key with
      | none => some (ms ++ [(key, .table .header [])])
      | some (.table .passed inner) => some (ms.replace key (.table .header inner))
      | some _ => none)
    above .header ms

/-- A table with a new element in a list of tables below it. -/
def openElement (above : List String) (key : String) (ms : Members) : Option Members :=
  amend .passed
    (fun _ ms =>
      match ms.lookup key with
      | none => some (ms ++ [(key, .tables [[]])])
      | some (.tables elements) => some (ms.replace key (.tables (elements ++ [[]])))
      | some _ => none)
    above .header ms

end Members

/-- The elements of a list. -/
def elements? : Toml → Option (List Toml)
  | .list es => some es
  | .tables es => some (es.map (.table .header))
  | _ => none

/-- The members of a table. A time is a table too, with no member that has a name. -/
def members? : Toml → Option Members
  | .table _ ms => some ms
  | .time => some []
  | _ => none

end Toml

end PeerGateway
