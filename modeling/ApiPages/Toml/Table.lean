import ApiPages.Toml.Basic

/-! # Tables under construction

Keys and headers add to the table of a document.  Each key is defined once; what is added where
depends on how the tables on the way came about. -/

namespace ApiPages

namespace Toml

/-- The value of a key. -/
def find? (key : Text) (fields : Fields) : Option Value :=
  fields.lookup key

/-- Changes the value of a key; `f` is given nothing if there is none. -/
def update? (key : Text) (f : Option Value → Option Value) : Fields → Option Fields
  | [] => (f none).map fun v => [(key, v)]
  | (k, v) :: fields =>
    if k = key then (f (some v)).map fun v => (k, v) :: fields
    else (update? key f fields).map ((k, v) :: ·)

/-- Whether keys of one origin may pass through a table of another: nothing is added to a table between
braces, and a dotted key adds nothing to a table with a header. -/
def mayPass (by_ through : Origin) : Bool :=
  through != .inline && !(by_ == .dotted && through == .header)

/-- Changes the fields of the table at a path.  Tables that are missing on the way are made with the
given origin. -/
def within? (origin : Origin) (f : Fields → Option Fields) :
    (path : List Text) → Fields → Option Fields
  | [], fields => f fields
  | key :: path, fields =>
    update? key (fun
      | none => (within? origin f path []).map (.table origin)
      | some (.table through inner) =>
        if mayPass origin through then (within? origin f path inner).map (.table through) else none
      | some (.tables last earlier) =>
        if origin = .dotted then none else (within? origin f path last).map (.tables · earlier)
      | some _ => none) fields

/-- Enters a value under a dotted key. -/
def enter? (path : List Text) (v : Value) (fields : Fields) : Option Fields := do
  let key ← path.getLast?
  within? .dotted (update? key fun | none => some v | some _ => none) path.dropLast fields

/-- What the header of a table makes of the value before it. -/
def openTable? : Option Value → Option Value
  | none => some (.table .header [])
  | some (.table .implicit fields) => some (.table .header fields)
  | some _ => none

/-- What the header of a table in an array makes of the value before it. -/
def openItem? : Option Value → Option Value
  | none => some (.tables [] [])
  | some (.tables last earlier) => some (.tables [] (last :: earlier))
  | some _ => none

/-- The items of an array of either kind. -/
def Value.items? : Value → Option (List Value)
  | .array items => some items
  | .tables last earlier => some ((last :: earlier).reverse.map (.table .header))
  | _ => none

/-- A text that stands for itself: a string, or the only key of a table that holds something empty. -/
def Value.word? : Value → Option Text
  | .string s => some s
  | .table _ [(key, .array [])] => some key
  | .table _ [(key, .table _ [])] => some key
  | _ => none

end Toml

end ApiPages
