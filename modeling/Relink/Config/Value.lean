/-
  Relink.Config.Value — settings before they are given a meaning.

  Every source of settings is read into a tree of named values.  Sources are
  laid over each other key by key: tables are merged, and anything else,
  lists too, is replaced.

  Main definitions:
    * `Value`, `Value.get?`
    * `Value.overlay` — one tree laid over another
    * `Value.nest` — a value below some keys
-/

namespace Relink

/-- A tree of values. -/
inductive Value where
  /-- Nothing, where a value could stand. -/
  | absent
  /-- A truth value. -/
  | flag (b : Bool)
  /-- A number.  No setting holds one, so it does not matter which. -/
  | number
  /-- A text. -/
  | text (s : String)
  /-- Values in order. -/
  | list (items : List Value)
  /-- Values by name, each name once. -/
  | table (fields : List (String × Value))
deriving Repr, Inhabited

namespace Value

/-- The value of a field of a table. -/
def field? (name : String) : Value → Option Value
  | .table fields => fields.lookup name
  | _ => none

/-- The value that some keys lead to. -/
def get? : List String → Value → Option Value
  | [], v => some v
  | k :: ks, v => (v.field? k).bind (get? ks)

/-- Gives a field a value, in its place or at the end. -/
def put (name : String) (v : Value) : List (String × Value) → List (String × Value)
  | [] => [(name, v)]
  | (k, old) :: rest => if k = name then (k, v) :: rest else (k, old) :: put name v rest

mutual

/-- A tree laid over another. -/
def overlay : Value → Value → Value
  | .table fields, old =>
    match old with
    | .table below => .table (fieldsOver fields below)
    | _ => .table fields
  | new, _ => new

/-- Fields laid over the fields of a table. -/
def fieldsOver : List (String × Value) → List (String × Value) → List (String × Value)
  | [], below => below
  | (k, v) :: rest, below =>
    fieldsOver rest
      (put k (match below.lookup k with
        | some old => overlay v old
        | none => v) below)

end

/-- A value below some keys. -/
def nest : List String → Value → Value
  | [], v => v
  | k :: ks, v => .table [(k, nest ks v)]

end Value

end Relink
