/-
  Relink.Config.Toml.Table — tables while they are written.

  A table may be opened by a header, come about because a header below it was
  opened, or come about by dotted keys.  Each of these may be extended only in
  some ways, and no name may be given twice.

  Main definitions:
    * `Origin`, `Item`
    * `addValue`   — a value under dotted keys
    * `openTable`, `openListed` — a header
    * `Item.toValue`
-/

import Relink.Config.Value

namespace Relink.Toml

/-- How a table came about. -/
inductive Origin where
  /-- By its own header. -/
  | header
  /-- By the header of a table below it. -/
  | implied
  /-- By dotted keys. -/
  | dotted
deriving DecidableEq, Repr, Inhabited

/-- What a name stands for in a table that is being written. -/
inductive Item where
  /-- A finished value. -/
  | value (v : Value)
  /-- A table. -/
  | table (origin : Origin) (entries : List (String × Item))
  /-- A list of tables, each opened by a header. -/
  | listed (tables : List (List (String × Item)))
deriving Inhabited

/-- The names of a table and what they stand for. -/
abbrev Entries := List (String × Item)

/-- Changes what a name stands for, or fails. -/
def alter (name : String) (f : Option Item → Option Item) : Entries → Option Entries
  | [] => (f none).map fun i => [(name, i)]
  | (k, i) :: rest =>
    if k = name then (f (some i)).map fun i' => (k, i') :: rest
    else (alter name f rest).map ((k, i) :: ·)

/-- Changes the table that some names lead to.  A missing table on the way comes
    about as `made`; of a list of tables the last is meant; a table with a header
    may not be entered by dotted keys. -/
def change (made : Origin) (f : Origin → Entries → Option Entries) :
    List String → Origin → Entries → Option Entries
  | [], origin, entries => f origin entries
  | k :: ks, _, entries =>
    alter k (fun
      | none => (change made f ks made []).map (.table made)
      | some (.value _) => none
      | some (.listed tables) =>
        match tables.reverse with
        | [] => none
        | last :: before =>
          (change made f ks .header last).map fun t => .listed (before.reverse ++ [t])
      | some (.table origin below) =>
        if made = .dotted ∧ origin = .header then none
        else (change made f ks origin below).map (.table origin)) entries

/-- Adds a value under dotted keys.  The table it goes to must have come about
    by dotted keys if there is more than one key. -/
def addValue (keys : List String) (v : Value) (entries : Entries) : Option Entries :=
  match keys.reverse with
  | [] => none
  | name :: before =>
    let path := before.reverse
    change .dotted (fun origin es =>
      if path ≠ [] ∧ origin ≠ .dotted then none
      else
        alter name (fun
          | none => some (.value v)
          | some _ => none) es) path .header entries

/-- Opens a table by its header.  It must be new, or have come about by the
    header of a table below it. -/
def openTable (keys : List String) (entries : Entries) : Option Entries :=
  match keys.reverse with
  | [] => none
  | name :: before =>
    change .implied (fun _ es =>
      alter name (fun
        | none => some (.table .header [])
        | some (.table .implied below) => some (.table .header below)
        | some _ => none) es) before.reverse .header entries

/-- Opens a further table of a list by its header. -/
def openListed (keys : List String) (entries : Entries) : Option Entries :=
  match keys.reverse with
  | [] => none
  | name :: before =>
    change .implied (fun _ es =>
      alter name (fun
        | none => some (.listed [[]])
        | some (.listed tables) => some (.listed (tables ++ [[]]))
        | some _ => none) es) before.reverse .header entries

/-- Adds a value to the table that a header has opened. -/
def addBelow (header keys : List String) (v : Value) (entries : Entries) : Option Entries :=
  change .implied (fun _ es => addValue keys v es) header .header entries

/-! ## Finished tables -/

mutual

/-- An item as a value. -/
def Item.toValue : Item → Value
  | .value v => v
  | .table _ entries => .table (entriesToFields entries)
  | .listed tables => .list (tablesToValues tables)

/-- Entries as fields. -/
def entriesToFields : List (String × Item) → List (String × Value)
  | [] => []
  | (k, i) :: rest => (k, i.toValue) :: entriesToFields rest

/-- Listed tables as values. -/
def tablesToValues : List (List (String × Item)) → List Value
  | [] => []
  | t :: rest => .table (entriesToFields t) :: tablesToValues rest

end

end Relink.Toml
