/-
  Relink.Config.Toml.Document — a whole TOML text.

  Main definitions:
    * `value`    — a value, with lists and tables nested up to a limit
    * `document` — a text as a tree of values
    * `parse?`
-/

import Relink.Config.Toml.Number
import Relink.Config.Toml.Table

namespace Relink.Toml

open Scan

/-! ## §1. Values -/

/-- The name under which a date stands in a table of its own.  No setting has
    this name. -/
def dateField : String := "date"

/-- A date or a time. -/
def dated : Scan Value := do
  dateTime
  return .table [(dateField, .text "")]

/-- A number that reads as one of two kinds. -/
def numeric : Scan Value := do
  either float integer
  return .number

/-- A text. -/
def quoted : Scan Value := do
  let s ← string
  return .text s

/-- A truth value. -/
def truth : Scan Value :=
  either (do word "true".toList; return .flag true) (do word "false".toList; return .flag false)

/-- A value that holds no others. -/
def scalar : Scan Value :=
  either quoted (either truth (either dated numeric))

/-- An item of a list, with blanks and lines around it. -/
def spacedItem (item : Scan Value) : Scan Value := do
  gapWithLines
  let v ← item
  gapWithLines
  return v

/-- A list.  Its items may stand on lines of their own, and a comma may follow
    the last. -/
def array (item : Scan Value) : Scan Value := do
  char '['
  let items ← option (separated ',' (spacedItem item))
  if items.isSome then
    let _ ← eats ','
  gapWithLines
  char ']'
  return .list (items.getD [])

/-- A key and its value. -/
def pairing (item : Scan Value) : Scan (List String × Value) := do
  let keys ← dottedKey
  char '='
  gap
  let v ← item
  return (keys, v)

/-- A key and its value, with blanks after it. -/
def spacedPairing (item : Scan Value) : Scan (List String × Value) := do
  let p ← pairing item
  gap
  return p

/-- A table on one line. -/
def inlineTable (item : Scan Value) : Scan Value := do
  char '\x7b'
  let pairs ← option (separated ',' (spacedPairing item))
  gap
  char '\x7d'
  match (pairs.getD []).foldlM (fun es p => addValue p.1 p.2 es) [] with
  | some entries => return .table (entriesToFields entries)
  | none => failure

/-- A value in which lists and tables are nested at most so deep. -/
def value : Nat → Scan Value
  | 0 => scalar
  | n + 1 => either scalar (either (array (value n)) (inlineTable (value n)))

/-! ## §2. Lines -/

/-- What has been read: all entries, and the header that was opened last. -/
structure Draft where
  /-- The entries of the outermost table. -/
  entries : Entries := []
  /-- The keys of the last header. -/
  header : List String := []

/-- A header in single or double brackets. -/
def header (d : Draft) : Scan Draft := do
  char '['
  let listed ← eats '['
  let keys ← dottedKey
  char ']'
  if listed then char ']'
  trailing
  match if listed then openListed keys d.entries else openTable keys d.entries with
  | some entries => return { entries := entries, header := keys }
  | none => failure

/-- A line that gives a key its value. -/
def assignment (d : Draft) : Scan Draft := do
  let (keys, v) ← pairing (value (depthLimit - 1))
  trailing
  match addBelow d.header keys v d.entries with
  | some entries => return { d with entries := entries }
  | none => failure

/-- One line. -/
def line (d : Draft) : Scan Draft := do
  gap
  match ← peek? with
  | none => failure
  | some '[' => header d
  | some c =>
    if c = '#' || c = '\n' || c = '\x0d' then
      trailing
      return d
    else assignment d

/-- Lines up to the end of the text, at most `fuel` of them. -/
def lines : Nat → Draft → Scan Draft
  | 0, d => do
    gap
    atEnd
    return d
  | n + 1, d => do
    match ← option (line d) with
    | some d' => lines n d'
    | none => do
      gap
      atEnd
      return d

/-- A whole text; a byte order mark may come first. -/
def document : Scan Value := do
  let _ ← eats (Char.ofNat 0xFEFF)
  let d ← fun cs => lines cs.length {} cs
  return .table (entriesToFields d.entries)

/-- The tree of values a text stands for, if it is well formed. -/
def parse? (text : String) : Option Value :=
  (document text.toList).map (·.1)

end Relink.Toml
