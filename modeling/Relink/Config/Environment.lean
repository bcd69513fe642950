/-
  Relink.Config.Environment — settings in environment variables.

  A variable whose name starts with `PORTICO__` sets the value that the rest of
  its name leads to, with `__` or `.` between keys.  The value may be a truth
  value, a number, a list in brackets, a table in braces or a text in quotes; it
  is a plain text if it cannot be read as one of these to its end.

  Main definitions:
    * `keysOf?`     — the keys a variable sets
    * `valueOf`     — the value of a variable
    * `ofVariables` — all settings of an environment
-/

import Relink.Config.Toml.Text
import Relink.Config.Value
import Relink.Text.Blank

namespace Relink.Environment

open Scan

/-! ## §1. Names -/

/-- How the name of a variable that holds a setting starts, in any case. -/
def mark : List Char := "PORTICO__".toList

/-- Every two underscores in a row become a dot. -/
def dotted : List Char → List Char
  | '_' :: '_' :: rest => '.' :: dotted rest
  | c :: rest => c :: dotted rest
  | [] => []

/-- The pieces between dots. -/
def pieces : List Char → List (List Char)
  | [] => [[]]
  | c :: cs =>
    if c = '.' then [] :: pieces cs
    else
      match pieces cs with
      | [] => [[c]]
      | s :: ss => (c :: s) :: ss

/-- The keys that a variable sets, if it holds a setting.  No key may be
    empty. -/
def keysOf? (name : String) : Option (List String) :=
  let cs := Text.trim name.toList
  if (cs.take mark.length).map Char.toUpper ≠ mark then none
  else
    let keys := pieces (Text.trim ((dotted (cs.drop mark.length)).map Char.toLower))
    if keys.any (·.isEmpty) then none else some (keys.map String.ofList)

/-! ## §2. Values -/

/-- Blanks. -/
def blanks : Scan Unit := do
  let _ ← takeWhile Text.isAsciiSpace

/-- Characters of a text in quotes, the escapes still in it. -/
def quotedRaw : List Char → Option (List Char × List Char)
  | [] => none
  | '\x22' :: rest => some ([], '\x22' :: rest)
  | '\\' :: c :: rest => (quotedRaw rest).map fun (cs, r) => ('\\' :: c :: cs, r)
  | c :: rest => (quotedRaw rest).map fun (cs, r) => (c :: cs, r)

/-- One character of a text in quotes. -/
def quotedChar : Scan Char :=
  either (satisfying fun c => c ≠ '\\') (do
    char '\\'
    Toml.escape)

/-- A text in quotes. -/
def quoted : Scan String := do
  char '\x22'
  let raw ← quotedRaw
  char '\x22'
  match (do
    let cs ← many quotedChar
    atEnd
    return cs : Scan (List Char)) raw with
  | some (cs, _) => return String.ofList cs
  | none => failure

/-- What ends a text without quotes. -/
def isSeparator (c : Char) : Bool :=
  c = ',' || c = '\x7b' || c = '\x7d' || c = '[' || c = ']'

/-- Digits, with at least one if `needed` holds. -/
def areDigits (needed : Bool) (cs : List Char) : Bool :=
  cs.all Char.isDigit && (!needed || !cs.isEmpty)

/-- A text without the sign at its start. -/
def unsigned : List Char → List Char
  | '+' :: cs => cs
  | '-' :: cs => cs
  | cs => cs

/-- Whether a text is a whole number that fits 64 bits, with a sign or
    without. -/
def isInteger (cs : List Char) : Bool :=
  let digits := unsigned cs
  let n := digits.foldl (fun n c => 10 * n + (c.toNat - '0'.toNat)) 0
  areDigits true digits && (if cs.head? = some '-' then n ≤ 1 <<< 63 else n < 1 <<< 64)

/-- Whether a text is a number with a point in it. -/
def isPointed (cs : List Char) : Bool :=
  let body := unsigned cs
  let isMark (c : Char) : Bool := c = 'e' || c = 'E'
  let mantissa := body.takeWhile fun c => !isMark c
  let whole := mantissa.takeWhile (· ≠ '.')
  match mantissa.dropWhile (· ≠ '.') with
  | '.' :: fraction =>
    areDigits false whole && areDigits false fraction && !(whole ++ fraction).isEmpty &&
      match body.dropWhile fun c => !isMark c with
      | [] => true
      | _ :: exponent => areDigits true (unsigned exponent)
  | _ => false

/-- The value of a text without quotes. -/
def plain (cs : List Char) : Value :=
  if isPointed cs || isInteger cs then .number else .text (String.ofList cs)

/-- A text without quotes, up to a separator. -/
def unquoted : Scan Value := do
  let cs ← takeWhile fun c => !isSeparator c
  return plain (Text.trim cs)

/-- One character between apostrophes. -/
def single : Scan Value := do
  char '\x27'
  let c ← any
  char '\x27'
  return .text (String.ofList [c])

/-- Items up to the closing mark, with commas between them and at most one
    after the last. -/
def itemsUpTo {α : Type} (close : Char) (item : Scan α) : Nat → Scan (List α)
  | 0 => failure
  | n + 1 => do
    if ← eats close then return []
    let first ← item
    if ← eats ',' then
      let rest ← itemsUpTo close item n
      return first :: rest
    char close
    return [first]

/-- Items between two marks. -/
def enclosed {α : Type} (start close : Char) (item : Scan α) : Scan (List α) := do
  char start
  fun cs => itemsUpTo close item (cs.length + 1) cs

/-- The name of a field. -/
def fieldName : Scan String := do
  match ← peek? with
  | some '\x22' => quoted
  | _ => Toml.bareKey

/-- A field of a table. -/
def field (item : Scan Value) : Scan (String × Value) := do
  blanks
  let k ← fieldName
  blanks
  char '='
  let v ← item
  return (k, v)

/-- A value by its first character; lists and tables hold `item`s. -/
def valueWith (item : Scan Value) : Scan Value := do
  match ← peek? with
  | some '\x7b' =>
    let fields ← enclosed '\x7b' '\x7d' (field item)
    return .table (fields.foldl (fun fs f => Value.put f.1 f.2 fs) [])
  | some '[' =>
    let items ← enclosed '[' ']' item
    return .list items
  | some '\x22' =>
    let s ← quoted
    return .text s
  | some '\x27' => single
  | _ => unquoted

/-- A truth value, or what `other` reads. -/
def truthOr (other : Scan Value) : Scan Value :=
  either (do word "true".toList; return .flag true)
    (either (do word "false".toList; return .flag false) other)

/-- A value with blanks around it, in which lists and tables are nested at most
    so deep. -/
def value : Nat → Scan Value
  | 0 => failure
  | n + 1 => do
    blanks
    let v ← truthOr (valueWith (value n))
    blanks
    return v

/-- The value of a variable. -/
def valueOf (text : String) : Value :=
  let cs := text.toList
  match value (cs.length + 1) cs with
  | some (v, []) => v
  | _ => .text text

/-! ## §3. Environments -/

/-- The settings in some variables; a later one is laid over an earlier one. -/
def ofVariables (vars : List (String × String)) : Value :=
  vars.foldl
    (fun acc v =>
      match keysOf? v.1 with
      | none => acc
      | some keys => (Value.nest keys (valueOf v.2)).overlay acc)
    (.table [])

end Relink.Environment
