/-
  Relink.Log.Filter — which events are shown.

  A filter is a list of directives separated by commas.  A directive sets how
  much detail is shown, for all parts or for the parts whose name starts with a
  target.  The longest target that fits a part decides; of two equal ones the
  later.  A directive may be limited to a scope in brackets; events happen in no
  scope, so it shows none of them.

  Main definitions:
    * `Directive`, `Directive.parse?`
    * `Filter`, `Filter.parse?`, `Filter.shows`
-/

import Relink.Log
import Relink.Text.Identifier

namespace Relink

/-! ## §1. Directives -/

/-- One directive of a filter. -/
structure Directive where
  /-- The start of the names of the parts it is about; all parts if empty. -/
  target : List Char := []
  /-- Whether it is limited to a scope. -/
  inScope : Bool := false
  /-- The most detail shown, from 0 for nothing to 5 for everything. -/
  detail : Nat := 5
deriving DecidableEq, Repr, Inhabited

namespace Directive

/-- The names of the details. -/
def detailNames : List (String × Nat) :=
  [("off", 0), ("error", 1), ("warn", 2), ("info", 3), ("debug", 4), ("trace", 5)]

/-- A decimal number, with a plus sign allowed. -/
def number? (cs : List Char) : Option Nat :=
  let digits := match cs with
    | '+' :: rest => rest
    | _ => cs
  if digits ≠ [] ∧ digits.all Char.isDigit then
    some (digits.foldl (fun n c => 10 * n + (c.toNat - '0'.toNat)) 0)
  else none

/-- A detail by its number, or by its name in any case. -/
def detail? (cs : List Char) : Option Nat :=
  match number? cs with
  | some n => if n ≤ 5 then some n else none
  | none => detailNames.lookup (String.ofList (cs.map Char.toLower))

/-- What follows `=`: a detail, or nothing for all of it. -/
def detailAfter? (cs : List Char) : Option Nat :=
  if cs.isEmpty then some 5 else detail? cs

/-- Whether a target may start with this character. -/
def startsTarget (c : Char) : Bool :=
  c = '-' || c = ':' || (Text.isIdentifierPart c && c ≠ '$')

/-- What follows the closing bracket of a scope. -/
def afterScope? (target : List Char) : List Char → Option Directive
  | [] => some { target := target, inScope := true }
  | '=' :: rest =>
    (detailAfter? rest).map fun n => { target := target, inScope := true, detail := n }
  | _ => none

/-- What follows the opening bracket of a scope: a name, with fields in braces
    after it. -/
def scope? (target cs : List Char) : Option Directive :=
  match cs.dropWhile fun c => c ≠ ']' && c ≠ '\x7b' with
  | ']' :: rest => afterScope? target rest
  | '\x7b' :: fields =>
    if (fields.takeWhile (· ≠ '\x7d')).isEmpty then none
    else
      match fields.dropWhile (· ≠ '\x7d') with
      | '\x7d' :: ']' :: rest => afterScope? target rest
      | _ => none
  | _ => none

/-- Reads a directive: a detail alone, or a target with a scope and a detail
    after it.  A target without a detail is shown in full. -/
def parse? (cs : List Char) : Option Directive :=
  match cs with
  | [] => none
  | '[' :: rest => scope? [] rest
  | c :: _ =>
    if !startsTarget c then none
    else
      let target := cs.takeWhile fun c => c ≠ '=' && c ≠ '['
      match cs.dropWhile fun c => c ≠ '=' && c ≠ '[' with
      | [] =>
        match detail? cs with
        | some n => some { detail := n }
        | none => some { target := cs }
      | '=' :: rest => (detailAfter? rest).map fun n => { target := target, detail := n }
      | _ :: rest => scope? target rest

/-- Whether the directive speaks of the events of a part. -/
def fits (d : Directive) (part : String) : Bool :=
  !d.inScope && d.target.isPrefixOf part.toList

end Directive

/-! ## §2. Filters -/

/-- The directives that choose what is shown. -/
structure Filter where
  /-- The directives, in the order given. -/
  directives : List Directive
deriving DecidableEq, Repr, Inhabited

namespace Filter

/-- The pieces between commas. -/
def pieces : List Char → List (List Char)
  | [] => [[]]
  | c :: cs =>
    if c = ',' then [] :: pieces cs
    else
      match pieces cs with
      | [] => [[c]]
      | s :: ss => (c :: s) :: ss

/-- Shows errors only: what a filter without directives does. -/
def errorsOnly : Filter := ⟨[{ detail := 1 }]⟩

/-- Reads a filter; nothing between two commas is no directive. -/
def parse? (s : String) : Option Filter :=
  match ((pieces s.toList).filter (· ≠ [])).mapM Directive.parse? with
  | none => none
  | some [] => some errorsOnly
  | some ds => some ⟨ds⟩

/-- The better of two directives: the one with the longer target, or else the
    later. -/
def better (best : Option Directive) (d : Directive) : Option Directive :=
  match best with
  | none => some d
  | some b => if d.target.length < b.target.length then some b else some d

/-- Whether an event is shown. -/
def shows (f : Filter) (e : Event) : Bool :=
  ((f.directives.filter (·.fits e.target)).foldl better none).any fun d =>
    e.level.detail ≤ d.detail

end Filter

end Relink
