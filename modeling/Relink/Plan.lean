/-
  Relink.Plan — the edits that turn imports into imports by name.

  Main definitions:
    * `replacementEdit` — the edit that gives an import a new specifier
    * `planEdits`       — the edits for all imports of other modules
-/

import Relink.Edit
import Relink.Layout
import Relink.Log
import Relink.Source.Imports

namespace Relink

open Source

/-- The mark that ends a statement. -/
def terminator : Char := ';'

/-- The edit that gives an import a new specifier in its quotes.  A terminator
    right after the literal is taken along, and one is added where the statement
    ends with the literal; anything else after the literal stays. -/
def replacementEdit (text : String) (token : ImportToken) (specifier : String) : Edit :=
  let file := text.toList
  let literal := String.ofList [token.quote] ++ specifier ++ String.ofList [token.quote]
  let tail := (Text.slice? token.stop token.statementEnd file).getD []
  if tail ≠ [] ∧ tail ≠ [terminator] then
    { start := token.start, stop := token.stop, content := literal }
  else
    let followed := (Text.from? token.stop file).any fun rest => rest.head? = some terminator
    { start := token.start
      stop := if followed then token.stop + terminator.utf8Size else token.stop
      content := literal ++ String.ofList [terminator] }

/-- An import of another module, with that module's root. -/
structure CrossImport where
  /-- The import. -/
  token : ImportToken
  /-- The root of the module it points into. -/
  targetRoot : Path
deriving DecidableEq, Repr, Inhabited

/-- A warning about an import of a misplaced module. -/
def mismatchWarning (i : CrossImport) (message : String) : Event :=
  { level := .warn
    target := "portico_rules::planner"
    message := message
    fields := [("specifier", .text i.token.specifier), ("module_root", .text i.targetRoot.text)] }

/-- What becomes of one import: its new specifier, or none if it stays. -/
def newSpecifier (l : Layout) (i : CrossImport) : ExceptT Failure Traced (Option String) :=
  match l.packageName? i.targetRoot with
  | some name => pure (some name)
  | none =>
    match l.onMismatch with
    | .error => throw (.misplaced i.targetRoot)
    | .skip => do
      Traced.emit (mismatchWarning i
        "Leaving import untouched: module root outside workspace layout")
      return none
    | .legacyEmpty => do
      Traced.emit (mismatchWarning i
        "Rewriting import to empty specifier: module root outside workspace layout")
      return some ""

/-- The edits for imports of other modules, in their order. -/
def planEdits (l : Layout) (text : String) : List CrossImport → ExceptT Failure Traced (List Edit)
  | [] => pure []
  | i :: is => do
    let specifier ← newSpecifier l i
    let edits ← planEdits l text is
    return (specifier.map (replacementEdit text i.token)).toList ++ edits

end Relink
