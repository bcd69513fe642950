/-
  Relink.Redirect — redirecting the imports of a file.

  An import that points into another module by a relative path is turned into
  an import of that module by its name.  Imports of packages and imports within
  the module stay as they are.

  Main definitions:
    * `Destination`, `classify` — where an import points
    * `crossImports`    — the imports of other modules
    * `planFile`        — the edits a file needs
    * `redirectText`    — the new text of a file
    * `redirectFile`    — the same on a store
-/

import Relink.Plan
import Relink.Store.Basic

namespace Relink

open Source

/-! ## §1. Where an import points -/

/-- Where an import points, seen from its module. -/
inductive Destination where
  /-- To a package. -/
  | package
  /-- Into its own module. -/
  | sameModule
  /-- Into another module, with that module's root. -/
  | otherModule (root : Path)
deriving DecidableEq, Repr, Inhabited

/-- The name of a destination. -/
def Destination.label : Destination → String
  | .package => "external"
  | .sameModule => "same-module"
  | .otherModule _ => "cross-module"

/-- Finds the module root that owns a path. -/
abbrev RootFinder := Path → Traced (Option Path)

/-- Where a specifier in a file of the module at `importingRoot` points. -/
def classify (rootOf : RootFinder) (file importingRoot : Path) (specifier : String) :
    ExceptT Failure Traced Destination :=
  if !isRelative specifier then pure .package
  else do
    let target := importTarget file specifier
    match ← rootOf target with
    | none => throw (.unresolved target)
    | some root => return if root.same importingRoot then .sameModule else .otherModule root

/-! ## §2. Planning -/

/-- The part that emits the events of redirecting. -/
def redirectLogTarget : String := "portico_rules::rewriter"

/-- The imports of other modules among some imports of a file. -/
def crossImports (rootOf : RootFinder) (file importingRoot : Path) :
    List ImportToken → ExceptT Failure Traced (List CrossImport)
  | [] => pure []
  | t :: ts => do
    let destination ← classify rootOf file importingRoot t.specifier
    Traced.emit {
      level := .debug, target := redirectLogTarget, message := "Classified import"
      fields := [("file", .text file.text), ("specifier", .text t.specifier),
        ("classification", .text destination.label)] }
    let others ← crossImports rootOf file importingRoot ts
    match destination with
    | .otherModule root => return ⟨t, root⟩ :: others
    | _ => return others

/-- The edits for the imports of a file.  Without a relative import no module is
    looked up. -/
def planImports (l : Layout) (rootOf : RootFinder) (file : Path) (text : String)
    (tokens : List ImportToken) : ExceptT Failure Traced (List Edit) :=
  if !tokens.any ImportToken.isRelative then pure []
  else do
    match ← rootOf file with
    | none => throw (.unresolved file)
    | some importingRoot =>
      let found ← crossImports rootOf file importingRoot tokens
      planEdits l text found

/-- The edits a file with this text needs. -/
def planFile (l : Layout) (rootOf : RootFinder) (file : Path) (text : String) :
    ExceptT Failure Traced (List Edit) :=
  match imports? (Dialect.ofPath file) text with
  | none => throw (.parse file)
  | some tokens => planImports l rootOf file text tokens

/-! ## §3. Redirecting -/

/-- The new text of a file, or none if it stays as it is. -/
def redirectText (l : Layout) (rootOf : RootFinder) (file : Path) (text : String) :
    ExceptT Failure Traced (Option String) := do
  let edits ← planFile l rootOf file text
  if edits.isEmpty then
    Traced.emit {
      level := .debug, target := redirectLogTarget, message := "No cross-module imports"
      fields := [("file", .text file.text)] }
    return none
  match applyEdits text edits with
  | .error e => throw e
  | .ok new =>
    Traced.emit {
      level := .info, target := redirectLogTarget, message := "Rewrote cross-module imports"
      fields := [("file", .text file.text), ("edits", .count edits.length)] }
    return some new

/-- Redirects the imports of a file of a store: the new text, if there is one,
    and the store afterwards. -/
def redirectFile {σ : Type} [FileStore σ] (l : Layout) (rootOf : RootFinder) (s : σ)
    (file : Path) : Traced (Except Failure (Option String) × σ) :=
  match FileStore.read s file with
  | .error e => pure (.error (.read file e), s)
  | .ok text => do
    match ← (redirectText l rootOf file text).run with
    | .error e => return (.error e, s)
    | .ok none => return (.ok none, s)
    | .ok (some new) =>
      match ← FileStore.write s file new with
      | (.error e, s') => return (.error (.write file e), s')
      | (.ok _, s') => return (.ok (some new), s')

end Relink
