/-
  Relink.ModuleRoot — which module owns a path.

  A module root is the directory that forms the boundary of a module.  It is
  found by a marker file in it, or looked up in a list of known directories.

  Main definitions:
    * `Marker`, `Marker.rootOf` — the nearest directory that holds a marker
    * `Prefixes.rootOf`         — the longest known directory that holds the path
-/

import Relink.Store.Basic

namespace Relink

/-! ## §1. Markers -/

/-- Which files mark a directory as a module root. -/
structure Marker where
  /-- How the name of a marker ends. -/
  suffix : String := ".module.ts"
  /-- How the name of a file that is no marker ends all the same. -/
  excluded : List String := ["-routing.module.ts"]
deriving DecidableEq, Repr, Inhabited

namespace Marker

/-- The part that emits the events of the search. -/
def logTarget : String := "portico_workspace::resolver"

/-- Whether a name ends with a text. -/
def endsWith (name ending : String) : Bool :=
  ending.toList.isSuffixOf name.toList

/-- Whether a name is a marker's. -/
def marksName (m : Marker) (name : String) : Bool :=
  endsWith name m.suffix && !m.excluded.any (endsWith name)

/-- Whether a file is a marker. -/
def marks (m : Marker) (p : Path) : Bool :=
  p.fileName?.any m.marksName

variable {σ : Type} [FileStore σ]

/-- Whether a directory holds a marker; one that cannot be read holds none. -/
def isRoot (m : Marker) (s : σ) (dir : Path) : Traced Bool :=
  match FileStore.children s dir with
  | .ok children => pure (children.any m.marks)
  | .error e => do
    Traced.emit {
      level := .debug, target := logTarget, message := "Skipping unreadable directory"
      fields := [("dir", .text dir.text), ("error", .text e.message)] }
    return false

/-- The first of some directories that holds a marker.  The empty path ends the
    search. -/
def firstRoot (m : Marker) (s : σ) : List Path → Traced (Option Path)
  | [] => pure none
  | dir :: rest =>
    if dir.text.isEmpty then pure none
    else do
      if ← m.isRoot s dir then return some dir
      m.firstRoot s rest

/-- The module root that owns a path: the nearest of the path and its ancestors
    that holds a marker. -/
def rootOf (m : Marker) (s : σ) (p : Path) : Traced (Option Path) := do
  match ← m.firstRoot s p.ancestors with
  | some root =>
    Traced.emit {
      level := .trace, target := logTarget, message := "Resolved module root"
      fields := [("path", .text p.text), ("root", .text root.text)] }
    return some root
  | none =>
    Traced.emit {
      level := .debug, target := logTarget, message := "No module root found"
      fields := [("path", .text p.text)] }
    return none

end Marker

/-! ## §2. Known directories -/

/-- Directories with the module roots that own what lies in them. -/
abbrev Prefixes := List (Path × Path)

namespace Prefixes

/-- The better of two entries: the longer directory, and of two that are
    equally long the later one. -/
def better (best : Option (Path × Path)) (entry : Path × Path) : Option (Path × Path) :=
  match best with
  | none => some entry
  | some b =>
    if entry.1.components.length < b.1.components.length then some b else some entry

/-- The root of the longest known directory that holds a path. -/
def rootOf (known : Prefixes) (p : Path) : Option Path :=
  ((known.filter fun e => p.isWithin e.1).foldl better none).map (·.2)

end Prefixes

end Relink
