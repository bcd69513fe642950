/-
  Relink.Workspace — a workspace laid out in memory.

  Projects live below `projects`, each with a marker file that makes its
  directory a module root.

  Main definitions:
    * `Workspace`, `Workspace.addProject`, `Workspace.addFile`
    * `Workspace.rootOf` — the module root that owns a path
-/

import Relink.Layout
import Relink.ModuleRoot
import Relink.Store.Memory
import Relink.Text.Upper

namespace Relink

/-- A name with each part between `-` and `_` starting in upper case, and the
    parts put together. -/
def pascalCase (name : String) : String :=
  String.ofList ((splitParts name.toList).flatMap capitalized)
where
  /-- The pieces between separators. -/
  splitParts : List Char → List (List Char)
    | [] => [[]]
    | c :: cs =>
      if c = '-' || c = '_' then [] :: splitParts cs
      else
        match splitParts cs with
        | [] => [[c]]
        | s :: ss => (c :: s) :: ss
  /-- A piece with its first letter in upper case. -/
  capitalized : List Char → List Char
    | [] => []
    | c :: cs => Text.upper c ++ cs

/-- Files in memory below a root directory. -/
structure Workspace where
  /-- The directory relative paths start from. -/
  root : Path := ⟨"/ws"⟩
  /-- The files. -/
  store : Memory := {}
deriving DecidableEq, Repr, Inhabited

namespace Workspace

/-- A path seen from the root directory. -/
def absolute (w : Workspace) (relative : String) : Path :=
  w.root.join ⟨relative⟩

/-- The workspace with one more file. -/
def addFile (w : Workspace) (relative text : String) : Workspace :=
  { w with store := w.store.insert (w.absolute relative) text }

/-- Where the marker file of a project lies. -/
def markerPath (name : String) : String :=
  defaultContainer ++ "/" ++ name ++ "/" ++ name ++ ".module.ts"

/-- The workspace with one more project: a marker file in its directory. -/
def addProject (w : Workspace) (name : String) : Workspace :=
  w.addFile (markerPath name) ("export class " ++ pascalCase name ++ "Module \x7b\x7d\n")

/-- The text of a file. -/
def textOf (w : Workspace) (relative : String) : Except StoreError String :=
  FileStore.read w.store (w.absolute relative)

/-- What is said when a file that must be there cannot be read. -/
def readFault (w : Workspace) (relative : String) (e : StoreError) : String :=
  "Failed to read file '" ++ (w.absolute relative).text ++ "': " ++ e.message

/-- The module root that owns a path. -/
def rootOf (w : Workspace) (relative : String) : Option Path :=
  (Marker.rootOf {} w.store (w.absolute relative)).value

end Workspace

end Relink
