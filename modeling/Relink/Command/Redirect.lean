/-
  Relink.Command.Redirect — redirecting the imports of many files.

  All new texts are staged first and written at the end.  A file that fails is
  never staged, so the others are still written.

  Main definitions:
    * `RunError`, `Report`
    * `collectFiles`   — the files to visit
    * `workspaceRoot`  — the directory modules are looked for in
    * `redirectAll`    — the run
-/

import Relink.Command.Arguments
import Relink.Config.Basic
import Relink.Redirect
import Relink.Store.Disk
import Relink.Store.Overlay

namespace Relink

/-! ## §1. Reports -/

/-- Why a run came to nothing. -/
inductive RunError where
  /-- A path leads nowhere. -/
  | noAccess (path : Path) (error : OsError)
  /-- The workspace root leads nowhere. -/
  | noWorkspace (root : Path) (error : OsError)
  /-- A new text could not be written. -/
  | notWritten (error : StoreError)
deriving DecidableEq, Repr, Inhabited

/-- The error in words, each cause after what it caused. -/
def RunError.message : RunError → String
  | .noAccess p e => "Cannot access " ++ p.text ++ ": " ++ e.message
  | .noWorkspace p e => "Cannot access workspace root " ++ p.text ++ ": " ++ e.message
  | .notWritten (.notFound p) =>
    "Failed to write rewritten files: " ++ (StoreError.notFound p).message
  | .notWritten (.failed p reason) =>
    "Failed to write rewritten files: " ++ (StoreError.failed p reason).message ++ ": " ++ reason

/-- What a run did. -/
structure Report where
  /-- How many files were visited. -/
  scanned : Nat := 0
  /-- The files that changed, or would change. -/
  changed : List Path := []
  /-- The files that failed, and why. -/
  failed : List (Path × Failure) := []
deriving DecidableEq, Repr, Inhabited

/-- The part that emits the events of a run. -/
def runLogTarget : String := "portico::cli::rewrite"

/-! ## §2. Files and workspace -/

/-- Whether a directory with this name is left out when a directory is
    searched. -/
def isSkipped (name : String) : Bool :=
  name.toList.head? = some '.' || name = "node_modules"

/-- The files found by searching a directory, so many levels deep.  What lies in
    it is a file, which counts by its extension, or a directory, which is
    searched too if it is not left out. -/
def search (c : Config) (d : Disk) : Nat → Names → List Path
  | 0, _ => []
  | depth + 1, dir =>
    (d.namesIn dir).flatMap fun name =>
      match d.node? (dir ++ [name]) with
      | some (.file _) => [Disk.pathOf (dir ++ [name])].filter c.handles
      | some .directory => if isSkipped name then [] else search c d depth (dir ++ [name])
      | none => []

/-- How deep the deepest place lies. -/
def Disk.depth (d : Disk) : Nat :=
  (d.places.map (·.1.length)).foldr max 0

/-- The files found by searching a directory, as deep as there is anything. -/
def filesIn (c : Config) (d : Disk) (dir : Names) : List Path :=
  search c d d.depth dir

/-- The files that one input stands for: the file itself, or those found in the
    directory. -/
def filesOf (c : Config) (d : Disk) (input : Path) : Except RunError (List Path) :=
  match d.find input with
  | .error e => .error (.noAccess input e)
  | .ok (ns, .file _) => .ok [Disk.pathOf ns]
  | .ok (ns, .directory) => .ok (filesIn c d ns)

/-- The files to visit, sorted, each once. -/
def collectFiles (c : Config) (d : Disk) (inputs : List Path) :
    ExceptT RunError Traced (List Path) := do
  let found ← (inputs.mapM (filesOf c d) : Except RunError (List (List Path)))
  let files := Path.sortedSet found.flatten
  Traced.emit {
    level := .debug, target := runLogTarget, message := "Collected files"
    fields := [("count", .count files.length)] }
  return files

/-- The directory modules are looked for in: the one configured, or the working
    directory. -/
def workspaceRoot (c : Config) (d : Disk) : Except RunError Path :=
  let root := c.rules.workspaceRoot.getD (Disk.pathOf d.current)
  match d.realPath root with
  | .ok p => .ok p
  | .error e => .error (.noWorkspace root e)

/-- Where modules lie below the workspace root. -/
def Config.layout (c : Config) (root : Path) : Layout where
  container := c.rules.container
  workspaceRoot := some root
  onMismatch := c.rules.onMismatch

/-! ## §3. The run -/

/-- Redirects files one after the other, in an overlay. -/
def redirectEach (l : Layout) (m : Marker) :
    List Path → Overlay Disk → Report → Traced (Report × Overlay Disk)
  | [], o, r => pure (r, o)
  | f :: fs, o, r => do
    let (result, o') ← redirectFile l (m.rootOf o) o f
    redirectEach l m fs o' <|
      match result with
      | .ok (some _) => { r with changed := r.changed ++ [f] }
      | .ok none => r
      | .error e => { r with failed := r.failed ++ [(f, e)] }

/-- Ends a run: writes the staged files, or forgets them. -/
def conclude (mode : Mode) (o : Overlay Disk) : Traced (Except RunError Unit × Disk) := do
  match mode with
  | .write =>
    let (result, o') ← o.commit
    match result with
    | .ok _ => return (.ok (), o'.base)
    | .error e => return (.error (.notWritten e), o'.base)
  | _ =>
    let (_, o') ← o.discard
    return (.ok (), o'.base)

/-- Redirects the imports of all files, below the workspace root. -/
def redirectFiles (c : Config) (d : Disk) (mode : Mode) (files : List Path) (root : Path) :
    Traced (Except RunError Report × Disk) := do
  Traced.emit {
    level := .info, target := runLogTarget, message := "Starting import rewrite"
    fields := [("files", .count files.length), ("workspace", .text root.text),
      ("mode", .text mode.label)] }
  let (report, o) ←
    redirectEach (c.layout root) c.rules.marker files { base := d } { scanned := files.length }
  let (result, d') ← conclude mode o
  match result with
  | .ok _ => return (.ok report, d')
  | .error e => return (.error e, d')

/-- Redirects the imports of all files that some inputs stand for. -/
def redirectAll (c : Config) (d : Disk) (inputs : List Path) (mode : Mode) :
    Traced (Except RunError Report × Disk) := do
  match ← (collectFiles c d inputs).run with
  | .error e => return (.error e, d)
  | .ok files =>
    match workspaceRoot c d with
    | .error e => return (.error e, d)
    | .ok root => redirectFiles c d mode files root

end Relink
