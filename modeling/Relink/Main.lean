/-
  Relink.Main — the command line.

  Reads the places that a command looks at into a `Disk`, runs the command on
  it, writes back the files that changed and prints what was said.

  A `Disk` has no links.  Below an input none is followed: a link is listed by
  its name, and nothing in it is visited, as if it were an empty directory.
  Where a path leads through a link, what is listed behind it counts in the
  same way, by name only.

  Main definitions:
    * `readBelow`   — all that lies in an input
    * `readAlong`   — what is listed on the way along some paths
    * `readDisk`    — all places that a command looks at
    * `replaceFile` — writing by way of a temporary file
    * `run`         — the program
-/

import Relink.Command.Surroundings
import Relink.Log.Render

namespace Relink.Main

/-! ## §1. The environment -/

/-- The variable in an entry `name=value`, if the entry is a text. -/
def variableOf? (bytes : List UInt8) : Option (String × String) := do
  let entry ← String.fromUTF8? ⟨bytes.toArray⟩
  match entry.splitOn "=" with
  | name :: value :: rest => some (name, String.intercalate "=" (value :: rest))
  | _ => none

/-- Reads the variables of the environment, each on its own: one that is no
    text is left out. -/
def readVariables : IO Variables := do
  try
    let bytes ← IO.FS.readBinFile "/proc/self/environ"
    return (bytes.toList.splitOn 0).filterMap variableOf?
  catch _ => return []

/-! ## §2. Reading places -/

/-- A path as the system takes it. -/
def systemPath (p : Path) := (· / p.text) <$> IO.currentDir

/-- Reads a file; one that cannot be read holds no text. -/
def readContent (p : Path) : IO Content := do
  try
    return .ofBytes (← IO.FS.readBinFile p.text).toList
  catch _ => return .bytes []

/-- The file system with a place that is listed, unless more is known of it. -/
def withListed (d : Disk) (p : Path) (n : Node) : Disk :=
  if (d.node? (Disk.namesOf p)).isSome then d else d.putWithParents (Disk.namesOf p) n

/-- Reads what a path leads to: a directory as such, a file with its content. -/
def readTarget (d : Disk) (p : Path) : IO Disk := do
  let place ← systemPath p
  if ← place.isDir then return withListed d p .directory
  if ← place.pathExists then
    return d.putWithParents (Disk.namesOf p) (.file (← readContent p))
  return d

/-- Reads all that lies in a directory, however deep.  Directories that a search
    leaves out are not entered. -/
partial def readBelow (d : Disk) (dir : Path) : IO Disk := do
  let mut known := d
  for entry in ← (← systemPath dir).readDir do
    let p := dir.join ⟨entry.fileName⟩
    match (← entry.path.symlinkMetadata).type with
    | .file => known := known.putWithParents (Disk.namesOf p) (.file (← readContent p))
    | .dir =>
      known := withListed known p .directory
      unless isSkipped entry.fileName do known ← readBelow known p
    -- what is neither, a link above all, ends the walk
    | _ => known := withListed known p .directory
  return known

/-- Reads an input: a file, or a directory with all that lies in it. -/
def readInput (d : Disk) (p : Path) : IO Disk := do
  let known ← readTarget d p
  unless ← (← systemPath p).isDir do return known
  try readBelow known p
  catch e => throw (IO.userError ("Failed to walk " ++ p.text ++ ": " ++ toString e))

/-- Reads what a directory lists, without the content of files.  One that cannot
    be read lists nothing. -/
def readListing (d : Disk) (dir : Path) : IO Disk := do
  let place ← systemPath dir
  unless ← place.isDir do return d
  let mut known := withListed d dir .directory
  try
    let direct := (← IO.FS.realPath place) == place
    for entry in ← place.readDir do
      let isFile := direct && (← entry.path.symlinkMetadata).type == .file
      known := withListed known (dir.join ⟨entry.fileName⟩)
        (if isFile then .file (.bytes []) else .directory)
    return known
  catch _ => return known

/-- Reads the listings of all directories that some paths pass through or lead
    to, each once.  A path may step back by `..`: the places it leaves again
    have to be there, too. -/
def readAlong (d : Disk) (ps : List Path) : IO Disk :=
  let dirs := ps.flatMap fun p => p.ancestors.map fun dir => Disk.pathOf (Disk.namesOf dir)
  (Path.sortedSet dirs).foldlM readListing d

/-- Reads all places that a command looks at. -/
def readDisk (vars : Variables) (i : Invocation) : IO Disk := do
  let here : Path := ⟨(← IO.currentDir).toString⟩
  let place (p : Path) : Path := Disk.pathOf (Disk.namesOf (here.join p))
  let mut d ← readAlong { current := Disk.namesOf here } (here :: (configPaths i).map here.join)
  for p in configPaths i do
    d ← readTarget d (place p)
  match Config.load d vars i.config with
  | .error _ => return d
  | .ok c =>
    let spelled := c.rules.workspaceRoot.toList ++ inputsOf i.command
    d ← readAlong d (spelled.map here.join)
    if let .redirect paths _ := i.command then
      for p in paths do
        d ← readInput d (place p)
    readAlong d (targetsOf d vars i)

/-! ## §3. Writing files -/

/-- Writes a text to a new file beside its place, readable by its owner only, and
    moves that there, so nobody reads half a text. -/
def replaceFile (p : Path) (text : String) : IO Unit := do
  -- a link that was named stays, and the file it leads to is replaced
  let place ← IO.FS.realPath p.text
  let digits := (← IO.getRandomBytes 8).toList.map fun b => toString b.toNat
  let temp := place.withFileName (".tmp" ++ String.join digits)
  let handle ← IO.FS.Handle.mk temp .writeNew
  try
    IO.setAccessRights temp { user := { read := true, write := true } }
    handle.putStr text
    handle.flush
    IO.FS.rename temp place
  catch e =>
    IO.FS.removeFile temp
    throw e

/-- Writes files in turn, up to the first that cannot be written. -/
def writeBack (files : List (Path × String)) : IO Unit :=
  files.forM fun (p, text) => do
    try replaceFile p text
    catch e => throw (IO.userError (RunError.notWritten (.failed p (toString e))).message)

/-! ## §4. The program -/

/-- How the program is used. -/
def usageLines : List String := [
  "Usage: portico [--config <CONFIG>] rewrite <PATHS>... [--dry-run | --check]",
  "       portico [--config <CONFIG>] canonicalize <MODULE_ROOT>"]

/-- Prints something said beside the output. -/
def printNotice : Notice → IO Unit
  | .line s => IO.eprintln s
  | .event .json e => IO.eprintln e.json
  | .event .pretty e => IO.eprintln e.pretty
  | .usage => usageLines.forM fun s => IO.eprintln s

/-- Runs a command line and tells its exit code.  If the system refuses to read
    or to write, the reason is all that is said. -/
def run (words : List String) : IO UInt32 := do
  try
    let vars ← readVariables
    let before ← match parseArguments words with
      | .run i => readDisk vars i
      | _ => pure {}
    let outcome := program before vars words
    writeBack (changedFiles before outcome.disk)
    outcome.notices.forM printNotice
    outcome.output.forM fun s => IO.println s
    return outcome.exit.toUInt32
  catch e =>
    printNotice (errorLine (toString e))
    return 2

end Relink.Main

/-- Runs the program. -/
def main (words : List String) : IO UInt32 := Relink.Main.run words
