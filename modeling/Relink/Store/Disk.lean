/-
  Relink.Store.Disk — a file system as a value.

  Directories and files by the names that lead to them from the root, and a
  working directory for relative paths.  A path is walked segment by segment:
  every place it passes through must be a directory.  Symbolic links and
  permissions are not part of it.

  Main definitions:
    * `OsError`, `Content`, `Node`, `Disk`
    * `Disk.locate`     — where a path leads
    * `Disk.makeAll`    — a directory with all its ancestors
    * `Disk.realPath`   — the path of a place without `.` and `..`
    * the `FileStore` instance
-/

import Relink.Store.Basic

namespace Relink

/-! ## §1. Errors -/

/-- Why the system refuses an operation. -/
inductive OsError where
  | noEntry
  | notDirectory
  | isDirectory
  | alreadyThere
  | busy
  | invalidText
deriving DecidableEq, Repr, Inhabited

namespace OsError

/-- The reason in words. -/
def message : OsError → String
  | .noEntry => "No such file or directory (os error 2)"
  | .notDirectory => "Not a directory (os error 20)"
  | .isDirectory => "Is a directory (os error 21)"
  | .alreadyThere => "File exists (os error 17)"
  | .busy => "Device or resource busy (os error 16)"
  | .invalidText => "stream did not contain valid UTF-8"

/-- The reason as the cause of a store error. -/
def cause (e : OsError) : Cause := ⟨e = .noEntry, e.message⟩

end OsError

/-! ## §2. Files and directories -/

/-- What a file holds. -/
inductive Content where
  /-- A text. -/
  | text (s : String)
  /-- Bytes that are no text. -/
  | bytes (bs : List UInt8)
deriving DecidableEq, Repr, Inhabited

/-- The content made of some bytes. -/
def Content.ofBytes (bs : List UInt8) : Content :=
  match String.fromUTF8? ⟨bs.toArray⟩ with
  | some s => .text s
  | none => .bytes bs

/-- What a place of the file system is. -/
inductive Node where
  | directory
  | file (content : Content)
deriving DecidableEq, Repr, Inhabited

/-- The names that lead from the root to a place. -/
abbrev Names := List String

/-- A file system and the directory that relative paths start from. -/
structure Disk where
  /-- Every place but the root, sorted by names. -/
  places : List (Names × Node) := []
  /-- Where relative paths start. -/
  current : Names := []
deriving DecidableEq, Repr, Inhabited

namespace Disk

/-- What a place is, if it is there. -/
def node? (d : Disk) : Names → Option Node
  | [] => some .directory
  | ns => d.places.lookup ns

/-- Lexicographic order of names. -/
def namesBefore : Names → Names → Bool
  | [], [] => false
  | [], _ :: _ => true
  | _ :: _, [] => false
  | a :: as, b :: bs => if a = b then namesBefore as bs else a < b

/-- Puts a node at a place, keeping the order. -/
def putNode (ns : Names) (n : Node) : List (Names × Node) → List (Names × Node)
  | [] => [(ns, n)]
  | (ms, m) :: rest =>
    if ns = ms then (ns, n) :: rest
    else if namesBefore ns ms then (ns, n) :: (ms, m) :: rest
    else (ms, m) :: putNode ns n rest

/-- The file system with a node put at a place. -/
def put (d : Disk) (ns : Names) (n : Node) : Disk :=
  { d with places := putNode ns n d.places }

/-- The file system with a place and all directories that lead to it. -/
def putWithParents (d : Disk) (ns : Names) (n : Node) : Disk :=
  let parents := (List.range ns.length).map (ns.take ·)
  let base := parents.foldl
    (fun acc p => if (acc.node? p).isSome then acc else acc.put p .directory) d
  base.put ns n

/-- The names of what lies directly in a place. -/
def namesIn (d : Disk) (ns : Names) : List String :=
  d.places.filterMap fun (ms, _) =>
    if ms.dropLast = ns then ms.getLast? else none

/-- The path of a place. -/
def pathOf (ns : Names) : Path :=
  ⟨"/" ++ String.intercalate "/" ns⟩

/-- The names a path spells, `.` and `..` folded away. -/
def namesOf (p : Path) : Names :=
  (p.components.foldl Path.Place.step {}).names.reverse

/-- Every file below a place, by its path from there, sorted by that text. -/
def filesBelow (d : Disk) (ns : Names) : List (String × Content) :=
  let found := d.places.filterMap fun (ms, n) =>
    match n with
    | .file content =>
      if ns.isPrefixOf ms then some (String.intercalate "/" (ms.drop ns.length), content)
      else none
    | .directory => none
  found.mergeSort fun a b => a.1 ≤ b.1

/-! ## §3. Walking -/

/-- Where a path leads. -/
inductive Place where
  /-- To something that is there. -/
  | present (names : Names) (node : Node)
  /-- To a missing name in a directory. -/
  | absent (names : Names)
deriving DecidableEq, Repr, Inhabited

/-- Walks some segments from a place. -/
def walk (d : Disk) : Names → List String → Except OsError Place
  | ns, [] =>
    match d.node? ns with
    | some n => .ok (.present ns n)
    | none => .error .noEntry
  | ns, s :: rest =>
    match d.node? ns with
    | none => .error .noEntry
    | some (.file _) => .error .notDirectory
    | some .directory =>
      if s = "" || s = "." then walk d ns rest
      else if s = ".." then walk d ns.dropLast rest
      else if (d.node? (ns ++ [s])).isSome || !rest.isEmpty then walk d (ns ++ [s]) rest
      else .ok (.absent (ns ++ [s]))

/-- Where a path leads; the empty path leads nowhere. -/
def locate (d : Disk) (p : Path) : Except OsError Place :=
  if p.text.isEmpty then .error .noEntry
  else
    walk d (if p.isAbsolute then [] else d.current)
      ((Path.segments p.text.toList).map String.ofList)

/-- What a path leads to, which must be there. -/
def find (d : Disk) (p : Path) : Except OsError (Names × Node) :=
  match d.locate p with
  | .ok (.present ns n) => .ok (ns, n)
  | .ok (.absent _) => .error .noEntry
  | .error e => .error e

/-- Whether a path leads to a directory. -/
def isDirectory (d : Disk) (p : Path) : Bool :=
  match d.find p with
  | .ok (_, .directory) => true
  | _ => false

/-- Whether a path leads to a file. -/
def isFile (d : Disk) (p : Path) : Bool :=
  match d.find p with
  | .ok (_, .file _) => true
  | _ => false

/-- The path of the place a path leads to. -/
def realPath (d : Disk) (p : Path) : Except OsError Path :=
  (d.find p).map fun (ns, _) => pathOf ns

/-! ## §4. Reading and writing -/

/-- The text of a file. -/
def readText (d : Disk) (p : Path) : Except OsError String :=
  match d.find p with
  | .error e => .error e
  | .ok (_, .directory) => .error .isDirectory
  | .ok (_, .file (.bytes _)) => .error .invalidText
  | .ok (_, .file (.text s)) => .ok s

/-- Makes one directory. -/
def makeOne (d : Disk) (p : Path) : Except OsError Disk :=
  match d.locate p with
  | .error e => .error e
  | .ok (.present _ _) => .error .alreadyThere
  | .ok (.absent ns) => .ok (d.put ns .directory)

/-- Makes one directory, unless it is there already. -/
def ensureOne (d : Disk) (p : Path) : Except OsError Unit × Disk :=
  match d.makeOne p with
  | .ok made => (.ok (), made)
  | .error e => (if d.isDirectory p then .ok () else .error e, d)

/-- Makes the first of some paths a directory, the paths after it being its
    ancestors, which are made where they are missing.  What was made stays also
    if the rest fails. -/
def makeAll (d : Disk) : List Path → Except OsError Unit × Disk
  | [] => (.ok (), d)
  | p :: ancestors =>
    if p.text.isEmpty then (.ok (), d)
    else
      match d.ensureOne p with
      | (.error .noEntry, _) =>
        match d.makeAll ancestors with
        | (.error e, below) => (.error e, below)
        | (.ok _, below) => below.ensureOne p
      | outcome => outcome

/-- The directory a file is written to: its parent, or the working directory. -/
def targetDirectory (p : Path) : Path :=
  match p.parent? with
  | some dir => if dir.text.isEmpty then ⟨"."⟩ else dir
  | none => ⟨"."⟩

/-- The last segment of a path, the segments before it, and whether slashes
    follow. -/
def lastSegment (p : Path) : String × List String × Bool :=
  let back := (Path.segments p.text.toList).reverse.map String.ofList
  match back.dropWhile (· = "") with
  | [] => ("", [], true)
  | s :: before => (s, before.reverse, back.head? = some "")

/-- Moves a finished text to its place.  The place must have a name of its own
    and must not be a directory, nor be named like one by a slash at the end. -/
def replace (d : Disk) (p : Path) (text : String) : Except OsError Disk :=
  if p.text.isEmpty then .error .noEntry
  else
    let (name, before, slashed) := lastSegment p
    match d.walk (if p.isAbsolute then [] else d.current) before with
    | .error e => .error e
    | .ok (.absent _) => .error .noEntry
    | .ok (.present _ (.file _)) => .error .notDirectory
    | .ok (.present dir .directory) =>
      if name = "" || name = "." || name = ".." then .error .busy
      else if slashed then .error .notDirectory
      else if d.node? (dir ++ [name]) = some .directory then .error .isDirectory
      else .ok (d.put (dir ++ [name]) (.file (.text text)))

/-- Writes a file, making the directories that lead to it. -/
def writeText (d : Disk) (p : Path) (text : String) : Except StoreError Unit × Disk :=
  let dir := targetDirectory p
  match d.makeAll dir.ancestors with
  | (.error e, made) => (.error (.ofCause dir e.cause), made)
  | (.ok _, made) =>
    match made.replace p text with
    | .error e => (.error (.ofCause p e.cause), made)
    | .ok written => (.ok (), written)

/-- What lies directly in a directory, as paths below `p`; nothing lies in a
    file or a missing directory. -/
def childPaths (d : Disk) (p : Path) : List Path :=
  match d.find p with
  | .ok (ns, .directory) => Path.sortedSet ((d.namesIn ns).map fun n => p.join ⟨n⟩)
  | _ => []

instance : FileStore Disk where
  read d p :=
    match d.readText p with
    | .ok s => .ok s
    | .error e => .error (.ofCause p e.cause)
  write d p text := do
    let (result, after) := d.writeText p text
    if result.toBool then
      Traced.emit {
        level := .debug, target := "portico_workspace::disk", message := "Wrote file"
        fields := [("path", .text p.text), ("bytes", .count text.utf8ByteSize)] }
    return (result, after)
  has d p := (d.find p).toOption.isSome
  children d p := .ok (d.childPaths p)

end Disk

end Relink
