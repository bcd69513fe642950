/-
  Relink.Config.Basic — the settings of the program.

  Main definitions:
    * `Rules`, `Logging`, `Config` — the settings and their defaults
    * `Config.fault?`  — what is wrong with the values, if anything
    * `Config.handles` — whether a file is visited, by its extension
-/

import Relink.Layout
import Relink.ModuleRoot

namespace Relink

/-! ## §1. Settings -/

/-- How events are written. -/
inductive LogFormat where
  /-- For people. -/
  | pretty
  /-- For programs. -/
  | json
deriving DecidableEq, Repr, Inhabited

namespace LogFormat

/-- The name a format is configured by. -/
def label : LogFormat → String
  | .pretty => "pretty"
  | .json => "json"

/-- All formats. -/
def all : List LogFormat := [.pretty, .json]

/-- The format with a name. -/
def ofLabel? (s : String) : Option LogFormat :=
  all.find? fun f => f.label = s

end LogFormat

/-- How imports are redirected. -/
structure Rules where
  /-- The path segment below which every module lies. -/
  container : String := defaultContainer
  /-- The directory below which the segment is looked for. -/
  workspaceRoot : Option Path := none
  /-- Which files mark a module root. -/
  marker : Marker := {}
  /-- What happens to an import of a misplaced module. -/
  onMismatch : MismatchPolicy := .error
  /-- The extensions of the files to visit, without the dot. -/
  extensions : List String := ["ts"]
deriving DecidableEq, Repr, Inhabited

/-- What is logged, and how. -/
structure Logging where
  /-- The least important level shown. -/
  level : String := "info"
  /-- How events are written. -/
  format : LogFormat := .pretty
deriving DecidableEq, Repr, Inhabited

/-- All settings. -/
structure Config where
  /-- How imports are redirected. -/
  rules : Rules := {}
  /-- What is logged, and how. -/
  logging : Logging := {}
deriving DecidableEq, Repr, Inhabited

/-! ## §2. Values that make no sense -/

/-- What is wrong with the values of the settings. -/
inductive ConfigFault where
  /-- The container segment is empty. -/
  | emptyContainer
  /-- The container segment holds a slash or a backslash. -/
  | brokenContainer (segment : String)
  /-- Every file would be a marker. -/
  | emptyMarker
  /-- No file would be visited. -/
  | noExtension
  /-- There is no such level. -/
  | unknownLevel (level : String)
deriving DecidableEq, Repr, Inhabited

/-- The names of the levels. -/
def levelNames : List String := ["trace", "debug", "info", "warn", "error"]

/-- The fault in words. -/
def ConfigFault.message : ConfigFault → String
  | .emptyContainer => "Container segment cannot be empty"
  | .brokenContainer s => "Container segment '" ++ s ++ "' must be a single path segment"
  | .emptyMarker => "Module marker suffix cannot be empty"
  | .noExtension => "At least one file extension must be configured"
  | .unknownLevel s =>
    "Invalid log level '" ++ s ++ "', must be one of: " ++ String.intercalate ", " levelNames

namespace Config

/-- The first thing wrong with the values. -/
def fault? (c : Config) : Option ConfigFault :=
  if c.rules.container.isEmpty then some .emptyContainer
  else if c.rules.container.toList.any fun ch => ch = '/' || ch = '\\' then
    some (.brokenContainer c.rules.container)
  else if c.rules.marker.suffix.isEmpty then some .emptyMarker
  else if c.rules.extensions.isEmpty then some .noExtension
  else if !levelNames.contains c.logging.level then some (.unknownLevel c.logging.level)
  else none

/-- Whether a file is visited when a directory is searched. -/
def handles (c : Config) (p : Path) : Bool :=
  p.extension?.any c.rules.extensions.contains

end Config

end Relink
