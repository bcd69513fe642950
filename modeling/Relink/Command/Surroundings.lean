/-
  Relink.Command.Surroundings — which places a run looks at.

  A run reads the files it visits, and the directories above them and above the
  targets of their imports.

  Main definitions:
    * `inputsOf`      — the paths a command names
    * `importTargets` — the targets of a file's relative imports
    * `targetsOf`     — those of all files a command visits
-/

import Relink.Command.Program

namespace Relink

open Source

/-- The paths that a command names. -/
def inputsOf : Command → List Path
  | .redirect paths _ => paths
  | .nameOf root => [root]

/-- The files that may hold the settings. -/
def configPaths (i : Invocation) : List Path :=
  match i.config with
  | some p => [p]
  | none => configCandidates

/-- The targets of the relative imports of a file. -/
def importTargets (d : Disk) (file : Path) : List Path :=
  match d.readText file with
  | .error _ => []
  | .ok text =>
    ((imports? (Dialect.ofPath file) text).getD []).filterMap fun t =>
      if t.isRelative then some (importTarget file t.specifier) else none

/-- The targets of the imports of all files that a command visits. -/
def targetsOf (d : Disk) (vars : Variables) (i : Invocation) : List Path :=
  match Config.load d vars i.config, i.command with
  | .ok c, .redirect paths _ =>
    match (collectFiles c d paths).run.value with
    | .ok files => files.flatMap (importTargets d)
    | .error _ => []
  | _, _ => []

/-- The files that a run has changed or made. -/
def changedFiles (before after : Disk) : List (Path × String) :=
  after.places.filterMap fun (ns, n) =>
    match n with
    | .file (.text s) => if before.node? ns = some n then none else some (Disk.pathOf ns, s)
    | _ => none

end Relink
