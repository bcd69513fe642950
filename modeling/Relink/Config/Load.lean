/-
  Relink.Config.Load — settings from defaults, a file and the environment.

  The file is the one named, or the first found in the working directory.  Its
  settings are laid over the defaults, and those of the environment over both.

  Main definitions:
    * `ConfigError`
    * `layered`      — the three layers as one value
    * `Config.load`
-/

import Relink.Config.Decode
import Relink.Config.Environment
import Relink.Config.Toml.Document
import Relink.Store.Disk

namespace Relink

/-! ## §1. Errors -/

/-- Why there are no settings. -/
inductive ConfigError where
  /-- The named file is not there. -/
  | missingFile (path : Path)
  /-- The file is not well formed. -/
  | malformed
  /-- A value does not fit its setting. -/
  | misfit (misfit : Misfit)
  /-- The values make no sense. -/
  | invalid (fault : ConfigFault)
deriving DecidableEq, Repr, Inhabited

/-- The error in words. -/
def ConfigError.message : ConfigError → String
  | .missingFile p => "Config file not found: " ++ p.text
  | .malformed => "Failed to load configuration"
  | .misfit _ => "Failed to load configuration"
  | .invalid f => "Invalid configuration: " ++ f.message

/-! ## §2. Loading -/

/-- The names of the variables of an environment, and their values. -/
abbrev Variables := List (String × String)

/-- The files looked for in the working directory. -/
def configCandidates : List Path := [⟨"portico.toml"⟩, ⟨".portico/config.toml"⟩]

/-- The file that holds the settings, if there is one. -/
def configFile (d : Disk) : Option Path → Except ConfigError (Option Path)
  | some p => if d.isFile p then .ok (some p) else .error (.missingFile p)
  | none => .ok (configCandidates.find? d.isFile)

/-- The settings in a file; without one there are none. -/
def fileLayer (d : Disk) : Option Path → Except ConfigError Value
  | none => .ok (.table [])
  | some p =>
    match d.readText p with
    | .error _ => .error .malformed
    | .ok text =>
      match Toml.parse? text with
      | none => .error .malformed
      | some v => .ok v

/-- Defaults, then the settings of a file, then those of the environment. -/
def layered (file environment : Value) : Value :=
  environment.overlay (file.overlay (Config.toValue {}))

namespace Config

/-- Settings that make sense, or what is wrong with them. -/
def checked (c : Config) : Except ConfigError Config :=
  match c.fault? with
  | some f => .error (.invalid f)
  | none => .ok c

/-- Loads the settings. -/
def load (d : Disk) (vars : Variables) (explicit : Option Path) :
    Except ConfigError Config := do
  let path ← configFile d explicit
  let file ← fileLayer d path
  match decode .lenient (layered file (Environment.ofVariables vars)) with
  | .error m => throw (.misfit m)
  | .ok c => c.checked

end Config

end Relink
