/-
  Relink.Command.Arguments — the words of the command line.

  An option `--config FILE` may stand before or after the name of the command.
  Words that start with `-` are options, unless they come after `--` or are a
  single `-`.  No option may be given twice in the same place, and no path may
  be empty.

  Main definitions:
    * `Mode`, `Command`, `Invocation`
    * `Request`, `parseArguments`
-/

import Relink.Path

namespace Relink

/-! ## §1. Commands -/

/-- What becomes of redirected files. -/
inductive Mode where
  /-- They are written. -/
  | write
  /-- They are reported. -/
  | dryRun
  /-- They are reported, and count as a failure. -/
  | check
deriving DecidableEq, Repr, Inhabited

/-- The name a mode is logged with. -/
def Mode.label : Mode → String
  | .write => "Write"
  | .dryRun => "DryRun"
  | .check => "Check"

/-- What the program is asked to do. -/
inductive Command where
  /-- To redirect the imports of some files and directories. -/
  | redirect (paths : List Path) (mode : Mode)
  /-- To tell the name a module root is imported by. -/
  | nameOf (moduleRoot : Path)
deriving DecidableEq, Repr, Inhabited

/-- A command, and the file that holds the settings. -/
structure Invocation where
  /-- The file that holds the settings, if one is named. -/
  config : Option Path := none
  /-- What to do. -/
  command : Command
deriving DecidableEq, Repr, Inhabited

/-- What a command line asks for. -/
inductive Request where
  /-- To run a command. -/
  | run (invocation : Invocation)
  /-- To tell the version. -/
  | version
  /-- To explain the command line. -/
  | help
  /-- Nothing that makes sense. -/
  | usage
deriving DecidableEq, Repr, Inhabited

/-! ## §2. Words -/

/-- What a word of the command line is. -/
inductive Word where
  /-- The end of the options. -/
  | divider
  /-- A long option, with the value attached to it by `=`. -/
  | long (name : String) (value : Option String)
  /-- Short options in one word. -/
  | short (letters : List Char)
  /-- Anything else. -/
  | plain (text : String)
deriving DecidableEq, Repr, Inhabited

/-- What a word is. -/
def Word.ofText (s : String) : Word :=
  match s.toList with
  | ['-', '-'] => .divider
  | '-' :: '-' :: rest =>
    let name := String.ofList (rest.takeWhile (· ≠ '='))
    match rest.dropWhile (· ≠ '=') with
    | _ :: value => .long name (some (String.ofList value))
    | [] => .long name none
  | ['-'] => .plain s
  | '-' :: rest => .short rest
  | _ => .plain s

/-- A path that is not empty. -/
def path? (s : String) : Option Path :=
  if s.isEmpty then none else some ⟨s⟩

/-- The file that `--config` names, and the words after it: attached to the
    option, or the next word if it is no option. -/
def configValue? (attached : Option String) (rest : List String) :
    Option (Path × List String) :=
  match attached, rest with
  | some v, _ => (path? v).map (·, rest)
  | none, w :: ws =>
    match Word.ofText w with
    | .plain s => (path? s).map (·, ws)
    | _ => none
  | none, [] => none

/-! ## §3. The words after the name of a command -/

/-- What has been read of a command. -/
structure Given where
  /-- The paths, in order. -/
  paths : List Path := []
  /-- The file `--config` names. -/
  config : Option Path := none
  /-- Whether `--dry-run` was given. -/
  dryRun : Bool := false
  /-- Whether `--check` was given. -/
  check : Bool := false
deriving DecidableEq, Repr, Inhabited

/-- Adds paths, none of which may be empty. -/
def Given.addPaths (g : Given) (words : List String) : Option Given :=
  (words.mapM path?).map fun ps => { g with paths := g.paths ++ ps }

/-- What is left to read after one word, or why reading ends. -/
inductive Progress where
  | more (given : Given) (rest : List String)
  | finished (given : Given)
  | help
  | usage

/-- Reads one word of a command; `modes` tells whether it has a mode. -/
def readWord (modes : Bool) (g : Given) (w : String) (rest : List String) : Progress :=
  match Word.ofText w with
  | .divider =>
    match g.addPaths rest with
    | some g' => .finished g'
    | none => .usage
  | .plain s =>
    match g.addPaths [s] with
    | some g' => .more g' rest
    | none => .usage
  | .long "config" value =>
    match g.config, configValue? value rest with
    | none, some (p, rest') => .more { g with config := some p } rest'
    | _, _ => .usage
  | .long "dry-run" none =>
    if modes && !g.dryRun then .more { g with dryRun := true } rest else .usage
  | .long "check" none =>
    if modes && !g.check then .more { g with check := true } rest else .usage
  | .long "help" none => .help
  | .short ('h' :: _) => .help
  | _ => .usage

/-- Reads the words of a command, at most `fuel` of them. -/
def readWords (modes : Bool) : Nat → Given → List String → Progress
  | _, g, [] => .finished g
  | 0, _, _ :: _ => .usage
  | n + 1, g, w :: rest =>
    match readWord modes g w rest with
    | .more g' rest' => readWords modes n g' rest'
    | outcome => outcome

/-- The command that the given words make up. -/
def redirectOf? (g : Given) : Option Command :=
  if g.paths.isEmpty || (g.dryRun && g.check) then none
  else some (.redirect g.paths (if g.check then .check else if g.dryRun then .dryRun else .write))

/-- The command that the given words make up: exactly one path. -/
def nameOf? (g : Given) : Option Command :=
  match g.paths with
  | [p] => some (.nameOf p)
  | _ => none

/-- Reads a command whose words make up something by `make?`.  A file named
    after the command's name counts for more than one named before it. -/
def readCommand (config : Option Path) (modes : Bool) (make? : Given → Option Command)
    (words : List String) : Request :=
  match readWords modes words.length {} words with
  | .finished g =>
    match make? g with
    | some c => .run { config := g.config.or config, command := c }
    | none => .usage
  | .help => .help
  | _ => .usage

/-! ## §4. The whole command line -/

/-- Reads the words up to the name of a command, at most `fuel` of them. -/
def readStart : Nat → Option Path → List String → Request
  | _, _, [] => .usage
  | 0, _, _ :: _ => .usage
  | n + 1, config, w :: rest =>
    match Word.ofText w with
    | .plain "rewrite" => readCommand config true redirectOf? rest
    | .plain "canonicalize" => readCommand config false nameOf? rest
    | .plain "help" => .help
    | .long "config" value =>
      match config, configValue? value rest with
      | none, some (p, rest') => readStart n (some p) rest'
      | _, _ => .usage
    | .long "version" none => .version
    | .short ('V' :: _) => .version
    | .long "help" none => .help
    | .short ('h' :: _) => .help
    | _ => .usage

/-- What the words of a command line ask for. -/
def parseArguments (words : List String) : Request :=
  readStart words.length none words

end Relink
