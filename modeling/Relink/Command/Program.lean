/-
  Relink.Command.Program — a whole run of the program.

  Main definitions:
    * `Notice`, `Outcome`
    * `logSetup` — which events are shown, and how
    * `program`  — what a command line does
-/

import Relink.Command.Redirect
import Relink.Config.Load
import Relink.Log.Filter

namespace Relink

/-! ## §1. Outcomes -/

/-- Something the program says beside its output. -/
inductive Notice where
  /-- A line. -/
  | line (text : String)
  /-- An event. -/
  | event (format : LogFormat) (e : Event)
  /-- How the program is used. -/
  | usage
deriving DecidableEq, Repr, Inhabited

/-- What a run of the program leaves behind. -/
structure Outcome where
  /-- The exit code. -/
  exit : Nat := 0
  /-- The output, as lines. -/
  output : List String := []
  /-- What is said beside the output, in order. -/
  notices : List Notice := []
  /-- The files. -/
  disk : Disk
deriving DecidableEq, Repr, Inhabited

/-- A line that tells of an error. -/
def errorLine (message : String) : Notice := .line ("error: " ++ message)

/-! ## §2. Logging -/

/-- Which events are shown, how, and a warning if the filter is no filter. -/
structure LogSetup where
  /-- What is shown. -/
  filter : Filter
  /-- How it is written. -/
  format : LogFormat
  /-- A warning. -/
  warning : List Notice := []

/-- The filter asked for: the variable's, unless it is blank, or the configured
    level. -/
def filterText (asked : Option String) (level : String) : String :=
  match asked.map fun s => Text.trim s.toList with
  | none => level
  | some [] => level
  | some cs => String.ofList cs

/-- The format that a variable asks for, if it names one. -/
def formatOf? (s : String) : Option LogFormat :=
  match String.ofList (s.toList.map Char.toLower) with
  | "json" => some .json
  | "pretty" => some .pretty
  | "human" => some .pretty
  | _ => none

/-- How events are shown.  A filter that cannot be read shows level `info`. -/
def logSetup (vars : Variables) (l : Logging) : LogSetup :=
  let text := filterText (vars.lookup "RUST_LOG") l.level
  let format := ((vars.lookup "LOG_FORMAT").bind formatOf?).getD l.format
  match Filter.parse? text with
  | some f => { filter := f, format := format }
  | none =>
    { filter := ⟨[{ detail := Level.info.detail }]⟩
      format := format
      warning := [.line ("warning: ignoring invalid log filter '" ++ text
        ++ "': invalid filter directive")] }

/-- The events that are shown, after the warning. -/
def LogSetup.notices (s : LogSetup) (events : List Event) : List Notice :=
  s.warning ++ (events.filter s.filter.shows).map (.event s.format)

/-! ## §3. Commands -/

/-- The output of a finished run. -/
def Report.output (r : Report) (mode : Mode) : List String :=
  let verb := if mode = .write then "rewrote " else "would rewrite "
  (r.changed.map fun p => verb ++ p.text)
    ++ [toString r.scanned ++ " files scanned, " ++ toString r.changed.length
      ++ " rewritten, " ++ toString r.failed.length ++ " failed"]

/-- The failures of a finished run. -/
def Report.failures (r : Report) : List Notice :=
  r.failed.map fun (p, e) => errorLine (p.text ++ ": " ++ e.message)

/-- The exit code of a finished run. -/
def Report.exit (r : Report) (mode : Mode) : Nat :=
  if !r.failed.isEmpty || (mode = .check && !r.changed.isEmpty) then 1 else 0

/-- Redirects imports and reports. -/
def runRedirect (c : Config) (setup : LogSetup) (d : Disk) (paths : List Path) (mode : Mode) :
    Outcome :=
  let run := redirectAll c d paths mode
  let said := setup.notices run.events
  match run.value with
  | (.error e, d') => { exit := 2, notices := said ++ [errorLine e.message], disk := d' }
  | (.ok r, d') =>
    { exit := r.exit mode
      output := r.output mode
      notices := said ++ r.failures
      disk := d' }

/-- Tells the name a module root is imported by.  A root that leads nowhere is
    taken as it is spelled. -/
def runNameOf (c : Config) (setup : LogSetup) (d : Disk) (moduleRoot : Path) : Outcome :=
  let said := setup.notices []
  match workspaceRoot c d with
  | .error e => { exit := 2, notices := said ++ [errorLine e.message], disk := d }
  | .ok workspace =>
    let root := (d.realPath moduleRoot).toOption.getD moduleRoot
    match packageName root (some workspace) c.rules.container with
    | .ok name => { output := [name], notices := said, disk := d }
    | .error e => { exit := 1, notices := said ++ [errorLine e.message], disk := d }

/-- Runs a command. -/
def invoke (d : Disk) (vars : Variables) (i : Invocation) : Outcome :=
  match Config.load d vars i.config with
  | .error e => { exit := 2, notices := [errorLine e.message], disk := d }
  | .ok c =>
    let setup := logSetup vars c.logging
    match i.command with
    | .redirect paths mode => runRedirect c setup d paths mode
    | .nameOf root => runNameOf c setup d root

/-- What the program calls itself. -/
def versionLine : String := "portico 0.1.0"

/-- What a command line does. -/
def program (d : Disk) (vars : Variables) (words : List String) : Outcome :=
  match parseArguments words with
  | .run i => invoke d vars i
  | .version => { output := [versionLine], disk := d }
  | .help => { notices := [.usage], disk := d }
  | .usage => { exit := 2, notices := [.usage], disk := d }

end Relink
