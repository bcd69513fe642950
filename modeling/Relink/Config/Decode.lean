/-
  Relink.Config.Decode — settings as values, and back.

  Settings are read from a table by name, or from a list by position; what is
  missing has its default, and unknown names are ignored.  Named settings are
  read in alphabetical order, and the first that does not fit is reported with
  the keys that lead to it.

  Main definitions:
    * `Misfit`          — a value that does not fit its setting
    * `Config.decode`   — settings from a value
    * `Config.toValue`  — a value from settings
-/

import Relink.Config.Basic
import Relink.Config.Value

namespace Relink

/-! ## §1. Values that do not fit -/

/-- Why a value does not fit. -/
inductive MisfitKind where
  /-- It is of the wrong kind. -/
  | wrongKind
  /-- It names no choice of the setting. -/
  | unknownChoice
deriving DecidableEq, Repr, Inhabited

/-- A value that does not fit its setting. -/
structure Misfit where
  /-- Why it does not fit. -/
  kind : MisfitKind
  /-- The keys that lead to it. -/
  key : List String := []
deriving DecidableEq, Repr, Inhabited

/-- Whether a list may be longer than the settings read from it, and a table
    that names a choice may have further fields. -/
inductive Strictness where
  | strict
  | lenient
deriving DecidableEq, Repr, Inhabited

namespace Decode

/-- A reader of values. -/
abbrev Decoder (α : Type) := Value → Except Misfit α

/-- Puts a key before those of a misfit. -/
def below {α : Type} (key : String) : Except Misfit α → Except Misfit α
  | .ok a => .ok a
  | .error e => .error { e with key := key :: e.key }

/-- A misfit of the wrong kind. -/
def wrongKind {α : Type} : Except Misfit α := .error { kind := .wrongKind }

/-! ## §2. Single values -/

/-- A text. -/
def text : Decoder String
  | .text s => .ok s
  | _ => wrongKind

/-- Items of a list, the first of which stands at position `i`. -/
def textsFrom (i : Nat) : List Value → Except Misfit (List String)
  | [] => .ok []
  | v :: vs => do
    let s ← below (toString i) (text v)
    let rest ← textsFrom (i + 1) vs
    return s :: rest

/-- A list of texts. -/
def texts : Decoder (List String)
  | .list items => textsFrom 0 items
  | _ => wrongKind

/-- A path, or nothing. -/
def path? : Decoder (Option Path)
  | .absent => .ok none
  | v => (text v).map fun s => some ⟨s⟩

/-- The field of a table whose name comes first. -/
def firstField : List (String × Value) → Option (String × Value)
  | [] => none
  | f :: rest =>
    match firstField rest with
    | none => some f
    | some g => if g.1 < f.1 then some g else some f

/-- One of some named choices: by its name, or as a table with that name and
    nothing as its value. -/
def choice {α : Type} (strictness : Strictness) (ofLabel? : String → Option α) : Decoder α
  | .text s =>
    match ofLabel? s with
    | some a => .ok a
    | none => .error { kind := .unknownChoice }
  | .table fields =>
    if strictness = .strict ∧ fields.length ≠ 1 then wrongKind
    else
      match firstField fields with
      | none => wrongKind
      | some (name, v) =>
        match ofLabel? name, v with
        | none, _ => .error { kind := .unknownChoice }
        | some a, .absent => .ok a
        | some _, _ => below name wrongKind
  | _ => wrongKind

/-! ## §3. Groups of settings -/

/-- A setting of a group: its name, and how its value changes the group. -/
structure Setting (α : Type) where
  /-- The name. -/
  name : String
  /-- Gives the setting a value. -/
  update : α → Value → Except Misfit α

/-- Reads settings by name, in the order given. -/
def byName {α : Type} (fields : List (String × Value)) :
    List (Setting α) → α → Except Misfit α
  | [], a => .ok a
  | s :: rest, a =>
    match fields.lookup s.name with
    | none => byName fields rest a
    | some v => do
      let a' ← below s.name (s.update a v)
      byName fields rest a'

/-- Reads settings by position, the first of which is `i`. -/
def byPosition {α : Type} (strictness : Strictness) (i : Nat) :
    List (Setting α) → List Value → α → Except Misfit α
  | [], _ :: _, a => if strictness = .strict then wrongKind else .ok a
  | s :: rest, v :: vs, a => do
    let a' ← below (toString i) (s.update a v)
    byPosition strictness (i + 1) rest vs a'
  | _, [], a => .ok a

/-- Puts a setting before the first with a later name. -/
def insertByName {α : Type} (s : Setting α) : List (Setting α) → List (Setting α)
  | [] => [s]
  | t :: rest => if s.name < t.name then s :: t :: rest else t :: insertByName s rest

/-- Settings by their names, in alphabetical order. -/
def alphabetical {α : Type} : List (Setting α) → List (Setting α)
  | [] => []
  | s :: rest => insertByName s (alphabetical rest)

/-- A group of settings, from a table or a list; `start` has the defaults. -/
def group {α : Type} (strictness : Strictness) (settings : List (Setting α)) (start : α) :
    Decoder α
  | .table fields => byName fields (alphabetical settings) start
  | .list items => byPosition strictness 0 settings items start
  | _ => wrongKind

/-! ## §4. The settings of the program -/

/-- The settings of `Rules`, by position. -/
def rulesSettings (strictness : Strictness) : List (Setting Rules) := [
  ⟨"container_segment", fun r v => (text v).map fun s => { r with container := s }⟩,
  ⟨"workspace_root", fun r v => (path? v).map fun p => { r with workspaceRoot := p }⟩,
  ⟨"module_marker_suffix", fun r v =>
    (text v).map fun s => { r with marker := { r.marker with suffix := s } }⟩,
  ⟨"excluded_marker_suffixes", fun r v =>
    (texts v).map fun ss => { r with marker := { r.marker with excluded := ss } }⟩,
  ⟨"on_layout_mismatch", fun r v =>
    (choice strictness MismatchPolicy.ofLabel? v).map fun p => { r with onMismatch := p }⟩,
  ⟨"extensions", fun r v => (texts v).map fun ss => { r with extensions := ss }⟩]

/-- The settings of `Logging`, by position. -/
def loggingSettings (strictness : Strictness) : List (Setting Logging) := [
  ⟨"level", fun l v => (text v).map fun s => { l with level := s }⟩,
  ⟨"format", fun l v =>
    (choice strictness LogFormat.ofLabel? v).map fun f => { l with format := f }⟩]

/-- The groups of `Config`, by position. -/
def configSettings (strictness : Strictness) : List (Setting Config) := [
  ⟨"rules", fun c v =>
    (group strictness (rulesSettings strictness) {} v).map fun r => { c with rules := r }⟩,
  ⟨"logging", fun c v =>
    (group strictness (loggingSettings strictness) {} v).map fun l => { c with logging := l }⟩]

end Decode

namespace Config

/-- Settings from a value. -/
def decode (strictness : Strictness) (v : Value) : Except Misfit Config :=
  Decode.group strictness (Decode.configSettings strictness) {} v

/-- A list of texts as a value. -/
def textList (ss : List String) : Value := .list (ss.map .text)

/-- A value from settings; a workspace root that is not set is left out. -/
def toValue (c : Config) : Value :=
  .table [
    ("logging", .table [
      ("format", .text c.logging.format.label),
      ("level", .text c.logging.level)]),
    ("rules", .table ([
      ("container_segment", .text c.rules.container),
      ("excluded_marker_suffixes", textList c.rules.marker.excluded),
      ("extensions", textList c.rules.extensions),
      ("module_marker_suffix", .text c.rules.marker.suffix),
      ("on_layout_mismatch", .text c.rules.onMismatch.label)]
      ++ (c.rules.workspaceRoot.map fun p => ("workspace_root", Value.text p.text)).toList))]

end Config

end Relink
