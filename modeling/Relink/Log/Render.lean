/-
  Relink.Log.Render — events as lines.

  Main definitions:
    * `quoteJson`    — a text as a JSON string
    * `Event.json`   — an event as a JSON object on one line
    * `Event.pretty` — an event for people
-/

import Relink.Log

namespace Relink

/-- A hexadecimal digit. -/
def hexChar (n : Nat) : Char :=
  if n < 10 then Char.ofNat ('0'.toNat + n) else Char.ofNat ('a'.toNat + (n - 10))

/-- A character within a JSON string. -/
def escapeJson (c : Char) : List Char :=
  if c = '\x22' then ['\\', '\x22']
  else if c = '\\' then ['\\', '\\']
  else if c = '\n' then ['\\', 'n']
  else if c = '\t' then ['\\', 't']
  else if c = '\x0d' then ['\\', 'r']
  else if c = '\x08' then ['\\', 'b']
  else if c = '\x0c' then ['\\', 'f']
  else if c.toNat < 32 then
    ['\\', 'u', '0', '0', hexChar (c.toNat / 16), hexChar (c.toNat % 16)]
  else [c]

/-- A text as a JSON string. -/
def quoteJson (s : String) : String :=
  String.ofList ('\x22' :: s.toList.flatMap escapeJson ++ ['\x22'])

/-- The value of a field as JSON. -/
def Field.json : Field → String
  | .text s => quoteJson s
  | .count n => toString n

/-- The value of a field for people. -/
def Field.pretty : Field → String
  | .text s => s
  | .count n => toString n

/-- Names and JSON values as a JSON object. -/
def objectJson (members : List (String × String)) : String :=
  "\x7b" ++ String.intercalate "," (members.map fun (k, v) => quoteJson k ++ ":" ++ v) ++ "\x7d"

namespace Event

/-- An event as a JSON object on one line. -/
def json (e : Event) : String :=
  objectJson [
    ("level", quoteJson e.level.label),
    ("fields", objectJson (("message", quoteJson e.message) ::
      e.fields.map fun (k, v) => (k, v.json))),
    ("target", quoteJson e.target)]

/-- An event for people. -/
def pretty (e : Event) : String :=
  let fields := e.fields.map fun (k, v) => ", " ++ k ++ ": " ++ v.pretty
  "  " ++ e.level.label ++ " " ++ e.target ++ ": " ++ e.message ++ String.join fields

end Event

end Relink
