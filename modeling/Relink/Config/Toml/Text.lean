/-
  Relink.Config.Toml.Text — the small pieces of a TOML text.

  Blanks, line ends, comments, the four kinds of strings, and keys.

  Main definitions:
    * `gap`, `lineEnd`, `trailing`, `gapWithLines`
    * `basicString`, `literalString`, `string`
    * `dottedKey`
-/

import Relink.Config.Scan

namespace Relink.Toml

open Scan

/-! ## §1. Blanks, lines and comments -/

/-- A blank within a line. -/
def isBlank (c : Char) : Bool := c = ' ' || c = '\t'

/-- A character beyond ASCII. -/
def isBeyondAscii (c : Char) : Bool := 128 ≤ c.toNat

/-- What may stand in a comment: a tab and anything that is no control
    character. -/
def isCommentChar (c : Char) : Bool :=
  c = '\t' || (32 ≤ c.toNat && c.toNat ≤ 126) || isBeyondAscii c

/-- Blanks within a line. -/
def gap : Scan Unit := do
  let _ ← takeWhile isBlank

/-- The end of a line. -/
def newline : Scan Unit :=
  either (char '\n') (word ['\x0d', '\n'])

/-- A comment, up to the end of its line. -/
def comment : Scan Unit := do
  char '#'
  let _ ← takeWhile isCommentChar

/-- The end of a line or of the text. -/
def lineEnd : Scan Unit := either newline atEnd

/-- What may follow on a line: blanks, a comment and the end of the line. -/
def trailing : Scan Unit := do
  gap
  let _ ← option comment
  lineEnd

/-- A line within a list that holds nothing more: a comment or its end. -/
def emptyRest : Scan Unit := do
  gap
  let _ ← option comment
  newline

/-- Blanks, comments and line ends. -/
def gapWithLines : Scan Unit := do
  let _ ← many emptyRest
  gap

/-! ## §2. Strings -/

/-- The value of a hexadecimal digit. -/
def hexDigit? (c : Char) : Option Nat :=
  if '0' ≤ c ∧ c ≤ '9' then some (c.toNat - '0'.toNat)
  else if 'a' ≤ c ∧ c ≤ 'f' then some (c.toNat - 'a'.toNat + 10)
  else if 'A' ≤ c ∧ c ≤ 'F' then some (c.toNat - 'A'.toNat + 10)
  else none

/-- The character with a code, if there is one. -/
def charOfCode? (n : Nat) : Option Char :=
  if n.isValidChar then some (Char.ofNat n) else none

/-- A character given by a number of hexadecimal digits. -/
def codeEscape (digits : Nat) : Scan Char := do
  let cs ← exactly (fun c => (hexDigit? c).isSome) digits
  match charOfCode? (cs.foldl (fun n c => 16 * n + (hexDigit? c).getD 0) 0) with
  | some c => return c
  | none => failure

/-- What follows a backslash. -/
def escape : Scan Char := do
  match ← any with
  | 'b' => return '\x08'
  | 't' => return '\t'
  | 'n' => return '\n'
  | 'f' => return '\x0c'
  | 'r' => return '\x0d'
  | '\x22' => return '\x22'
  | '\\' => return '\\'
  | 'u' => codeEscape 4
  | 'U' => codeEscape 8
  | _ => failure

/-- What stands for itself in a string with escapes. -/
def isBasicChar (c : Char) : Bool :=
  isCommentChar c && c ≠ '\x22' && c ≠ '\\'

/-- What stands for itself in a string without escapes. -/
def isLiteralChar (c : Char) : Bool :=
  isCommentChar c && c ≠ '\x27'

/-- A string with escapes on one line. -/
def basicString : Scan String := do
  char '\x22'
  let cs ← many (either (satisfying isBasicChar) (do
    char '\\'
    escape))
  char '\x22'
  return String.ofList cs

/-- A string without escapes on one line. -/
def literalString : Scan String := do
  char '\x27'
  let cs ← takeWhile isLiteralChar
  char '\x27'
  return String.ofList cs

/-- A backslash at the end of a line, which takes the blanks and lines after it
    along. -/
def joinedLine : Scan Unit := do
  char '\\'
  gap
  newline
  let _ ← many (either newline (do
    let _ ← satisfying isBlank))

/-- A piece of a string with escapes that spans lines. -/
def basicPiece : Scan (List Char) :=
  either (do
    let c ← satisfying isBasicChar
    return [c])
  (either (do
    newline
    return ['\n'])
  (either (do
    joinedLine
    return [])
  (do
    char '\\'
    let c ← escape
    return [c])))

/-- A piece of a string without escapes that spans lines. -/
def literalPiece : Scan (List Char) :=
  either (do
    let c ← satisfying isLiteralChar
    return [c])
  (do
    newline
    return ['\n'])

/-- One or two quotes within a string that three of them end: quotes that are
    followed by something else. -/
def innerQuotes (quote : Char) (piece : Scan (List Char)) : Scan (List Char) := do
  let quotes ← either (exactly (· = quote) 2) (exactly (· = quote) 1)
  let next ← piece
  return quotes ++ next

/-- The end of a string that three quotes end, with up to two quotes before
    them that still belong to it. -/
def closingQuotes (quote : Char) : Scan (List Char) := do
  let quotes ← either (exactly (· = quote) 5)
    (either (exactly (· = quote) 4) (exactly (· = quote) 3))
  return quotes.drop 3

/-- A string between three quotes.  A line end right at its start is not part
    of it. -/
def longString (quote : Char) (piece : Scan (List Char)) : Scan String := do
  word [quote, quote, quote]
  let _ ← option newline
  let pieces ← many (either piece (innerQuotes quote piece))
  let last ← closingQuotes quote
  return String.ofList (pieces.flatten ++ last)

/-- A string of any kind. -/
def string : Scan String :=
  either (longString '\x22' basicPiece)
    (either basicString
      (either (longString '\x27' literalPiece) literalString))

/-! ## §3. Keys -/

/-- What a key without quotes is made of. -/
def isBareChar (c : Char) : Bool :=
  c.isAlphanum || c = '-' || c = '_'

/-- A key without quotes. -/
def bareKey : Scan String := do
  let cs ← takeWhile isBareChar
  if cs.isEmpty then failure
  return String.ofList cs

/-- One key, with blanks around it. -/
def key : Scan String := do
  gap
  let k ← either basicString (either literalString bareKey)
  gap
  return k

/-- How deep keys and values may be nested. -/
def depthLimit : Nat := 80

/-- Keys with dots between them. -/
def dottedKey : Scan (List String) := do
  let ks ← separated '.' key
  if depthLimit ≤ ks.length then failure
  return ks

end Relink.Toml
