/-
  Relink.Config.Scan — reading a short text from left to right.

  A scanner takes characters off the front of a text, or fails and takes none.

  Main definitions:
    * `Scan`
    * `Scan.char`, `Scan.word`, `Scan.takeWhile`
    * `Scan.many`, `Scan.separated`
-/

namespace Relink

/-- Reads a value off the front of a text, or fails. -/
abbrev Scan := StateT (List Char) Option

namespace Scan

/-- The next character, which stays. -/
def peek? : Scan (Option Char) := fun cs => some (cs.head?, cs)

/-- The next character. -/
def any : Scan Char
  | [] => none
  | c :: cs => some (c, cs)

/-- The next character, if it satisfies a condition. -/
def satisfying (p : Char → Bool) : Scan Char
  | [] => none
  | c :: cs => if p c then some (c, cs) else none

/-- A given character. -/
def char (c : Char) : Scan Unit := do
  let _ ← satisfying (· = c)

/-- Whether a given character comes next, which is then taken. -/
def eats (c : Char) : Scan Bool
  | [] => some (false, [])
  | d :: cs => if d = c then some (true, cs) else some (false, d :: cs)

/-- Given characters. -/
def word : List Char → Scan Unit
  | [] => pure ()
  | c :: cs => do
    char c
    word cs

/-- All characters up to the first that fails a condition. -/
def takeWhile (p : Char → Bool) : Scan (List Char) :=
  fun cs => some (cs.takeWhile p, cs.dropWhile p)

/-- The end of the text. -/
def atEnd : Scan Unit
  | [] => some ((), [])
  | _ => none

/-- What a scanner reads, or nothing. -/
def option {α : Type} (p : Scan α) : Scan (Option α) := fun cs =>
  match p cs with
  | some (a, rest) => some (some a, rest)
  | none => some (none, cs)

/-- One scanner, or else another. -/
def either {α : Type} (p q : Scan α) : Scan α := fun cs =>
  match p cs with
  | some r => some r
  | none => q cs

/-- Some number of characters that satisfy a condition. -/
def exactly (p : Char → Bool) : Nat → Scan (List Char)
  | 0 => pure []
  | n + 1 => do
    let c ← satisfying p
    let rest ← exactly p n
    return c :: rest

/-- A scanner over and over, at most `fuel` times, until it fails. -/
def manyUpTo {α : Type} (p : Scan α) : Nat → Scan (List α)
  | 0 => pure []
  | n + 1 => do
    match ← option p with
    | none => return []
    | some a =>
      let rest ← manyUpTo p n
      return a :: rest

/-- A scanner over and over until it fails.  It must take something each time,
    so the text itself bounds how often it succeeds. -/
def many {α : Type} (p : Scan α) : Scan (List α) := fun cs => manyUpTo p cs.length cs

/-- Items with a mark between them; at least one. -/
def separated {α : Type} (mark : Char) (p : Scan α) : Scan (List α) := do
  let first ← p
  let rest ← many do
    char mark
    p
  return first :: rest

end Scan

end Relink
