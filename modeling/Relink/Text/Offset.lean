/-
  Relink.Text.Offset — UTF-8 byte offsets into a text.

  Positions in a text are byte offsets of its UTF-8 form.  A text is handled as
  its list of characters, so an offset inside a character names no position and
  every cut below is an `Option`.

  Main definitions:
    * `Text.size`      — the number of bytes
    * `Text.splitAt?`  — the text before and after an offset
    * `Text.slice?`    — the text between two offsets
-/

namespace Relink.Text

/-- The number of bytes a text takes. -/
def size : List Char → Nat
  | [] => 0
  | c :: cs => c.utf8Size + size cs

/-- The text before and after a byte offset, unless the offset falls inside a
    character or past the end. -/
def splitAt? : Nat → List Char → Option (List Char × List Char)
  | 0, cs => some ([], cs)
  | _ + 1, [] => none
  | n + 1, c :: cs =>
    if c.utf8Size ≤ n + 1 then
      match splitAt? (n + 1 - c.utf8Size) cs with
      | some (before, after) => some (c :: before, after)
      | none => none
    else none

/-- The text from one byte offset to another. -/
def slice? (start stop : Nat) (cs : List Char) : Option (List Char) :=
  if start ≤ stop then
    match splitAt? start cs with
    | some (_, tail) => (splitAt? (stop - start) tail).map (·.1)
    | none => none
  else none

/-- The text from a byte offset on. -/
def from? (start : Nat) (cs : List Char) : Option (List Char) :=
  (splitAt? start cs).map (·.2)

/-- The mark that may stand first in a text, U+FEFF. -/
def byteOrderMark : Char := '\ufeff'

/-- The text without one leading byte order mark, and the bytes it took. -/
def dropMark : List Char → Nat × List Char
  | [] => (0, [])
  | c :: cs => if c = byteOrderMark then (c.utf8Size, cs) else (0, c :: cs)

end Relink.Text
