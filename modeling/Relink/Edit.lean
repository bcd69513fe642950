/-
  Relink.Edit — replacing parts of a text.

  The edits of one pass all speak of the same text.  They are applied from the
  last to the first, so that no edit moves the offsets of one still to come.

  Main definitions:
    * `Edit`       — a range of bytes and what takes its place
    * `Edit.fault?` — why an edit does not fit
    * `applyEdits` — the text after all edits
-/

import Relink.Error
import Relink.Text.Offset

namespace Relink

/-- A range of bytes and the text that takes its place. -/
structure Edit where
  /-- The offset of the first byte. -/
  start : Nat
  /-- The offset after the last byte. -/
  stop : Nat
  /-- What takes its place. -/
  content : String
deriving DecidableEq, Repr, Inhabited

namespace Edit

/-- Why the edit does not fit a text of `length` bytes of which only `kept` is
    still in place, if it does not. -/
def fault? (length : Nat) (kept : List Char) (e : Edit) : Option EditFault :=
  if e.stop < e.start then some .reversed
  else if length < e.stop then some (.beyond length)
  else if Text.size kept < e.stop then some (.overlaps (Text.size kept))
  else if (Text.splitAt? e.start kept).isNone || (Text.splitAt? e.stop kept).isNone then some .splits
  else none

end Edit

/-- Applies edits in descending order to the part of the text that is still in
    place; `done` is the text after it. -/
def applyDescending (length : Nat) :
    List Edit → List Char → List Char → Except Failure (List Char)
  | [], kept, done => .ok (kept ++ done)
  | e :: es, kept, done =>
    match e.fault? length kept with
    | some fault => .error (.edit e.start e.stop fault)
    | none =>
      match Text.splitAt? e.start kept, Text.splitAt? e.stop kept with
      | some (before, _), some (_, after) =>
        applyDescending length es before (e.content.toList ++ (after ++ done))
      | _, _ => .error (.edit e.start e.stop .splits)

/-- The edits from the last to the first; edits that start together keep their
    order. -/
def descending (edits : List Edit) : List Edit :=
  edits.mergeSort fun a b => b.start ≤ a.start

/-- The text after all edits, or the first of them, seen from the end of the
    text, that does not fit. -/
def applyEdits (text : String) (edits : List Edit) : Except Failure String :=
  let file := text.toList
  (applyDescending (Text.size file) (descending edits) file []).map String.ofList

end Relink
