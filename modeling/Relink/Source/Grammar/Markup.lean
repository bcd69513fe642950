/-
  Relink.Source.Grammar.Markup — elements written between angle brackets.

  Names may hold hyphens, attribute strings know no escapes, and the text
  between tags is no sequence of tokens: these parts are read from the
  characters, and token reading resumes after them.

  Main definitions:
    * `elementName`, `attributes`
    * `elementRest` — an element from after its opening angle bracket
-/

import Relink.Source.Grammar.Types

namespace Relink.Source

open Reader

/-! ## §1. Names -/

/-- A name that may hold hyphens. -/
def hyphenName : Reader (List Char) := do
  unless ← atAnyWord do fail
  let isPart := fun c => Text.isIdentifierPart c || c = '-'
  scanNext (fun cs => (cs.takeWhile isPart, cs.dropWhile isPart))
    (fun _ => List.dropWhile_suffix isPart)

/-- The name of an element, with the marks that join its parts. -/
def elementName (d : Deep) : Reader (List Char) := do
  let first ← hyphenName
  if ← eat .colon then return first ++ ':' :: (← hyphenName)
  go d.bound first
where
  /-- The parts after dots that follow `name`. -/
  go (bound : Nat) (name : List Char) : Reader (List Char) :=
    match bound with
    | 0 => outOfDepth
    | n + 1 => do
      if ← eat .dot then go n (name ++ '.' :: (← hyphenName))
      else return name

/-! ## §2. Attributes -/

/-- An expression in braces, from after the opening brace. -/
def bracedExpression (d : Deep) (g : Setting) : Reader Unit := do
  let _ ← d.fullExpression { g with colonFollows := false }
  expect .closeBrace

/-- How the value of an attribute starts. -/
inductive ValueStart where
  /-- It is a whole string. -/
  | quoted
  /-- With an opening brace. -/
  | braced
  /-- With the opening angle bracket of an element. -/
  | element

/-- The start of an attribute's value, and the text after it. -/
def valueStart? (cs : List Char) : Option (ValueStart × List Char) :=
  match (skipGap .blank false cs).1 with
  | [] => none
  | c :: cs =>
    if c = '\x22' || c = '\x27' then some (.quoted, (cs.dropWhile (· ≠ c)).tail)
    else if c = '{' then some (.braced, cs)
    else if c = '<' then some (.element, cs)
    else none

theorem valueStart?_suffix (cs : List Char) (start : ValueStart) (rest : List Char)
    (h : valueStart? cs = some (start, rest)) : rest <:+ cs := by
  have hgap := skipGap_suffix .blank false cs
  unfold valueStart? at h
  split at h
  next => cases h
  next c cs' heq =>
    rw [heq] at hgap
    have hcs : cs' <:+ cs := (List.suffix_cons c cs').trans hgap
    split at h
    · cases h
      exact (List.tail_suffix _).trans ((List.dropWhile_suffix _).trans hcs)
    · split at h
      · cases h
        exact hcs
      · split at h
        · cases h
          exact hcs
        · cases h

/-- The value of an attribute, from after its equals sign. -/
def attributeValue (d : Deep) (g : Setting) : Reader Unit := do
  match ← scanPast valueStart? valueStart?_suffix with
  | .quoted => pure ()
  | .braced => bracedExpression d g
  | .element =>
    let _ ← d.read .element g

/-- An attribute, or attributes spread from an object. -/
def attribute_ (d : Deep) (g : Setting) : Reader Unit := do
  if ← eat .openBrace then
    expect .ellipsis
    let _ ← d.value g
    expect .closeBrace
  else
    let _ ← hyphenName
    if ← eat .colon then
      let _ ← hyphenName
    if ← eat .assign then attributeValue d g

/-- Attributes up to a slash or a closing angle bracket. -/
def attributes (d : Deep) (g : Setting) : Reader Unit :=
  d.repeatUntil do
    if (← atFinish) || (← atMark .slash) || (← atCloseAngle) then return true
    attribute_ d g
    return false

/-! ## §3. Elements -/

/-- A child in braces, from after the opening brace; it may be empty. -/
def bracedChild (d : Deep) (g : Setting) : Reader Unit := do
  let _ ← eat .ellipsis
  unless ← atMark .closeBrace do
    let _ ← d.fullExpression { g with colonFollows := false }
  expect .closeBrace

/-- Whether the next child or tag opens with a brace, and the text after its
    opening. -/
def childStart? (cs : List Char) : Option (Bool × List Char) :=
  match cs.dropWhile fun c => c ≠ '<' && c ≠ '{' with
  | [] => none
  | c :: cs => some (c = '{', cs)

theorem childStart?_suffix (cs : List Char) (braced : Bool) (rest : List Char)
    (h : childStart? cs = some (braced, rest)) : rest <:+ cs := by
  have hdrop := List.dropWhile_suffix (fun c => c ≠ '<' && c ≠ '{') (l := cs)
  unfold childStart? at h
  split at h
  next => cases h
  next c cs' heq =>
    rw [heq] at hdrop
    cases h
    exact (List.suffix_cons c rest).trans hdrop

/-- The children of an element and its closing tag, which must name it. -/
def children (d : Deep) (g : Setting) (name : List Char) : Reader Unit :=
  d.repeatUntil do
    if ← scanPast childStart? childStart?_suffix then
      bracedChild d g
      return false
    else
      if ← eat .slash then
        let closing ← if ← atCloseAngle then pure [] else elementName d
        unless closing = name do fail
        closeAngle
        return true
      let _ ← d.read .element g
      return false

/-- An element from after its opening angle bracket. -/
def elementRest (d : Deep) (g : Setting) : Reader Unit := do
  if ← atCloseAngle then
    closeAngle
    children d g []
  else
    let name ← elementName d
    if g.typed && (← atOpenAngle) then
      let _ ← attempt do
        typeArguments d g
        return some ()
    attributes d g
    if ← eat .slash then closeAngle
    else
      closeAngle
      children d g name

end Relink.Source
