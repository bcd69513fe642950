/-
  Relink.Source.Grammar.Binding — names, patterns and parameters.

  What introduces a variable: a plain name, an array or object pattern, and the
  parameter lists made of them.  Property keys stand here too, because object
  patterns, object literals, classes and object types share them.

  Main definitions:
    * `identifier`, `bindingName`, `propertyKey`
    * `modifier?`, `eatAnyModifier` — words such as `private` before a name
    * `bindingTarget` — a name or a pattern
    * `parameters`, `signatureParameters`
-/

import Relink.Source.Grammar.Basic

namespace Relink.Source

open Reader

/-! ## §1. Names -/

/-- A word used as a name.  Words that only strict code keeps are let pass. -/
def identifier (g : Setting) : Reader String := do
  let w ← anyWord
  if isVariableName w || w = "let" || w = "yield" then return w
  if w = "this" && g.typed then return w
  if w = "await" && g.ambient then return w
  fail

/-- The name of a variable; lexical declarations may not introduce `let`. -/
def bindingName (g : Setting) (noLet : Bool) : Reader String := do
  if noLet && (← atWord "let") then fail
  identifier g

/-- The name of a class or function, which may be missing. -/
def optionalName (g : Setting) (noLet : Bool) : Reader Unit := do
  if (← atName) || (g.typed && (← atWord "this")) then
    let _ ← bindingName g noLet

/-- A private name: a hash with a word directly after it. -/
def privateName : Reader Unit := do
  expect .hash
  let t ← token
  -- equal lengths: nothing stands between the hash and the word
  if t.here.length = (← past).length then
    let _ ← anyWord
  else fail

/-- The key of a property or member. -/
def propertyKey (d : Deep) (g : Setting) : Reader Key := do
  match (← token).kind with
  | .string value =>
    skip
    return .quoted (String.ofList (joinPairs value))
  | .number =>
    skip
    return .other
  | .word w =>
    skip
    return .word w
  | .mark .openBracket =>
    skip
    let _ ← d.value g
    if g.typed then
      d.repeatUntil do
        if ← eat .comma then
          let _ ← d.value g
          return false
        return true
    expect .closeBracket
    return .other
  | _ => fail

/-! ## §2. Modifiers -/

/-- Whether a token may follow a modifier: the start of what it modifies, on
    the same line. -/
def followsModifier (t : Token) : Bool :=
  !t.fresh &&
    match t.kind with
    | .word _ => true
    | .string _ => true
    | .number => true
    | .mark m =>
      [Mark.openBracket, .openBrace, .star, .ellipsis, .hash].contains m
    | _ => false

/-- One of the allowed modifiers, where typed code has one.  With `keepBlock`,
    a `static` before a brace is no modifier. -/
def modifier? (g : Setting) (allowed : List String) (keepBlock : Bool) : Reader (Option String) := do
  match ← word? with
  | none => return none
  | some w =>
    let following ← peek
    if g.typed && allowed.contains w
        && !(keepBlock && w = "static" && following.kind = .mark .openBrace)
        && followsModifier following then
      skip
      return some w
    return none

/-- The words that say who may use a member. -/
def accessWords : List String := ["public", "protected", "private"]

/-- Takes a modifier that may stand before a parameter or property. -/
def eatAnyModifier (g : Setting) : Reader Unit := do
  let following ← peek
  if isWord following || following.kind = .mark .openBrace
      || following.kind = .mark .openBracket then
    let _ ← modifier? g (accessWords ++ ["readonly"]) false

/-! ## §3. Patterns -/

/-- A name or pattern with an optional default. -/
def bindingElement (d : Deep) (g : Setting) : Reader Unit := do
  let _ ← d.binding g false
  if ← eat .assign then
    let _ ← d.value g

/-- An array pattern. -/
def arrayBinding (d : Deep) (g : Setting) : Reader Unit := do
  expect .openBracket
  d.repeatUntil do
    if (← atFinish) || (← atMark .closeBracket) then return true
    if ← eat .comma then return false
    if ← eat .ellipsis then
      let _ ← d.binding g false
    else bindingElement d g
    unless ← atMark .closeBracket do expect .comma
    return false
  expect .closeBracket
  if g.ambient then
    let _ ← eat .question

/-- A property of an object pattern; tells whether it is a rest property that
    holds a pattern. -/
def objectBindingProperty (d : Deep) (g : Setting) : Reader Bool := do
  if ← eat .ellipsis then
    match ← d.binding g false with
    | .name _ => return false
    | _ => return true
  let key ← propertyKey d g
  if ← eat .colon then
    bindingElement d g
    return false
  match key with
  | .word _ =>
    if ← eat .assign then
      let _ ← d.value g
    return false
  | _ => fail

/-- An object pattern.  A rest property at the end must be a name. -/
def objectBinding (d : Deep) (g : Setting) : Reader Unit := do
  expect .openBrace
  d.repeatUntil do
    if ← eat .closeBrace then return true
    let unfit ← objectBindingProperty d g
    if ← atMark .closeBrace then
      if unfit then fail
    else
      expect .comma
      if unfit && (← atMark .closeBrace) then fail
    return false
  if g.ambient then
    let _ ← eat .question

/-- A name, an array pattern or an object pattern. -/
def bindingTarget (d : Deep) (g : Setting) (noLet : Bool) : Reader Form := do
  match (← token).kind with
  | .word _ => return .name (← bindingName g noLet)
  | .mark .openBracket =>
    arrayBinding d g
    return .group true
  | .mark .openBrace =>
    objectBinding d g
    return .group true
  | _ => fail

/-! ## §4. Parameters -/

/-- A type annotation after a colon, where typed code has one. -/
def annotation (d : Deep) (g : Setting) : Reader Unit := do
  if g.typed && (← atMark .colon) then
    skip
    d.innerType g

/-- What a parameter turned out to be. -/
structure Parameter where
  /-- It is a plain name. -/
  named : Bool
  /-- It has a default. -/
  defaulted : Bool

/-- A parameter that is no rest parameter. -/
def plainParameter (d : Deep) (g : Setting) : Reader Parameter := do
  eatAnyModifier g
  let form ← d.binding g false
  if g.typed then
    let _ ← eat .question
    annotation d g
  let named := form ≠ .group true
  if ← eat .assign then
    let _ ← d.assignment g
    return ⟨named, true⟩
  return ⟨named, false⟩

/-- A rest parameter, after its dots. -/
def restParameter (d : Deep) (g : Setting) : Reader Unit := do
  let _ ← d.binding g false
  if ← eat .assign then
    let _ ← d.assignment g
  annotation d g
  if g.typed then
    let _ ← eat .question

/-- Parameters up to a closing parenthesis, each read by `plain` unless it is a
    rest parameter. -/
def parameterList (d : Deep) (g : Setting) (plain : Reader Unit) : Reader Unit :=
  d.repeatUntil do
    if (← atFinish) || (← atMark .closeParen) then return true
    d.decorators g
    if ← eat .ellipsis then restParameter d g
    else plain
    unless ← atMark .closeParen do expect .comma
    return false

/-- The parameters of a function. -/
def parameters (d : Deep) (g : Setting) : Reader Unit :=
  parameterList d g do
    let _ ← plainParameter d g

/-- The parameters of a signature without code, with the closing parenthesis.
    None may have a default. -/
def signatureParameters (d : Deep) (g : Setting) : Reader Unit := do
  parameterList d g do
    let p ← plainParameter d g
    if p.defaulted then fail
  expect .closeParen

/-- The parameters of a constructor: one with a modifier must be a name. -/
def constructorParameters (d : Deep) (g : Setting) : Reader Unit :=
  parameterList d g do
    let access ← modifier? g (accessWords ++ ["in", "out"]) false
    let overriding ← modifier? g ["override"] false
    let fixed ← modifier? g ["readonly"] false
    let p ← plainParameter d g
    if (access.isSome || overriding.isSome || fixed.isSome) && !p.named then fail

end Relink.Source
