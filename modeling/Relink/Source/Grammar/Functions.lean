/-
  Relink.Source.Grammar.Functions — functions, object literals and classes.

  What carries code under a name: the common tail of functions and methods, the
  properties of an object literal, and the members of a class.

  Main definitions:
    * `functionTail` — type parameters, parameters, return type, body
    * `objectLiteral`
    * `classTail` — a class from after its keyword
-/

import Relink.Source.Grammar.Types

namespace Relink.Source

open Reader

/-! ## §1. Functions -/

/-- The body of a function.  Typed code may leave it out. -/
def functionBody (d : Deep) (g : Setting) : Reader Unit := do
  if g.typed && !(← atMark .openBrace) then
    unless ← eatEnd do d.block g
  else d.block g

/-- A function from its type parameters on. -/
def functionTail (d : Deep) (g : Setting) (generator : Bool) : Reader Unit := do
  let g := { g with generator := generator, allowIn := true, colonFollows := false }
  if g.typed then optionalTypeParameters d g
  expect .openParen
  parameters d g
  expect .closeParen
  if g.typed && (← atMark .colon) then returnType d g .colon
  functionBody d g

/-- A function from its keyword on; only `named` ones need a name.  Tells
    whether it is a generator. -/
def functionFromWord (d : Deep) (g : Setting) (named : Bool) : Reader Bool := do
  expectWord "function"
  let generator ← eat .star
  if named then
    let _ ← bindingName g false
  else optionalName g false
  functionTail d g generator
  return generator

/-- The body of an arrow function. -/
def arrowBody (d : Deep) (g : Setting) : Reader Unit := do
  let g := { g with generator := false }
  if ← atMark .openBrace then d.block g
  else
    let _ ← d.assignment g

/-! ## §2. Object literals -/

/-- A property whose key stands before its name: an accessor or a method that
    waits.  `word` is that key. -/
def markedProperty (d : Deep) (g : Setting) (word : String) : Reader Unit := do
  if ["get", "set", "async"].contains word then
    let mut generator := false
    if word = "async" then generator ← eat .star
    let _ ← propertyKey d g
    functionTail d g generator
  else fail

/-- A property of an object literal; tells whether it may be part of a
    pattern.  Typed code lets a key without a value pass. -/
def objectProperty (d : Deep) (g : Setting) : Reader Bool := do
  if ← eat .ellipsis then
    let form ← d.value g
    return form.isElement
  if ← eat .star then
    let _ ← propertyKey d g
    functionTail d g true
    return false
  eatAnyModifier g
  let key ← propertyKey d g
  let t ← token
  let known := match t.kind with
    | .word _ => true
    | .string _ => true
    | .number => true
    | .mark m => [Mark.openParen, .openBracket, .colon, .comma, .question, .assign, .star,
        .less].contains m || (m = .closeBrace && (match key with | .word _ => true | _ => false))
    | _ => false
  if g.typed && !known then return true
  if ← eat .colon then
    let form ← d.value g
    return form.isElement
  if t.kind = .mark .openParen || (g.typed && t.kind = .mark .less) then
    functionTail d g false
    return false
  match key with
  | .word w =>
    let _ ← eat .question
    if ← eat .assign then
      let _ ← d.value g
      return true
    if ← atAny [.comma, .closeBrace] then return true
    markedProperty d g w
    return false
  | _ => fail

/-- An object literal; tells whether it reads as a pattern. -/
def objectLiteral (d : Deep) (g : Setting) : Reader Bool := do
  let g := { g with colonFollows := false }
  expect .openBrace
  go d.bound g true
where
  /-- The properties that are left; `sound` holds if all so far fit a pattern. -/
  go (bound : Nat) (g : Setting) (sound : Bool) : Reader Bool :=
    match bound with
    | 0 => outOfDepth
    | n + 1 => do
      if ← eat .closeBrace then return sound
      let fits ← objectProperty d g
      unless ← atMark .closeBrace do expect .comma
      go n g (sound && fits)

/-! ## §3. Class members -/

/-- Whether a method's parameters come next. -/
def atMethod (g : Setting) : Reader Bool := do
  return (← atMark .openParen) || (g.typed && (← atMark .less))

/-- Whether a property ends or goes on as one here.  With `lineEnds`, the end
    of a line will do. -/
def atProperty (g : Setting) (lineEnds : Bool) : Reader Bool := do
  if g.typed && (← atAny [.bang, .colon]) then return true
  if ← atAny [.assign, .closeBrace, .semicolon] then return true
  if lineEnds then atEnd
  else return false

/-- Whether a key names the constructor. -/
def isConstructorKey : Key → Bool
  | .word w => w = "constructor"
  | .quoted w => w = "constructor"
  | _ => false

/-- A property from after its key.  A missing end is let pass. -/
def classProperty (d : Deep) (g : Setting) (key : Key) : Reader Unit := do
  if isConstructorKey key then fail
  if g.typed then
    let _ ← eat .bang
    annotation d g
  if ← eat .assign then
    let _ ← d.value g
  let _ ← eatEnd

/-- A key of a class member, which may be private. -/
def classKey (d : Deep) (g : Setting) : Reader Key := do
  if ← atMark .hash then
    privateName
    return .hidden
  propertyKey d g

/-- A word that is both a modifier and a possible member name: true if it was a
    member, which is then read whole. -/
def namedLikeModifier (d : Deep) (g : Setting) (word : String) (lineEnds : Bool) : Reader Bool := do
  if ← atMethod g then
    functionTail d g false
    return true
  if (← atProperty g lineEnds) || (g.typed && (← atMark .question)) then
    if g.typed then
      let _ ← eat .question
    classProperty d g (.word word)
    return true
  return false

/-- The constructor from its parameters on. -/
def constructorTail (d : Deep) (g : Setting) : Reader Unit := do
  if g.typed then optionalTypeParameters d g
  expect .openParen
  constructorParameters d g
  expect .closeParen
  annotation d g
  functionBody d g

/-- The modifiers after access and `static`: whether `readonly`, `abstract` or
    `override`, and `static` are among them. -/
structure MemberModifiers where
  /-- `readonly` is among them. -/
  fixed : Bool := false
  /-- `abstract` or `override` is among them. -/
  derived : Bool := false
  /-- `static` is among them. -/
  shared : Bool := false

/-- Reads the modifiers after access and `static`. -/
def memberModifiers (g : Setting) : Nat → MemberModifiers → Reader MemberModifiers
  | 0, _ => outOfDepth
  | n + 1, found => do
    match ← modifier? g ["abstract", "readonly", "override", "static"] true with
    | none => return found
    | some "readonly" => memberModifiers g n { found with fixed := true }
    | some "static" => memberModifiers g n { found with shared := true }
    | some _ => memberModifiers g n { found with derived := true }

/-- A member from its key on. -/
def classMemberFromKey (d : Deep) (g : Setting) (found : MemberModifiers) : Reader Unit := do
  if ← eat .star then
    let _ ← classKey d g
    functionTail d g true
    return
  let key ← if found.fixed && (← atAny [.bang, .colon]) then pure (Key.word "readonly")
    else classKey d g
  if g.typed then
    let _ ← eat .question
  if ← atMethod g then
    if found.fixed then fail
    if isConstructorKey key then constructorTail d g
    else functionTail d g false
    return
  -- `get` before a line that starts with a star is a property, and a generator follows it
  let starsNextLine := (← fresh) && (← atMark .star)
  let accessor := (key = .word "get" || key = .word "set")
    && !(← atProperty g false) && !starsNextLine
  if !accessor && (← atProperty g true) then
    classProperty d g key
  else if key = .word "async" && !(← fresh) then
    let generator ← eat .star
    let inner ← classKey d g
    if isConstructorKey inner then fail
    if g.typed then
      let _ ← eat .question
    functionTail d g generator
  else if accessor then
    let _ ← classKey d g
    functionTail d g false
  else fail

/-- A member from its modifiers on. -/
def classMemberRest (d : Deep) (g : Setting) (access shared : Bool) : Reader Unit := do
  let found ← memberModifiers g d.bound { shared := shared }
  if ← eatWord "accessor" then
    if ← namedLikeModifier d g "accessor" true then return
  if found.shared && (← atMark .openBrace) then
    d.block g
    return
  if (← atWord "static") && (← peek).kind = .mark .openBrace then
    skip
    d.block g
    return
  if g.typed && !found.derived && !access then
    if ← eatIndexSignature d g then return
  classMemberFromKey d g found

/-- A member of a class. -/
def classMember (d : Deep) (g : Setting) : Reader Unit := do
  d.decorators g
  if g.typed then
    if ← eatWord "declare" then
      if ← namedLikeModifier d g "declare" true then return
  let access ← modifier? g (accessWords ++ ["in", "out"]) false
  if g.typed && access.isSome then
    let _ ← eatWord "declare"
  if ← eatWord "static" then
    if ← atMethod g then
      functionTail d g false
      return
    if (← atProperty g false) || (g.typed && (← atMark .question)) then
      if g.typed then
        let _ ← eat .question
      classProperty d g (.word "static")
      return
    classMemberRest d g access.isSome true
  else classMemberRest d g access.isSome false

/-- The body of a class after its brace.  The text may end in it. -/
def classBody (d : Deep) (g : Setting) : Reader Unit := do
  d.repeatUntil do
    if (← atFinish) || (← atMark .closeBrace) then return true
    unless ← eat .semicolon do classMember d g
    return false
  unless ← atFinish do expect .closeBrace

/-! ## §4. Classes -/

/-- The parents named after `implements`, or after a comma in a parent list. -/
def heritage (d : Deep) (g : Setting) : Reader Unit :=
  commaList d atStop do
    let w ← anyWord
    let _ ← d.read (.subscripts (.name w) true true) g
    if ← atOpenAngle then typeArguments d g
where
  /-- Whether the list ends here. -/
  atStop : Reader Bool := do
    return (← atMark .openBrace) || (← atWord "implements") || (← atWord "extends")

/-- A class's parent. -/
def parentClass (d : Deep) (g : Setting) : Reader Unit := do
  let _ ← d.read .leftHand g
  if g.typed && (← atOpenAngle) then typeArguments d g

/-- A class from its keyword on; only `named` ones need a name. -/
def classFromWord (d : Deep) (g : Setting) (named : Bool) : Reader Unit := do
  let g := { g with allowIn := true, colonFollows := false }
  expectWord "class"
  if named then
    let _ ← bindingName g true
  else if !(g.typed && (← atWord "implements")) then optionalName g true
  if g.typed then optionalTypeParameters d g
  if ← eatWord "extends" then
    parentClass d g
    if g.typed then
      if ← eat .comma then heritage d g
  -- parents named twice or out of order are let pass
  if ← eatWord "extends" then parentClass d g
  if g.typed then
    if ← eatWord "implements" then heritage d g
    if ← eatWord "implements" then heritage d g
    if ← eatWord "extends" then parentClass d g
  expect .openBrace
  classBody d { g with generator := false }

end Relink.Source
