/-
  Relink.Source.Grammar.Types — types, type parameters and object types.

  The typed part of the language: what may stand after a colon, between angle
  brackets and in the body of an interface.  A closing angle bracket is read as
  a single character, so that `>>` closes two lists.

  Main definitions:
    * `typeArguments`, `typeParameters`, `optionalTypeParameters`
    * `returnType` — a type or a predicate such as `x is T`
    * `typeMembers` — the body of an object type
    * `conditionalType`, `plainType`, `typeOperand` — the three levels of types
-/

import Relink.Source.Grammar.Binding

namespace Relink.Source

open Reader

/-! ## §1. Angle brackets -/

/-- The first character of the next token. -/
def firstChar : Reader Unit := scanNext (fun cs => ((), cs.tail)) List.tail_suffix

/-- Whether the next token opens a list in angle brackets. -/
def atOpenAngle : Reader Bool := atAny [.less, .shiftLeft]

/-- The opening angle bracket of a list, which may be half of a doubled one. -/
def openAngle : Reader Unit := do
  if ← atOpenAngle then firstChar else fail

/-- Whether the next character is a closing angle bracket. -/
def atCloseAngle : Reader Bool := do
  return (← token).here.head? = some '>'

/-- A closing angle bracket, which may be part of a longer mark. -/
def closeAngle : Reader Unit := do
  if ← atCloseAngle then firstChar else fail

/-- Elements with commas between them, up to where `atStop` holds; a comma may
    stand at the end. -/
def commaList (d : Deep) (atStop : Reader Bool) (element : Reader Unit) : Reader Unit :=
  d.repeatUntil do
    if ← atStop then return true
    element
    if ← eat .comma then return false
    if ← atStop then return true
    fail

/-- Type arguments in angle brackets. -/
def typeArguments (d : Deep) (g : Setting) : Reader Unit := do
  openAngle
  commaList d atCloseAngle (d.innerType g)
  closeAngle

/-- A type parameter: modifiers, a name, a bound and a default. -/
def typeParameter (d : Deep) (g : Setting) : Reader Unit := do
  d.repeatUntil do
    let found ← modifier? g
      (accessWords ++ ["readonly", "abstract", "const", "override", "in", "out"]) false
    return found.isNone
  let _ ← anyWord
  if ← eatWord "extends" then d.innerType g
  if ← eat .assign then d.innerType g

/-- Type parameters in angle brackets. -/
def typeParameters (d : Deep) (g : Setting) : Reader Unit := do
  expect .less
  commaList d atCloseAngle (typeParameter d g)
  closeAngle

/-- Type parameters, if any. -/
def optionalTypeParameters (d : Deep) (g : Setting) : Reader Unit := do
  if ← atMark .less then typeParameters d g

/-! ## §2. Names of types -/

/-- A dotted name.  A dot at its end is let pass. -/
def entityName (d : Deep) : Reader Unit := do
  let _ ← anyWord
  d.repeatUntil do
    if ← eat .dot then
      if ← atAnyWord then
        skip
        return false
      if ← atMark .hash then fail
    return true

/-- A named type with its arguments. -/
def typeReference (d : Deep) (g : Setting) : Reader Unit := do
  eatAnyModifier g
  entityName d
  if !(← fresh) && (← atOpenAngle) then typeArguments d g

/-- The type of an imported module: `import('…').Name<…>`. -/
def importType (d : Deep) (g : Setting) : Reader Unit := do
  expectWord "import"
  expect .openParen
  skip
  if ← eat .comma then
    let _ ← d.value g
    let _ ← eat .comma
  expect .closeParen
  if ← eat .dot then entityName d
  if ← atOpenAngle then typeArguments d g

/-- The type of a value: `typeof name`. -/
def typeQuery (d : Deep) (g : Setting) : Reader Unit := do
  expectWord "typeof"
  if ← atWord "import" then importType d g
  else entityName d
  if !(← fresh) && (← atOpenAngle) then typeArguments d g

/-! ## §3. Predicates and functions -/

/-- A return type after the mark: a type, or a predicate on a parameter. -/
def returnType (d : Deep) (g : Setting) (mark : Mark) : Reader Unit := do
  expect mark
  let asserts := (← atWord "asserts") && isName (← peek)
  if asserts then skip
  let following ← peek
  let states := (← atName) && following.kind = .word "is" && !following.fresh
  if asserts || states then
    skip
    if states then
      skip
      d.type g
  else d.type g

/-- A function type, or with `new` a constructor type. -/
def functionType (d : Deep) (g : Setting) (constructs : Bool) : Reader Unit := do
  if constructs then
    let _ ← eatWord "abstract"
    expectWord "new"
  optionalTypeParameters d g
  expect .openParen
  signatureParameters d g
  returnType d g .arrow

/-- Whether an opening parenthesis starts the parameters of a function type. -/
def startsFunctionType (d : Deep) (g : Setting) : Reader Bool :=
  lookAhead do
    expect .openParen
    if (← atMark .closeParen) || (← atMark .ellipsis) then return true
    eatAnyModifier g
    if ← atAnyWord then skip
    else if ← atAny [.openBrace, .openBracket] then
      let _ ← d.binding g false
    else return false
    if ← atAny [.colon, .comma, .question, .assign] then return true
    if ← eat .closeParen then atMark .arrow
    else return false

/-! ## §4. Object types -/

/-- What ends a member of an object type. -/
def memberEnd : Reader Unit := do
  unless ← eat .comma do expectEnd

/-- A call or construct signature. -/
def callSignature (d : Deep) (g : Setting) : Reader Unit := do
  let _ ← eatWord "new"
  optionalTypeParameters d g
  expect .openParen
  signatureParameters d g
  if ← atMark .colon then returnType d g .colon
  memberEnd

/-- Whether a bracket opens an index signature. -/
def startsIndexSignature : Reader Bool :=
  lookAhead do
    expect .openBracket
    let _ ← anyWord
    atAny [.colon, .comma]

/-- Takes an index signature, if one stands here. -/
def eatIndexSignature (d : Deep) (g : Setting) : Reader Bool := do
  if ← startsIndexSignature then
    expect .openBracket
    let _ ← anyWord
    unless ← eat .comma do expect .colon
    d.innerType g
    expect .closeBracket
    annotation d g
    memberEnd
    return true
  return false

/-- The key of a member of an object type. -/
def memberKey (d : Deep) (g : Setting) : Reader Unit := do
  match (← token).kind with
  | .mark .openBracket =>
    skip
    let _ ← d.assignment g
    expect .closeBracket
  | .mark .hash => privateName
  | .word _ => skip
  | .number => skip
  | .string _ => skip
  | _ => fail

/-- A getter or setter of an object type. -/
def accessorSignature (d : Deep) (g : Setting) : Reader Unit := do
  if ← eatWord "get" then
    memberKey d g
    expect .openParen
    expect .closeParen
    annotation d g
  else
    expectWord "set"
    memberKey d g
    expect .openParen
    if ← atMark .closeParen then fail
    signatureParameters d g
  memberEnd

/-- A property or method of an object type. -/
def propertySignature (d : Deep) (g : Setting) (fixed : Bool) : Reader Unit := do
  memberKey d g
  let _ ← eat .question
  if ← atAny [.openParen, .less] then
    if fixed then fail
    optionalTypeParameters d g
    expect .openParen
    signatureParameters d g
    if ← atMark .colon then returnType d g .colon
  else annotation d g
  memberEnd

/-- A member of an object type. -/
def typeMember (d : Deep) (g : Setting) : Reader Unit := do
  let following ← peek
  if (← atAny [.openParen, .less])
      || ((← atWord "new") && (following.kind = .mark .openParen
        || following.kind = .mark .less)) then
    callSignature d g
  else
    let fixed := (← modifier? g ["readonly"] false).isSome
    unless ← eatIndexSignature d g do
      let accessor ← attempt do
        if fixed then fail
        accessorSignature d g
        return some ()
      if accessor.isNone then propertySignature d g fixed

/-- The members of an object type, in braces. -/
def typeMembers (d : Deep) (g : Setting) : Reader Unit := do
  expect .openBrace
  d.repeatUntil do
    if ← atMark .closeBrace then return true
    typeMember d { g with conditionalType := true }
    return false
  expect .closeBrace

/-- Whether a brace opens a mapped type. -/
def startsMappedType : Reader Bool :=
  lookAhead do
    expect .openBrace
    if ← atAny [.plus, .minus] then
      skip
      atWord "readonly"
    else
      let _ ← eatWord "readonly"
      expect .openBracket
      unless ← atName do fail
      skip
      atWord "in"

/-- A mapped type. -/
def mappedType (d : Deep) (g : Setting) : Reader Unit := do
  expect .openBrace
  if ← atAny [.plus, .minus] then
    skip
    expectWord "readonly"
  else
    let _ ← eatWord "readonly"
  expect .openBracket
  let _ ← anyWord
  expectWord "in"
  d.innerType g
  if ← eatWord "as" then d.innerType g
  expect .closeBracket
  if ← atAny [.plus, .minus] then
    skip
    expect .question
  else
    let _ ← eat .question
  annotation d g
  expectEnd
  expect .closeBrace

/-! ## §5. Tuples -/

/-- The label of a tuple element. -/
def tupleLabel : Reader Unit := do
  let _ ← attempt do
    let _ ← eat .ellipsis
    let _ ← anyWord
    let _ ← eat .question
    expect .colon
    return some ()

/-- An element of a tuple type. -/
def tupleElement (d : Deep) (g : Setting) : Reader Unit := do
  tupleLabel
  if ← eat .ellipsis then d.innerType g
  else
    d.innerType g
    let _ ← eat .question

/-- A tuple type. -/
def tupleType (d : Deep) (g : Setting) : Reader Unit := do
  expect .openBracket
  commaList d (atMark .closeBracket) (tupleElement d g)
  expect .closeBracket

/-! ## §6. The levels of types -/

/-- The rest of a predicate on `this`, after that word. -/
def thisPredicate (d : Deep) (g : Setting) : Reader Unit := do
  if !(← fresh) && (← atWord "is") then
    skip
    d.type g

/-- The words that are types of their own. -/
def typeWords : List String := [
  "any", "bigint", "boolean", "intrinsic", "never", "null", "number", "object", "string", "symbol",
  "undefined", "unknown", "void"]

/-- A type without operators around it. -/
def simpleType (d : Deep) (g : Setting) : Reader Unit := do
  match (← token).kind with
  | .string _ => skip
  | .number => skip
  | .word w =>
    if w = "import" then importType d g
    else if w = "typeof" then typeQuery d g
    else if w = "this" then
      skip
      thisPredicate d g
    else if w = "true" || w = "false" then skip
    else if isVariableName w || ["void", "yield", "null", "await", "break"].contains w then
      let following ← peek
      if w = "asserts" && following.kind = .word "this" then
        skip
        skip
        thisPredicate d g
      else if typeWords.contains w && following.kind ≠ .mark .dot then skip
      else typeReference d g
    else fail
  | .mark .backquote => template d false (d.innerType g)
  | .mark .openBrace => if ← startsMappedType then mappedType d g else typeMembers d g
  | .mark .openBracket => tupleType d g
  | .mark .openParen =>
    skip
    d.innerType g
    expect .closeParen
  | .mark .minus =>
    skip
    if (← token).kind = .number then skip
    else fail
  | _ => fail

/-- A type with array brackets and indices after it, on its line. -/
def postfixType (d : Deep) (g : Setting) : Reader Unit := do
  simpleType d g
  d.repeatUntil do
    if ← fresh then return true
    if ← eat .openBracket then
      unless ← atMark .closeBracket do d.innerType g
      expect .closeBracket
      return false
    return true

/-- An inferred type with an optional bound. -/
def inferType (d : Deep) (g : Setting) : Reader Unit := do
  expectWord "infer"
  let _ ← anyWord
  -- taken back where a question mark shows that `extends` belongs to a conditional type
  let _ ← attempt do
    expectWord "extends"
    let _ ← d.read .plainType g
    if !g.conditionalType || !(← atMark .question) then return some ()
    return none

/-- An operand of `&`, with the operators before it. -/
def typeOperand (d : Deep) (g : Setting) : Reader Unit := do
  match ← word? with
  | some w =>
    if ["keyof", "unique", "readonly"].contains w then
      skip
      let _ ← d.read .typeOperand g
    else if w = "infer" then inferType d g
    else postfixType d g
  | none => postfixType d g

/-- Operands with a mark between them, which may also stand first. -/
def joinedTypes (d : Deep) (mark : Mark) (operand : Reader Unit) : Reader Unit := do
  let _ ← eat mark
  operand
  d.repeatUntil do
    if ← eat mark then
      operand
      return false
    return true

/-- A type other than a conditional one. -/
def plainType (d : Deep) (g : Setting) : Reader Unit := do
  let following ← peek
  if (← atMark .less) || ((← atMark .openParen) && (← startsFunctionType d g)) then
    functionType d g false
  else if (← atWord "new") || ((← atWord "abstract") && following.kind = .word "new") then
    functionType d g true
  else
    joinedTypes d .bitOr (joinedTypes d .bitAnd (typeOperand d g))

/-- A type. -/
def conditionalType (d : Deep) (g : Setting) : Reader Unit := do
  plainType d g
  if !(← fresh) && g.conditionalType && (← atWord "extends") then
    skip
    let _ ← d.read .plainType { g with conditionalType := false }
    expect .question
    d.innerType g
    expect .colon
    d.innerType g

end Relink.Source
