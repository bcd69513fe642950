/-
  Relink.Source.Grammar.Statements — statements and declarations.

  A statement that fails in a small way is let pass where reading can go on: a
  variable declaration steps over tokens up to its end, a block may be left
  open at the end of the text.

  Main definitions:
    * `statement`, `blockStatement`
    * `declarations` — `var`, `let` and `const`
    * `typedDeclaration?` — what a word such as `interface` starts
    * `decorators`
-/

import Relink.Source.Grammar.Expressions
import Relink.Source.Grammar.Markup

namespace Relink.Source

open Reader

/-! ## §1. Decorators -/

/-- A decorator after its sign. -/
def decorator (d : Deep) (g : Setting) : Reader Unit := do
  if ← eat .openParen then
    let _ ← d.fullExpression g
    expect .closeParen
  else
    let w ← identifier g
    -- no computed member: a bracket here opens the key of the member that is decorated
    let _ ← d.read (.subscripts (.name w) false true) g
    let typed := g.typed && (← atMark .less)
    if typed then typeArguments d g
    if typed || (← atMark .openParen) then arguments d g

/-- Decorators, where the language has them. -/
def decoratorList (d : Deep) (g : Setting) : Reader Unit := do
  if g.typed then
    d.repeatUntil do
      if ← eat .atSign then
        decorator d g
        return false
      return true

/-! ## §2. Blocks -/

/-- Statements up to a closing brace, with both braces.  The text may end in
    the block. -/
def blockStatement (d : Deep) (g : Setting) : Reader Unit := do
  let g := { g with allowIn := true, colonFollows := false, ternary := false, forHead := false }
  expect .openBrace
  d.repeatUntil do
    if ← atFinish then return true
    if ← eat .closeBrace then return true
    let _ ← d.read (.statement true) g
    return false

/-! ## §3. Variables -/

/-- The three words that declare variables. -/
inductive Binder where
  | byVar
  | byLet
  | byConst
deriving DecidableEq, Repr

/-- The word a declaration starts with. -/
def binder? (w : String) : Option Binder :=
  if w = "var" then some .byVar
  else if w = "let" then some .byLet
  else if w = "const" then some .byConst
  else none

/-- Whether a token after `let` makes it a declaration. -/
def followsLet (t : Token) : Bool :=
  match t.kind with
  | .word w => isVariableName w || ["let", "yield", "await"].contains w
  | .mark m => m = .openBrace || m = .openBracket
  | _ => false

/-- One variable with its type and value.  A pattern needs a value, except in a
    constant, where its absence is let pass, and where no code stands. -/
def variable_ (d : Deep) (g : Setting) (binder : Binder) (inHead : Bool) : Reader Unit := do
  let form ← d.binding g (binder ≠ .byVar)
  if g.typed then
    if form ≠ .group true then
      let _ ← eat .bang
    annotation d g
  if inHead && ((← atWord "of") || (← atWord "in")) then return
  if ← eat .assign then
    let _ ← d.assignment g
  else if form = .group true && !g.ambient && binder ≠ .byConst then fail

/-- Variables with commas between them.  A semicolon in the place of a variable
    is let pass. -/
def variableList (d : Deep) (g : Setting) (binder : Binder) (inHead : Bool) : Reader Unit :=
  d.repeatUntil do
    if ← atMark .semicolon then return true
    variable_ d g binder inHead
    return !(← eat .comma)

/-- Steps over tokens up to the end of a statement, or to text that is no
    token. -/
def skipToEnd (d : Deep) : Reader Unit :=
  d.repeatUntil do
    if ← eatEnd then return true
    skip
    return (← token).kind = .bad

/-- A declaration of variables.  If it does not end where it should, an
    expression and then tokens are stepped over. -/
def declarations (d : Deep) (g : Setting) (binder : Binder) : Reader Unit := do
  skip
  variableList d g binder false
  unless ← eatEnd do
    let _ ← recover (d.expression g) (pure .other)
    skipToEnd d

/-- Resources held by `using`, after an optional `await`. -/
def usingDeclaration (d : Deep) (g : Setting) : Reader Unit := do
  expectWord "using"
  variableList d g .byVar false
  expectEnd

/-! ## §4. Loops -/

/-- The test and step of a `for`, from after the first semicolon. -/
def forClauses (d : Deep) (g : Setting) : Reader Unit := do
  unless ← eat .semicolon do
    let _ ← d.fullExpression g
    expect .semicolon
  unless ← atMark .closeParen do
    let _ ← d.fullExpression g

/-- What a `for` runs over, from `of` or `in` on; tells whether it is `of`. -/
def forSource (d : Deep) (g : Setting) : Reader Bool := do
  if ← eatWord "of" then
    let _ ← d.value g
    return true
  expectWord "in"
  let _ ← d.fullExpression g
  return false

/-- Whether `of` or `in` comes next. -/
def atForSource : Reader Bool := do
  return (← atWord "of") || (← atWord "in")

/-- Whether a declaration without variables stands before `of` or `in`. -/
def lacksVariables (d : Deep) (g : Setting) : Reader Bool :=
  lookAhead do
    unless ← atForSource do fail
    skip
    let _ ← d.assignment g
    atMark .closeParen

/-- The variables at the head of a `for`. -/
def forVariables (d : Deep) (g : Setting) (binder : Binder) : Reader Unit := do
  skip
  unless g.typed && (← lacksVariables d g) do
    variableList d { g with allowIn := binder ≠ .byVar } binder true

/-- The head of a `for`; tells whether it runs over the elements of a value. -/
def forHead (d : Deep) (g : Setting) : Reader Bool := do
  let word := (← word?).getD ""
  match binder? word with
  | some binder =>
    if binder ≠ .byLet || followsLet (← peek) then
      forVariables d g binder
      if ← atForSource then forSource d g
      else
        expect .semicolon
        forClauses d g
        return false
    else expressionHead
  | none =>
    if ← eat .semicolon then
      forClauses d g
      return false
    let following ← peek
    if word = "using" && isName following && !following.fresh
        && following.kind ≠ .word "of" && following.kind ≠ .word "in" then
      skip
      variableList d { g with allowIn := false } .byVar true
      if ← atForSource then forSource d g
      else
        expect .semicolon
        forClauses d g
        return false
    else expressionHead
where
  /-- A head that starts with an expression. -/
  expressionHead : Reader Bool := do
    let form ← d.expression { g with allowIn := false, forHead := true }
    if ← atForSource then
      unless form.isElement do fail
      forSource d g
    else
      expect .semicolon
      forClauses d g
      return false

/-- A `for` statement; only one that runs over elements may wait for them. -/
def forStatement (d : Deep) (g : Setting) : Reader Unit := do
  expectWord "for"
  let waits ← eatWord "await"
  expect .openParen
  let overElements ← forHead d g
  expect .closeParen
  let _ ← d.read (.statement false) g
  if waits && !overElements then fail

/-- An expression in parentheses. -/
def condition (d : Deep) (g : Setting) : Reader Unit := do
  expect .openParen
  let _ ← d.fullExpression g
  expect .closeParen

/-! ## §5. Other statements -/

/-- The cases of a `switch`, with at most one default. -/
def switchCases (d : Deep) (g : Setting) : Nat → Bool → Reader Unit
  | 0, _ => outOfDepth
  | n + 1, defaulted => do
    if ← eatWord "case" then
      let _ ← d.fullExpression g
      body
      switchCases d g n defaulted
    else if ← eatWord "default" then
      if defaulted then fail
      body
      switchCases d g n true
    else expect .closeBrace
where
  /-- The statements of a case. -/
  body : Reader Unit := do
    expect .colon
    d.repeatUntil do
      if (← atFinish) || (← atWord "case") || (← atWord "default") || (← atMark .closeBrace) then
        return true
      let _ ← d.read (.statement true) g
      return false

/-- A `catch` clause, if one stands here. -/
def catchClause (d : Deep) (g : Setting) : Reader Unit := do
  if ← eatWord "catch" then
    if ← eat .openParen then
      let _ ← d.binding g false
      annotation d g
      expect .closeParen
    d.block g

/-- A `finally` block, if one stands here. -/
def finallyBlock (d : Deep) (g : Setting) : Reader Unit := do
  if ← eatWord "finally" then d.block g

/-- A `break` or `continue` with its label. -/
def jump (g : Setting) : Reader Unit := do
  skip
  unless ← eatEnd do
    let _ ← identifier g
    expectEnd

/-! ## §6. Declarations of typed code -/

/-- An enumeration from its name on.  A member that is not ended by a comma is
    let pass. -/
def enumDeclaration (d : Deep) (g : Setting) : Reader Unit := do
  let _ ← anyWord
  expect .openBrace
  d.repeatUntil do
    if ← atMark .closeBrace then return true
    match (← token).kind with
    | .string _ => skip
    | .number => skip
    | .mark .openBracket =>
      skip
      let _ ← d.fullExpression g
      expect .closeBracket
    | _ =>
      let _ ← anyWord
    if ← eat .assign then
      let _ ← d.assignment g
      if ← eat .comma then return false
      if ← atMark .closeBrace then return true
      fail
    if ← eat .comma then return false
    if ← atMark .closeBrace then return true
    -- the token in the comma's place is stepped over
    if ← atFinish then fail
    skip
    return false
  expect .closeBrace

/-- An interface from its name on. -/
def interfaceDeclaration (d : Deep) (g : Setting) : Reader Unit := do
  let _ ← anyWord
  optionalTypeParameters d g
  if ← eatWord "extends" then heritage d g
  -- a second list of parents is let pass unread
  if ← atWord "extends" then
    d.repeatUntil do
      if (← atFinish) || (← atMark .openBrace) then return true
      skip
      return false
  typeMembers d g

/-- A type alias from its name on. -/
def aliasDeclaration (d : Deep) (g : Setting) : Reader Unit := do
  let _ ← anyWord
  optionalTypeParameters d g
  expect .assign
  d.innerType g
  expectEnd

/-- An ambient module from its quoted name, or the global one from its word. -/
def ambientModule (d : Deep) (g : Setting) : Reader Unit := do
  match (← token).kind with
  | .string _ => skip
  | .word "global" => skip
  | _ => fail
  if ← atMark .openBrace then
    let _ ← d.read .items g
  else expectEnd

/-- A namespace from its name on. -/
def namespaceDeclaration (d : Deep) (g : Setting) : Reader Unit := do
  let _ ← anyWord
  d.repeatUntil do
    if ← eat .dot then
      let _ ← anyWord
      return false
    return true
  let _ ← d.read .items g

/-- The declaration that a word starts, if it starts one.  With `certain` the
    word itself comes next and what follows it is not looked at; otherwise it
    was taken already. -/
def typedDeclaration? (d : Deep) (g : Setting) (word : String) (certain : Bool) : Reader Bool := do
  match word with
  | "abstract" =>
    if certain then skip
    else if (← fresh) || !(← atWord "class") then return false
    classFromWord d g true
    return true
  | "enum" =>
    if certain then skip
    else if !(← atName) then return false
    enumDeclaration d g
    return true
  | "interface" =>
    if certain then skip
    else if !(← atName) then return false
    interfaceDeclaration d g
    return true
  | "module" =>
    if ← fresh then return false
    if certain then skip
    match (← token).kind with
    | .string _ =>
      ambientModule d g
      return true
    | _ =>
      if !certain && !(← atName) then return false
      namespaceDeclaration d g
      return true
  | "namespace" =>
    if certain then skip
    else if !(← atName) then return false
    namespaceDeclaration d g
    return true
  | "type" =>
    if certain then skip
    else if (← fresh) || !(← atName) then return false
    aliasDeclaration d g
    return true
  | _ => return false

/-- What `declare` stands before, if it is a declaration. -/
def ambientDeclaration? (d : Deep) (g : Setting) : Reader Bool := do
  let g := { g with ambient := true }
  let following ← peek
  match ← word? with
  | none => return false
  | some w =>
    if w = "function" then
      let _ ← functionFromWord d g true
      return true
    else if w = "class" then
      classFromWord d g true
      return true
    else if w = "const" && following.kind = .word "enum" then
      skip
      skip
      enumDeclaration d g
      return true
    else
      match binder? w with
      | some binder =>
        declarations d g binder
        return true
      | none =>
        if w = "global" then
          ambientModule d g
          return true
        typedDeclaration? d g w true

/-- The declaration that an expression statement of one word starts. -/
def declarationAfter? (d : Deep) (g : Setting) (word : String) : Reader Bool := do
  if word = "declare" then ambientDeclaration? d g
  else if word = "global" then
    if ← atMark .openBrace then
      let _ ← d.read .items g
      return true
    return false
  else typedDeclaration? d g word false

/-! ## §7. Statements -/

/-- A statement that starts with an expression.  An operator after a whole
    expression goes on with it and needs no end. -/
def expressionStatement (d : Deep) (g : Setting) : Reader Unit := do
  let form ← d.fullExpression g
  if let .name w := form then
    if ← eat .colon then
      if ← atWord "function" then
        if ← functionFromWord d g true then fail
      else
        let _ ← d.read (.statement false) g
      return
    -- on a line of its own the word is a variable, not the start of a declaration
    if w = "interface" && (← fresh) then
      let _ ← eat .semicolon
      return
    if g.typed then
      if ← declarationAfter? d g w then return
  unless ← eatEnd do
    if isOperatorMark (← token) then
      let _ ← d.read (.operators form 0) g
    else fail

/-- A statement that starts with a word, if that word decides what it is. -/
def wordStatement? (d : Deep) (g : Setting) (declares : Bool) (w : String) : Reader Bool := do
  let following ← peek
  match w with
  | "break" =>
    jump g
    return true
  | "continue" =>
    jump g
    return true
  | "debugger" =>
    skip
    expectEnd
    return true
  | "do" =>
    skip
    let _ ← d.read (.statement false) g
    expectWord "while"
    condition d g
    let _ ← eatEnd
    return true
  | "for" =>
    forStatement d g
    return true
  | "function" =>
    let _ ← functionFromWord d g true
    return true
  | "class" =>
    classFromWord d g true
    return true
  | "if" =>
    skip
    condition d g
    let _ ← d.read (.statement false) g
    if ← eatWord "else" then
      let _ ← d.read (.statement false) g
    return true
  | "return" =>
    skip
    unless ← atEnd do
      let _ ← d.fullExpression g
    expectEnd
    return true
  | "switch" =>
    skip
    condition d g
    expect .openBrace
    switchCases d g d.bound false
    return true
  | "throw" =>
    skip
    if ← fresh then fail
    let _ ← d.fullExpression g
    expectEnd
    return true
  | "catch" =>
    -- a clause without its `try` is let pass
    recover (catchClause d g) (pure ())
    recover (finallyBlock d g) (pure ())
    return true
  | "finally" =>
    recover (finallyBlock d g) (pure ())
    return true
  | "try" =>
    skip
    d.block g
    catchClause d g
    finallyBlock d g
    return true
  | "with" =>
    skip
    condition d g
    let _ ← d.read (.statement false) g
    return true
  | "while" =>
    skip
    condition d g
    let _ ← d.read (.statement false) g
    return true
  | "var" =>
    declarations d g .byVar
    return true
  | "const" =>
    if g.typed && following.kind = .word "enum" then
      skip
      skip
      enumDeclaration d g
      return true
    if declares then
      declarations d g .byConst
      return true
    return false
  | "let" =>
    if declares && followsLet following then
      declarations d g .byLet
      return true
    return false
  | "using" =>
    if declares && isName following && !following.fresh then
      usingDeclaration d g
      return true
    return false
  | "await" =>
    if declares && following.kind = .word "using" then
      let found ← attempt do
        skip
        let named ← peek
        if isName named && !named.fresh then return some ()
        return none
      if found.isSome then
        usingDeclaration d g
        return true
    return false
  | "async" =>
    if following.kind = .word "function" && !following.fresh then
      skip
      let _ ← functionFromWord d g true
      return true
    return false
  | _ => return false

/-- A statement; `declares` lets it be a declaration.  Imports and exports are
    not among statements, an `import` expression apart. -/
def statement (d : Deep) (g : Setting) (declares : Bool) : Reader Unit := do
  d.decorators g
  match (← token).kind with
  | .mark .openBrace => d.block g
  | .mark .semicolon => skip
  | .finish => fail
  | .word w =>
    let following ← peek
    if w = "export" then fail
    if w = "import" && following.kind ≠ .mark .openParen && following.kind ≠ .mark .dot then fail
    unless ← wordStatement? d g declares w do
      if w = "import" then
        let _ ← d.fullExpression g
        let _ ← eatEnd
      else expressionStatement d g
  | _ => expressionStatement d g

end Relink.Source
