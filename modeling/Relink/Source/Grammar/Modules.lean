/-
  Relink.Source.Grammar.Modules — imports, exports, and the knot.

  The items of a module are statements, imports and exports.  An import keeps
  its specifier literal and the place where the declaration ends; everything
  else is only checked.

  Main definitions:
    * `ImportLiteral`, `importItem`, `exportItem`, `moduleItem`
    * `step` — one level of the grammar, over the next one
    * `grammar` — the knot, tied by recursion on the depth
    * `moduleImports?` — the import declarations of a module text
-/

import Relink.Source.Grammar.Statements

namespace Relink.Source

open Reader

/-! ## §1. Import declarations -/

/-- The specifier literal of an import declaration, in its text. -/
structure ImportLiteral where
  /-- The code points of its value. -/
  value : List Nat
  /-- The text from its opening quote on. -/
  here : List Char
  /-- The text after it. -/
  rest : List Char
  /-- The text after the declaration. -/
  after : List Char
deriving DecidableEq, Repr

/-- The end of a declaration that names a module: the literal, attributes whose
    keyword stands on its line, and the end of the statement. -/
def moduleSource (d : Deep) (g : Setting) : Reader ImportLiteral := do
  let t ← token
  match t.kind with
  | .string value =>
    skip
    if !(← fresh) && ((← atWord "with") || (← atWord "assert")) then
      skip
      let _ ← objectLiteral d g
    expectEnd
    return ⟨value, t.here, t.rest, ← past⟩
  | _ => fail

/-- What an import or export is called outside: a word or a string. -/
def moduleName : Reader Key := do
  match (← token).kind with
  | .word w =>
    skip
    return .word w
  | .string value =>
    skip
    return .quoted (String.ofList (joinPairs value))
  | _ => fail

/-- The part of a specifier in braces that follows a leading `type`: true if
    the specifier is complete, false if its name was read and another name may
    follow.  `renamed` reads what comes after `as`. -/
def afterTypeWord (renamed : Reader Unit) : Reader Bool := do
  let w ← anyWord
  if w = "as" then
    unless ← atAnyWord do return true
    if ← atWord "as" then
      skip
      if ← atAnyWord then renamed
    else renamed
    return true
  return false

/-- An imported name with its alias.  A string must have one.  A word need not,
    also if it is reserved and so could not be bound: only an alias is checked. -/
def importSpecifier (g : Setting) : Reader Unit := do
  let renamed : Reader Unit := do
    let _ ← bindingName g false
  match ← moduleName with
  | .word w =>
    if g.typed && w = "type" && (← atAnyWord) then
      if ← afterTypeWord renamed then return
    if ← eatWord "as" then renamed
  | _ =>
    expectWord "as"
    renamed

/-- Specifiers in braces, after the opening brace. -/
def specifierList (d : Deep) (specifier : Reader Unit) : Reader Unit := do
  d.repeatUntil do
    if (← atFinish) || (← atMark .closeBrace) then return true
    specifier
    unless ← atMark .closeBrace do expect .comma
    return false
  expect .closeBrace

/-- Whether a word before a name goes with the name: it does unless the name is
    the `from` of the declaration. -/
def namesFollowing : Reader Bool := do
  if ← atName then
    let following ← peek
    return !(← atWord "from") || following.kind = .word "from"
  return false

/-- How the clause before `from` was read so far. -/
inductive Clause where
  /-- Names in braces or a namespace may follow. -/
  | opened
  /-- An equals sign comes next: an alias, not an import declaration. -/
  | aliased

/-- The default name of an import, with the words that may stand before it. -/
def defaultClause (g : Setting) : Reader Clause := do
  let mut name ← bindingName g false
  if g.typed && name = "type" then
    -- before a star or a brace the word `type` marks the import and is not its default name
    if ← atAny [.star, .openBrace] then return .opened
    if ← namesFollowing then name ← bindingName g false
    else if (← atName) && (← peek).kind = .mark .assign then
      name ← anyWord
  if g.typed && (← atMark .assign) then return .aliased
  if name = "source" || name = "defer" then
    if ← atMark .star then return .opened
    if ← namesFollowing then
      let _ ← bindingName g false
  unless ← atWord "from" do expect .comma
  return .opened

/-- What an alias stands for, from its equals sign on. -/
def importAlias (d : Deep) : Reader Unit := do
  expect .assign
  if (← atWord "require") && (← peek).kind = .mark .openParen then
    skip
    skip
    match (← token).kind with
    | .string _ => skip
    | _ => fail
    expect .closeParen
  else entityName d
  expectEnd

/-- An import from what follows its default name on. -/
def importRest (d : Deep) (g : Setting) : Clause → Reader (Option ImportLiteral)
  | .aliased => do
    importAlias d
    return none
  | .opened => do
    if ← eat .star then
      expectWord "as"
      let _ ← bindingName g false
    else if ← eat .openBrace then
      specifierList d (importSpecifier g)
    expectWord "from"
    return some (← moduleSource d g)

/-- An import after its keyword, from its clause on. -/
def importClause (d : Deep) (g : Setting) : Reader (Option ImportLiteral) := do
  if ← atName then importRest d g (← defaultClause g)
  else importRest d g .opened

/-- An item that starts with `import`; an expression or alias has no literal. -/
def importItem (d : Deep) (g : Setting) : Reader (Option ImportLiteral) := do
  -- `import(…)` and `import.meta` are expressions: they declare nothing
  let following ← peek
  if following.kind = .mark .openParen || following.kind = .mark .dot then
    let _ ← d.fullExpression g
    let _ ← eatEnd
    return none
  skip
  match (← token).kind with
  | .string _ => return some (← moduleSource d g)
  | _ => importClause d g

/-! ## §2. Exports -/

/-- An exported name with its alias. -/
def exportSpecifier (g : Setting) : Reader Unit := do
  let renamed : Reader Unit := do
    let _ ← moduleName
  match ← moduleName with
  | .word w =>
    if g.typed && w = "type" && (← atAnyWord) then
      if ← afterTypeWord renamed then return
    if ← eatWord "as" then renamed
  | _ => if ← eatWord "as" then renamed

/-- What is exported as the default. -/
def exportDefault (d : Deep) (g : Setting) : Reader Unit := do
  d.decorators g
  let following ← peek
  if g.typed && (← atWord "abstract") && following.kind = .word "class" && !following.fresh then
    skip
    classFromWord d g false
  else
    -- an interface is abstract anyway: the word is let pass
    if g.typed && (← atWord "abstract") && following.kind = .word "interface" then skip
    if g.typed && (← atWord "interface") then
      skip
      interfaceDeclaration d g
    else if ← atWord "class" then classFromWord d g false
    else if (← atWord "async") && following.kind = .word "function" && !following.fresh then
      skip
      let _ ← functionFromWord d g false
    else if ← atWord "function" then
      let _ ← functionFromWord d g false
    else
      let _ ← d.value g
      expectEnd

/-- Names exported from here or from another module. -/
def exportNames (d : Deep) (g : Setting) : Reader Unit := do
  if ← eat .star then
    if ← eatWord "as" then
      let _ ← moduleName
    expectWord "from"
    let _ ← moduleSource d g
  else
    expect .openBrace
    specifierList d (exportSpecifier g)
    if ← eatWord "from" then
      let _ ← moduleSource d g
    else
      let _ ← eatEnd

/-- What is exported under its own name, or names in braces. -/
def exportDeclaration (d : Deep) (g : Setting) (typeOnly : Bool) : Reader Unit := do
  d.decorators g
  if typeOnly then exportNames d g
  else
    let following ← peek
    match ← word? with
    | none => exportNames d g
    | some w =>
      if w = "class" then classFromWord d g true
      else if w = "async" && following.kind = .word "function" && !following.fresh then
        skip
        let _ ← functionFromWord d g true
      else if w = "function" then
        let _ ← functionFromWord d g true
      else if g.typed && w = "const" && following.kind = .word "enum" then
        skip
        skip
        enumDeclaration d g
      else
        match binder? w with
        | some binder =>
          if binder ≠ .byLet || followsLet following then declarations d g binder
          else exportNames d g
        | none => exportNames d g

/-- The forms of export that only typed code has; true if one was read. -/
def typedExport? (d : Deep) (g : Setting) : Reader Bool := do
  if ← eatWord "declare" then
    -- where no declaration follows, the word is let pass and the rest read without it
    if ← ambientDeclaration? d g then return true
  match ← word? with
  | some w =>
    let found ← attempt do
      if ← typedDeclaration? d g w true then return some ()
      return none
    if found.isSome then return true
  | none => pure ()
  if ← eatWord "import" then
    if (← atWord "type") && isName (← peek) then skip
    let _ ← anyWord
    importAlias d
    return true
  if ← eat .assign then
    let _ ← d.fullExpression g
    expectEnd
    return true
  if ← eatWord "as" then
    expectWord "namespace"
    let _ ← identifier g
    expectEnd
    return true
  return false

/-- An item that starts with `export`. -/
def exportItem (d : Deep) (g : Setting) : Reader Unit := do
  expectWord "export"
  if ← atFinish then fail
  if g.typed then
    if ← typedExport? d g then return
  let mut typeOnly := false
  if g.typed then typeOnly ← eatWord "type"
  if !typeOnly && (← atWord "default") then
    skip
    exportDefault d g
  else exportDeclaration d g typeOnly

/-! ## §3. Items -/

/-- An item of a module: an import declaration gives its literal. -/
def moduleItem (d : Deep) (g : Setting) : Reader (Option ImportLiteral) := do
  d.decorators g
  if ← atWord "import" then importItem d g
  else if ← atWord "export" then
    exportItem d g
    return none
  else
    let _ ← d.read (.statement true) g
    return none

/-- The items of a namespace or ambient module, in braces.  The text may end
    among them. -/
def namespaceItems (d : Deep) (g : Setting) : Reader Unit := do
  expect .openBrace
  d.repeatUntil do
    if ← atFinish then return true
    if ← eat .closeBrace then return true
    let _ ← moduleItem d g
    return false

/-- The import literals of the items up to the end of the text. -/
def moduleItems (d : Deep) (g : Setting) : Nat → Reader (List ImportLiteral)
  | 0 => outOfDepth
  | n + 1 => do
    if ← atFinish then return []
    let found ← moduleItem d g
    let others ← moduleItems d g n
    return found.toList ++ others

/-! ## §4. The knot -/

/-- One level of the grammar, over the next one. -/
def step (d : Deep) (g : Setting) : Rule → Reader Form
  | .assignment => assignment d g
  | .unary => unary d g false
  | .binary mayArrow => binary d g mayArrow
  | .operators left above => operators d g left above
  | .member bare => memberExpression d g bare false
  | .leftHand => leftHand d g false
  | .subscripts of noCall noComputed => subscripts d g of noCall noComputed
  | .element => checked (elementRest d g)
  | .binding noLet => bindingTarget d g noLet
  | .decorators => checked (decoratorList d g)
  | .type => checked (conditionalType d g)
  | .plainType => checked (plainType d g)
  | .typeOperand => checked (typeOperand d g)
  | .statement declares => checked (statement d g declares)
  | .block => checked (blockStatement d g)
  | .items => checked (namespaceItems d g)
where
  /-- A construct that is only checked. -/
  checked (r : Reader Unit) : Reader Form := do
    r
    return .other

/-- The grammar, for nesting up to a depth. -/
def grammar : Nat → Rule → Setting → Reader Form
  | 0, _, _ => outOfDepth
  | n + 1, rule, g => step ⟨n + 1, grammar n⟩ g rule

/-- How deep the constructs of a text may nest: more than its characters allow. -/
def depthOf (cs : List Char) : Nat := 64 * (cs.length + 4)

/-- The text after a line `#!…` at its very start. -/
def dropInterpreterLine : List Char → List Char
  | '#' :: '!' :: cs => cs.dropWhile fun c => !isLineBreak c
  | cs => cs

/-- The import declarations of a module text, in order; none if the text is not
    a module. -/
def moduleImports? (g : Setting) (cs : List Char) : Option (List ImportLiteral) :=
  let depth := depthOf cs
  match (moduleItems ⟨depth, grammar depth⟩ g depth).run (.start (dropInterpreterLine cs)) with
  | .done found _ => some found
  | .stuck _ => none
  | .spent => none

end Relink.Source
