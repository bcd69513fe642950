/-
  Relink.Source.Grammar.Expressions — expressions.

  From the operand outwards: primary expressions, members and calls, operators
  before and between operands, conditional expressions, assignments.  Whether a
  parenthesis opens the parameters of an arrow function shows only after it
  closes, so its items are read as expressions that may be taken as parameters.

  Main definitions:
    * `primary`, `parenthesised`, `arrayLiteral`
    * `subscripts`, `memberExpression`, `leftHand`
    * `unary`, `operators`, `conditional`, `assignment`
-/

import Relink.Source.Grammar.Functions

namespace Relink.Source

open Reader

/-! ## §1. Operators -/

/-- How tightly a mark binds as an operator between two operands. -/
def Mark.binding? : Mark → Option Nat
  | .coalesce => some 1
  | .either => some 1
  | .both => some 2
  | .bitOr => some 3
  | .bitXor => some 4
  | .bitAnd => some 5
  | .eqEq => some 6
  | .notEq => some 6
  | .eqEqEq => some 6
  | .notEqEq => some 6
  | .less => some 7
  | .more => some 7
  | .lessEq => some 7
  | .moreEq => some 7
  | .shiftLeft => some 8
  | .shiftRight => some 8
  | .shiftRightZero => some 8
  | .plus => some 9
  | .minus => some 9
  | .star => some 10
  | .slash => some 10
  | .percent => some 10
  | .power => some 11
  | _ => none

/-- How tightly `in` and `instanceof` bind. -/
def wordBinding : Nat := 7

/-- How tightly a token binds as an operator between two operands. -/
def operatorBinding? (g : Setting) (t : Token) : Option Nat :=
  match t.kind with
  | .mark m => m.binding?
  | .word "instanceof" => some wordBinding
  | .word "in" => if g.allowIn then some wordBinding else none
  | _ => none

/-- Whether a token is an operator mark between two operands. -/
def isOperatorMark (t : Token) : Bool :=
  match t.kind with
  | .mark m => m.binding?.isSome
  | _ => false

/-- Whether an expression may start with a token. -/
def startsExpression (t : Token) : Bool :=
  match t.kind with
  | .word w =>
    isVariableName w || ["await", "class", "delete", "false", "function", "import", "let", "new",
      "null", "super", "this", "true", "typeof", "void", "yield"].contains w
  | .number => true
  | .string _ => true
  | .mark m =>
    [Mark.openParen, .openBracket, .openBrace, .backquote, .slash, .slashAssign, .plus, .minus,
      .tilde, .bang, .plusPlus, .minusMinus, .less, .hash, .atSign].contains m
  | _ => false

/-! ## §2. Regular expressions -/

/-- The text after a regular expression, from after its opening slash, and
    whether it was closed: the line or the text may end first.  `inClass` holds
    between brackets. -/
def regexEnd : Bool → List Char → Bool × List Char
  | _, [] => (false, [])
  | inClass, '\\' :: c :: cs =>
    -- a backslash hides the slash or bracket after it, but never a line break
    if isLineBreak c then (false, c :: cs) else regexEnd inClass cs
  | inClass, c :: cs =>
    if isLineBreak c then (false, c :: cs)
    else if c = '[' then regexEnd true cs
    else if c = ']' then regexEnd false cs
    else if c = '/' && !inClass then (true, cs)
    else regexEnd inClass cs

theorem regexEnd_suffix (inClass : Bool) (cs : List Char) : (regexEnd inClass cs).2 <:+ cs := by
  fun_induction regexEnd inClass cs with
  | case1 => exact List.suffix_refl []
  | case2 _ c cs => exact List.suffix_cons _ (c :: cs)
  | case3 _ c cs _ ih => exact ih.trans ((List.suffix_cons c cs).trans (List.suffix_cons _ _))
  | case4 _ c cs => exact List.suffix_refl (c :: cs)
  | case5 _ cs _ _ ih => exact ih.trans (List.suffix_cons _ cs)
  | case6 _ cs _ _ _ ih => exact ih.trans (List.suffix_cons _ cs)
  | case7 _ c cs => exact List.suffix_cons c cs
  | case8 _ c cs _ _ _ _ _ ih => exact ih.trans (List.suffix_cons c cs)

/-- A regular expression from its opening slash, whether it was closed, and the
    text after it and its flags. -/
def regexChars (cs : List Char) : Bool × List Char :=
  match regexEnd false cs.tail with
  | (true, rest) => (true, rest.dropWhile Text.isIdentifierPart)
  | (false, rest) => (false, rest)

theorem regexChars_suffix (cs : List Char) : (regexChars cs).2 <:+ cs := by
  have hend := (regexEnd_suffix false cs.tail).trans (List.tail_suffix cs)
  unfold regexChars
  split
  next rest heq =>
    rw [heq] at hend
    exact (List.dropWhile_suffix _).trans hend
  next rest heq =>
    rw [heq] at hend
    exact hend

/-- A regular expression with its flags. -/
def regex : Reader Unit := do
  unless ← scanNext regexChars regexChars_suffix do stay

/-! ## §3. Arguments and arrays -/

/-- Arguments in parentheses. -/
def arguments (d : Deep) (g : Setting) : Reader Unit := do
  let g := { g with colonFollows := false }
  expect .openParen
  d.repeatUntil do
    if (← atFinish) || (← atMark .closeParen) then return true
    let _ ← eat .ellipsis
    let _ ← d.value g
    unless ← atMark .closeParen do expect .comma
    return false
  expect .closeParen

/-- An array literal; tells whether it reads as a pattern. -/
def arrayLiteral (d : Deep) (g : Setting) : Reader Bool := do
  expect .openBracket
  go d.bound { g with colonFollows := false } true
where
  /-- The elements that are left; `sound` holds if all so far fit a pattern. -/
  go (bound : Nat) (g : Setting) (sound : Bool) : Reader Bool :=
    match bound with
    | 0 => outOfDepth
    | n + 1 => do
      if ← eat .closeBracket then return sound
      if ← eat .comma then go n g sound
      else
        let _ ← eat .ellipsis
        let form ← d.value g
        unless ← atMark .closeBracket do expect .comma
        go n g (sound && form.isElement)

/-! ## §4. Arrow functions with type parameters -/

/-- The rest of `async <T>(x) => …`, from its type parameters on. -/
def genericAsyncArrow (d : Deep) (g : Setting) : Reader (Option Form) := do
  let head ← attempt do
    typeParameters d g
    expect .openParen
    parameters d g
    expect .closeParen
    if ← atMark .colon then returnType d g .colon
    expect .arrow
    return some ()
  if head.isSome then
    arrowBody d g
    return some .arrow
  return none

/-! ## §5. Parentheses -/

/-- The assignment an expression may start. -/
def finishAssignment (d : Deep) (g : Setting) (left : Form) : Reader Form := do
  match (← token).kind with
  | .mark .assign =>
    unless left.isTarget do fail
    skip
    let _ ← d.assignment g
    return .other
  | .mark m =>
    if m = .assignWith || m = .slashAssign then
      unless left.isPlace do fail
      skip
      let _ ← d.assignment g
      return .other
    return left
  | _ => return left

/-- An item between parentheses. -/
inductive Item where
  /-- An expression, perhaps after dots. -/
  | value (spread : Bool) (form : Form)
  /-- A parameter: only an arrow function may hold it. -/
  | parameter
deriving DecidableEq, Repr

/-- Whether items may be the parameters of an arrow function. -/
def areParameters : List Item → Bool
  | [] => true
  | [.value _ form] => form.isElement
  | .value spread form :: rest => (spread || form.isElement) && areParameters rest
  | .parameter :: rest => areParameters rest

/-- The operand an item starts with, and whether dots stand before it.  Typed
    code reads no conditional expression here, because a question mark may
    belong to a parameter. -/
def itemOperand (d : Deep) (g : Setting) : Reader (Bool × Form) := do
  let following ← peek
  if g.typed && ((← atName) || ((← atMark .ellipsis) && isName following)) then
    -- after dots the name is a rest parameter or a spread value: no arrow function starts here
    if ← eat .ellipsis then return (true, ← d.read (.binary false) g)
    return (false, ← finishAssignment d g (← d.read (.binary true) g))
  let spread ← eat .ellipsis
  return (spread, ← d.value g)

/-- One item between parentheses. -/
def item (d : Deep) (g : Setting) : Reader Item := do
  eatAnyModifier g
  let (spread, operand) ← itemOperand d g
  let mut form := operand
  let mut optional := false
  if g.typed && (← atMark .question) then
    let following ← peek
    -- no expression starts with these, so the question mark makes a parameter optional
    if [Kind.mark .comma, .mark .colon, .mark .closeParen, .mark .assign].contains
        following.kind then
      skip
      match form with
      | .name _ => optional := true
      | _ => fail
    else if !spread then
      skip
      let _ ← d.value { g with ternary := true, colonFollows := true }
      expect .colon
      let _ ← d.value { g with ternary := true, colonFollows := false }
      form := .operation
  if optional || (g.typed && (← atMark .colon)) then
    unless form.isElement do fail
    annotation d g
    if ← eat .assign then
      let _ ← d.value g
    return .parameter
  return .value spread form

/-- The items of a parenthesis, with the parentheses. -/
def items (d : Deep) (g : Setting) : Reader (List Item) := do
  expect .openParen
  go d.bound []
where
  /-- The items that are left, after those in `found`, last first. -/
  go (bound : Nat) (found : List Item) : Reader (List Item) :=
    match bound with
    | 0 => outOfDepth
    | n + 1 => do
      if ← eat .closeParen then return found.reverse
      let i ← item d g
      unless ← atMark .closeParen do expect .comma
      go n (i :: found)

/-- A parenthesised expression, an arrow function, or a call of `async`. -/
def parenthesised (d : Deep) (g : Setting) (mayArrow isAsync : Bool) : Reader Form := do
  let found ← items d { g with colonFollows := false, allowIn := true }
  if g.typed && g.ternary && (← atMark .colon) then
    -- the colon may end the branch or start a result type; an arrow function is tried first,
    -- and given up if it would leave the conditional expression without its colon
    let arrow ← attempt do
      returnType d g .colon
      expect .arrow
      unless areParameters found do fail
      arrowBody d g
      if g.colonFollows && !(← atMark .colon) then return none
      return some Form.arrow
    if let some form := arrow then return form
  let mut typed := false
  if !g.colonFollows && g.typed && (← atMark .colon) then
    let result ← attempt do
      returnType d g .colon
      if ← atMark .arrow then return some ()
      return none
    typed := result.isSome
  if typed || found.contains .parameter || (← atMark .arrow) then
    -- from here on only an arrow function fits, and its arrow may not start a line
    if (← fresh) || !mayArrow then fail
    expect .arrow
    unless areParameters found do fail
    arrowBody d g
    return .arrow
  if isAsync then return .other
  if found.isEmpty || found.any fun | .value spread _ => spread | .parameter => true then fail
  return .place

/-! ## §6. Primary expressions -/

/-- An identifier, or an arrow function whose parameter it is. -/
def nameOrArrow (d : Deep) (g : Setting) (mayArrow : Bool) : Reader Form := do
  let w ← identifier g
  if mayArrow && !(← fresh) then
    if w = "async" && (← atName) then
      -- `for (async of …)` runs over elements, `for (async of => …)` holds a function
      if g.forHead && (← atWord "of") && (← peek).kind ≠ .mark .arrow then return .name w
      let parameter ← bindingName g false
      -- `async as T` is a cast of the variable `async`
      if g.typed && parameter = "as" && !(← atMark .arrow) then
        d.type g
        return .place
      expect .arrow
      arrowBody d g
      return .arrow
    if ← eat .arrow then
      arrowBody d g
      return .arrow
  return .name w

/-- An expression that starts with `async`. -/
def asyncExpression (d : Deep) (g : Setting) (mayArrow : Bool) : Reader Form := do
  let following ← peek
  if following.kind = .word "function" && !following.fresh then
    skip
    let _ ← functionFromWord d g false
    return .other
  if mayArrow && g.typed && following.kind = .mark .less then
    let arrow ← attempt do
      skip
      genericAsyncArrow d g
    if let some form := arrow then return form
  if mayArrow && following.kind = .mark .openParen && !following.fresh then
    skip
    parenthesised d g mayArrow true
  else nameOrArrow d g mayArrow

/-- An operand without members or calls. -/
def primary (d : Deep) (g : Setting) (mayArrow : Bool) : Reader Form := do
  match (← token).kind with
  | .number =>
    skip
    return .other
  | .string _ =>
    skip
    return .other
  | .word w =>
    if w = "async" then asyncExpression d g mayArrow
    else if ["this", "null", "true", "false"].contains w then
      skip
      return .other
    else if w = "function" then
      let _ ← functionFromWord d g false
      return .other
    else if w = "class" then
      classFromWord d g false
      return .other
    else if w = "let" || isVariableName w then nameOrArrow d g mayArrow
    else fail
  | .mark .openBracket => return .group (← arrayLiteral d g)
  | .mark .openBrace => return .group (← objectLiteral d g)
  | .mark .openParen => parenthesised d g mayArrow false
  | .mark .slash =>
    regex
    return .other
  | .mark .slashAssign =>
    regex
    return .other
  | .mark .backquote =>
    template d false do
      let _ ← d.fullExpression { g with colonFollows := false }
    return .other
  | .mark .atSign =>
    if g.typed then
      d.decorators g
      classFromWord d g false
      return .other
    fail
  | .mark .hash =>
    privateName
    return .other
  | _ => fail

/-! ## §7. Members and calls -/

/-- Type arguments after an expression, if they stand alone there: not before a
    call or template, nor where they would be comparisons. -/
def loneTypeArguments (d : Deep) (g : Setting) : Reader Bool := do
  let found ← attempt do
    typeArguments d g
    let t ← token
    if [Kind.mark .less, .mark .more, .mark .plus, .mark .minus, .mark .openParen,
        .mark .backquote].contains t.kind then return none
    if t.fresh || isOperatorMark t || !startsExpression t then return some ()
    return none
  return found.isSome

/-- A template after a tag. -/
def taggedTemplate (d : Deep) (g : Setting) : Reader Unit :=
  template d true do
    let _ ← d.fullExpression { g with colonFollows := false }

/-- A call, template or arrow function that starts with type arguments. -/
def typedCall (d : Deep) (g : Setting) (of : Form) (noCall : Bool) : Reader (Option Form) :=
  attempt do
    if !noCall && of = .name "async" && !(← fresh) then
      if let some form ← genericAsyncArrow d g then return some form
    typeArguments d g
    if !noCall && (← atMark .openParen) then
      arguments d g
      return some .other
    if ← atMark .backquote then
      taggedTemplate d g
      return some .other
    if (← atMark .assign) || (← atWord "as") || (← atWord "satisfies") then
      return some .place
    return none

/-- The name after a dot. -/
def memberName : Reader Unit := do
  if ← atMark .hash then privateName
  else
    let _ ← anyWord

/-- One step from an expression to a member, call or template of it; none if
    the expression ends here. -/
def subscript (d : Deep) (g : Setting) (of : Form) (noCall noComputed : Bool) :
    Reader (Option Form) := do
  let whole := of.isExpression
  let mut of := of
  let mut typedArguments := false
  if g.typed then
    if !(← fresh) && (← atMark .bang) then
      unless whole do fail
      skip
      return some .place
    if whole && (← atOpenAngle) then
      if let some form ← typedCall d g of noCall then return some form
      if ← loneTypeArguments d g then
        typedArguments := true
        of := .place
  -- the word `import` is no value: nothing but a call makes an expression of it
  if of = .importWord && (noCall || !(← atMark .openParen)) then fail
  let optional ← eat .optionalDot
  let member : Form := if optional || of = .chain then .chain else .place
  if (optional || !noComputed) && (← atMark .openBracket) then
    skip
    let _ ← d.fullExpression { g with colonFollows := false }
    expect .closeBracket
    return some member
  if optional && g.typed && (← atOpenAngle) then typeArguments d g
  if (optional || !noCall) && (← atMark .openParen) then
    arguments d g
    return some (if member = .chain then .chain else .other)
  if optional then
    memberName
    return some member
  if ← eat .dot then
    memberName
    return some member
  unless whole do fail
  if ← atMark .backquote then
    taggedTemplate d g
    return some .other
  return if typedArguments then some of else none

/-- Members, calls and templates after an expression. -/
def subscripts (d : Deep) (g : Setting) (of : Form) (noCall noComputed : Bool) : Reader Form := do
  match ← subscript d g of noCall noComputed with
  | some .arrow => return .arrow
  | some form => d.read (.subscripts form noCall noComputed) g
  | none => return of

/-- The rest of an expression that starts with `import`. -/
def importExpression (d : Deep) (g : Setting) (noCall : Bool) : Reader Form := do
  if ← eat .dot then
    let w ← anyWord
    if w = "meta" then subscripts d g .other noCall false
    else if w = "defer" || w = "source" then subscripts d g .importWord noCall false
    else fail
  else subscripts d g .importWord noCall false

/-- The rest of an expression that starts with `new`. -/
def newExpression (d : Deep) (g : Setting) (bare : Bool) : Reader Form := do
  if ← eat .dot then
    expectWord "target"
    subscripts d g .other true false
  else
    let callee ← d.read (.member bare) g
    if callee = .arrow then return .arrow
    if bare && callee = .chain then fail
    if g.typed && (← atOpenAngle) then
      let _ ← attempt do
        typeArguments d g
        if ← atMark .openParen then return some ()
        return none
    if !bare || (← atMark .openParen) then
      arguments d g
      subscripts d g .other true false
    else return .bareNew

/-- A member expression; `bare` lets a `new` go without arguments. -/
def memberExpression (d : Deep) (g : Setting) (bare mayArrow : Bool) : Reader Form := do
  if ← eatWord "new" then newExpression d g bare
  else if ← eatWord "super" then subscripts d g .superWord true false
  else if ← eatWord "import" then importExpression d g true
  else
    let operand ← primary d g mayArrow
    if operand = .arrow then return .arrow
    let mut of := operand
    if g.typed && (← atMark .less) then
      if ← loneTypeArguments d g then of := .place
    subscripts d g of true false

/-- An expression that may be called or assigned to. -/
def leftHand (d : Deep) (g : Setting) (mayArrow : Bool) : Reader Form := do
  if g.markup && (← atMark .less) then
    skip
    d.read .element g
  else if ← eatWord "super" then subscripts d g .superWord false false
  else if ← eatWord "import" then importExpression d g false
  else
    let callee ← memberExpression d g true mayArrow
    if callee = .arrow then return .arrow
    let mut typed := false
    if g.typed && (← atOpenAngle) then
      let found ← attempt do
        typeArguments d g
        if ← atMark .openParen then return some ()
        return none
      typed := found.isSome
    if callee = .bareNew then return callee
    if ← atMark .openParen then
      arguments d g
      subscripts d g (if callee = .chain then .chain else .other) false false
    else if typed then fail
    else return callee

/-! ## §8. Operators around operands -/

/-- An awaited operand; the word alone is let pass as a name. -/
def awaitExpression (d : Deep) (g : Setting) : Reader Form := do
  expectWord "await"
  if ← atMark .star then fail
  if (← atAny [.closeParen, .closeBracket, .comma]) || (← atEnd) then return .name "await"
  let _ ← d.read .unary g
  return .awaited

/-- The words and marks that stand before an operand. -/
def isSign (t : Token) : Bool :=
  match t.kind with
  | .word w => ["delete", "void", "typeof"].contains w
  | .mark m => [Mark.plus, .minus, .tilde, .bang].contains m
  | _ => false

/-- An operand with the operators before and after it.  What follows a sign may
    fail: the sign then stands alone. -/
def unary (d : Deep) (g : Setting) (mayArrow : Bool) : Reader Form := do
  if !g.markup && g.typed && (← atMark .less) then
    skip
    if ← eatWord "const" then
      closeAngle
      let _ ← d.read .unary g
      return .other
    d.innerType g
    closeAngle
    let _ ← d.read .unary g
    return .place
  if ← atAny [.plusPlus, .minusMinus] then
    skip
    let _ ← d.read .unary g
    return .operation
  if isSign (← token) then
    skip
    let _ ← recover (d.read .unary g) (pure .other)
    return .signed
  if ← atWord "await" then awaitExpression d g
  else
    let form ← leftHand d g mayArrow
    if form = .arrow then return .arrow
    if !(← fresh) && (← atAny [.plusPlus, .minusMinus]) then
      skip
      return .operation
    return form

/-- The operators after an operand that bind tighter than `above`. -/
def operators (d : Deep) (g : Setting) (left : Form) (above : Nat) : Reader Form := do
  let t ← token
  if g.typed && !t.fresh && ((t.kind = .word "as" && above < wordBinding)
      || t.kind = .word "satisfies") then
    skip
    if t.kind = .word "as" && (← atWord "const") then skip
    else d.innerType g
    d.read (.operators .place above) g
  else
    match operatorBinding? g t with
    | none => return left
    | some tight =>
      if tight ≤ above then return left
      skip
      -- `-x ** y` has two readings and is refused; `x ** y ** z` groups to the right, so the
      -- right operand may take further powers
      let power := t.kind = .mark .power
      if power && (left = .signed || left = .awaited) then fail
      let right ← d.read .unary g
      let _ ← d.read (.operators right (if power then tight - 1 else tight)) g
      d.read (.operators .operation above) g

/-- Operands with operators between them.  An operator that lacks its left
    operand is let pass. -/
def binary (d : Deep) (g : Setting) (mayArrow : Bool) : Reader Form := do
  let left ← recover (unary d g mayArrow) do
    if (operatorBinding? { g with allowIn := true } (← token)).isSome then return .other
    stay
  if left = .arrow then return .arrow
  operators d g left 0

/-! ## §9. Conditions and assignments -/

/-- An expression with an optional condition around it. -/
def conditional (d : Deep) (g : Setting) (mayArrow : Bool) : Reader Form := do
  let test ← binary d g mayArrow
  if test = .arrow then return .arrow
  if ← eat .question then
    let _ ← d.value { g with ternary := true, colonFollows := true }
    expect .colon
    let _ ← d.assignment { g with ternary := true }
    return .operation
  return test

/-- The operand of `yield`, which may be missing. -/
def yieldExpression (d : Deep) (g : Setting) : Reader Form := do
  expectWord "yield"
  let t ← token
  if (← atEnd) || !(t.kind = .mark .star || startsExpression t) then return .other
  let _ ← eat .star
  let _ ← d.assignment g
  return .other

/-- An assignment expression without type parameters before it. -/
def untypedAssignment (d : Deep) (g : Setting) : Reader Form := do
  if g.generator && (← atWord "yield") then yieldExpression d g
  else
    let mayArrow := (← atName) || (← atMark .openParen)
    let form ← conditional d g mayArrow
    if [Form.arrow, .operation, .signed].contains form then return form
    finishAssignment d g form

/-- An assignment expression.  Where elements and typed arrow functions both
    start with an angle bracket, the element is tried first. -/
def assignment (d : Deep) (g : Setting) : Reader Form := do
  if g.typed && (← atMark .less) then
    if g.markup then
      let found ← attempt do return some (← untypedAssignment d g)
      if let some form := found then return form
    if isWord (← peek) then
      let g := { g with colonFollows := false }
      let found ← attempt do
        typeParameters d g
        match ← untypedAssignment d g with
        | .arrow => return some Form.arrow
        | _ => return none
      if let some form := found then return form
  untypedAssignment d g

end Relink.Source
