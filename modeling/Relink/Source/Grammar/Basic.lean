/-
  Relink.Source.Grammar.Basic — the rules that call one another, and what
  reading a construct tells.

  The grammar is a knot: expressions hold functions, functions hold
  statements, statements hold expressions.  Every rule is defined on its own,
  over a `Deep` that stands for the whole grammar one level further down, and
  the knot is tied once, by recursion on the depth.

  Main definitions:
    * `Setting`  — what the surroundings allow
    * `Form`     — what an expression looks like from outside
    * `Rule`     — the entry points of the knot
    * `Deep`     — the grammar one level down
-/

import Relink.Source.Reader

namespace Relink.Source

/-! ## §1. Settings -/

/-- What the surroundings of a construct allow. -/
structure Setting where
  /-- Types and decorators are part of the language. -/
  typed : Bool
  /-- An angle bracket may open an element. -/
  markup : Bool
  /-- `yield` is an operator. -/
  generator : Bool := false
  /-- The word `in` is an operator. -/
  allowIn : Bool := true
  /-- Inside a declaration without code. -/
  ambient : Bool := false
  /-- Inside a branch of a conditional expression. -/
  ternary : Bool := false
  /-- The colon of a conditional expression is still to come. -/
  colonFollows : Bool := false
  /-- A conditional type may stand here. -/
  conditionalType : Bool := true
  /-- At the head of a `for`. -/
  forHead : Bool := false
deriving DecidableEq, Repr, Inhabited

/-! ## §2. Forms -/

/-- What an expression looks like from outside: enough to tell whether it may
    be assigned to, and what may follow it. -/
inductive Form where
  /-- An identifier. -/
  | name (text : String)
  /-- Another expression that may stand left of an assignment. -/
  | place
  /-- An optional chain. -/
  | chain
  /-- An array or object; `pattern` tells whether it reads as a pattern. -/
  | group (pattern : Bool)
  /-- An arrow function, which nothing may follow. -/
  | arrow
  /-- `new` without arguments. -/
  | bareNew
  /-- An operation between operands, or one that counts up or down. -/
  | operation
  /-- An operator before its operand. -/
  | signed
  /-- An awaited operand. -/
  | awaited
  /-- The word `super`, still without a member or call. -/
  | superWord
  /-- The word `import`, still without a call. -/
  | importWord
  /-- Any other expression. -/
  | other
deriving DecidableEq, Repr, Inhabited

namespace Form

/-- Whether the form may stand left of an assignment with an operator. -/
def isPlace : Form → Bool
  | .name _ => true
  | .place => true
  | .chain => true
  | _ => false

/-- Whether the form may be the target of a plain assignment. -/
def isTarget : Form → Bool
  | .group pattern => pattern
  | f => f.isPlace

/-- Whether the form may be an element of a pattern; an unfit one is let pass
    unless it holds a method. -/
def isElement : Form → Bool
  | .group pattern => pattern
  | _ => true

/-- Whether the form is a whole expression. -/
def isExpression : Form → Bool
  | .superWord => false
  | .importWord => false
  | _ => true

end Form

/-- The key of a property or member. -/
inductive Key where
  /-- A plain word. -/
  | word (text : String)
  /-- A string. -/
  | quoted (text : String)
  /-- A private name. -/
  | hidden
  /-- A number or a computed key. -/
  | other
deriving DecidableEq, Repr, Inhabited

/-! ## §3. Rules -/

/-- The entry points of the knot. -/
inductive Rule where
  /-- An assignment expression. -/
  | assignment
  /-- An operand with the operators before and after it. -/
  | unary
  /-- Operands with operators between them; `mayArrow` lets the first be an
      arrow function. -/
  | binary (mayArrow : Bool)
  /-- The operators after an operand that bind tighter than `above`. -/
  | operators (left : Form) (above : Nat)
  /-- A member expression; `bare` lets a `new` go without arguments. -/
  | member (bare : Bool)
  /-- An expression that may be called or be a class's parent. -/
  | leftHand
  /-- Members, calls and templates after an expression. -/
  | subscripts (of : Form) (noCall noComputed : Bool)
  /-- An element after its opening angle bracket. -/
  | element
  /-- A name, an array pattern or an object pattern. -/
  | binding (noLet : Bool)
  /-- Decorators. -/
  | decorators
  /-- A type. -/
  | type
  /-- A type other than a conditional one. -/
  | plainType
  /-- An operand of `&`, with the operators before it. -/
  | typeOperand
  /-- A statement; `declares` lets it be a declaration. -/
  | statement (declares : Bool)
  /-- A block of statements. -/
  | block
  /-- The items of a namespace or ambient module, in braces. -/
  | items
deriving Repr, Inhabited

/-- The grammar one level down. -/
structure Deep where
  /-- How many times a construct may repeat. -/
  bound : Nat
  /-- Reads by a rule. -/
  read : Rule → Setting → Reader Form

namespace Deep

open Reader

/-- An assignment expression. -/
def assignment (d : Deep) (g : Setting) : Reader Form := d.read .assignment g

/-- An assignment expression where `in` is an operator. -/
def value (d : Deep) (g : Setting) : Reader Form :=
  d.read .assignment { g with allowIn := true }

/-- A type; inside brackets a conditional type is always allowed. -/
def type (d : Deep) (g : Setting) : Reader Unit := do
  let _ ← d.read .type g

/-- A type inside brackets. -/
def innerType (d : Deep) (g : Setting) : Reader Unit :=
  d.type { g with conditionalType := true }

/-- A name or pattern. -/
def binding (d : Deep) (g : Setting) (noLet : Bool) : Reader Form :=
  d.read (.binding noLet) g

/-- A block. -/
def block (d : Deep) (g : Setting) : Reader Unit := do
  let _ ← d.read .block g

/-- Decorators, if any. -/
def decorators (d : Deep) (g : Setting) : Reader Unit := do
  let _ ← d.read .decorators g

/-- Reads steps until one says to stop. -/
def repeatUntil (d : Deep) (step : Reader Bool) : Reader Unit :=
  Reader.repeatUntil d.bound step

/-- One or more expressions with commas between them. -/
def expression (d : Deep) (g : Setting) : Reader Form := do
  let first ← d.assignment g
  if ← atMark .comma then
    d.repeatUntil do
      if ← eat .comma then
        let _ ← d.assignment g
        return false
      return true
    return .other
  return first

/-- An expression where `in` is an operator. -/
def fullExpression (d : Deep) (g : Setting) : Reader Form :=
  d.expression { g with allowIn := true }

end Deep

/-! ## §4. Templates -/

/-- How a part of a template ends. -/
inductive ChunkEnd where
  /-- At a substitution; the text after its opening. -/
  | substitution (rest : List Char)
  /-- At the closing backquote; the text after it. -/
  | closed (rest : List Char)

namespace ChunkEnd

/-- The text after the end. -/
def rest : ChunkEnd → List Char
  | .substitution rest => rest
  | .closed rest => rest

/-- Whether the template ends with the part. -/
def closes : ChunkEnd → Bool
  | .substitution _ => false
  | .closed _ => true

end ChunkEnd

/-- A part of a template: whether all its escapes are well formed, and how it
    ends.  The first argument counts characters still to skip; none means that
    the text ended. -/
def templateChunk : Nat → Bool → List Char → Option (Bool × ChunkEnd)
  | _, _, [] => none
  | skip + 1, sound, _ :: cs => templateChunk skip sound cs
  | 0, sound, '$' :: '{' :: cs => some (sound, .substitution cs)
  | 0, sound, c :: cs =>
    if c = '\x60' then some (sound, .closed cs)
    else if c = '\\' then
      match escape? true cs with
      | some e => templateChunk e.used sound cs
      | none => templateChunk 1 false cs
    else templateChunk 0 sound cs

theorem templateChunk_suffix {skip : Nat} {sound sound' : Bool} {cs : List Char} {stop : ChunkEnd}
    (h : templateChunk skip sound cs = some (sound', stop)) : stop.rest <:+ cs := by
  fun_induction templateChunk skip sound cs with
  | case1 => cases h
  | case2 sound c _ cs ih => exact (ih h).trans (List.suffix_cons _ cs)
  | case3 sound cs =>
      cases h
      exact (List.suffix_cons _ cs).trans (List.suffix_cons _ _)
  | case4 sound cs =>
      cases h
      exact List.suffix_cons _ cs
  | case5 sound cs _ _ _ _ ih => exact (ih h).trans (List.suffix_cons _ cs)
  | case6 sound cs _ _ _ ih => exact (ih h).trans (List.suffix_cons _ cs)
  | case7 sound c cs _ _ _ ih => exact (ih h).trans (List.suffix_cons _ cs)

/-- A part of a template, whether the template ends with it, and the text after
    it.  Only after a tag may it hold malformed escapes. -/
def chunk? (tagged : Bool) (cs : List Char) : Option (Bool × List Char) :=
  match templateChunk 0 true cs with
  | none => none
  | some (sound, stop) => if sound || tagged then some (stop.closes, stop.rest) else none

theorem chunk?_suffix (tagged : Bool) (cs : List Char) (closes : Bool) (rest : List Char)
    (h : chunk? tagged cs = some (closes, rest)) : rest <:+ cs := by
  unfold chunk? at h
  split at h
  next => cases h
  next sound stop heq =>
    split at h
    · cases h
      exact templateChunk_suffix heq
    · cases h

/-- A template from its opening backquote, with `inside` in its substitutions. -/
def template (d : Deep) (tagged : Bool) (inside : Reader Unit) : Reader Unit := do
  Reader.skip
  d.repeatUntil do
    if ← Reader.scanPast (chunk? tagged) (chunk?_suffix tagged) then return true
    inside
    Reader.expect .closeBrace
    return false

end Relink.Source
