/-
  Relink.Source.Reader — reading tokens with one token of lookahead.

  A reader takes a cursor and either ends with a value and a later cursor, or
  is stuck at one.  A stuck reader keeps its cursor: some constructs recover
  from a failure inside them and go on where it happened.  Running out of depth
  is a third outcome of its own, so that it is never taken for an answer about
  the text.

  No reader goes back: what is left of the text after it is the end of what was
  left before it.  Every reader carries the proof of that, so it holds of the whole
  grammar as soon as it holds of the readers below.

  Main definitions:
    * `Cursor`, `Reply`, `Reader` — the state, the outcome, the monad
    * `attempt`, `lookAhead`, `recover` — the three ways past a failure
    * `scanNext`, `scanPast` — characters in place of tokens
    * `eat`, `expect`, `eatEnd`, `expectEnd` — single tokens and statement ends
-/

import Relink.Source.Token

namespace Relink.Source

/-! ## §1. Cursor, reply, reader -/

/-- A place between two tokens. -/
structure Cursor where
  /-- The token that comes next. -/
  next : Token
  /-- The text after the token taken last. -/
  past : List Char
  /-- The next token stands in that text. -/
  next_suffix : next.here <:+ past

namespace Cursor

/-- The cursor before the first token of a text. -/
def before (fresh : Bool) (cs : List Char) : Cursor :=
  ⟨Token.first fresh cs, cs, Token.first_suffix fresh cs⟩

/-- The cursor at the start of a text. -/
def start (cs : List Char) : Cursor := before true cs

/-- The cursor after the next token. -/
def skipped (c : Cursor) : Cursor := before false c.next.rest

@[simp] theorem past_before (fresh : Bool) (cs : List Char) : (before fresh cs).past = cs := rfl

@[simp] theorem past_skipped (c : Cursor) : c.skipped.past = c.next.rest := rfl

/-- What follows the next token is what is left of the text. -/
theorem rest_suffix (c : Cursor) : c.next.rest <:+ c.past :=
  c.next.rest_suffix.trans c.next_suffix

end Cursor

/-- The outcome of reading. -/
inductive Reply (α : Type) where
  /-- A value, and where reading ended. -/
  | done (value : α) (cursor : Cursor)
  /-- The text is not of the expected form here. -/
  | stuck (cursor : Cursor)
  /-- Nesting went deeper than the bound. -/
  | spent

/-- Where reading ended, it ended within a text. -/
def Reply.Within {α : Type} (cs : List Char) : Reply α → Prop
  | .done _ c => c.past <:+ cs
  | .stuck c => c.past <:+ cs
  | .spent => True

theorem Reply.Within.trans {α : Type} {reply : Reply α} {cs cs' : List Char}
    (h : reply.Within cs) (hcs : cs <:+ cs') : reply.Within cs' := by
  cases reply with
  | done a c => exact List.IsSuffix.trans h hcs
  | stuck c => exact List.IsSuffix.trans h hcs
  | spent => trivial

/-- A reader of `α`. -/
structure Reader (α : Type) where
  /-- What reading from a cursor gives. -/
  run : Cursor → Reply α
  /-- Reading never goes back. -/
  onward : ∀ c, (run c).Within c.past

namespace Reader

/-- Reads nothing: tells something about the cursor. -/
def look {α : Type} (f : Cursor → α) : Reader α where
  run c := .done (f c) c
  onward c := List.suffix_refl c.past

/-- Reads nothing. -/
protected def pure {α : Type} (a : α) : Reader α := look fun _ => a

/-- Reads with one reader, then with the next. -/
protected def bind {α β : Type} (r : Reader α) (f : α → Reader β) : Reader β where
  run c :=
    match r.run c with
    | .done a c' => (f a).run c'
    | .stuck c' => .stuck c'
    | .spent => .spent
  onward c := by
    have hr := r.onward c
    split
    next a c' heq =>
      rw [heq] at hr
      exact ((f a).onward c').trans hr
    next c' heq =>
      rw [heq] at hr
      exact hr
    next => trivial

instance : Monad Reader where
  pure := Reader.pure
  bind := Reader.bind

/-- Out of depth. -/
def outOfDepth {α : Type} : Reader α where
  run _ := .spent
  onward _ := trivial

/-- Not of the expected form, with nothing stepped over. -/
def stay {α : Type} : Reader α where
  run c := .stuck c
  onward c := List.suffix_refl c.past

/-- Not of the expected form.  Text that is no token is stepped over. -/
def fail {α : Type} : Reader α where
  run c :=
    match c.next.kind with
    | .bad => .stuck c.skipped
    | _ => .stuck c
  onward c := by
    split
    · exact c.rest_suffix
    · exact List.suffix_refl c.past

/-- The value of the reader, unless it is stuck or has none: then nothing is
    read. -/
def attempt {α : Type} (r : Reader (Option α)) : Reader (Option α) where
  run c :=
    match r.run c with
    | .done (some a) c' => .done (some a) c'
    | .done none _ => .done none c
    | .stuck _ => .done none c
    | .spent => .spent
  onward c := by
    have hr := r.onward c
    split
    next a c' heq =>
      rw [heq] at hr
      exact hr
    next => exact List.suffix_refl c.past
    next => exact List.suffix_refl c.past
    next => trivial

/-- Whether the reader would answer yes; nothing is read. -/
def lookAhead (r : Reader Bool) : Reader Bool where
  run c :=
    match r.run c with
    | .done b _ => .done b c
    | .stuck _ => .done false c
    | .spent => .spent
  onward c := by
    split
    · exact List.suffix_refl c.past
    · exact List.suffix_refl c.past
    · trivial

/-- Goes on where the reader got stuck, with `other`. -/
def recover {α : Type} (r : Reader α) (other : Reader α) : Reader α where
  run c :=
    match r.run c with
    | .stuck c' => other.run c'
    | reply => reply
  onward c := by
    have hr := r.onward c
    split
    next c' heq =>
      rw [heq] at hr
      exact (other.onward c').trans hr
    next => exact hr

/-! ## §2. Single tokens -/

/-- The token that comes next. -/
def token : Reader Token := look (·.next)

/-- The text after the token taken last. -/
def past : Reader (List Char) := look (·.past)

/-- The token after the next one. -/
def peek : Reader Token := look (·.skipped.next)

/-- Takes the next token. -/
def skip : Reader Unit where
  run c := .done () c.skipped
  onward c := c.rest_suffix

/-- Reads characters from the next token on, and goes on with tokens after
    them. -/
def scanNext {α : Type} (scan : List Char → α × List Char)
    (within : ∀ cs, (scan cs).2 <:+ cs) : Reader α where
  run c := .done (scan c.next.here).1 (.before false (scan c.next.here).2)
  onward c := (within c.next.here).trans c.next_suffix

/-- Reads characters from after the token taken last, if they are of the
    expected form, and goes on with tokens after them. -/
def scanPast {α : Type} (scan : List Char → Option (α × List Char))
    (within : ∀ cs a rest, scan cs = some (a, rest) → rest <:+ cs) : Reader α where
  run c :=
    match scan c.past with
    | some (a, rest) => .done a (.before false rest)
    | none => fail.run c
  onward c := by
    split
    next a rest heq => exact within c.past a rest heq
    next => exact fail.onward c

/-- Whether the text has ended. -/
def atFinish : Reader Bool := look fun c => c.next.kind = .finish

/-- Whether the next token is the mark. -/
def atMark (m : Mark) : Reader Bool := look fun c => c.next.kind = .mark m

/-- Whether the next token is one of the marks. -/
def atAny (ms : List Mark) : Reader Bool := look fun c =>
  match c.next.kind with
  | .mark m => ms.contains m
  | _ => false

/-- Whether the next token is the word. -/
def atWord (w : String) : Reader Bool := look fun c => c.next.kind = .word w

/-- The next token's text, if it is a word. -/
def word? : Reader (Option String) := look fun c =>
  match c.next.kind with
  | .word w => some w
  | _ => none

/-- Whether the next token starts a line. -/
def fresh : Reader Bool := look (·.next.fresh)

/-- Takes the mark if it comes next. -/
def eat (m : Mark) : Reader Bool := do
  if ← atMark m then
    skip
    return true
  return false

/-- Takes the word if it comes next. -/
def eatWord (w : String) : Reader Bool := do
  if ← atWord w then
    skip
    return true
  return false

/-- The mark must come next. -/
def expect (m : Mark) : Reader Unit := do
  unless ← eat m do fail

/-- The word must come next. -/
def expectWord (w : String) : Reader Unit := do
  unless ← eatWord w do fail

/-! ## §3. Ends of statements -/

/-- Whether a statement may end here: before a semicolon or a closing brace, at
    the end of the text, or where a line ended. -/
def atEnd : Reader Bool := look fun c =>
  c.next.fresh || c.next.kind = .finish || c.next.kind = .mark .semicolon
    || c.next.kind = .mark .closeBrace

/-- Ends a statement, if it may end here. -/
def eatEnd : Reader Bool := do
  if ← eat .semicolon then return true
  atEnd

/-- A statement must end here. -/
def expectEnd : Reader Unit := do
  unless ← eatEnd do fail

/-! ## §4. Words by role -/

/-- Whether a word may name a variable in a module. -/
def isVariableName (w : String) : Bool := !keywords.contains w

/-- Whether a token is any word. -/
def isWord (t : Token) : Bool :=
  match t.kind with
  | .word _ => true
  | _ => false

/-- Whether a token is a word that may name a variable. -/
def isName (t : Token) : Bool :=
  match t.kind with
  | .word w => isVariableName w
  | _ => false

/-- Whether the next token is a word that may name a variable. -/
def atName : Reader Bool := look fun c => isName c.next

/-- Whether the next token is any word. -/
def atAnyWord : Reader Bool := look fun c => isWord c.next

/-- Any word. -/
def anyWord : Reader String := do
  match ← word? with
  | some w =>
    skip
    return w
  | none => fail

/-! ## §5. Repetition -/

/-- Runs the step until it says to stop, at most `bound` times. -/
def repeatUntil (bound : Nat) (step : Reader Bool) : Reader Unit :=
  match bound with
  | 0 => outOfDepth
  | n + 1 => do
    if ← step then return ()
    repeatUntil n step

end Reader

end Relink.Source
