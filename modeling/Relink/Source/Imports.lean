/-
  Relink.Source.Imports — the imports of a source file, with their places.

  A file's imports are found in its text without a leading byte order mark;
  offsets count from the start of the file all the same.  A second mark is
  stepped over by the grammar and not counted, so that an offset then falls
  short; a token whose place does not show a quote is dropped.

  Main definitions:
    * `Dialect.ofPath` — which language an extension stands for
    * `ImportToken`    — a specifier literal and where it stands
    * `imports?`       — the import tokens of a file
-/

import Relink.Path
import Relink.Text.Offset
import Relink.Source.Grammar.Modules

namespace Relink.Source

/-! ## §1. Dialects -/

/-- The languages a source file may be in. -/
inductive Dialect where
  /-- Without types, decorators and elements. -/
  | plain
  /-- With types and decorators. -/
  | typed
  /-- With types, decorators and elements. -/
  | typedMarkup
deriving DecidableEq, Repr, Inhabited

namespace Dialect

/-- The dialect of a file, by its extension. -/
def ofPath (p : Path) : Dialect :=
  match p.extension? with
  | some "js" => .plain
  | some "mjs" => .plain
  | some "cjs" => .plain
  | some "jsx" => .plain
  | some "tsx" => .typedMarkup
  | _ => .typed

/-- What a dialect allows at the top of a file. -/
def setting : Dialect → Setting
  | .plain => { typed := false, markup := false }
  | .typed => { typed := true, markup := false }
  | .typedMarkup => { typed := true, markup := true }

end Dialect

/-! ## §2. Tokens -/

/-- The specifier literal of an import declaration and its place in the file. -/
structure ImportToken where
  /-- The module it names, escapes resolved. -/
  specifier : String
  /-- The quote it is written with. -/
  quote : Char
  /-- The byte offset of its opening quote. -/
  start : Nat
  /-- The byte offset after its closing quote. -/
  stop : Nat
  /-- The byte offset after the declaration. -/
  statementEnd : Nat
deriving DecidableEq, Repr, Inhabited

/-- Whether a specifier names a file by its place and not a package. -/
def isRelative (specifier : String) : Bool :=
  specifier.toList.head? = some '.'

/-- Whether the token's specifier names a file by its place. -/
def ImportToken.isRelative (t : ImportToken) : Bool :=
  Source.isRelative t.specifier

/-- The token of a literal in a text of `total` bytes that `shift` bytes stand
    before; none if no quote shows at its place in the file. -/
def tokenOf? (file : List Char) (shift total : Nat) (l : ImportLiteral) : Option ImportToken :=
  let start := shift + (total - Text.size l.here)
  let stop := shift + (total - Text.size l.rest)
  match Text.slice? start stop file with
  | some (q :: _) =>
    if q = '\x22' || q = '\x27' then
      some {
        specifier := String.ofList (joinPairs l.value)
        quote := q
        start := start
        stop := stop
        statementEnd := max stop (shift + (total - Text.size l.after)) }
    else none
  | _ => none

/-- The import tokens of a file in document order; none if the file is not a
    module of the dialect. -/
def imports? (dialect : Dialect) (text : String) : Option (List ImportToken) :=
  let file := text.toList
  let (shift, body) := Text.dropMark file
  let (_, body) := Text.dropMark body
  match moduleImports? dialect.setting body with
  | some found => some (found.filterMap (tokenOf? file shift (Text.size body)))
  | none => none

end Relink.Source
