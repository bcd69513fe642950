/-
  Relink.Source.Token — the words, marks and literals of a source text.

  A token is read at a place of the text, on demand: the reader above decides
  whether a slash starts a regular expression, or whether text goes on inside a
  template or between tags, and reads on from the place it chooses.  A token
  therefore carries the text that starts with it and the text after it.

  Main definitions:
    * `skipGap`    — blanks and comments, and whether a line ended in them
    * `Kind`       — what a token is
    * `Token.first`   — the token after a gap
-/

import Relink.Source.Literal
import Relink.Text.Identifier

namespace Relink.Source

/-! ## §1. Gaps -/

/-- Blanks that do not end a line. -/
def isBlank (c : Char) : Bool :=
  c = ' ' || c = '\t' || c = '\x0b' || c = '\x0c' || c = '\u00a0' || c = '\ufeff'
    || c = '\u1680' || ('\u2000' ≤ c && c ≤ '\u200a') || c = '\u202f' || c = '\u205f'
    || c = '\u3000'

/-- Where in a gap the reading stands. -/
inductive Gap where
  /-- Between comments. -/
  | blank
  /-- In a comment that ends with the line. -/
  | line
  /-- In a comment that ends with a star and a slash. -/
  | block
deriving DecidableEq, Repr

/-- The text after a gap, and whether a line ended since `fresh` was settled.
    An arrow `-->` at the start of a line opens a line comment, and so does
    `<!--` anywhere; a block comment may be left open. -/
def skipGap : Gap → Bool → List Char → List Char × Bool
  | _, fresh, [] => ([], fresh)
  | .blank, fresh, '/' :: '/' :: cs => skipGap .line fresh cs
  | .blank, fresh, '/' :: '*' :: cs => skipGap .block fresh cs
  | .blank, fresh, '<' :: '!' :: '-' :: '-' :: cs => skipGap .line fresh cs
  | .blank, true, '-' :: '-' :: '>' :: cs => skipGap .line true cs
  | .blank, fresh, c :: cs =>
    if isLineBreak c then skipGap .blank true cs
    else if isBlank c then skipGap .blank fresh cs
    else (c :: cs, fresh)
  | .line, fresh, c :: cs =>
    if isLineBreak c then skipGap .blank true cs else skipGap .line fresh cs
  | .block, fresh, '*' :: '/' :: cs => skipGap .blank fresh cs
  | .block, fresh, c :: cs => skipGap .block (fresh || isLineBreak c) cs

/-- What follows a gap is what is left of the text. -/
theorem skipGap_suffix (gap : Gap) (fresh : Bool) (cs : List Char) :
    (skipGap gap fresh cs).1 <:+ cs := by
  fun_induction skipGap gap fresh cs with
  | case1 => exact List.suffix_refl []
  | case2 fresh cs ih => exact ih.trans ((List.suffix_cons _ cs).trans (List.suffix_cons _ _))
  | case3 fresh cs ih => exact ih.trans ((List.suffix_cons _ cs).trans (List.suffix_cons _ _))
  | case4 fresh cs ih => exact ih.trans (List.suffix_append ['<', '!', '-', '-'] cs)
  | case5 cs ih => exact ih.trans (List.suffix_append ['-', '-', '>'] cs)
  | case6 fresh c cs _ _ _ _ _ ih => exact ih.trans (List.suffix_cons c cs)
  | case7 fresh c cs _ _ _ _ _ _ ih => exact ih.trans (List.suffix_cons c cs)
  | case8 fresh c cs => exact List.suffix_refl (c :: cs)
  | case9 fresh c cs _ ih => exact ih.trans (List.suffix_cons c cs)
  | case10 fresh c cs _ ih => exact ih.trans (List.suffix_cons c cs)
  | case11 fresh cs ih => exact ih.trans ((List.suffix_cons _ cs).trans (List.suffix_cons _ _))
  | case12 fresh c cs _ ih => exact ih.trans (List.suffix_cons c cs)

/-! ## §2. Marks -/

/-- Punctuation. -/
inductive Mark where
  | openBrace | closeBrace | openParen | closeParen | openBracket | closeBracket
  | semicolon | comma | colon | dot | ellipsis | question | optionalDot | arrow | atSign | hash
  | backquote | bang | tilde | plusPlus | minusMinus
  /-- Operators between two operands. -/
  | less | more | lessEq | moreEq | eqEq | notEq | eqEqEq | notEqEq
  | shiftLeft | shiftRight | shiftRightZero
  | plus | minus | star | slash | percent | power
  | bitAnd | bitOr | bitXor | both | either | coalesce
  /-- Assignment: plain, divided, and any other with an operator. -/
  | assign | slashAssign | assignWith
deriving DecidableEq, Repr, Inhabited

/-- The marks by spelling, longer spellings first. -/
def marks : List (List Char × Mark) := [
  (['>', '>', '>', '='], .assignWith),
  (['.', '.', '.'], .ellipsis), (['=', '=', '='], .eqEqEq), (['!', '=', '='], .notEqEq),
  (['*', '*', '='], .assignWith), (['<', '<', '='], .assignWith), (['>', '>', '='], .assignWith),
  (['&', '&', '='], .assignWith), (['|', '|', '='], .assignWith), (['?', '?', '='], .assignWith),
  (['>', '>', '>'], .shiftRightZero),
  (['=', '>'], .arrow), (['=', '='], .eqEq), (['!', '='], .notEq), (['<', '='], .lessEq),
  (['>', '='], .moreEq), (['<', '<'], .shiftLeft), (['>', '>'], .shiftRight),
  (['&', '&'], .both), (['|', '|'], .either), (['?', '?'], .coalesce), (['?', '.'], .optionalDot),
  (['+', '+'], .plusPlus), (['-', '-'], .minusMinus), (['*', '*'], .power),
  (['+', '='], .assignWith), (['-', '='], .assignWith), (['*', '='], .assignWith),
  (['/', '='], .slashAssign), (['%', '='], .assignWith), (['&', '='], .assignWith),
  (['|', '='], .assignWith), (['^', '='], .assignWith),
  (['{'], .openBrace), (['}'], .closeBrace), (['('], .openParen), ([')'], .closeParen),
  (['['], .openBracket), ([']'], .closeBracket), ([';'], .semicolon), ([','], .comma),
  ([':'], .colon), (['.'], .dot), (['?'], .question), (['@'], .atSign), (['#'], .hash),
  (['\x60'], .backquote), (['!'], .bang), (['~'], .tilde), (['<'], .less), (['>'], .more),
  (['+'], .plus), (['-'], .minus), (['*'], .star), (['/'], .slash), (['%'], .percent),
  (['&'], .bitAnd), (['|'], .bitOr), (['^'], .bitXor), (['='], .assign)]

/-- The text after a spelling it starts with. -/
def afterSpelling? : List Char → List Char → Option (List Char)
  | [], cs => some cs
  | _ :: _, [] => none
  | s :: ss, c :: cs => if s = c then afterSpelling? ss cs else none

/-- The longest mark a text starts with.  `?.` before a digit is a question mark
    and a fraction. -/
def mark? (cs : List Char) : Option (Mark × List Char) :=
  let found : Option (Mark × List Char) :=
    marks.findSome? fun (s, m) => (afterSpelling? s cs).map fun rest => (m, rest)
  match found with
  | some (.optionalDot, rest) =>
    if rest.head?.any Char.isDigit then some (.question, '.' :: rest) else some (.optionalDot, rest)
  | _ => found

/-- A spelling and what follows it make up the text. -/
theorem eq_append_of_afterSpelling? {spelling cs rest : List Char}
    (h : afterSpelling? spelling cs = some rest) : cs = spelling ++ rest := by
  fun_induction afterSpelling? spelling cs with
  | case1 cs =>
      cases h
      rfl
  | case2 => cases h
  | case3 ss c cs ih => rw [ih h, List.cons_append]
  | case4 => cases h

/-- Only one spelling stands for an optional member. -/
theorem spelling_of_optionalDot :
    ∀ p ∈ marks, p.2 = .optionalDot → p.1 = ['?', '.'] := by decide

/-- What follows a mark is what is left of the text. -/
theorem mark?_suffix {cs : List Char} {m : Mark} {rest : List Char}
    (h : mark? cs = some (m, rest)) : rest <:+ cs := by
  have spelled : ∀ {m : Mark} {rest : List Char},
      (marks.findSome? fun (s, m) => (afterSpelling? s cs).map fun rest => (m, rest))
          = some (m, rest)
        → ∃ s, (s, m) ∈ marks ∧ cs = s ++ rest := by
    intro m rest hfound
    obtain ⟨⟨s, m'⟩, hmem, hsome⟩ := List.exists_of_findSome?_eq_some hfound
    obtain ⟨rest', hafter, hpair⟩ := Option.map_eq_some_iff.mp hsome
    cases hpair
    exact ⟨s, hmem, eq_append_of_afterSpelling? hafter⟩
  simp only [mark?] at h
  split at h
  next rest' hfound =>
    obtain ⟨s, hmem, rfl⟩ := spelled hfound
    have hs : s = ['?', '.'] := spelling_of_optionalDot _ hmem rfl
    subst hs
    split at h
    · cases h
      exact List.suffix_cons '?' ('.' :: rest')
    · cases h
      exact List.suffix_append ['?', '.'] rest
  next =>
    obtain ⟨s, _, rfl⟩ := spelled h
    exact List.suffix_append s rest

/-! ## §3. Words -/

/-- Words that are never identifiers in a module. -/
def keywords : List String := [
  "await", "break", "case", "catch", "class", "const", "continue", "debugger", "default", "delete",
  "do", "else", "export", "extends", "false", "finally", "for", "function", "if", "import", "in",
  "instanceof", "let", "new", "null", "return", "super", "switch", "this", "throw", "true", "try",
  "typeof", "var", "void", "while", "with", "yield"]

/-- Words that strict code keeps for later. -/
def futureWords : List String := [
  "enum", "implements", "interface", "package", "private", "protected", "public", "static"]

/-- A word from its first character on: its characters, whether an escape is
    among them, and the text after it.  The first argument counts the characters
    still to skip as part of an escape; none means a malformed escape. -/
def wordBody : Nat → List Char → Option (List Char × Bool × List Char)
  | _, [] => some ([], false, [])
  | skip + 1, _ :: cs => wordBody skip cs
  | 0, '\\' :: 'u' :: cs =>
    match codePoint? cs with
    | none => none
    | some (v, used) =>
      if isIdentifierCode v then
        (wordBody (used + 1) ('u' :: cs)).map fun (w, _, rest) => (Char.ofNat v :: w, true, rest)
      else none
  | 0, c :: cs =>
    if Text.isIdentifierPart c then
      (wordBody 0 cs).map fun (w, escaped, rest) => (c :: w, escaped, rest)
    else if c = '\\' then none
    else some ([], false, c :: cs)
where
  /-- Whether an escaped code point may stand in a word. -/
  isIdentifierCode (v : Nat) : Bool :=
    !isLeadSurrogate v && !isTrailSurrogate v && Text.isIdentifierPart (Char.ofNat v)

/-- What follows a word is what is left of the text. -/
theorem wordBody_suffix {skip : Nat} {cs w : List Char} {escaped : Bool} {rest : List Char}
    (h : wordBody skip cs = some (w, escaped, rest)) : rest <:+ cs := by
  fun_induction wordBody skip cs generalizing w escaped rest with
  | case1 =>
      cases h
      exact List.suffix_refl []
  | case2 _ c cs ih => exact (ih h).trans (List.suffix_cons c cs)
  | case3 => cases h
  | case4 cs v used _ _ ih =>
      obtain ⟨⟨w', e', after⟩, hbody, hpair⟩ := Option.map_eq_some_iff.mp h
      cases hpair
      exact (ih hbody).trans (List.suffix_cons _ _)
  | case5 => cases h
  | case6 c cs _ _ ih =>
      obtain ⟨⟨w', e', after⟩, hbody, hpair⟩ := Option.map_eq_some_iff.mp h
      cases hpair
      exact (ih hbody).trans (List.suffix_cons c cs)
  | case7 => cases h
  | case8 c cs =>
      cases h
      exact List.suffix_refl (c :: cs)

/-! ## §4. Numbers -/

/-- Digits and separators. -/
def dropDigits (isDigit : Char → Bool) (cs : List Char) : List Char :=
  cs.dropWhile fun c => isDigit c || c = '_'

/-- The text after a suffix `n`, if one stands there. -/
def dropBig : List Char → List Char
  | 'n' :: cs => cs
  | cs => cs

/-- The text after at least one digit of a radix and a suffix `n`. -/
def radixEnd? (isDigit : Char → Bool) (cs : List Char) : Option (List Char) :=
  if cs.head?.any isDigit then some (dropBig (dropDigits isDigit cs)) else none

/-- The text after an exponent, if one stands there; it needs a digit. -/
def exponentEnd? : List Char → Option (List Char)
  | [] => some []
  | c :: cs =>
    if c = 'e' || c = 'E' then
      let unsigned := match cs with
        | '+' :: r => r
        | '-' :: r => r
        | r => r
      if unsigned.head?.any Char.isDigit then some (dropDigits Char.isDigit unsigned) else none
    else some (c :: cs)

/-- The text after a decimal number. -/
def decimalEnd? (cs : List Char) : Option (List Char) :=
  match dropDigits Char.isDigit cs with
  | '.' :: fraction => exponentEnd? (dropDigits Char.isDigit fraction)
  | 'n' :: rest => some rest
  | rest => exponentEnd? rest

/-- The text after a number, which no identifier may follow directly. -/
def numberEnd? (cs : List Char) : Option (List Char) :=
  let stop := match cs with
    | '0' :: 'x' :: r => radixEnd? (fun c => (hexDigit? c).isSome) r
    | '0' :: 'X' :: r => radixEnd? (fun c => (hexDigit? c).isSome) r
    | '0' :: 'o' :: r => radixEnd? (fun c => (octalDigit? c).isSome) r
    | '0' :: 'O' :: r => radixEnd? (fun c => (octalDigit? c).isSome) r
    | '0' :: 'b' :: r => radixEnd? (fun c => c = '0' || c = '1') r
    | '0' :: 'B' :: r => radixEnd? (fun c => c = '0' || c = '1') r
    | r => decimalEnd? r
  stop.bind fun rest => if rest.head?.any Text.isIdentifierStart then none else some rest

theorem dropDigits_suffix (isDigit : Char → Bool) (cs : List Char) :
    dropDigits isDigit cs <:+ cs :=
  List.dropWhile_suffix _

theorem dropBig_suffix (cs : List Char) : dropBig cs <:+ cs := by
  unfold dropBig
  split
  · exact List.suffix_cons _ _
  · exact List.suffix_refl _

theorem radixEnd?_suffix {isDigit : Char → Bool} {cs rest : List Char}
    (h : radixEnd? isDigit cs = some rest) : rest <:+ cs := by
  unfold radixEnd? at h
  split at h
  · cases h
    exact (dropBig_suffix _).trans (dropDigits_suffix _ _)
  · cases h

theorem exponentEnd?_suffix {cs rest : List Char} (h : exponentEnd? cs = some rest) :
    rest <:+ cs := by
  unfold exponentEnd? at h
  split at h
  next => cases h; exact List.suffix_refl []
  next c cs =>
    split at h
    · -- the sign is optional, so the digits start at most one character later
      have hsign : ∀ {unsigned : List Char}, unsigned <:+ cs →
          (if unsigned.head?.any Char.isDigit then some (dropDigits Char.isDigit unsigned)
            else none) = some rest → rest <:+ c :: cs := by
        intro unsigned hun hif
        split at hif
        · cases hif
          exact (dropDigits_suffix _ _).trans (hun.trans (List.suffix_cons c cs))
        · cases hif
      split at h
      · exact hsign (List.suffix_cons _ _) h
      · exact hsign (List.suffix_cons _ _) h
      · exact hsign (List.suffix_refl _) h
    · cases h
      exact List.suffix_refl _

theorem decimalEnd?_suffix {cs rest : List Char} (h : decimalEnd? cs = some rest) :
    rest <:+ cs := by
  have hdrop := dropDigits_suffix Char.isDigit cs
  unfold decimalEnd? at h
  split at h
  next fraction heq =>
    rw [heq] at hdrop
    exact (exponentEnd?_suffix h).trans
      ((dropDigits_suffix _ _).trans ((List.suffix_cons _ fraction).trans hdrop))
  next heq =>
    cases h
    rw [heq] at hdrop
    exact (List.suffix_cons _ rest).trans hdrop
  next => exact (exponentEnd?_suffix h).trans hdrop

/-- What follows a number is what is left of the text. -/
theorem numberEnd?_suffix {cs rest : List Char} (h : numberEnd? cs = some rest) :
    rest <:+ cs := by
  have two : ∀ {a b : Char} {r : List Char}, rest <:+ r → rest <:+ a :: b :: r :=
    fun hr => hr.trans ((List.suffix_cons _ _).trans (List.suffix_cons _ _))
  simp only [numberEnd?, Option.bind_eq_some_iff] at h
  obtain ⟨stop, hstop, hrest⟩ := h
  split at hrest
  · cases hrest
  · cases hrest
    split at hstop
    · exact two (radixEnd?_suffix hstop)
    · exact two (radixEnd?_suffix hstop)
    · exact two (radixEnd?_suffix hstop)
    · exact two (radixEnd?_suffix hstop)
    · exact two (radixEnd?_suffix hstop)
    · exact two (radixEnd?_suffix hstop)
    · exact decimalEnd?_suffix hstop

/-! ## §5. Tokens -/

/-- What a token is. -/
inductive Kind where
  /-- The end of the text. -/
  | finish
  /-- Text that is no token. -/
  | bad
  /-- An identifier or keyword, its escapes resolved. -/
  | word (text : String)
  /-- A punctuation mark. -/
  | mark (m : Mark)
  /-- A string literal: the code points of its value. -/
  | string (value : List Nat)
  /-- A number. -/
  | number
deriving DecidableEq, Repr, Inhabited

/-- A word as a token: a keyword must be written without escapes. -/
def wordKind (cs : List Char) (escaped : Bool) : Kind :=
  let w := String.ofList cs
  if cs.head?.any Text.isIdentifierStart
      && !(escaped && (keywords.contains w || futureWords.contains w)) then .word w
  else .bad

/-- The kind of the token at the start of a text, and the text after it. -/
def kindAt (cs : List Char) : Kind × List Char :=
  match cs with
  | [] => (.finish, [])
  | c :: rest =>
    if c = '\x22' || c = '\x27' then
      match stringBody c 0 rest with
      | some (value, after) => (.string value, after)
      | none => (.bad, rest)
    else if Text.isIdentifierStart c || c = '\\' then
      match wordBody 0 cs with
      | some (w, escaped, after) => (wordKind w escaped, after)
      | none => (.bad, rest)
    else if c.isDigit || (c = '.' && rest.head?.any Char.isDigit) then
      match numberEnd? cs with
      | some after => (.number, after)
      | none => (.bad, rest)
    else
      match mark? cs with
      | some (m, after) => (.mark m, after)
      | none => (.bad, rest)

/-- What follows a token is what is left of the text. -/
theorem kindAt_suffix (cs : List Char) : (kindAt cs).2 <:+ cs := by
  unfold kindAt
  split
  next => exact List.suffix_refl []
  next c rest =>
    split
    · split
      next hbody => exact (stringBody_suffix hbody).trans (List.suffix_cons c rest)
      next => exact List.suffix_cons c rest
    · split
      · split
        next hbody => exact wordBody_suffix hbody
        next => exact List.suffix_cons c rest
      · split
        · split
          next hend => exact numberEnd?_suffix hend
          next => exact List.suffix_cons c rest
        · split
          next hmark => exact mark?_suffix hmark
          next => exact List.suffix_cons c rest

/-- A token in its text. -/
structure Token where
  /-- What it is. -/
  kind : Kind
  /-- The text from its first character on. -/
  here : List Char
  /-- The text after it. -/
  rest : List Char
  /-- Whether a line ended before it since the token before. -/
  fresh : Bool
  /-- It is what stands there. -/
  stands : kindAt here = (kind, rest)

/-- What follows a token is what is left of the text. -/
theorem Token.rest_suffix (t : Token) : t.rest <:+ t.here := by
  have hsuffix := kindAt_suffix t.here
  rw [t.stands] at hsuffix
  exact hsuffix

/-- The first token of a text; `fresh` says whether the text starts a line. -/
def Token.first (fresh : Bool) (cs : List Char) : Token :=
  let gap := skipGap .blank fresh cs
  let read := kindAt gap.1
  { kind := read.1
    here := gap.1
    rest := read.2
    fresh := gap.2
    stands := rfl }

/-- The first token of a text stands in the text. -/
theorem Token.first_suffix (fresh : Bool) (cs : List Char) : (Token.first fresh cs).here <:+ cs :=
  skipGap_suffix .blank fresh cs

end Relink.Source
