/-
  Relink.Source.Literal — what a quoted string literal stands for.

  A literal's value is first a list of code points, in which an escape may put
  half of a surrogate pair; `Literal.text` then joins the two halves of a pair
  and shows a half that stands alone as U+FFFD.

  Main definitions:
    * `escape?`      — one escape sequence, from after its backslash
    * `stringBody`   — a literal from after its opening quote
    * `joinPairs`    — code points to text
-/

namespace Relink.Source

/-! ## §1. Characters -/

/-- The four characters that end a line. -/
def isLineBreak (c : Char) : Bool :=
  c = '\n' || c = '\r' || c = '\u2028' || c = '\u2029'

/-- The value of a hexadecimal digit. -/
def hexDigit? (c : Char) : Option Nat :=
  if '0' ≤ c ∧ c ≤ '9' then some (c.toNat - '0'.toNat)
  else if 'a' ≤ c ∧ c ≤ 'f' then some (c.toNat - 'a'.toNat + 10)
  else if 'A' ≤ c ∧ c ≤ 'F' then some (c.toNat - 'A'.toNat + 10)
  else none

/-- The value of an octal digit. -/
def octalDigit? (c : Char) : Option Nat :=
  if '0' ≤ c ∧ c ≤ '7' then some (c.toNat - '0'.toNat) else none

/-- Exactly `n` hexadecimal digits, added to `acc` on the left. -/
def hexDigits? : Nat → Nat → List Char → Option Nat
  | 0, acc, _ => some acc
  | _ + 1, _, [] => none
  | n + 1, acc, c :: cs =>
    match hexDigit? c with
    | some d => hexDigits? n (16 * acc + d) cs
    | none => none

/-- The largest code point. -/
def maxCodePoint : Nat := 0x10FFFF

/-- Hexadecimal digits up to a closing brace: their value, and the number of
    characters read with the brace.  `used` digits came before. -/
def bracedDigits? : Nat → Nat → List Char → Option (Nat × Nat)
  | _, _, [] => none
  | acc, used, c :: cs =>
    if c = '}' then if used = 0 then none else some (acc, used + 1)
    else
      match hexDigit? c with
      | some d =>
        if 16 * acc + d ≤ maxCodePoint then bracedDigits? (16 * acc + d) (used + 1) cs else none
      | none => none

/-- A code point written after `\u`: four digits, or any number in braces.
    Gives the number of characters read. -/
def codePoint? : List Char → Option (Nat × Nat)
  | '{' :: cs => (bracedDigits? 0 0 cs).map fun (v, used) => (v, used + 1)
  | cs => (hexDigits? 4 0 cs).map (·, 4)

/-! ## §2. Escapes -/

/-- What an escape sequence stands for. -/
structure Escape where
  /-- The code point, or none for a line continuation. -/
  value : Option Nat
  /-- The number of characters after the backslash. -/
  used : Nat
deriving DecidableEq, Repr

/-- An octal escape: up to three digits, as long as the value fits a byte.
    A lone `\0` is no octal escape, and a template allows no other. -/
def octalEscape? (inTemplate : Bool) (first : Nat) (cs : List Char) : Option Escape :=
  match cs.head?.bind octalDigit? with
  | none => if first ≠ 0 && inTemplate then none else some ⟨some first, 1⟩
  | some second =>
    if inTemplate then none
    else
      match cs.tail.head?.bind octalDigit? with
      | none => some ⟨some (8 * first + second), 2⟩
      | some third =>
        if 64 * first + 8 * second + third ≤ 255 then
          some ⟨some (64 * first + 8 * second + third), 3⟩
        else some ⟨some (8 * first + second), 2⟩

/-- The escape sequence that starts after a backslash; none if it is malformed. -/
def escape? (inTemplate : Bool) : List Char → Option Escape
  | [] => none
  | '\r' :: '\n' :: _ => some ⟨none, 2⟩
  | 'x' :: cs => (hexDigits? 2 0 cs).map fun v => ⟨some v, 3⟩
  | 'u' :: cs => (codePoint? cs).map fun (v, used) => ⟨some v, used + 1⟩
  | 'b' :: _ => some ⟨some 8, 1⟩
  | 't' :: _ => some ⟨some 9, 1⟩
  | 'n' :: _ => some ⟨some 10, 1⟩
  | 'v' :: _ => some ⟨some 11, 1⟩
  | 'f' :: _ => some ⟨some 12, 1⟩
  | 'r' :: _ => some ⟨some 13, 1⟩
  | c :: cs =>
    if isLineBreak c then some ⟨none, 1⟩
    else
      match octalDigit? c with
      | some d => octalEscape? inTemplate d cs
      | none => some ⟨some c.toNat, 1⟩

/-! ## §3. Literals -/

/-- A string literal from after its opening quote: the code points of its value
    and the text after it.  The first argument counts the characters still to
    skip as part of an escape.  A line break or the end of the text also ends
    the literal; none means a malformed escape. -/
def stringBody (quote : Char) : Nat → List Char → Option (List Nat × List Char)
  | _, [] => some ([], [])
  | skip + 1, _ :: cs => stringBody quote skip cs
  | 0, c :: cs =>
    if c = quote then some ([], cs)
    else if c = '\n' || c = '\r' then some ([], c :: cs)
    else if c = '\\' then
      match escape? false cs with
      | none => none
      | some e => (stringBody quote e.used cs).map fun (us, rest) => (e.value.toList ++ us, rest)
    else (stringBody quote 0 cs).map fun (us, rest) => (c.toNat :: us, rest)

/-- What follows a literal is what is left of the text. -/
theorem stringBody_suffix {quote : Char} {skip : Nat} {cs : List Char} {value : List Nat}
    {rest : List Char} (h : stringBody quote skip cs = some (value, rest)) : rest <:+ cs := by
  fun_induction stringBody quote skip cs generalizing value rest with
  | case1 =>
      cases h
      exact List.suffix_refl []
  | case2 _ c cs ih => exact (ih h).trans (List.suffix_cons c cs)
  | case3 cs =>
      cases h
      exact List.suffix_cons _ cs
  | case4 c cs =>
      cases h
      exact List.suffix_refl (c :: cs)
  | case5 => cases h
  | case6 cs _ _ e _ ih =>
      obtain ⟨⟨us, after⟩, hbody, hpair⟩ := Option.map_eq_some_iff.mp h
      cases hpair
      exact (ih hbody).trans (List.suffix_cons _ cs)
  | case7 c cs _ _ _ ih =>
      obtain ⟨⟨us, after⟩, hbody, hpair⟩ := Option.map_eq_some_iff.mp h
      cases hpair
      exact (ih hbody).trans (List.suffix_cons c cs)

/-- The first half of a surrogate pair. -/
def isLeadSurrogate (u : Nat) : Bool := 0xD800 ≤ u && u ≤ 0xDBFF

/-- The second half of a surrogate pair. -/
def isTrailSurrogate (u : Nat) : Bool := 0xDC00 ≤ u && u ≤ 0xDFFF

/-- One code point as a character; half a pair is shown as U+FFFD. -/
def codePointChar (u : Nat) : Char :=
  if isLeadSurrogate u || isTrailSurrogate u then '\ufffd' else Char.ofNat u

/-- The text of some code points, two halves of a pair joined to one character. -/
def joinPairs : List Nat → List Char
  | [] => []
  | [u] => [codePointChar u]
  | u :: v :: us =>
    if isLeadSurrogate u && isTrailSurrogate v then
      Char.ofNat (0x10000 + (u - 0xD800) * 0x400 + (v - 0xDC00)) :: joinPairs us
    else codePointChar u :: joinPairs (v :: us)

end Relink.Source
