/-
  Relink.Config.Toml.Number — numbers and dates of a TOML text.

  No setting holds a number or a date, so only their form is read.

  Main definitions:
    * `integer`, `float` — numbers
    * `dateTime`         — dates, times and both
-/

import Relink.Config.Toml.Text

namespace Relink.Toml

open Scan

/-! ## §1. Digits -/

/-- A digit, or an underscore and a digit. -/
def nextDigit (isDigit : Char → Bool) : Scan Char := do
  let _ ← eats '_'
  satisfying isDigit

/-- Digits, with single underscores between them. -/
def digits (isDigit : Char → Bool) : Scan (List Char) := do
  let first ← satisfying isDigit
  let rest ← many (nextDigit isDigit)
  return first :: rest

/-- The number that some digits of a base stand for. -/
def numberOf (base : Nat) (cs : List Char) : Nat :=
  cs.foldl (fun n c => base * n + (hexDigit? c).getD 0) 0

/-- A sign; whether it is a minus. -/
def sign : Scan Bool := do
  if ← eats '-' then return true
  let _ ← eats '+'
  return false

/-- A decimal whole number without needless zeros in front. -/
def wholeDigits : Scan (List Char) :=
  either (do
    let first ← satisfying fun c => '1' ≤ c && c ≤ '9'
    let rest ← many (nextDigit Char.isDigit)
    return first :: rest)
  (exactly Char.isDigit 1)

/-! ## §2. Numbers -/

/-- A whole number in a base marked by a letter, which fits 64 bits with a
    sign. -/
def basedInteger (letter : Char) (base : Nat) : Scan Unit := do
  word ['0', letter]
  let cs ← digits fun c => (hexDigit? c).any (· < base)
  if 1 <<< 63 ≤ numberOf base cs then failure

/-- A decimal whole number that fits 64 bits with a sign. -/
def decimalInteger : Scan Unit := do
  let negative ← sign
  let cs ← wholeDigits
  if (if negative then (1 <<< 63) + 1 else 1 <<< 63) ≤ numberOf 10 cs then failure

/-- A whole number. -/
def integer : Scan Unit :=
  either (basedInteger 'x' 16)
    (either (basedInteger 'o' 8) (either (basedInteger 'b' 2) decimalInteger))

/-- The exponent of a number; whether it is negative, and its digits. -/
def exponent : Scan (Bool × List Char) := do
  let _ ← satisfying fun c => c = 'e' || c = 'E'
  let negative ← sign
  let cs ← digits Char.isDigit
  return (negative, cs)

/-- Whether the number with these significant digits, `places` of them after
    the point, times a power of ten is at least the least that rounds to
    infinity. -/
def isTooLarge (significant : List Char) (places : Nat) (exp : Bool × List Char) : Bool :=
  let m := numberOf 10 significant
  let e := numberOf 10 exp.2
  let limit := (1 <<< 1024) - (1 <<< 970)
  if m = 0 then false
  else if exp.1 then limit * Nat.pow 10 (places + min e significant.length) ≤ m
  else if 400 + significant.length < e then true
  else limit * Nat.pow 10 places ≤ m * Nat.pow 10 e

/-- A decimal number with a fraction or an exponent. -/
def pointedFloat : Scan Unit := do
  let negative ← sign
  let whole ← wholeDigits
  let fraction ← option do
    char '.'
    digits Char.isDigit
  let exp ← option exponent
  if fraction.isNone && exp.isNone then failure
  let after := fraction.getD []
  if !negative && isTooLarge (whole ++ after) after.length (exp.getD (false, [])) then failure

/-- An infinity or no number. -/
def specialFloat : Scan Unit := do
  let _ ← sign
  either (word ['i', 'n', 'f']) (word ['n', 'a', 'n'])

/-- A number that need not be whole. -/
def float : Scan Unit := either pointedFloat specialFloat

/-! ## §3. Dates and times -/

/-- A number of some digits that lies within bounds. -/
def bounded (width lo hi : Nat) : Scan Nat := do
  let cs ← exactly Char.isDigit width
  let n := numberOf 10 cs
  if n < lo || hi < n then failure
  return n

/-- How many days a month has. -/
def daysIn (year month : Nat) : Nat :=
  if month = 2 then
    if year % 4 = 0 ∧ (year % 100 ≠ 0 ∨ year % 400 = 0) then 29 else 28
  else if month = 4 ∨ month = 6 ∨ month = 9 ∨ month = 11 then 30
  else 31

/-- A date. -/
def date : Scan Unit := do
  let year ← bounded 4 0 9999
  char '-'
  let month ← bounded 2 1 12
  char '-'
  let _ ← bounded 2 1 (daysIn year month)

/-- A time of day. -/
def time : Scan Unit := do
  let _ ← bounded 2 0 23
  char ':'
  let _ ← bounded 2 0 59
  char ':'
  let _ ← bounded 2 0 60
  let _ ← option do
    char '.'
    let _ ← satisfying Char.isDigit
    takeWhile Char.isDigit

/-- The distance of a time from the time of reference. -/
def timeOffset : Scan Unit :=
  either (do
    let _ ← satisfying fun c => c = 'Z' || c = 'z')
  (do
    let _ ← satisfying fun c => c = '+' || c = '-'
    let _ ← bounded 2 0 23
    char ':'
    let _ ← bounded 2 0 59)

/-- A date, with a time after it or without, or a time. -/
def dateTime : Scan Unit :=
  either (do
    date
    let _ ← option do
      let _ ← satisfying fun c => c = 'T' || c = 't' || c = ' '
      time
      option timeOffset)
  time

end Relink.Toml
