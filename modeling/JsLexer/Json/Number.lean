import JsLexer.Json.Text
import JsLexer.Text.ShortestDecimal

/-!
Numbers in JSON.

A number without fraction and exponent is an integer as long as it fits into 64 bits, and minus zero
is none. Every other number is a binary floating point number: of its digits those count that fit
into an unsigned word of 64 bits, and the decimal exponent scales the word by one multiplication or
division. A number that is only passed over has no range, and one that the text cuts short is then
malformed.
-/

namespace JsLexer.Json

/-- A number that was read. -/
inductive Number
  | natural (n : Nat)
  | negative (n : Int)
  | real (x : Float)

/-- The largest unsigned integer of 64 bits. -/
def maxUnsigned : Nat := 0xffffffffffffffff

/-- Appends digits to a number while the result fits into 64 bits, and counts those it took. -/
def absorb (value : Nat) : List Char → Nat × Nat
  | [] => (value, 0)
  | d :: ds =>
    let longer := value * 10 + (d.toNat - '0'.toNat)
    if longer ≤ maxUnsigned then
      let (result, taken) := absorb longer ds
      (result, taken + 1)
    else (value, 0)

/-! ### Floating point -/

/-- A power of ten with a small exponent. -/
def powerOfTen (n : Nat) : Float := OfScientific.ofScientific 1 false n

/-- The largest decimal exponent of a floating point number. -/
def maxExponent : Nat := 308

/-- A word scaled by a power of ten, unless the result is too large. -/
def scaled (significand : Nat) (exponent : Int) : Option Float :=
  let x := significand.toUInt64.toFloat
  let shift := exponent.natAbs
  if 0 ≤ exponent then
    if shift ≤ maxExponent then
      let y := x * powerOfTen shift
      if y.isInf then none else some y
    else if significand = 0 then some x
    else none
  else if shift ≤ maxExponent then some (x / powerOfTen shift)
  else if shift ≤ 2 * maxExponent then
    some (x / powerOfTen maxExponent / powerOfTen (shift - maxExponent))
  else some 0

/-- The decimal text of a number: positional from 0.00001 up to 16 digits before the point, and
otherwise one digit before the point and a signed exponent. -/
def realText (x : Float) : String :=
  let sign := if 0x8000000000000000 ≤ x.toBits.toNat then "-" else ""
  if x == 0 then sign ++ "0.0"
  else
    let d := Text.Decimal.ofBinary (.ofFloat x)
    let count := d.digits.length
    let body : List Char :=
      if 0 ≤ d.exponent ∧ d.exponent < 16 then
        let whole := d.exponent.toNat + 1
        if count ≤ whole then d.digits ++ List.replicate (whole - count) '0' ++ ['.', '0']
        else d.digits.take whole ++ '.' :: d.digits.drop whole
      else if -5 ≤ d.exponent ∧ d.exponent < 0 then
        '0' :: '.' :: List.replicate (d.exponent.natAbs - 1) '0' ++ d.digits
      else
        let mantissa := match d.digits with
          | first :: more@(_ :: _) => first :: '.' :: more
          | digits => digits
        let exponentSign := if d.exponent < 0 then '-' else '+'
        mantissa ++ 'e' :: exponentSign :: Nat.toDigits 10 d.exponent.natAbs
    sign ++ String.ofList body

/-! ### Reading -/

/-- Whether a decimal digit is ahead. -/
def digitAhead (cs : List Char) : Bool := cs.head?.any isDecimalDigit

/-- The decimal digits ahead and the text after them. -/
def digitsAhead (cs : List Char) : List Char × List Char :=
  (cs.takeWhile isDecimalDigit, cs.dropWhile isDecimalDigit)

/-- The error for a text that lacks a digit here. -/
def noDigit (cs : List Char) : Error := if cs.isEmpty then .truncated else .malformed

/-- The largest exponent behind the letter; one beyond it is beyond all bounds. -/
def maxScale : Nat := 0x7fffffff

/-- A floating point number, and the text behind it. -/
def realOf (minus : Bool) (significand : Nat) (exponent : Int) (cs : List Char) : Parsed Number :=
  match scaled significand exponent with
  | none => .error .malformed
  | some x => .ok (.real (if minus then -x else x), cs)

/-- Reads on behind the letter of an exponent. An exponent beyond all bounds makes the number zero
if it is negative or all digits are zero. -/
def exponentAhead (minus : Bool) (significand : Nat) (exponent : Int) (cs : List Char) :
    Parsed Number :=
  let (down, cs) := match cs with
    | '+' :: rest => (false, rest)
    | '-' :: rest => (true, rest)
    | _ => (false, cs)
  match digitsAhead cs with
  | ([], rest) => .error (noDigit rest)
  | (digits, rest) =>
    let scale := Nat.ofDigitChars 10 digits 0
    if maxScale < scale then
      if significand ≠ 0 ∧ ¬ down then .error .malformed
      else .ok (.real (if minus then -0 else 0), rest)
    else realOf minus significand (if down then exponent - scale else exponent + scale) rest

/-- Reads an exponent, if there is one. -/
def exponentOrEnd (minus : Bool) (significand : Nat) (exponent : Int) (cs : List Char) :
    Parsed Number :=
  match cs with
  | 'e' :: rest | 'E' :: rest => exponentAhead minus significand exponent rest
  | _ => realOf minus significand exponent cs

/-- An integer, unless it is minus zero or less than any of 64 bits. -/
def integerOf (minus : Bool) (value : Nat) : Number :=
  if ¬ minus then .natural value
  else if value = 0 ∨ 0x8000000000000000 < value then .real (-value.toUInt64.toFloat)
  else .negative (-value)

/-- Reads a number behind its sign. -/
def numberAhead (minus : Bool) (cs : List Char) : Parsed Number :=
  match digitsAhead cs with
  | ([], rest) => .error (noDigit rest)
  | (digits, rest) =>
    if digits.head? = some '0' ∧ 1 < digits.length then .error .malformed
    else
      let (value, taken) := absorb 0 digits
      let exponent : Int := (digits.length - taken : Nat)
      match rest with
      | '.' :: rest =>
        match digitsAhead rest with
        | ([], rest) => .error (noDigit rest)
        | (places, rest) =>
          let (value, used) := absorb value places
          exponentOrEnd minus value (exponent - used) rest
      | _ =>
        if rest.head? = some 'e' ∨ rest.head? = some 'E' ∨ taken < digits.length then
          exponentOrEnd minus value exponent rest
        else .ok (integerOf minus value, rest)

/-! ### Numbers that are passed over -/

/-- The length of the exponent ahead, zero if there is none. -/
def exponentLength : List Char → Except Error Nat
  | [] => .ok 0
  | c :: cs =>
    if c = 'e' ∨ c = 'E' then
      let signed := match cs with
        | '+' :: _ | '-' :: _ => 1
        | _ => 0
      match (cs.drop signed).takeWhile isDecimalDigit with
      | [] => .error .malformed
      | digits => .ok (1 + signed + digits.length)
    else .ok 0

/-- The length of the fraction and exponent ahead, zero if there are none. -/
def fractionLength : List Char → Except Error Nat
  | '.' :: cs =>
    match cs.takeWhile isDecimalDigit with
    | [] => .error .malformed
    | places => (exponentLength (cs.drop places.length)).map (1 + places.length + ·)
  | cs => exponentLength cs

/-- The length of a number behind its sign. -/
def numberLength (cs : List Char) : Except Error Nat :=
  match cs.takeWhile isDecimalDigit with
  | [] => .error .malformed
  | digits =>
    if digits.head? = some '0' ∧ 1 < digits.length then .error .malformed
    else (fractionLength (cs.drop digits.length)).map (digits.length + ·)

end JsLexer.Json
