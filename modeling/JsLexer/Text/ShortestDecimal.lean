/-!
The shortest decimal text of a binary floating point number.

A number of 53 significant bits stands for all reals that round to it. Of the decimals among them
those with the fewest digits are chosen, and of these the nearest to the number itself. All of this
is done with natural numbers: the number and the ends of its interval are fractions over one
denominator, and for each count of digits the two neighbours on the decimal grid are tried.
-/

namespace JsLexer.Text

/-- A positive number as digits and the power of ten of the first of them. -/
structure Decimal where
  digits : List Char
  exponent : Int

namespace Decimal

/-- A number `mantissa * 2 ^ exponent`, and whether the next smaller one is only half as far away
as the next larger one. -/
structure Binary where
  mantissa : Nat
  exponent : Int
  narrowBelow : Bool

/-- The leading bit of a mantissa, which is not written. -/
def hiddenBit : Nat := 0x10000000000000

/-- The magnitude of a finite number of 64 bits. -/
def Binary.ofFloat (x : Float) : Binary :=
  let bits : Nat := x.toBits.toNat
  let fraction : Nat := bits % hiddenBit
  let scale : Nat := bits / hiddenBit % 0x800
  if scale = 0 then ⟨fraction, -1074, false⟩
  else ⟨hiddenBit + fraction, (scale : Int) - 1075, fraction = 0 && 1 < scale⟩

/-- The number of decimal digits of `n`. -/
def width (n : Nat) : Nat := (Nat.toDigits 10 n).length

/-- The power of ten of the first digit of `num / den`. -/
def leadingPower (num den : Nat) : Int :=
  let guess : Int := (width num : Int) - width den
  if den * Nat.pow 10 guess.toNat ≤ num * Nat.pow 10 (-guess).toNat then guess else guess - 1

/-- The nearest decimal of `count` digits in the interval from `low / den` to `high / den` around
`num / den`, if there is one; an even last digit breaks a tie. -/
def nearest? (low num high den : Nat) (closed : Bool) (power : Int) (count : Nat) : Option Nat :=
  let grid : Int := power - (count - 1 : Nat)
  let up := Nat.pow 10 (-grid).toNat
  let unit := den * Nat.pow 10 grid.toNat
  let inside (n : Nat) : Bool :=
    if closed then low * up ≤ n * unit && n * unit ≤ high * up
    else low * up < n * unit && n * unit < high * up
  let below := num * up / unit
  let remainder := num * up % unit
  let upFirst := unit < 2 * remainder || 2 * remainder == unit && below % 2 == 1
  let candidates := if upFirst then [below + 1, below] else [below, below + 1]
  candidates.find? inside

/-- The digits of `n` without the zeros at their end. -/
def significant (n : Nat) : List Char :=
  ((Nat.toDigits 10 n).reverse.dropWhile (· == '0')).reverse

/-- The shortest decimal of a positive number. -/
def ofBinary (b : Binary) : Decimal :=
  let scale := Nat.pow 2 (b.exponent - 2).toNat
  let den := Nat.pow 2 (2 - b.exponent).toNat
  let num := 4 * b.mantissa * scale
  let low := (4 * b.mantissa - if b.narrowBelow then 1 else 2) * scale
  let high := (4 * b.mantissa + 2) * scale
  let power := leadingPower num den
  let pick (count : Nat) : Option Decimal :=
    (nearest? low num high den (b.mantissa % 2 == 0) power count).map fun n =>
      ⟨significant n, power - (count - 1 : Nat) + (width n - 1 : Nat)⟩
  ((List.range 17).findSome? fun n => pick (n + 1)).getD ⟨['0'], 0⟩

end Decimal

end JsLexer.Text
