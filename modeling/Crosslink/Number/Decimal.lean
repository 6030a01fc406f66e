import Crosslink.Number.Double
import Crosslink.Text.Basic

namespace Crosslink

/-!
Floating-point numbers as decimal text.  The text has the fewest digits that read back
as the same number, and among those the ones nearest to it; numbers of ordinary size are
written with a point and others with a power of ten.
-/

/-- A positive number in decimal: digits without a trailing zero, and the power of ten
that the first digit stands for. -/
structure Decimal where
  digits : Text
  /-- The power of ten of the first digit. -/
  leading : Int
  deriving Repr, DecidableEq

namespace Decimal

/-- The power of ten of the first digit of a positive ratio. -/
def magnitude (num den : Nat) : Int :=
  if den ≤ num then (Nat.toDigits 10 (num / den)).length - 1
  else -(Nat.toDigits 10 ((den - 1) / num)).length

/-- Without the zeros at the end. -/
def trimZeros (digits : Text) : Text :=
  digits.dropEndWhile (· == '0')

/-- A natural number times a power of ten. -/
def ofScaled (digits : Nat) (exponent : Int) : Decimal :=
  let text := Nat.toDigits 10 digits
  { digits := trimZeros text, leading := exponent + text.length - 1 }

/-- A ratio divided by a power of ten, rounded down; and whether rounding to the nearest
number goes up from there, where a half goes to the even neighbour. -/
def floorScaled (num den : Nat) (exponent : Int) : Nat × Bool :=
  let (above, below) :=
    if 0 ≤ exponent then (num, den * Nat.pow 10 exponent.toNat)
    else (num * Nat.pow 10 (-exponent).toNat, den)
  let low := above / below
  let twice := 2 * (above % below)
  (low, below < twice || (below = twice && low % 2 = 1))

/-- The decimal of so many digits that reads back as the number, if there is one: of the
two neighbours of the number the nearer that does, and of two equally near the even one. -/
def withDigits? (mantissa : Nat) (exponent : Int) (count : Nat) : Option Decimal :=
  let (num, den) := Double.ratio mantissa exponent
  let power := magnitude num den + 1 - count
  let (low, upward) := floorScaled num den power
  let candidates := if upward then [low + 1, low] else [low, low + 1]
  let readsBack (digits : Nat) : Bool :=
    Double.ofDecimal false digits power = .finite false mantissa exponent
  (candidates.find? readsBack).map (ofScaled · power)

/-- Every number reads back from so many digits. -/
def enoughDigits : Nat := 17

/-- The decimal with the fewest digits that reads back as the positive number. -/
def shortest (mantissa : Nat) (exponent : Int) : Decimal :=
  (((List.range enoughDigits).map (· + 1)).findSome? (withDigits? mantissa exponent)).getD
    (ofScaled mantissa 0)

/-- Positional notation is used from this power of ten of the first digit on. -/
def positionalFrom : Int := -4

/-- Positional notation is used below this power of ten of the first digit. -/
def positionalBelow : Int := 16

/-- The power of ten of scientific notation: a sign and at least two digits. -/
def exponentText (power : Int) : Text :=
  let digits := Nat.toDigits 10 power.natAbs
  (if power < 0 then '-' else '+') :: (if digits.length < 2 then '0' :: digits else digits)

/-- A decimal in positional notation, with at least one digit on either side of the
point. -/
def positional (decimal : Decimal) : Text :=
  if decimal.leading < 0 then
    '0' :: '.' :: List.replicate ((-decimal.leading).toNat - 1) '0' ++ decimal.digits
  else
    let whole := decimal.leading.toNat + 1
    let fraction := decimal.digits.drop whole
    decimal.digits.take whole ++ List.replicate (whole - decimal.digits.length) '0'
      ++ '.' :: (if fraction.isEmpty then ['0'] else fraction)

def scientific (decimal : Decimal) : Text :=
  let fraction := decimal.digits.drop 1
  decimal.digits.take 1 ++ (if fraction.isEmpty then [] else '.' :: fraction)
    ++ 'e' :: exponentText decimal.leading

/-- A decimal in the notation that its size asks for. -/
def text (decimal : Decimal) : Text :=
  if positionalFrom ≤ decimal.leading && decimal.leading < positionalBelow then
    decimal.positional
  else decimal.scientific

end Decimal

namespace Double

def signText (negative : Bool) : Text :=
  if negative then ['-'] else []

def finiteText (negative : Bool) (mantissa : Nat) (exponent : Int) : Text :=
  signText negative ++
    if mantissa = 0 then ['0', '.', '0'] else (Decimal.shortest mantissa exponent).text

/-- A number as a percentage with one place, a half of which goes to the even neighbour. -/
def percentText (number : Double) : Text :=
  match number.hundredfold with
  | .finite negative mantissa exponent =>
    let (num, den) := ratio mantissa exponent
    let tenths := roundedQuotient (num * 10) den
    signText negative ++ Nat.toDigits 10 (tenths / 10)
      ++ ['.', Nat.digitChar (tenths % 10), '%']
  | .infinite negative => signText negative ++ ['i', 'n', 'f', '%']
  | .undefined => ['n', 'a', 'n', '%']

end Double

end Crosslink
