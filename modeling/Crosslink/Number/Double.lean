namespace Crosslink

/-!
Floating-point numbers of 53 binary digits.  A finite number is a natural number times
a power of two, so rounding and comparing are exact calculations with natural numbers.
A result that falls between two numbers goes to the nearer one, and from the middle to
the one with the even mantissa.
-/

/-- A floating-point number. -/
inductive Double where
  /-- The mantissa times two to the exponent, with a sign; a zero has a sign too. -/
  | finite (negative : Bool) (mantissa : Nat) (exponent : Int)
  /-- Beyond every finite number. -/
  | infinite (negative : Bool)
  /-- Not a number. -/
  | undefined
  deriving Repr, DecidableEq

/-- Divide and round to the nearest natural number; a half goes to the even one. -/
def roundedQuotient (num den : Nat) : Nat :=
  let quotient := num / den
  let twice := 2 * (num % den)
  if twice < den || (twice = den && quotient % 2 = 0) then quotient else quotient + 1

namespace Double

/-- Mantissas have at most so many binary digits. -/
def precision : Nat := 53

def leastExponent : Int := -1074

def greatestExponent : Int := 971

def zero (negative : Bool) : Double :=
  .finite negative 0 leastExponent

/-- A ratio divided by a power of two. -/
def scaled (num den : Nat) (exponent : Int) : Nat × Nat :=
  if 0 ≤ exponent then (num, den * Nat.pow 2 exponent.toNat)
  else (num * Nat.pow 2 (-exponent).toNat, den)

/-- The exponent at which a positive ratio has a mantissa of full precision, or the least
exponent if that is greater. -/
def exponentOf (num den : Nat) : Int :=
  let guess : Int := num.log2 - den.log2 - (precision - 1)
  let (above, below) := scaled num den guess
  max leastExponent (if above < Nat.pow 2 (precision - 1) * below then guess - 1 else guess)

/-- The number with a mantissa that rounding may have lifted to the next power of two. -/
def ofParts (negative : Bool) (mantissa : Nat) (exponent : Int) : Double :=
  let carried := mantissa = Nat.pow 2 precision
  let exponent := if carried then exponent + 1 else exponent
  if greatestExponent < exponent then .infinite negative
  else .finite negative (if carried then Nat.pow 2 (precision - 1) else mantissa) exponent

def ofRatio (negative : Bool) (num den : Nat) : Double :=
  if num = 0 then zero negative
  else
    let exponent := exponentOf num den
    let (above, below) := scaled num den exponent
    ofParts negative (roundedQuotient above below) exponent

/-- The number nearest to an integer. -/
def ofInt (n : Int) : Double :=
  ofRatio (n < 0) n.natAbs 1

/-- The magnitude of a number with a mantissa and an exponent, as a ratio. -/
def ratio (mantissa : Nat) (exponent : Int) : Nat × Nat :=
  if 0 ≤ exponent then (mantissa * Nat.pow 2 exponent.toNat, 1)
  else (mantissa, Nat.pow 2 (-exponent).toNat)

/-- How many times ten to the power `-400` or `400` is out of reach of every finite
number. -/
def decimalReach : Int := 400

/-- The number nearest to a natural number times a power of ten. -/
def ofDecimal (negative : Bool) (digits : Nat) (exponent : Int) : Double :=
  let size : Int := digits.log2 / 3 + 1
  if digits = 0 || exponent + size < -decimalReach then zero negative
  else if decimalReach < exponent then .infinite negative
  else if 0 ≤ exponent then ofRatio negative (digits * Nat.pow 10 exponent.toNat) 1
  else ofRatio negative digits (Nat.pow 10 (-exponent).toNat)

/-- The number without a fractional part, if it has none. -/
def toInt? : Double → Option Int
  | .finite negative mantissa exponent =>
    let (num, den) := ratio mantissa exponent
    if num % den = 0 then
      some (if negative then -((num / den : Nat) : Int) else ((num / den : Nat) : Int))
    else none
  | _ => none

def hundredfold : Double → Double
  | .finite negative mantissa exponent =>
    let (num, den) := ratio mantissa exponent
    ofRatio negative (num * 100) den
  | other => other

end Double

end Crosslink
