import Crosslink.Text.Basic

namespace Crosslink
namespace Url

/-!
Reading the ASCII form of an internationalised label back.  Behind the last hyphen
stands a run of variable-length numbers; each of them says how far to move on
through the pairs of a position in the text and a character before the next
insertion.
-/

/-- The value of a digit: letters count from zero, figures from twenty-six. -/
def digit? (c : Char) : Option Nat :=
  if 'a' ≤ c && c ≤ 'z' then some (c.toNat - 'a'.toNat)
  else if 'A' ≤ c && c ≤ 'Z' then some (c.toNat - 'A'.toNat)
  else if '0' ≤ c && c ≤ '9' then some (c.toNat - '0'.toNat + 26)
  else none

/-- The threshold that the `place`-th digit of a number must stay below to end it. -/
def threshold (place bias : Nat) : Nat :=
  max 1 (min 26 (36 * (place + 1) - bias))

def number? (bias : Nat) : Nat → Nat → Nat → Text → Option (Text × Nat)
  | _, _, _, [] => none
  | place, weight, value, c :: rest =>
    match digit? c with
    | none => none
    | some digit =>
      let limit := threshold place bias
      if digit < limit then some (rest, value + digit * weight)
      else number? bias (place + 1) (weight * (36 - limit)) (value + digit * weight) rest

/-- Divide a distance by thirty-five until it is small; count thirty-six for each
division. -/
def shrink : Nat → Nat → Nat → Nat × Nat
  | 0, delta, skew => (delta, skew)
  | fuel + 1, delta, skew => if 455 < delta then shrink fuel (delta / 35) (skew + 36) else (delta, skew)

/-- The bias for the next number. -/
def adapt (delta : Nat) (isFirst : Bool) (length : Nat) : Nat :=
  let scaled := if isFirst then delta / 700 else delta / 2
  let (small, skew) := shrink scaled (scaled + scaled / length) 0
  skew + 36 * small / (small + 38)

/-- Insert characters into a text as a run of numbers says.  `position` is the place
behind the last insertion. -/
def insertAll : Nat → Bool → Nat → Nat → Nat → Text → Text → Option Text
  | 0, _, _, _, _, _, text => some text
  | _, _, _, _, _, [], text => some text
  | fuel + 1, isFirst, bias, code, position, digits, text =>
    match number? bias 0 1 0 digits with
    | none => none
    | some (rest, delta) =>
      let reached := position + delta
      let next := code + reached / (text.length + 1)
      let place := reached % (text.length + 1)
      if 0x10FFFF < next || (0xD800 ≤ next && next ≤ 0xDFFF) then none
      else
        insertAll fuel false (adapt delta isFirst (text.length + 1)) next (place + 1) rest
          (text.take place ++ Char.ofNat next :: text.drop place)

/-- The label that an encoded label stands for, its mark `xn--` taken off. -/
def decodeLabel? (encoded : Text) : Option Text :=
  if encoded.all (·.toNat < 0x80) then
    let tail := (encoded.reverse.takeWhile (· != '-')).reverse
    let base := encoded.take (encoded.length - tail.length - 1)
    insertAll (tail.length + 1) true 72 0x80 0 tail base
  else none

end Url

end Crosslink
