/-!
# Rounding to binary64

The nearest number with fifty-three significant bits, a tie going to the even neighbour: what sums
of clock readings become in a double. Numbers too large for a double are not looked at here.
-/

namespace Chip8.Number

/-- The nearest integer, a tie going to the even one. -/
def roundHalfEven (q : Rat) : Int :=
  let below := q.floor
  let rest := q - below
  if rest < 1 / 2 then below
  else if 1 / 2 < rest then below + 1
  else if below % 2 = 0 then below
  else below + 1

/-- A power of two with an integer exponent. -/
def powerOfTwo (e : Int) : Rat :=
  if 0 ≤ e then Nat.pow 2 e.toNat else 1 / (Nat.pow 2 (-e).toNat : Rat)

/-- The exponent of the highest power of two that is not above `|q|`, for a `q` other than zero. -/
def exponent (q : Rat) : Int :=
  let e : Int := q.num.natAbs.log2 - q.den.log2
  if powerOfTwo e * q.den ≤ (q.num.natAbs : Rat) then e else e - 1

/-- The value of the last place of a double of the magnitude of `q`. -/
def lastPlace (q : Rat) : Rat := powerOfTwo (max (exponent q - 52) (-1074))

/-- `q` rounded to a double. -/
def binary64 (q : Rat) : Rat :=
  if q = 0 then 0 else roundHalfEven (q / lastPlace q) * lastPlace q

end Chip8.Number
