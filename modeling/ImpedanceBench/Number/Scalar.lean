/-!
The numbers a measurement is computed with. Every formula of the library is written once over
this interface, in a fixed order of operations; the program runs it on doubles, and the theory
also reads it in the real numbers.
-/

namespace ImpedanceBench

class Scalar (α : Type) extends
    Add α, Sub α, Mul α, Div α, Neg α, LT α, LE α, OfScientific α where
  decLt : DecidableLT α
  decLe : DecidableLE α
  /-- Neither infinite nor undefined. -/
  finite : α → Bool
  ofInt : Int → α
  abs : α → α
  /-- The nearest whole number; a half goes away from zero. -/
  round : α → α
  /-- The least whole number that is not smaller. -/
  ceil : α → α
  /-- The whole part, as the nearest word that there is; an undefined number counts as 0. -/
  toUInt32 : α → UInt32
  toUInt64 : α → UInt64
  toInt32 : α → Int32
  toInt64 : α → Int64
  /-- The remainder of the division truncated toward zero; it has the sign of the dividend. -/
  rem : α → α → α
  twoPow : Int → α
  /-- The nearest number of single precision. -/
  single : α → α
  pi : α
  sin : α → α
  cos : α → α
  acos : α → α
  exp : α → α
  log : α → α
  /-- The angle of the point `(x, y)`, given as `atan2 y x`. -/
  atan2 : α → α → α
  hypot : α → α → α

namespace Scalar

variable {α : Type} [Scalar α]

attribute [reducible, instance] decLt decLe

@[inline]
def ofNat (n : Nat) : α := ofInt n

/-- Only an undefined number is not comparable with itself. -/
@[inline]
def undefined (x : α) : Bool := !decide (x ≤ x)

/-- A positive finite number. -/
@[inline]
def positive (x : α) : Bool := decide ((0.0 : α) < x) && finite x

/-- The larger of a number and a bound; an undefined number gives the bound. -/
@[inline]
def atLeast (bound x : α) : α := if bound < x then x else bound

/-- Confines a number to `[lo, hi]`; an undefined number stays undefined. -/
@[inline]
def confine (lo hi x : α) : α := if x < lo then lo else if hi < x then hi else x

/-- The remainder in `[0, |y|]`: a negative one is moved up by `|y|`, which may round up to it. -/
@[inline]
def remEuclid (x y : α) : α :=
  let r := rem x y
  if r < 0.0 then r + abs y else r

/-- Sums run from left to right; the sum of nothing is the negative zero. -/
@[specialize]
def sum (xs : List α) : α := xs.foldl (· + ·) (-0.0)

@[inline]
def toDegrees (x : α) : α := x * (180.0 / pi)

@[inline]
def toRadians (x : α) : α := x * (pi / 180.0)

end Scalar

end ImpedanceBench
