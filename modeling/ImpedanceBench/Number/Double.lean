import ImpedanceBench.Number.Scalar

/-!
Doubles as scalars. A finite double is `±m · 2^e`; rounding to whole numbers, remainders, powers
of two and single precision are computed exactly on `m` and `e`, so that they can be reasoned
about. Only the transcendental functions are taken from outside.
-/

namespace ImpedanceBench.Double

/-- What the bits of a double say. A finite one is `±mantissa · 2^exponent`, with a mantissa below
`2^53` and an exponent of at least -1074. -/
inductive Parts where
  | undefined
  | infinite (negative : Bool)
  | finite (negative : Bool) (mantissa : Nat) (exponent : Int)

@[inline]
def parts (x : Float) : Parts :=
  let bits := x.toBits
  let negative := bits >>> 63 != 0
  let exponent := ((bits >>> 52) &&& 0x7ff).toNat
  let fraction := bits &&& 0xfffffffffffff
  if exponent = 0x7ff then if fraction = 0 then .infinite negative else .undefined
  else if exponent = 0 then .finite negative fraction.toNat (-1074)
  else .finite negative (fraction + 0x10000000000000).toNat (exponent - 1075)

def nan : Float := 0.0 / 0.0

def infinity : Float := 1.0 / 0.0

/-- The double nearest to a whole number. -/
def ofNat (n : Nat) : Float :=
  if n >>> 64 = 0 then (UInt64.ofNat n).toFloat else Float.ofNat n

def ofInt : Int → Float
  | .ofNat n => ofNat n
  | .negSucc n => -ofNat (n + 1)

/-- The number `2^e`, zero or infinite where no double has that size. -/
def twoPow (e : Int) : Float :=
  if e < -1074 then 0.0
  else if e < -1022 then Float.ofBits (1 <<< UInt64.ofNat (e + 1074).toNat)
  else if e < 1024 then Float.ofBits (UInt64.ofNat (e + 1023).toNat <<< 52)
  else infinity

def withSign (negative : Bool) (x : Float) : Float := if negative then -x else x

/-- The number `±m · 2^e`; a zero keeps the sign. -/
def scaled (negative : Bool) (m : Nat) (e : Int) : Float := withSign negative (ofNat m * twoPow e)

/-- Applies a rounding of quotients `m / 2^k` to a double with a fraction part. -/
@[inline]
def roundBy (quotient : Bool → Nat → Nat → Nat) (x : Float) : Float :=
  match parts x with
  | .finite negative m (.negSucc k) => withSign negative (ofNat (quotient negative m (k + 1)))
  | _ => x

/-- The nearest whole number; a half goes away from zero. -/
def roundHalfAway : Float → Float := roundBy fun _ m k => (m + 1 <<< (k - 1)) >>> k

/-- The least whole number that is not smaller. -/
def ceil : Float → Float :=
  roundBy fun negative m k => if negative then m >>> k else (m + (1 <<< k - 1)) >>> k

/-- The remainder of the division of `m · 2^e` by `m' · 2^e'`, in units of the smaller power. -/
def remParts (m : Nat) (e : Int) (m' : Nat) (e' : Int) : Nat × Int :=
  let low := min e e'
  ((m <<< (e - low).toNat) % (m' <<< (e' - low).toNat), low)

/-- The exact remainder; an infinite divisor leaves the dividend as it is. -/
def rem (x y : Float) : Float :=
  match parts x, parts y with
  | .finite negative m e, .finite _ m' e' =>
    if m' = 0 then nan
    else
      let (r, low) := remParts m e m' e'
      scaled negative r low
  | .finite .., .infinite _ => x
  | _, _ => nan

/-- The quotient `m / 2^k` rounded to the nearest whole number; a half goes to the even one. -/
def shiftHalfEven (m k : Nat) : Nat :=
  let q := m >>> k
  let r := m - q <<< k
  let half := (1 <<< k) / 2
  if r < half ∨ k = 0 then q else if half < r then q + 1 else q + q % 2

/-- The nearest number of single precision: 24 bits, none below `2^-149`, and all numbers under
`2^128`. Most numbers that come here, such as counts, have 24 bits already. -/
def single (x : Float) : Float :=
  match parts x with
  | .finite negative m e =>
    if m % 0x20000000 = 0 ∧ -178 ≤ e ∧ e ≤ 75 then x else
    let step := max ((m.log2 : Int) + e - 23) (-149)
    let q := if step ≤ e then m <<< (e - step).toNat else shiftHalfEven m (step - e).toNat
    if 128 ≤ (q.log2 : Int) + step then withSign negative infinity
    else scaled negative q step
  | _ => x

/-- The amount `h² - a² - b²`, for `h` close to the root of `a² + b²` and `b ≤ a`. It is taken from
the distance of `h` to one of the two, so that the squares do not cancel. -/
def squareExcess (h a b : Float) : Float :=
  if h ≤ 2.0 * b then
    let d := h - b
    a * (2.0 * d - a) + (d - 2.0 * (a - b)) * d
  else
    let d := h - a
    2.0 * d * (a - 2.0 * b) + ((4.0 * d - b) * b + d * d)

/-- The rounded root of `a² + b²`, improved by one step of Newton's method. -/
def rootOfSquares (a b : Float) : Float :=
  let h := (a * a + b * b).sqrt
  h - squareExcess h a b / (2.0 * h)

/-- Both sides are scaled by the same power of two where a square would leave the range. A side
below `2^-54` of the other one changes nothing but the rounding. -/
def hypot (x y : Float) : Float :=
  let x := x.abs
  let y := y.abs
  if x.isInf || y.isInf then infinity
  else if x.isNaN || y.isNaN then nan
  else
    let a := if x < y then y else x
    let b := if x < y then x else y
    if b * twoPow 54 ≤ a then a + b
    else
      let k := if twoPow 511 < a then -600 else if b < twoPow (-459) then 600 else 0
      rootOfSquares (a * twoPow k) (b * twoPow k) * twoPow (-k)

/-- The whole part, confined to `[-2^bits, 2^bits)` for at most 63 bits. -/
def wholePart (bits : Nat) (x : Float) : Int :=
  let limit : Nat := 1 <<< bits
  if x < 0.0 then -(min (-x).toUInt64.toNat limit : Nat)
  else (min x.toUInt64.toNat (limit - 1) : Nat)

instance : Scalar Float where
  decLt := inferInstance
  decLe := inferInstance
  finite := Float.isFinite
  ofInt := ofInt
  abs := Float.abs
  round := roundHalfAway
  ceil := ceil
  toUInt32 := Float.toUInt32
  toUInt64 := Float.toUInt64
  toInt32 x := Int32.ofInt (wholePart 31 x)
  toInt64 x := Int64.ofInt (wholePart 63 x)
  rem := rem
  twoPow := twoPow
  single := single
  pi := 3.141592653589793
  sin := Float.sin
  cos := Float.cos
  acos := Float.acos
  exp := Float.exp
  log := Float.log
  atan2 := Float.atan2
  hypot := hypot

end ImpedanceBench.Double
