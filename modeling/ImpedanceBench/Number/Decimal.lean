import ImpedanceBench.Number.Double

/-!
Decimal digits of doubles. The value of a double is an exact quotient of whole numbers; it is
rounded once, to a fixed number of places or of significant digits, or to the fewest digits that
only this double is nearest to.
-/

namespace ImpedanceBench.Decimal

/-- The quotient rounded to the nearest whole number; a half goes to the even neighbour. -/
def divHalfEven (num den : Nat) : Nat :=
  let q := num / den
  let r := num % den
  if 2 * r < den then q else if den < 2 * r then q + 1 else q + q % 2

def tenTo (k : Nat) : Nat := Nat.pow 10 k

/-- A positive number as a quotient of whole numbers. -/
structure Ratio where
  num : Nat
  den : Nat

namespace Ratio

/-- The number `m · 2^e`. -/
def ofBinary (m : Nat) (e : Int) : Ratio := ⟨m <<< e.toNat, 1 <<< (-e).toNat⟩

/-- The number times `10^k`. -/
def shift (r : Ratio) (k : Int) : Ratio := ⟨r.num * tenTo k.toNat, r.den * tenTo (-k).toNat⟩

/-- The number is at least `10^k`. -/
def reaches (r : Ratio) (k : Int) : Bool :=
  let s := r.shift (-k)
  s.den ≤ s.num

/-- The `k` with `10^k ≤ r < 10^(k+1)`. The binary lengths give it up to one. -/
def order (r : Ratio) : Int :=
  let guess := ((r.num.log2 : Int) - r.den.log2) * 1233 / 4096
  if r.reaches (guess + 1) then guess + 1 else if r.reaches guess then guess else guess - 1

end Ratio

/-- The number `digits · 10^exponent`. -/
structure Digits where
  digits : Nat
  exponent : Int

/-- `n` significant digits. -/
def significant (n : Nat) (r : Ratio) : Digits :=
  let grid := r.order - n + 1
  let s := r.shift (-grid)
  let d := divHalfEven s.num s.den
  if d = tenTo n then ⟨tenTo (n - 1), grid + 1⟩ else ⟨d, grid⟩

/-- `places` digits after the point, as a whole number of the last place. -/
def fixed (places : Nat) (r : Ratio) : Nat :=
  let s := r.shift places
  divHalfEven s.num s.den

/-- What happens to a number halfway between two candidates. -/
inductive Tie where
  | up
  | toEven

/--
The nearest number of `n` digits inside the interval of reals that round to `m · 2^e`, if there
is one. The interval ends half a step above and half a step below, where a power of two has the
smaller step of the numbers below it; the ends belong to it when `m` is even.
-/
def within? (tie : Tie) (m : Nat) (e : Int) (n : Nat) : Option Digits :=
  let grid := (Ratio.ofBinary m e).order - n + 1
  let unit := (Ratio.ofBinary 1 (e - 2)).shift (-grid)
  let value := 4 * m * unit.num
  let low := value - (if m = 0x10000000000000 ∧ e ≠ -1074 then 1 else 2) * unit.num
  let high := value + 2 * unit.num
  let inside := fun c =>
    let x := c * unit.den
    if m % 2 = 0 then low ≤ x ∧ x ≤ high else low < x ∧ x < high
  let below := value / unit.den
  let rest := value % unit.den
  let upper := match tie with
    | .up => decide (unit.den ≤ 2 * rest)
    | .toEven => decide (unit.den < 2 * rest) || (unit.den == 2 * rest && below % 2 == 1)
  let pick := fun c => some (if c = tenTo n then ⟨tenTo (n - 1), grid + 1⟩ else ⟨c, grid⟩ : Digits)
  if inside below && !(inside (below + 1) && upper) then pick below
  else if inside (below + 1) then pick (below + 1)
  else none

/-- The fewest digits that single out the double `m · 2^e`. Seventeen always do, and still leave
ties: a double may lie halfway between two of them. -/
def shortest (tie : Tie) (m : Nat) (e : Int) : Digits :=
  ((List.range' 1 17).findSome? (within? tie m e)).getD (significant 17 (Ratio.ofBinary m e))

/-! Digits as text. -/

def zeros (n : Nat) : String := String.ofList (List.replicate n '0')

/-- A whole number of the last of `places` decimal places, with its point. -/
def pointed (n places : Nat) : String :=
  let ds := (Nat.toDigits 10 n)
  let ds := List.replicate (places + 1 - ds.length) '0' ++ ds
  let cut := ds.length - places
  if places = 0 then String.ofList ds
  else String.ofList (ds.take cut) ++ "." ++ String.ofList (ds.drop cut)

/-- All digits of a number without an exponent, and no point when it is whole. -/
def Digits.positional (d : Digits) : String :=
  match d.exponent with
  | .ofNat k => toString d.digits ++ zeros k
  | .negSucc k => pointed d.digits (k + 1)

/-- The position of the point, counted from the first digit. -/
def Digits.point (d : Digits) : Int := (Nat.toDigits 10 d.digits).length + d.exponent

/-- One digit before the point, then `e` and the exponent. -/
def Digits.withExponent (d : Digits) : String :=
  let ds := Nat.toDigits 10 d.digits
  let body := pointed d.digits (ds.length - 1)
  body ++ "e" ++ toString (d.point - 1)

/-- How numbers are written: the tie between two shortest forms, which positions of the point are
written without exponent, and what follows a whole number. -/
structure Style where
  tie : Tie
  positional : Int → Bool
  afterWhole : String

/-- Numbers inside messages: every digit, no exponent. -/
def Style.message : Style := ⟨.up, fun _ => true, ""⟩

/-- Numbers in files: an exponent from `10^16` on and below `10^-5`, and whole numbers are marked
as not being integers. -/
def Style.file : Style := ⟨.toEven, fun k => -5 < k && k ≤ 16, ".0"⟩

def Style.digits (style : Style) (d : Digits) : String :=
  if style.positional d.point then
    d.positional ++ (if 0 ≤ d.exponent then style.afterWhole else "")
  else d.withExponent

def signText (negative : Bool) : String := if negative then "-" else ""

def Style.text (style : Style) (x : Float) : String :=
  match Double.parts x with
  | .undefined => "NaN"
  | .infinite negative => signText negative ++ "inf"
  | .finite negative m e =>
    signText negative ++ (if m = 0 then "0" ++ style.afterWhole else style.digits (shortest style.tie m e))

/-- A number with a fixed count of decimal places. -/
def fixedText (places : Nat) (x : Float) : String :=
  match Double.parts x with
  | .undefined => "NaN"
  | .infinite negative => signText negative ++ "inf"
  | .finite negative m e => signText negative ++ pointed (fixed places (Ratio.ofBinary m e)) places

end ImpedanceBench.Decimal
