import ImpedanceBench.Json.Basic
import ImpedanceBench.Number.Double

/-!
Numbers of JSON texts. A number is read in one pass: its leading digits are gathered into a word of
64 bits, and the word is multiplied or divided by a power of ten in double arithmetic. Each step
rounds, so that the result may be a neighbour of the double nearest to the text.
-/

namespace ImpedanceBench.Json

/-- The parts of a number as they are written. -/
structure Numeral where
  negative : Bool
  whole : List Char
  /-- The digits after the point, none without a point. -/
  fraction : List Char
  exponent : Option Int

namespace Numeral

def digits (cs : List Char) : List Char × List Char :=
  (cs.takeWhile Char.isDigit, cs.dropWhile Char.isDigit)

def digitValue (c : Char) : Nat := c.toNat - 48

/-! Grammar. -/

/-- A single zero, or digits that start with another one. -/
def readWhole : List Char → Option (List Char × List Char)
  | '0' :: rest => some (['0'], rest)
  | cs => match digits cs with
    | ([], _) => none
    | found => some found

def readFraction : List Char → Option (List Char × List Char)
  | '.' :: rest => match digits rest with
    | ([], _) => none
    | found => some found
  | cs => some ([], cs)

def readExponent (cs : List Char) : Option (Option Int × List Char) :=
  let signed := fun (negative : Bool) rest => match digits rest with
    | ([], _) => none
    | (ds, rest) =>
      let n : Int := ds.foldl (fun n c => 10 * n + digitValue c) 0
      some (some (if negative then -n else n), rest)
  match cs with
  | 'e' :: '-' :: rest | 'E' :: '-' :: rest => signed true rest
  | 'e' :: '+' :: rest | 'E' :: '+' :: rest => signed false rest
  | 'e' :: rest | 'E' :: rest => signed false rest
  | cs => some (none, cs)

def readUnsigned (negative : Bool) (cs : List Char) : Option (Numeral × List Char) := do
  let (whole, rest) ← readWhole cs
  let (fraction, rest) ← readFraction rest
  let (exponent, rest) ← readExponent rest
  return ({ negative, whole, fraction, exponent }, rest)

def read : List Char → Option (Numeral × List Char)
  | '-' :: rest => readUnsigned true rest
  | cs => readUnsigned false cs

/-! Values. -/

/-- Appends digits to a word up to the first that does not fit into 64 bits, and gives the word
and the digits that are left. -/
def gather (word : Nat) : List Char → Nat × List Char
  | [] => (word, [])
  | c :: rest =>
    if 10 * word + digitValue c < UInt64.size then gather (10 * word + digitValue c) rest
    else (word, c :: rest)

/-- The number `word · 10^exponent`. -/
structure Significand where
  word : Nat
  exponent : Int

/-- Whole digits that do not fit only move the point; what does not fit of the fraction is
dropped. -/
def significand (n : Numeral) : Significand :=
  let (word, moved) := gather 0 n.whole
  let (word, dropped) := gather word n.fraction
  ⟨word, moved.length - (n.fraction.length - dropped.length : Nat) + n.exponent.getD 0⟩

/-- The double nearest to `10^k`. -/
def powerOfTen (k : Nat) : Float := Float.ofScientific 1 false k

/-- Powers of ten up to `10^308` are doubles; a smaller number takes two divisions, after which
nothing is left below `10^-616`. -/
def Significand.magnitude (s : Significand) : Float :=
  let x := Double.ofNat s.word
  let k := s.exponent.natAbs
  if s.word = 0 then 0.0
  else if 0 ≤ s.exponent then if k ≤ 308 then x * powerOfTen k else Double.infinity
  else if k ≤ 308 then x / powerOfTen k
  else if k ≤ 616 then x / powerOfTen 308 / powerOfTen (k - 308)
  else 0.0

/-- A number without fraction and exponent is an integer when it has 64 bits; `-0` is none. -/
def integer? (n : Numeral) : Option Int :=
  if n.fraction.isEmpty && n.exponent.isNone then
    match gather 0 n.whole with
    | (word, []) =>
      if !n.negative then some word
      else if 0 < word ∧ word ≤ 9223372036854775808 then some (-word)
      else none
    | _ => none
  else none

def value (n : Numeral) : Json :=
  match n.integer? with
  | some i => integer i
  | none =>
    let x := n.significand.magnitude
    if x.isFinite then real (Double.withSign n.negative x) else unreadable

end Numeral

end ImpedanceBench.Json
