import ImpedanceBench.Json.Numeral

/-!
Reading JSON, without any leniency: one value, blanks around it, no comments, no trailing commas,
no leading zeros, no raw control characters.
-/

namespace ImpedanceBench.Json.Parser

def isBlank (c : Char) : Bool := c == ' ' || c == '\t' || c == '\n' || c == '\r'

def skipBlanks (cs : List Char) : List Char := cs.dropWhile isBlank

/-! Strings. -/

/-- A string literal read so far, last character first; `high` is the first half of a surrogate
pair that waits for the second. -/
structure Literal where
  chars : List Char
  high : Option Nat
  readable : Bool

namespace Literal

def empty : Literal := ⟨[], none, true⟩

def add (l : Literal) (c : Char) : Literal := ⟨c :: l.chars, none, l.readable && l.high.isNone⟩

/-- Adds the character or the half of a surrogate pair that an escape names. -/
def addUnit (l : Literal) (u : Nat) : Literal :=
  if 0xD800 ≤ u ∧ u < 0xDC00 then ⟨l.chars, some u, l.readable && l.high.isNone⟩
  else if 0xDC00 ≤ u ∧ u < 0xE000 then
    match l.high with
    | some h => ⟨Char.ofNat (0x10000 + (h - 0xD800) * 0x400 + (u - 0xDC00)) :: l.chars, none, l.readable⟩
    | none => { l with readable := false }
  else l.add (Char.ofNat u)

def value? (l : Literal) : Option String :=
  if l.readable && l.high.isNone then some (String.ofList l.chars.reverse) else none

end Literal

def hexDigit? (c : Char) : Option Nat :=
  if '0' ≤ c ∧ c ≤ '9' then some (c.toNat - 48)
  else if 'a' ≤ c ∧ c ≤ 'f' then some (c.toNat - 87)
  else if 'A' ≤ c ∧ c ≤ 'F' then some (c.toNat - 55)
  else none

def unit? (a b c d : Char) : Option Nat := do
  return (((← hexDigit? a) * 16 + (← hexDigit? b)) * 16 + (← hexDigit? c)) * 16 + (← hexDigit? d)

def escaped? : Char → Option Char
  | '"' => some '"'
  | '\\' => some '\\'
  | '/' => some '/'
  | 'b' => some '\x08'
  | 'f' => some '\x0c'
  | 'n' => some '\n'
  | 'r' => some '\r'
  | 't' => some '\t'
  | _ => none

/-- Reads up to the closing quote; the text is `none` when the literal is not readable. -/
def literal (l : Literal) : List Char → Option (Option String × List Char)
  | '"' :: rest => some (l.value?, rest)
  | '\\' :: 'u' :: a :: b :: c :: d :: rest =>
    match unit? a b c d with
    | some u => literal (l.addUnit u) rest
    | none => none
  | '\\' :: c :: rest =>
    match escaped? c with
    | some e => literal (l.add e) rest
    | none => none
  | c :: rest => if c.toNat < 32 ∨ c = '\\' then none else literal (l.add c) rest
  | [] => none

/-! Values. The first argument bounds the steps; every step consumes a character. -/

def pair (members : Option (List (String × Json))) (name : Option String) (v : Json) :
    Option (List (String × Json)) :=
  match members, name with
  | some ms, some n => some ((n, v) :: ms)
  | _, _ => none

def closed : Option (List (String × Json)) → Json
  | some ms => object ms.reverse
  | none => unreadable

mutual

def value : Nat → List Char → Option (Json × List Char)
  | 0, _ => none
  | steps + 1, cs => match skipBlanks cs with
    | 'n' :: 'u' :: 'l' :: 'l' :: rest => some (null, rest)
    | 't' :: 'r' :: 'u' :: 'e' :: rest => some (bool true, rest)
    | 'f' :: 'a' :: 'l' :: 's' :: 'e' :: rest => some (bool false, rest)
    | '"' :: rest => (literal .empty rest).map fun (s, rest) => ((s.map string).getD unreadable, rest)
    | '[' :: rest => match skipBlanks rest with
      | ']' :: rest => some (array [], rest)
      | rest => items steps [] rest
    | '{' :: rest => match skipBlanks rest with
      | '}' :: rest => some (object [], rest)
      | rest => members steps (some []) rest
    | rest => (Numeral.read rest).map fun (n, rest) => (n.value, rest)

/-- The items of an array after those found so far, last first. -/
def items : Nat → List Json → List Char → Option (Json × List Char)
  | 0, _, _ => none
  | steps + 1, found, cs => match value steps cs with
    | none => none
    | some (v, rest) => match skipBlanks rest with
      | ',' :: rest => items steps (v :: found) rest
      | ']' :: rest => some (array (v :: found).reverse, rest)
      | _ => none

/-- The members of an object after those found so far, last first. -/
def members : Nat → Option (List (String × Json)) → List Char → Option (Json × List Char)
  | 0, _, _ => none
  | steps + 1, found, cs => match skipBlanks cs with
    | '"' :: rest => match literal .empty rest with
      | none => none
      | some (name, rest) => match skipBlanks rest with
        | ':' :: rest => match value steps rest with
          | none => none
          | some (v, rest) => match skipBlanks rest with
            | ',' :: rest => members steps (pair found name v) rest
            | '}' :: rest => some (closed (pair found name v), rest)
            | _ => none
        | _ => none
    | _ => none

end

end Parser

/-- The value of a text that is one JSON value, with blanks around it. -/
def parse? (text : String) : Option Json :=
  let cs := text.toList
  match Parser.value (cs.length + 1) cs with
  | some (v, rest) => if (Parser.skipBlanks rest).isEmpty then some v else none
  | none => none

end ImpedanceBench.Json
