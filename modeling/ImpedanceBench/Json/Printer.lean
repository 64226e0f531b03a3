import ImpedanceBench.Json.Basic
import ImpedanceBench.Number.Decimal

/-!
Writing JSON, one item or member a line, two blanks deeper than what holds it. A number that is
not finite has no JSON form and is written as null.
-/

namespace ImpedanceBench.Json

def escape (c : Char) : String :=
  match c with
  | '"' => "\\\""
  | '\\' => "\\\\"
  | '\x08' => "\\b"
  | '\x0c' => "\\f"
  | '\n' => "\\n"
  | '\r' => "\\r"
  | '\t' => "\\t"
  | c =>
    if c.toNat < 32 then
      "\\u00" ++ (if c.toNat < 16 then "0" else "1") ++ String.ofList [Nat.digitChar (c.toNat % 16)]
    else String.ofList [c]

def quoted (s : String) : String := "\"" ++ String.join (s.toList.map escape) ++ "\""

def numberText (x : Float) : String :=
  if x.isFinite then Decimal.Style.file.text x else "null"

/-- Lines between two brackets, the inner ones at a deeper margin. -/
def bracketed (opening closing margin : String) (lines : List String) : String :=
  if lines.isEmpty then opening ++ closing
  else
    let inner := margin ++ "  "
    opening ++ "\n" ++ String.intercalate ",\n" (lines.map (inner ++ ·)) ++ "\n" ++ margin ++ closing

mutual

/-- The text of a value whose closing bracket stands at `margin`. -/
def prettyAt (margin : String) : Json → String
  | null => "null"
  | bool true => "true"
  | bool false => "false"
  | integer n => toString n
  | real x => numberText x
  | string s => quoted s
  | array vs => bracketed "[" "]" margin (prettyItems (margin ++ "  ") vs)
  | object ms => bracketed "\x7b" "\x7d" margin (prettyMembers (margin ++ "  ") ms)
  | unreadable => "null"

def prettyItems (margin : String) : List Json → List String
  | [] => []
  | v :: vs => prettyAt margin v :: prettyItems margin vs

def prettyMembers (margin : String) : List (String × Json) → List String
  | [] => []
  | (name, v) :: ms => (quoted name ++ ": " ++ prettyAt margin v) :: prettyMembers margin ms

end

def pretty (v : Json) : String := prettyAt "" v

end ImpedanceBench.Json
