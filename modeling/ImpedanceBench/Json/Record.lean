import ImpedanceBench.Json.Basic

/-!
JSON forms of records. One table of fields serves reading and writing: an object gives each field
by name in any order, an array gives the first fields in the order of the table.
-/

namespace ImpedanceBench.Json

/-- The JSON form of a type. -/
structure Codec (β : Type) where
  read : Json → Option β
  write : β → Json

namespace Codec

def bool : Codec Bool where
  read
    | .bool b => some b
    | _ => none
  write := .bool

/-- Integers are read as numbers too. Numbers that are not finite are written as null. -/
def real : Codec Float where
  read
    | .integer n => some (Float.ofInt n)
    | .real x => some x
    | _ => none
  write x := if x.isFinite then .real x else .null

/-- Integers between two bounds; a number with a point or an exponent is none of them. -/
def bounded {β : Type} (lo hi : Int) (ofInt : Int → β) (toInt : β → Int) : Codec β where
  read
    | .integer n => if lo ≤ n ∧ n ≤ hi then some (ofInt n) else none
    | _ => none
  write b := .integer (toInt b)

def uint32 : Codec UInt32 := bounded 0 4294967295 (fun n => UInt32.ofNat n.toNat) (fun w => w.toNat)

def uint64 : Codec UInt64 :=
  bounded 0 18446744073709551615 (fun n => UInt64.ofNat n.toNat) (fun w => w.toNat)

def int32 : Codec Int32 := bounded (-2147483648) 2147483647 Int32.ofInt Int32.toInt

def int64 : Codec Int64 :=
  bounded (-9223372036854775808) 9223372036854775807 Int64.ofInt Int64.toInt

/-- Null stands for an absent value. -/
def optional {β : Type} (c : Codec β) : Codec (Option β) where
  read
    | .null => some none
    | v => (c.read v).map some
  write
    | none => .null
    | some b => c.write b

def list {β : Type} (c : Codec β) : Codec (List β) where
  read
    | .array vs => vs.mapM c.read
    | _ => none
  write bs := .array (bs.map c.write)

/-- One of some named values: its name, or an object with that name alone and null. -/
def choice {β : Type} (values : List β) (name : β → String) : Codec β where
  read
    | .string s => values.find? (name · == s)
    | .object [(s, .null)] => values.find? (name · == s)
    | _ => none
  write b := .string (name b)

end Codec

/-- A named field of a record `σ`: how its JSON value is put into a record and taken from one. -/
structure Field (σ : Type) where
  name : String
  put : Json → σ → Option σ
  get : σ → Json

def Codec.field {σ β : Type} (c : Codec β) (name : String) (get : σ → β) (set : β → σ → σ) :
    Field σ where
  name := name
  put v r := (c.read v).map (set · r)
  get r := c.write (get r)

/-- The fields of a record in order, over a record that holds what is not given. -/
structure Record (σ : Type) where
  base : σ
  fields : List (Field σ)
  /-- Every field must be given. -/
  complete : Bool

namespace Record

variable {σ : Type}

/-- The field from the member of its name. No more than one may have it. -/
def putMember (shape : Record σ) (members : List (String × Json)) (r : σ) (f : Field σ) : Option σ :=
  if 1 < members.countP (·.1 == f.name) then none
  else
    match (Json.object members).member? f.name with
    | none => if shape.complete then none else some r
    | some v => f.put v r

def read (shape : Record σ) : Json → Option σ
  | .object members => shape.fields.foldlM (shape.putMember members) shape.base
  | .array vs =>
    if vs.length = shape.fields.length ∨ (vs.length < shape.fields.length ∧ !shape.complete) then
      (shape.fields.zip vs).foldlM (fun r (f, v) => f.put v r) shape.base
    else none
  | _ => none

def write (shape : Record σ) (r : σ) : Json := .object (shape.fields.map fun f => (f.name, f.get r))

def codec (shape : Record σ) : Codec σ := ⟨shape.read, shape.write⟩

end Record

end ImpedanceBench.Json
