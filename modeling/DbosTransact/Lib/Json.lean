import DbosTransact.Lib.Float64

/-!
# JSON values

Numbers are exact, and the fields of an object are in the order of the database. `roundTrip` is a value read
into untyped variables, whose numbers are 64-bit floats, and written again.
-/

inductive Json
  | null
  | bool (b : Bool)
  | number (q : ℚ)
  | string (s : String)
  | array (items : List Json)
  | object (fields : List (String × Json))

namespace Json

mutual

def roundTrip : Json → Option Json
  | .null => some .null
  | .bool b => some (.bool b)
  | .number q => (Float64.roundTrip q).map .number
  | .string s => some (.string s)
  | .array items => (roundTripItems items).map .array
  | .object fields => (roundTripFields fields).map .object

def roundTripItems : List Json → Option (List Json)
  | [] => some []
  | j :: items => (roundTrip j).bind fun j => (roundTripItems items).map (j :: ·)

def roundTripFields : List (String × Json) → Option (List (String × Json))
  | [] => some []
  | (name, j) :: fields => (roundTrip j).bind fun j => (roundTripFields fields).map ((name, j) :: ·)

end

/-- A value read into a map, and written again: `none` is an error, and an empty map is written as no
value at all. -/
def roundTripMap : Option Json → Option (Option Json)
  | none | some .null => some none
  | some (.object fields) =>
    (roundTripFields fields).map fun fields => if fields.isEmpty then none else some (.object fields)
  | some _ => none

end Json
