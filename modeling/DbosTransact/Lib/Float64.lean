import Mathlib.Algebra.Order.Ring.Unbundled.Rat
import Mathlib.Data.Rat.Floor

/-!
# Numbers that pass through a 64-bit float

A finite float is the rational number it stands for. `ofRat` is the nearest float (ties to even, with
53 bits and the subnormal range), and `shortest` the decimal with the fewest digits among those that are
read back as it.
-/

namespace Float64

def roundEven (q : ℚ) : ℤ :=
  let f := q.floor
  if q - f < 1 / 2 then f else if 1 / 2 < q - f then f + 1 else if f % 2 = 0 then f else f + 1

def power (base : ℕ) (e : ℤ) : ℚ := if 0 ≤ e then (base ^ e.toNat : ℕ) else 1 / (base ^ (-e).toNat : ℕ)

def exponent (q : ℚ) : ℤ :=
  let e : ℤ := q.num.natAbs.log2 - q.den.log2
  if |q| < power 2 e then e - 1 else e

def unit (q : ℚ) : ℚ := power 2 (max (exponent q - 52) (-1074))

/-- The nearest float; `none` if the number is out of range. -/
def ofRat (q : ℚ) : Option ℚ :=
  let d := roundEven (q / unit q) * unit q
  if |d| < power 2 1024 then some d else none

/-- The decimals next to a float with the given power of ten as their last place, nearest first. -/
def neighbours (d : ℚ) (place : ℤ) : List ℚ :=
  let low := (d / power 10 place).floor * power 10 place
  let high := low + power 10 place
  if d - low ≤ high - d then [low, high] else [high, low]

/-- The first decimal that is read back as the float, on finer and finer grids. -/
def search (d : ℚ) : ℕ → ℤ → ℚ
  | 0, _ => d
  | fuel + 1, place =>
    match (neighbours d place).find? fun c => ofRat c = some d with
    | some c => c
    | none => search d fuel (place - 1)

def shortest (d : ℚ) : ℚ :=
  let place := max (exponent d) 0
  search d (place.toNat + 1100) place

def roundTrip (q : ℚ) : Option ℚ := (ofRat q).map shortest

example : roundTrip 9007199254740993 = some 9007199254740992 := by decide +kernel

example : roundTrip (1 / 10) = some (1 / 10) := by decide +kernel

end Float64
