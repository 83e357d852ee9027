import Mathlib.Tactic.Common

/-!
# Times

Readings of the clock are in nanoseconds, times in the database in milliseconds.
-/

namespace Dbos.Time

/-- `UnixMilli` of a time. -/
def unixMilli (t : Int) : Int := t / 1000000

/-- `time.UnixMilli`. -/
def ofUnixMilli (ms : Int) : Int := ms * 1000000

theorem ofUnixMilli_unixMilli_le (t : Int) : ofUnixMilli (unixMilli t) ≤ t := by
  unfold ofUnixMilli unixMilli
  omega

end Dbos.Time
