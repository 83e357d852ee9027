import Mathlib.Algebra.Order.Group.Unbundled.Int
import Mathlib.Tactic.Common

/-!
# Instants, time zones and recurring ticks

An instant is a number of nanoseconds since the epoch; a time is an instant together with the time zone in
which it is shown. `Cron` is a set of instants, the ticks, with the first one after any instant.
-/

namespace Calendar

def second : ℤ := 1000000000

structure Zone where
  offset : ℤ → ℤ

namespace Zone

def fixed (offset : ℤ) : Zone := ⟨fun _ => offset⟩

def utc : Zone := fixed 0

end Zone

structure Time where
  instant : ℤ
  zone : Zone

/-! ### RFC 3339 -/

def appendInt (x : ℤ) (width : ℕ) : String :=
  let digits := Nat.repr x.natAbs
  (if x < 0 then "-" else "") ++ "".pushn '0' (width - digits.length) ++ digits

/-- Year, month and day of a day counted from the epoch. The years begin in March, so that the leap day
is the last one, and are grouped into the 400 years of 146097 days after which the calendar repeats. -/
def date (day : ℤ) : ℤ × ℤ × ℤ :=
  let shifted := day + 719468
  let era := shifted / 146097
  let dayOfEra := shifted % 146097
  let yearOfEra := (dayOfEra - dayOfEra / 1460 + dayOfEra / 36524 - dayOfEra / 146096) / 365
  let dayOfYear := dayOfEra - (365 * yearOfEra + yearOfEra / 4 - yearOfEra / 100)
  let month := (5 * dayOfYear + 2) / 153
  (yearOfEra + era * 400 + (if 10 ≤ month then 1 else 0),
    if month < 10 then month + 3 else month - 9,
    dayOfYear - (153 * month + 2) / 5 + 1)

def offsetSuffix (offset : ℤ) : String :=
  if offset = 0 then "Z"
  else
    let minutes := offset.tdiv 60
    (if minutes < 0 then "-" else "+") ++ appendInt (minutes.natAbs / 60 : ℕ) 2 ++ ":" ++
      appendInt (minutes.natAbs % 60 : ℕ) 2

def rfc3339 (instant offset : ℤ) : String :=
  let seconds := instant / second + offset
  let (year, month, day) := date (seconds / 86400)
  let ofDay := seconds % 86400
  appendInt year 4 ++ "-" ++ appendInt month 2 ++ "-" ++ appendInt day 2 ++ "T" ++
    appendInt (ofDay / 3600) 2 ++ ":" ++ appendInt (ofDay % 3600 / 60) 2 ++ ":" ++ appendInt (ofDay % 60) 2 ++
    offsetSuffix offset

def Time.format (t : Time) : String := rfc3339 t.instant (t.zone.offset t.instant)

example : Time.format ⟨951782400 * second, .fixed 3600⟩ = "2000-02-29T01:00:00+01:00" := by decide +kernel

example : Time.format ⟨-1, .fixed (-12600)⟩ = "1969-12-31T20:29:59-03:30" := by decide +kernel

/-! ### Recurring ticks -/

structure Cron where
  tick : ℤ → Prop
  next : ℤ → ℤ
  lt_next : ∀ t, t < next t
  tick_next : ∀ t, tick (next t)
  next_le : ∀ t u, t < u → tick u → next t ≤ u

namespace Cron

variable (c : Cron)

/-- The ticks from a given one on, up to an instant; every round takes one unit of fuel. -/
def ticksFrom (stop : ℤ) : ℕ → ℤ → List ℤ
  | 0, _ => []
  | fuel + 1, t => if t < stop then t :: ticksFrom stop fuel (c.next t) else []

/-- The ticks after `start` and before `stop`. -/
def between (start stop : ℤ) : List ℤ := c.ticksFrom stop (stop - c.next start).toNat (c.next start)

theorem mem_ticksFrom {stop u : ℤ} {fuel : ℕ} {t : ℤ} (ht : c.tick t) (hfuel : (stop - t).toNat ≤ fuel) :
    u ∈ c.ticksFrom stop fuel t ↔ c.tick u ∧ t ≤ u ∧ u < stop := by
  induction fuel generalizing t with
  | zero =>
    simp only [ticksFrom, List.not_mem_nil, false_iff]
    omega
  | succ fuel ih =>
    have hnext := c.lt_next t
    rw [ticksFrom]
    split_ifs with hstop
    · rw [List.mem_cons, ih (c.tick_next t) (by omega)]
      constructor
      · rintro (rfl | ⟨hu, hle, hlt⟩)
        · exact ⟨ht, le_refl u, hstop⟩
        · exact ⟨hu, by omega, hlt⟩
      · rintro ⟨hu, hle, hlt⟩
        rcases hle.eq_or_lt with heq | hgt
        · exact .inl heq.symm
        · exact .inr ⟨hu, c.next_le t u hgt hu, hlt⟩
    · simp only [List.not_mem_nil, false_iff]
      omega

/-- **The loop takes the ticks of the open interval.** -/
theorem mem_between {start stop u : ℤ} : u ∈ c.between start stop ↔ c.tick u ∧ start < u ∧ u < stop := by
  rw [between, c.mem_ticksFrom (c.tick_next start) (le_refl _)]
  have hnext := c.lt_next start
  constructor
  · rintro ⟨hu, hle, hlt⟩
    exact ⟨hu, by omega, hlt⟩
  · rintro ⟨hu, hgt, hlt⟩
    exact ⟨hu, c.next_le start u hgt hu, hlt⟩

/-- A tick comes before the next one of an instant if and only if it is not after the instant. -/
theorem lt_next_iff {t u : ℤ} (hu : c.tick u) : u < c.next t ↔ u ≤ t := by
  have hnext := c.lt_next t
  constructor
  · intro hlt
    by_contra hgt
    have hle := c.next_le t u (by omega) hu
    omega
  · intro hle
    omega

def every (period : ℤ) (hperiod : 0 < period) : Cron where
  tick t := t % period = 0
  next t := (t / period + 1) * period
  lt_next t := Int.lt_ediv_add_one_mul_self t hperiod
  tick_next t := Int.mul_emod_left ..
  next_le t u hlt hu := by
    obtain ⟨k, rfl⟩ := Int.dvd_of_emod_eq_zero hu
    rw [Int.mul_comm period k] at hlt ⊢
    exact Int.mul_le_mul_of_nonneg_right (Int.ediv_lt_of_lt_mul hperiod hlt) hperiod.le

end Cron

end Calendar
