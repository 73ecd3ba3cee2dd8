import Mathlib.Data.Int.Order.Basic
import OcorRuntime.Base.Errors
import OcorRuntime.Foundations.Numbers

/-! Date-times. A `DateTime` is what a caller may pass: a wall-clock reading in
microseconds, with or without a defined UTC offset. Aware date-times compare and
equal as UTC instants, so what the runtime stores is the instant. -/
namespace OcorRuntime
set_option autoImplicit false

/-- Microseconds since the epoch, UTC. -/
abbrev Instant := ℤ

abbrev Duration := ℤ

inductive Zone
  /-- No `tzinfo`. -/
  | naive
  /-- A `tzinfo` whose `utcoffset()` is `None`. -/
  | undefined
  | offset (microseconds : ℤ)
deriving DecidableEq

structure DateTime where
  wall : ℤ
  zone : Zone
deriving DecidableEq

def DateTime.utc (t : Instant) : DateTime := ⟨t, .offset 0⟩

/-- `require_aware`. -/
def requireAware (instant : DateTime) (field : String) : Except PyError Instant :=
  match instant.zone with
  | .naive => .error ⟨.temporalGuardViolation, field ++ " must be timezone-aware", []⟩
  | .undefined => .error ⟨.temporalGuardViolation, field ++ " must have a defined UTC offset", []⟩
  | .offset o => .ok (instant.wall - o)

@[simp] theorem requireAware_utc (t : Instant) (field : String) : requireAware (.utc t) field = .ok t := by
  simp [requireAware, DateTime.utc]

def DateTime.Aware (d : DateTime) : Prop :=
  match d.zone with
  | .offset _ => True
  | .naive | .undefined => False

instance : (d : DateTime) → Decidable d.Aware
  | ⟨_, .offset _⟩ => isTrue trivial
  | ⟨_, .naive⟩ => isFalse id
  | ⟨_, .undefined⟩ => isFalse id

/-- What an aware date-time compares by. -/
def DateTime.instant (d : DateTime) : Instant :=
  match d.zone with
  | .offset o => d.wall - o
  | .naive | .undefined => d.wall

theorem requireAware_eq_ok {d : DateTime} {field : String} {t : Instant} :
    requireAware d field = .ok t ↔ d.Aware ∧ d.instant = t := by
  unfold requireAware DateTime.Aware DateTime.instant
  cases d.zone <;> simp

/-- The wall-clock readings of the years 1 to 9999. -/
def minWall : ℤ := -62135596800000000
def maxWall : ℤ := 253402300799999999

/-- `datetime + timedelta`. -/
def DateTime.add (d : DateTime) (delta : Duration) : Except PyError DateTime :=
  if minWall ≤ d.wall + delta ∧ d.wall + delta ≤ maxWall then .ok { d with wall := d.wall + delta }
  else .error ⟨.overflowError, "date value out of range", []⟩

/-! ## Texts

Dates are proleptic Gregorian; the civil date of a day number is found from 400-year eras whose years begin in March,
so that the leap day is the last of its year. -/

/-- The decimal text of `n`, filled with zeros to `width` digits. -/
def padded (width n : ℕ) : PyStr :=
  List.replicate (width - (natText n).length) (digitChar 0) ++ natText n

/-- Year, month and day of a day number counted from 1970-01-01. -/
def civil (days : ℤ) : ℤ × ℕ × ℕ :=
  let z := days + 719468
  let era := z / 146097
  let dayOfEra := (z - era * 146097).toNat
  let yearOfEra := (dayOfEra - dayOfEra / 1460 + dayOfEra / 36524 - dayOfEra / 146096) / 365
  let dayOfYear := dayOfEra - (365 * yearOfEra + yearOfEra / 4 - yearOfEra / 100)
  let shifted := (5 * dayOfYear + 2) / 153
  let day := dayOfYear - (153 * shifted + 2) / 5 + 1
  let month := if shifted < 10 then shifted + 3 else shifted - 9
  let year := (yearOfEra : ℤ) + era * 400
  (if month ≤ 2 then year + 1 else year, month, day)

def microsecondsPerDay : ℤ := 86400000000

def dateText (wall : ℤ) : PyStr :=
  let (year, month, day) := civil (wall / microsecondsPerDay)
  padded 4 year.toNat ++ py "-" ++ padded 2 month ++ py "-" ++ padded 2 day

/-- `strftime("%Y-%m-%d")`; the C library does not fill the year with zeros. -/
def strftimeDate (wall : ℤ) : PyStr :=
  let (year, month, day) := civil (wall / microsecondsPerDay)
  natText year.toNat ++ py "-" ++ padded 2 month ++ py "-" ++ padded 2 day

/-- `HH:MM:SS`, of the time of day. -/
def clockText (wall : ℤ) : PyStr :=
  let second := (wall % microsecondsPerDay / 1000000).toNat
  padded 2 (second / 3600) ++ py ":" ++ padded 2 (second / 60 % 60) ++ py ":" ++ padded 2 (second % 60)

def fractionText (wall : ℤ) : PyStr :=
  let microsecond := (wall % 1000000).toNat
  if microsecond = 0 then [] else py "." ++ padded 6 microsecond

/-- `+HH:MM`, with the seconds and microseconds of the offset only where it has any. -/
def offsetText (offset : ℤ) : PyStr :=
  let total := offset.natAbs
  let seconds := total / 1000000
  (if offset < 0 then py "-" else py "+") ++ padded 2 (seconds / 3600) ++ py ":" ++ padded 2 (seconds / 60 % 60) ++
    (if total % 60000000 = 0 then [] else py ":" ++ padded 2 (seconds % 60)) ++ fractionText total

def DateTime.isoformat (d : DateTime) : PyStr :=
  dateText d.wall ++ py "T" ++ clockText d.wall ++ fractionText d.wall ++
    match d.zone with
    | .offset o => offsetText o
    | .naive | .undefined => []

/-- `format_utc_timestamp`: the shortest microsecond form. -/
def formatUtcTimestamp (t : Instant) : PyStr :=
  strftimeDate t ++ py "T" ++ clockText t ++ ((fractionText t).reverse.dropWhile (· = digitChar 0)).reverse ++ py "Z"

example : formatUtcTimestamp 951827696500000 = py "2000-02-29T12:34:56.5Z" := by decide

example : (DateTime.mk 951827696000001 (.offset (-12600000000))).isoformat =
    py "2000-02-29T12:34:56.000001-03:30" := by decide

end OcorRuntime
