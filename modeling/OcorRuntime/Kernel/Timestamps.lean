import OcorRuntime.Base.Gregorian

/-! The UTC timestamps of the wire (`kernel/canonical.py`): four digits for the year, up to
six for the fraction, and `Z`. They are written as the C library writes the year, without
zeros in front. -/
namespace OcorRuntime.Kernel
set_option autoImplicit false
set_option maxHeartbeats 250000

/-- `(\.[0-9]{1,6})?Z`. -/
def isFractionEnd (text : PyStr) : Bool :=
  match text with
  | [c] => c.val == 0x5A
  | c :: rest =>
    c.val == 0x2E && rest.getLast? == some (codePoint 0x5A) && (2 ≤ rest.length && rest.length ≤ 7) &&
      rest.dropLast.all fun d => IsDigit d
  | [] => false

/-- What `UTC_TIMESTAMP` matches. -/
structure WireTime where
  year : ℕ
  month : ℕ
  day : ℕ
  hour : ℕ
  minute : ℕ
  second : ℕ
  /-- The digits after the point. -/
  fraction : PyStr

/-- `UTC_TIMESTAMP.fullmatch(value)`. -/
def matchUtcTimestamp : PyStr → Option WireTime
  | y1 :: y2 :: y3 :: y4 :: dash :: m1 :: m2 :: dash' :: d1 :: d2 :: tee :: h1 :: h2 :: colon :: n1 :: n2 :: colon' ::
      s1 :: s2 :: rest =>
    if ([y1, y2, y3, y4, m1, m2, d1, d2, h1, h2, n1, n2, s1, s2].all fun c => IsDigit c) &&
        (dash.val == 0x2D && dash'.val == 0x2D && tee.val == 0x54 && colon.val == 0x3A && colon'.val == 0x3A) &&
        isFractionEnd rest then
      some ⟨digitsValue [y1, y2, y3, y4], digitsValue [m1, m2], digitsValue [d1, d2], digitsValue [h1, h2],
        digitsValue [n1, n2], digitsValue [s1, s2], rest.tail.dropLast⟩
    else none
  | _ => none

namespace WireTime

/-- What `datetime` requires of its fields. -/
def Valid (w : WireTime) : Prop :=
  (1 ≤ w.year ∧ w.year ≤ 9999) ∧ (1 ≤ w.month ∧ w.month ≤ 12) ∧ (1 ≤ w.day ∧ w.day ≤ daysInMonth w.year w.month) ∧
    w.hour ≤ 23 ∧ w.minute ≤ 59 ∧ w.second ≤ 59

instance (w : WireTime) : Decidable w.Valid := inferInstanceAs (Decidable (_ ∧ _ ∧ _ ∧ _ ∧ _ ∧ _))

def microsecond (w : WireTime) : ℕ := digitsValue (w.fraction ++ List.replicate (6 - w.fraction.length) (digitChar 0))

def instant (w : WireTime) : Instant :=
  dayNumber w.year w.month w.day * microsecondsPerDay + (w.hour * 3600 + w.minute * 60 + w.second : ℕ) * 1000000 +
    w.microsecond

end WireTime

def timestampError (message : String) : PyError := ⟨.timestampError, message, []⟩

/-- `parse_utc_timestamp`; the date-time is in UTC, so its instant is all there is to it. -/
def parseUtcTimestamp (value : PyStr) : Except PyError Instant := do
  let w ← orRaise (matchUtcTimestamp value) (timestampError "timestamp must be canonical RFC 3339 UTC with Z suffix")
  refuseIf (¬ w.Valid) (timestampError "invalid UTC timestamp")
  return w.instant

/-- `format_utc_timestamp`; a date-time that leaves the calendar on its way to UTC overflows. -/
def formatUtc (d : DateTime) : Except PyError PyStr := do
  refuseIf (¬ d.Aware) (timestampError "naive datetime is forbidden at a UTC boundary")
  refuseIf (¬ (minWall ≤ d.instant ∧ d.instant ≤ maxWall)) ⟨.overflowError, "date value out of range", []⟩
  return formatUtcTimestamp d.instant

/-- Whether `parse_utc_timestamp` takes the text. -/
def isUtcTimestamp : PyStr → Bool
  | y1 :: y2 :: y3 :: y4 :: dash :: m1 :: m2 :: dash' :: d1 :: d2 :: tee :: h1 :: h2 :: colon :: n1 :: n2 :: colon' ::
      s1 :: s2 :: rest =>
    let number (digits : PyStr) : ℕ := digitsValue digits
    ([y1, y2, y3, y4, m1, m2, d1, d2, h1, h2, n1, n2, s1, s2].all fun c => IsDigit c) &&
      (dash.val == 0x2D && dash'.val == 0x2D && tee.val == 0x54 && colon.val == 0x3A && colon'.val == 0x3A) &&
      isFractionEnd rest && 1 ≤ number [y1, y2, y3, y4] && (1 ≤ number [m1, m2] && number [m1, m2] ≤ 12) &&
      (1 ≤ number [d1, d2] && number [d1, d2] ≤ daysInMonth (number [y1, y2, y3, y4]) (number [m1, m2])) &&
      number [h1, h2] ≤ 23 && number [n1, n2] ≤ 59 && number [s1, s2] ≤ 59
  | _ => false

example : isUtcTimestamp (py "2024-02-29T23:59:59.5Z") = true ∧ isUtcTimestamp (py "2023-02-29T00:00:00Z") = false := by
  decide

example : parseUtcTimestamp (py "2000-02-29T12:34:56.5Z") = .ok 951827696500000 := by decide

end OcorRuntime.Kernel
