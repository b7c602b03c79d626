import HostedTests.Clock.Date
import HostedTests.Clock.TimeSpan

namespace HostedTests.Clock

/-- A time of day. The second 60 is a leap second. -/
structure Time where
  hour : Nat
  minute : Nat
  second : Nat
  nanos : Nat
  valid : hour < 24 ∧ minute < 60 ∧ second ≤ 60 ∧ nanos < 1000000000
  deriving DecidableEq

structure Instant where
  date : Date
  time : Time
  deriving DecidableEq

structure Offset where
  minutes : Int
  valid : -1440 < minutes ∧ minutes < 1440
  deriving DecidableEq

namespace Time

def of? (hour minute second nanos : Nat) : Option Time :=
  if h : hour < 24 ∧ minute < 60 ∧ second ≤ 60 ∧ nanos < 1000000000 then
    some ⟨hour, minute, second, nanos, h⟩
  else none

def minuteOfDay (t : Time) : Nat := t.hour * 60 + t.minute

theorem minuteOfDay_lt (t : Time) : t.minuteOfDay < 1440 := by
  have := t.valid
  simp only [minuteOfDay]
  omega

def atMinute (t : Time) (minute : Nat) (h : minute < 1440) : Time where
  hour := minute / 60
  minute := minute % 60
  second := t.second
  nanos := t.nanos
  valid := ⟨by omega, by omega, t.valid.2.2⟩

def midnight : Time := ⟨0, 0, 0, 0, by decide⟩

def nanosOfDay (t : Time) : Nat := (t.minuteOfDay * 60 + t.second) * 1000000000 + t.nanos

end Time

namespace Instant

def ofLocal? (date : Date) (time : Time) (offset : Offset) : Option Instant :=
  let minute : Int := time.minuteOfDay - offset.minutes
  if h : minute < 0 then
    date.previous?.map fun d =>
      ⟨d, time.atMinute (minute + 1440).toNat (by have := offset.valid; omega)⟩
  else if h' : 1440 ≤ minute then
    date.next?.map fun d =>
      ⟨d, time.atMinute (minute - 1440).toNat (by
        have := offset.valid
        have := time.minuteOfDay_lt
        omega)⟩
  else some ⟨date, time.atMinute minute.toNat (by omega)⟩

def totalNanos (i : Instant) : Int :=
  i.date.number * (86400 * 1000000000) + i.time.nanosOfDay

def since (later earlier : Instant) : TimeSpan :=
  (TimeSpan.ofNanos? (later.totalNanos - earlier.totalNanos)).getD .zero

def yearText (year : Int) : List Char :=
  if 0 ≤ year ∧ year ≤ 9999 then Text.padded 4 year.toNat
  else (if year < 0 then '-' else '+') :: Text.padded 4 year.natAbs

def fractionText (nanos : Nat) : List Char :=
  if nanos = 0 then []
  else if nanos % 1000000 = 0 then '.' :: Text.padded 3 (nanos / 1000000)
  else if nanos % 1000 = 0 then '.' :: Text.padded 6 (nanos / 1000)
  else '.' :: Text.padded 9 nanos

def render (i : Instant) : List Char :=
  yearText i.date.year ++ '-' :: Text.padded 2 i.date.month ++ '-' :: Text.padded 2 i.date.day ++
    'T' :: Text.padded 2 i.time.hour ++ ':' :: Text.padded 2 i.time.minute ++
    ':' :: Text.padded 2 i.time.second ++ fractionText i.time.nanos ++ ['Z']

def format (i : Instant) : String := String.ofList i.render

def epoch : Instant := ⟨⟨1970, 1, 1, by decide⟩, Time.midnight⟩

instance : Inhabited Instant := ⟨epoch⟩

end Instant

/-- What the clocks of a machine show when they are read: the time of day, never in a leap second,
and how long a clock has run that only goes forward. -/
structure Reading where
  wall : Instant
  steady : TimeSpan
  ordinary : wall.time.second < 60 := by decide
  deriving DecidableEq

namespace Reading

def epoch : Reading := { wall := .epoch, steady := .zero }

instance : Inhabited Reading := ⟨epoch⟩

end Reading

end HostedTests.Clock
