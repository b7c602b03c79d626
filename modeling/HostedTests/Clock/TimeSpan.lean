import HostedTests.Text.Blank
import HostedTests.Text.Decimal
import HostedTests.Text.Quoted

/-!
Time spans and their text `[d.]hh:mm:ss[.fffffff]`. The text counts in ticks of 100 nanoseconds, so
a span read back has lost what is finer.
-/

namespace HostedTests.Clock

structure TimeSpan where
  seconds : Nat
  nanos : Nat
  seconds_lt : seconds < 0x10000000000000000 := by decide
  nanos_lt : nanos < 1000000000 := by decide
  deriving DecidableEq

namespace TimeSpan

def zero : TimeSpan := { seconds := 0, nanos := 0 }

instance : Inhabited TimeSpan := ⟨zero⟩

def ticksPerSecond : Nat := 10000000

def nanosPerTick : Nat := 100

def ticks (t : TimeSpan) : Nat := t.nanos / nanosPerTick

def truncated (t : TimeSpan) : TimeSpan where
  seconds := t.seconds
  nanos := t.ticks * nanosPerTick
  seconds_lt := t.seconds_lt
  nanos_lt := by
    have := t.nanos_lt
    simp only [ticks, nanosPerTick]
    omega

def totalNanos (t : TimeSpan) : Int := t.seconds * 1000000000 + t.nanos

/-- The numbers in a span's text are whole numbers below this bound, as is the sum in seconds. -/
def bound : Nat := 0x10000000000000000

def ofNanos? (n : Int) : Option TimeSpan :=
  if h : 0 ≤ n ∧ n < bound * 1000000000 then
    some
      { seconds := n.toNat / 1000000000
        nanos := n.toNat % 1000000000
        seconds_lt := by
          unfold bound at h
          omega
        nanos_lt := Nat.mod_lt _ (by decide) }
  else none

/-- A span from one point on a clock to another. There is none to a point that is earlier. -/
def since (later earlier : TimeSpan) : TimeSpan :=
  (ofNanos? (later.totalNanos - earlier.totalNanos)).getD zero

def render (t : TimeSpan) : List Char :=
  let days := t.seconds / 86400
  (if 0 < days then Text.decimal days ++ ['.'] else []) ++
    Text.padded 2 (t.seconds % 86400 / 3600) ++ ':' ::
    Text.padded 2 (t.seconds % 3600 / 60) ++ ':' ::
    Text.padded 2 (t.seconds % 60) ++
    (if 0 < t.ticks then '.' :: Text.padded 7 t.ticks else [])

def format (t : TimeSpan) : String := String.ofList t.render

def word? (digits : List Char) : Option UInt64 := (Text.unsigned? bound digits).map UInt64.ofNat

def product? (a b : UInt64) : Option UInt64 :=
  if a.toNat * b.toNat < bound then some (a * b) else none

def sum? (a b : UInt64) : Option UInt64 :=
  if a.toNat + b.toNat < bound then some (a + b) else none

def fractionTicks? : Option (List Char) → Option UInt64
  | none => some 0
  | some digits =>
    if digits = [] ∨ 7 < digits.length then none
    else (word? digits).map (· * UInt64.ofNat (Nat.pow 10 (7 - digits.length)))

def nanosOf (ticks : UInt64) : UInt32 :=
  (ticks % UInt64.ofNat ticksPerSecond).toUInt32 * UInt32.ofNat nanosPerTick

theorem toNat_nanosOf (ticks : UInt64) :
    (nanosOf ticks).toNat = ticks.toNat % ticksPerSecond * nanosPerTick := by
  have hticks : (UInt64.ofNat ticksPerSecond).toNat = 10000000 := rfl
  have hnanos : (UInt32.ofNat nanosPerTick).toNat = 100 := rfl
  rw [nanosOf, UInt32.toNat_mul, UInt64.toNat_toUInt32, UInt64.toNat_mod, hticks, hnanos,
    ticksPerSecond, nanosPerTick]
  omega

/-- Less than a second is left of the ticks, so nothing is carried over to the seconds. -/
def ofTicks (seconds ticks : UInt64) : TimeSpan where
  seconds := seconds.toNat
  nanos := (nanosOf ticks).toNat
  seconds_lt := seconds.toNat_lt
  nanos_lt := by
    rw [toNat_nanosOf, ticksPerSecond, nanosPerTick]
    omega

def days? (text : List Char) : Option (UInt64 × List Char) :=
  match Text.cut ':' text with
  | none => none
  | some (head, _) =>
    if '.' ∈ head then
      match Text.cut '.' text with
      | none => none
      | some (days, clock) => (word? days).map fun d => (d, clock)
    else some (0, text)

def atPoint (text : List Char) : List Char × Option (List Char) :=
  match Text.cut '.' text with
  | some (clock, fraction) => (clock, some fraction)
  | none => (text, none)

def clock? (text : List Char) : Option (UInt64 × UInt64) := do
  let (hours, rest) ← Text.cut ':' text
  let (minutes, seconds) ← Text.cut ':' rest
  let h ← word? hours
  let m ← word? minutes
  let s ← word? seconds
  if m < 60 ∧ s < 60 then some (h, m * 60 + s) else none

def seconds? (days hours rest : UInt64) : Option UInt64 := do
  let d ← product? days 86400
  let h ← product? hours 3600
  let sum ← sum? d h
  sum? sum rest

def read? (text : List Char) : Option TimeSpan := do
  let (days, rest) ← days? text
  let (clock, fraction) := atPoint rest
  let (hours, left) ← clock? clock
  let ticks ← fractionTicks? fraction
  let seconds ← seconds? days hours left
  return ofTicks seconds ticks

structure Fault where
  text : String
  deriving DecidableEq, Repr

def Fault.message (f : Fault) : String := "invalid time span " ++ Text.quoted f.text

def parse (text : String) : Except Fault TimeSpan :=
  match read? text.toList with
  | some t => .ok t
  | none => .error ⟨text⟩

end TimeSpan

end HostedTests.Clock
