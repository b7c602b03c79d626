import HostedTests.Clock.Instant
import HostedTests.Text.Blank
import HostedTests.Text.Utf8

/-!
Reading timestamps. The strict form is `YYYY-MM-DD`, a `T` or a space, `HH:MM:SS`, an optional
fraction, and `Z` or an offset with a colon. The lenient form also takes signed years, single
digits, blanks between the parts, and `UTC`.
-/

namespace HostedTests.Clock.Timestamp

inductive Fault where
  | invalid
  | tooShort
  | trailing
  | outOfRange
  | impossible
  deriving DecidableEq, Repr

def Fault.message : Fault → String
  | invalid => "input contains invalid characters"
  | tooShort => "premature end of input"
  | trailing => "trailing input"
  | outOfRange => "input is out of range"
  | impossible => "no possible date and time matching input"

abbrev Scan (α : Type) := List Char → Except Fault (α × List Char)

def number (least most : Nat) : Scan Nat := fun cs =>
  let digits := (cs.take most).takeWhile Text.isDigit
  if Text.Utf8.size cs < least then .error .tooShort
  else if digits.length < least then .error .invalid
  else .ok (Text.ofDigits digits, cs.drop digits.length)

def numberWithin (least most low high : Nat) : Scan Nat := fun cs => do
  let (n, rest) ← number least most cs
  if low ≤ n ∧ n ≤ high then return (n, rest) else throw .outOfRange

def char (c : Char) (cs : List Char) : Except Fault (List Char) :=
  match cs with
  | [] => .error .tooShort
  | d :: rest => if d = c then .ok rest else .error .invalid

def dateEnd (cs : List Char) : Except Fault (List Char) :=
  match cs with
  | [] => .error .tooShort
  | d :: rest => if d = 'T' ∨ d = 't' ∨ d = ' ' then .ok rest else .error .invalid

def fraction : Scan Nat := fun cs =>
  match cs with
  | '.' :: rest => do
    let (n, rest') ← number 1 9 rest
    let places := rest.length - rest'.length
    return (n * Nat.pow 10 (9 - places), rest'.dropWhile Text.isDigit)
  | _ => .ok (0, cs)

def twoDigits (top : Char) : Scan Nat := fun cs =>
  match cs with
  | a :: b :: rest =>
    if Text.isDigit a ∧ Text.isDigit b then
      if a ≤ top then .ok (Text.ofDigits [a, b], rest) else .error .outOfRange
    else .error .invalid
  | [a] => if a.utf8Size < 2 then .error .tooShort else .error .invalid
  | [] => .error .tooShort

def offset (colon : List Char → Except Fault (List Char)) : Scan Int := fun cs =>
  match cs with
  | [] => .error .tooShort
  | c :: rest =>
    if c = 'Z' ∨ c = 'z' then .ok (0, rest)
    else if c = '+' ∨ c = '-' ∨ c = '\u2212' then do
      let (h, rest) ← twoDigits '9' rest
      let rest ← colon rest
      let (m, rest) ← twoDigits '5' rest
      let minutes : Int := h * 60 + m
      return (if c = '+' then minutes else -minutes, rest)
    else .error .invalid

structure Parts where
  year : Int
  month : Nat
  day : Nat
  hour : Nat
  minute : Nat
  second : Nat
  nanos : Nat
  offset : Int

def Parts.instant (p : Parts) : Except Fault Instant :=
  match Date.of? p.year p.month p.day, Time.of? p.hour p.minute p.second p.nanos with
  | some date, some time =>
    if h : -1440 < p.offset ∧ p.offset < 1440 then
      match Instant.ofLocal? date time ⟨p.offset, h⟩ with
      | some i => .ok i
      | none => .error .impossible
    else .error .outOfRange
  | _, _ => .error .outOfRange

def strict (text : List Char) : Except Fault Instant := do
  let (year, cs) ← number 4 4 text
  let cs ← char '-' cs
  let (month, cs) ← numberWithin 2 2 1 12 cs
  let cs ← char '-' cs
  let (day, cs) ← numberWithin 2 2 1 31 cs
  let cs ← dateEnd cs
  let (hour, cs) ← numberWithin 2 2 0 23 cs
  let cs ← char ':' cs
  let (minute, cs) ← numberWithin 2 2 0 59 cs
  let cs ← char ':' cs
  let (second, cs) ← numberWithin 2 2 0 60 cs
  let (nanos, cs) ← fraction cs
  let (offset, cs) ← offset (char ':') cs
  if cs ≠ [] then throw .trailing
  Parts.instant ⟨year, month, day, hour, minute, second, nanos, offset⟩

def yearBound : Nat := 0x80000000

def year : Scan Int := fun cs =>
  match cs with
  | '-' :: rest => do
    let (n, rest) ← number 1 rest.length rest
    if n ≤ yearBound then return (-(n : Int), rest) else throw .outOfRange
  | '+' :: rest => do
    let (n, rest) ← number 1 rest.length rest
    if n < yearBound then return ((n : Int), rest) else throw .outOfRange
  | _ => do
    let (n, rest) ← number 1 4 cs
    return ((n : Int), rest)

def part (low high : Nat) : Scan Nat := fun cs => numberWithin 1 2 low high (Text.trimStart cs)

def mark (c : Char) (cs : List Char) : Except Fault (List Char) := char c (Text.trimStart cs)

def isColonOrBlank (c : Char) : Bool := c == ':' || Text.isBlank c

def lenientOffset : Scan Int := fun cs =>
  match cs with
  | u :: t :: c :: rest =>
    if u.toUpper = 'U' ∧ t.toUpper = 'T' ∧ c.toUpper = 'C' then .ok (0, rest)
    else offset (fun cs => .ok (cs.dropWhile isColonOrBlank)) cs
  | _ => offset (fun cs => .ok (cs.dropWhile isColonOrBlank)) cs

def lenient (text : List Char) : Except Fault Instant := do
  let (year, cs) ← year (Text.trimStart text)
  let cs ← mark '-' cs
  let (month, cs) ← part 1 12 cs
  let cs ← mark '-' cs
  let (day, cs) ← part 1 31 cs
  let cs ← dateEnd cs
  let (hour, cs) ← part 0 23 cs
  let cs ← mark ':' cs
  let (minute, cs) ← part 0 59 cs
  let cs ← mark ':' cs
  let (second, cs) ← part 0 60 cs
  let (nanos, cs) ← fraction cs
  let (offset, cs) ← lenientOffset (Text.trimStart cs)
  if Text.trimStart cs ≠ [] then throw .trailing
  Parts.instant ⟨year, month, day, hour, minute, second, nanos, offset⟩

def toUtc (text : String) : String :=
  match strict text.toList with
  | .ok i => i.format
  | .error _ => text

end HostedTests.Clock.Timestamp
