import HostedTests.Json.Value
import HostedTests.Json.Fault
import HostedTests.Text.Decimal

namespace HostedTests.Json

structure Numeral where
  negative : Bool
  whole : List Nat := []
  fraction : Option (List Nat) := none
  exponent : Option (Bool × List Nat) := none
  deriving DecidableEq, Repr

namespace Numeral

def significandBound : Nat := 0x10000000000000000

def appendDigits (significand : Nat) : List Nat → Nat × Nat
  | [] => (significand, 0)
  | d :: rest =>
    if significand * 10 + d < significandBound then
      let r := appendDigits (significand * 10 + d) rest
      (r.1, r.2 + 1)
    else (significand, 0)

def valueOf (digits : List Nat) : Nat := digits.foldl (fun n d => n * 10 + d) 0

/-- The greatest exponent that is added to a position; beyond it only zero stays finite. -/
def exponentBound : Nat := 0x80000000

def floatOf (negative : Bool) (significand : Nat) (exponent : Int) : Except Fault Number :=
  match Number.Binary64.ofDecimal significand exponent with
  | some x => .ok (.float negative x)
  | none => .error .outOfRange

/-- A whole numeral is exact from the least 64-bit signed number to the greatest unsigned one, minus
zero apart; every other numeral is a float of the digits that fit the significand. -/
def value (n : Numeral) : Except Fault Number :=
  let whole := n.whole.reverse
  let (start, taken) := appendDigits 0 whole
  let dropped := whole.length - taken
  match n.fraction, n.exponent with
  | none, none =>
    if 0 < dropped then floatOf n.negative start dropped
    else if !n.negative then .ok (.int start)
    else if start = 0 ∨ 0x8000000000000000 < start then floatOf true start 0
    else .ok (.int (-(start : Int)))
  | fraction, exponent =>
    let (significand, places) := appendDigits start (fraction.getD []).reverse
    let position : Int := (dropped : Int) - (places : Int)
    match exponent with
    | none => floatOf n.negative significand position
    | some (minus, digits) =>
      let e := valueOf digits.reverse
      if exponentBound ≤ e then
        if significand ≠ 0 ∧ !minus then .error .outOfRange
        else .ok (.float n.negative Number.Binary64.zero)
      else floatOf n.negative significand (if minus then position - e else position + e)

end Numeral

inductive NumeralPlace where
  | first
  | zero
  | whole
  | point
  | fraction
  | mark
  | sign
  | exponent
  deriving DecidableEq, Repr

structure PartialNumeral where
  numeral : Numeral
  place : NumeralPlace
  deriving DecidableEq, Repr

inductive NumeralStep where
  | more (n : PartialNumeral)
  | stop
  | fault (f : Fault)

namespace PartialNumeral

def minus : PartialNumeral := ⟨⟨true, [], none, none⟩, .first⟩

def ofDigit (d : Nat) : PartialNumeral :=
  ⟨⟨false, [d], none, none⟩, if d = 0 then .zero else .whole⟩

def addWhole (n : PartialNumeral) (d : Nat) (place : NumeralPlace) : PartialNumeral :=
  ⟨{ n.numeral with whole := d :: n.numeral.whole }, place⟩

def addFraction (n : PartialNumeral) (d : Nat) : PartialNumeral :=
  ⟨{ n.numeral with fraction := some (d :: n.numeral.fraction.getD []) }, .fraction⟩

def addExponent (n : PartialNumeral) (d : Nat) : PartialNumeral :=
  let e := n.numeral.exponent.getD (false, [])
  ⟨{ n.numeral with exponent := some (e.1, d :: e.2) }, .exponent⟩

def step (n : PartialNumeral) (c : Char) : NumeralStep :=
  let digit := if Text.isDigit c then some (Text.digitValue c) else none
  let startsFraction := c == '.'
  let startsExponent := c == 'e' || c == 'E'
  let openExponent : PartialNumeral := ⟨{ n.numeral with exponent := some (false, []) }, .mark⟩
  match n.place with
  | .first =>
    match digit with
    | some 0 => .more (n.addWhole 0 .zero)
    | some d => .more (n.addWhole d .whole)
    | none => .fault .invalidNumber
  | .zero =>
    if digit.isSome then .fault .invalidNumber
    else if startsFraction then .more ⟨n.numeral, .point⟩
    else if startsExponent then .more openExponent
    else .stop
  | .whole =>
    match digit with
    | some d => .more (n.addWhole d .whole)
    | none =>
      if startsFraction then .more ⟨n.numeral, .point⟩
      else if startsExponent then .more openExponent
      else .stop
  | .point =>
    match digit with
    | some d => .more (n.addFraction d)
    | none => .fault .invalidNumber
  | .fraction =>
    match digit with
    | some d => .more (n.addFraction d)
    | none => if startsExponent then .more openExponent else .stop
  | .mark =>
    match digit with
    | some d => .more (n.addExponent d)
    | none =>
      if c = '+' then .more ⟨n.numeral, .sign⟩
      else if c = '-' then .more ⟨{ n.numeral with exponent := some (true, []) }, .sign⟩
      else .fault .invalidNumber
  | .sign =>
    match digit with
    | some d => .more (n.addExponent d)
    | none => .fault .invalidNumber
  | .exponent =>
    match digit with
    | some d => .more (n.addExponent d)
    | none => .stop

def isComplete (n : PartialNumeral) : Bool :=
  match n.place with
  | .zero | .whole | .fraction | .exponent => true
  | .first | .point | .mark | .sign => false

def atEnd (n : PartialNumeral) : Except Fault Number :=
  if n.isComplete then n.numeral.value else .error .endInValue

end PartialNumeral

end HostedTests.Json
