import HostedTests.Number.Binary64
import HostedTests.Text.Decimal

namespace HostedTests.Number

/-- The decimal number `0.d₁d₂… * 10 ^ point`, given by the value of its digits. -/
structure Digits where
  digits : List Char
  point : Int
  deriving DecidableEq, Repr

namespace Binary64

/-- The ends of the interval of reals that round to `x`, over the denominator of the triple. -/
def interval (x : Binary64) : Nat × Nat × Nat :=
  let (num, den) := x.ratio
  let gap := Nat.pow 2 x.exponent.toNat
  -- Below a power of two the magnitudes stand twice as close.
  let below := if x.significand = leastWide ∧ lowest < x.exponent then gap else 2 * gap
  (4 * num - below, 4 * num + 2 * gap, 4 * den)

def readsBack (x : Binary64) (num den : Nat) : Bool :=
  let (low, high, unit) := x.interval
  if x.significand % 2 = 0 then low * den ≤ num * unit && num * unit ≤ high * den
  else low * den < num * unit && num * unit < high * den

def magnitudeFrom (num den : Nat) : Nat → Int → Int
  | 0, p => p
  | room + 1, p =>
    let q := p - 1
    if num * Nat.pow 10 (-q).toNat < den * Nat.pow 10 q.toNat then magnitudeFrom num den room q
    else p

def magnitude (x : Binary64) : Int :=
  let (num, den) := x.ratio
  let bits : Int := (Nat.log2 num : Int) - (Nat.log2 den : Int)
  magnitudeFrom num den 4 (bits * 30103 / 100000 + 3)

def neighbours (x : Binary64) (point : Int) (count : Nat) : List Nat :=
  let (num, den) := x.ratio
  let e := point - count
  let n := num * Nat.pow 10 (-e).toNat
  let d := den * Nat.pow 10 e.toNat
  let q := n / d
  if 2 * (n % d) ≤ d then [q, q + 1] else [q + 1, q]

def withDigits? (x : Binary64) (point : Int) (count : Nat) : Option Digits :=
  let e := point - count
  let hits := (neighbours x point count).filter fun q =>
    0 < q && readsBack x (q * Nat.pow 10 e.toNat) (Nat.pow 10 (-e).toNat)
  hits.head?.map fun q =>
    let all := Text.decimal q
    ⟨(all.reverse.dropWhile (· == '0')).reverse, e + all.length⟩

def shortest (x : Binary64) : Digits :=
  let point := x.magnitude
  match (List.range 17).findSome? fun k => x.withDigits? point (k + 1) with
  | some d => d
  | none => ⟨['0'], 1⟩

end Binary64

structure Layout where
  lowestPoint : Int
  highestPoint : Int
  mark : Char
  plus : List Char

def Layout.render (l : Layout) (d : Digits) : List Char :=
  if l.lowestPoint ≤ d.point ∧ d.point ≤ l.highestPoint then
    if d.point ≤ 0 then
      ['0', '.'] ++ List.replicate (-d.point).toNat '0' ++ d.digits
    else
      let whole := d.point.toNat
      if d.digits.length ≤ whole then
        d.digits ++ List.replicate (whole - d.digits.length) '0' ++ ['.', '0']
      else d.digits.take whole ++ ['.'] ++ d.digits.drop whole
  else
    let e := d.point - 1
    let fraction := match d.digits with
      | [] => []
      | [c] => [c]
      | c :: rest => c :: '.' :: rest
    fraction ++ [l.mark] ++ (if 0 ≤ e then l.plus else []) ++ Text.signed e

end HostedTests.Number
