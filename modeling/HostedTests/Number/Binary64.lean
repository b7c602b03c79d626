/-!
Binary floating point with 53 bits of significand, in exact whole-number arithmetic: the magnitude
nearest to a quotient, products, quotients and powers of ten. Ties go to the even significand, and
what would be infinite is no magnitude.
-/

namespace HostedTests.Number

structure Binary64 where
  significand : Nat
  exponent : Int
  deriving DecidableEq, Repr

namespace Binary64

def lowest : Int := -1074

def highest : Int := 971

def leastWide : Nat := 0x10000000000000

def zero : Binary64 := ⟨0, lowest⟩

def isZero (x : Binary64) : Bool := x.significand == 0

def roundHalfEven (num den : Nat) : Nat :=
  let q := num / den
  let r := num % den
  if 2 * r < den then q
  else if den < 2 * r then q + 1
  else if q % 2 = 0 then q else q + 1

def scaled (num den : Nat) (e : Int) : Nat × Nat :=
  (num * Nat.pow 2 (-e).toNat, den * Nat.pow 2 e.toNat)

def exponentOf (num den : Nat) : Int :=
  let guess : Int := (Nat.log2 num : Int) - (Nat.log2 den : Int) - 52
  let s := scaled num den guess
  let fitted := if s.1 < s.2 * leastWide then guess - 1 else guess
  max fitted lowest

def ofRatio (num den : Nat) : Option Binary64 :=
  if num = 0 then some zero
  else
    let e := exponentOf num den
    let s := scaled num den e
    let m := roundHalfEven s.1 s.2
    let x : Binary64 := if m = 2 * leastWide then ⟨leastWide, e + 1⟩ else ⟨m, e⟩
    if highest < x.exponent then none else some x

def ratio (x : Binary64) : Nat × Nat :=
  (x.significand * Nat.pow 2 x.exponent.toNat, Nat.pow 2 (-x.exponent).toNat)

def mul (x y : Binary64) : Option Binary64 :=
  ofRatio (x.ratio.1 * y.ratio.1) (x.ratio.2 * y.ratio.2)

def div (x y : Binary64) : Option Binary64 :=
  ofRatio (x.ratio.1 * y.ratio.2) (x.ratio.2 * y.ratio.1)

def tenPow (k : Nat) : Option Binary64 := ofRatio (Nat.pow 10 k) 1

def greatestPower : Nat := 308

def divSteps (step : Binary64) : Nat → Binary64 → Option Binary64
  | 0, x => some x
  | n + 1, x => if x.isZero then some x else (x.div step).bind (divSteps step n)

def divTenPow (x : Binary64) (k : Nat) : Option Binary64 :=
  let steps := (k - 1) / greatestPower
  (tenPow greatestPower).bind fun step =>
    (divSteps step steps x).bind fun y => (tenPow (k - steps * greatestPower)).bind y.div

def mulTenPow (x : Binary64) (k : Nat) : Option Binary64 :=
  if k ≤ greatestPower then (tenPow k).bind x.mul
  else if x.isZero then some x
  else none

/-- A decimal significand and its exponent, each rounded on its own before they meet. -/
def ofDecimal (significand : Nat) (exponent : Int) : Option Binary64 :=
  (ofRatio significand 1).bind fun x =>
    if 0 ≤ exponent then x.mulTenPow exponent.toNat else x.divTenPow (-exponent).toNat

end Binary64

end HostedTests.Number
