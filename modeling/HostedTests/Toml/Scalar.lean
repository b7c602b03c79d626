import HostedTests.Clock.Date
import HostedTests.Json.StringReader
import HostedTests.Number.Binary64
import HostedTests.Text.Decimal
import HostedTests.Toml.Value

namespace HostedTests.Toml.Scalar

def digits? (isDigit : Char → Bool) : List Char → Option (List Char)
  | [] => none
  | [c] => if isDigit c then some [c] else none
  | c :: '_' :: rest => if isDigit c then (digits? isDigit rest).map (c :: ·) else none
  | c :: rest => if isDigit c then (digits? isDigit rest).map (c :: ·) else none

def inBase (base : Nat) (cs : List Char) : Option Nat :=
  let isDigit (c : Char) : Bool := ((Json.hexValue? c).map fun d => decide (d < base)).getD false
  (digits? isDigit cs).map fun ds =>
    ds.foldl (fun n c => base * n + (Json.hexValue? c).getD 0) 0

def sign : List Char → Bool × List Char
  | '-' :: rest => (true, rest)
  | '+' :: rest => (false, rest)
  | cs => (false, cs)

def whole? (cs : List Char) : Option (List Char) :=
  match digits? Text.isDigit cs with
  | some ('0' :: _ :: _) => none
  | ds => ds

def isRepresentable (i : Int) : Bool :=
  -(0x80000000000000000000000000000000 : Int) ≤ i && i < 0x100000000000000000000000000000000

def isFinite (significand : Nat) (exponent : Int) : Bool :=
  let magnitude : Int := (Text.decimal significand).length + exponent
  if significand = 0 ∨ magnitude < 300 then true
  else if 310 < magnitude then false
  else
    (Number.Binary64.ofRatio (significand * Nat.pow 10 exponent.toNat)
      (Nat.pow 10 (-exponent).toNat)).isSome

def float? (whole : List Char) (fraction exponent : Option (List Char)) : Option Value := do
  let w ← whole? whole
  let f ← match fraction with
    | none => some []
    | some f => digits? Text.isDigit f
  let e : Int ← match exponent with
    | none => some 0
    | some e =>
      let (negative, e) := sign e
      (digits? Text.isDigit e).map fun ds =>
        if negative then -(Text.ofDigits ds : Int) else Text.ofDigits ds
  if isFinite (Text.ofDigits (w ++ f)) (e - f.length) then some .float else none

def number? (cs : List Char) : Option Value :=
  let (negative, cs) := sign cs
  if cs = "inf".toList ∨ cs = "nan".toList then some .float
  else
    let mantissa := cs.takeWhile fun c => c ≠ 'e' ∧ c ≠ 'E'
    let exponent := (cs.drop mantissa.length).tail?
    let whole := mantissa.takeWhile (· ≠ '.')
    let fraction := (mantissa.drop whole.length).tail?
    if fraction.isNone ∧ exponent.isNone then
      (whole? whole).bind fun ds =>
        let i : Int := if negative then -(Text.ofDigits ds : Int) else Text.ofDigits ds
        if isRepresentable i then some (.integer i) else none
    else float? whole fraction exponent

def fixed? (n : Nat) (cs : List Char) : Option (Nat × List Char) :=
  let ds := cs.take n
  if ds.length = n ∧ ds.all Text.isDigit then some (Text.ofDigits ds, cs.drop n) else none

def after? (c : Char) : List Char → Option (List Char)
  | d :: rest => if c = d then some rest else none
  | [] => none

def date? (cs : List Char) : Option (List Char) := do
  let (year, cs) ← fixed? 4 cs
  let (month, cs) ← (after? '-' cs).bind (fixed? 2)
  let (day, cs) ← (after? '-' cs).bind (fixed? 2)
  if 1 ≤ month ∧ month ≤ 12 ∧ 1 ≤ day ∧ day ≤ Clock.daysInMonth year month then some cs else none

def fraction? (cs : List Char) : Option (List Char) :=
  match cs with
  | '.' :: rest =>
    let ds := rest.takeWhile Text.isDigit
    if ds.isEmpty then none else some (rest.drop ds.length)
  | cs => some cs

def time? (cs : List Char) : Option (List Char) := do
  let (hour, cs) ← fixed? 2 cs
  let (minute, cs) ← (after? ':' cs).bind (fixed? 2)
  if 23 < hour ∨ 59 < minute then none
  match cs with
  | ':' :: cs =>
    let (second, cs) ← fixed? 2 cs
    if 60 < second then none else fraction? cs
  | cs => some cs

def isOffset : List Char → Bool
  | [] => true
  | ['Z'] => true
  | ['z'] => true
  | c :: cs =>
    if c = '+' ∨ c = '-' then
      match (fixed? 2 cs).bind fun (hour, cs) =>
          ((after? ':' cs).bind (fixed? 2)).map fun (minute, cs) => (hour, minute, cs) with
      | some (hour, minute, rest) => hour ≤ 23 && minute ≤ 59 && rest.isEmpty
      | none => false
    else false

def isMoment (cs : List Char) : Bool :=
  match date? cs with
  | some [] => true
  | some (c :: rest) => (c = 'T' || c = 't' || c = ' ') && ((time? rest).map isOffset).getD false
  | none => time? cs = some []

def isDate (cs : List Char) : Bool := date? cs = some []

def parse (cs : List Char) : Option Value :=
  match cs with
  | '0' :: 'x' :: ds => (inBase 16 ds).bind natural
  | '0' :: 'o' :: ds => (inBase 8 ds).bind natural
  | '0' :: 'b' :: ds => (inBase 2 ds).bind natural
  | _ =>
    if cs = "true".toList then some (.boolean true)
    else if cs = "false".toList then some (.boolean false)
    else if isMoment cs then some .moment
    else number? cs
where
  natural (n : Nat) : Option Value := if isRepresentable n then some (.integer n) else none

end HostedTests.Toml.Scalar
