namespace HostedTests.Text

def decimal (n : Nat) : List Char := Nat.toDigits 10 n

def padded (width n : Nat) : List Char :=
  List.replicate (width - (decimal n).length) '0' ++ decimal n

def isDigit (c : Char) : Bool := '0' ≤ c && c ≤ '9'

def digitValue (c : Char) : Nat := c.toNat - '0'.toNat

def ofDigits (cs : List Char) : Nat := cs.foldl (fun n c => 10 * n + digitValue c) 0

def unmarked : List Char → List Char
  | '+' :: rest => rest
  | cs => cs

/-- A whole number below `bound`: digits only, after at most one plus sign. -/
def unsigned? (bound : Nat) (cs : List Char) : Option Nat :=
  let digits := unmarked cs
  if digits = [] ∨ ¬ digits.all isDigit then none
  else if ofDigits digits < bound then some (ofDigits digits) else none

def signed (i : Int) : List Char :=
  match i with
  | .ofNat n => decimal n
  | .negSucc n => '-' :: decimal (n + 1)

end HostedTests.Text
