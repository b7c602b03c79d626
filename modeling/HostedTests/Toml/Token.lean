import HostedTests.Json.StringReader
import HostedTests.Text.Decimal

namespace HostedTests.Toml

inductive Token where
  | newline
  | blank (alone : Bool)
  | comment
  | mark (c : Char)
  | atom (cs : List Char)
  | text (s : String) (manyLines : Bool)
  deriving DecidableEq, Repr

namespace Token

def marks : List Char := ['.', '=', ',', '[', ']', '\x7b', '\x7d']

inductive Quote where
  | basic
  | literal
  deriving DecidableEq, Repr

def Quote.char : Quote → Char
  | basic => '"'
  | literal => '\''

inductive Mode where
  | between
  | blank (alone : Bool)
  | comment
  | return
  | atom (cs : List Char)
  | quotes (q : Quote) (n : Nat)
  | single (q : Quote) (cs : List Char)
  | many (q : Quote) (cs : List Char) (n : Nat)
  | manyReturn (q : Quote) (cs : List Char)
  | manyStart (q : Quote) (afterReturn : Bool)
  | escape (manyLines : Bool) (cs : List Char)
  | code (manyLines : Bool) (cs : List Char) (n value : Nat)
  | fold (cs : List Char) (seenEnd : Bool)
  | foldReturn (cs : List Char)
  deriving DecidableEq, Repr

structure Scan where
  mode : Mode
  tokens : List Token

namespace Scan

def start : Scan := ⟨.between, []⟩

def add (s : Scan) (t : Token) : Scan := ⟨.between, t :: s.tokens⟩

def go (s : Scan) (m : Mode) : Scan := { s with mode := m }

def isControl (c : Char) : Bool := (c.toNat < 0x20 && c ≠ '\t') || c.toNat = 0x7F

def between (s : Scan) (c : Char) : Option Scan :=
  if c = '\n' then some (s.add .newline)
  else if c = '\r' then some (s.go .return)
  else if c = ' ' ∨ c = '\t' then some (s.go (.blank (c = ' ')))
  else if c = '#' then some (s.go .comment)
  else if c = '"' then some (s.go (.quotes .basic 1))
  else if c = '\'' then some (s.go (.quotes .literal 1))
  else if c ∈ marks then some (s.add (.mark c))
  else if isControl c then none
  else some (s.go (.atom [c]))

def inSingle (s : Scan) (q : Quote) (cs : List Char) (c : Char) : Option Scan :=
  if c = q.char then some (s.add (.text (String.ofList cs.reverse) false))
  else if q = .basic ∧ c = '\\' then some (s.go (.escape false cs))
  else if isControl c then none
  else some (s.go (.single q (c :: cs)))

def inMany (s : Scan) (q : Quote) (cs : List Char) (c : Char) : Option Scan :=
  if c = q.char then some (s.go (.many q cs 1))
  else if q = .basic ∧ c = '\\' then some (s.go (.escape true cs))
  else if c = '\r' then some (s.go (.manyReturn q cs))
  else if c = '\n' then some (s.go (.many q (c :: cs) 0))
  else if isControl c then none
  else some (s.go (.many q (c :: cs) 0))

def unescaped (s : Scan) (manyLines : Bool) (cs : List Char) : Scan :=
  s.go (if manyLines then .many .basic cs 0 else .single .basic cs)

/-- The end of a string of many lines after three quotes or more; those before the last three are
its own. -/
def endMany (s : Scan) (q : Quote) (cs : List Char) (n : Nat) : Scan :=
  s.add (.text (String.ofList (List.replicate (n - 3) q.char ++ cs).reverse) true)

def char? (n : Nat) : Option Char :=
  if h : n.isValidChar then some (Char.ofNatAux n h) else none

def step (s : Scan) (c : Char) : Option Scan :=
  match s.mode with
  | .between => s.between c
  | .blank alone =>
    if c = ' ' ∨ c = '\t' then some (s.go (.blank false)) else (s.add (.blank alone)).between c
  | .comment =>
    if c = '\n' ∨ c = '\r' then (s.add .comment).between c
    else if isControl c then none
    else some s
  | .return => if c = '\n' then some (s.add .newline) else none
  | .atom cs =>
    if c ∈ marks ∨ c ∈ ['\n', '\r', ' ', '\t', '#', '"', '\''] then
      (s.add (.atom cs.reverse)).between c
    else if isControl c then none
    else some (s.go (.atom (c :: cs)))
  | .quotes q 1 => if c = q.char then some (s.go (.quotes q 2)) else s.inSingle q [] c
  | .quotes q _ =>
    if c = q.char then some (s.go (.manyStart q false)) else (s.add (.text "" false)).between c
  | .manyStart q afterReturn =>
    if c = '\n' then some (s.go (.many q [] 0))
    else if afterReturn then none
    else if c = '\r' then some (s.go (.manyStart q true))
    else s.inMany q [] c
  | .single q cs => s.inSingle q cs c
  | .many q cs n =>
    if n = 0 then s.inMany q cs c
    else if c = q.char ∧ n < 5 then some (s.go (.many q cs (n + 1)))
    else if 3 ≤ n then (s.endMany q cs n).between c
    else s.inMany q (List.replicate n q.char ++ cs) c
  | .manyReturn q cs => if c = '\n' then some (s.go (.many q ('\n' :: '\r' :: cs) 0)) else none
  | .escape manyLines cs =>
    match c with
    | 'b' => some (s.unescaped manyLines ('\x08' :: cs))
    | 't' => some (s.unescaped manyLines ('\t' :: cs))
    | 'n' => some (s.unescaped manyLines ('\n' :: cs))
    | 'f' => some (s.unescaped manyLines ('\x0c' :: cs))
    | 'r' => some (s.unescaped manyLines ('\r' :: cs))
    | 'e' => some (s.unescaped manyLines ('\x1b' :: cs))
    | '"' => some (s.unescaped manyLines ('"' :: cs))
    | '\\' => some (s.unescaped manyLines ('\\' :: cs))
    | 'x' => some (s.go (.code manyLines cs 2 0))
    | 'u' => some (s.go (.code manyLines cs 4 0))
    | 'U' => some (s.go (.code manyLines cs 8 0))
    | _ =>
      if !manyLines then none
      else if c = '\r' then some (s.go (.foldReturn cs))
      else if c ∈ [' ', '\t', '\n'] then some (s.go (.fold cs (c = '\n')))
      else none
  | .code manyLines cs n value =>
    match Json.hexValue? c with
    | none => none
    | some d =>
      let value := 16 * value + d
      if 1 < n then some (s.go (.code manyLines cs (n - 1) value))
      else (char? value).map fun c => s.unescaped manyLines (c :: cs)
  | .fold cs seenEnd =>
    if c ∈ [' ', '\t'] then some s
    else if c = '\r' then some (s.go (.foldReturn cs))
    else if c = '\n' then some (s.go (.fold cs true))
    else if seenEnd then s.inMany .basic cs c
    else none
  | .foldReturn cs => if c = '\n' then some (s.go (.fold cs true)) else none

def finish (s : Scan) : Option (List Token) :=
  match s.mode with
  | .between => some s.tokens.reverse
  | .blank alone => some (.blank alone :: s.tokens).reverse
  | .comment => some (.comment :: s.tokens).reverse
  | .atom cs => some (.atom cs.reverse :: s.tokens).reverse
  | .quotes _ 2 => some (.text "" false :: s.tokens).reverse
  | .many q cs n => if 3 ≤ n then some (s.endMany q cs n).tokens.reverse else none
  | _ => none

end Scan

def scan (cs : List Char) : Option (List Token) :=
  (cs.foldlM Scan.step .start).bind Scan.finish

end Token

end HostedTests.Toml
