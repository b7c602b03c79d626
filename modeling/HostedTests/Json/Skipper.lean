import HostedTests.Json.Reader

namespace HostedTests.Json

inductive Bracket where
  | list
  | object
  deriving DecidableEq, Repr

def Bracket.closes (b : Bracket) (c : Char) : Bool :=
  match b with
  | .list => c == ']'
  | .object => c == '\x7d'

def Bracket.endFault : Bracket → Fault
  | .list => .endInList
  | .object => .endInObject

inductive SkipPlace where
  | value
  | first (b : Bracket)
  | next (b : Bracket)
  | key
  | name (s : PartialString)
  | colon
  | string (s : PartialString)
  | numeral (n : PartialNumeral)
  | literal (rest : List Char)

structure Skipper where
  stack : List Bracket
  place : SkipPlace

inductive SkipStep where
  | more (s : Skipper)
  | done
  | doneBefore
  | fault (f : Fault)

namespace Skipper

def start : Skipper := ⟨[], .value⟩

def complete : List Bracket → SkipStep
  | [] => .done
  | b :: rest => .more ⟨rest, .next b⟩

def begin (stack : List Bracket) (c : Char) : SkipStep :=
  if c = 'n' then .more ⟨stack, .literal ['u', 'l', 'l']⟩
  else if c = 't' then .more ⟨stack, .literal ['r', 'u', 'e']⟩
  else if c = 'f' then .more ⟨stack, .literal ['a', 'l', 's', 'e']⟩
  else if c = '-' then .more ⟨stack, .numeral .minus⟩
  else if Text.isDigit c then .more ⟨stack, .numeral (.ofDigit (Text.digitValue c))⟩
  else if c = '"' then .more ⟨stack, .string .empty⟩
  else if c = '[' then .more ⟨stack, .first .list⟩
  else if c = '\x7b' then .more ⟨stack, .first .object⟩
  else .fault .expectedValue

def keyStep (stack : List Bracket) (c : Char) : SkipStep :=
  if isSpace c then .more ⟨stack, .key⟩
  else if c = '"' then .more ⟨stack, .name .empty⟩
  else .fault .keyNotString

def nextStep (stack : List Bracket) (b : Bracket) (c : Char) : SkipStep :=
  if isSpace c then .more ⟨stack, .next b⟩
  else if b.closes c then complete stack
  else
    match b with
    | .list => if c = ',' then .more ⟨.list :: stack, .value⟩ else .fault .expectedListEnd
    | .object => if c = ',' then .more ⟨stack, .key⟩ else .fault .expectedObjectEnd

def firstStep (stack : List Bracket) (b : Bracket) (c : Char) : SkipStep :=
  if isSpace c then .more ⟨stack, .first b⟩
  else if b.closes c then complete stack
  else
    match b with
    | .list => begin (.list :: stack) c
    | .object => keyStep stack c

def behindNumeral (stack : List Bracket) (c : Char) : SkipStep :=
  match stack with
  | [] => .doneBefore
  | b :: rest => nextStep rest b c

def step (s : Skipper) (c : Char) : SkipStep :=
  match s.place with
  | .value => if isSpace c then .more s else begin s.stack c
  | .first b => firstStep s.stack b c
  | .next b => nextStep s.stack b c
  | .key => keyStep s.stack c
  | .name p =>
    match p.skipStep c with
    | .more p => .more { s with place := .name p }
    | .done _ => .more { s with place := .colon }
    | .fault f => .fault f
  | .colon =>
    if isSpace c then .more s
    else if c = ':' then .more ⟨.object :: s.stack, .value⟩
    else .fault .expectedColon
  | .string p =>
    match p.skipStep c with
    | .more p => .more { s with place := .string p }
    | .done _ => complete s.stack
    | .fault f => .fault f
  | .numeral n =>
    match n.step c with
    | .more n => .more { s with place := .numeral n }
    | .stop => behindNumeral s.stack c
    | .fault f => .fault f
  | .literal rest =>
    match rest with
    | [] => .fault .expectedIdent
    | [d] => if c = d then complete s.stack else .fault .expectedIdent
    | d :: rest => if c = d then .more { s with place := .literal rest } else .fault .expectedIdent

def atEnd (s : Skipper) : Option Fault :=
  match s.place with
  | .value | .literal _ => some .endInValue
  | .first b | .next b => some b.endFault
  | .key | .colon => some .endInObject
  | .name _ | .string _ => some .endInString
  | .numeral n =>
    if !n.isComplete then some .invalidNumber else s.stack.head?.map (·.endFault)

end Skipper

end HostedTests.Json
