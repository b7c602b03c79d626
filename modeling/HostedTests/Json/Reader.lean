import HostedTests.Json.Numeral
import HostedTests.Json.StringReader

/-!
Reading a JSON value character by character. The reader keeps the containers around the value at
hand on a stack; what it makes of a character hangs on the place where it stands. It refuses a text
at the first character that no value goes on with.
-/

namespace HostedTests.Json

def isSpace (c : Char) : Bool := c == ' ' || c == '\t' || c == '\n' || c == '\r'

inductive Container where
  | list (items : List Value)
  | object (members : List (String × Value))

def Container.endFault : Container → Fault
  | .list _ => .endInList
  | .object _ => .endInObject

inductive Frame where
  | list (items : List Value)
  | object (members : List (String × Value)) (name : String)

inductive Place where
  | value
  | first (c : Container)
  | next (c : Container)
  | comma (c : Container)
  | name (members : List (String × Value)) (s : PartialString)
  | colon (members : List (String × Value)) (name : String)
  | string (s : PartialString)
  | numeral (n : PartialNumeral)
  | literal (rest : List Char) (v : Value)

structure Reader where
  stack : List Frame
  -- One more than how many containers may still be opened.
  room : Nat
  place : Place

inductive ReaderStep where
  | more (r : Reader)
  | done (v : Value)
  | doneBefore (v : Value)
  | fault (f : Fault)

namespace Reader

def start (room : Nat) : Reader := ⟨[], room, .value⟩

def resume : List Frame → Value → Option (Container × List Frame)
  | [], _ => none
  | .list items :: rest, v => some (.list (v :: items), rest)
  | .object members name :: rest, v => some (.object (insertEntry name v members), rest)

def complete (stack : List Frame) (room : Nat) (v : Value) : ReaderStep :=
  match resume stack v with
  | none => .done v
  | some (c, rest) => .more ⟨rest, room, .next c⟩

def openContainer (stack : List Frame) (room : Nat) (c : Container) : ReaderStep :=
  if room ≤ 1 then .fault .tooDeep else .more ⟨stack, room - 1, .first c⟩

def begin (stack : List Frame) (room : Nat) (c : Char) : ReaderStep :=
  if c = 'n' then .more ⟨stack, room, .literal ['u', 'l', 'l'] .null⟩
  else if c = 't' then .more ⟨stack, room, .literal ['r', 'u', 'e'] (.bool true)⟩
  else if c = 'f' then .more ⟨stack, room, .literal ['a', 'l', 's', 'e'] (.bool false)⟩
  else if c = '-' then .more ⟨stack, room, .numeral .minus⟩
  else if Text.isDigit c then
    .more ⟨stack, room, .numeral (.ofDigit (Text.digitValue c))⟩
  else if c = '"' then .more ⟨stack, room, .string .empty⟩
  else if c = '[' then openContainer stack room (.list [])
  else if c = '\x7b' then openContainer stack room (.object [])
  else .fault .expectedValue

def nextStep (stack : List Frame) (room : Nat) (container : Container) (c : Char) : ReaderStep :=
  if isSpace c then .more ⟨stack, room, .next container⟩
  else if c = ',' then .more ⟨stack, room, .comma container⟩
  else
    match container with
    | .list items =>
      if c = ']' then complete stack (room + 1) (.list items.reverse) else .fault .expectedListEnd
    | .object members =>
      if c = '\x7d' then complete stack (room + 1) (.object members)
      else .fault .expectedObjectEnd

def firstStep (stack : List Frame) (room : Nat) (container : Container) (c : Char) : ReaderStep :=
  if isSpace c then .more ⟨stack, room, .first container⟩
  else
    match container with
    | .list items =>
      if c = ']' then complete stack (room + 1) (.list items.reverse)
      else begin (.list items :: stack) room c
    | .object members =>
      if c = '"' then .more ⟨stack, room, .name members .empty⟩
      else if c = '\x7d' then complete stack (room + 1) (.object members)
      else .fault .keyNotString

def commaStep (stack : List Frame) (room : Nat) (container : Container) (c : Char) : ReaderStep :=
  if isSpace c then .more ⟨stack, room, .comma container⟩
  else
    match container with
    | .list items =>
      if c = ']' then .fault .trailingComma else begin (.list items :: stack) room c
    | .object members =>
      if c = '"' then .more ⟨stack, room, .name members .empty⟩
      else if c = '\x7d' then .fault .trailingComma
      else .fault .keyNotString

def behindNumeral (stack : List Frame) (room : Nat) (n : PartialNumeral) (c : Char) : ReaderStep :=
  match n.numeral.value with
  | .error f => .fault f
  | .ok number =>
    match resume stack (.number number) with
    | none => .doneBefore (.number number)
    | some (container, rest) => nextStep rest room container c

def step (r : Reader) (c : Char) : ReaderStep :=
  match r.place with
  | .value => if isSpace c then .more r else begin r.stack r.room c
  | .first container => firstStep r.stack r.room container c
  | .next container => nextStep r.stack r.room container c
  | .comma container => commaStep r.stack r.room container c
  | .name members s =>
    match s.step c with
    | .more s => .more { r with place := .name members s }
    | .done name => .more { r with place := .colon members name }
    | .fault f => .fault f
  | .colon members name =>
    if isSpace c then .more r
    else if c = ':' then .more ⟨.object members name :: r.stack, r.room, .value⟩
    else .fault .expectedColon
  | .string s =>
    match s.step c with
    | .more s => .more { r with place := .string s }
    | .done text => complete r.stack r.room (.string text)
    | .fault f => .fault f
  | .numeral n =>
    match n.step c with
    | .more n => .more { r with place := .numeral n }
    | .stop => behindNumeral r.stack r.room n c
    | .fault f => .fault f
  | .literal rest v =>
    match rest with
    | [] => .fault .expectedIdent
    | [d] => if c = d then complete r.stack r.room v else .fault .expectedIdent
    | d :: rest =>
      if c = d then .more { r with place := .literal rest v } else .fault .expectedIdent

def atEnd (r : Reader) : Except Fault Value :=
  match r.place with
  | .value | .comma _ | .literal _ _ => .error .endInValue
  | .first c | .next c => .error c.endFault
  | .name _ _ | .string _ => .error .endInString
  | .colon _ _ => .error .endInObject
  | .numeral n => do
    let number ← n.atEnd
    match resume r.stack (.number number) with
    | none => return .number number
    | some (c, _) => throw c.endFault

def behind (v : Value) (cs : List Char) : Except Fault Value :=
  if cs.all isSpace then .ok v else .error .trailingCharacters

def run (r : Reader) : List Char → Except Fault Value
  | [] => r.atEnd
  | c :: rest =>
    match r.step c with
    | .more r => run r rest
    | .done v => behind v rest
    | .doneBefore v => behind v (c :: rest)
    | .fault f => .error f

end Reader

def depthLimit : Nat := 128

def Value.parse (text : String) : Except Fault Value :=
  (Reader.start depthLimit).run text.toList

end HostedTests.Json
