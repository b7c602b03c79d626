import HostedTests.Message.Envelope
import HostedTests.Json.Skipper

/-!
Reading a message character by character. A message is an object with a kind and a payload, in any
order and among others that are passed over, or a list of a kind and a payload. The first fault of
the text decides, be it one of the text or of its shape.
-/

namespace HostedTests.Message

open Json (Value PartialString Skipper isSpace)

inductive Form where
  | object
  | list
  deriving DecidableEq

inductive Field where
  | kind
  | payload
  | other
  deriving DecidableEq

inductive Place where
  | start
  -- In a value that stands where `expected` should.
  | misplaced (r : Json.Reader) (expected : String)
  | first
  | next
  | comma
  | name (s : PartialString)
  | colon (f : Field)
  | kind
  | kindName (s : PartialString) (boxed : Bool)
  | kindBox
  | kindColon (k : Kind)
  | kindUnit (k : Kind)
  | kindContent (k : Kind) (r : Json.Reader)
  | kindClose (k : Kind)
  | payload (r : Json.Reader)
  | skipped (s : Skipper)
  | listFirst
  | listNext
  | listComma
  | listEnd
  | listEndComma
  | behind

structure Reader where
  form : Form
  kind : Option Kind
  payload : Option Value
  place : Place

namespace Reader

def start : Reader := ⟨.object, none, none, .start⟩

def record : String := "Message"

def recordSize : Nat := 2

def goTo (s : Reader) (p : Place) : Except Fault Reader := .ok { s with place := p }

def textFault {α : Type} (f : Json.Fault) : Except Fault α := .error (.text f)

def shapeFault {α : Type} (f : Payload.Fault) : Except Fault α := .error (.shape f)

def mismatch {α : Type} (v : Value) (expected : String) : Except Fault α :=
  shapeFault (.invalidType (.of v) expected)

def misplace (s : Reader) (expected : String) (c : Char) : Except Fault Reader :=
  if c = '[' then mismatch (.list []) expected
  else if c = '\x7b' then mismatch (.object []) expected
  else
    match Json.Reader.begin [] Json.depthLimit c with
    | .more r => s.goTo (.misplaced r expected)
    | .done v | .doneBefore v => mismatch v expected
    | .fault f => textFault f

def withKind (s : Reader) (k : Kind) : Except Fault Reader :=
  match s.form with
  | .object => .ok { s with kind := some k, place := .next }
  | .list => .ok { s with kind := some k, place := .listNext }

def withPayload (s : Reader) (v : Value) : Reader :=
  match s.form with
  | .object => { s with payload := some v, place := .next }
  | .list => { s with payload := some v, place := .listEnd }

def close (s : Reader) : Except Fault Reader :=
  match s.kind with
  | none => shapeFault (.missingField kindName)
  | some _ => s.goTo .behind

def fieldOf (name : String) : Field :=
  if name = kindName then .kind else if name = payloadName then .payload else .other

def named (s : Reader) (name : String) : Except Fault Reader :=
  match fieldOf name with
  | .kind => if s.kind.isSome then shapeFault (.duplicateField name) else s.goTo (.colon .kind)
  | .payload =>
    if s.payload.isSome then shapeFault (.duplicateField name) else s.goTo (.colon .payload)
  | .other => s.goTo (.colon .other)

/-- Containers around a payload count against the depth that it may have. -/
def payloadRoom : Nat := Json.depthLimit - 1

def afterColon (s : Reader) : Field → Except Fault Reader
  | .kind => s.goTo .kind
  | .payload => s.goTo (.payload (.start payloadRoom))
  | .other => s.goTo (.skipped .start)

def nextStep (s : Reader) (c : Char) : Except Fault Reader :=
  if isSpace c then s.goTo .next
  else if c = ',' then s.goTo .comma
  else if c = '\x7d' then s.close
  else textFault .expectedObjectEnd

def listEndStep (s : Reader) (c : Char) : Except Fault Reader :=
  if isSpace c then s.goTo .listEnd
  else if c = ']' then s.goTo .behind
  else if c = ',' then s.goTo .listEndComma
  else textFault .trailingCharacters

def behindValue (s : Reader) (c : Char) : Except Fault Reader :=
  match s.form with
  | .object => s.nextStep c
  | .list => s.listEndStep c

def kindStep (s : Reader) (c : Char) : Except Fault Reader :=
  if isSpace c then s.goTo .kind
  else if c = '"' then s.goTo (.kindName .empty false)
  else if c = '\x7b' then s.goTo .kindBox
  else textFault .expectedValue

def kindOf (name : String) : Except Fault Kind :=
  (Payload.choose Kind.all Kind.wire name).mapError .shape

def payloadStep (s : Reader) (r : Json.Reader) (c : Char) : Except Fault Reader :=
  match r.step c with
  | .more r => s.goTo (.payload r)
  | .done v => .ok (s.withPayload v)
  | .doneBefore v => (s.withPayload v).behindValue c
  | .fault f => textFault f

def step (s : Reader) (c : Char) : Except Fault Reader :=
  match s.place with
  | .start =>
    if isSpace c then .ok s
    else if c = '\x7b' then .ok { s with form := .object, place := .first }
    else if c = '[' then .ok { s with form := .list, place := .listFirst }
    else s.misplace ("struct " ++ record) c
  | .misplaced r expected =>
    match r.step c with
    | .more r => s.goTo (.misplaced r expected)
    | .done v | .doneBefore v => mismatch v expected
    | .fault f => textFault f
  | .first =>
    if isSpace c then .ok s
    else if c = '"' then s.goTo (.name .empty)
    else if c = '\x7d' then s.close
    else textFault .keyNotString
  | .next => s.nextStep c
  | .comma =>
    if isSpace c then .ok s
    else if c = '"' then s.goTo (.name .empty)
    else if c = '\x7d' then textFault .trailingComma
    else textFault .keyNotString
  | .name p =>
    match p.step c with
    | .more p => s.goTo (.name p)
    | .done name => s.named name
    | .fault f => textFault f
  | .colon field =>
    if isSpace c then .ok s
    else if c = ':' then s.afterColon field
    else textFault .expectedColon
  | .kind => s.kindStep c
  | .kindName p boxed =>
    match p.step c with
    | .more p => s.goTo (.kindName p boxed)
    | .done name => do
      let k ← kindOf name
      if boxed then s.goTo (.kindColon k) else s.withKind k
    | .fault f => textFault f
  | .kindBox =>
    if isSpace c then .ok s
    else if c = '"' then s.goTo (.kindName .empty true)
    else s.misplace "variant identifier" c
  | .kindColon k =>
    if isSpace c then .ok s
    else if c = ':' then s.goTo (.kindUnit k)
    else textFault .expectedColon
  | .kindUnit k =>
    if isSpace c then .ok s
    else if c = 'n' then
      s.goTo (.kindContent k ⟨[], Json.depthLimit, .literal ['u', 'l', 'l'] .null⟩)
    else s.misplace "unit" c
  | .kindContent k r =>
    match r.step c with
    | .more r => s.goTo (.kindContent k r)
    | .done _ | .doneBefore _ => s.goTo (.kindClose k)
    | .fault f => textFault f
  | .kindClose k =>
    if isSpace c then .ok s
    else if c = '\x7d' then s.withKind k
    else textFault .expectedValue
  | .payload r => s.payloadStep r c
  | .skipped k =>
    match k.step c with
    | .more k => s.goTo (.skipped k)
    | .done => s.goTo .next
    | .doneBefore => s.nextStep c
    | .fault f => textFault f
  | .listFirst =>
    if isSpace c then .ok s
    else if c = ']' then shapeFault (.tooShort 0 record recordSize)
    else s.kindStep c
  | .listNext =>
    if isSpace c then .ok s
    else if c = ']' then s.goTo .behind
    else if c = ',' then s.goTo .listComma
    else textFault .expectedListEnd
  | .listComma =>
    if isSpace c then .ok s
    else if c = ']' then textFault .trailingComma
    else s.payloadStep (.start payloadRoom) c
  | .listEnd => s.listEndStep c
  | .listEndComma =>
    if isSpace c then .ok s
    else if c = ']' then textFault .trailingComma
    else textFault .trailingCharacters
  | .behind => if isSpace c then .ok s else textFault .trailingCharacters

def atEnd (s : Reader) : Except Fault Message :=
  match s.place with
  | .start | .comma | .kind | .kindBox | .kindUnit _ | .listComma => textFault .endInValue
  | .first | .next | .colon _ | .kindColon _ | .kindClose _ => textFault .endInObject
  | .name _ | .kindName _ _ => textFault .endInString
  | .listFirst | .listNext | .listEnd => textFault .endInList
  | .listEndComma => textFault .trailingCharacters
  | .misplaced r expected =>
    match r.atEnd with
    | .ok v => mismatch v expected
    | .error f => textFault f
  | .kindContent _ _ => textFault .endInValue
  | .payload r =>
    match r.atEnd with
    | .error f => textFault f
    | .ok _ => textFault (if s.form = .object then .endInObject else .endInList)
  | .skipped k => textFault (k.atEnd.getD .endInObject)
  | .behind =>
    match s.kind with
    | some k => .ok ⟨k, s.payload.getD .null⟩
    | none => shapeFault (.missingField kindName)

end Reader

def Reader.run (s : Reader) : List Char → Except Fault Message
  | [] => s.atEnd
  | c :: rest =>
    match s.step c with
    | .ok s => run s rest
    | .error f => .error f

def parse (text : String) : Except Fault Message := Reader.start.run text.toList

end HostedTests.Message
