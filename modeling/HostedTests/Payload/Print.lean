import HostedTests.Payload.Bind

namespace HostedTests.Payload

open Json (Value)

def integer (i : Int) : Value := .number (.int i)

def Leaf.print : (l : Leaf) → l.Carrier → Value
  | text, s => .string s
  | flag, b => .bool b
  | int32, n => integer (Int32.toInt n)
  | int64, n => integer (Int64.toInt n)
  | uuid, u => .string (Uuid.format u)
  | instant, i => .string (Clock.Instant.format i)
  | timeSpan, t => .string (Clock.TimeSpan.format t)
  | severity, s => .string (Severity.name s)
  | outcome, o => .string (Outcome.name o)
  | tally, t => .object ((Tally.entries t).map fun e => (e.1.name, integer e.2.toInt))
  | value, v => v

mutual

def Shape.print : (s : Shape) → s.Carrier → Value
  | .leaf l, x => l.print x
  | .list s, xs => .list (xs.map fun x => s.print x)
  | .optional s, x =>
    match x with
    | none => .null
    | some x => s.print x
  | .dictionary s, d => .object (d.entries.map fun e => (e.1, s.print e.2))
  | .record _ fields, xs => .object (fields.members xs)

def Fields.members : (fields : Fields) → fields.Carrier → List (String × Value)
  | .nil, _ => []
  | .cons name _ s rest, (x, xs) => (name, s.print x) :: rest.members xs

end

end HostedTests.Payload
