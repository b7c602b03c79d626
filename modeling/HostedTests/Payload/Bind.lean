import HostedTests.Payload.Shape

/-!
Binding: the value of a shape that a JSON value stands for. Members are bound in the order in which
they stand, unknown ones passed over, and only then are the fields that nobody gave looked at.
-/

namespace HostedTests.Payload

open Json (Value)

def mismatch {α : Type} (v : Value) (expected : String) : Except Fault α :=
  .error (.invalidType (.of v) expected)

def bindInteger (expected : String) (low high : Int) (v : Value) : Except Fault Int :=
  match v with
  | .number (.int i) =>
    if low ≤ i ∧ i ≤ high then .ok i else .error (.invalidInteger i expected)
  | v => mismatch v expected

def bindString (expected : String) (v : Value) : Except Fault String :=
  match v with
  | .string s => .ok s
  | v => mismatch v expected

def choose {α : Type} (items : List α) (name : α → String) (found : String) : Except Fault α :=
  match items.find? fun a => name a = found with
  | some a => .ok a
  | none => .error (.unknownName found (items.map name))

def bindName {α : Type} (items : List α) (name : α → String) (v : Value) : Except Fault α :=
  match v with
  | .string s => choose items name s
  | .object [(s, content)] => do
    let a ← choose items name s
    match content with
    | .null => return a
    | content => mismatch content "unit"
  | .object _ => .error .notSingleKey
  | v => mismatch v "string or map"

def bindInt64 (v : Value) : Except Fault Int64 :=
  (bindInteger "i64" Int64.minValue.toInt Int64.maxValue.toInt v).map Int64.ofInt

def bindInt32 (v : Value) : Except Fault Int32 :=
  (bindInteger "i32" Int32.minValue.toInt Int32.maxValue.toInt v).map Int32.ofInt

def bindTally (v : Value) : Except Fault Tally :=
  match v with
  | .object members =>
    members.foldlM (fun t m => do
      let o ← choose Outcome.all Outcome.name m.1
      let n ← bindInt64 m.2
      return t.set o n) Tally.empty
  | v => mismatch v "a map"

def bindUuid (v : Value) : Except Fault Uuid := do
  let s ← bindString "a formatted UUID string" v
  (Uuid.parse s).mapError .uuid

def bindInstant (v : Value) : Except Fault Clock.Instant := do
  let s ← bindString "an RFC 3339 formatted date and time string" v
  (Clock.Timestamp.lenient s.toList).mapError .timestamp

def bindTimeSpan (v : Value) : Except Fault Clock.TimeSpan := do
  let s ← bindString "a string" v
  (Clock.TimeSpan.parse s).mapError .timeSpan

def bindFlag (v : Value) : Except Fault Bool :=
  match v with
  | .bool b => .ok b
  | v => mismatch v "a boolean"

def Leaf.bind : (l : Leaf) → Value → Except Fault l.Carrier
  | text, v => bindString "a string" v
  | flag, v => bindFlag v
  | int32, v => bindInt32 v
  | int64, v => bindInt64 v
  | uuid, v => bindUuid v
  | instant, v => bindInstant v
  | timeSpan, v => bindTimeSpan v
  | severity, v => bindName Severity.all Severity.name v
  | outcome, v => bindName Outcome.all Outcome.name v
  | tally, v => bindTally v
  | value, v => .ok v

def Fields.Given : Fields → Type
  | .nil => Unit
  | .cons _ _ s rest => Option s.Carrier × rest.Given

def Fields.noneGiven : (fields : Fields) → fields.Given
  | .nil => ()
  | .cons _ _ _ rest => (none, rest.noneGiven)

def missing (required : Bool) (s : Shape) : Option s.Carrier :=
  if required then none else s.empty?

def Fields.finish : (fields : Fields) → fields.Given → Except Fault fields.Carrier
  | .nil, _ => .ok ()
  | .cons name required s rest, (given, more) =>
    match given.or (missing required s) with
    | some x => (rest.finish more).map fun xs => (x, xs)
    | none => .error (.missingField name)

mutual

def Shape.bind : (s : Shape) → Value → Except Fault s.Carrier
  | .leaf l, v => l.bind v
  | .list s, v =>
    match v with
    | .list items => items.mapM fun item => s.bind item
    | v => mismatch v "a sequence"
  | .optional s, v =>
    match v with
    | .null => .ok none
    | v => (s.bind v).map some
  | .dictionary s, v =>
    match v with
    | .object members => members.foldlM (fun d m => (s.bind m.2).map (d.insert m.1)) .empty
    | v => mismatch v "a map"
  | .record name fields, v =>
    match v with
    | .object members => do
      let given ← members.foldlM (fun given m => fields.give given m.1 m.2) fields.noneGiven
      fields.finish given
    | .list items => do
      let (record, rest) ← fields.bindItems name fields.length 0 items
      if rest.isEmpty then return record else throw (.tooLong items.length)
    | v => mismatch v ("struct " ++ name)

def Fields.give : (fields : Fields) → fields.Given → String → Value → Except Fault fields.Given
  | .nil, given, _, _ => .ok given
  | .cons name _ s rest, (given, more), found, v =>
    if found = name then (s.bind v).map fun x => (some x, more)
    else (rest.give more found v).map fun more => (given, more)

def Fields.bindItems : (fields : Fields) → String → Nat → Nat → List Value →
    Except Fault (fields.Carrier × List Value)
  | .nil, _, _, _, items => .ok ((), items)
  | .cons _ required s rest, record, total, index, items =>
    match items with
    | item :: items => do
      let x ← s.bind item
      let (xs, items) ← rest.bindItems record total (index + 1) items
      return ((x, xs), items)
    | [] =>
      match missing required s with
      | some x =>
        (rest.bindItems record total (index + 1) []).map fun r => ((x, r.1), r.2)
      | none => .error (.tooShort index record total)

end

end HostedTests.Payload
