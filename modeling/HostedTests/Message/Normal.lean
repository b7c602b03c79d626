import HostedTests.Message.Envelope

/-!
Normal timestamps: under the names of start and end times, texts that are strict timestamps are put
into universal time. Messages for the user are left as they are.
-/

namespace HostedTests.Message

open Json (Value)

def timestampNames : List String := ["StartTime", "EndTime"]

mutual

def normalize : Value → Value
  | .list items => .list (normalizeItems items)
  | .object members => .object (normalizeMembers members)
  | v => v

def normalizeItems : List Value → List Value
  | [] => []
  | v :: rest => normalize v :: normalizeItems rest

def normalizeMembers : List (String × Value) → List (String × Value)
  | [] => []
  | m :: rest => normalizeMember m :: normalizeMembers rest

def normalizeMember : String × Value → String × Value
  | (name, .string s) =>
    (name, .string (if name ∈ timestampNames then Clock.Timestamp.toUtc s else s))
  | (name, v) => (name, normalize v)

end

def boundPayload (m : Message) : Value :=
  if m.kind = .remark then m.payload else normalize m.payload

def bind {α : Type} [Payload α] (m : Message) : Except Fault α :=
  (Payload.ofValue m.boundPayload).mapError .shape

def require {α : Type} [Payload α] (m : Message) : Except Fault α :=
  match m.payload with
  | .null => .error (.missingPayload m.kind)
  | _ => m.bind

end HostedTests.Message
