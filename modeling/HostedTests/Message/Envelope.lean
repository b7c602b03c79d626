import HostedTests.Message.Kind
import HostedTests.Payload.Basic

/-!
Messages: a kind and a payload that is not yet bound to a shape, and their text. A message without
a payload carries null.
-/

namespace HostedTests

open Json (Value)

structure Message where
  kind : Message.Kind
  payload : Value

inductive Message.Fault where
  | text (f : Json.Fault)
  | shape (f : Payload.Fault)
  | missingPayload (kind : Message.Kind)

namespace Message

namespace Fault

def detail? : Fault → Option String
  | text f => some f.message
  | shape f => some f.message
  | missingPayload _ => none

def message : Fault → String
  | text f => "json: " ++ f.message
  | shape f => "json: " ++ f.message
  | missingPayload kind => "message " ++ kind.wire ++ " carries no payload"

end Fault

def kindName : String := "MessageType"

def payloadName : String := "Payload"

def toValue (m : Message) : Value :=
  .object [(kindName, .string m.kind.wire), (payloadName, m.payload)]

def text (m : Message) : String := m.toValue.print

def signal (kind : Kind) : Message := ⟨kind, .null⟩

def carrying {α : Type} [Payload α] (kind : Kind) (a : α) : Message := ⟨kind, Payload.toValue a⟩

end Message

end HostedTests
