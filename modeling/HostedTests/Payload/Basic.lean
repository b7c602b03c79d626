import HostedTests.Payload.Print

namespace HostedTests

open Json (Value)

class Payload (α : Type) where
  shape : Payload.Shape
  pack : α → shape.Carrier
  unpack : shape.Carrier → α

namespace Payload

def ofValue {α : Type} [Payload α] (v : Value) : Except Fault α :=
  ((shape α).bind v).map unpack

def toValue {α : Type} [Payload α] (a : α) : Value := (shape α).print (pack a)

def text {α : Type} [Payload α] (a : α) : String := (toValue a).print

instance : Payload Value := ⟨.value, id, id⟩

instance : Payload String := ⟨.text, id, id⟩

instance : Payload Int32 := ⟨.int32, id, id⟩

instance {α : Type} [Payload α] : Payload (List α) :=
  ⟨.list (shape α), List.map pack, List.map unpack⟩

instance {α : Type} [Payload α] : Payload (Option α) :=
  ⟨.optional (shape α), Option.map pack, Option.map unpack⟩

end Payload

end HostedTests
