import HostedTests.Payload.Outcome
import HostedTests.Payload.Fault

/-!
Shapes: what a payload may look like, and the type of the values of each shape. A record's fields
have an order, which is that of its written members and of its form as a list.
-/

namespace HostedTests.Payload

inductive Leaf where
  | text
  | flag
  | int32
  | int64
  | uuid
  | instant
  | timeSpan
  | severity
  | outcome
  | tally
  | value
  deriving DecidableEq

def Leaf.Carrier : Leaf → Type
  | text => String
  | flag => Bool
  | int32 => Int32
  | int64 => Int64
  | uuid => Uuid
  | instant => Clock.Instant
  | timeSpan => Clock.TimeSpan
  | severity => Severity
  | outcome => Outcome
  | tally => Tally
  | value => Json.Value

mutual

inductive Shape where
  | leaf (l : Leaf)
  | list (item : Shape)
  | optional (s : Shape)
  | dictionary (s : Shape)
  | record (name : String) (fields : Fields)

inductive Fields where
  | nil
  | cons (name : String) (required : Bool) (s : Shape) (rest : Fields)

end

mutual

def Shape.Carrier : Shape → Type
  | .leaf l => l.Carrier
  | .list s => List s.Carrier
  | .optional s => Option s.Carrier
  | .dictionary s => Dictionary s.Carrier
  | .record _ fields => fields.Carrier

def Fields.Carrier : Fields → Type
  | .nil => Unit
  | .cons _ _ s rest => s.Carrier × rest.Carrier

end

namespace Shape

abbrev text : Shape := .leaf .text
abbrev flag : Shape := .leaf .flag
abbrev int32 : Shape := .leaf .int32
abbrev int64 : Shape := .leaf .int64
abbrev uuid : Shape := .leaf .uuid
abbrev instant : Shape := .leaf .instant
abbrev timeSpan : Shape := .leaf .timeSpan
abbrev severity : Shape := .leaf .severity
abbrev outcome : Shape := .leaf .outcome
abbrev tally : Shape := .leaf .tally
abbrev value : Shape := .leaf .value

end Shape

namespace Fields

abbrev required (name : String) (s : Shape) (rest : Fields) : Fields := .cons name true s rest

abbrev defaulted (name : String) (s : Shape) (rest : Fields) : Fields := .cons name false s rest

def length : Fields → Nat
  | .nil => 0
  | .cons _ _ _ rest => rest.length + 1

def names : Fields → List String
  | .nil => []
  | .cons name _ _ rest => name :: rest.names

end Fields

def Leaf.empty? : (l : Leaf) → Option l.Carrier
  | text => some ("" : String)
  | flag => some false
  | int32 => some (0 : Int32)
  | int64 => some (0 : Int64)
  | tally => some Tally.empty
  | value => some Json.Value.null
  | uuid => none
  | instant => none
  | timeSpan => none
  | severity => none
  | outcome => none

def Shape.empty? : (s : Shape) → Option s.Carrier
  | .leaf l => l.empty?
  | .list s => some ([] : List s.Carrier)
  | .optional s => some (none : Option s.Carrier)
  | .dictionary s => some (Dictionary.empty : Dictionary s.Carrier)
  | .record _ _ => none

end HostedTests.Payload
