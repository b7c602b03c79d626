import HostedTests.Clock.TimeSpan
import HostedTests.Clock.Timestamp
import HostedTests.Json.Printer
import HostedTests.Uuid

namespace HostedTests.Payload

inductive Found where
  | null
  | bool (b : Bool)
  | number (n : Json.Number)
  | string (s : String)
  | list
  | object

def Found.of : Json.Value → Found
  | .null => .null
  | .bool b => .bool b
  | .number n => .number n
  | .string s => .string s
  | .list _ => .list
  | .object _ => .object

def Found.message : Found → String
  | null => "null"
  | bool b => "boolean `" ++ (if b then "true" else "false") ++ "`"
  | number n =>
    (match n with
      | .int _ => "integer `"
      | .float _ _ => "floating point `") ++ String.ofList n.text ++ "`"
  | string s => "string " ++ Text.quoted s
  | list => "sequence"
  | object => "map"

inductive Fault where
  | invalidType (found : Found) (expected : String)
  | invalidInteger (found : Int) (expected : String)
  | notSingleKey
  | missingField (name : String)
  | duplicateField (name : String)
  | unknownName (found : String) (expected : List String)
  | tooShort (found : Nat) (record : String) (fields : Nat)
  | tooLong (found : Nat)
  | uuid (f : Uuid.Fault)
  | timestamp (f : Clock.Timestamp.Fault)
  | timeSpan (f : Clock.TimeSpan.Fault)

def backquoted (s : String) : String := "`" ++ s ++ "`"

def alternatives : List String → String
  | [] => "there are no variants"
  | [a] => "expected " ++ backquoted a
  | [a, b] => "expected " ++ backquoted a ++ " or " ++ backquoted b
  | names => "expected one of " ++ ", ".intercalate (names.map backquoted)

def Fault.message : Fault → String
  | invalidType found expected => "invalid type: " ++ found.message ++ ", expected " ++ expected
  | invalidInteger i expected =>
    "invalid value: integer `" ++ String.ofList (Text.signed i) ++ "`, expected " ++ expected
  | notSingleKey => "invalid value: map, expected map with a single key"
  | missingField name => "missing field " ++ backquoted name
  | duplicateField name => "duplicate field " ++ backquoted name
  | unknownName found expected =>
    "unknown variant " ++ backquoted found ++ ", " ++ alternatives expected
  | tooShort n record fields =>
    s!"invalid length {n}, expected struct " ++ record ++ s!" with {fields} elements"
  | tooLong n => s!"invalid length {n}, expected fewer elements in array"
  | uuid f => "UUID parsing failed: " ++ f.message
  | timestamp f => f.message
  | timeSpan f => f.message

end HostedTests.Payload
