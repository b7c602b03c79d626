import HostedTests.Json.Value
import HostedTests.Number.Shortest

namespace HostedTests.Json

/-- In place from `0.00001` to below `1e+16`. -/
def floatLayout : Number.Layout := ⟨-4, 16, 'e', ['+']⟩

def Number.text : Number → List Char
  | .int i => Text.signed i
  | .float negative x =>
    (if negative then ['-'] else []) ++
      (if x.isZero then ['0', '.', '0'] else floatLayout.render x.shortest)

def hexDigit (n : Nat) : Char :=
  if n < 10 then Char.ofNat ('0'.toNat + n) else Char.ofNat ('a'.toNat + (n - 10))

def escaped (c : Char) : List Char :=
  match c with
  | '"' => ['\\', '"']
  | '\\' => ['\\', '\\']
  | '\x08' => ['\\', 'b']
  | '\x0c' => ['\\', 'f']
  | '\n' => ['\\', 'n']
  | '\r' => ['\\', 'r']
  | '\t' => ['\\', 't']
  | c =>
    if c.toNat < 0x20 then
      ['\\', 'u', '0', '0', hexDigit (c.toNat / 16), hexDigit (c.toNat % 16)]
    else [c]

def stringText (s : List Char) : List Char := '"' :: s.flatMap escaped ++ ['"']

mutual

def Value.text : Value → List Char
  | .null => ['n', 'u', 'l', 'l']
  | .bool true => ['t', 'r', 'u', 'e']
  | .bool false => ['f', 'a', 'l', 's', 'e']
  | .number n => n.text
  | .string s => stringText s.toList
  | .list items => '[' :: itemsText items
  | .object members => '\x7b' :: membersText members

def itemsText : List Value → List Char
  | [] => [']']
  | v :: rest => Value.text v ++ moreItemsText rest

def moreItemsText : List Value → List Char
  | [] => [']']
  | v :: rest => ',' :: Value.text v ++ moreItemsText rest

def membersText : List (String × Value) → List Char
  | [] => ['\x7d']
  | m :: rest => memberText m ++ moreMembersText rest

def moreMembersText : List (String × Value) → List Char
  | [] => ['\x7d']
  | m :: rest => ',' :: memberText m ++ moreMembersText rest

def memberText : String × Value → List Char
  | (name, v) => stringText name.toList ++ ':' :: Value.text v

end

def Value.print (v : Value) : String := String.ofList v.text

end HostedTests.Json
