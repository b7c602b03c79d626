import HostedTests.Text.Visible

namespace HostedTests.Text

def hexadecimal (n : Nat) : List Char := Nat.toDigits 16 n

def quotedChar (c : Char) : List Char :=
  match c with
  | '"' => ['\\', '"']
  | '\\' => ['\\', '\\']
  | '\n' => ['\\', 'n']
  | '\r' => ['\\', 'r']
  | '\t' => ['\\', 't']
  | '\x00' => ['\\', '0']
  | c =>
    if 0x20 ≤ c.toNat ∧ c.toNat ≤ 0x7E ∨ isVisible c then [c]
    else ['\\', 'u', '{'] ++ hexadecimal c.toNat ++ ['}']

def quoted (s : String) : String :=
  String.ofList (['"'] ++ s.toList.flatMap quotedChar ++ ['"'])

end HostedTests.Text
