import HostedTests.Text.Quoted
import HostedTests.Text.Decimal

namespace HostedTests.Toml.Quoted

inductive Style where
  | basic
  | literal
  | basicLines
  | literalLines
  deriving DecidableEq, Repr

def longestRun (c : Char) (now most : Nat) : List Char → Nat
  | [] => most
  | d :: rest =>
    if d = c then longestRun c (now + 1) (max most (now + 1)) rest
    else longestRun c 0 most rest

def needsEscape (c : Char) : Bool :=
  (c.toNat < 0x20 && c ≠ '\t' && c ≠ '\n') || c.toNat = 0x7F

/-- The style of a text. Single quotes and backslashes show as they are in literals, double quotes
in literals and in texts of many lines. -/
def style (cs : List Char) : Style :=
  let escapes := cs.any needsEscape
  let backslash := '\\' ∈ cs
  let lines := '\n' ∈ cs
  let doubles := longestRun '"' 0 0 cs
  let singles := longestRun '\'' 0 0 cs
  if !escapes ∧ !backslash ∧ doubles = 0 ∧ !lines then .basic
  else if !escapes ∧ singles = 0 ∧ !lines then .literal
  else if !escapes ∧ !backslash ∧ doubles ≤ 2 then .basicLines
  else if !escapes ∧ singles ≤ 2 then .literalLines
  else if lines then .basicLines
  else .basic

def fourDigits (n : Nat) : List Char :=
  let ds := (Text.hexadecimal n).map Char.toUpper
  List.replicate (4 - ds.length) '0' ++ ds

def escaped (lines : Bool) (quotes : Nat) (c : Char) : List Char :=
  if c = '"' then if (if lines then 2 else 0) ≤ quotes then ['\\', '"'] else ['"']
  else if c = '\x08' then ['\\', 'b']
  else if c = '\t' then ['\\', 't']
  else if c = '\n' then if lines then ['\n'] else ['\\', 'n']
  else if c = '\x0c' then ['\\', 'f']
  else if c = '\r' then ['\\', 'r']
  else if c = '\\' then ['\\', '\\']
  else if needsEscape c then '\\' :: 'u' :: fourDigits c.toNat
  else [c]

/-- The characters between double quotes. Quotes in a row are counted from the last escape. -/
def escapeAll (lines : Bool) (quotes : Nat) : List Char → List Char
  | [] => []
  | c :: rest =>
    let e := escaped lines quotes c
    let quotes := if e = ['"'] then quotes + 1 else 0
    e ++ escapeAll lines quotes rest

def write (cs : List Char) : List Char :=
  let opening := if '\n' ∈ cs then ['\n'] else []
  match style cs with
  | .basic => ['"'] ++ escapeAll false 0 cs ++ ['"']
  | .literal => ['\''] ++ cs ++ ['\'']
  | .basicLines => ['"', '"', '"'] ++ opening ++ escapeAll true 0 cs ++ ['"', '"', '"']
  | .literalLines => ['\'', '\'', '\''] ++ opening ++ cs ++ ['\'', '\'', '\'']

end HostedTests.Toml.Quoted
