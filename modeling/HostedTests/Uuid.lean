import HostedTests.Json.StringReader
import HostedTests.Text.Quoted
import HostedTests.Text.Decimal
import HostedTests.Text.Utf8

/-!
Universally unique identifiers: 128 bits, written as 32 hexadecimal digits in five groups, and
read in four forms: plain, in groups, in groups between braces, and in groups as a resource name.
-/

namespace HostedTests

abbrev uuidBound : Nat := 0x100000000000000000000000000000000

structure Uuid where
  value : Nat
  value_lt : value < uuidBound
  deriving DecidableEq

namespace Uuid

def nil : Uuid := ⟨0, by decide⟩

instance : Inhabited Uuid := ⟨nil⟩

def numbered (n : Nat) : Uuid := ⟨n % uuidBound, Nat.mod_lt n (by decide)⟩

def groupSizes : List Nat := [8, 4, 4, 4, 12]

def digits (u : Uuid) : List Char :=
  let ds := Text.hexadecimal u.value
  List.replicate (32 - ds.length) '0' ++ ds

def inGroups : List Nat → List Char → List Char
  | [], cs => cs
  | [n], cs => cs.take n
  | n :: rest, cs => cs.take n ++ '-' :: inGroups rest (cs.drop n)

def render (u : Uuid) : List Char := inGroups groupSizes u.digits

def format (u : Uuid) : String := String.ofList u.render

inductive Fault where
  | length (found : Nat)
  | character (found : Char) (index : Nat)
  | groupCount (found : Nat)
  | groupLength (group expected found : Nat)
  deriving DecidableEq, Repr

def Fault.message : Fault → String
  | length n => s!"invalid length: found {n}"
  | character c i => "invalid character: found `" ++ c.toString ++ s!"` at {i}"
  | groupCount n => s!"invalid group count: expected 5, found {n}"
  | groupLength g e n => s!"invalid group length in group {g}: expected {e}, found {n}"

def longest : Nat := 45

def resourceName : List Char := "urn:uuid:".toList

structure Wrapped where
  offset : Nat
  plain : Bool
  body : List Char

def unwrap (cs : List Char) : Wrapped :=
  if cs.head? = some '\x7b' ∧ cs.getLast? = some '\x7d' ∧ 2 ≤ cs.length then
    ⟨1, false, (cs.drop 1).dropLast⟩
  else if (cs.take resourceName.length).map Char.toLower = resourceName then
    ⟨resourceName.length, false, cs.drop resourceName.length⟩
  else ⟨0, true, cs⟩

def badCharacter? (index : Nat) : List Char → Option Fault
  | [] => none
  | c :: rest =>
    if c = '-' ∨ (Json.hexValue? c).isSome then badCharacter? (index + c.utf8Size) rest
    else some (.character c index)

def badGroup? (group : Nat) : List Nat → List (List Char) → Option Fault
  | size :: sizes, g :: groups =>
    if g.length = size then badGroup? (group + 1) sizes groups
    else some (.groupLength group size g.length)
  | _, _ => none

def ofHex (cs : List Char) : Nat :=
  cs.foldl (fun n c => 16 * n + (Json.hexValue? c).getD 0) 0

def ofDigits (cs : List Char) : Except Fault Uuid :=
  if h : ofHex cs < uuidBound then .ok ⟨ofHex cs, h⟩ else .error (.length cs.length)

def read (cs : List Char) : Except Fault Uuid :=
  let octets := Text.Utf8.size cs
  if octets = 0 ∨ longest < octets then .error (.length octets)
  else
    let w := unwrap cs
    match badCharacter? w.offset w.body with
    | some f => .error f
    | none =>
      let groups := w.body.splitOn '-'
      if groups.length = 1 ∧ w.plain then
        if octets = 32 then ofDigits w.body else .error (.length octets)
      else if groups.length ≠ groupSizes.length then .error (.groupCount groups.length)
      else
        match badGroup? 0 groupSizes groups with
        | some f => .error f
        | none => ofDigits groups.flatten

def parse (text : String) : Except Fault Uuid := read text.toList

end Uuid

end HostedTests
