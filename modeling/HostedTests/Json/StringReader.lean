import HostedTests.Json.Fault

namespace HostedTests.Json

inductive Escape where
  | none
  | backslash
  -- The characters after the `u`, the last one first, how many octets they take, and the first
  -- half of a pair if one stands before.
  | hex (taken : List Char) (octets : Nat) (high : Option Nat)
  | pairBackslash (high : Nat)
  | pairLetter (high : Nat)
  deriving DecidableEq, Repr

structure PartialString where
  done : List Char
  escape : Escape
  deriving DecidableEq, Repr

inductive StringStep where
  | more (s : PartialString)
  | done (text : String)
  | fault (f : Fault)

def hexValue? (c : Char) : Option Nat :=
  if '0' ≤ c ∧ c ≤ '9' then some (c.toNat - '0'.toNat)
  else if 'a' ≤ c ∧ c ≤ 'f' then some (c.toNat - 'a'.toNat + 10)
  else if 'A' ≤ c ∧ c ≤ 'F' then some (c.toNat - 'A'.toNat + 10)
  else none

def hexWord? : List Char → Option Nat
  | [d, c, b, a] => do
    let a ← hexValue? a
    let b ← hexValue? b
    let c ← hexValue? c
    let d ← hexValue? d
    return ((a * 16 + b) * 16 + c) * 16 + d
  | _ => none

def isHighSurrogate (n : Nat) : Bool := 0xD800 ≤ n && n ≤ 0xDBFF

def isLowSurrogate (n : Nat) : Bool := 0xDC00 ≤ n && n ≤ 0xDFFF

def pairChar (high low : Nat) : Char :=
  Char.ofNat (0x10000 + (high - 0xD800) * 0x400 + (low - 0xDC00))

namespace PartialString

def empty : PartialString := ⟨[], .none⟩

def push (s : PartialString) (c : Char) : PartialString := ⟨c :: s.done, .none⟩

def word (s : PartialString) (n : Nat) : Option Nat → StringStep
  | none =>
    if isLowSurrogate n then .fault .loneSurrogate
    else if isHighSurrogate n then .more ⟨s.done, .pairBackslash n⟩
    else .more (s.push (Char.ofNat n))
  | some high =>
    if isLowSurrogate n then .more (s.push (pairChar high n)) else .fault .loneSurrogate

def hexStep (s : PartialString) (taken : List Char) (octets : Nat) (high : Option Nat)
    (c : Char) (word : Nat → Option Nat → StringStep) : StringStep :=
  let octets := octets + c.utf8Size
  let taken := c :: taken
  if octets < 4 then .more ⟨s.done, .hex taken octets high⟩
  else
    match hexWord? taken with
    | some n => word n high
    | none => .fault .invalidEscape

def simpleEscape? (c : Char) : Option Char :=
  match c with
  | '"' => some '"'
  | '\\' => some '\\'
  | '/' => some '/'
  | 'b' => some '\x08'
  | 'f' => some '\x0c'
  | 'n' => some '\n'
  | 'r' => some '\r'
  | 't' => some '\t'
  | _ => none

def stepWith (s : PartialString) (word : Nat → Option Nat → StringStep) (c : Char) : StringStep :=
  match s.escape with
  | .none =>
    if c = '"' then .done (String.ofList s.done.reverse)
    else if c = '\\' then .more ⟨s.done, .backslash⟩
    else if c.toNat < 0x20 then .fault .controlCharacter
    else .more (s.push c)
  | .backslash =>
    if c = 'u' then .more ⟨s.done, .hex [] 0 none⟩
    else
      match simpleEscape? c with
      | some d => .more (s.push d)
      | none => .fault .invalidEscape
  | .hex taken octets high => hexStep s taken octets high c word
  | .pairBackslash high =>
    if c = '\\' then .more ⟨s.done, .pairLetter high⟩ else .fault .unpairedEscape
  | .pairLetter high =>
    if c = 'u' then .more ⟨s.done, .hex [] 0 (some high)⟩ else .fault .unpairedEscape

def step (s : PartialString) (c : Char) : StringStep := s.stepWith s.word c

def skipStep (s : PartialString) (c : Char) : StringStep :=
  s.stepWith (fun _ _ => .more ⟨s.done, .none⟩) c

end PartialString

end HostedTests.Json
