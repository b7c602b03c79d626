/-!
Sinks: where octets are written. A write may take fewer octets than it is given, each write a number
of its own, and after some number of writes or flushes the sink fails.
-/

namespace HostedTests

/-- The most octets that each of the next writes takes, and every write after those. -/
structure Allowance where
  next : List Nat
  afterwards : Option Nat
  deriving DecidableEq, Repr

namespace Allowance

instance : Coe (Option Nat) Allowance := ⟨fun most => ⟨[], most⟩⟩

def now (a : Allowance) : Option Nat :=
  match a.next with
  | [] => a.afterwards
  | most :: _ => some most

def later (a : Allowance) : Allowance := { a with next := a.next.tail }

end Allowance

structure Sink where
  accepted : List UInt8
  mostPerWrite : Allowance
  writesLeft : Option Nat
  flushesLeft : Option Nat
  deriving DecidableEq, Repr

namespace Sink

def willing : Sink := ⟨[], ⟨[], none⟩, none, none⟩

def write (s : Sink) (octets : List UInt8) : Option Nat × Sink :=
  match s.writesLeft with
  | some 0 => (none, s)
  | left =>
    let n := match s.mostPerWrite.now with
      | some most => min most octets.length
      | none => octets.length
    (some n, { s with
      accepted := s.accepted ++ octets.take n
      mostPerWrite := s.mostPerWrite.later
      writesLeft := left.map (· - 1) })

def writeAll (s : Sink) (octets : List UInt8) : Except String Unit × Sink :=
  match octets with
  | [] => (.ok (), s)
  | b :: rest =>
    match s.write (b :: rest) with
    | (none, s) => (.error "sink write failed", s)
    | (some 0, s) => (.error "failed to write whole buffer", s)
    | (some (n + 1), s) => writeAll s (rest.drop n)
termination_by octets.length
decreasing_by simp only [List.length_drop, List.length_cons]; omega

def flush (s : Sink) : Except String Unit × Sink :=
  match s.flushesLeft with
  | some 0 => (.error "sink flush failed", s)
  | left => (.ok (), { s with flushesLeft := left.map (· - 1) })

def put (s : Sink) (octets : List UInt8) : Except String Unit × Sink :=
  match s.writeAll octets with
  | (.error e, s) => (.error e, s)
  | (.ok (), s) => s.flush

end Sink

end HostedTests
