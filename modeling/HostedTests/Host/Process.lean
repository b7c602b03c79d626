import HostedTests.Dictionary
import HostedTests.Host.Capture
import HostedTests.Host.Command

namespace HostedTests

open Files

inductive Termination where
  | code (n : Nat)
  | signal (n : Nat)
  deriving DecidableEq, Repr

namespace Termination

def code? : Termination → Option Nat
  | code n => some n
  | signal _ => none

end Termination

structure Invocation where
  program : String
  arguments : List String
  directory : Option String
  environment : Dictionary String

structure Exit where
  termination : Termination
  stderr : List UInt8

structure Machine where
  tree : Tree
  base : Place
  spawn : Invocation → Except SystemFault Exit

def StartInfo.invocation (i : StartInfo) : Invocation :=
  ⟨i.fileName, i.words, i.workingDirectory, i.environment.getD .empty⟩

namespace Machine

def pathOf (place : Place) : String := "/" ++ "/".intercalate place

end Machine

structure ProcessReport where
  termination : Termination
  stderr : String
  dropped : Nat
  deriving DecidableEq

namespace Exit

def report (e : Exit) (limit : Nat) : ProcessReport :=
  let c := Capture.ofStream limit e.stderr
  ⟨e.termination, Text.Utf8.repair c.kept, c.dropped⟩

end Exit

namespace HostCommand

def launch (h : HostCommand) (m : Machine) (i : StartInfo) : Except Trouble ProcessReport :=
  match m.spawn i.invocation with
  | .error f =>
    let t := (Trouble.of f.message).within "spawn command"
    .error (t.within ("launch test host " ++ i.fileName))
  | .ok e => .ok (e.report h.stderrLimit)

end HostCommand

end HostedTests
