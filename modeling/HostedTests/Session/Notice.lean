import HostedTests.Payload.Completion
import HostedTests.Payload.Criteria

namespace HostedTests

structure RunReport where
  runEnd : RunEnd
  lastChange : Option RunChange
  attachments : Option (List AttachmentSet)
  executorUris : Option (List String)
  deriving DecidableEq

namespace RunReport

def only (runEnd : RunEnd) : RunReport := ⟨runEnd, none, none, none⟩

end RunReport

def RunCompletion.report? (c : RunCompletion) : Option RunReport :=
  c.runEnd.map fun e => ⟨e, c.lastChange, c.attachments, c.executorUris⟩

inductive Notice where
  | log (severity : Severity) (text : String)
  | raw (text : String)
  | discovered (tests : List TestCase)
  | discoveryComplete (completion : DiscoveryCompletion)
  | runChanged (change : RunChange)
  | runComplete (report : RunReport)
  | launchUnderDebugger (info : StartInfo)
  deriving DecidableEq

namespace Notice

inductive Kind where
  | log
  | raw
  | discovered
  | discoveryComplete
  | runChanged
  | runComplete
  | launchUnderDebugger
  deriving DecidableEq, Repr

def kind : Notice → Kind
  | log _ _ => .log
  | raw _ => .raw
  | discovered _ => .discovered
  | discoveryComplete _ => .discoveryComplete
  | runChanged _ => .runChanged
  | runComplete _ => .runComplete
  | launchUnderDebugger _ => .launchUnderDebugger

def isCompletion (n : Notice) : Bool := n.kind = .discoveryComplete ∨ n.kind = .runComplete

end Notice

end HostedTests
