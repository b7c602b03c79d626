import HostedTests.Console.Seconds
import HostedTests.Session.Notice

namespace HostedTests

inductive ConsoleEnd where
  | completed (failed : Int64)
  | aborted
  deriving DecidableEq, Repr

namespace ConsoleEnd

def exitCode : ConsoleEnd → Nat
  | completed failed => if failed = 0 then 0 else 3
  | aborted => 2

end ConsoleEnd

structure Console where
  output : List String
  errors : List String
  ended : Option ConsoleEnd
  deriving DecidableEq, Repr

namespace Console

def fresh : Console := ⟨[], [], none⟩

def print (c : Console) (lines : List String) : Console := { c with output := c.output ++ lines }

def complete (c : Console) (e : ConsoleEnd) : Console := { c with ended := c.ended.or (some e) }

def label : Outcome → String
  | .passed => "   passed"
  | .failed => "   FAILED"
  | .skipped => "  skipped"
  | .notFound => "not found"
  | .none => "     none"

def resultLines (r : TestResult) : List String :=
  (label r.outcome ++ "  " ++ r.testCase.fullyQualifiedName) ::
    (r.errorMessage.map fun m => "           " ++ m).toList

def changeLines (c : RunChange) : List String := (c.newResults.getD []).flatMap resultLines

def testLines (tests : List TestCase) : List String := tests.map (·.fullyQualifiedName)

def summary (s : RunStatistics) (elapsed : Clock.TimeSpan) : String :=
  let executed := s.executed
  let passed := s.count .passed
  let failed := s.count .failed
  let skipped := s.count .skipped
  s!"{executed} executed, {passed} passed, {failed} failed, {skipped} skipped in " ++
    secondsText elapsed ++ "s"

def tellDiscovery (c : Console) (d : DiscoveryCompletion) : Console :=
  let c := c.print (testLines (d.lastTests.getD []))
  if d.isAborted then (c.print ["discovery aborted"]).complete .aborted
  else (c.print [toString d.total.toInt ++ " test(s) found"]).complete (.completed 0)

def attachmentLines (sets : List AttachmentSet) : List String :=
  sets.flatMap fun s => s.attachments.map fun a => "attachment  " ++ a.uri

def tellRun (c : Console) (r : RunReport) : Console :=
  let c := c.print ((r.lastChange.map changeLines).getD [])
  let c := c.print (attachmentLines (r.attachments.getD []))
  if r.runEnd.isAborted then
    (c.print ["run aborted: " ++ r.runEnd.error.getD "no reason given"]).complete .aborted
  else
    let s := r.runEnd.statistics.getD .empty
    (c.print [summary s r.runEnd.elapsed]).complete (.completed (s.count .failed))

def tell (c : Console) : Notice → Console
  | .log severity text => { c with errors := c.errors ++ ["[" ++ severity.name ++ "] " ++ text] }
  | .raw _ => c
  | .discovered tests => c.print (testLines tests)
  | .discoveryComplete d => c.tellDiscovery d
  | .runChanged change => c.print (changeLines change)
  | .runComplete r => c.tellRun r
  | .launchUnderDebugger _ => c

def after (notices : List Notice) : Console := notices.foldl tell fresh

end Console

end HostedTests
