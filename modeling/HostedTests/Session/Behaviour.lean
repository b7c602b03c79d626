import HostedTests.Fault
import HostedTests.Session.Notice

namespace HostedTests

structure Observer where
  label : String
  debugger : StartInfo → Except Trouble Int32

structure Launch where
  process : Nat
  connects : Bool
  deriving DecidableEq, Repr

structure HostBehaviour where
  startInfo : Nat → List String → Except Trouble StartInfo
  launch : StartInfo → Except Trouble Launch
  extensions : List String → Except Trouble (List String)

inductive Utterance where
  | log (severity : Severity) (text : String)
  | raw (text : String)
  deriving DecidableEq

namespace Utterance

def notice : Utterance → Notice
  | log severity text => .log severity text
  | raw text => .raw text

def logged? : Utterance → Option String
  | log _ text => some text
  | raw _ => none

end Utterance

structure CollectionParameters where
  caseEvents : Bool
  environment : Dictionary String
  port : Nat
  deriving DecidableEq

def StartInfo.collecting (i : StartInfo) (p : CollectionParameters) : StartInfo :=
  { i with
    arguments := String.ofList (Text.trimStart
      (i.arguments ++ " --datacollectionport " ++ toString p.port).toList)
    environment := some ((i.environment.getD .empty).extend p.environment) }

structure Preparation where
  utterances : List Utterance
  outcome : Except Trouble (Option CollectionParameters)

structure Collecting where
  utterances : List Utterance
  outcome : Except Trouble (List AttachmentSet)

namespace Collecting

def nothing : Collecting := ⟨[], .ok []⟩

end Collecting

structure Collector where
  initializing : Except Trouble Unit
  preparation : Preparation
  endings : List Collecting
  ended : Nat

namespace Collector

def idle : Collector := ⟨.ok (), ⟨[], .ok none⟩, [], 0⟩

/-- The answer to the next call: of the answers, the last one is given ever after. -/
def ending (c : Collector) : Collecting :=
  (c.endings[c.ended]?.or c.endings.getLast?).getD .nothing

end Collector

end HostedTests
